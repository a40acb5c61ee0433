import Mathlib.Data.Sym.Sym2
import Sealed.LetterProperties

/-! The key that two contacts share: both derive it from one transcript, and the transcript
tells which two contacts it is for. -/

set_option autoImplicit false

namespace Sealed

open Foundation

/-- Two byte arrays of one length in lexicographic order. -/
def sortPair {n : Nat} (left right : Bytes n) : Bytes n × Bytes n :=
  if left.toList ≤ right.toList then (left, right) else (right, left)

theorem sortPair_cases {n : Nat} (left right : Bytes n) :
    sortPair left right = (left, right) ∨ sortPair left right = (right, left) := by
  unfold sortPair
  split
  · exact .inl rfl
  · exact .inr rfl

theorem sortPair_comm {n : Nat} (left right : Bytes n) :
    sortPair left right = sortPair right left := by
  unfold sortPair
  split
  · rename_i below
    split
    · rename_i above
      obtain rfl := Bytes.ext (List.le_antisymm below above)
      rfl
    · rfl
  · rename_i notBelow
    rw [if_pos ((List.le_total left.toList right.toList).resolve_left notBelow)]

theorem sortPair_eq_iff {n : Nat} {left right other another : Bytes n} :
    sortPair left right = sortPair other another ↔ s(left, right) = s(other, another) := by
  rw [Sym2.eq_iff]
  constructor
  · intro same
    rcases sortPair_cases left right with first | first
    · rcases sortPair_cases other another with second | second
      · exact .inl (Prod.mk.inj (first.symm.trans (same.trans second)))
      · exact .inr (Prod.mk.inj (first.symm.trans (same.trans second)))
    · rcases sortPair_cases other another with second | second
      · exact .inr (Prod.mk.inj (first.symm.trans (same.trans second))).symm
      · exact .inl (Prod.mk.inj (first.symm.trans (same.trans second))).symm
  · rintro (⟨rfl, rfl⟩ | ⟨rfl, rfl⟩)
    · rfl
    · exact sortPair_comm _ _

/-- The info string of a contact root: the key materials of both contacts, sorted. -/
def contactInfo (localProfile peerProfile : PublicProfile) : List UInt8 :=
  let (first, second) :=
    sortPair localProfile.canonicalKeyMaterial peerProfile.canonicalKeyMaterial
  contactRootInfo ++ first.toList ++ second.toList

theorem contactInfo_comm (localProfile peerProfile : PublicProfile) :
    contactInfo localProfile peerProfile = contactInfo peerProfile localProfile := by
  unfold contactInfo
  rw [sortPair_comm]

/-- The info string determines the sorted pair: both materials have a fixed width. -/
theorem contactInfo_eq_iff {left right other another : PublicProfile} :
    contactInfo left right = contactInfo other another ↔
      s(left.canonicalKeyMaterial, right.canonicalKeyMaterial) =
        s(other.canonicalKeyMaterial, another.canonicalKeyMaterial) := by
  rw [← sortPair_eq_iff]
  constructor
  · intro same
    simp only [contactInfo, List.append_assoc] at same
    obtain ⟨first, second⟩ := Bytes.append_inj (List.append_cancel_left same)
    exact Prod.ext first (Bytes.ext second)
  · intro same
    unfold contactInfo
    rw [same]

variable {primitives : Primitives}

/-- The contact root of a shared secret, bound to the two contacts. -/
def contactRoot (primitives : Primitives) (shared : Bytes 32)
    (localProfile peerProfile : PublicProfile) : Bytes 32 :=
  primitives.hkdfOutput (some contactRootSalt) shared.toList
    (contactInfo localProfile peerProfile) 32

theorem deriveContactRoot_eq (localSecrets : IdentitySecrets)
    (localProfile peerProfile : PublicProfile) :
    deriveContactRoot primitives localSecrets localProfile peerProfile = (do
      .reject (localSecrets.publicProfile primitives ≠ localProfile)
        (.invalidInput "local public profile does not match private identity")
      rejectAllZero (primitives.diffieHellman localSecrets.agreementSecret
        peerProfile.agreementPublic)
      return contactRoot primitives
        (primitives.diffieHellman localSecrets.agreementSecret peerProfile.agreementPublic)
        localProfile peerProfile) := by
  unfold deriveContactRoot contactRoot contactInfo sortPair
  simp only [hkdf32_eq]
  split <;> rfl

theorem deriveContactRoot_eq_ok_iff {localSecrets : IdentitySecrets}
    {localProfile peerProfile : PublicProfile} {root : Bytes 32} :
    deriveContactRoot primitives localSecrets localProfile peerProfile = .ok root ↔
      localSecrets.publicProfile primitives = localProfile ∧
        primitives.diffieHellman localSecrets.agreementSecret peerProfile.agreementPublic ≠
          Bytes.replicate 32 0 ∧
        root = contactRoot primitives
          (primitives.diffieHellman localSecrets.agreementSecret peerProfile.agreementPublic)
          localProfile peerProfile := by
  simp only [deriveContactRoot_eq, Checked.bind_eq_ok, Checked.reject_eq_ok_iff, not_not,
    rejectAllZero_eq_ok_iff, exists_const, Checked.pure_eq_ok, Except.ok.injEq]
  exact and_congr_right fun _ => and_congr_right fun _ => eq_comm

theorem deriveContactRoot_comm (commutes : primitives.AgreementCommutes)
    (left right : IdentitySecrets) :
    deriveContactRoot primitives left (left.publicProfile primitives)
        (right.publicProfile primitives) =
      deriveContactRoot primitives right (right.publicProfile primitives)
        (left.publicProfile primitives) := by
  have agreed : primitives.diffieHellman left.agreementSecret
      (right.publicProfile primitives).agreementPublic =
        primitives.diffieHellman right.agreementSecret
          (left.publicProfile primitives).agreementPublic := commutes _ _
  rw [deriveContactRoot_eq, deriveContactRoot_eq, agreed, contactRoot, contactRoot,
    contactInfo_comm (left.publicProfile primitives)]
  simp only [Checked.reject_of_not (not_not.2 rfl), Checked.ok_bind]

theorem noPanic_deriveContactRoot (localSecrets : IdentitySecrets)
    (localProfile peerProfile : PublicProfile) :
    Checked.NoPanic (deriveContactRoot primitives localSecrets localProfile peerProfile) := by
  rw [deriveContactRoot_eq]
  refine Checked.noPanic_bind (by simp) fun _ _ => ?_
  exact Checked.noPanic_bind (noPanic_rejectAllZero _) fun _ _ => Checked.noPanic_ok _

/-- Contact roots and stego keys are symmetric, and a root is bound to the unordered pair
of contacts it was derived for. -/
theorem deriveContactRoot_symmetric (commutes : primitives.AgreementCommutes) :
    (∀ left right : IdentitySecrets,
      (∃ root stegoKey,
        deriveContactRoot primitives left (left.publicProfile primitives)
            (right.publicProfile primitives) = .ok root ∧
          deriveContactRoot primitives right (right.publicProfile primitives)
            (left.publicProfile primitives) = .ok root ∧
          deriveStegoKey primitives root = .ok stegoKey) ∨
        ∃ reported,
          deriveContactRoot primitives left (left.publicProfile primitives)
              (right.publicProfile primitives) = .error (.error reported) ∧
            deriveContactRoot primitives right (right.publicProfile primitives)
              (left.publicProfile primitives) = .error (.error reported)) ∧
    (∀ (localSecrets : IdentitySecrets) (localProfile peerProfile : PublicProfile) (root : Bytes 32),
      deriveContactRoot primitives localSecrets localProfile peerProfile = .ok root →
        root = primitives.hkdfOutput (some contactRootSalt)
          (primitives.diffieHellman localSecrets.agreementSecret peerProfile.agreementPublic).toList
          (contactInfo localProfile peerProfile) 32) ∧
    ∀ left right other another : PublicProfile,
      contactInfo left right = contactInfo other another ↔
        s(left.canonicalKeyMaterial, right.canonicalKeyMaterial) =
          s(other.canonicalKeyMaterial, another.canonicalKeyMaterial) := by
  refine ⟨?_, ?_, fun _ _ _ _ => contactInfo_eq_iff⟩
  · intro left right
    rw [← deriveContactRoot_comm commutes left right]
    have safe := @noPanic_deriveContactRoot primitives left
      (left.publicProfile primitives) (right.publicProfile primitives)
    cases derived : deriveContactRoot primitives left (left.publicProfile primitives)
        (right.publicProfile primitives) with
    | ok root => exact .inl ⟨root, _, rfl, rfl, hkdf32_eq _ _ _⟩
    | error abort =>
        cases abort with
        | error reported => exact .inr ⟨reported, rfl, rfl⟩
        | panic => exact absurd derived safe
  · intro localSecrets localProfile peerProfile root derived
    exact (deriveContactRoot_eq_ok_iff.1 derived).2.2

theorem deriveContactRoot_symmetric_sample :
    ∃ root stegoKey,
      deriveContactRoot .transparent Sample.alice (Sample.alice.publicProfile .transparent)
          (Sample.bob.publicProfile .transparent) = .ok root ∧
        deriveContactRoot .transparent Sample.bob (Sample.bob.publicProfile .transparent)
          (Sample.alice.publicProfile .transparent) = .ok root ∧
        deriveStegoKey .transparent root = .ok stegoKey := by
  have derived : deriveContactRoot .transparent Sample.alice
      (Sample.alice.publicProfile .transparent) (Sample.bob.publicProfile .transparent) =
        .ok (.replicate 32 6) := by decide +kernel
  rcases (deriveContactRoot_symmetric Primitives.transparent_agreementCommutes).1 Sample.alice
    Sample.bob with both | ⟨reported, refused, _⟩
  · exact both
  · cases derived.symm.trans refused

end Sealed
