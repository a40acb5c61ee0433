import Sealed.IdentityProperties
import Sealed.LetterProperties

/-! How `open` classifies the sender of a letter. The two searches are stated by which
profiles are in the contact list, so the result does not depend on its order; only the
reported alias does. -/

set_option autoImplicit false

namespace Sealed

open Foundation

/-- What a classification says, apart from the alias it reports. -/
inductive TrustKind where
  | unknown
  | mismatch
  | pinned
deriving DecidableEq

def SenderTrust.kind : SenderTrust → TrustKind
  | .pinned _ => .pinned
  | .mismatch _ => .mismatch
  | .unknown => .unknown

namespace PublicProfile

/-- The profiles the program makes. -/
inductive Made (primitives : Primitives) : PublicProfile → Prop where
  | new (identityPublic agreementPublic : Bytes 32) :
      Made primitives (.new primitives identityPublic agreementPublic)
  | parsed {bytes : List UInt8} {profile : PublicProfile}
      (accepted : parse primitives bytes = .ok profile) : Made primitives profile

structure SameKeys (left right : PublicProfile) : Prop where
  identity : left.identityPublic = right.identityPublic
  agreement : left.agreementPublic = right.agreementPublic

def SharesKey (left right : PublicProfile) : Prop :=
  left.identityPublic = right.identityPublic ∨ left.agreementPublic = right.agreementPublic

/-- The keys of two profiles agree in one place and differ in the other. -/
def SharesOneKey (left right : PublicProfile) : Prop :=
  (left.identityPublic = right.identityPublic ∧ left.agreementPublic ≠ right.agreementPublic) ∨
    (left.identityPublic ≠ right.identityPublic ∧ left.agreementPublic = right.agreementPublic)

theorem sharesOneKey_iff {left right : PublicProfile} :
    SharesOneKey left right ↔ SharesKey left right ∧ ¬ SameKeys left right := by
  have same : SameKeys left right ↔ left.identityPublic = right.identityPublic ∧
      left.agreementPublic = right.agreementPublic :=
    ⟨fun keys => ⟨keys.identity, keys.agreement⟩, fun keys => ⟨keys.1, keys.2⟩⟩
  rw [same, SharesOneKey, SharesKey]
  tauto

variable {primitives : Primitives}

theorem Made.eq_new {profile : PublicProfile} (made : Made primitives profile) :
    profile = .new primitives profile.identityPublic profile.agreementPublic := by
  cases made with
  | new identityPublic agreementPublic => rfl
  | parsed accepted =>
      obtain ⟨⟨identityPublic, agreementPublic, rfl⟩, _⟩ := parse_eq_ok_iff.1 accepted
      rfl

theorem Made.eq_iff {left right : PublicProfile} (madeLeft : Made primitives left)
    (madeRight : Made primitives right) : left = right ↔ SameKeys left right := by
  constructor
  · rintro rfl
    exact ⟨rfl, rfl⟩
  · intro keys
    rw [madeLeft.eq_new, madeRight.eq_new, keys.identity, keys.agreement]

end PublicProfile

namespace Message

open PublicProfile

/-- The first contact whose profile satisfies the relation has this alias. -/
def FirstWith (related : PublicProfile → Prop) (contacts : List Contact)
    (name : List UInt8) : Prop :=
  ∃ before contact after, contacts = before ++ contact :: after ∧ related contact.profile ∧
    contact.alias = name ∧ ∀ earlier ∈ before, ¬ related earlier.profile

theorem FirstWith.congr {related other : PublicProfile → Prop} {contacts : List Contact}
    {name : List UInt8} (first : FirstWith related contacts name)
    (agree : ∀ contact ∈ contacts, related contact.profile ↔ other contact.profile) :
    FirstWith other contacts name := by
  obtain ⟨before, contact, after, rfl, holds, named, none⟩ := first
  refine ⟨before, contact, after, rfl, (agree contact (by simp)).1 holds, named, ?_⟩
  intro earlier member holdsEarlier
  exact none earlier member ((agree earlier (by simp [member])).2 holdsEarlier)

theorem firstWith_of_find? {related : PublicProfile → Prop} {search : Contact → Bool}
    {contacts : List Contact} {contact : Contact}
    (decides : ∀ contact, search contact = true ↔ related contact.profile)
    (found : contacts.find? search = some contact) :
    FirstWith related contacts contact.alias := by
  obtain ⟨holds, before, after, rfl, none⟩ := List.find?_eq_some_iff_append.1 found
  refine ⟨before, contact, after, rfl, (decides contact).1 holds, rfl, fun earlier member => ?_⟩
  rw [← decides earlier]
  simpa using none earlier member

theorem FirstWith.exists {related : PublicProfile → Prop} {contacts : List Contact}
    {name : List UInt8} (first : FirstWith related contacts name) :
    ∃ contact ∈ contacts, related contact.profile := by
  obtain ⟨before, contact, after, rfl, holds, _, _⟩ := first
  exact ⟨contact, by simp, holds⟩

theorem classifySender_cases (contacts : List Contact) (sender : PublicProfile) :
    (∃ name, classifySender contacts sender = .pinned name ∧
        FirstWith (· = sender) contacts name) ∨
      ((∀ contact ∈ contacts, contact.profile ≠ sender) ∧
        ∃ name, classifySender contacts sender = .mismatch name ∧
          FirstWith (SharesKey · sender) contacts name) ∨
      (classifySender contacts sender = .unknown ∧
        ∀ contact ∈ contacts, ¬ SharesKey contact.profile sender) := by
  have equal (contact : Contact) :
      (contact.profile == sender) = true ↔ contact.profile = sender := beq_iff_eq
  have shares (contact : Contact) :
      (contact.profile.identityPublic == sender.identityPublic ||
        contact.profile.agreementPublic == sender.agreementPublic) = true ↔
          SharesKey contact.profile sender := by
    simp [SharesKey]
  unfold classifySender
  cases exact : contacts.find? fun contact => contact.profile == sender with
  | some contact => exact .inl ⟨_, rfl, firstWith_of_find? equal exact⟩
  | none =>
      have absent : ∀ contact ∈ contacts, contact.profile ≠ sender := by
        simpa using exact
      cases partly : contacts.find? fun contact =>
          contact.profile.identityPublic == sender.identityPublic ||
            contact.profile.agreementPublic == sender.agreementPublic with
      | some contact => exact .inr (.inl ⟨absent, _, rfl, firstWith_of_find? shares partly⟩)
      | none =>
          refine .inr (.inr ⟨rfl, fun contact member holds => ?_⟩)
          exact List.find?_eq_none.1 partly contact member ((shares contact).2 holds)

variable {contacts : List Contact} {sender : PublicProfile}

theorem kind_eq_pinned_iff :
    (classifySender contacts sender).kind = .pinned ↔
      ∃ contact ∈ contacts, contact.profile = sender := by
  rcases classifySender_cases contacts sender with
    ⟨name, result, first⟩ | ⟨absent, name, result, first⟩ | ⟨result, absent⟩
  · simpa [result, SenderTrust.kind] using first.exists
  · simpa [result, SenderTrust.kind] using absent
  · simp only [result, SenderTrust.kind, reduceCtorEq, false_iff, not_exists, not_and]
    rintro contact member rfl
    exact absent contact member (.inl rfl)

theorem kind_eq_mismatch_iff :
    (classifySender contacts sender).kind = .mismatch ↔
      (∀ contact ∈ contacts, contact.profile ≠ sender) ∧
        ∃ contact ∈ contacts, SharesKey contact.profile sender := by
  rcases classifySender_cases contacts sender with
    ⟨name, result, first⟩ | ⟨absent, name, result, first⟩ | ⟨result, absent⟩
  · obtain ⟨contact, member, same⟩ := first.exists
    simp only [result, SenderTrust.kind, reduceCtorEq, false_iff, not_and]
    intro none
    exact absurd same (none contact member)
  · simpa [result, SenderTrust.kind] using ⟨absent, first.exists⟩
  · simp only [result, SenderTrust.kind, reduceCtorEq, false_iff, not_and, not_exists]
    exact fun _ => absent

theorem kind_eq_unknown_iff :
    (classifySender contacts sender).kind = .unknown ↔
      ∀ contact ∈ contacts, ¬ SharesKey contact.profile sender := by
  rcases classifySender_cases contacts sender with
    ⟨name, result, first⟩ | ⟨_, name, result, first⟩ | ⟨result, absent⟩
  · obtain ⟨contact, member, rfl⟩ := first.exists
    simp only [result, SenderTrust.kind, reduceCtorEq, false_iff, not_forall, not_not]
    exact ⟨contact, member, .inl rfl⟩
  · obtain ⟨contact, member, shares⟩ := first.exists
    simp only [result, SenderTrust.kind, reduceCtorEq, false_iff, not_forall, not_not]
    exact ⟨contact, member, shares⟩
  · simpa [result, SenderTrust.kind] using absent

/-- The contacts that are added to a list can raise the kind of a letter, never lower
it. -/
theorem kind_mono {more : List Contact} (added : contacts ⊆ more) :
    ((classifySender contacts sender).kind = .pinned →
        (classifySender more sender).kind = .pinned) ∧
      ((classifySender contacts sender).kind = .mismatch →
        (classifySender more sender).kind ≠ .unknown) := by
  rw [kind_eq_pinned_iff, kind_eq_pinned_iff, kind_eq_mismatch_iff, Ne, kind_eq_unknown_iff]
  constructor
  · rintro ⟨contact, member, same⟩
    exact ⟨contact, added member, same⟩
  · rintro ⟨_, contact, member, shares⟩ none
    exact none contact (added member) shares

theorem kind_perm {permuted : List Contact} (reordered : permuted.Perm contacts) :
    (classifySender permuted sender).kind = (classifySender contacts sender).kind := by
  have member (contact : Contact) : contact ∈ permuted ↔ contact ∈ contacts := reordered.mem_iff
  cases kind : (classifySender contacts sender).kind with
  | pinned =>
      obtain ⟨contact, present, same⟩ := kind_eq_pinned_iff.1 kind
      exact kind_eq_pinned_iff.2 ⟨contact, (member contact).2 present, same⟩
  | mismatch =>
      obtain ⟨absent, contact, present, shares⟩ := kind_eq_mismatch_iff.1 kind
      refine kind_eq_mismatch_iff.2 ⟨fun other present => ?_, contact, (member contact).2 present,
        shares⟩
      exact absent other ((member other).1 present)
  | unknown =>
      have absent := kind_eq_unknown_iff.1 kind
      exact kind_eq_unknown_iff.2 fun other present => absent other ((member other).1 present)

variable {primitives : Primitives} {recipientSecrets : IdentitySecrets}
  {recipientProfile : PublicProfile} {blob : List UInt8} {letter : OpenedLetter}

/-- A letter that opens with one contact list opens with every other, and only its
classification depends on the list. -/
theorem open_with_contacts
    (opened : «open» primitives recipientSecrets recipientProfile contacts blob = .ok letter)
    (others : List Contact) :
    «open» primitives recipientSecrets recipientProfile others blob =
      .ok { letter with senderTrust := classifySender others letter.sender } := by
  obtain ⟨ephemeralPublic, nonce, record, padding, carries, authentic, rfl⟩ :=
    open_eq_ok_iff.1 opened
  exact open_eq_ok_iff.2 ⟨ephemeralPublic, nonce, record, padding, carries, authentic, rfl⟩

/-- The sender of a letter is made of the two keys in it, and is what was classified. -/
theorem open_sender
    (opened : «open» primitives recipientSecrets recipientProfile contacts blob = .ok letter) :
    Made primitives letter.sender ∧
      letter.senderTrust = classifySender contacts letter.sender := by
  obtain ⟨_, _, record, _, _, _, rfl⟩ := open_eq_ok_iff.1 opened
  exact ⟨.new _ _, rfl⟩

/-- Sender classification is sound and complete for the pinned keys, it reports the first
contact that has the stated relation to the sender, and it is independent of the order of
the contacts and monotone in them. -/
theorem open_classifies
    (made : ∀ contact ∈ contacts, Made primitives contact.profile)
    (opened : «open» primitives recipientSecrets recipientProfile contacts blob = .ok letter) :
    (letter.senderTrust.kind = .pinned ↔
      ∃ contact ∈ contacts, SameKeys contact.profile letter.sender) ∧
    (letter.senderTrust.kind = .mismatch ↔
      (¬ ∃ contact ∈ contacts, SameKeys contact.profile letter.sender) ∧
        ∃ contact ∈ contacts, SharesOneKey contact.profile letter.sender) ∧
    (letter.senderTrust.kind = .unknown ↔
      ¬ ∃ contact ∈ contacts, SharesKey contact.profile letter.sender) ∧
    (∀ name, letter.senderTrust = .pinned name →
      FirstWith (SameKeys · letter.sender) contacts name) ∧
    (∀ name, letter.senderTrust = .mismatch name →
      FirstWith (SharesOneKey · letter.sender) contacts name) ∧
    (∀ permuted : List Contact, permuted.Perm contacts → ∃ again,
      «open» primitives recipientSecrets recipientProfile permuted blob = .ok again ∧
        again.senderTrust.kind = letter.senderTrust.kind) ∧
    (∀ more : List Contact, contacts ⊆ more → ∃ again,
      «open» primitives recipientSecrets recipientProfile more blob = .ok again ∧
        (letter.senderTrust.kind = .pinned → again.senderTrust.kind = .pinned) ∧
        (letter.senderTrust.kind = .mismatch → again.senderTrust.kind ≠ .unknown)) := by
  obtain ⟨madeSender, classified⟩ := open_sender opened
  have same : ∀ contact ∈ contacts,
      contact.profile = letter.sender ↔ SameKeys contact.profile letter.sender :=
    fun contact member => (made contact member).eq_iff madeSender
  rw [classified]
  refine ⟨?_, ?_, ?_, ?_, ?_, ?_, ?_⟩
  · rw [kind_eq_pinned_iff]
    exact exists_congr fun contact => and_congr_right (same contact)
  · rw [kind_eq_mismatch_iff]
    constructor
    · rintro ⟨absent, contact, member, shares⟩
      have different : ∀ other ∈ contacts, ¬ SameKeys other.profile letter.sender :=
        fun other present keys => absent other present ((same other present).2 keys)
      refine ⟨fun ⟨other, present, keys⟩ => different other present keys, contact, member, ?_⟩
      exact sharesOneKey_iff.2 ⟨shares, different contact member⟩
    · rintro ⟨absent, contact, member, shares⟩
      refine ⟨fun other present equal => absent ⟨other, present, (same other present).1 equal⟩,
        contact, member, (sharesOneKey_iff.1 shares).1⟩
  · rw [kind_eq_unknown_iff]
    simp only [not_exists, not_and]
  · intro name result
    rcases classifySender_cases contacts letter.sender with
      ⟨found, equal, first⟩ | ⟨_, found, equal, _⟩ | ⟨equal, _⟩
    · obtain rfl : found = name := by simpa [equal] using result
      exact first.congr same
    · simp [equal] at result
    · simp [equal] at result
  · intro name result
    rcases classifySender_cases contacts letter.sender with
      ⟨found, equal, _⟩ | ⟨absent, found, equal, first⟩ | ⟨equal, _⟩
    · simp [equal] at result
    · obtain rfl : found = name := by simpa [equal] using result
      refine first.congr fun contact member => ?_
      rw [sharesOneKey_iff, iff_self_and]
      exact fun _ keys => absent contact member ((same contact member).2 keys)
    · simp [equal] at result
  · intro permuted reordered
    exact ⟨_, open_with_contacts opened permuted, kind_perm reordered⟩
  · intro more added
    exact ⟨_, open_with_contacts opened more, kind_mono added⟩

end Message

namespace Sample

/-- A contact with the sender's agreement key under another identity key, in front of the
sender. -/
def contacts : List Contact :=
  [⟨ascii "mallory", .new .transparent (.replicate 32 9)
      (alice.publicProfile .transparent).agreementPublic⟩,
    ⟨ascii "alice", alice.publicProfile .transparent⟩]

def pinnedLetter : OpenedLetter := { opened with senderTrust := .pinned (ascii "alice") }

theorem contacts_made :
    ∀ contact ∈ contacts, PublicProfile.Made .transparent contact.profile := by
  intro contact member
  simp only [contacts, List.mem_cons, List.not_mem_nil, or_false] at member
  rcases member with rfl | rfl
  · exact .new _ _
  · exact .new _ _

end Sample

theorem Message.open_classifies_sample :
    FirstWith (PublicProfile.SameKeys · Sample.pinnedLetter.sender) Sample.contacts
        (ascii "alice") ∧
      ∃ again, Message.open .transparent Sample.bob (Sample.bob.publicProfile .transparent)
          Sample.contacts.reverse Sample.blob = .ok again ∧
        again.senderTrust.kind = Sample.pinnedLetter.senderTrust.kind := by
  obtain ⟨_, _, _, pinned, _, permuted, _⟩ :=
    @Message.open_classifies Sample.contacts .transparent Sample.bob
      (Sample.bob.publicProfile .transparent) Sample.blob Sample.pinnedLetter Sample.contacts_made
      (by decide +kernel)
  exact ⟨pinned _ rfl, permuted _ (List.reverse_perm _)⟩

end Sealed
