import Mathlib.Data.Nat.Log
import Mathlib.Order.Bounds.Basic
import Sealed.Protocol

/-! Laws of the padding buckets and of the accepted blob lengths. -/

set_option autoImplicit false

namespace Sealed

open Foundation

theorem isPowerOfTwo_iff {length : Nat} :
    isPowerOfTwo length = true ↔ ∃ exponent, length = 2 ^ exponent := by
  unfold isPowerOfTwo
  constructor
  · intro power
    exact ⟨length.log2, by simpa using power⟩
  · rintro ⟨exponent, rfl⟩
    simp [Nat.log2_two_pow]

theorem validBlobLen_iff {length : Nat} :
    validBlobLen length = true ↔
      minBlobLen ≤ length ∧ length ≤ maxBlobLen ∧ ∃ exponent, length = 2 ^ exponent := by
  simp [validBlobLen, isPowerOfTwo_iff, and_assoc]

/-- A bucket for `required` bytes: a doubling of the smallest blob length that holds
them, while no smaller doubling does. -/
structure IsBucket (required doublings bucket : Nat) : Prop where
  doubled : bucket = minBlobLen * 2 ^ doublings
  holds : required ≤ bucket
  least : ∀ fewer < doublings, minBlobLen * 2 ^ fewer < required

/-- Induction on the room that is left below the largest blob length: the loop ends
in the first bucket that holds `required`. -/
theorem growBucket_eq_some {required : Nat} (bounded : required ≤ maxBlobLen) :
    ∀ (fuel doublings bucket : Nat) (positive : 0 < bucket), required - bucket ≤ fuel →
      bucket = minBlobLen * 2 ^ doublings →
      (∀ fewer < doublings, minBlobLen * 2 ^ fewer < required) →
      ∃ final result, growBucket required bucket positive = some result ∧
        IsBucket required final result := by
  intro fuel
  induction fuel with
  | zero =>
      intro doublings bucket positive left shape least
      have holds : required ≤ bucket := by omega
      rw [growBucket, if_neg (by omega)]
      exact ⟨doublings, bucket, rfl, shape, holds, least⟩
  | succ fuel ih =>
      intro doublings bucket positive left shape least
      rw [growBucket]
      by_cases short : bucket < required
      · have room : bucket * 2 < usizeLimit := by
          simp only [usizeLimit, maxBlobLen] at bounded ⊢
          omega
        have doubled : checkedMul bucket 2 = some (bucket * 2) := by
          simp [checkedMul, room]
        rw [if_pos short]
        split
        · rename_i overflow
          rw [doubled] at overflow
          cases overflow
        · rename_i next advanced
          rw [doubled] at advanced
          cases advanced
          refine ih (doublings + 1) (bucket * 2) _ (by omega)
            (by rw [shape, Nat.pow_succ, Nat.mul_assoc]) ?_
          intro fewer below
          rcases Nat.lt_succ_iff_lt_or_eq.1 below with earlier | rfl
          · exact least fewer earlier
          · exact shape ▸ short
      · rw [if_neg short]
        exact ⟨doublings, bucket, rfl, shape, by omega, least⟩

/-- A body within the limit always has a bucket, and the bucket is one the receiver
accepts. -/
theorem paddedBlobLen_eq_some {bodyLen : Nat} (within : bodyLen ≤ maxBodyLen) :
    ∃ doublings bucket, paddedBlobLen bodyLen = some bucket ∧
      IsBucket (internalFixedLen + bodyLen + outerOverhead) doublings bucket ∧
      validBlobLen bucket = true := by
  have overhead : internalFixedLen + bodyLen + outerOverhead ≤ maxBodyLen + 270 := by
    simp only [internalFixedLen, outerOverhead, ed25519PublicLen, x25519PublicLen, fingerprintLen,
      messageIdLen, signatureLen, ephemeralPublicLen, nonceLen, aeadTagLen]
    omega
  have bounded : internalFixedLen + bodyLen + outerOverhead ≤ maxBlobLen :=
    Nat.le_trans overhead (by decide)
  obtain ⟨doublings, bucket, grown, isBucket⟩ :=
    growBucket_eq_some bounded _ 0 minBlobLen (by decide) (Nat.le_refl _) rfl (by simp)
  have few : doublings ≤ 12 := by
    by_contra many
    have small := isBucket.least 12 (by omega)
    simp only [minBlobLen, maxBlobLen] at small bounded
    omega
  have largest : bucket ≤ maxBlobLen := by
    rw [isBucket.doubled]
    exact Nat.le_trans (Nat.mul_le_mul_left _ (Nat.pow_le_pow_right (by decide) few)) (by decide)
  have smallest : minBlobLen ≤ bucket := by
    rw [isBucket.doubled]
    exact Nat.le_mul_of_pos_right _ (Nat.pow_pos (by decide))
  have total : internalFixedLen + bodyLen + outerOverhead < usizeLimit :=
    Nat.lt_of_le_of_lt bounded (by decide)
  have inner : internalFixedLen + bodyLen < usizeLimit := by omega
  refine ⟨doublings, bucket, ?_, isBucket, ?_⟩
  · simp [paddedBlobLen, Nat.not_lt.2 within, checkedAdd, inner, total, grown, largest]
  · refine validBlobLen_iff.2 ⟨smallest, largest, doublings + 9, ?_⟩
    rw [isBucket.doubled, Nat.pow_add]
    simp only [minBlobLen]
    omega

/-- A bucket is the least power of two, from the smallest blob length on, that holds the
required bytes. -/
theorem IsBucket.le_of_holds {required doublings bucket exponent : Nat}
    (isBucket : IsBucket required doublings bucket) (smallest : minBlobLen ≤ 2 ^ exponent)
    (holds : required ≤ 2 ^ exponent) : bucket ≤ 2 ^ exponent := by
  have nine : 9 ≤ exponent := by
    by_contra few
    have small : 2 ^ exponent ≤ 2 ^ 8 := Nat.pow_le_pow_right (by decide) (by omega)
    simp only [minBlobLen] at smallest
    omega
  have shape : minBlobLen * 2 ^ (exponent - 9) = 2 ^ exponent := by
    rw [show minBlobLen = 2 ^ 9 from rfl, ← Nat.pow_add]
    congr 1
    omega
  have enough : doublings ≤ exponent - 9 := by
    by_contra fewer
    have short := isBucket.least (exponent - 9) (Nat.not_le.1 fewer)
    omega
  rw [isBucket.doubled, ← shape]
  exact Nat.mul_le_mul_left _ (Nat.pow_le_pow_right (by decide) enough)

theorem paddedBlobLen_eq_none {bodyLen : Nat} (beyond : maxBodyLen < bodyLen) :
    paddedBlobLen bodyLen = none := by
  simp [paddedBlobLen, beyond]

/-- The bucket of a body, when it has one. -/
theorem paddedBlobLen_spec {bodyLen bucket : Nat} (padded : paddedBlobLen bodyLen = some bucket) :
    bodyLen ≤ maxBodyLen ∧ validBlobLen bucket = true ∧
      outerOverhead + internalFixedLen + bodyLen ≤ bucket ∧
      ∀ exponent, minBlobLen ≤ 2 ^ exponent →
        outerOverhead + internalFixedLen + bodyLen ≤ 2 ^ exponent → bucket ≤ 2 ^ exponent := by
  have within : bodyLen ≤ maxBodyLen := by
    by_contra beyond
    rw [paddedBlobLen_eq_none (Nat.not_le.1 beyond)] at padded
    cases padded
  obtain ⟨doublings, _, result, isBucket, valid⟩ := paddedBlobLen_eq_some within
  obtain rfl := Option.some.inj (padded.symm.trans result)
  have holds := isBucket.holds
  refine ⟨within, valid, by omega, fun exponent smallest room => ?_⟩
  exact isBucket.le_of_holds smallest (by omega)

/-- Every accepted length is the bucket of some body: the longest one that leaves room
for the overhead and is within the limit. -/
theorem paddedBlobLen_surjective {length : Nat} (valid : validBlobLen length = true) :
    ∃ bodyLen, paddedBlobLen bodyLen = some length := by
  obtain ⟨smallest, largest, exponent, rfl⟩ := validBlobLen_iff.1 valid
  let bodyLen := min (2 ^ exponent - (outerOverhead + internalFixedLen)) maxBodyLen
  have overhead : outerOverhead + internalFixedLen = 270 := rfl
  have lowest : minBlobLen = 512 := rfl
  have limit : maxBodyLen = 2 ^ 20 := rfl
  have bounded : bodyLen ≤ maxBodyLen := Nat.min_le_right _ _
  obtain ⟨_, bucket, padded, _, _⟩ := paddedBlobLen_eq_some bounded
  obtain ⟨_, accepted, room, least⟩ := paddedBlobLen_spec padded
  have upper : bucket ≤ 2 ^ exponent := least exponent smallest (by omega)
  obtain ⟨_, _, other, rfl⟩ := validBlobLen_iff.1 accepted
  refine ⟨bodyLen, padded.trans (congrArg some (Nat.le_antisymm upper ?_))⟩
  by_cases within : 2 ^ exponent - (outerOverhead + internalFixedLen) ≤ maxBodyLen
  · have whole : bodyLen = 2 ^ exponent - (outerOverhead + internalFixedLen) :=
      Nat.min_eq_left within
    omega
  · -- Only the largest blob length leaves more room than a body may fill.
    have whole : bodyLen = maxBodyLen := Nat.min_eq_right (by omega)
    have above : 2 ^ 20 < 2 ^ other := by omega
    have beyond : 20 < other := (Nat.pow_lt_pow_iff_right (by decide)).1 above
    calc 2 ^ exponent ≤ maxBlobLen := largest
      _ = 2 ^ 21 := rfl
      _ ≤ 2 ^ other := Nat.pow_le_pow_right (by decide) beyond

/-- Padding buckets are minimal, and the lengths that sealing produces are exactly the
lengths that opening admits. -/
theorem paddedBlobLen_minimal :
    (∀ bodyLen, (paddedBlobLen bodyLen).isSome = true ↔ bodyLen ≤ maxBodyLen) ∧
    (∀ bodyLen bucket, paddedBlobLen bodyLen = some bucket →
      IsLeast {length | (∃ exponent, length = 2 ^ exponent) ∧ 512 ≤ length ∧
        outerOverhead + internalFixedLen + bodyLen ≤ length} bucket) ∧
    (∀ shorter longer bucket larger, shorter ≤ longer → paddedBlobLen shorter = some bucket →
      paddedBlobLen longer = some larger → bucket ≤ larger) ∧
    (∀ length, (∃ bodyLen, paddedBlobLen bodyLen = some length) ↔ validBlobLen length = true) := by
  refine ⟨?_, ?_, ?_, ?_⟩
  · intro bodyLen
    constructor
    · intro present
      obtain ⟨bucket, padded⟩ := Option.isSome_iff_exists.1 present
      exact (paddedBlobLen_spec padded).1
    · intro within
      obtain ⟨_, bucket, padded, _, _⟩ := paddedBlobLen_eq_some within
      rw [padded]
      rfl
  · intro bodyLen bucket padded
    obtain ⟨_, valid, room, least⟩ := paddedBlobLen_spec padded
    obtain ⟨smallest, _, power⟩ := validBlobLen_iff.1 valid
    refine ⟨⟨power, smallest, room⟩, ?_⟩
    rintro _ ⟨⟨exponent, rfl⟩, above, holds⟩
    exact least exponent above holds
  · intro shorter longer bucket larger le padded paddedLonger
    obtain ⟨_, _, _, least⟩ := paddedBlobLen_spec padded
    obtain ⟨_, valid, room, _⟩ := paddedBlobLen_spec paddedLonger
    obtain ⟨smallest, _, exponent, rfl⟩ := validBlobLen_iff.1 valid
    exact least exponent smallest (by omega)
  · intro length
    constructor
    · rintro ⟨bodyLen, padded⟩
      exact (paddedBlobLen_spec padded).2.1
    · exact paddedBlobLen_surjective

end Sealed
