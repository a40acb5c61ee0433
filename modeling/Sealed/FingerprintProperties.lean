import Sealed.FormatProperties
import Sealed.Identity

/-! The displayed fingerprint: sixteen groups of four digits, from which the fingerprint can
be read back. -/

set_option autoImplicit false

namespace Sealed

open Foundation

/-- The groups of digits between the dashes. -/
def fingerprintGroups (fingerprint : Bytes 32) : List (List UInt8) :=
  chunks 4 (toAsciiUppercase (hexEncode fingerprint.toList))

def dash : UInt8 := 0x2d

theorem upper_digits (bytes : List UInt8) :
    ∀ digit ∈ toAsciiUppercase (hexEncode bytes), digit ∈ ascii "0123456789ABCDEF" := by
  have upper : ∀ digit ∈ hexAlphabet,
      (if 0x61 ≤ digit && digit ≤ 0x7a then digit - 0x20 else digit) ∈
        ascii "0123456789ABCDEF" := by
    decide +kernel
  intro digit member
  obtain ⟨lower, inside, rfl⟩ := List.mem_map.1 member
  exact upper lower (hexEncode_digits bytes lower inside)

theorem toAsciiLowercase_upper (bytes : List UInt8) :
    toAsciiLowercase (toAsciiUppercase (hexEncode bytes)) = hexEncode bytes := by
  have back : ∀ digit ∈ hexAlphabet,
      toAsciiLowercase (toAsciiUppercase [digit]) = [digit] := by
    decide +kernel
  have digits := hexEncode_digits bytes
  generalize hexEncode bytes = text at digits ⊢
  induction text with
  | nil => rfl
  | cons digit text ih =>
      have first := back digit (digits digit (by simp))
      have rest := ih fun other member => digits other (by simp [member])
      calc toAsciiLowercase (toAsciiUppercase (digit :: text))
        _ = toAsciiLowercase (toAsciiUppercase [digit]) ++
              toAsciiLowercase (toAsciiUppercase text) := rfl
        _ = digit :: text := by rw [first, rest, List.singleton_append]

theorem hexDecode_upper {n : Nat} (bytes : Bytes n) :
    hexDecode n (toAsciiUppercase (hexEncode bytes.toList)) = .ok bytes := by
  have accepted : ∀ digit ∈ ascii "0123456789ABCDEF", HexDigit digit := by decide +kernel
  rw [hexDecode_eq_ok_iff]
  refine ⟨?_, ?_, (toAsciiLowercase_upper _).symm⟩
  · rw [toAsciiUppercase, List.length_map, length_hexEncode, bytes.length_toList]
  · intro digit member
    exact accepted digit (upper_digits _ digit member)

theorem flatten_fingerprintGroups (fingerprint : Bytes 32) :
    (fingerprintGroups fingerprint).flatten =
      toAsciiUppercase (hexEncode fingerprint.toList) :=
  flatten_chunks (by decide) _

theorem fingerprintGroups_sizes (fingerprint : Bytes 32) :
    (fingerprintGroups fingerprint).length = 16 ∧
      ∀ group ∈ fingerprintGroups fingerprint, group.length = 4 :=
  chunks_exact (by decide) (by simp [toAsciiUppercase, length_hexEncode])

theorem fingerprintGroups_digits (fingerprint : Bytes 32) :
    ∀ group ∈ fingerprintGroups fingerprint, ∀ digit ∈ group,
      digit ∈ ascii "0123456789ABCDEF" := by
  intro group member digit inside
  have whole : digit ∈ (fingerprintGroups fingerprint).flatten :=
    List.mem_flatten.2 ⟨group, member, inside⟩
  rw [flatten_fingerprintGroups] at whole
  exact upper_digits _ digit whole

theorem dash_notMem_group {fingerprint : Bytes 32} {group : List UInt8}
    (member : group ∈ fingerprintGroups fingerprint) : dash ∉ group := by
  intro inside
  have digit := fingerprintGroups_digits fingerprint group member dash inside
  revert digit
  decide

/-- Every digit is ASCII, so that the loop pushes it as one byte. -/
theorem formatFingerprint_eq (fingerprint : Bytes 32) :
    formatFingerprint fingerprint = [dash].intercalate (fingerprintGroups fingerprint) := by
  have single : ∀ digit ∈ ascii "0123456789ABCDEF", asChar digit = [digit] := by decide +kernel
  have pushed : ∀ group ∈ fingerprintGroups fingerprint, group.flatMap asChar = group := by
    intro group member
    have digits := fingerprintGroups_digits fingerprint group member
    rw [List.flatMap_congr fun digit inside => single digit (digits digit inside)]
    exact List.flatMap_singleton' group
  calc formatFingerprint fingerprint
    _ = [dash].intercalate ((fingerprintGroups fingerprint).map fun group =>
          group.flatMap asChar) := foldl_zipIdx_eq_intercalate _ _ _
    _ = [dash].intercalate (fingerprintGroups fingerprint) := by
      rw [List.map_congr_left pushed, List.map_id']

theorem filter_formatFingerprint (fingerprint : Bytes 32) :
    (formatFingerprint fingerprint).filter (· ≠ dash) =
      toAsciiUppercase (hexEncode fingerprint.toList) := by
  rw [formatFingerprint_eq, filter_intercalate fun _ => dash_notMem_group,
    flatten_fingerprintGroups]

theorem hexDecode_filter_formatFingerprint (fingerprint : Bytes 32) :
    hexDecode 32 ((formatFingerprint fingerprint).filter (· ≠ dash)) = .ok fingerprint := by
  rw [filter_formatFingerprint, hexDecode_upper]

theorem length_formatFingerprint (fingerprint : Bytes 32) :
    (formatFingerprint fingerprint).length = 79 := by
  have number := (fingerprintGroups_sizes fingerprint).1
  have digits := congrArg List.length (flatten_fingerprintGroups fingerprint)
  rw [formatFingerprint_eq]
  cases groups : fingerprintGroups fingerprint with
  | nil =>
      rw [groups] at number
      cases number
  | cons first rest =>
      rw [groups] at number digits
      rw [length_intercalate, digits, toAsciiUppercase, List.length_map, length_hexEncode,
        fingerprint.length_toList]
      simp only [List.length_cons] at number
      omega

theorem fingerprintGroup_ends {fingerprint : Bytes 32} {group : List UInt8}
    (member : group ∈ fingerprintGroups fingerprint) :
    group ≠ [] ∧ group.head? ≠ some dash ∧ group.getLast? ≠ some dash := by
  have size := (fingerprintGroups_sizes fingerprint).2 group member
  have apart := dash_notMem_group member
  refine ⟨?_, fun first => apart (List.mem_of_head? first),
    fun last => apart (List.mem_of_getLast? last)⟩
  rintro rfl
  cases size

theorem formatFingerprint_head? (fingerprint : Bytes 32) :
    (formatFingerprint fingerprint).head? ≠ some dash := by
  have number := (fingerprintGroups_sizes fingerprint).1
  have ends := @fingerprintGroup_ends fingerprint
  rw [formatFingerprint_eq]
  cases groups : fingerprintGroups fingerprint with
  | nil =>
      rw [groups] at number
      cases number
  | cons first rest =>
      obtain ⟨filled, starts, _⟩ := @ends first (by simp [groups])
      rwa [head?_intercalate filled]

theorem formatFingerprint_getLast? (fingerprint : Bytes 32) :
    (formatFingerprint fingerprint).getLast? ≠ some dash := by
  have number := (fingerprintGroups_sizes fingerprint).1
  have ends := @fingerprintGroup_ends fingerprint
  rw [formatFingerprint_eq]
  rcases List.eq_nil_or_concat (fingerprintGroups fingerprint) with groups | ⟨front, last, groups⟩
  · rw [groups] at number
    cases number
  · obtain ⟨filled, _, stops⟩ := @ends last (by simp [groups])
    rwa [groups, List.concat_eq_append, getLast?_intercalate filled]

/-- What two people compare is the fingerprint itself: the display is its digits in groups,
and reading it back gives it again. -/
theorem formatFingerprint_faithful (fingerprint : Bytes 32) :
    (∃ groups : List (List UInt8),
      formatFingerprint fingerprint = (ascii "-").intercalate groups ∧ groups.length = 16 ∧
      (∀ group ∈ groups, group.length = 4 ∧ ∀ digit ∈ group, digit ∈ ascii "0123456789ABCDEF") ∧
      groups.flatten = toAsciiUppercase (hexEncode fingerprint.toList)) ∧
    (formatFingerprint fingerprint).length = 79 ∧
    (formatFingerprint fingerprint).head? ≠ some dash ∧
    (formatFingerprint fingerprint).getLast? ≠ some dash ∧
    hexDecode 32 ((formatFingerprint fingerprint).filter (· ≠ dash)) = .ok fingerprint ∧
    ∀ other, formatFingerprint fingerprint = formatFingerprint other ↔ fingerprint = other := by
  refine ⟨⟨fingerprintGroups fingerprint, formatFingerprint_eq fingerprint, ?_, ?_, ?_⟩, ?_⟩
  · exact (fingerprintGroups_sizes fingerprint).1
  · intro group member
    exact ⟨(fingerprintGroups_sizes fingerprint).2 group member,
      fingerprintGroups_digits fingerprint group member⟩
  · exact flatten_fingerprintGroups fingerprint
  · refine ⟨length_formatFingerprint fingerprint, formatFingerprint_head? fingerprint,
      formatFingerprint_getLast? fingerprint, hexDecode_filter_formatFingerprint fingerprint, ?_⟩
    intro other
    constructor
    · intro same
      have read := hexDecode_filter_formatFingerprint fingerprint
      rw [same, hexDecode_filter_formatFingerprint other] at read
      exact (Except.ok.inj read).symm
    · rintro rfl
      rfl

example : formatFingerprint (.replicate 32 0xa7) = ascii
    "A7A7-A7A7-A7A7-A7A7-A7A7-A7A7-A7A7-A7A7-A7A7-A7A7-A7A7-A7A7-A7A7-A7A7-A7A7-A7A7" := by
  decide +kernel

end Sealed
