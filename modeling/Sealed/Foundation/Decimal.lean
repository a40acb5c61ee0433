import Mathlib.Data.Nat.Digits.Defs
import Sealed.Foundation.Checked
import Sealed.Foundation.Text

/-! Decimal numbers as text: how they are parsed, and how they are printed. -/

set_option autoImplicit false

namespace Sealed.Foundation

def isDigit (byte : UInt8) : Bool := 0x30 ≤ byte && byte ≤ 0x39

/-- The value of decimal digits. -/
def decimal (digits : List UInt8) : Nat :=
  digits.foldl (fun value digit => value * 10 + (digit - 0x30).toNat) 0

/-- `str::parse::<usize>`. -/
def parseUsize (text : List UInt8) : Option Nat :=
  let digits := (stripPrefix (ascii "+") text).getD text
  if digits ≠ [] ∧ digits.all isDigit = true then usizeTryFrom (decimal digits) else none

/-- The digits of a positive number, as it is printed. -/
def decimalText (number : Nat) : List UInt8 :=
  ((Nat.digits 10 number).map fun digit => UInt8.ofNat (0x30 + digit)).reverse

/-- A decimal text of the number, perhaps with a sign and with zeros before it. -/
def Spells (text : List UInt8) (number : Nat) : Prop :=
  ∃ digits, digits ≠ [] ∧ digits.all isDigit = true ∧
    (text = digits ∨ text = ascii "+" ++ digits) ∧ decimal digits = number

/-- A sign is no digit. -/
theorem stripPrefix_digits {digits : List UInt8} (valid : digits.all isDigit = true) :
    stripPrefix (ascii "+") digits = none := by
  rw [Option.eq_none_iff_forall_ne_some]
  intro rest stripped
  rw [stripPrefix_eq_some_iff.1 stripped, List.all_append] at valid
  have sign : (ascii "+").all isDigit = false := by decide
  rw [sign] at valid
  cases valid

theorem parseUsize_eq_some_iff {text : List UInt8} {number : Nat} :
    parseUsize text = some number ↔ Spells text number ∧ number < usizeLimit := by
  have parsed : ∀ digits, (if digits ≠ [] ∧ digits.all isDigit = true then
      usizeTryFrom (decimal digits) else none) = some number ↔
      digits ≠ [] ∧ digits.all isDigit = true ∧ decimal digits = number ∧ number < usizeLimit := by
    intro digits
    unfold usizeTryFrom
    constructor
    · intro found
      split at found
      · rename_i valid
        split at found
        · rename_i fits
          cases found
          exact ⟨valid.1, valid.2, rfl, fits⟩
        · cases found
      · cases found
    · intro known
      obtain ⟨filled, valid, same, fits⟩ := known
      subst same
      rw [if_pos ⟨filled, valid⟩, if_pos fits]
  unfold parseUsize
  rw [parsed]
  constructor
  · intro known
    obtain ⟨filled, valid, value, fits⟩ := known
    refine ⟨⟨_, filled, valid, ?_, value⟩, fits⟩
    cases stripped : stripPrefix (ascii "+") text with
    | none => exact .inl rfl
    | some digits => exact .inr (stripPrefix_eq_some_iff.1 stripped)
  · intro known
    obtain ⟨⟨digits, filled, valid, written, value⟩, fits⟩ := known
    have unsigned : (stripPrefix (ascii "+") text).getD text = digits := by
      rcases written with same | same
      · subst same
        rw [stripPrefix_digits valid]
        rfl
      · rw [stripPrefix_eq_some_iff.2 same]
        rfl
    rw [unsigned]
    exact ⟨filled, valid, value, fits⟩

/-! ## Printed numbers -/

theorem isDigit_digit {digit : Nat} (small : digit < 10) :
    isDigit (UInt8.ofNat (0x30 + digit)) = true ∧
      (UInt8.ofNat (0x30 + digit) - 0x30).toNat = digit := by
  revert digit
  decide

/-- By induction on the digits, the last one first. -/
theorem decimal_reverse {digits : List Nat} (small : ∀ digit ∈ digits, digit < 10) :
    decimal ((digits.map fun digit => UInt8.ofNat (0x30 + digit)).reverse) =
      Nat.ofDigits 10 digits := by
  induction digits with
  | nil => rfl
  | cons digit rest ih =>
      obtain ⟨first, others⟩ := List.forall_mem_cons.1 small
      have value := ih others
      unfold decimal at value ⊢
      rw [List.map_cons, List.reverse_cons, List.foldl_append, value, Nat.ofDigits_cons]
      simp only [List.foldl_cons, List.foldl_nil, (isDigit_digit first).2]
      omega

theorem digits_small {number digit : Nat} (member : digit ∈ Nat.digits 10 number) : digit < 10 :=
  Nat.digits_lt_base (by decide) member

theorem decimalText_digits {number : Nat} (positive : 0 < number) :
    decimalText number ≠ [] ∧ (decimalText number).all isDigit = true := by
  constructor
  · intro empty
    rw [decimalText, List.reverse_eq_nil_iff, List.map_eq_nil_iff,
      Nat.digits_eq_nil_iff_eq_zero] at empty
    omega
  · rw [decimalText, List.all_reverse, List.all_eq_true]
    intro byte member
    obtain ⟨digit, found, same⟩ := List.mem_map.1 member
    subst same
    exact (isDigit_digit (digits_small found)).1

/-- What is printed for a positive number spells it. -/
theorem spells_decimalText {number : Nat} (positive : 0 < number) :
    Spells (decimalText number) number := by
  obtain ⟨filled, digital⟩ := decimalText_digits positive
  refine ⟨decimalText number, filled, digital, .inl rfl, ?_⟩
  rw [decimalText, decimal_reverse fun _ => digits_small, Nat.ofDigits_digits]

theorem spells_nonempty {text : List UInt8} {number : Nat} (spells : Spells text number) :
    text ≠ [] := by
  obtain ⟨digits, filled, _, same | same, _⟩ := spells
  · exact same ▸ filled
  · exact same ▸ List.append_ne_nil_of_left_ne_nil (by decide) _

/-! ## A number on a line -/

/-- A pattern that a digit does not begin. -/
def beginsApart : List UInt8 → Bool
  | [] => false
  | head :: _ => !isDigit head

theorem trimMatches_digit {patterns : List (List UInt8)} {byte : UInt8} {rest : List UInt8}
    (apart : ∀ pattern ∈ patterns, beginsApart pattern = true) (digit : isDigit byte = true)
    (rounds : Nat) : trimMatches patterns rounds (byte :: rest) = byte :: rest := by
  cases rounds with
  | zero => rfl
  | succ rounds =>
      have kept :
          (patterns.findSome? fun pattern => stripPrefix pattern (byte :: rest)) = none := by
        rw [List.findSome?_eq_none_iff]
        intro pattern member
        have other := apart pattern member
        rw [Option.eq_none_iff_forall_ne_some]
        intro behind stripped
        have same := stripPrefix_eq_some_iff.1 stripped
        cases pattern with
        | nil => cases other
        | cons head pattern =>
            cases same
            rw [beginsApart, digit] at other
            cases other
      unfold trimMatches
      rw [kept]

theorem whiteSpace_apart : (∀ pattern ∈ whiteSpace, beginsApart pattern = true) ∧
    ∀ pattern ∈ whiteSpace.map List.reverse, beginsApart pattern = true := by
  decide

theorem trim_line {digits : List UInt8} (filled : digits ≠ [])
    (valid : digits.all isDigit = true) : trim (digits ++ [newline]) = digits := by
  obtain ⟨front, back⟩ := whiteSpace_apart
  have digit : ∀ byte ∈ digits, isDigit byte = true := List.all_eq_true.1 valid
  have ended : ∀ rest, ((whiteSpace.map List.reverse).findSome? fun pattern =>
      stripPrefix pattern (newline :: rest)) = some rest := fun _ => rfl
  have leading : ∀ rounds, trimMatches whiteSpace rounds (digits ++ [newline]) =
      digits ++ [newline] := by
    intro rounds
    cases digits with
    | nil => exact absurd rfl filled
    | cons byte rest => exact trimMatches_digit front (digit byte List.mem_cons_self) rounds
  have trailing : ∀ rounds, trimMatches (whiteSpace.map List.reverse) rounds digits.reverse =
      digits.reverse := by
    intro rounds
    cases turned : digits.reverse with
    | nil => exact absurd (List.reverse_eq_nil_iff.1 turned) filled
    | cons byte rest =>
        have member : byte ∈ digits := by
          rw [← List.mem_reverse, turned]
          exact List.mem_cons_self
        exact trimMatches_digit back (digit byte member) rounds
  unfold trim
  simp only [leading, List.reverse_append, List.reverse_singleton, List.singleton_append,
    List.length_append, List.length_singleton, trimMatches, ended, trailing, List.reverse_reverse]

end Sealed.Foundation
