import Mathlib.Algebra.Group.Nat.Defs
import Mathlib.Data.List.Basic

/-! Checked computations: a value, an error the program reports, or a panic. A
panic is kept apart from every reported error, so that a slice out of range or an
underflow can neither be caught by an error mapping nor pass for a refusal. -/

set_option autoImplicit false

namespace Sealed.Foundation

/-- Why a checked computation stops without a value. -/
inductive Abort (ε : Type) where
  | error (reported : ε)
  | panic
deriving DecidableEq, Repr

abbrev Checked (ε α : Type) := Except (Abort ε) α

/-- Machine words are 64 bits wide: the lengths a slice can have are below this. -/
def usizeLimit : Nat := 2 ^ 64

/-- A byte slice: every slice in memory has a length that fits a machine word. -/
structure Slice where
  bytes : List UInt8
  fits : bytes.length < usizeLimit

/-- `usize::try_from` on a narrower word. -/
def usizeTryFrom (value : Nat) : Option Nat :=
  if value < usizeLimit then some value else none

def checkedAdd (left right : Nat) : Option Nat :=
  if left + right < usizeLimit then some (left + right) else none

def checkedMul (left right : Nat) : Option Nat :=
  if left * right < usizeLimit then some (left * right) else none

def checkedSub (left right : Nat) : Option Nat :=
  if right ≤ left then some (left - right) else none

/-- Fixed-length byte arrays. -/
structure Bytes (n : Nat) where
  toList : List UInt8
  length_eq : toList.length = n
deriving DecidableEq

@[ext] theorem Bytes.ext {n : Nat} {left right : Bytes n}
    (same : left.toList = right.toList) : left = right := by
  cases left
  cases right
  cases same
  rfl

@[simp] theorem Bytes.length_toList {n : Nat} (bytes : Bytes n) :
    bytes.toList.length = n := bytes.length_eq

/-- The array that repeats one byte. -/
def Bytes.replicate (n : Nat) (byte : UInt8) : Bytes n :=
  ⟨List.replicate n byte, List.length_replicate⟩

/-- Conversion of a slice to an array, which exists at exactly one length. -/
def Bytes.tryFrom (n : Nat) (slice : List UInt8) : Option (Bytes n) :=
  if same : slice.length = n then some ⟨slice, same⟩ else none

@[simp] theorem Bytes.tryFrom_toList {n : Nat} (bytes : Bytes n) :
    Bytes.tryFrom n bytes.toList = some bytes := by
  simp [Bytes.tryFrom]

theorem Bytes.tryFrom_eq_some_iff {n : Nat} {slice : List UInt8} {bytes : Bytes n} :
    Bytes.tryFrom n slice = some bytes ↔ slice = bytes.toList := by
  constructor
  · intro converted
    unfold Bytes.tryFrom at converted
    split at converted
    · cases converted
      rfl
    · cases converted
  · rintro rfl
    exact Bytes.tryFrom_toList bytes

theorem Bytes.append_inj {n : Nat} {left right : Bytes n} {leftRest rightRest : List UInt8}
    (same : left.toList ++ leftRest = right.toList ++ rightRest) :
    left = right ∧ leftRest = rightRest := by
  obtain ⟨front, rest⟩ := List.append_inj same (by simp)
  exact ⟨Bytes.ext front, rest⟩

/-! ## Big-endian words -/

/-- `u32::to_be_bytes`. -/
def u32ToBe (value : UInt32) : Bytes 4 :=
  ⟨[UInt8.ofNat (value.toNat / 2 ^ 24), UInt8.ofNat (value.toNat / 2 ^ 16),
    UInt8.ofNat (value.toNat / 2 ^ 8), UInt8.ofNat value.toNat], rfl⟩

/-- `u32::from_be_bytes`. -/
def u32FromBe (bytes : Bytes 4) : UInt32 :=
  UInt32.ofNat (bytes.toList.foldl (fun value byte => value * 2 ^ 8 + byte.toNat) 0)

/-- `u32::try_from` on a length. -/
def u32TryFrom (length : Nat) : Option UInt32 :=
  if length < 2 ^ 32 then some (UInt32.ofNat length) else none

theorem u32FromBe_toBe (value : UInt32) : u32FromBe (u32ToBe value) = value := by
  apply UInt32.toNat_inj.1
  have below := value.toNat_lt
  simp [u32FromBe, u32ToBe]
  omega

theorem u32ToBe_fromBe (bytes : Bytes 4) : u32ToBe (u32FromBe bytes) = bytes := by
  obtain ⟨list, length⟩ := bytes
  match list, length with
  | [a, b, c, d], _ =>
    have aBelow := a.toNat_lt
    have bBelow := b.toNat_lt
    have cBelow := c.toNat_lt
    have dBelow := d.toNat_lt
    simp only [u32FromBe, u32ToBe, List.foldl, Bytes.mk.injEq, List.cons.injEq,
      ← UInt8.toNat_inj, UInt8.toNat_ofNat', UInt32.toNat_ofNat']
    refine ⟨?_, ?_, ?_, ?_, trivial⟩ <;> omega

namespace Checked

variable {ε ε' α β : Type}

/-- Stop with a reported error. -/
def err (reported : ε) : Checked ε α := .error (.error reported)

/-- Stop with a panic. -/
def panicked : Checked ε α := .error .panic

/-- `Option::ok_or`, and `map_err(|_| …)` on a result whose error carries nothing. -/
def okOr (source : Option α) (reported : ε) : Checked ε α :=
  match source with
  | some value => .ok value
  | none => err reported

/-- `if condition { return Err(reported) }`. -/
def reject (condition : Prop) [Decidable condition] (reported : ε) : Checked ε Unit :=
  if condition then err reported else .ok ()

/-- `Result::map_err`. A panic is not an error value, so it passes through. -/
def mapErr (source : Checked ε α) (change : ε → ε') : Checked ε' α :=
  match source with
  | .ok value => .ok value
  | .error (.error reported) => .error (.error (change reported))
  | .error .panic => .error .panic

/-- `a - b` on unsigned words. -/
def sub (left right : Nat) : Checked ε Nat :=
  if right ≤ left then .ok (left - right) else panicked

/-- `list[start..stop]`. -/
def slice (list : List α) (start stop : Nat) : Checked ε (List α) :=
  if start ≤ stop ∧ stop ≤ list.length then
    .ok ((list.drop start).take (stop - start))
  else panicked

/-- `list[index]`. -/
def index (list : List α) (position : Nat) : Checked ε α :=
  match list[position]? with
  | some value => .ok value
  | none => panicked

/-- `list.split_at(middle)`. -/
def splitAt (list : List α) (middle : Nat) : Checked ε (List α × List α) :=
  if middle ≤ list.length then .ok (list.take middle, list.drop middle) else panicked

/-- Fill an array from `start` on, stopping at the first byte that fails. -/
def fill (byteAt : Nat → Checked ε UInt8) : (start count : Nat) → Checked ε (List UInt8)
  | _, 0 => .ok []
  | start, count + 1 => do
      let byte ← byteAt start
      let rest ← fill byteAt (start + 1) count
      return byte :: rest

/-! ## Success and failure of the operations -/

theorem bind_eq_ok {source : Checked ε α} {next : α → Checked ε β} {result : β} :
    (source >>= next) = .ok result ↔
      ∃ value, source = .ok value ∧ next value = .ok result := by
  cases source with
  | error abort => simp [bind, Except.bind]
  | ok value => simp [bind, Except.bind]

@[simp] theorem ok_bind (value : α) (next : α → Checked ε β) :
    ((.ok value : Checked ε α) >>= next) = next value := rfl

@[simp] theorem error_bind (abort : Abort ε) (next : α → Checked ε β) :
    ((.error abort : Checked ε α) >>= next) = .error abort := rfl

@[simp] theorem err_bind (reported : ε) (next : α → Checked ε β) :
    ((err reported : Checked ε α) >>= next) = err reported := rfl

@[simp] theorem pure_eq_ok (value : α) : (pure value : Checked ε α) = .ok value := rfl

@[simp] theorem err_ne_ok {reported : ε} {value : α} :
    (err reported : Checked ε α) ≠ .ok value := by
  simp [err]

@[simp] theorem okOr_some (value : α) (reported : ε) :
    okOr (some value) reported = .ok value := rfl

@[simp] theorem okOr_none (reported : ε) :
    okOr (none : Option α) reported = err reported := rfl

@[simp] theorem okOr_eq_ok_iff {source : Option α} {reported : ε} {value : α} :
    okOr source reported = .ok value ↔ source = some value := by
  cases source <;> simp [okOr, err]

@[simp] theorem reject_eq_ok_iff {condition : Prop} [Decidable condition] {reported : ε}
    {value : Unit} : reject condition reported = .ok value ↔ ¬ condition := by
  unfold reject
  split <;> simp_all

theorem reject_of {condition : Prop} [Decidable condition] {reported : ε} (holds : condition) :
    reject condition reported = err reported := if_pos holds

theorem reject_of_not {condition : Prop} [Decidable condition] {reported : ε}
    (accepted : ¬ condition) : reject condition reported = .ok () := by
  simp [accepted]

@[simp] theorem mapErr_ok (value : α) (change : ε → ε') :
    mapErr (.ok value : Checked ε α) change = .ok value := rfl

@[simp] theorem mapErr_eq_ok_iff {source : Checked ε α} {change : ε → ε'} {value : α} :
    mapErr source change = .ok value ↔ source = .ok value := by
  rcases source with (_ | _) | _ <;> simp [mapErr]

theorem sub_of_le {left right : Nat} (le : right ≤ left) :
    (sub left right : Checked ε Nat) = .ok (left - right) := by
  simp [sub, le]

theorem sub_eq_ok_iff {left right difference : Nat} :
    (sub left right : Checked ε Nat) = .ok difference ↔
      right ≤ left ∧ left - right = difference := by
  unfold sub
  split
  · simp_all
  · simp_all [panicked, Nat.not_le.2]

theorem slice_of_le {list : List α} {start stop : Nat} (ordered : start ≤ stop)
    (within : stop ≤ list.length) :
    (slice list start stop : Checked ε (List α)) =
      .ok ((list.drop start).take (stop - start)) := by
  simp [slice, ordered, within]

theorem slice_eq_ok_iff {list : List α} {start stop : Nat} {output : List α} :
    (slice list start stop : Checked ε (List α)) = .ok output ↔
      start ≤ stop ∧ stop ≤ list.length ∧ output = (list.drop start).take (stop - start) := by
  unfold slice
  split
  · rename_i inside
    simp [inside, eq_comm]
  · rename_i outside
    simp only [panicked, reduceCtorEq, false_iff]
    rintro ⟨ordered, within, _⟩
    exact outside ⟨ordered, within⟩

theorem splitAt_eq_ok_iff {list left right : List α} {middle : Nat} :
    (splitAt list middle : Checked ε (List α × List α)) = .ok (left, right) ↔
      list = left ++ right ∧ left.length = middle := by
  unfold splitAt
  constructor
  · intro accepted
    split at accepted
    · cases accepted
      exact ⟨(List.take_append_drop _ _).symm, by simp; omega⟩
    · cases accepted
  · rintro ⟨rfl, rfl⟩
    simp

theorem index_of_getElem? {list : List α} {position : Nat} {value : α}
    (found : list[position]? = some value) :
    (index list position : Checked ε α) = .ok value := by
  simp [index, found]

theorem index_eq_ok_iff {list : List α} {position : Nat} {value : α} :
    (index list position : Checked ε α) = .ok value ↔ list[position]? = some value := by
  unfold index
  split <;> simp_all [panicked]

/-- A filled array has the requested length, and holds the byte computed for each
position. -/
theorem fill_eq_ok_iff {byteAt : Nat → Checked ε UInt8} {start count : Nat}
    {bytes : List UInt8} :
    fill byteAt start count = .ok bytes ↔
      bytes.length = count ∧
        ∀ (offset : Nat) (within : offset < bytes.length),
          byteAt (start + offset) = .ok bytes[offset] := by
  induction count generalizing start bytes with
  | zero =>
      cases bytes with
      | nil => simp [fill]
      | cons byte rest => simp [fill]
  | succ count ih =>
      simp only [fill, bind_eq_ok, ih, pure_eq_ok, Except.ok.injEq]
      constructor
      · rintro ⟨byte, first, rest, ⟨length, others⟩, rfl⟩
        refine ⟨by simp [length], ?_⟩
        intro offset within
        cases offset with
        | zero => simpa using first
        | succ offset =>
            have next := others offset (by simpa using within)
            rw [Nat.add_right_comm, Nat.add_assoc] at next
            simpa using next
      · rintro ⟨length, computed⟩
        cases bytes with
        | nil => simp at length
        | cons byte rest =>
            refine ⟨byte, computed 0 (by simp), rest, ⟨by simpa using length, ?_⟩, rfl⟩
            intro offset within
            have next := computed (offset + 1) (by simpa using within)
            rw [Nat.add_right_comm, Nat.add_assoc]
            simpa using next

/-! ## Where a computation may stop -/

/-- The only ways `source` can stop without a value are allowed ones. -/
def StopsOnlyBy (allowed : Abort ε → Prop) (source : Checked ε α) : Prop :=
  ∀ abort, source = .error abort → allowed abort

/-- No slice, index or subtraction of the computation is out of range. -/
abbrev NoPanic (source : Checked ε α) : Prop := source ≠ .error .panic

variable {allowed : Abort ε → Prop}

@[simp] theorem stopsOnlyBy_ok (value : α) : StopsOnlyBy allowed (.ok value) := by
  intro abort stopped
  cases stopped

@[simp] theorem stopsOnlyBy_err {reported : ε} :
    StopsOnlyBy allowed (err reported : Checked ε α) ↔ allowed (.error reported) := by
  simp [StopsOnlyBy, err]

theorem stopsOnlyBy_bind {source : Checked ε α} {next : α → Checked ε β}
    (first : StopsOnlyBy allowed source)
    (rest : ∀ value, source = .ok value → StopsOnlyBy allowed (next value)) :
    StopsOnlyBy allowed (source >>= next) := by
  cases source with
  | error abort =>
      intro other stopped
      cases stopped
      exact first _ rfl
  | ok value => exact rest value rfl

theorem stopsOnlyBy_okOr {source : Option α} {reported : ε}
    (permitted : allowed (.error reported)) : StopsOnlyBy allowed (okOr source reported) := by
  cases source with
  | some value => simp
  | none => simpa using permitted

theorem stopsOnlyBy_reject {condition : Prop} [Decidable condition] {reported : ε}
    (permitted : allowed (.error reported)) : StopsOnlyBy allowed (reject condition reported) := by
  unfold reject
  split
  · simpa using permitted
  · simp

/-- An error mapping to one constant leaves that error as the only possible stop
of a computation that does not panic. -/
theorem stopsOnlyBy_mapErr_const {source : Checked ε α} {allowed : Abort ε' → Prop}
    {reported : ε'} (safe : NoPanic source) (permitted : allowed (.error reported)) :
    StopsOnlyBy allowed (mapErr source fun _ => reported) := by
  rcases source with (first | _) | value
  · intro abort stopped
    cases stopped
    exact permitted
  · exact absurd rfl safe
  · simp

theorem noPanic_iff {source : Checked ε α} :
    NoPanic source ↔ StopsOnlyBy (· ≠ Abort.panic) source := by
  constructor
  · rintro safe abort rfl rfl
    exact safe rfl
  · rintro bounded rfl
    exact bounded _ rfl rfl

theorem eq_error_of_noPanic {source : Checked ε α} (safe : NoPanic source)
    (refused : ∀ value, source ≠ .ok value) : ∃ reported, source = .error (.error reported) := by
  rcases source with (reported | _) | value
  · exact ⟨reported, rfl⟩
  · exact absurd rfl safe
  · exact absurd rfl (refused value)

theorem noPanic_bind {source : Checked ε α} {next : α → Checked ε β} (first : NoPanic source)
    (rest : ∀ value, source = .ok value → NoPanic (next value)) :
    NoPanic (source >>= next) :=
  noPanic_iff.2 (stopsOnlyBy_bind (noPanic_iff.1 first)
    fun value accepted => noPanic_iff.1 (rest value accepted))

@[simp] theorem noPanic_ok (value : α) : NoPanic (.ok value : Checked ε α) := by
  simp [NoPanic]

@[simp] theorem noPanic_err (reported : ε) : NoPanic (err reported : Checked ε α) := by
  simp [NoPanic, err]

@[simp] theorem noPanic_okOr (source : Option α) (reported : ε) :
    NoPanic (okOr source reported) := by
  cases source <;> simp

@[simp] theorem noPanic_reject (condition : Prop) [Decidable condition] (reported : ε) :
    NoPanic (reject condition reported) := by
  unfold reject
  split <;> simp

theorem noPanic_mapErr {source : Checked ε α} {change : ε → ε'} (safe : NoPanic source) :
    NoPanic (mapErr source change) := by
  rcases source with (first | _) | value
  · simp [NoPanic, mapErr]
  · exact absurd rfl safe
  · simp

theorem noPanic_fill {byteAt : Nat → Checked ε UInt8} {start count : Nat}
    (safe : ∀ position, position < start + count → NoPanic (byteAt position)) :
    NoPanic (fill byteAt start count) := by
  induction count generalizing start with
  | zero => simp [fill]
  | succ count ih =>
      refine noPanic_bind (safe start (by omega)) fun byte _ => ?_
      exact noPanic_bind (ih fun position below => safe position (by omega)) fun rest _ => noPanic_ok _

end Checked

end Sealed.Foundation
