import Sealed.Error

/-! Hexadecimal text and the cursor over binary input. -/

set_option autoImplicit false

namespace Sealed

open Foundation

/-! ## Hexadecimal -/

/-- The sixteen digits `0123456789abcdef`. -/
def hexAlphabet : List UInt8 :=
  [0x30, 0x31, 0x32, 0x33, 0x34, 0x35, 0x36, 0x37, 0x38, 0x39,
    0x61, 0x62, 0x63, 0x64, 0x65, 0x66]

theorem hexAlphabet_high (byte : UInt8) : (byte >>> 4).toNat < hexAlphabet.length := by
  have below := byte.toNat_lt
  simp [hexAlphabet, Nat.shiftRight_eq_div_pow]
  omega

theorem hexAlphabet_low (byte : UInt8) : (byte &&& 0x0f).toNat < hexAlphabet.length := by
  have below : byte.toNat &&& 15 ≤ 15 := Nat.and_le_right
  simp [hexAlphabet]
  omega

/-- The two digits `hex_encode` pushes for one byte. -/
def hexDigits (byte : UInt8) : List UInt8 :=
  [hexAlphabet.get ⟨(byte >>> 4).toNat, hexAlphabet_high byte⟩,
    hexAlphabet.get ⟨(byte &&& 0x0f).toNat, hexAlphabet_low byte⟩]

def hexEncode (bytes : List UInt8) : List UInt8 :=
  bytes.flatMap hexDigits

def hexNibble (byte : UInt8) : Result UInt8 :=
  if 0x30 ≤ byte ∧ byte ≤ 0x39 then .ok (byte - 0x30)
  else if 0x61 ≤ byte ∧ byte ≤ 0x66 then .ok (byte - 0x61 + 10)
  else if 0x41 ≤ byte ∧ byte ≤ 0x46 then .ok (byte - 0x41 + 10)
  else .err (.invalidInput "invalid hexadecimal character")

/-- One turn of the decoding loop: the byte that belongs at `position`. -/
def hexByteAt (encoded : List UInt8) (position : Nat) : Result UInt8 := do
  let high ← hexNibble (← .index encoded (position * 2))
  let low ← hexNibble (← .index encoded (position * 2 + 1))
  return (high <<< 4) ||| low

def hexDecode (n : Nat) (encoded : List UInt8) : Result (Bytes n) :=
  if encoded.length ≠ n * 2 then .err (.invalidInput "invalid hexadecimal length")
  else
    match decoded : Checked.fill (hexByteAt encoded) 0 n with
    | .ok bytes => .ok ⟨bytes, (Checked.fill_eq_ok_iff.1 decoded).1⟩
    | .error abort => .error abort

/-! ## The reader -/

/-- A cursor over binary input, never past its end. -/
structure Reader where
  input : List UInt8
  offset : Nat
  within : offset ≤ input.length

/-- Operations through `&mut self`: the cursor survives a failed call. -/
abbrev Reading (α : Type) := EStateM (Abort Error) Reader α

namespace Reader

def new (input : List UInt8) : Reader := ⟨input, 0, Nat.zero_le _⟩

def take (length : Nat) : Reading (List UInt8) := fun reader =>
  match checkedAdd reader.offset length with
  | none => .error (.error (.invalidInput "malformed binary input")) reader
  | some stop =>
      if within : stop ≤ reader.input.length then
        match (.slice reader.input reader.offset stop : Result (List UInt8)) with
        | .ok output => .ok output ⟨reader.input, stop, within⟩
        | .error abort => .error abort reader
      else .error (.error (.invalidInput "truncated binary input")) reader

/-- Lift a checked computation that does not touch the cursor. -/
def lift {α : Type} (computation : Result α) : Reading α := fun reader =>
  match computation with
  | .ok value => .ok value reader
  | .error abort => .error abort reader

def byte : Reading UInt8 := do
  lift (.index (← take 1) 0)

def array (n : Nat) : Reading (Bytes n) := do
  lift (.okOr (Bytes.tryFrom n (← take n)) (.invalidInput "malformed binary input"))

def u32Be : Reading UInt32 := do
  return u32FromBe (← array 4)

/-- The subtraction in `remaining`, checked like every other. -/
def remaining : Reading Nat := fun reader =>
  lift (.sub reader.input.length reader.offset) reader

end Reader

/-- The value of a reading from the start of `input`. -/
def Reading.parse {α : Type} (reading : Reading α) (input : List UInt8) : Result α :=
  match reading.run (.new input) with
  | .ok value _ => .ok value
  | .error abort _ => .error abort

end Sealed
