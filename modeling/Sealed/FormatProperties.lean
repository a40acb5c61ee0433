import Sealed.Format

/-! Laws of the hexadecimal codec and of the reader. -/

set_option autoImplicit false

namespace Sealed

open Foundation

/-! ## Hexadecimal -/

theorem length_hexEncode (bytes : List UInt8) :
    (hexEncode bytes).length = bytes.length * 2 := by
  induction bytes with
  | nil => rfl
  | cons byte rest ih =>
      simp only [hexEncode, List.flatMap_cons, List.length_append] at ih ⊢
      rw [ih]
      simp [hexDigits]
      omega

theorem hexAlphabet_eq : hexAlphabet = ascii "0123456789abcdef" := by
  decide

theorem hexEncode_digits (bytes : List UInt8) : ∀ digit ∈ hexEncode bytes, digit ∈ hexAlphabet := by
  intro digit member
  obtain ⟨byte, _, digits⟩ := List.mem_flatMap.1 member
  simp only [hexDigits, List.mem_cons, List.not_mem_nil, or_false] at digits
  rcases digits with rfl | rfl
  · exact List.get_mem _ _
  · exact List.get_mem _ _

/-- Every character of an encoding is a digit: printable ASCII, so no line end. -/
theorem hexEncode_printable (bytes : List UInt8) :
    ∀ digit ∈ hexEncode bytes, 0x30 ≤ digit ∧ digit < 0x80 := by
  have printable : ∀ digit ∈ hexAlphabet, 0x30 ≤ digit ∧ digit < 0x80 := by decide +kernel
  intro digit member
  exact printable digit (hexEncode_digits bytes digit member)

theorem hexNibble_alphabet :
    ∀ value : Fin hexAlphabet.length,
      hexNibble (hexAlphabet.get value) = .ok (UInt8.ofNat value) := by
  decide

theorem nibbles_join (byte : UInt8) :
    UInt8.ofNat (byte >>> 4).toNat <<< 4 ||| UInt8.ofNat (byte &&& 0x0f).toNat = byte := by
  have all : ∀ value : Fin 256, UInt8.ofNat (UInt8.ofNat value >>> 4).toNat <<< 4 |||
      UInt8.ofNat (UInt8.ofNat value &&& 0x0f).toNat = UInt8.ofNat value := by
    decide +kernel
  simpa using all ⟨byte.toNat, byte.toNat_lt⟩

/-- The ASCII hex digits, of either case. -/
def HexDigit (byte : UInt8) : Prop :=
  (0x30 ≤ byte ∧ byte ≤ 0x39) ∨ (0x61 ≤ byte ∧ byte ≤ 0x66) ∨ (0x41 ≤ byte ∧ byte ≤ 0x46)

instance (byte : UInt8) : Decidable (HexDigit byte) :=
  inferInstanceAs (Decidable (_ ∨ _ ∨ _))

theorem hexNibble_of_hexDigit {digit : UInt8} (accepted : HexDigit digit) :
    ∃ value : Fin hexAlphabet.length, hexNibble digit = .ok (UInt8.ofNat value) ∧
      toAsciiLowercase [digit] = [hexAlphabet.get value] := by
  have all : ∀ digit : Fin 256, HexDigit (UInt8.ofNat digit) →
      ∃ value : Fin hexAlphabet.length, hexNibble (UInt8.ofNat digit) = .ok (UInt8.ofNat value) ∧
        toAsciiLowercase [UInt8.ofNat digit] = [hexAlphabet.get value] := by
    decide +kernel
  have found := all ⟨digit.toNat, digit.toNat_lt⟩
  simp only [UInt8.ofNat_toNat] at found
  exact found accepted

theorem hexDigit_of_hexNibble {digit value : UInt8} (decoded : hexNibble digit = .ok value) :
    HexDigit digit := by
  by_contra other
  simp only [HexDigit, not_or] at other
  rw [hexNibble, if_neg other.2.1, if_neg other.1, if_neg other.2.2] at decoded
  cases decoded

theorem hexDigits_join : ∀ high low : Fin hexAlphabet.length,
    hexDigits (UInt8.ofNat high <<< 4 ||| UInt8.ofNat low) =
      [hexAlphabet.get high, hexAlphabet.get low] := by
  decide +kernel

theorem hexByteAt_pair (high low : UInt8) (rest : List UInt8) :
    hexByteAt (high :: low :: rest) 0 =
      (hexNibble high >>= fun high => hexNibble low >>= fun low =>
        pure ((high <<< 4) ||| low)) := rfl

theorem hexByteAt_hexDigits (byte : UInt8) (rest : List UInt8) :
    hexByteAt (hexDigits byte ++ rest) 0 = .ok byte := by
  have high := hexNibble_alphabet ⟨_, hexAlphabet_high byte⟩
  have low := hexNibble_alphabet ⟨_, hexAlphabet_low byte⟩
  rw [hexDigits, List.cons_append, List.cons_append, hexByteAt_pair, high, Checked.ok_bind, low,
    Checked.ok_bind]
  exact congrArg Except.ok (nibbles_join byte)

theorem hexDigits_injective {left right : UInt8} (same : hexDigits left = hexDigits right) :
    left = right := by
  have decoded := hexByteAt_hexDigits left []
  rw [same, hexByteAt_hexDigits right []] at decoded
  exact (Except.ok.inj decoded).symm

/-- Two digits of either case are a byte, whose own digits are theirs in lower case. -/
theorem hexByteAt_of_hexDigits {high low : UInt8} (rest : List UInt8) (highDigit : HexDigit high)
    (lowDigit : HexDigit low) :
    ∃ byte, hexByteAt (high :: low :: rest) 0 = .ok byte ∧
      hexDigits byte = toAsciiLowercase [high, low] := by
  obtain ⟨first, highDecoded, highLower⟩ := hexNibble_of_hexDigit highDigit
  obtain ⟨second, lowDecoded, lowLower⟩ := hexNibble_of_hexDigit lowDigit
  refine ⟨UInt8.ofNat first <<< 4 ||| UInt8.ofNat second, ?_, ?_⟩
  · rw [hexByteAt_pair, highDecoded, Checked.ok_bind, lowDecoded]
    rfl
  · calc hexDigits (UInt8.ofNat first <<< 4 ||| UInt8.ofNat second)
      _ = [hexAlphabet.get first] ++ [hexAlphabet.get second] := hexDigits_join first second
      _ = toAsciiLowercase [high] ++ toAsciiLowercase [low] := by rw [highLower, lowLower]
      _ = toAsciiLowercase [high, low] := rfl

theorem hexByteAt_eq_ok_iff {high low byte : UInt8} {rest : List UInt8} :
    hexByteAt (high :: low :: rest) 0 = .ok byte ↔
      HexDigit high ∧ HexDigit low ∧ hexDigits byte = toAsciiLowercase [high, low] := by
  constructor
  · intro decoded
    have halves := decoded
    simp only [hexByteAt_pair, Checked.bind_eq_ok] at halves
    obtain ⟨first, highDecoded, second, lowDecoded, _⟩ := halves
    have highDigit := hexDigit_of_hexNibble highDecoded
    have lowDigit := hexDigit_of_hexNibble lowDecoded
    obtain ⟨joined, decoded', digits⟩ := hexByteAt_of_hexDigits rest highDigit lowDigit
    cases decoded.symm.trans decoded'
    exact ⟨highDigit, lowDigit, digits⟩
  · rintro ⟨highDigit, lowDigit, digits⟩
    obtain ⟨joined, decoded, digits'⟩ := hexByteAt_of_hexDigits rest highDigit lowDigit
    rw [decoded, hexDigits_injective (digits'.trans digits.symm)]

theorem fill_hexByteAt_succ (high low : UInt8) (rest : List UInt8) (start count : Nat) :
    Checked.fill (hexByteAt (high :: low :: rest)) (start + 1) count =
      Checked.fill (hexByteAt rest) start count := by
  induction count generalizing start with
  | zero => rfl
  | succ count ih =>
      have moved : hexByteAt (high :: low :: rest) (start + 1) = hexByteAt rest start := by
        simp [hexByteAt, Checked.index, Nat.succ_mul, Nat.add_right_comm]
      simp only [Checked.fill, moved, ih]

theorem exists_pair {count : Nat} {text : List UInt8} (length : text.length = (count + 1) * 2) :
    ∃ high low rest, text = high :: low :: rest ∧ rest.length = count * 2 := by
  cases text with
  | nil => simp at length
  | cons high text =>
      cases text with
      | nil =>
          simp only [List.length_singleton] at length
          omega
      | cons low rest =>
          simp only [List.length_cons] at length
          exact ⟨high, low, rest, rfl, by omega⟩

/-- The loop turns a text of hex digits into the bytes whose encoding is the text in lower
case. The induction is on the pairs. -/
theorem fill_hexByteAt_eq_ok_iff {count : Nat} {text bytes : List UInt8}
    (length : text.length = count * 2) :
    Checked.fill (hexByteAt text) 0 count = .ok bytes ↔
      (∀ digit ∈ text, HexDigit digit) ∧ hexEncode bytes = toAsciiLowercase text := by
  induction count generalizing text bytes with
  | zero =>
      obtain rfl : text = [] := List.eq_nil_of_length_eq_zero (by simpa using length)
      cases bytes with
      | nil => simp [Checked.fill, hexEncode, toAsciiLowercase]
      | cons byte bytes => simp [Checked.fill, hexEncode, toAsciiLowercase, hexDigits]
  | succ count ih =>
      obtain ⟨high, low, rest, rfl, shorter⟩ := exists_pair length
      simp only [Checked.fill, fill_hexByteAt_succ, Checked.bind_eq_ok, hexByteAt_eq_ok_iff,
        ih shorter, Checked.pure_eq_ok, Except.ok.injEq]
      constructor
      · rintro ⟨byte, ⟨highDigit, lowDigit, digits⟩, more, ⟨others, encoded⟩, rfl⟩
        refine ⟨by simp_all, ?_⟩
        calc hexEncode (byte :: more)
          _ = hexDigits byte ++ hexEncode more := rfl
          _ = toAsciiLowercase [high, low] ++ toAsciiLowercase rest := by rw [digits, encoded]
          _ = toAsciiLowercase (high :: low :: rest) := rfl
      · rintro ⟨digits, encoded⟩
        cases bytes with
        | nil => cases encoded
        | cons byte more =>
            have split : hexDigits byte ++ hexEncode more =
              toAsciiLowercase [high, low] ++ toAsciiLowercase rest := encoded
            obtain ⟨pair, others⟩ := List.append_inj split rfl
            refine ⟨byte, ⟨?_, ?_, pair⟩, more, ⟨?_, others⟩, rfl⟩
            · exact digits high (by simp)
            · exact digits low (by simp)
            · intro digit member
              exact digits digit (by simp [member])

/-- Exactly the texts of hex digits decode, each to the bytes whose encoding it is up to
the case of its letters. -/
theorem hexDecode_eq_ok_iff {n : Nat} {text : List UInt8} {bytes : Bytes n} :
    hexDecode n text = .ok bytes ↔
      text.length = n * 2 ∧ (∀ digit ∈ text, HexDigit digit) ∧
        hexEncode bytes.toList = toAsciiLowercase text := by
  unfold hexDecode
  split
  · rename_i wrong
    simp [wrong]
  · rename_i length
    have exact : text.length = n * 2 := by simpa using length
    rw [← fill_hexByteAt_eq_ok_iff exact]
    split
    · rename_i list filled
      simp only [exact, filled, true_and, Except.ok.injEq]
      exact ⟨fun same => same ▸ rfl, fun same => Bytes.ext same⟩
    · rename_i abort stopped
      simp [stopped]

theorem exists_hexEncode {count : Nat} {text : List UInt8} (length : text.length = count * 2)
    (digits : ∀ digit ∈ text, HexDigit digit) :
    ∃ bytes : Bytes count, hexEncode bytes.toList = toAsciiLowercase text := by
  induction count generalizing text with
  | zero =>
      obtain rfl : text = [] := List.eq_nil_of_length_eq_zero (by simpa using length)
      exact ⟨⟨[], rfl⟩, rfl⟩
  | succ count ih =>
      obtain ⟨high, low, rest, rfl, shorter⟩ := exists_pair length
      obtain ⟨byte, _, pair⟩ :=
        hexByteAt_of_hexDigits rest (digits high (by simp)) (digits low (by simp))
      obtain ⟨bytes, others⟩ :=
        ih shorter fun digit member => digits digit (by simp [member])
      refine ⟨⟨byte :: bytes.toList, by simp⟩, ?_⟩
      calc hexEncode (byte :: bytes.toList)
        _ = hexDigits byte ++ hexEncode bytes.toList := rfl
        _ = toAsciiLowercase [high, low] ++ toAsciiLowercase rest := by rw [pair, others]
        _ = toAsciiLowercase (high :: low :: rest) := rfl

theorem hexDecode_ok {n : Nat} {text : List UInt8} (length : text.length = n * 2)
    (digits : ∀ digit ∈ text, HexDigit digit) : ∃ bytes, hexDecode n text = .ok bytes := by
  obtain ⟨bytes, encoded⟩ := exists_hexEncode length digits
  exact ⟨bytes, hexDecode_eq_ok_iff.2 ⟨length, digits, encoded⟩⟩

theorem toAsciiLowercase_hexEncode (bytes : List UInt8) :
    toAsciiLowercase (hexEncode bytes) = hexEncode bytes := by
  have lower : ∀ digit ∈ hexAlphabet,
      (if 0x41 ≤ digit && digit ≤ 0x5a then digit + 0x20 else digit) = digit := by
    decide +kernel
  rw [toAsciiLowercase, List.map_congr_left fun digit member =>
    lower digit (hexEncode_digits bytes digit member)]
  exact List.map_id _

theorem hexDecode_hexEncode {n : Nat} (bytes : Bytes n) :
    hexDecode n (hexEncode bytes.toList) = .ok bytes := by
  have digits : ∀ digit ∈ hexAlphabet, HexDigit digit := by decide +kernel
  rw [hexDecode_eq_ok_iff]
  refine ⟨by simp [length_hexEncode], ?_, (toAsciiLowercase_hexEncode _).symm⟩
  intro digit member
  exact digits digit (hexEncode_digits _ digit member)

theorem noPanic_hexNibble (byte : UInt8) : Checked.NoPanic (hexNibble byte) := by
  unfold hexNibble
  split
  · simp
  · split
    · simp
    · split <;> simp

/-- The decoding loop indexes two bytes a turn, and the length check has made room
for both. -/
theorem noPanic_hexDecode (n : Nat) (encoded : List UInt8) :
    Checked.NoPanic (hexDecode n encoded) := by
  unfold hexDecode
  split
  · simp
  · rename_i length
    have room : encoded.length = n * 2 := by simpa using length
    have safe : Checked.NoPanic (Checked.fill (hexByteAt encoded) 0 n) := by
      refine Checked.noPanic_fill fun position below => ?_
      obtain ⟨high, highFound⟩ : ∃ high, encoded[position * 2]? = some high :=
        ⟨_, List.getElem?_eq_getElem (by omega)⟩
      obtain ⟨low, lowFound⟩ : ∃ low, encoded[position * 2 + 1]? = some low :=
        ⟨_, List.getElem?_eq_getElem (by omega)⟩
      unfold hexByteAt
      rw [Checked.index_of_getElem? highFound, Checked.index_of_getElem? lowFound]
      simp only [Checked.ok_bind]
      refine Checked.noPanic_bind (noPanic_hexNibble high) fun _ _ => ?_
      exact Checked.noPanic_bind (noPanic_hexNibble low) fun _ _ => Checked.noPanic_ok _
    split
    · simp
    · rename_i abort stopped
      rw [stopped] at safe
      simpa [Checked.NoPanic] using safe

/-- Encoding and decoding are inverse up to the case of the letters, and nothing but hex
text decodes. A text is its bytes, whether or not they are well formed. -/
theorem hexDecode_inverts_hexEncode (n : Nat) :
    (∀ bytes : Bytes n, hexDecode n (hexEncode bytes.toList) = .ok bytes ∧
      (hexEncode bytes.toList).length = 2 * n ∧
      ∀ digit ∈ hexEncode bytes.toList, digit ∈ ascii "0123456789abcdef") ∧
    ∀ text : List UInt8, Checked.NoPanic (hexDecode n text) ∧
      ((∃ bytes, hexDecode n text = .ok bytes) ↔
        text.length = 2 * n ∧ ∀ digit ∈ text, HexDigit digit) ∧
      ∀ bytes, hexDecode n text = .ok bytes → hexEncode bytes.toList = toAsciiLowercase text := by
  refine ⟨fun bytes => ⟨hexDecode_hexEncode bytes, ?_, ?_⟩, fun text => ⟨?_, ?_, ?_⟩⟩
  · rw [length_hexEncode, bytes.length_toList, Nat.mul_comm]
  · rw [← hexAlphabet_eq]
    exact hexEncode_digits bytes.toList
  · exact noPanic_hexDecode n text
  · constructor
    · rintro ⟨bytes, decoded⟩
      obtain ⟨length, digits, _⟩ := hexDecode_eq_ok_iff.1 decoded
      exact ⟨by omega, digits⟩
    · rintro ⟨length, digits⟩
      exact hexDecode_ok (by omega) digits
  · intro bytes decoded
    exact (hexDecode_eq_ok_iff.1 decoded).2.2

/-! ## The reader -/

namespace Reader

/-- The input a reader has not handed out yet. -/
def pending (reader : Reader) : List UInt8 := reader.input.drop reader.offset

@[simp] theorem pending_new (input : List UInt8) : (new input).pending = input := rfl

theorem length_pending (reader : Reader) :
    reader.pending.length = reader.input.length - reader.offset := by
  simp [pending]

/-- A reader of one input is determined by what it still has to hand out. -/
theorem eq_of_pending {left right : Reader} (input : left.input = right.input)
    (pending : left.pending = right.pending) : left = right := by
  have lengths := congrArg List.length pending
  rw [length_pending, length_pending] at lengths
  obtain ⟨leftInput, leftOffset, leftWithin⟩ := left
  obtain ⟨rightInput, rightOffset, rightWithin⟩ := right
  obtain rfl : leftInput = rightInput := input
  obtain rfl : leftOffset = rightOffset := by
    simp only at lengths
    omega
  rfl

theorem take_eq_ok_iff {reader next : Reader} {length : Nat} {output : List UInt8} :
    take length reader = .ok output next ↔
      reader.offset + length < usizeLimit ∧ output.length = length ∧
        next.input = reader.input ∧ next.offset = reader.offset + length ∧
        reader.pending = output ++ next.pending := by
  have inside := reader.within
  unfold take checkedAdd
  by_cases fits : reader.offset + length < usizeLimit
  · simp only [fits, if_true, true_and]
    by_cases within : reader.offset + length ≤ reader.input.length
    · rw [dif_pos within, Checked.slice_of_le (Nat.le_add_right _ _) within]
      simp only [Nat.add_sub_cancel_left, EStateM.Result.ok.injEq]
      constructor
      · rintro ⟨rfl, rfl⟩
        refine ⟨by simp; omega, rfl, rfl, ?_⟩
        simp only [pending]
        rw [← List.drop_drop]
        exact (List.take_append_drop _ _).symm
      · rintro ⟨size, sameInput, moved, split⟩
        obtain ⟨nextInput, nextOffset, nextWithin⟩ := next
        subst sameInput moved
        refine ⟨?_, rfl⟩
        have front := congrArg (List.take length) split
        rwa [List.take_left' size] at front
    · rw [dif_neg within]
      simp only [reduceCtorEq, false_iff, not_and]
      rintro size sameInput moved split
      have lengths := congrArg List.length split
      rw [length_pending, List.length_append, size] at lengths
      omega
  · simp [fits]

theorem take_ok {reader : Reader} {length : Nat} (fits : reader.offset + length < usizeLimit)
    (room : length ≤ reader.pending.length) :
    ∃ output next, take length reader = .ok output next := by
  have inside := reader.within
  rw [length_pending] at room
  have within : reader.offset + length ≤ reader.input.length := by omega
  refine ⟨reader.pending.take length, ⟨reader.input, _, within⟩, take_eq_ok_iff.2 ?_⟩
  refine ⟨fits, by simp [length_pending, room], rfl, rfl, ?_⟩
  change reader.pending = reader.pending.take length ++ reader.input.drop (reader.offset + length)
  rw [← List.drop_drop]
  exact (List.take_append_drop _ _).symm

@[simp] theorem remaining_eq (reader : Reader) :
    remaining reader = .ok reader.pending.length reader := by
  simp [remaining, lift, Checked.sub_of_le reader.within, length_pending]

theorem bind_eq_ok {α β : Type} {first : Reading α} {rest : α → Reading β}
    {reader final : Reader} {result : β} :
    (first >>= rest) reader = .ok result final ↔
      ∃ value middle, first reader = .ok value middle ∧ rest value middle = .ok result final := by
  simp only [bind, EStateM.bind]
  cases first reader <;> simp

@[simp] theorem lift_eq_ok_iff {α : Type} {computation : Result α} {reader next : Reader}
    {value : α} :
    lift computation reader = .ok value next ↔ computation = .ok value ∧ next = reader := by
  unfold lift
  cases computation <;> simp [eq_comm]

@[simp] theorem pure_eq_ok_iff {α : Type} {value result : α} {reader next : Reader} :
    (pure value : Reading α) reader = .ok result next ↔ value = result ∧ reader = next := by
  simp [pure, EStateM.pure]

theorem array_eq_ok_iff {n : Nat} {reader next : Reader} {bytes : Bytes n} :
    array n reader = .ok bytes next ↔ take n reader = .ok bytes.toList next := by
  simp only [array, bind_eq_ok, lift_eq_ok_iff, Checked.okOr_eq_ok_iff, Bytes.tryFrom_eq_some_iff]
  constructor
  · rintro ⟨output, middle, taken, rfl, rfl⟩
    exact taken
  · intro taken
    exact ⟨_, _, taken, rfl, rfl⟩

theorem byte_eq_ok_iff {reader next : Reader} {value : UInt8} :
    byte reader = .ok value next ↔ take 1 reader = .ok [value] next := by
  simp only [byte, bind_eq_ok, lift_eq_ok_iff, Checked.index_eq_ok_iff]
  constructor
  · rintro ⟨output, middle, taken, found, rfl⟩
    have length := (take_eq_ok_iff.1 taken).2.1
    obtain ⟨only, rfl⟩ := List.length_eq_one_iff.1 length
    simp only [List.getElem?_cons_zero, Option.some.injEq] at found
    exact found ▸ taken
  · intro taken
    exact ⟨_, _, taken, rfl, rfl⟩

theorem u32Be_eq_ok_iff {reader next : Reader} {value : UInt32} :
    u32Be reader = .ok value next ↔ take 4 reader = .ok (u32ToBe value).toList next := by
  simp only [u32Be, bind_eq_ok, array_eq_ok_iff, pure_eq_ok_iff]
  constructor
  · rintro ⟨bytes, middle, taken, rfl, rfl⟩
    rwa [u32ToBe_fromBe]
  · intro taken
    exact ⟨_, _, taken, u32FromBe_toBe value, rfl⟩

/-! ### Readings that cannot panic -/

/-- No cursor position makes the reading panic. -/
def NoPanic {α : Type} (reading : Reading α) : Prop :=
  ∀ reader next, reading reader ≠ .error .panic next

theorem noPanic_bind {α β : Type} {first : Reading α} {rest : α → Reading β}
    (safe : NoPanic first) (next : ∀ value, NoPanic (rest value)) : NoPanic (first >>= rest) := by
  intro reader final
  simp only [bind, EStateM.bind]
  cases run : first reader with
  | ok value middle => exact next value middle final
  | error abort middle =>
      intro stopped
      cases stopped
      exact safe reader _ run

theorem noPanic_pure {α : Type} (value : α) : NoPanic (pure value : Reading α) := by
  intro reader next stopped
  cases stopped

theorem noPanic_lift {α : Type} {computation : Result α} (safe : Checked.NoPanic computation) :
    NoPanic (lift computation) := by
  intro reader next stopped
  unfold lift at stopped
  cases computed : computation with
  | ok value =>
      rw [computed] at stopped
      cases stopped
  | error abort =>
      rw [computed] at stopped
      cases stopped
      exact safe computed

theorem noPanic_take (length : Nat) : NoPanic (take length) := by
  intro reader next
  unfold take
  split
  · rintro ⟨⟩
  · rename_i stop added
    have ordered : reader.offset ≤ stop := by
      unfold checkedAdd at added
      split at added
      · cases added
        exact Nat.le_add_right _ _
      · cases added
    split
    · rename_i within
      rw [Checked.slice_of_le ordered within]
      rintro ⟨⟩
    · rintro ⟨⟩

theorem noPanic_array (n : Nat) : NoPanic (array n) :=
  noPanic_bind (noPanic_take n) fun _ => noPanic_lift (Checked.noPanic_okOr _ _)

theorem noPanic_u32Be : NoPanic u32Be :=
  noPanic_bind (noPanic_array 4) fun _ => noPanic_pure _

theorem noPanic_remaining : NoPanic remaining := by
  intro reader next
  rw [remaining_eq]
  rintro ⟨⟩

theorem noPanic_byte : NoPanic byte := by
  intro reader next stopped
  simp only [byte, bind, EStateM.bind] at stopped
  cases run : take 1 reader with
  | ok output middle =>
      obtain ⟨only, rfl⟩ := List.length_eq_one_iff.1 (take_eq_ok_iff.1 run).2.1
      rw [run] at stopped
      cases stopped
  | error abort middle =>
      rw [run] at stopped
      cases stopped
      exact noPanic_take 1 reader _ run

end Reader

theorem Reading.noPanic_parse {α : Type} {reading : Reading α} (safe : Reader.NoPanic reading)
    (input : List UInt8) : Checked.NoPanic (reading.parse input) := by
  unfold Reading.parse EStateM.run
  cases run : reading (.new input) with
  | ok value final => simp
  | error abort final =>
      intro stopped
      cases stopped
      exact safe _ _ run

end Sealed
