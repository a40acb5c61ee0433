import Mathlib.Data.List.Basic

/-! Text as its UTF-8 bytes: validation, line splitting and prefix stripping, each
on the bytes of a string as the standard library's string slices define them. -/

set_option autoImplicit false

namespace Sealed.Foundation

/-- The bytes of an ASCII literal. -/
def ascii (literal : String) : List UInt8 :=
  literal.toList.map fun char => UInt8.ofNat char.toNat

def newline : UInt8 := 0x0a

def carriageReturn : UInt8 := 0x0d

/-- The continuation bytes of a multi-byte character. -/
def isContinuation (byte : UInt8) : Bool := 0x80 ≤ byte && byte ≤ 0xbf

/-- The second bytes that may follow the first byte of a three-byte character: no
overlong form and no surrogate. -/
def isSecondOfThree (first second : UInt8) : Bool :=
  if first = 0xe0 then 0xa0 ≤ second && second ≤ 0xbf
  else if first = 0xed then 0x80 ≤ second && second ≤ 0x9f
  else 0xe1 ≤ first && first ≤ 0xef && isContinuation second

/-- The second bytes that may follow the first byte of a four-byte character: no
overlong form and nothing past the last code point. -/
def isSecondOfFour (first second : UInt8) : Bool :=
  if first = 0xf0 then 0x90 ≤ second && second ≤ 0xbf
  else if first = 0xf4 then 0x80 ≤ second && second ≤ 0x8f
  else 0xf1 ≤ first && first ≤ 0xf3 && isContinuation second

/-- Whether the bytes are well-formed UTF-8. -/
def utf8Valid : List UInt8 → Bool
  | [] => true
  | first :: rest =>
      if first < 0x80 then utf8Valid rest
      else match rest with
        | [] => false
        | second :: rest =>
            if 0xc2 ≤ first && first ≤ 0xdf then isContinuation second && utf8Valid rest
            else match rest with
              | [] => false
              | third :: rest =>
                  if isSecondOfThree first second then isContinuation third && utf8Valid rest
                  else match rest with
                    | [] => false
                    | fourth :: rest =>
                        isSecondOfFour first second && isContinuation third &&
                          isContinuation fourth && utf8Valid rest

/-- `str::from_utf8`: a string slice is its bytes, once they are well formed. -/
def fromUtf8 (bytes : List UInt8) : Option (List UInt8) :=
  if utf8Valid bytes then some bytes else none

/-- The encoding of U+FFFD. -/
def replacementCharacter : List UInt8 := [0xef, 0xbf, 0xbd]

/-- `String::from_utf8_lossy`: the character U+FFFD stands for as much of a character as there is
where it breaks off. -/
def toUtf8Lossy : List UInt8 → List UInt8
  | [] => []
  | first :: rest =>
      if first < 0x80 then first :: toUtf8Lossy rest
      else match rest with
        | [] => replacementCharacter
        | second :: rest =>
            if 0xc2 ≤ first && first ≤ 0xdf && isContinuation second then
              first :: second :: toUtf8Lossy rest
            else if isSecondOfThree first second then
              match rest with
              | [] => replacementCharacter
              | third :: rest =>
                  if isContinuation third then first :: second :: third :: toUtf8Lossy rest
                  else replacementCharacter ++ toUtf8Lossy (third :: rest)
            else if isSecondOfFour first second then
              match rest with
              | [] => replacementCharacter
              | third :: rest =>
                  if isContinuation third then
                    match rest with
                    | [] => replacementCharacter
                    | fourth :: rest =>
                        if isContinuation fourth then
                          first :: second :: third :: fourth :: toUtf8Lossy rest
                        else replacementCharacter ++ toUtf8Lossy (fourth :: rest)
                  else replacementCharacter ++ toUtf8Lossy (third :: rest)
            else replacementCharacter ++ toUtf8Lossy (second :: rest)

example : toUtf8Lossy ([0x61, 0xe2, 0x82, 0x62, 0xff, 0xc3, 0xa9, 0xf0, 0x9f]) =
    [0x61] ++ replacementCharacter ++ [0x62] ++ replacementCharacter ++ [0xc3, 0xa9] ++
      replacementCharacter := by decide

/-- `str::strip_suffix` of a carriage return. -/
def stripCarriageReturn (line : List UInt8) : List UInt8 :=
  if line.getLast? = some carriageReturn then line.dropLast else line

/-- The lines of a text after the bytes of `current`. A last line without a newline
keeps its carriage return. -/
def linesFrom (current : List UInt8) : List UInt8 → List (List UInt8)
  | [] => if current = [] then [] else [current]
  | byte :: rest =>
      if byte = newline then stripCarriageReturn current :: linesFrom [] rest
      else linesFrom (current ++ [byte]) rest

/-- `str::lines`. -/
def lines (text : List UInt8) : List (List UInt8) := linesFrom [] text

/-- `str::strip_prefix`. -/
def stripPrefix (lead text : List UInt8) : Option (List UInt8) :=
  if lead.isPrefixOf text then some (text.drop lead.length) else none

/-- The encodings of the characters with the property `White_Space`. -/
def whiteSpace : List (List UInt8) :=
  [[0x09], [0x0a], [0x0b], [0x0c], [0x0d], [0x20], [0xc2, 0x85], [0xc2, 0xa0], [0xe1, 0x9a, 0x80],
    [0xe2, 0x80, 0x80], [0xe2, 0x80, 0x81], [0xe2, 0x80, 0x82], [0xe2, 0x80, 0x83],
    [0xe2, 0x80, 0x84], [0xe2, 0x80, 0x85], [0xe2, 0x80, 0x86], [0xe2, 0x80, 0x87],
    [0xe2, 0x80, 0x88], [0xe2, 0x80, 0x89], [0xe2, 0x80, 0x8a], [0xe2, 0x80, 0xa8],
    [0xe2, 0x80, 0xa9], [0xe2, 0x80, 0xaf], [0xe2, 0x81, 0x9f], [0xe3, 0x80, 0x80]]

/-- The text behind as many leading patterns as there are, at most so many. -/
def trimMatches (patterns : List (List UInt8)) : Nat → List UInt8 → List UInt8
  | 0, text => text
  | rounds + 1, text =>
      match patterns.findSome? fun pattern => stripPrefix pattern text with
      | some rest => trimMatches patterns rounds rest
      | none => text

/-- `str::trim`. Every pattern has a byte, so as many rounds as there are bytes suffice. -/
def trim (text : List UInt8) : List UInt8 :=
  let front := trimMatches whiteSpace text.length text
  (trimMatches (whiteSpace.map List.reverse) front.length front.reverse).reverse

/-- `str::to_ascii_lowercase`. -/
def toAsciiLowercase (text : List UInt8) : List UInt8 :=
  text.map fun byte => if 0x41 ≤ byte && byte ≤ 0x5a then byte + 0x20 else byte

/-- `str::to_ascii_uppercase`. -/
def toAsciiUppercase (text : List UInt8) : List UInt8 :=
  text.map fun byte => if 0x61 ≤ byte && byte ≤ 0x7a then byte - 0x20 else byte

/-- `byte as char`, which `String::push` writes in UTF-8. -/
def asChar (byte : UInt8) : List UInt8 :=
  if byte < 0x80 then [byte] else [(byte >>> 6) ||| 0xc0, (byte &&& 0x3f) ||| 0x80]

theorem utf8Valid_of_ascii {bytes : List UInt8} (ascii : ∀ byte ∈ bytes, byte < 0x80) :
    utf8Valid bytes = true := by
  induction bytes with
  | nil => rfl
  | cons byte rest ih =>
      unfold utf8Valid
      rw [if_pos (ascii byte (by simp))]
      exact ih fun other member => ascii other (by simp [member])

theorem fromUtf8_eq_some_iff {bytes text : List UInt8} :
    fromUtf8 bytes = some text ↔ utf8Valid bytes = true ∧ bytes = text := by
  simp [fromUtf8]

@[simp] theorem linesFrom_nil : linesFrom [] [] = [] := rfl

theorem linesFrom_line {current line rest : List UInt8} (whole : newline ∉ line) :
    linesFrom current (line ++ newline :: rest) =
      stripCarriageReturn (current ++ line) :: linesFrom [] rest := by
  induction line generalizing current with
  | nil => simp [linesFrom]
  | cons byte line ih =>
      simp only [List.mem_cons, not_or] at whole
      simp only [List.cons_append, linesFrom]
      rw [if_neg fun same => whole.1 same.symm, ih whole.2]
      simp

theorem stripCarriageReturn_of_notMem {line : List UInt8} (plain : carriageReturn ∉ line) :
    stripCarriageReturn line = line := by
  unfold stripCarriageReturn
  rw [if_neg]
  intro last
  exact plain (List.mem_of_getLast? last)

theorem lines_line {line rest : List UInt8} (whole : newline ∉ line)
    (plain : carriageReturn ∉ line) :
    lines (line ++ newline :: rest) = line :: lines rest := by
  rw [lines, linesFrom_line whole, List.nil_append, stripCarriageReturn_of_notMem plain]
  rfl

theorem stripPrefix_append (lead rest : List UInt8) :
    stripPrefix lead (lead ++ rest) = some rest := by
  simp [stripPrefix]

theorem stripPrefix_eq_some_iff {lead text rest : List UInt8} :
    stripPrefix lead text = some rest ↔ text = lead ++ rest := by
  constructor
  · intro stripped
    unfold stripPrefix at stripped
    split at stripped
    · rename_i leads
      obtain ⟨behind, rfl⟩ := List.isPrefixOf_iff_prefix.1 leads
      rw [List.drop_left] at stripped
      rw [Option.some.inj stripped]
    · cases stripped
  · rintro rfl
    exact stripPrefix_append lead rest

end Sealed.Foundation
