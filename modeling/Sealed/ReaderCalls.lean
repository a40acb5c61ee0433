import Sealed.FormatProperties

/-! Any sequence of calls to a reader hands out its input from the front, every byte once. A
call that fails leaves the reader to the calls behind it. -/

set_option autoImplicit false

namespace Sealed

open Foundation

namespace Reader

/-- The calls that move the cursor. -/
inductive Call where
  | byte
  | u32Be
  | array (n : Nat)
  | take (length : Nat)

namespace Call

/-- The length that a call requests. -/
def length : Call → Nat
  | .byte => 1
  | .u32Be => 4
  | .array n => n
  | .take length => length

/-- A call, for the bytes that it hands out. -/
def read : Call → Reading (List UInt8)
  | .byte => do return [← Reader.byte]
  | .u32Be => do return (u32ToBe (← Reader.u32Be)).toList
  | .array n => do return (← Reader.array n).toList
  | .take length => Reader.take length

theorem read_eq_ok_iff {call : Call} {reader next : Reader} {output : List UInt8} :
    call.read reader = .ok output next ↔ Reader.take call.length reader = .ok output next := by
  cases call with
  | byte =>
      simp only [read, bind_eq_ok, byte_eq_ok_iff, pure_eq_ok_iff]
      constructor
      · rintro ⟨value, middle, taken, rfl, rfl⟩
        exact taken
      · intro taken
        obtain ⟨value, rfl⟩ := List.length_eq_one_iff.1 (take_eq_ok_iff.1 taken).2.1
        exact ⟨value, next, taken, rfl, rfl⟩
  | u32Be =>
      simp only [read, bind_eq_ok, u32Be_eq_ok_iff, pure_eq_ok_iff]
      constructor
      · rintro ⟨value, middle, taken, rfl, rfl⟩
        exact taken
      · intro taken
        have four : output.length = 4 := (take_eq_ok_iff.1 taken).2.1
        have value : (u32ToBe (u32FromBe ⟨output, four⟩)).toList = output := by
          rw [u32ToBe_fromBe]
        exact ⟨_, next, value.symm ▸ taken, value, rfl⟩
  | array n =>
      simp only [read, bind_eq_ok, array_eq_ok_iff, pure_eq_ok_iff]
      constructor
      · rintro ⟨bytes, middle, taken, rfl, rfl⟩
        exact taken
      · intro taken
        exact ⟨⟨output, (take_eq_ok_iff.1 taken).2.1⟩, next, taken, rfl, rfl⟩
  | take length => exact Iff.rfl

theorem read_of_error {call : Call} {reader next : Reader} {abort : Abort Error}
    (stopped : Reader.take call.length reader = .error abort next) :
    call.read reader = .error abort next := by
  cases call with
  | take length => exact stopped
  | byte | u32Be | array =>
      simp only [length] at stopped
      simp [read, Reader.byte, Reader.u32Be, Reader.array, bind, EStateM.bind, stopped]

theorem read_eq_take (call : Call) (reader : Reader) :
    call.read reader = Reader.take call.length reader := by
  cases taken : Reader.take call.length reader with
  | ok output next => exact read_eq_ok_iff.2 taken
  | error abort next => exact read_of_error taken

end Call

/-! ## One call -/

/-- A call for more than is pending is refused, where the sum with the offset fits a machine
word and where it does not. -/
theorem take_of_short {reader : Reader} {length : Nat} (short : reader.pending.length < length) :
    ∃ reported, take length reader = .error (.error reported) reader := by
  rw [length_pending] at short
  unfold take checkedAdd
  by_cases fits : reader.offset + length < usizeLimit
  · have past : ¬ reader.offset + length ≤ reader.input.length := by omega
    simp only [fits, if_true, dif_neg past]
    exact ⟨_, rfl⟩
  · simp only [fits, if_false]
    exact ⟨_, rfl⟩

/-- A call to a reader of a slice in memory succeeds exactly where enough is pending, and
hands out the front of it; any other call changes nothing. -/
theorem read_exact {reader : Reader} (fits : reader.input.length < usizeLimit) (call : Call) :
    (call.length ≤ reader.pending.length ∧ ∃ output next,
      call.read reader = .ok output next ∧ next.input = reader.input ∧
        reader.pending = output ++ next.pending) ∨
    (reader.pending.length < call.length ∧ ∃ reported,
      call.read reader = .error (.error reported) reader) := by
  rw [Call.read_eq_take]
  rcases Nat.lt_or_ge reader.pending.length call.length with short | room
  · exact .inr ⟨short, take_of_short short⟩
  · have within := reader.within
    have reach : reader.offset + call.length < usizeLimit := by
      rw [length_pending] at room
      omega
    obtain ⟨output, next, taken⟩ := take_ok reach room
    obtain ⟨_, _, input, _, split⟩ := take_eq_ok_iff.1 taken
    exact .inl ⟨room, output, next, taken, input, split⟩

/-! ## Sequences of calls -/

/-- What a call answers, and the reader it leaves. -/
def Call.answer (call : Call) (reader : Reader) : Result (List UInt8) × Reader :=
  match call.read reader with
  | .ok output next => (.ok output, next)
  | .error abort next => (.error abort, next)

/-- The answers to a sequence of calls, whether or not some of them fail. -/
def serve : Reader → List Call → List (Result (List UInt8)) × Reader
  | reader, [] => ([], reader)
  | reader, call :: calls =>
      let (answer, next) := call.answer reader
      let (answers, final) := serve next calls
      (answer :: answers, final)

/-- The bytes of the calls that succeeded. -/
def handedOut : List (Result (List UInt8)) → List UInt8
  | [] => []
  | .ok output :: answers => output ++ handedOut answers
  | .error _ :: answers => handedOut answers

theorem serve_append (reader : Reader) (front back : List Call) :
    serve reader (front ++ back) =
      ((serve reader front).1 ++ (serve (serve reader front).2 back).1,
        (serve (serve reader front).2 back).2) := by
  induction front generalizing reader with
  | nil => rfl
  | cons call front ih => simp only [List.cons_append, serve, ih]

/-- What was pending before the calls is what they handed out, and what is pending after. -/
theorem pending_serve {reader : Reader} (fits : reader.input.length < usizeLimit)
    (calls : List Call) :
    (serve reader calls).2.input = reader.input ∧
      reader.pending = handedOut (serve reader calls).1 ++ (serve reader calls).2.pending := by
  induction calls generalizing reader with
  | nil => exact ⟨rfl, rfl⟩
  | cons call calls ih =>
      rcases read_exact fits call with ⟨_, output, next, read, input, split⟩ | ⟨_, _, read⟩
      · obtain ⟨same, rest⟩ := @ih next (input.symm ▸ fits)
        simp only [serve, Call.answer, read, handedOut]
        exact ⟨same.trans input, by rw [List.append_assoc, ← rest, split]⟩
      · simp only [serve, Call.answer, read, handedOut]
        exact ih fits

theorem handedOut_serve (input : Slice) (calls : List Call) :
    (serve (new input.bytes) calls).2.input = input.bytes ∧
      handedOut (serve (new input.bytes) calls).1 =
        input.bytes.take (serve (new input.bytes) calls).2.offset := by
  obtain ⟨same, split⟩ := @pending_serve (new input.bytes) input.fits calls
  refine ⟨same, ?_⟩
  rw [pending_new, pending, same] at split
  exact List.append_cancel_right (split.symm.trans (List.take_append_drop _ _).symm)

/-- A reader consumes its input once and never past the end: after any calls, whatever they
ask for, the bytes handed out are the input up to the cursor, the next call succeeds exactly
where it asks for no more than remains, and a failed call might as well not have been made. -/
theorem serve_consumes_once (input : Slice) (front : List Call) (call : Call)
    (back : List Call) :
    let reader := (serve (new input.bytes) front).2
    reader.offset ≤ input.bytes.length ∧
      remaining reader = .ok (input.bytes.length - reader.offset) reader ∧
      handedOut (serve (new input.bytes) front).1 = input.bytes.take reader.offset ∧
      ((∃ output next, call.read reader = .ok output next) ↔
        call.length ≤ input.bytes.length - reader.offset) ∧
      ∀ abort next, call.read reader = .error abort next →
        next = reader ∧ (∃ reported, abort = .error reported) ∧ ∃ answers final,
          serve (new input.bytes) (front ++ back) =
            ((serve (new input.bytes) front).1 ++ answers, final) ∧
          serve (new input.bytes) (front ++ call :: back) =
            ((serve (new input.bytes) front).1 ++ .error abort :: answers, final) := by
  intro reader
  obtain ⟨same, handed⟩ := handedOut_serve input front
  have length : reader.pending.length = input.bytes.length - reader.offset := by
    rw [length_pending, same]
  have within := reader.within
  have fits : reader.input.length < usizeLimit := same ▸ input.fits
  refine ⟨same ▸ within, by rw [remaining_eq, length], handed, ?_, ?_⟩
  · rw [← length]
    rcases read_exact fits call with ⟨room, output, next, read, _⟩ | ⟨short, _, read⟩
    · exact ⟨fun _ => room, fun _ => ⟨output, next, read⟩⟩
    · constructor
      · rintro ⟨output, next, succeeded⟩
        cases read.symm.trans succeeded
      · omega
  · intro abort next failed
    rcases read_exact fits call with ⟨_, _, _, read, _⟩ | ⟨_, reported, read⟩
    · cases read.symm.trans failed
    · cases read.symm.trans failed
      refine ⟨rfl, ⟨reported, rfl⟩, (serve reader back).1, (serve reader back).2, ?_, ?_⟩
      · exact serve_append _ front back
      · have answered : call.answer reader = (.error (.error reported), reader) := by
          rw [Call.answer, read]
        have later : serve reader (call :: back) =
            (.error (.error reported) :: (serve reader back).1, (serve reader back).2) := by
          rw [serve, answered]
        rw [serve_append, later]

end Reader

end Sealed
