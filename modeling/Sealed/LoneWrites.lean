import Sealed.LoneReads
import Sealed.WriteProperties

/-! Storage functions that write alone: what they leave behind is told by the calls that were
answered. A run that dies leaves what it would leave if every further call failed. -/

set_option autoImplicit false

namespace Sealed.Storage

open Foundation FileSystem

variable {caller : Nat} {α : Type} {fs : FileSystem}

/-! ## Runs that die -/

/-- Where every call fails, a program comes to its end and changes nothing. -/
theorem run_failing (program : Program FileCall.Reply α) (fs : FileSystem) :
    ∃ calls value events, Program.run (FileSystem.respond caller) program fs
        (.replicate calls .failed) = (some value, fs, events) ∧
      ∀ event ∈ events, ¬ Answered event := by
  induction program generalizing fs with
  | done value => exact ⟨0, value, [], rfl, List.forall_mem_nil _⟩
  | call request next ih =>
      obtain ⟨calls, value, events, ended, failed⟩ := ih (.error .other) fs
      refine ⟨calls + 1, value, ⟨request, .failed, .error .other⟩ :: events, ?_, ?_⟩
      · rw [List.replicate_succ]
        simp only [Program.run, respond_failed, ended]
      · intro event member
        rcases List.mem_cons.1 member with rfl | member
        · rintro ⟨_, ⟨⟩⟩
        · exact failed event member

/-- A run that dies is the front of one that comes to its end in the same world. -/
theorem runAlone_finish (storage : Storage α) (fs : FileSystem) (outcomes : List Outcome) :
    ∃ rest result events, runAlone caller storage fs (outcomes ++ rest) =
        (some result, (runAlone caller storage fs outcomes).2.1,
          (runAlone caller storage fs outcomes).2.2 ++ events) ∧
      (∀ event ∈ events, ¬ Answered event) ∧
      ((runAlone caller storage fs outcomes).1 = some result ∧ events = [] ∨
        (runAlone caller storage fs outcomes).1 = none ∧ events ≠ []) := by
  unfold runAlone
  induction storage.run generalizing fs outcomes with
  | done value =>
      exact ⟨[], value, [], by simp [Program.run], List.forall_mem_nil _, .inl ⟨rfl, rfl⟩⟩
  | call request next ih =>
      cases outcomes with
      | nil =>
          obtain ⟨calls, value, events, ended, failed⟩ :=
            @run_failing caller _ (next (.error .other)) fs
          refine ⟨.replicate (calls + 1) .failed, value,
            ⟨request, .failed, .error .other⟩ :: events, ?_, ?_, .inr ⟨rfl, List.cons_ne_nil _ _⟩⟩
          · rw [List.nil_append, List.replicate_succ]
            simp only [Program.run, respond_failed, ended, List.nil_append]
          · intro event member
            rcases List.mem_cons.1 member with rfl | member
            · rintro ⟨_, ⟨⟩⟩
            · exact failed event member
      | cons outcome outcomes =>
          obtain ⟨rest, value, events, ended, failed, either⟩ :=
            ih (FileSystem.respond caller fs request outcome).1
              (FileSystem.respond caller fs request outcome).2 outcomes
          refine ⟨rest, value, events, ?_, failed, either⟩
          rw [List.cons_append]
          simp only [Program.run, ended, List.cons_append]

/-! ## Bytes that were written -/

def written (event : FileEvent) : Nat :=
  match event with
  | ⟨.write _ _, _, .ok count⟩ => count
  | _ => 0

/-- The bytes that the writes among these calls moved. -/
def moved : List FileEvent → Nat
  | [] => 0
  | event :: rest => written event + moved rest

@[simp] theorem moved_nil : moved [] = 0 := rfl

@[simp] theorem moved_cons (event : FileEvent) (events : List FileEvent) :
    moved (event :: events) = written event + moved events := rfl

@[simp] theorem moved_append (first second : List FileEvent) :
    moved (first ++ second) = moved first + moved second := by
  induction first with
  | nil => simp
  | cons event rest ih => simp [ih, Nat.add_assoc]

theorem written_eq_zero {event : FileEvent}
    (other : (∀ file bytes, event.request ≠ .write file bytes) ∨ ¬ Answered event) :
    written event = 0 := by
  unfold written
  split
  · rcases other with elsewhere | unanswered
    · exact absurd rfl (elsewhere _ _)
    · exact absurd ⟨_, rfl⟩ unanswered
  · rfl

theorem moved_eq_zero {events : List FileEvent}
    (others : ∀ event ∈ events, (∀ file bytes, event.request ≠ .write file bytes) ∨
      ¬ Answered event) : moved events = 0 := by
  induction events with
  | nil => rfl
  | cons event rest ih =>
      rw [moved_cons, written_eq_zero (others event List.mem_cons_self),
        ih fun other member => others other (List.mem_cons_of_mem _ member)]

theorem Looked.moved {contract : Contract FileSystem} {world later : FileSystem}
    {events : List FileEvent} (looked : Looked contract world later events) :
    moved events = 0 := by
  apply moved_eq_zero
  intro event member
  left
  intro file bytes same
  have readOnly := looked.readOnly event member
  rw [same] at readOnly
  exact readOnly

/-- A program alone that may do anything. -/
abbrev free : Contract FileSystem := lone fun _ _ => True

/-- Induction on the rounds: each adds to the file what it moved. -/
theorem meets_writeAll_alone {file rounds : Nat} :
    ∀ {fs : FileSystem} {rest : List UInt8}, rest.length ≤ rounds → file < fs.nextFile →
      Meets caller free
        (fun events later result => ∃ front, front <+: rest ∧ later = fs.append file front ∧
          moved events = front.length ∧ (result = .ok () → front = rest))
        (writeAll file rounds rest) fs := by
  have nothing : ∀ (fs : FileSystem) (events : List FileEvent) (rest : List UInt8)
      (result : Checked Error Unit), moved events = 0 → (result = .ok () → [] = rest) →
        ∃ front, front <+: rest ∧ fs = fs.append file front ∧ moved events = front.length ∧
          (result = .ok () → front = rest) := fun fs events rest result none ended =>
    ⟨[], List.nil_prefix, (append_nil file).symm, none, ended⟩
  induction rounds with
  | zero =>
      intro fs rest short inside
      obtain rfl := List.length_eq_zero_iff.1 (Nat.le_zero.1 short)
      rintro _ rfl
      exact nothing fs [] [] _ rfl fun _ => rfl
  | succ rounds ih =>
      intro fs rest short inside
      cases rest with
      | nil =>
          rintro _ rfl
          exact nothing fs [] [] _ rfl fun _ => rfl
      | cons byte rest =>
          refine meets_bind (meets_perform (.write file (byte :: rest)) ?_)
          rintro _ rfl outcome
          refine ⟨trivial, ?_⟩
          cases outcome with
          | failed =>
              rw [respond_failed]
              rintro _ rfl _ rfl
              exact nothing fs _ _ _ (by simp [written]) nofun
          | carriedOut chunk =>
              let count := min (chunk + 1) (byte :: rest).length
              have positive : count ≠ 0 := by
                simp only [count, List.length_cons]
                omega
              have taken : (byte :: rest).take (chunk + 1) = (byte :: rest).take count := by
                rw [List.take_eq_take_iff]
                simp only [count, List.length_cons]
                omega
              have step : FileSystem.respond caller fs (.write file (byte :: rest))
                  (.carriedOut chunk) = (.ok count, fs.append file ((byte :: rest).take count)) := by
                rw [← taken]
                rfl
              rw [step]
              rintro _ rfl
              change Meets _ _ _ (if count = 0 then _ else _) _
              rw [if_neg positive]
              refine (ih ?_ ?_).consequence ?_
              · simp only [List.length_drop, List.length_cons] at short ⊢
                omega
              · rwa [nextFile_append]
              · rintro events later result ⟨front, prefixed, rfl, moves, ended⟩
                refine ⟨(byte :: rest).take count ++ front, ?_, append_append _ _ _, ?_, ?_⟩
                · conv => rhs; rw [← List.take_append_drop count (byte :: rest)]
                  exact (List.prefix_append_right_inj _).2 prefixed
                · rw [moved_append, moves, List.length_append, List.length_take]
                  simp only [moved_cons, moved_nil, written, Nat.add_zero]
                  omega
                · intro ok
                  rw [ended ok, List.take_append_drop]

theorem meets_fill_alone {file : Nat} (path : Path) (bytes : List UInt8)
    (inside : file < fs.nextFile) :
    Meets caller free
      (fun events later result => ∃ front, front <+: bytes ∧ later = fs.append file front ∧
        moved events = front.length ∧ (result = .ok () → front = bytes))
      (do
        writeAll file bytes.length bytes
        perform (.sync file)
        setPrivatePermissions path) fs := by
  have idle : ∀ moment : FileSystem, free.guarantee moment moment := fun _ => trivial
  refine meets_then (meets_writeAll_alone (Nat.le_refl _) inside) ?_ ?_
  · rintro first _ _ ⟨front, prefixed, rfl, moves, whole⟩
    refine meets_then (meets_look (.sync file) trivial idle) ?_ ?_
    · rintro second _ _ ⟨looked, _⟩
      cases looked.relied
      refine (meets_setPrivatePermissions idle path).consequence ?_
      rintro third _ result ⟨looked', _⟩
      cases looked'.relied
      refine ⟨front, prefixed, rfl, ?_, fun _ => whole rfl⟩
      rw [moved_append, moved_append, moves, looked.moved, looked'.moved]
      rfl
    · rintro second _ stopped ⟨looked, _⟩ _ rfl
      cases looked.relied
      refine ⟨front, prefixed, rfl, ?_, nofun⟩
      rw [moved_append, moves, looked.moved]
      rfl
  · rintro first _ stopped ⟨front, prefixed, rfl, moves, _⟩ _ rfl
    exact ⟨front, prefixed, rfl, moves, nofun⟩

/-- Alone, `write_new_private` leaves the bytes that it moved in a new file, or nothing. -/
theorem meets_writeNewPrivate_alone (path : Path) (bytes : List UInt8) :
    Meets caller free
      (fun events later result => Written caller free path bytes fs events later result ∧
        ∃ front, front <+: bytes ∧ moved events = front.length ∧
          (result = .ok () → front = bytes) ∧
          ((¬ Succeeded (.createNew path) events ∧ later = fs ∧ front = []) ∨
            Succeeded (.createNew path) events ∧ Vacant path fs ∧
              later = fs.withFile caller path front))
      (writeNewPrivate path bytes) fs := by
  have idle : ∀ moment : FileSystem, free.guarantee moment moment := fun _ => trivial
  apply Program.Meets.and
  · exact meets_writeNewPrivate (respects_lone _) idle (fun _ _ _ _ _ _ => trivial)
      fun _ _ _ _ _ _ => trivial
  refine meets_then (meets_ensureFileType idle (by decide) (parentOrHere path) _) ?_ ?_
  · rintro first _ _ ⟨looked, _⟩
    cases looked.relied
    have early : moved first = 0 := looked.moved
    have notYet := looked.not_succeeded (.createNew path) id
    refine meets_then (meets_make (.createNew path) idle
      (fun moment _ => createNewAt_cases moment caller path) fun _ _ _ _ _ _ => trivial) ?_ ?_
    · rintro second _ _ ⟨_, outcome, rfl, rfl, made | ⟨⟨_, ⟨⟩⟩, _⟩⟩
      obtain ⟨⟨⟩, didMake, directory, name, located, free', rfl⟩ := made
      have inside := slot_lt located
      have vacant : Vacant path fs := ⟨directory, name, located, free'⟩
      have file : ∀ front, (fs.createFile caller directory name).append fs.nextFile front =
          fs.withFile caller path front := by
        intro front
        obtain ⟨_, _, located', _, same⟩ := withFile_of_vacant caller vacant front
        cases located.symm.trans located'
        exact same.symm
      refine (meets_fill_alone path bytes ?_).consequence ?_
      · rw [nextFile_createFile inside]
        exact Nat.lt_succ_self _
      · rintro third _ result ⟨front, prefixed, rfl, moves, whole⟩
        refine ⟨front, prefixed, ?_, whole, .inr ⟨?_, vacant, file front⟩⟩
        · rw [moved_append, moved_append, early, moves]
          simp [written]
        · exact succeeded_append.2 (.inr (succeeded_append.2 (.inl didMake)))
    · rintro second _ stopped ⟨_, outcome, rfl, rfl, ⟨⟨⟩, _⟩ | refused⟩ _ rfl
      obtain ⟨_, _, notMade, rfl, _⟩ := refused
      refine ⟨[], List.nil_prefix, ?_, nofun, .inl ⟨?_, rfl, rfl⟩⟩
      · rw [moved_append, early]
        simp [written]
      · rw [succeeded_append, not_or]
        exact ⟨notYet, notMade⟩
  · rintro first _ stopped ⟨looked, _⟩ _ rfl
    cases looked.relied
    exact ⟨[], List.nil_prefix, looked.moved, nofun, .inl ⟨looked.not_succeeded _ id, rfl, rfl⟩⟩

theorem meets_readLooking (path : Path) (maximum : Nat) :
    Meets caller free
      (fun events later result => Looked free fs later events ∧
        (∀ bytes, result = .ok bytes → Contains path bytes fs) ∧
        (Clean events → ∀ bytes, Contains path bytes fs → bytes.length ≤ maximum →
          result = .ok bytes))
      (readRegularLimited path maximum) fs := by
  have idle : ∀ moment : FileSystem, free.guarantee moment moment := fun _ => trivial
  refine ((meets_readRegularLimited idle (growing_lone _) path maximum).and
    (meets_readAlone idle path maximum)).consequence ?_
  rintro events later result ⟨read, _, _, sound, complete⟩
  exact ⟨read.looked, fun bytes ok => (sound bytes ok).2, complete⟩

end Sealed.Storage
