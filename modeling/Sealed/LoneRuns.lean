import Sealed.Callers
import Sealed.ReadProperties

/-! Storage functions that nobody else disturbs. -/

set_option autoImplicit false

namespace Sealed.Storage

open Foundation FileSystem

variable {caller : Nat} {α : Type} {fs : FileSystem}

/-- The run of a storage function that is alone. It dies when the outcomes end. -/
def runAlone (caller : Nat) (storage : Storage α) (fs : FileSystem) (outcomes : List Outcome) :
    Option (Checked Error α) × FileSystem × List FileEvent :=
  Program.run (FileSystem.respond caller) storage.run fs outcomes

/-- Without a failure the function comes to such a result, however much each transfer
moves. -/
def Settles (caller : Nat) (storage : Storage α) (fs : FileSystem)
    (holds : Checked Error α → Prop) : Prop :=
  ∀ outcomes : Nat → Outcome, (∀ step, outcomes step ≠ .failed) →
    ∃ steps result, (runAlone caller storage fs ((List.range steps).map outcomes)).1 =
      some result ∧ holds result

abbrev lone (guarantee : FileSystem → FileSystem → Prop) : Contract FileSystem :=
  Contract.alone guarantee

theorem alone_lone (guarantee : FileSystem → FileSystem → Prop) : Alone (lone guarantee) :=
  fun _ _ => Eq.symm

theorem respects_lone (guarantee : FileSystem → FileSystem → Prop) :
    Respects caller (lone guarantee) := by
  rintro fs _ rfl
  exact .refl fs

theorem growing_lone (guarantee : FileSystem → FileSystem → Prop) : Growing (lone guarantee) := by
  rintro fs _ rfl file
  exact List.prefix_refl _

section

variable {guarantee : FileSystem → FileSystem → Prop} {storage : Storage α}
  {post : List FileEvent → FileSystem → Checked Error α → Prop}

theorem runAlone_meets (meets : Meets caller (lone guarantee) post storage fs)
    {outcomes : List Outcome} {result : Checked Error α}
    (finished : (runAlone caller storage fs outcomes).1 = some result) :
    post (runAlone caller storage fs outcomes).2.2 (runAlone caller storage fs outcomes).2.1
      result :=
  (Program.Meets.of_run meets outcomes).1 result finished

theorem clean_runAlone {outcomes : List Outcome} (quiet : ∀ outcome ∈ outcomes, outcome ≠ .failed) :
    Clean (runAlone caller storage fs outcomes).2.2 :=
  fun event member => quiet _ (Program.run_outcomes _ _ _ _ event member)

theorem settles_of_meets (meets : Meets caller (lone guarantee) post storage fs)
    {holds : Checked Error α → Prop}
    (clean : ∀ events later result, Clean events → post events later result → holds result) :
    Settles caller storage fs holds := by
  intro outcomes quiet
  obtain ⟨steps, finished⟩ :=
    Program.run_terminates (FileSystem.respond caller) storage.run fs outcomes
  obtain ⟨result, same⟩ := Option.isSome_iff_exists.1 finished
  refine ⟨steps, result, same, clean _ _ _ (clean_runAlone ?_) (runAlone_meets meets same)⟩
  intro outcome member
  obtain ⟨step, _, rfl⟩ := List.mem_map.1 member
  exact quiet step

end

/-! ## Reading alone -/

/-- A regular file with these bytes stands at the path. -/
def Contains (path : Path) (bytes : List UInt8) (fs : FileSystem) : Prop :=
  ∃ file, fs.node false path = .ok (.file file) ∧ fs.contents file = bytes

theorem Keeping.contains {path : Path} {file : Nat} {bytes : List UInt8}
    (keeping : Keeping caller path file bytes fs) : Contains path bytes fs :=
  ⟨file, keeping.1.node, keeping.2⟩

/-- Alone, a read returns the bytes of the file that stands at the path, if there is one of
a permitted length. -/
theorem meets_readAlone {guarantee : FileSystem → FileSystem → Prop}
    (idle : ∀ moment, guarantee moment moment) (path : Path) (maximum : Nat) :
    Meets caller (lone guarantee)
      (fun events later result => later = fs ∧ Checked.NoPanic result ∧
        (∀ bytes, result = .ok bytes → bytes.length ≤ maximum ∧ Contains path bytes fs) ∧
        (Clean events → ∀ bytes, Contains path bytes fs → bytes.length ≤ maximum →
          result = .ok bytes))
      (readRegularLimited path maximum) fs := by
  refine (meets_readRegularLimited idle (growing_lone guarantee) path maximum).consequence ?_
  rintro events later result ⟨looked, noPanic, sound, complete⟩
  refine ⟨looked.relied.symm, noPanic, ?_, ?_⟩
  · intro bytes ok
    obtain ⟨fits, _, _, _, file, rfl, rfl, rfl, rfl, ⟨node, found, type⟩, opened, contents⟩ :=
      sound bytes ok
    cases node with
    | file id =>
        cases (node_follow found (by simp)).symm.trans opened
        exact ⟨fits, file, found, contents⟩
    | directory | symlink | special => cases type
  · rintro clean bytes ⟨file, found, contents⟩ fits
    refine complete clean file bytes ?_ fits
    rintro _ rfl
    exact ⟨found, contents⟩

end Sealed.Storage
