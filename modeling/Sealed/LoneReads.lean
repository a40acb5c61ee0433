import Sealed.LoneRuns

/-! Storage functions that only read. Alone, and where no call fails, such a function is one
function of the file system. -/

set_option autoImplicit false

namespace Sealed.Storage

open Foundation FileSystem

variable {caller : Nat} {α β : Type} {fs : FileSystem} {guarantee : FileSystem → FileSystem → Prop}

/-- The function left the file system alone and read this value, or failed where there is
none. -/
structure Reads (fs : FileSystem) (value : Option α) (events : List FileEvent)
    (later : FileSystem) (result : Checked Error α) : Prop where
  unchanged : later = fs
  noPanic : Checked.NoPanic result
  clean : Clean events → ∀ read, result = .ok read ↔ value = some read

theorem Reads.stopped {value : Option α} {events : List FileEvent} {later : FileSystem}
    {stopped : Abort Error} (unchanged : later = fs) (noPanic : stopped ≠ .panic)
    (clean : Clean events → value = none) : Reads fs value events later (.error stopped) where
  unchanged := unchanged
  noPanic := fun same => noPanic (Except.error.inj same)
  clean := by
    intro quiet read
    rw [clean quiet]
    constructor <;> exact nofun

/-- Alone and without a failure the function comes to this result. -/
def Yields (storage : Storage α) (fs : FileSystem) (result : Checked Error α) : Prop :=
  ∃ caller outcomes, (∀ outcome ∈ outcomes, outcome ≠ .failed) ∧
    (runAlone caller storage fs outcomes).1 = some result

theorem Yields.reads {storage : Storage α} {value : Option α} {result : Checked Error α}
    (yields : Yields storage fs result)
    (meets : ∀ caller, Meets caller (lone Eq) (Reads fs value) storage fs) (read : α) :
    result = .ok read ↔ value = some read := by
  obtain ⟨caller, outcomes, quiet, finished⟩ := yields
  exact (runAlone_meets (meets caller) finished).clean (clean_runAlone quiet) read

theorem exists_yields (storage : Storage α) (fs : FileSystem) :
    ∃ result, Yields storage fs result := by
  obtain ⟨steps, finished⟩ := Program.run_terminates (FileSystem.respond 0) storage.run fs
    fun _ => .carriedOut 0
  obtain ⟨result, same⟩ := Option.isSome_iff_exists.1 finished
  refine ⟨result, 0, _, ?_, same⟩
  intro outcome member
  obtain ⟨step, _, rfl⟩ := List.mem_map.1 member
  exact nofun

/-- Every run of the function alone and without a failure comes to this value. -/
def Returns (storage : Storage α) (fs : FileSystem) (value : α) : Prop :=
  ∀ result, Yields storage fs result → result = .ok value

theorem returns_iff {storage : Storage α} {value : Option α} {read : α}
    (meets : ∀ caller, Meets caller (lone Eq) (Reads fs value) storage fs) :
    Returns storage fs read ↔ value = some read := by
  constructor
  · intro returns
    obtain ⟨result, yields⟩ := exists_yields storage fs
    exact (yields.reads meets read).1 (returns result yields)
  · intro known result yields
    exact (yields.reads meets read).2 known

/-! ## Rules -/

theorem reads_check {result : Result α} (noPanic : Checked.NoPanic result) :
    Meets caller (lone guarantee) (Reads fs result.toOption) (check result) fs := by
  apply meets_check
  intro later relied
  refine ⟨relied.symm, noPanic, fun _ read => ?_⟩
  cases result <;> simp [Except.toOption]

theorem reads_return (value : α) :
    Meets caller (lone guarantee) (Reads fs (some value)) (return value) fs :=
  reads_check (Checked.noPanic_ok value)

theorem reads_bind {value : Option α} {next : α → Option β} {storage : Storage α}
    {rest : α → Storage β} (first : Meets caller (lone guarantee) (Reads fs value) storage fs)
    (then' : ∀ read, Meets caller (lone guarantee) (Reads fs (next read)) (rest read) fs) :
    Meets caller (lone guarantee) (Reads fs (value >>= next)) (storage >>= rest) fs := by
  refine meets_then first ?_ ?_
  · intro events later read reads
    cases reads.unchanged
    refine (then' read).consequence fun more final result reads' => ?_
    refine ⟨reads'.unchanged, reads'.noPanic, fun clean => ?_⟩
    obtain ⟨early, late⟩ := clean_append.1 clean
    rw [(reads.clean early read).1 rfl]
    exact reads'.clean late
  · intro events later stopped reads final relied
    refine .stopped (relied.symm.trans reads.unchanged)
      (fun same => reads.noPanic (congrArg _ same)) fun clean => ?_
    cases value with
    | none => rfl
    | some read => cases (reads.clean clean read).2 rfl

theorem reads_mapError {value : Option α} {storage : Storage α}
    {change : Abort Error → Abort Error} (reports : ∀ stopped, stopped ≠ .panic →
      change stopped ≠ .panic)
    (meets : Meets caller (lone guarantee) (Reads fs value) storage fs) :
    Meets caller (lone guarantee) (Reads fs value)
      (ExceptT.mk (storage.run >>= fun result => pure (result.mapError change))) fs := by
  apply Program.Meets.bind
  refine Program.Meets.consequence meets ?_
  intro events later result reads final relied
  rw [List.append_nil]
  cases result with
  | ok read => exact ⟨relied.symm.trans reads.unchanged, nofun, reads.clean⟩
  | error stopped =>
      refine .stopped (relied.symm.trans reads.unchanged)
        (reports _ fun same => reads.noPanic (congrArg _ same)) fun clean => ?_
      cases value with
      | none => rfl
      | some read => cases (reads.clean clean read).2 rfl

/-- Induction on the list: each function reads its own value. -/
theorem reads_mapM {value : α → Option β} {storage : α → Storage β}
    (each : ∀ item, Meets caller (lone guarantee) (Reads fs (value item)) (storage item) fs)
    (items : List α) :
    Meets caller (lone guarantee) (Reads fs (items.mapM value)) (items.mapM storage) fs := by
  induction items with
  | nil => exact reads_return []
  | cons item rest ih =>
      rw [List.mapM_cons, List.mapM_cons]
      apply reads_bind (each item)
      intro first
      apply reads_bind ih
      intro others
      exact reads_return (first :: others)

theorem mapM_eq_some_iff {value : α → Option β} {items : List α} {results : List β} :
    items.mapM value = some results ↔ items.map value = results.map some := by
  induction items generalizing results with
  | nil => cases results <;> simp
  | cons item rest ih =>
      rw [List.mapM_cons, List.map_cons]
      cases results with
      | nil => simp [Option.bind_eq_some_iff]
      | cons first others =>
          rw [List.map_cons, List.cons.injEq, ← ih]
          simp [Option.bind_eq_some_iff]

theorem exists_mapM_eq_some {value : α → Option β} {items : List α}
    (each : ∀ item ∈ items, ∃ result, value item = some result) :
    ∃ results, items.mapM value = some results := by
  induction items with
  | nil => exact ⟨[], rfl⟩
  | cons item rest ih =>
      obtain ⟨first, read⟩ := each item List.mem_cons_self
      obtain ⟨others, reads⟩ := ih fun other member => each other (List.mem_cons_of_mem _ member)
      refine ⟨first :: others, ?_⟩
      rw [List.mapM_cons, read, reads]
      rfl

/-! ## Calls -/

/-- One call, where `value` is what it answers when it succeeds. -/
theorem reads_perform (idle : ∀ moment, guarantee moment moment) (request : FileCall)
    (readOnly : request.ReadOnly) (value : Except IoErrorKind request.Answer)
    (answers : ∀ outcome, outcome ≠ .failed → (respond caller fs request outcome).1 = value) :
    Meets caller (lone guarantee) (Reads fs value.toOption) (perform request) fs := by
  refine (meets_look request readOnly idle).consequence ?_
  rintro events later result ⟨looked, _, moment, outcome, rfl, rfl, rfl, rfl⟩
  refine ⟨rfl, noPanic_answered _, fun clean read => ?_⟩
  rw [answered_eq_ok_iff, answers outcome (clean _ List.mem_cons_self)]
  cases value <;> simp [Except.toOption]

theorem reads_pathExists (idle : ∀ moment, guarantee moment moment) (path : Path) :
    Meets caller (lone guarantee) (Reads fs (some (fs.node true path).isOk)) (pathExists path)
      fs := by
  refine (meets_pathExists idle path).consequence ?_
  rintro events later result ⟨looked, found, rfl, there, missing⟩
  refine ⟨looked.relied.symm, nofun, fun clean read => ?_⟩
  have same : found = (fs.node true path).isOk := by
    cases found with
    | true =>
        obtain ⟨_, rfl, _, node, exists'⟩ := there rfl
        rw [exists']
        rfl
    | false =>
        obtain ⟨_, rfl, _, nothing⟩ := missing clean rfl
        cases looked : fs.node true path with
        | error kind => rfl
        | ok node => exact absurd looked (nothing node)
  rw [same, Except.ok.injEq, Option.some.injEq]

/-- What stands at a path itself, if it has the type. -/
def passes (wanted : FileType) (path : Path) (fs : FileSystem) : Option Unit :=
  if (fs.node false path).map Node.fileType = .ok wanted then some () else none

theorem reads_ensureFileType (idle : ∀ moment, guarantee moment moment) {wanted : FileType}
    (real : wanted ≠ .symlink) (path : Path) (message : String) :
    Meets caller (lone guarantee) (Reads fs (passes wanted path fs))
      (ensureFileType wanted path message) fs := by
  have looks : Meets caller (lone guarantee)
      (Reads fs ((fs.node false path).map Node.fileType).toOption) (perform (.lstat path)) fs :=
    reads_perform idle (.lstat path) trivial _ fun _ carried => respond_lstat carried path
  have value : passes wanted path fs =
      ((fs.node false path).map Node.fileType).toOption >>= fun fileType =>
        (Checked.reject (fileType = .symlink ∨ fileType ≠ wanted)
          (Error.invalidInput message)).toOption := by
    unfold passes
    cases (fs.node false path).map Node.fileType with
    | error kind => rfl
    | ok fileType =>
        by_cases same : fileType = wanted
        · subst same
          have passed : ¬ (fileType = .symlink ∨ fileType ≠ fileType) := by simp [real]
          rw [if_pos rfl]
          simp only [Except.toOption, Option.bind_eq_bind, Option.bind_some]
          rw [Checked.reject_of_not passed]
        · rw [if_neg fun held => same (Except.ok.inj held)]
          simp [Except.toOption, same, Checked.reject_of, Checked.err]
  rw [value]
  apply reads_bind looks
  intro fileType
  exact reads_check (Checked.noPanic_reject _ _)

theorem reads_readDir (idle : ∀ moment, guarantee moment moment) (path : Path) :
    Meets caller (lone guarantee) (Reads fs (fs.readDirAt path).toOption)
      (perform (.readDir path)) fs :=
  reads_perform idle (.readDir path) trivial _ fun _ carried => respond_readDir carried path

/-- The bytes of the regular file at a path, if there are no more than so many. -/
def bytesAt (path : Path) (maximum : Nat) (fs : FileSystem) : Option (List UInt8) :=
  match fs.node false path with
  | .ok (.file file) =>
      if (fs.contents file).length ≤ maximum then some (fs.contents file) else none
  | _ => none

theorem bytesAt_eq_some_iff {path : Path} {maximum : Nat} {bytes : List UInt8} :
    bytesAt path maximum fs = some bytes ↔ Contains path bytes fs ∧ bytes.length ≤ maximum := by
  unfold bytesAt Contains
  constructor
  · intro read
    split at read
    · rename_i file found
      split at read
      · rename_i fits
        cases read
        exact ⟨⟨file, found, rfl⟩, fits⟩
      · cases read
    · cases read
  · rintro ⟨⟨file, found, rfl⟩, fits⟩
    rw [found]
    exact if_pos fits

theorem reads_readRegularLimited (idle : ∀ moment, guarantee moment moment) (path : Path)
    (maximum : Nat) :
    Meets caller (lone guarantee) (Reads fs (bytesAt path maximum fs))
      (readRegularLimited path maximum) fs := by
  refine (meets_readAlone idle path maximum).consequence ?_
  rintro events later result ⟨same, noPanic, sound, complete⟩
  refine ⟨same, noPanic, fun clean bytes => ?_⟩
  rw [bytesAt_eq_some_iff]
  constructor
  · intro ok
    obtain ⟨fits, contained⟩ := sound bytes ok
    exact ⟨contained, fits⟩
  · rintro ⟨contained, fits⟩
    exact complete clean bytes contained fits

end Sealed.Storage
