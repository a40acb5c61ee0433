import Sealed.LoneRuns

/-! What one command leaves alone, and a sequence of commands. Each command is a caller of its
own, which may also take away names of files with certain bytes, whoever made them. -/

set_option autoImplicit false

namespace Sealed.Storage

open Foundation FileSystem

variable {consumable : List UInt8 → Prop} {caller : Nat}

/-! ## The working directory of a command -/

/-- The same file system for a program that runs in another directory. -/
def seenFrom (fs : FileSystem) (directory : Nat) : FileSystem :=
  if inside : directory < fs.nextDirectory then
    { fs with
      working := directory
      workingExists := inside }
  else fs

section SeenFrom

variable {fs later : FileSystem} (directory : Nat)

@[simp] theorem lookup_seenFrom (other : Nat) (name : Name) :
    (seenFrom fs directory).lookup other name = fs.lookup other name := by
  unfold seenFrom
  split <;> rfl

@[simp] theorem contents_seenFrom : (seenFrom fs directory).contents = fs.contents := by
  unfold seenFrom
  split <;> rfl

@[simp] theorem creators_seenFrom : (seenFrom fs directory).creators = fs.creators := by
  unfold seenFrom
  split <;> rfl

@[simp] theorem parents_seenFrom : (seenFrom fs directory).parents = fs.parents := by
  unfold seenFrom
  split <;> rfl

@[simp] theorem nextDirectory_seenFrom :
    (seenFrom fs directory).nextDirectory = fs.nextDirectory := by
  unfold seenFrom
  split <;> rfl

@[simp] theorem nextFile_seenFrom : (seenFrom fs directory).nextFile = fs.nextFile := by
  unfold seenFrom
  split <;> rfl

theorem working_seenFrom {directory : Nat} (inside : directory < fs.nextDirectory) :
    (seenFrom fs directory).working = directory := by
  unfold seenFrom
  rw [dif_pos inside]

theorem seenFrom_working : seenFrom fs fs.working = fs := by
  unfold seenFrom
  rw [dif_pos fs.workingExists]

theorem seenFrom_seenFrom : seenFrom (seenFrom fs directory) fs.working = fs := by
  by_cases inside : directory < fs.nextDirectory
  · simp [seenFrom, inside, fs.workingExists]
  · simp [seenFrom, inside, fs.workingExists]

end SeenFrom

/-! ## What stays -/

/-- Directories and links stay, and so do the files that were there, their bytes, and their
names, unless a name was taken from a file with consumable bytes. -/
structure Spared (consumable : List UInt8 → Prop) (before after : FileSystem) : Prop where
  extended : Extends before (seenFrom after before.working)
  entry : ∀ directory name file, before.lookup directory name = some (.file file) →
    after.lookup directory name = some (.file file) ∨ consumable (before.contents file)
  contents : ∀ file < before.nextFile, after.contents file = before.contents file
  creators : ∀ file < before.nextFile, after.creators file = before.creators file
  nextFile : before.nextFile ≤ after.nextFile

theorem Spared.extends {before after : FileSystem} (spared : Spared consumable before after)
    {directory : Nat} (inside : directory < before.nextDirectory) :
    Extends (seenFrom before directory) (seenFrom after directory) := by
  have more := spared.extended.nextDirectory
  rw [nextDirectory_seenFrom] at more
  constructor
  · intro other name id
    have stays := spared.extended.directory other name id
    simpa using stays
  · intro other name target within
    have stays := spared.extended.symlink other name target
    simpa using stays (by simpa using within)
  · intro id within
    have stays := spared.extended.parent id
    simpa using stays (by simpa using within)
  · rw [working_seenFrom inside, working_seenFrom (Nat.lt_of_lt_of_le inside more)]
  · simpa using more

theorem Spared.seenFrom (fs : FileSystem) (directory : Nat) :
    Spared consumable fs (seenFrom fs directory) where
  extended := by
    rw [seenFrom_seenFrom]
    exact .refl fs
  entry := fun other name file found => .inl (by simpa using found)
  contents := by simp
  creators := by simp
  nextFile := by simp

theorem Spared.refl (fs : FileSystem) : Spared consumable fs fs where
  extended := by
    rw [seenFrom_working]
    exact .refl fs
  entry := fun _ _ _ found => .inl found
  contents := fun _ _ => rfl
  creators := fun _ _ => rfl
  nextFile := Nat.le_refl _

theorem Spared.trans {first second third : FileSystem} (early : Spared consumable first second)
    (late : Spared consumable second third) : Spared consumable first third where
  extended := by
    have inside : first.working < second.nextDirectory := by
      have more := early.extended.nextDirectory
      rw [nextDirectory_seenFrom] at more
      exact Nat.lt_of_lt_of_le first.workingExists more
    exact early.extended.trans (late.extends inside)
  entry := by
    intro directory name file found
    rcases early.entry directory name file found with still | lost
    · have old := first.filesExist _ _ _ found
      rw [← early.contents file old]
      exact late.entry directory name file still
    · exact .inr lost
  contents := fun file old =>
    (late.contents file (Nat.lt_of_lt_of_le old early.nextFile)).trans (early.contents file old)
  creators := fun file old =>
    (late.creators file (Nat.lt_of_lt_of_le old early.nextFile)).trans (early.creators file old)
  nextFile := Nat.le_trans early.nextFile late.nextFile

theorem Spared.weaken {wider : List UInt8 → Prop} {before after : FileSystem}
    (spared : Spared consumable before after) (fewer : ∀ bytes, consumable bytes → wider bytes) :
    Spared wider before after :=
  ⟨spared.extended, fun directory name file found =>
    (spared.entry directory name file found).imp_right (fewer _), spared.contents, spared.creators,
    spared.nextFile⟩

/-- A whole file of the caller stays, unless its bytes are consumable. -/
theorem Spared.keeping {before after : FileSystem} (spared : Spared consumable before after)
    {path : Path} {file : Nat} {bytes : List UInt8} (keeping : Keeping caller path file bytes before)
    (safe : ¬ consumable bytes) :
    Keeping caller path file bytes (Storage.seenFrom after before.working) := by
  obtain ⟨⟨directory, name, located, found, created⟩, contents⟩ := keeping
  have old := before.filesExist _ _ _ found
  rcases spared.entry directory name file found with still | lost
  · refine ⟨⟨directory, name, spared.extended.locate located, ?_, ?_⟩, ?_⟩
    · rwa [lookup_seenFrom]
    · rw [creators_seenFrom, spared.creators file old, created]
    · rw [contents_seenFrom, spared.contents file old, contents]
  · rw [contents] at lost
    exact absurd lost safe

theorem Spared.contains {before after : FileSystem} (spared : Spared consumable before after)
    {path : Path} {bytes : List UInt8} (contained : Contains path bytes before)
    (safe : ¬ consumable bytes) : Contains path bytes (Storage.seenFrom after before.working) := by
  obtain ⟨file, found, contents⟩ := contained
  obtain ⟨place, located, entry⟩ := node_eq_ok_iff.1 found
  cases place with
  | inside directory => cases entry
  | slot directory name =>
      have old := before.filesExist _ _ _ entry
      rcases spared.entry directory name file entry with still | lost
      · refine ⟨file, node_eq_ok_iff.2 ⟨_, spared.extended.locate located, ?_⟩, ?_⟩
        · simpa [nodeAt] using still
        · rw [contents_seenFrom, spared.contents file old, contents]
      · rw [contents] at lost
        exact absurd lost safe

/-! ## The calls of one command -/

/-- The changes of a command: those of a caller, and that a file with consumable bytes loses
a name. -/
inductive Change (consumable : List UInt8 → Prop) (caller : Nat) :
    FileSystem → FileSystem → Prop where
  | step {before after : FileSystem} (step : Step caller before after) :
      Change consumable caller before after
  | consume (fs : FileSystem) (directory : Nat) (name : Name) (file : Nat)
      (found : fs.lookup directory name = some (.file file)) (read : consumable (fs.contents file)) :
      Change consumable caller fs (fs.remove directory name)

/-- What one change leaves of the files below a number. -/
structure Beneath (consumable : List UInt8 → Prop) (caller bound : Nat)
    (before after : FileSystem) : Prop where
  extended : Extends before after
  entry : ∀ directory name file, file < bound →
    before.lookup directory name = some (.file file) →
      after.lookup directory name = some (.file file) ∨ consumable (before.contents file)
  contents : ∀ file < bound, after.contents file = before.contents file
  creators : ∀ file < before.nextFile, after.creators file = before.creators file
  nextFile : before.nextFile ≤ after.nextFile
  new : ∀ file creator, before.nextFile ≤ file → after.creators file = some creator →
    creator = caller

theorem creators_unused {fs : FileSystem} {file creator : Nat} (above : fs.nextFile ≤ file) :
    fs.creators file ≠ some creator := by
  rw [(fs.unusedFiles file above).2]
  exact nofun

/-- One case for each change; its own files are not below the number. -/
theorem Change.beneath {bound : Nat} {before after : FileSystem}
    (change : Change consumable caller before after)
    (own : ∀ file, before.creators file = some caller → bound ≤ file) :
    Beneath consumable caller bound before after := by
  cases change with
  | consume directory name file found read =>
      refine ⟨extends_remove found, ?_, fun _ _ => rfl, fun _ _ => rfl, Nat.le_refl _,
        fun _ _ above created => absurd created (creators_unused above)⟩
      intro other otherName lost _ there
      by_cases same : other = directory ∧ otherName = name
      · obtain ⟨rfl, rfl⟩ := same
        cases found.symm.trans there
        exact .inr read
      · rw [lookup_remove, if_neg same]
        exact .inl there
  | step step =>
      cases step with
      | idle =>
          exact ⟨.refl _, fun _ _ _ _ found => .inl found, fun _ _ => rfl, fun _ _ => rfl,
            Nat.le_refl _, fun _ _ above created => absurd created (creators_unused above)⟩
      | createDirectory directory name inside free =>
          refine ⟨extends_createDirectory inside free, ?_, ?_, ?_, ?_, ?_⟩
          · intro other otherName file _ found
            rw [lookup_createDirectory inside]
            exact .inl (lookup_of_new free found)
          · simp
          · simp
          · simp
          · intro file creator above created
            rw [creators_createDirectory] at created
            exact absurd created (creators_unused above)
      | createFile directory name inside free =>
          refine ⟨extends_createFile inside free, ?_, ?_, ?_, ?_, ?_⟩
          · intro other otherName file _ found
            rw [lookup_createFile inside]
            exact .inl (lookup_of_new free found)
          · simp
          · intro file old
            rw [creators_createFile inside, if_neg (Nat.ne_of_lt old)]
          · rw [nextFile_createFile inside]
            exact Nat.le_succ _
          · intro file creator above created
            rw [creators_createFile inside] at created
            split at created
            · cases created
              rfl
            · exact absurd created (creators_unused above)
      | append file chunk created =>
          refine ⟨extends_append, ?_, ?_, ?_, ?_, ?_⟩
          · intro directory name other _ found
            rw [lookup_append]
            exact .inl found
          · intro other old
            rw [contents_append, if_neg]
            rintro ⟨rfl, _⟩
            exact absurd (own _ created) (Nat.not_le_of_lt old)
          · simp
          · simp
          · intro other creator above created
            rw [creators_append] at created
            exact absurd created (creators_unused above)
      | remove directory name file found created =>
          refine ⟨extends_remove found, ?_, fun _ _ => rfl, fun _ _ => rfl, Nat.le_refl _,
            fun _ _ above created => absurd created (creators_unused above)⟩
          intro other otherName lost old there
          rw [lookup_remove, if_neg]
          · exact .inl there
          · rintro ⟨rfl, rfl⟩
            cases found.symm.trans there
            exact absurd (own _ created) (Nat.not_le_of_lt old)

/-- The state of the command since its start. What is new is its own. -/
structure Since (consumable : List UInt8 → Prop) (caller : Nat) (start now : FileSystem) :
    Prop where
  working : now.working = start.working
  spared : Spared consumable start now
  new : ∀ file creator, start.nextFile ≤ file → now.creators file = some creator →
    creator = caller

theorem Since.refl (start : FileSystem) : Since consumable caller start start where
  working := rfl
  spared := .refl start
  new := fun _ _ above created => absurd created (creators_unused above)

theorem Since.change {start now next : FileSystem} (since : Since consumable caller start now)
    (fresh : ∀ file, start.creators file ≠ some caller)
    (change : Change consumable caller now next) : Since consumable caller start next := by
  have ⟨working, spared, new⟩ := since
  have own : ∀ file, now.creators file = some caller → start.nextFile ≤ file := by
    intro file created
    by_contra old
    rw [spared.creators file (Nat.lt_of_not_le old)] at created
    exact fresh file created
  have beneath := change.beneath own
  have working' : next.working = start.working := beneath.extended.working.trans working
  refine ⟨working', ⟨?_, ?_, ?_, ?_, ?_⟩, ?_⟩
  · have extended := spared.extended
    rw [← working, seenFrom_working] at extended
    rw [← working', seenFrom_working]
    exact extended.trans beneath.extended
  · intro directory name file found
    have old := start.filesExist _ _ _ found
    rcases spared.entry directory name file found with still | lost
    · rw [← spared.contents file old]
      exact beneath.entry directory name file old still
    · exact .inr lost
  · intro file old
    exact (beneath.contents file old).trans (spared.contents file old)
  · intro file old
    have old' := Nat.lt_of_lt_of_le old spared.nextFile
    exact (beneath.creators file old').trans (spared.creators file old)
  · exact Nat.le_trans spared.nextFile beneath.nextFile
  · intro file creator above created
    by_cases old : file < now.nextFile
    · rw [beneath.creators file old] at created
      exact new file creator above created
    · exact beneath.new file creator (Nat.le_of_not_lt old) created

theorem Since.of_changes {start now : FileSystem}
    (fresh : ∀ file, start.creators file ≠ some caller)
    (changes : Relation.ReflTransGen (Change consumable caller) start now) :
    Since consumable caller start now := by
  induction changes with
  | refl => exact .refl start
  | tail _ change ih => exact ih.change fresh change

end Sealed.Storage
