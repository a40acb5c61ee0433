import Sealed.StorageProperties

/-! Callers on one file system: what they own, and the changes that they make. What a caller
owns is left alone by the changes of the others. -/

set_option autoImplicit false

namespace Sealed.Storage

open Foundation FileSystem

variable {caller : Nat} {contract : Contract FileSystem}

/-- The same file system, where nobody has created anything yet. -/
def unclaimed (fs : FileSystem) : FileSystem :=
  { fs with
    creators := fun _ => none
    unusedFiles := fun id above => ⟨(fs.unusedFiles id above).1, rfl⟩ }

/-- Directories and links stay, and so do the entries and the contents of what the caller
created. -/
structure Respected (caller : Nat) (before after : FileSystem) : Prop where
  extended : Extends before after
  entry : ∀ directory name file, before.lookup directory name = some (.file file) →
    before.creators file = some caller → after.lookup directory name = some (.file file)
  owned : ∀ file, before.creators file = some caller →
    after.creators file = some caller ∧ after.contents file = before.contents file

theorem Respected.refl (fs : FileSystem) : Respected caller fs fs :=
  ⟨.refl fs, fun _ _ _ found _ => found, fun _ created => ⟨created, rfl⟩⟩

theorem Respected.trans {first second third : FileSystem} (early : Respected caller first second)
    (late : Respected caller second third) : Respected caller first third where
  extended := early.extended.trans late.extended
  entry := fun _ _ _ found created =>
    late.entry _ _ _ (early.entry _ _ _ found created) (early.owned _ created).1
  owned := fun file created => ⟨(late.owned file (early.owned file created).1).1,
    ((late.owned file (early.owned file created).1).2).trans (early.owned file created).2⟩

/-- One caller among others that only make such changes. -/
def sharing (caller : Nat) (guarantee : FileSystem → FileSystem → Prop) :
    Contract FileSystem where
  rely := Respected caller
  guarantee := guarantee
  rely_refl := .refl
  rely_trans := .trans

/-- The others leave alone what the caller created. -/
abbrev Respects (caller : Nat) (contract : Contract FileSystem) : Prop :=
  ∀ before after, contract.rely before after → Respected caller before after

/-- Nobody else acts. -/
def Alone (contract : Contract FileSystem) : Prop :=
  ∀ before after, contract.rely before after → after = before

theorem Respects.fresh (respects : Respects caller contract) {world moment : FileSystem}
    (relied : contract.rely world moment) : world.creators moment.nextFile ≠ some caller :=
  fun created => Nat.lt_irrefl _ (creators_lt ((respects _ _ relied).owned _ created).1)

/-- The path leads to a file that the caller created. -/
def Holding (caller : Nat) (path : Path) (file : Nat) (fs : FileSystem) : Prop :=
  ∃ directory name, fs.locate false path = .ok (.slot directory name) ∧
    fs.lookup directory name = some (.file file) ∧ fs.creators file = some caller

theorem Holding.relied (respects : Respects caller contract) {path : Path} {file : Nat}
    {before after : FileSystem} (relied : contract.rely before after)
    (holding : Holding caller path file before) : Holding caller path file after := by
  obtain ⟨directory, name, located, found, created⟩ := holding
  have same := respects _ _ relied
  exact ⟨directory, name, same.extended.locate located, same.entry _ _ _ found created,
    (same.owned _ created).1⟩

theorem Holding.append {path : Path} {file other : Nat} {fs : FileSystem} {bytes : List UInt8}
    (holding : Holding caller path file fs) :
    Holding caller path file (fs.append other bytes) := by
  obtain ⟨directory, name, located, found, created⟩ := holding
  exact ⟨directory, name, extends_append.locate located, by rwa [lookup_append],
    by rwa [creators_append]⟩

theorem Holding.isType {path : Path} {file : Nat} {fs : FileSystem}
    (holding : Holding caller path file fs) : IsType .file path fs := by
  obtain ⟨directory, name, located, found, _⟩ := holding
  exact ⟨.file file, node_eq_ok_iff.2 ⟨_, located, found⟩, rfl⟩

theorem Holding.node {path : Path} {file : Nat} {fs : FileSystem}
    (holding : Holding caller path file fs) : fs.node false path = .ok (.file file) := by
  obtain ⟨directory, name, located, found, _⟩ := holding
  exact node_eq_ok_iff.2 ⟨_, located, found⟩

theorem Holding.contents (respects : Respects caller contract) {path : Path} {file : Nat}
    {before after : FileSystem} (relied : contract.rely before after)
    (holding : Holding caller path file before) : after.contents file = before.contents file := by
  obtain ⟨directory, name, _, _, created⟩ := holding
  exact ((respects _ _ relied).owned _ created).2

theorem holding_createFile (caller : Nat) {path : Path} {fs : FileSystem} {directory : Nat}
    {name : Name}
    (located : fs.locate false path = .ok (.slot directory name))
    (free : fs.lookup directory name = none) :
    Holding caller path fs.nextFile (fs.createFile caller directory name) := by
  have inside := slot_lt located
  refine ⟨directory, name, (extends_createFile inside free).locate located, ?_, ?_⟩
  · rw [lookup_createFile inside, if_pos ⟨rfl, rfl⟩]
  · rw [creators_createFile inside, if_pos rfl]

/-- The path leads to a file that the caller created, with these bytes. -/
def Keeping (caller : Nat) (path : Path) (file : Nat) (bytes : List UInt8) (fs : FileSystem) :
    Prop :=
  Holding caller path file fs ∧ fs.contents file = bytes

section Keeping

variable {path : Path} {file other directory : Nat} {name : Name} {bytes chunk : List UInt8}
  {fs later : FileSystem}

theorem Keeping.respected (keeping : Keeping caller path file bytes fs)
    (same : Respected caller fs later) : Keeping caller path file bytes later := by
  obtain ⟨⟨directory, name, located, found, created⟩, contents⟩ := keeping
  obtain ⟨created', contents'⟩ := same.owned _ created
  exact ⟨⟨directory, name, same.extended.locate located, same.entry _ _ _ found created, created'⟩,
    contents'.trans contents⟩

theorem Keeping.append (keeping : Keeping caller path file bytes fs) (distinct : other ≠ file) :
    Keeping caller path file bytes (fs.append other chunk) := by
  refine ⟨keeping.1.append, ?_⟩
  rw [contents_append, if_neg fun same => distinct same.1.symm]
  exact keeping.2

theorem Keeping.remove (keeping : Keeping caller path file bytes fs)
    (found : fs.lookup directory name = some (.file other)) (distinct : other ≠ file) :
    Keeping caller path file bytes (fs.remove directory name) := by
  obtain ⟨⟨inside, entry, located, there, created⟩, contents⟩ := keeping
  refine ⟨⟨inside, entry, (extends_remove found).locate located, ?_, created⟩, contents⟩
  rw [lookup_remove, if_neg]
  · exact there
  · rintro ⟨rfl, rfl⟩
    rw [found] at there
    cases there
    exact distinct rfl

end Keeping

/-- The changes that the storage functions of a caller make. -/
inductive Step (caller : Nat) : FileSystem → FileSystem → Prop where
  | idle (fs : FileSystem) : Step caller fs fs
  | createDirectory (fs : FileSystem) (directory : Nat) (name : Name)
      (inside : directory < fs.nextDirectory) (free : fs.lookup directory name = none) :
      Step caller fs (fs.createDirectory directory name)
  | createFile (fs : FileSystem) (directory : Nat) (name : Name)
      (inside : directory < fs.nextDirectory) (free : fs.lookup directory name = none) :
      Step caller fs (fs.createFile caller directory name)
  | append (fs : FileSystem) (file : Nat) (chunk : List UInt8)
      (own : fs.creators file = some caller) : Step caller fs (fs.append file chunk)
  | remove (fs : FileSystem) (directory : Nat) (name : Name) (file : Nat)
      (found : fs.lookup directory name = some (.file file))
      (own : fs.creators file = some caller) : Step caller fs (fs.remove directory name)

theorem respected_createDirectory {fs : FileSystem} {directory : Nat} {name : Name}
    (inside : directory < fs.nextDirectory) (free : fs.lookup directory name = none) :
    Respected caller fs (fs.createDirectory directory name) where
  extended := extends_createDirectory inside free
  entry := by
    intro other otherName file found _
    rw [lookup_createDirectory inside]
    exact lookup_of_new free found
  owned := fun file created => by
    rw [creators_createDirectory, contents_createDirectory]
    exact ⟨created, rfl⟩

theorem respected_createFile {actor : Nat} {fs : FileSystem} {directory : Nat} {name : Name}
    (inside : directory < fs.nextDirectory) (free : fs.lookup directory name = none) :
    Respected caller fs (fs.createFile actor directory name) where
  extended := extends_createFile inside free
  entry := by
    intro other otherName file found _
    rw [lookup_createFile inside]
    exact lookup_of_new free found
  owned := fun file created => by
    have old : file ≠ fs.nextFile := Nat.ne_of_lt (creators_lt created)
    rw [creators_createFile inside, if_neg old, contents_createFile]
    exact ⟨created, rfl⟩

theorem Step.extends {before after : FileSystem} (step : Step caller before after) :
    Extends before after := by
  cases step with
  | idle => exact .refl _
  | createDirectory directory name inside free => exact extends_createDirectory inside free
  | createFile directory name inside free => exact extends_createFile inside free
  | append file chunk own => exact extends_append
  | remove directory name file found own => exact extends_remove found

/-- No caller touches what another one owns. -/
theorem Step.respected {actor : Nat} {before after : FileSystem} (step : Step actor before after)
    (distinct : actor ≠ caller) : Respected caller before after := by
  have foreign : ∀ {file other : Nat}, before.creators file = some actor →
      before.creators other = some caller → other ≠ file := by
    rintro file _ own created rfl
    exact distinct (Option.some.inj (own.symm.trans created))
  cases step with
  | idle => exact .refl _
  | createDirectory directory name inside free => exact respected_createDirectory inside free
  | createFile directory name inside free => exact respected_createFile inside free
  | append file chunk own =>
      refine ⟨extends_append, fun _ _ _ found _ => by rwa [lookup_append], fun other created => ?_⟩
      rw [creators_append, contents_append, if_neg fun same => foreign own created same.1]
      exact ⟨created, rfl⟩
  | remove directory name file found own =>
      refine ⟨extends_remove found, ?_, fun other created => ⟨created, rfl⟩⟩
      intro inside entry other there created
      rw [lookup_remove, if_neg]
      · exact there
      · rintro ⟨rfl, rfl⟩
        rw [found] at there
        cases there
        exact foreign own created rfl

end Sealed.Storage
