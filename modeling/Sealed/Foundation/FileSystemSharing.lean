import Sealed.Foundation.FileSystemProperties
import Sealed.Foundation.Sharing

/-! A file system that programs share. They make directories and files, write to files that they
made, and take away only the names of certain files. -/

set_option autoImplicit false

namespace Sealed.Foundation.FileSystem

variable {consumable : List UInt8 → Prop} {bound : Nat} {fs before after : FileSystem}

/-- What is left of the files below a number. A name that is new stands for a directory or for a
new file. -/
structure Shares (consumable : List UInt8 → Prop) (bound : Nat) (before after : FileSystem) :
    Prop where
  extended : Extends before after
  names : ∀ directory name node, after.lookup directory name = some node →
    before.lookup directory name = some node ∨ (∃ id, node = .directory id) ∨
      ∃ file, node = .file file ∧ before.nextFile ≤ file
  entry : ∀ directory name file, file < bound →
    before.lookup directory name = some (.file file) →
      after.lookup directory name = some (.file file) ∨ consumable (before.contents file)
  contents : ∀ file < bound, after.contents file = before.contents file
  grows : ∀ file, before.contents file <+: after.contents file
  creators : ∀ file < before.nextFile, after.creators file = before.creators file
  nextFile : before.nextFile ≤ after.nextFile

theorem Shares.refl (fs : FileSystem) : Shares consumable bound fs fs where
  extended := .refl fs
  names := fun _ _ _ found => .inl found
  entry := fun _ _ _ _ found => .inl found
  contents := fun _ _ => rfl
  grows := fun _ => List.prefix_rfl
  creators := fun _ _ => rfl
  nextFile := Nat.le_refl _

theorem Shares.trans {first second third : FileSystem}
    (early : Shares consumable bound first second) (late : Shares consumable bound second third) :
    Shares consumable bound first third where
  extended := early.extended.trans late.extended
  names := by
    intro directory name node found
    rcases late.names directory name node found with there | made | ⟨file, same, above⟩
    · exact early.names directory name node there
    · exact .inr (.inl made)
    · exact .inr (.inr ⟨file, same, Nat.le_trans early.nextFile above⟩)
  entry := by
    intro directory name file small found
    rcases early.entry directory name file small found with still | lost
    · rw [← early.contents file small]
      exact late.entry directory name file small still
    · exact .inr lost
  contents := fun file small => (late.contents file small).trans (early.contents file small)
  grows := fun file => (early.grows file).trans (late.grows file)
  creators := fun file old =>
    (late.creators file (Nat.lt_of_lt_of_le old early.nextFile)).trans (early.creators file old)
  nextFile := Nat.le_trans early.nextFile late.nextFile

def common (consumable : List UInt8 → Prop) (bound : Nat) : Sharing FileSystem where
  step := Shares consumable bound
  refl := .refl
  trans := .trans

section Then

variable {Call Outcome ε α β : Type} {Reply : Call → Type}
  {respond : FileSystem → (request : Call) → Outcome → Reply request × FileSystem}

/-- One program after another. The number stays one of those that are in use. -/
theorem cooperates_then {holds : FileSystem → Except ε α → Prop}
    {goal : FileSystem → Except ε β → Prop} {program : ExceptT ε (Program Reply) α}
    {rest : α → ExceptT ε (Program Reply) β} (below : bound ≤ fs.nextFile)
    (first : Program.Cooperates respond (common consumable bound) holds program.run fs)
    (next : ∀ later value, bound ≤ later.nextFile → Shares consumable bound fs later →
      holds later (.ok value) →
        Program.Cooperates respond (common consumable bound) goal (rest value).run later)
    (stops : ∀ later stopped, goal later (.error stopped)) :
    Program.Cooperates respond (common consumable bound) goal (program >>= rest).run fs := by
  apply first.andThen
  · intro later value shares known
    exact next later value (Nat.le_trans below (Shares.nextFile shares)) shares known
  · exact stops

end Then

/-! ## Changes -/

section Changes

variable {directory : Nat} {name : Name}

theorem shares_createDirectory (inside : directory < fs.nextDirectory)
    (free : fs.lookup directory name = none) :
    Shares consumable bound fs (fs.createDirectory directory name) where
  extended := extends_createDirectory inside free
  names := by
    intro other otherName node found
    rw [lookup_createDirectory inside] at found
    split at found
    · cases found
      exact .inr (.inl ⟨_, rfl⟩)
    · exact .inl found
  entry := by
    intro other otherName file _ found
    rw [lookup_createDirectory inside]
    exact .inl (lookup_of_new free found)
  contents := by simp
  grows := by simp
  creators := by simp
  nextFile := by simp

theorem shares_createFile {caller : Nat} (inside : directory < fs.nextDirectory)
    (free : fs.lookup directory name = none) :
    Shares consumable bound fs (fs.createFile caller directory name) where
  extended := extends_createFile inside free
  names := by
    intro other otherName node found
    rw [lookup_createFile inside] at found
    split at found
    · cases found
      exact .inr (.inr ⟨_, rfl, Nat.le_refl _⟩)
    · exact .inl found
  entry := by
    intro other otherName file _ found
    rw [lookup_createFile inside]
    exact .inl (lookup_of_new free found)
  contents := by simp
  grows := by simp
  creators := by
    intro file old
    rw [creators_createFile inside, if_neg (Nat.ne_of_lt old)]
  nextFile := by
    rw [nextFile_createFile inside]
    exact Nat.le_succ _

theorem shares_append {file : Nat} (own : bound ≤ file) (bytes : List UInt8) :
    Shares consumable bound fs (fs.append file bytes) where
  extended := extends_append
  names := by
    intro other otherName node found
    rw [lookup_append] at found
    exact .inl found
  entry := by
    intro other otherName otherFile _ found
    rw [lookup_append]
    exact .inl found
  contents := by
    intro other small
    rw [contents_append, if_neg]
    intro same
    omega
  grows := by
    intro other
    rw [contents_append]
    split
    · rename_i same
      rw [same.1]
      exact List.prefix_append _ _
    · exact List.prefix_rfl
  creators := by simp
  nextFile := by simp

theorem shares_remove {file : Nat} (found : fs.lookup directory name = some (.file file))
    (spared : file < bound → consumable (fs.contents file)) :
    Shares consumable bound fs (fs.remove directory name) where
  extended := extends_remove found
  names := by
    intro other otherName node there
    rw [lookup_remove] at there
    split at there
    · cases there
    · exact .inl there
  entry := by
    intro other otherName lost small there
    by_cases same : other = directory ∧ otherName = name
    · obtain ⟨sameDirectory, sameName⟩ := same
      subst sameDirectory sameName
      cases found.symm.trans there
      exact .inr (spared small)
    · rw [lookup_remove, if_neg same]
      exact .inl there
  contents := fun _ _ => rfl
  grows := fun _ => List.prefix_rfl
  creators := fun _ _ => rfl
  nextFile := Nat.le_refl _

end Changes

/-! ## Names that may be taken away -/

/-- The path leads to a name. What stands there is a directory, or else a file that is not below
the number or has consumable bytes. -/
def Removable (consumable : List UInt8 → Prop) (bound : Nat) (path : Path) (fs : FileSystem) :
    Prop :=
  ∃ directory name, fs.locate false path = .ok (.slot directory name) ∧
    ∀ node, fs.lookup directory name = some node → (∃ id, node = .directory id) ∨
      ∃ file, node = .file file ∧ (file < bound → consumable (fs.contents file))

/-- Whatever comes to stand there is new. -/
theorem Removable.shares {path : Path} (removable : Removable consumable bound path before)
    (below : bound ≤ before.nextFile) (shares : Shares consumable bound before after) :
    Removable consumable bound path after := by
  obtain ⟨directory, name, located, only⟩ := removable
  refine ⟨directory, name, shares.extended.locate located, ?_⟩
  intro node found
  rcases shares.names directory name node found with there | made | ⟨file, same, above⟩
  · rcases only node there with made | ⟨file, same, spared⟩
    · exact .inl made
    · right
      refine ⟨file, same, fun small => ?_⟩
      rw [shares.contents file small]
      exact spared small
  · exact .inl made
  · exact .inr ⟨file, same, fun small => absurd (Nat.le_trans below above) (Nat.not_le_of_lt small)⟩

theorem Removable.removeFile {path : Path} (removable : Removable consumable bound path fs) :
    Shares consumable bound fs (fs.removeFileAt path).2 := by
  obtain ⟨directory, name, located, only⟩ := removable
  rcases fs.removeFileAt_cases path with ⟨other, otherName, node, there, found, plain, removed⟩ |
    ⟨kind, refused⟩
  · cases located.symm.trans there
    rcases only node found with ⟨id, same⟩ | ⟨file, same, spared⟩
    · exact absurd same (plain id)
    · subst same
      rw [removed]
      exact shares_remove found spared
  · rw [refused]
    exact .refl fs

theorem removable_createFile {path : Path} {directory caller : Nat} {name : Name}
    (located : fs.locate false path = .ok (.slot directory name))
    (free : fs.lookup directory name = none) (below : bound ≤ fs.nextFile) :
    Removable consumable bound path (fs.createFile caller directory name) := by
  have inside := slot_lt located
  refine ⟨directory, name, (extends_createFile inside free).locate located, ?_⟩
  intro node found
  rw [lookup_createFile inside, if_pos ⟨rfl, rfl⟩] at found
  cases found
  exact .inr ⟨_, rfl, fun small => absurd below (Nat.not_le_of_lt small)⟩

/-- A regular file was seen at the path, and then a file was opened there. It is the file that the
name stands for. -/
theorem removable_opened {path : Path} {regular opened : FileSystem} {file : Nat}
    (seen : IsType .file path regular) (shares : Shares consumable bound regular opened)
    (found : opened.node true path = .ok (.file file))
    (spared : file < bound → consumable (opened.contents file)) :
    Removable consumable bound path opened := by
  obtain ⟨first, there⟩ := seen.file
  obtain ⟨place, located, entry⟩ := node_eq_ok_iff.1 there
  cases place with
  | inside directory => cases entry
  | slot directory name =>
      have still := shares.extended.locate located
      refine ⟨directory, name, still, ?_⟩
      intro node stands
      have plain : ∀ target, node ≠ .symlink target := by
        intro target link
        subst link
        rcases shares.names directory name _ stands with same | ⟨_, made⟩ | ⟨_, made, _⟩
        · cases entry.symm.trans same
        · cases made
        · cases made
      have followed := node_follow (node_eq_ok_iff.2 ⟨_, still, stands⟩) plain
      cases followed.symm.trans found
      exact .inr ⟨file, rfl, spared⟩

end Sealed.Foundation.FileSystem
