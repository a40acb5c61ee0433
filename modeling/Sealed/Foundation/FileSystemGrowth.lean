import Sealed.Foundation.FileSystemProperties

/-! Directories and files made one after another, by one program alone. -/

set_option autoImplicit false

namespace Sealed.Foundation.FileSystem

variable {fs : FileSystem}

/-! ## What was missing was missing before -/

/-- A walk that found nothing. -/
private def Nothing (fs : FileSystem) (walked : Except IoErrorKind Place) : Prop :=
  walked = .error .notFound ∨ ∃ directory name, walked = .ok (.slot directory name) ∧
    fs.lookup directory name = none

section CreateDirectory

variable {made : Nat} {new : Name}

private theorem walk_createDirectory (inside : made < fs.nextDirectory)
    (free : fs.lookup made new = none)
    {jump laterJump : Nat → List Segment → Except IoErrorKind Place} {follow : Bool}
    (jumps : ∀ directory segments, directory < fs.nextDirectory →
      Nothing fs (jump directory segments) ∨
        laterJump directory segments = jump directory segments)
    {segments : List Segment} :
    ∀ {directory : Nat}, directory < fs.nextDirectory →
      Nothing fs (fs.walk jump follow directory segments) ∨
        (fs.createDirectory made new).walk laterJump follow directory segments =
          fs.walk jump follow directory segments := by
  induction segments with
  | nil => exact fun _ => .inr rfl
  | cons segment rest ih =>
      intro directory known
      cases segment with
      | current => exact ih known
      | parent =>
          have same := (extends_createDirectory inside free).parent _ known
          unfold walk
          rw [same]
          exact ih (fs.parentsExist _ known)
      | name name =>
          by_cases here : directory = made ∧ name = new
          · obtain ⟨rfl, rfl⟩ := here
            left
            unfold walk
            rw [free]
            cases rest with
            | nil => exact .inr ⟨_, _, rfl, free⟩
            | cons next tail => exact .inl rfl
          · have same : (fs.createDirectory made new).lookup directory name =
                fs.lookup directory name := by
              rw [lookup_createDirectory inside, if_neg here]
            unfold walk
            rw [same]
            cases found : fs.lookup directory name with
            | none => exact .inr rfl
            | some node =>
                cases node with
                | directory id =>
                    cases rest with
                    | nil => exact .inr rfl
                    | cons next tail => exact ih (fs.subdirectoriesExist _ _ _ found)
                | symlink target =>
                    simp only
                    split
                    · exact .inr rfl
                    · exact jumps _ _ (origin_lt _ known)
                | file id => exact .inr rfl
                | special => exact .inr rfl

private theorem walkLinks_createDirectory (inside : made < fs.nextDirectory)
    (free : fs.lookup made new = none) {follow : Bool} {links directory : Nat}
    {segments : List Segment} (known : directory < fs.nextDirectory) :
    Nothing fs (fs.walkLinks follow links directory segments) ∨
      (fs.createDirectory made new).walkLinks follow links directory segments =
        fs.walkLinks follow links directory segments := by
  induction links generalizing directory segments with
  | zero => exact walk_createDirectory inside free (fun _ _ _ => .inr rfl) known
  | succ links ih => exact walk_createDirectory inside free (fun _ _ => ih) known

theorem node_notFound_of_createDirectory (inside : made < fs.nextDirectory)
    (free : fs.lookup made new = none) {follow : Bool} {path : Path}
    (missing : (fs.createDirectory made new).node follow path = .error .notFound) :
    fs.node follow path = .error .notFound := by
  have extended := extends_createDirectory inside free
  have either : Nothing fs (fs.locate follow path) ∨
      (fs.createDirectory made new).locate follow path = fs.locate follow path := by
    unfold locate
    split
    · exact .inl (.inl rfl)
    · rw [extended.working]
      exact walkLinks_createDirectory inside free (origin_lt _ fs.workingExists)
  rcases either with (nothing | ⟨directory, name, located, vacant⟩) | same
  · unfold FileSystem.node
    rw [nothing]
    rfl
  · unfold FileSystem.node
    simp only [located, bind, Except.bind, nodeAt, vacant]
  · unfold FileSystem.node at missing ⊢
    rw [same] at missing
    cases located : fs.locate follow path with
    | error kind =>
        rw [located] at missing
        exact missing
    | ok place =>
        rw [located] at missing
        simp only [bind, Except.bind] at missing ⊢
        cases place with
        | inside directory => cases missing
        | slot directory name =>
            simp only [nodeAt, lookup_createDirectory inside] at missing ⊢
            split at missing
            · cases missing
            · rename_i vacant
              split at vacant
              · cases vacant
              · rw [vacant]

end CreateDirectory

/-! ## Directories -/

/-- `create_dir` by a program alone. -/
def withDirectory (fs : FileSystem) (path : Path) : FileSystem := (fs.createDirAt path).2

theorem withDirectory_cases (fs : FileSystem) (path : Path) :
    (∃ directory name, fs.locate false path.unslashed = .ok (.slot directory name) ∧
      fs.lookup directory name = none ∧
      fs.withDirectory path = fs.createDirectory directory name) ∨
    ¬ Vacant path.unslashed fs ∧ fs.withDirectory path = fs := by
  unfold withDirectory
  rcases fs.createDirAt_cases path with ⟨directory, name, located, free, made⟩ | ⟨filled, kind, refused⟩
  · exact .inl ⟨directory, name, located, free, by rw [made]⟩
  · exact .inr ⟨filled, by rw [refused]⟩

theorem extends_withDirectory (path : Path) : Extends fs (fs.withDirectory path) := by
  rcases fs.withDirectory_cases path with ⟨directory, name, located, free, made⟩ | ⟨_, same⟩
  · rw [made]
    exact extends_createDirectory (slot_lt located) free
  · rw [same]
    exact .refl fs

theorem withDirectory_of_isType {path : Path} (there : IsType .directory path fs) :
    fs.withDirectory path = fs := by
  rcases fs.withDirectory_cases path with ⟨directory, name, located, free, _⟩ | ⟨_, same⟩
  · obtain ⟨node, found, _⟩ := there
    rw [node_of_vacant_unslashed ⟨directory, name, located, free⟩] at found
    cases found
  · exact same

theorem withDirectory_idem (path : Path) :
    (fs.withDirectory path).withDirectory path = fs.withDirectory path := by
  rcases fs.withDirectory_cases path with ⟨directory, name, located, free, made⟩ | ⟨_, same⟩
  · rw [made]
    exact withDirectory_of_isType ⟨_, node_createDirectory located free, rfl⟩
  · rw [same, same]

theorem node_notFound_of_withDirectory {path other : Path} {follow : Bool}
    (missing : (fs.withDirectory path).node follow other = .error .notFound) :
    fs.node follow other = .error .notFound := by
  rcases fs.withDirectory_cases path with ⟨directory, name, located, free, made⟩ | ⟨_, same⟩
  · rw [made] at missing
    exact node_notFound_of_createDirectory (slot_lt located) free missing
  · rwa [same] at missing

def withDirectories (paths : List Path) (fs : FileSystem) : FileSystem :=
  paths.foldl withDirectory fs

theorem extends_withDirectories (paths : List Path) : Extends fs (fs.withDirectories paths) := by
  induction paths generalizing fs with
  | nil => exact .refl fs
  | cons path rest ih => exact (extends_withDirectory path).trans ih

theorem node_notFound_of_withDirectories {paths : List Path} {other : Path} {follow : Bool}
    (missing : (fs.withDirectories paths).node follow other = .error .notFound) :
    fs.node follow other = .error .notFound := by
  induction paths generalizing fs with
  | nil => exact missing
  | cons path rest ih => exact node_notFound_of_withDirectory (ih missing)

/-- Every path in turn leads to a directory, made or found there. -/
def Builds : List Path → FileSystem → Prop
  | [], _ => True
  | path :: rest, fs => IsType .directory path (fs.withDirectory path) ∧
      Builds rest (fs.withDirectory path)

/-- After some of the directories, the whole list comes to the same end. -/
theorem Builds.resume {paths front : List Path} (builds : Builds paths fs)
    (early : front <+: paths) :
    Builds paths (fs.withDirectories front) ∧
      (fs.withDirectories front).withDirectories paths = fs.withDirectories paths := by
  induction front generalizing fs paths with
  | nil => exact ⟨builds, rfl⟩
  | cons path front ih =>
      obtain ⟨rest, rfl⟩ := early
      obtain ⟨there, builds⟩ := builds
      obtain ⟨again, same⟩ := ih builds (List.prefix_append front rest)
      have still : IsType .directory path (fs.withDirectories (path :: front)) :=
        there.extends (extends_withDirectories front)
      have unchanged := withDirectory_of_isType still
      refine ⟨⟨?_, ?_⟩, ?_⟩
      · rw [unchanged]
        exact still
      · rw [unchanged]
        exact again
      · change ((fs.withDirectories (path :: front)).withDirectory path).withDirectories _ = _
        rw [unchanged]
        exact same

/-! ## Links -/

theorem subdirectories_enter_symlink (directory : Nat) (name : Name) (target : Path) :
    ∀ other otherName id, (fs.enter directory name (.symlink target) other).lookup otherName =
      some (.directory id) → id < fs.nextDirectory := by
  intro other otherName id found
  rw [lookup_enter] at found
  split at found
  · cases found
  · exact fs.subdirectoriesExist _ _ _ found

theorem files_enter_symlink (directory : Nat) (name : Name) (target : Path) :
    ∀ other otherName id, (fs.enter directory name (.symlink target) other).lookup otherName =
      some (.file id) → id < fs.nextFile := by
  intro other otherName id found
  rw [lookup_enter] at found
  split at found
  · cases found
  · exact fs.filesExist _ _ _ found

theorem unused_enter {directory : Nat} (inside : directory < fs.nextDirectory) (name : Name)
    (node : Node) :
    ∀ id, fs.nextDirectory ≤ id → fs.enter directory name node id = ∅ := by
  intro id above
  unfold enter
  rw [Function.update_of_ne (by omega)]
  exact fs.unusedDirectories id above

/-- A new symbolic link under a name. -/
def createLink (fs : FileSystem) (directory : Nat) (name : Name) (target : Path) : FileSystem :=
  if inside : directory < fs.nextDirectory then
    { fs with
      directories := fs.enter directory name (.symlink target)
      subdirectoriesExist := subdirectories_enter_symlink directory name target
      filesExist := files_enter_symlink directory name target
      unusedDirectories := unused_enter inside name (.symlink target) }
  else fs

/-! ## Files -/

/-- A new file with its bytes, by a program alone. -/
def withFile (fs : FileSystem) (caller : Nat) (path : Path) (bytes : List UInt8) : FileSystem :=
  (fs.createNewAt caller path).2.append fs.nextFile bytes

theorem append_nil (file : Nat) : fs.append file [] = fs := by
  unfold append
  split
  · cases fs
    simp
  · rfl

theorem append_append (file : Nat) (first second : List UInt8) :
    (fs.append file first).append file second = fs.append file (first ++ second) := by
  unfold append
  split
  · rename_i inside
    simp
  · rename_i outside
    simp

theorem withFile_of_vacant (caller : Nat) {path : Path} (vacant : Vacant path fs)
    (bytes : List UInt8) :
    ∃ directory name, fs.locate false path = .ok (.slot directory name) ∧
      fs.lookup directory name = none ∧
      fs.withFile caller path bytes =
        (fs.createFile caller directory name).append fs.nextFile bytes := by
  rcases fs.createNewAt_cases caller path with ⟨directory, name, located, free, made⟩ | ⟨filled, _⟩
  · exact ⟨directory, name, located, free, by rw [withFile, made]⟩
  · exact absurd vacant filled

end Sealed.Foundation.FileSystem
