import Mathlib.Data.List.AList
import Mathlib.Logic.Function.Basic
import Sealed.Foundation.Path

/-! A Unix file system with directories, regular files and symbolic links, and the system
calls that programs make on it. A call that fails leaves no effect. -/

set_option autoImplicit false

namespace Sealed.Foundation

inductive FileType where
  | directory
  | file
  | symlink
  | special
deriving DecidableEq

/-- What a name stands for. Directories and files are numbered. -/
inductive Node where
  | directory (id : Nat)
  | file (id : Nat)
  | symlink (target : Path)
  | special
deriving DecidableEq

def Node.fileType : Node → FileType
  | .directory _ => .directory
  | .file _ => .file
  | .symlink _ => .symlink
  | .special => .special

abbrev Directory := AList fun _ : Name => Node

/-- Directory 0 is the root. `creators` is a ghost: the caller that created a file, if the
file did not exist from the start. -/
structure FileSystem where
  directories : Nat → Directory
  parents : Nat → Nat
  working : Nat
  contents : Nat → List UInt8
  creators : Nat → Option Nat
  nextDirectory : Nat
  nextFile : Nat
  rootExists : 0 < nextDirectory
  workingExists : working < nextDirectory
  parentsExist : ∀ id < nextDirectory, parents id < nextDirectory
  subdirectoriesExist : ∀ directory name id,
    (directories directory).lookup name = some (.directory id) → id < nextDirectory
  filesExist : ∀ directory name id,
    (directories directory).lookup name = some (.file id) → id < nextFile
  unusedDirectories : ∀ id, nextDirectory ≤ id → directories id = ∅
  unusedFiles : ∀ id, nextFile ≤ id → contents id = [] ∧ creators id = none

/-- Where a path leads: to a directory that has no name of its own there, or to a name in
a directory, whether or not something stands there. -/
inductive Place where
  | inside (directory : Nat)
  | slot (directory : Nat) (name : Name)
deriving DecidableEq

namespace FileSystem

/-- Nothing but an empty root directory. -/
def empty : FileSystem where
  directories := fun _ => ∅
  parents := fun _ => 0
  working := 0
  contents := fun _ => []
  creators := fun _ => none
  nextDirectory := 1
  nextFile := 0
  rootExists := by decide
  workingExists := by decide
  parentsExist := fun _ _ => Nat.one_pos
  subdirectoriesExist := by simp
  filesExist := by simp
  unusedDirectories := fun _ _ => rfl
  unusedFiles := fun _ _ => ⟨rfl, rfl⟩

variable (fs : FileSystem)

def lookup (directory : Nat) (name : Name) : Option Node := (fs.directories directory).lookup name

/-! ## Path resolution -/

/-- The directory a path starts from. -/
def origin (path : Path) (directory : Nat) : Nat := if path.absolute then 0 else directory

/-- A walk along segments. `jump` goes on from the target of a symbolic link. -/
def walk (jump : Nat → List Segment → Except IoErrorKind Place) (follow : Bool) :
    Nat → List Segment → Except IoErrorKind Place
  | directory, [] => .ok (.inside directory)
  | directory, .current :: rest => walk jump follow directory rest
  | directory, .parent :: rest => walk jump follow (fs.parents directory) rest
  | directory, .name name :: rest =>
      match fs.lookup directory name with
      | some (.symlink target) =>
          if rest.isEmpty && !follow then .ok (.slot directory name)
          else jump (origin target directory) (target.route ++ rest)
      | some (.directory id) =>
          if rest.isEmpty then .ok (.slot directory name) else walk jump follow id rest
      | some _ => if rest.isEmpty then .ok (.slot directory name) else .error .notADirectory
      | none => if rest.isEmpty then .ok (.slot directory name) else .error .notFound

/-- Walks through at most so many symbolic links. -/
def walkLinks (follow : Bool) : Nat → Nat → List Segment → Except IoErrorKind Place
  | 0 => fs.walk (fun _ _ => .error .filesystemLoop) follow
  | links + 1 => fs.walk (walkLinks follow links) follow

def maxLinks : Nat := 40

/-- The place a path leads to, with or without following a symbolic link at its end. -/
def locate (follow : Bool) (path : Path) : Except IoErrorKind Place :=
  if path.isEmpty then .error .notFound
  else fs.walkLinks follow maxLinks (origin path fs.working) path.route

def nodeAt : Place → Option Node
  | .inside directory => some (.directory directory)
  | .slot directory name => fs.lookup directory name

/-- What a path names, with or without following a symbolic link at its end. -/
def node (follow : Bool) (path : Path) : Except IoErrorKind Node := do
  let place ← fs.locate follow path
  match fs.nodeAt place with
  | some node => .ok node
  | none => .error .notFound

/-! ## Changes -/

/-- Another entry in a directory, which keeps the file system well formed when it names a
directory or a file that exists. -/
def enter (directory : Nat) (name : Name) (node : Node) : Nat → Directory :=
  Function.update fs.directories directory ((fs.directories directory).insert name node)

theorem lookup_enter (directory other : Nat) (name otherName : Name) (node : Node) :
    (fs.enter directory name node other).lookup otherName =
      if other = directory ∧ otherName = name then some node else fs.lookup other otherName := by
  unfold enter lookup
  by_cases same : other = directory
  · subst same
    rw [Function.update_self]
    by_cases sameName : otherName = name
    · subst sameName
      simp [AList.lookup_insert]
    · simp [AList.lookup_insert_ne, sameName]
  · simp [same]

/-- A new, empty directory under a name. -/
def createDirectory (directory : Nat) (name : Name) : FileSystem :=
  if inside : directory < fs.nextDirectory then
    { fs with
      directories := fs.enter directory name (.directory fs.nextDirectory)
      parents := Function.update fs.parents fs.nextDirectory directory
      nextDirectory := fs.nextDirectory + 1
      rootExists := Nat.succ_pos _
      workingExists := Nat.lt_succ_of_lt fs.workingExists
      parentsExist := by
        intro id below
        by_cases new : id = fs.nextDirectory
        · subst new
          rw [Function.update_self]
          exact Nat.lt_succ_of_lt inside
        · rw [Function.update_of_ne new]
          exact Nat.lt_succ_of_lt (fs.parentsExist id (by omega))
      subdirectoriesExist := by
        intro other otherName id found
        rw [lookup_enter] at found
        split at found
        · cases found
          exact Nat.lt_succ_self _
        · exact Nat.lt_succ_of_lt (fs.subdirectoriesExist _ _ _ found)
      filesExist := by
        intro other otherName id found
        rw [lookup_enter] at found
        split at found
        · cases found
        · exact fs.filesExist _ _ _ found
      unusedDirectories := by
        intro id above
        unfold enter
        rw [Function.update_of_ne (by omega)]
        exact fs.unusedDirectories id (by omega) }
  else fs

/-- A new, empty file under a name. -/
def createFile (caller directory : Nat) (name : Name) : FileSystem :=
  if inside : directory < fs.nextDirectory then
    { fs with
      directories := fs.enter directory name (.file fs.nextFile)
      creators := Function.update fs.creators fs.nextFile (some caller)
      nextFile := fs.nextFile + 1
      subdirectoriesExist := by
        intro other otherName id found
        rw [lookup_enter] at found
        split at found
        · cases found
        · exact fs.subdirectoriesExist _ _ _ found
      filesExist := by
        intro other otherName id found
        rw [lookup_enter] at found
        split at found
        · cases found
          exact Nat.lt_succ_self _
        · exact Nat.lt_succ_of_lt (fs.filesExist _ _ _ found)
      unusedDirectories := by
        intro id above
        unfold enter
        rw [Function.update_of_ne (by omega)]
        exact fs.unusedDirectories id above
      unusedFiles := by
        intro id above
        rw [Function.update_of_ne (by omega)]
        exact fs.unusedFiles id (by omega) }
  else fs

/-- More bytes at the end of a file. -/
def append (file : Nat) (bytes : List UInt8) : FileSystem :=
  if inside : file < fs.nextFile then
    { fs with
      contents := Function.update fs.contents file (fs.contents file ++ bytes)
      unusedFiles := by
        intro id above
        rw [Function.update_of_ne (by omega)]
        exact fs.unusedFiles id above }
  else fs

/-- A directory without one of its names. The file itself stays for those who hold it
open. -/
def remove (directory : Nat) (name : Name) : FileSystem :=
  { fs with
    directories :=
      Function.update fs.directories directory ((fs.directories directory).erase name)
    subdirectoriesExist := by
      intro other otherName id found
      by_cases same : other = directory
      · subst same
        rw [Function.update_self] at found
        by_cases sameName : otherName = name
        · subst sameName
          rw [AList.lookup_erase] at found
          cases found
        · rw [AList.lookup_erase_ne sameName] at found
          exact fs.subdirectoriesExist _ _ _ found
      · rw [Function.update_of_ne same] at found
        exact fs.subdirectoriesExist _ _ _ found
    filesExist := by
      intro other otherName id found
      by_cases same : other = directory
      · subst same
        rw [Function.update_self] at found
        by_cases sameName : otherName = name
        · subst sameName
          rw [AList.lookup_erase] at found
          cases found
        · rw [AList.lookup_erase_ne sameName] at found
          exact fs.filesExist _ _ _ found
      · rw [Function.update_of_ne same] at found
        exact fs.filesExist _ _ _ found
    unusedDirectories := by
      intro id above
      by_cases same : id = directory
      · subst same
        rw [Function.update_self, fs.unusedDirectories _ above]
        rfl
      · rw [Function.update_of_ne same]
        exact fs.unusedDirectories id above }

end FileSystem

/-! ## System calls -/

/-- Open files are known by their numbers; reads name the offset they continue from. -/
inductive FileCall where
  | lstat (path : Path)
  | stat (path : Path)
  | createDir (path : Path)
  | setMode (path : Path)
  | createNew (path : Path)
  | write (file : Nat) (bytes : List UInt8)
  | sync (file : Nat)
  | removeFile (path : Path)
  | openRead (path : Path)
  | fileLength (file : Nat)
  | read (file offset limit : Nat)
  | readDir (path : Path)
deriving DecidableEq

namespace FileCall

/-- What a call answers when it succeeds. -/
abbrev Answer : FileCall → Type
  | .lstat _ | .stat _ => FileType
  | .createDir _ | .setMode _ | .sync _ | .removeFile _ => Unit
  | .createNew _ | .openRead _ | .write _ _ | .fileLength _ => Nat
  | .read _ _ _ => List UInt8
  | .readDir _ => List Name

abbrev Reply (request : FileCall) : Type := Except IoErrorKind (Answer request)

/-- Calls that leave the file system as it is. -/
def ReadOnly : FileCall → Prop
  | .lstat _ | .stat _ | .setMode _ | .sync _ | .openRead _ | .fileLength _ | .read _ _ _
  | .readDir _ => True
  | .createDir _ | .createNew _ | .write _ _ | .removeFile _ => False

end FileCall

/-- What happens to a call beyond the state of the file system: it is carried out, where a
transfer moves at most `chunk + 1` bytes, or it fails. -/
inductive Outcome where
  | carriedOut (chunk : Nat)
  | failed
deriving DecidableEq

namespace FileSystem

variable (fs : FileSystem)

def createDirAt (path : Path) : Except IoErrorKind Unit × FileSystem :=
  match fs.locate false path.unslashed with
  | .error kind => (.error kind, fs)
  | .ok (.inside _) => (.error .alreadyExists, fs)
  | .ok (.slot directory name) =>
      match fs.lookup directory name with
      | some _ => (.error .alreadyExists, fs)
      | none => (.ok (), fs.createDirectory directory name)

/-- `open` with `O_CREAT | O_EXCL`. A separator behind the name is refused. -/
def createNewAt (caller : Nat) (path : Path) : Except IoErrorKind Nat × FileSystem :=
  match fs.locate false path.unslashed with
  | .error kind => (.error kind, fs)
  | .ok (.inside _) => (.error .alreadyExists, fs)
  | .ok (.slot directory name) =>
      if path.slashed then (.error .isADirectory, fs)
      else
        match fs.lookup directory name with
        | some _ => (.error .alreadyExists, fs)
        | none => (.ok fs.nextFile, fs.createFile caller directory name)

def removeFileAt (path : Path) : Except IoErrorKind Unit × FileSystem :=
  match fs.locate false path with
  | .error kind => (.error kind, fs)
  | .ok (.inside _) => (.error .isADirectory, fs)
  | .ok (.slot directory name) =>
      match fs.lookup directory name with
      | none => (.error .notFound, fs)
      | some (.directory _) => (.error .isADirectory, fs)
      | some _ => (.ok (), fs.remove directory name)

def openReadAt (path : Path) : Except IoErrorKind Nat :=
  match fs.node true path with
  | .error kind => .error kind
  | .ok (.file id) => .ok id
  | .ok (.directory _) => .error .isADirectory
  | .ok _ => .error .other

def readDirAt (path : Path) : Except IoErrorKind (List Name) :=
  match fs.node true path with
  | .error kind => .error kind
  | .ok (.directory id) => .ok (fs.directories id).keys
  | .ok _ => .error .notADirectory

/-- The answer to a call of `caller`, and the file system after it. -/
def respond (caller : Nat) (fs : FileSystem) :
    (request : FileCall) → Outcome → request.Reply × FileSystem
  | _, .failed => (.error .other, fs)
  | .lstat path, .carriedOut _ => ((fs.node false path).map Node.fileType, fs)
  | .stat path, .carriedOut _ => ((fs.node true path).map Node.fileType, fs)
  | .createDir path, .carriedOut _ => fs.createDirAt path
  | .setMode path, .carriedOut _ => ((fs.node true path).map fun _ => (), fs)
  | .createNew path, .carriedOut _ => fs.createNewAt caller path
  | .write file bytes, .carriedOut chunk =>
      (.ok (min (chunk + 1) bytes.length), fs.append file (bytes.take (chunk + 1)))
  | .sync _, .carriedOut _ => (.ok (), fs)
  | .removeFile path, .carriedOut _ => fs.removeFileAt path
  | .openRead path, .carriedOut _ => (fs.openReadAt path, fs)
  | .fileLength file, .carriedOut _ => (.ok (fs.contents file).length, fs)
  | .read file offset limit, .carriedOut chunk =>
      (.ok (((fs.contents file).drop offset).take (min (chunk + 1) limit)), fs)
  | .readDir path, .carriedOut _ => (fs.readDirAt path, fs)

end FileSystem

end Sealed.Foundation
