import Sealed.Contact
import Sealed.Foundation.FileSystem
import Sealed.Foundation.Program

/-! The state directory: the identity files and the pinned contacts. Permission modes are
left out; the calls that set them stand for their failures. -/

set_option autoImplicit false

namespace Sealed

open Foundation

/-- Functions that make system calls, where the first error ends a function. -/
abbrev Storage (α : Type) := ExceptT (Abort Error) (Program FileCall.Reply) α

namespace Storage

/-- A call whose failure is `Error::Io`. -/
def perform (request : FileCall) : Storage request.Answer :=
  ExceptT.mk ((Program.perform request : Program FileCall.Reply _) >>= fun reply =>
    match reply with
    | .ok answer => pure (.ok answer)
    | .error kind => pure (.error (.error (.io kind))))

/-- A call whose failure the function inspects. -/
def attempt (request : FileCall) : Storage request.Reply :=
  ExceptT.mk ((Program.perform request : Program FileCall.Reply _) >>= fun reply =>
    pure (.ok reply))

def check {α : Type} (result : Result α) : Storage α := ExceptT.mk (pure result)

/-- `Path::exists`, which takes every failure for an absence. -/
def pathExists (path : Path) : Storage Bool := do
  match ← attempt (.stat path) with
  | .ok _ => return true
  | .error _ => return false

/-- `symlink_metadata`, and the refusal of everything but one type of file. -/
def ensureFileType (wanted : FileType) (path : Path) (message : String) : Storage Unit := do
  let fileType : FileType ← perform (.lstat path)
  check (.reject (fileType = .symlink ∨ fileType ≠ wanted) (.invalidInput message))

def ensureRegularFile (path : Path) : Storage Unit :=
  ensureFileType .file path "path is not a regular file"

def ensureRealDirectory (path : Path) : Storage Unit :=
  ensureFileType .directory path "path is not a real directory"

/-- `symlink_metadata` for the mode, then `set_permissions`. -/
def setPrivatePermissions (path : Path) : Storage Unit := do
  let _metadata ← perform (.lstat path)
  perform (.setMode path)

def createPrivateDirectory (path : Path) : Storage Unit := do
  if ← pathExists path then
    ensureRealDirectory path
    setPrivatePermissions path
  else
    perform (.createDir path)
    setPrivatePermissions path

def rejectExisting (path : Path) (message : String) : Storage Unit := do
  match ← attempt (.lstat path) with
  | .ok _ => check (.err (.invalidInput message))
  | .error .notFound => return ()
  | .error kind => check (.err (.io kind))

/-- `Write::write_all`. Every write moves at least one byte, so as many rounds as there
are bytes suffice. -/
def writeAll (file : Nat) : Nat → List UInt8 → Storage Unit
  | _, [] => return ()
  | 0, _ :: _ => check (.err (.io .writeZero))
  | rounds + 1, byte :: rest => do
      let written : Nat ← perform (.write file (byte :: rest))
      if written = 0 then check (.err (.io .writeZero))
      else writeAll file rounds ((byte :: rest).drop written)

/-- `Read::read_to_end` of at most `limit` bytes. -/
def readToEnd (file limit : Nat) : Nat → List UInt8 → Storage (List UInt8)
  | 0, bytes => return bytes
  | rounds + 1, bytes => do
      let chunk : List UInt8 ← perform (.read file bytes.length (limit - bytes.length))
      if chunk.isEmpty then return bytes
      else readToEnd file limit rounds (bytes ++ chunk)

/-- The parent of a path, or the working directory of a bare name. -/
def parentOrHere (path : Path) : Path :=
  (path.parent.filter fun parent => !parent.isEmpty).getD .here

def writeNewPrivate (path : Path) (bytes : List UInt8) : Storage Unit := do
  ensureRealDirectory (parentOrHere path)
  let file : Nat ← perform (.createNew path)
  writeAll file bytes.length bytes
  perform (.sync file)
  setPrivatePermissions path

def readRegularLimited (path : Path) (maximum : Nat) : Storage (List UInt8) := do
  ensureRegularFile path
  let file : Nat ← perform (.openRead path)
  let declared : Nat ← perform (.fileLength file)
  check (.reject (declared > maximum) (.invalidInput "file is too large"))
  let bytes ← readToEnd file (maximum + 1) (maximum + 1) []
  check (.reject (bytes.length > maximum) (.invalidInput "file is too large"))
  return bytes

/-- `Path::is_dir`. -/
def isDir (path : Path) : Storage Bool := do
  match ← attempt (.stat path) with
  | .ok fileType => return decide (fileType = .directory)
  | .error _ => return false

/-- `fs::create_dir`, where a directory that is there already will do. -/
def createDirUnlessThere (path : Path) : Storage Unit := do
  match ← attempt (.createDir path) with
  | .ok _ => return ()
  | .error kind =>
      if ← isDir path then return ()
      else check (.err (.io kind))

/-- `fs::create_dir_all`. A path has at most as many parents as segments. -/
def createDirAll : Nat → Path → Storage Unit
  | rounds, path => do
      if path.isEmpty then return ()
      else
        match ← attempt (.createDir path) with
        | .ok _ => return ()
        | .error .notFound =>
            match rounds, path.parent with
            | rounds + 1, some parent =>
                createDirAll rounds parent
                createDirUnlessThere path
            | _, _ => check (.err (.io .other))
        | .error kind =>
            if ← isDir path then return ()
            else check (.err (.io kind))

def readBlob (path : Path) : Storage (List UInt8) := readRegularLimited path maxBlobLen

def consumeBlob (path : Path) : Storage Unit := do
  ensureRegularFile path
  perform (.removeFile path)

def mapNotFound (error : Abort Error) (message : String) : Abort Error :=
  match error with
  | .error (.io .notFound) => .error (.notFound message)
  | other => other

end Storage

/-- Where the state lives. -/
structure StatePaths where
  root : Path
  identityPublic : Path
  identityEncrypted : Path
  contacts : Path

/-- The random draws of one `initialize` call, in the order it makes them. -/
structure InitializeDraws where
  unlockKey : Draw 32
  identitySecret : Draw 32
  agreementSecret : Draw 32
  nonce : Draw 24

namespace StatePaths

open Storage

variable (primitives : Primitives)

def fromRoot (root : Path) : StatePaths where
  root := root
  identityPublic := (root.join (ascii "identity")).join (ascii "identity.pub")
  identityEncrypted := (root.join (ascii "identity")).join (ascii "identity.key.enc")
  contacts := root.join (ascii "contacts")

/-- The checks of `initialize`, before it changes anything. -/
def initializeChecks (paths : StatePaths) (unlockPath : Path) : Storage Unit := do
  check (.reject (unlockPath.startsWith paths.root = true)
    (.invalidInput "unlock key must be stored outside the Sealed state directory"))
  rejectExisting paths.identityPublic "identity already exists"
  rejectExisting paths.identityEncrypted "identity already exists"
  rejectExisting unlockPath "unlock key destination already exists"
  ensureRealDirectory (parentOrHere unlockPath)

/-- The directories that `initialize` makes. -/
def initializeDirectories (paths : StatePaths) : Storage Unit := do
  createPrivateDirectory paths.root
  createPrivateDirectory
    (← check (.okOr paths.identityPublic.parent (.invalidInput "identity path has no parent")))
  createPrivateDirectory paths.contacts

/-- The three files that `initialize` writes, and its rollback. -/
def initializeFiles (paths : StatePaths) (unlockPath : Path)
    (unlockBytes profileBytes encrypted : List UInt8) : Storage Unit := do
  writeNewPrivate unlockPath unlockBytes
  writeNewPrivate paths.identityPublic profileBytes
  match ← ExceptT.lift (writeNewPrivate paths.identityEncrypted encrypted).run with
  | .ok _ => return ()
  | .error error =>
      let _ignored ← attempt (.removeFile paths.identityPublic)
      check (.error error)

/-- `StatePaths::initialize`. -/
def initializeState (paths : StatePaths) (unlockPath : Path) (draws : InitializeDraws) :
    Storage PublicProfile := do
  initializeChecks paths unlockPath
  initializeDirectories paths
  let unlockKey ← check (randomArray draws.unlockKey)
  let (secrets, profile) ←
    check (IdentitySecrets.generate primitives draws.identitySecret draws.agreementSecret)
  let encrypted ← check (encryptPrivateIdentity primitives secrets unlockKey draws.nonce)
  initializeFiles paths unlockPath (encodeUnlockKey unlockKey) profile.encode encrypted
  return profile

def exportProfile (paths : StatePaths) : Storage PublicProfile := do
  let bytes ← readRegularLimited paths.identityPublic 512
  check (PublicProfile.parse primitives bytes)

def loadIdentity (paths : StatePaths) (unlockPath : Path) :
    Storage (IdentitySecrets × PublicProfile) := do
  let unlockBytes ← readRegularLimited unlockPath 128
  let unlockKey ← check (parseUnlockKey unlockBytes)
  let encrypted ← readRegularLimited paths.identityEncrypted 512
  let profile ← exportProfile primitives paths
  let secrets ← check (.mapErr (decryptPrivateIdentity primitives encrypted unlockKey)
    fun _ => .invalidInput "cannot unlock identity")
  check (.reject (secrets.publicProfile primitives ≠ profile)
    (.invalidInput "encrypted identity does not match public identity"))
  return (secrets, profile)

def contactPath (paths : StatePaths) (contactAlias : List UInt8) : Path :=
  paths.contacts.join (contactAlias ++ ascii ".contact")

/-- The part of `trust_profile` that pins a profile which was read from its source. -/
def pinProfile (paths : StatePaths) (profile : PublicProfile) (contactAlias : List UInt8) :
    Storage PublicProfile := do
  createPrivateDirectory paths.contacts
  let destination := paths.contactPath contactAlias
  if ← pathExists destination then
    let pinned ← check (PublicProfile.parse primitives (← readRegularLimited destination 512))
    if pinned = profile then return profile
    else check (.err .identityMismatch)
  else
    writeNewPrivate destination profile.encode
    return profile

def trustProfile (paths : StatePaths) (source : Path) (contactAlias : List UInt8) :
    Storage PublicProfile := do
  check (.reject (¬ validateAlias contactAlias = true) (.invalidInput
    "contact name must contain only ASCII letters, digits, '-' or '_'"))
  let bytes ← readRegularLimited source 512
  let profile ← check (PublicProfile.parse primitives bytes)
  pinProfile primitives paths profile contactAlias

def contact (paths : StatePaths) (contactAlias : List UInt8) : Storage Contact := do
  check (.reject (¬ validateAlias contactAlias = true) (.invalidInput "invalid contact name"))
  let bytes ← ExceptT.mk ((readRegularLimited (paths.contactPath contactAlias) 512).run >>=
    fun read => pure (read.mapError fun error => mapNotFound error "contact is not pinned"))
  return { «alias» := contactAlias, profile := ← check (PublicProfile.parse primitives bytes) }

/-- The contact in a file of the store. -/
def contactNamed (paths : StatePaths) (name : Name) : Storage Contact := do
  let contactAlias ← check (.okOr
    ((fromUtf8 (fileStem name)).filter fun stem => validateAlias stem)
    (.invalidInput "invalid contact filename"))
  let profile ← check
    (PublicProfile.parse primitives (← readRegularLimited (paths.contacts.join name) 512))
  return { «alias» := contactAlias, profile }

/-- The names of the contact files in a listing, in order. -/
def contactNames (listing : List Name) : List Name :=
  (listing.filter fun name => extension name = some (ascii "contact")).mergeSort
    fun left right => decide (left ≤ right)

def allContacts (paths : StatePaths) : Storage (List Contact) := do
  if ← pathExists paths.contacts then
    ensureRealDirectory paths.contacts
    let listing : List Name ← perform (.readDir paths.contacts)
    (contactNames listing).mapM (contactNamed primitives paths)
  else return []

end StatePaths

end Sealed
