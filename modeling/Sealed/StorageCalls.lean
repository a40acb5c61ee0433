import Sealed.IdentityProperties
import Sealed.Storage

/-! Which system calls the storage functions make, whatever the replies. None of the functions
panics. -/

set_option autoImplicit false

namespace Sealed.Storage

open Foundation

variable {α β : Type} {allowed : FileCall → Prop} {primitives : Primitives}

/-- The function makes only such calls, and does not panic. -/
def Makes (allowed : FileCall → Prop) (storage : Storage α) : Prop :=
  Program.Confined allowed (fun result => Checked.NoPanic result) storage.run

theorem makes_check {result : Result α} (safe : Checked.NoPanic result) :
    Makes allowed (check result) := safe

theorem makes_return (value : α) : Makes allowed (return value) := by
  intro stopped
  cases stopped

theorem makes_err (error : Error) : Makes allowed (check (.err error : Result α)) :=
  makes_check (Checked.noPanic_err error)

theorem makes_bind {storage : Storage α} {rest : α → Storage β} (first : Makes allowed storage)
    (next : ∀ value, Makes allowed (rest value)) : Makes allowed (storage >>= rest) := by
  apply Program.Confined.bind first
  intro result safe
  cases result with
  | ok value => exact next value
  | error stopped =>
      intro panicked
      cases panicked
      exact safe rfl

theorem makes_lift {storage : Storage α} {rest : Checked Error α → Storage β}
    (first : Makes allowed storage)
    (next : ∀ result, Checked.NoPanic result → Makes allowed (rest result)) :
    Makes allowed (ExceptT.lift storage.run >>= rest) := by
  have lifted : Program.Confined allowed
      (fun reply : Checked Error (Checked Error α) => ∃ result, reply = .ok result ∧
        Checked.NoPanic result) (ExceptT.lift storage.run : Storage _).run :=
    Program.Confined.bind first fun result safe => ⟨result, rfl, safe⟩
  apply Program.Confined.bind lifted
  rintro _ ⟨result, rfl, safe⟩
  exact next result safe

theorem makes_mapError {storage : Storage α} {change : Abort Error → Abort Error}
    (first : Makes allowed storage)
    (reports : ∀ stopped, stopped ≠ .panic → change stopped ≠ .panic) :
    Makes allowed (ExceptT.mk (storage.run >>= fun read => pure (read.mapError change))) := by
  apply Program.Confined.bind first
  intro result safe
  cases result with
  | ok value => exact fun panicked => nomatch panicked
  | error stopped =>
      intro panicked
      exact reports stopped (fun same => safe (same ▸ rfl)) (Except.error.inj panicked)

theorem makes_perform {request : FileCall} (permitted : allowed request) :
    Makes allowed (perform request) := by
  refine ⟨permitted, fun reply => ?_⟩
  cases reply with
  | ok answer => exact makes_return answer
  | error kind => exact makes_err (.io kind)

theorem makes_attempt {request : FileCall} (permitted : allowed request) :
    Makes allowed (attempt request) :=
  ⟨permitted, fun reply => makes_return reply⟩

theorem makes_readToEnd {file : Nat}
    (reads : ∀ offset length, allowed (.read file offset length)) (limit rounds : Nat)
    (bytes : List UInt8) : Makes allowed (readToEnd file limit rounds bytes) := by
  induction rounds generalizing bytes with
  | zero => exact makes_return bytes
  | succ rounds ih =>
      apply makes_bind (makes_perform (reads bytes.length (limit - bytes.length)))
      intro (chunk : List UInt8)
      cases chunk with
      | nil => exact makes_return bytes
      | cons byte rest => exact ih _

theorem makes_readOpen {file : Nat} (measures : allowed (.fileLength file))
    (reads : ∀ offset length, allowed (.read file offset length)) (maximum : Nat) :
    Makes allowed (do
      let declared : Nat ← perform (.fileLength file)
      check (.reject (declared > maximum) (.invalidInput "file is too large"))
      let bytes ← readToEnd file (maximum + 1) (maximum + 1) []
      check (.reject (bytes.length > maximum) (.invalidInput "file is too large"))
      return bytes) := by
  apply makes_bind (makes_perform measures)
  intro declared
  apply makes_bind (makes_check (Checked.noPanic_reject _ _))
  intro _
  apply makes_bind (makes_readToEnd reads _ _ _)
  intro bytes
  apply makes_bind (makes_check (Checked.noPanic_reject _ _))
  intro _
  exact makes_return bytes

/-! ## Functions that only look -/

section Looks

variable (looks : ∀ request : FileCall, request.ReadOnly → allowed request)
include looks

theorem makes_look (request : FileCall) (readOnly : request.ReadOnly) :
    Makes allowed (perform request) := makes_perform (looks request readOnly)

theorem makes_glance (request : FileCall) (readOnly : request.ReadOnly) :
    Makes allowed (attempt request) := makes_attempt (looks request readOnly)

theorem makes_pathExists (path : Path) : Makes allowed (pathExists path) := by
  apply makes_bind (makes_glance looks (.stat path) trivial)
  intro reply
  cases reply with
  | ok _ => exact makes_return true
  | error _ => exact makes_return false

theorem makes_isDir (path : Path) : Makes allowed (isDir path) := by
  apply makes_bind (makes_glance looks (.stat path) trivial)
  intro reply
  cases reply with
  | ok _ => exact makes_return _
  | error _ => exact makes_return _

theorem makes_ensureFileType (wanted : FileType) (path : Path) (message : String) :
    Makes allowed (ensureFileType wanted path message) := by
  apply makes_bind (makes_look looks (.lstat path) trivial)
  intro fileType
  exact makes_check (Checked.noPanic_reject _ _)

theorem makes_setPrivatePermissions (path : Path) :
    Makes allowed (setPrivatePermissions path) := by
  apply makes_bind (makes_look looks (.lstat path) trivial)
  intro metadata
  exact makes_look looks (.setMode path) trivial

theorem makes_rejectExisting (path : Path) (message : String) :
    Makes allowed (rejectExisting path message) := by
  apply makes_bind (makes_glance looks (.lstat path) trivial)
  intro reply
  cases reply with
  | ok _ => exact makes_err _
  | error kind =>
      cases kind with
      | notFound => exact makes_return ()
      | alreadyExists | notADirectory | isADirectory | filesystemLoop | writeZero | other =>
          exact makes_err _

theorem makes_readRegularLimited (path : Path) (maximum : Nat) :
    Makes allowed (readRegularLimited path maximum) := by
  apply makes_bind (makes_ensureFileType looks _ _ _)
  intro _
  apply makes_bind (makes_look looks (.openRead path) trivial)
  intro file
  exact makes_readOpen (looks (.fileLength file) trivial) (fun _ _ => looks _ trivial) maximum

theorem makes_exportProfile (paths : StatePaths) :
    Makes allowed (paths.exportProfile primitives) := by
  apply makes_bind (makes_readRegularLimited looks _ _)
  intro bytes
  exact makes_check (PublicProfile.noPanic_parse bytes)

theorem makes_loadIdentity (paths : StatePaths) (unlockPath : Path) :
    Makes allowed (paths.loadIdentity primitives unlockPath) := by
  apply makes_bind (makes_readRegularLimited looks _ _)
  intro unlockBytes
  apply makes_bind (makes_check (noPanic_parseUnlockKey _))
  intro unlockKey
  apply makes_bind (makes_readRegularLimited looks _ _)
  intro encrypted
  apply makes_bind (makes_exportProfile looks paths)
  intro profile
  apply makes_bind (makes_check (Checked.noPanic_mapErr (noPanic_decryptPrivateIdentity _ _)))
  intro secrets
  apply makes_bind (makes_check (Checked.noPanic_reject _ _))
  intro _
  exact makes_return _

theorem makes_contact (paths : StatePaths) (contactAlias : List UInt8) :
    Makes allowed (paths.contact primitives contactAlias) := by
  apply makes_bind (makes_check (Checked.noPanic_reject _ _))
  intro _
  apply makes_bind (makes_mapError (makes_readRegularLimited looks _ _) ?_)
  · intro bytes
    apply makes_bind (makes_check (PublicProfile.noPanic_parse _))
    intro profile
    exact makes_return _
  · intro stopped reported
    unfold mapNotFound
    split
    · exact nofun
    · exact reported

theorem makes_contactNamed (paths : StatePaths) (name : Name) :
    Makes allowed (paths.contactNamed primitives name) := by
  apply makes_bind (makes_check (Checked.noPanic_okOr _ _))
  intro contactAlias
  apply makes_bind (makes_readRegularLimited looks _ _)
  intro bytes
  apply makes_bind (makes_check (PublicProfile.noPanic_parse _))
  intro profile
  exact makes_return _

theorem makes_allContacts (paths : StatePaths) :
    Makes allowed (paths.allContacts primitives) := by
  have each : ∀ names : List Name, Makes allowed (names.mapM (paths.contactNamed primitives)) := by
    intro names
    induction names with
    | nil => exact makes_return []
    | cons name rest ih =>
        rw [List.mapM_cons]
        apply makes_bind (makes_contactNamed looks paths name)
        intro contact
        apply makes_bind ih
        intro contacts
        exact makes_return _
  apply makes_bind (makes_pathExists looks _)
  intro there
  cases there with
  | false => exact makes_return []
  | true =>
      apply makes_bind (makes_ensureFileType looks _ _ _)
      intro _
      apply makes_bind (makes_look looks (.readDir paths.contacts) trivial)
      intro listing
      exact each _

/-! ## Functions that make directories and files -/

theorem makes_createPrivateDirectory {path : Path} (creates : allowed (.createDir path)) :
    Makes allowed (createPrivateDirectory path) := by
  apply makes_bind (makes_pathExists looks path)
  intro there
  cases there with
  | true =>
      apply makes_bind (makes_ensureFileType looks _ _ _)
      intro _
      exact makes_setPrivatePermissions looks path
  | false =>
      apply makes_bind (makes_perform creates)
      intro _
      exact makes_setPrivatePermissions looks path

theorem makes_unlessThere (path : Path) (kind : IoErrorKind) :
    Makes allowed (do if ← isDir path then return () else check (.err (.io kind))) := by
  apply makes_bind (makes_isDir looks path)
  intro there
  cases there with
  | true => exact makes_return ()
  | false => exact makes_err _

/-- Only the directory itself is made, and those above it. -/
theorem makes_createDirAll (rounds : Nat) {path : Path}
    (creates : ∀ above, path.IsAncestor above → allowed (.createDir above)) :
    Makes allowed (createDirAll rounds path) := by
  induction rounds generalizing path with
  | zero =>
      unfold createDirAll
      split
      · exact makes_return ()
      · apply makes_bind (makes_attempt (creates path .refl))
        intro reply
        cases reply with
        | ok _ => exact makes_return ()
        | error kind =>
            cases kind with
            | notFound => exact makes_err _
            | alreadyExists | notADirectory | isADirectory | filesystemLoop | writeZero | other =>
                exact makes_unlessThere looks path _
  | succ rounds ih =>
      have again : Makes allowed (createDirUnlessThere path) := by
        apply makes_bind (makes_attempt (creates path .refl))
        intro reply
        cases reply with
        | ok _ => exact makes_return ()
        | error kind => exact makes_unlessThere looks path kind
      unfold createDirAll
      split
      · exact makes_return ()
      · apply makes_bind (makes_attempt (creates path .refl))
        intro reply
        cases reply with
        | ok _ => exact makes_return ()
        | error kind =>
            cases kind with
            | notFound =>
                cases next : path.parent with
                | none => exact makes_err _
                | some parent =>
                    exact makes_bind (ih fun above chain => creates above (.head next chain))
                      fun _ => again
            | alreadyExists | notADirectory | isADirectory | filesystemLoop | writeZero | other =>
                exact makes_unlessThere looks path _

theorem makes_writeNewPrivate {path : Path} (creates : allowed (.createNew path))
    (writes : ∀ file bytes, allowed (.write file bytes)) (bytes : List UInt8) :
    Makes allowed (writeNewPrivate path bytes) := by
  have writeAll : ∀ file rounds rest, Makes allowed (writeAll file rounds rest) := by
    intro file rounds
    induction rounds with
    | zero =>
        intro rest
        cases rest with
        | nil => exact makes_return ()
        | cons byte rest => exact makes_err _
    | succ rounds ih =>
        intro rest
        cases rest with
        | nil => exact makes_return ()
        | cons byte rest =>
            apply makes_bind (makes_perform (writes _ _))
            intro (written : Nat)
            by_cases none : written = 0
            · rw [if_pos none]
              exact makes_err _
            · rw [if_neg none]
              exact ih _
  apply makes_bind (makes_ensureFileType looks _ _ _)
  intro _
  apply makes_bind (makes_perform creates)
  intro file
  apply makes_bind (writeAll file _ _)
  intro _
  apply makes_bind (makes_look looks (.sync file) trivial)
  intro _
  exact makes_setPrivatePermissions looks path

end Looks

end Sealed.Storage
