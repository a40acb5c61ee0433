import Sealed.Foundation.Monitor
import Sealed.InitializeProperties
import Sealed.StorageCalls

/-! What the storage functions may change, whatever the replies. Every byte goes to the file that
was created last, and is meant for its path. -/

set_option autoImplicit false

namespace Sealed

open Foundation

/-- The directories that a function may make, the files that it may create with their whole
contents, the names that it may take away, and what it may print. -/
structure Effects where
  directory : Path → Prop
  file : Path → List UInt8 → Prop
  removal : Path → Prop
  print : List UInt8 → Prop

namespace Effects

def none : Effects := ⟨fun _ => False, fun _ _ => False, fun _ => False, fun _ => False⟩

/-- One file with its whole contents. -/
def writing (path : Path) (whole : List UInt8) : Effects :=
  { none with file := fun other bytes => other = path ∧ bytes = whole }

def printing (whole : List UInt8) : Effects := { none with print := fun bytes => bytes = whole }

/-- The path of the file that was created last, and its number. -/
abbrev LastFile := Option (Path × Nat)

def permits (effects : Effects) (last : LastFile) : FileCall → Prop
  | .createDir path => effects.directory path
  | .createNew path => ∃ whole, effects.file path whole
  | .write file bytes =>
      ∃ path whole, last = some (path, file) ∧ effects.file path whole ∧ bytes <:+ whole
  | .removeFile path => effects.removal path
  | _ => True

def advance (last : LastFile) : (request : FileCall) → request.Reply → LastFile
  | .createNew path, .ok file => some (path, file)
  | _, _ => last

def monitor (effects : Effects) : Monitor FileCall.Reply LastFile := ⟨effects.permits, advance⟩

theorem permits_readOnly {effects : Effects} {request : FileCall} (readOnly : request.ReadOnly)
    (last : LastFile) : effects.permits last request := by
  cases request with
  | createDir | createNew | write | removeFile => exact readOnly.elim
  | lstat | stat | setMode | sync | openRead | fileLength | read | readDir => trivial

theorem advance_readOnly {request : FileCall} (readOnly : request.ReadOnly) (last : LastFile)
    (reply : request.Reply) : advance last request reply = last := by
  cases request with
  | createDir | createNew | write | removeFile => exact readOnly.elim
  | lstat | stat | setMode | sync | openRead | fileLength | read | readDir => rfl

end Effects

namespace Storage

variable {α β : Type} {effects : Effects} {primitives : Primitives}

/-- The function has only such effects, and does not panic. -/
def Follows (effects : Effects) (storage : Storage α) : Prop :=
  ∀ last, Program.Follows effects.monitor (fun _ result => Checked.NoPanic result) storage.run last

theorem follows_check {result : Result α} (safe : Checked.NoPanic result) :
    Follows effects (check result) := fun _ => safe

theorem follows_return (value : α) : Follows effects (return value) :=
  follows_check (Checked.noPanic_ok value)

theorem follows_bind {storage : Storage α} {rest : α → Storage β} (first : Follows effects storage)
    (next : ∀ value, Follows effects (rest value)) : Follows effects (storage >>= rest) := by
  intro last
  apply Program.Follows.bind (first last)
  intro later result safe
  cases result with
  | ok value => exact next value later
  | error stopped => exact fun panicked => safe (by cases panicked; rfl)

/-- The rest may use what a check has passed. -/
theorem follows_checked {result : Result α} {rest : α → Storage β} (safe : Checked.NoPanic result)
    (next : ∀ value, result = .ok value → Follows effects (rest value)) :
    Follows effects (check result >>= rest) := by
  cases result with
  | ok value => exact next value rfl
  | error stopped => exact fun _ panicked => safe (by cases panicked; rfl)

theorem follows_lift {storage : Storage α} {rest : Checked Error α → Storage β}
    (first : Follows effects storage)
    (next : ∀ result, Checked.NoPanic result → Follows effects (rest result)) :
    Follows effects (ExceptT.lift storage.run >>= rest) := by
  intro last
  have lifted : Program.Follows effects.monitor
      (fun _ (reply : Checked Error (Checked Error α)) => ∃ result, reply = .ok result ∧
        Checked.NoPanic result) (ExceptT.lift storage.run : Storage _).run last :=
    Program.Follows.bind (first last) fun _ result safe => ⟨result, rfl, safe⟩
  apply Program.Follows.bind lifted
  intro later reply known
  obtain ⟨result, same, safe⟩ := known
  subst same
  exact next result safe later

theorem follows_looking {storage : Storage α}
    (makes : Makes (fun request => request.ReadOnly) storage) : Follows effects storage := by
  intro last
  apply Program.Follows.mono (Program.Confined.follows makes effects.monitor last
    (fun request readOnly => Effects.permits_readOnly readOnly last)
    fun request readOnly => Effects.advance_readOnly readOnly last)
  exact fun _ _ holds => holds.2

theorem follows_perform {request : FileCall} (permits : ∀ last, effects.permits last request) :
    Follows effects (perform request) := by
  intro last
  constructor
  · exact permits last
  · intro reply
    cases reply with
    | ok answer => exact Checked.noPanic_ok answer
    | error kind => exact Checked.noPanic_err _

theorem follows_attempt {request : FileCall} (permits : ∀ last, effects.permits last request) :
    Follows effects (attempt request) :=
  fun last => ⟨permits last, fun reply => Checked.noPanic_ok reply⟩

/-! ## New files -/

/-- Every round writes what the rounds before it left over. -/
theorem follows_writeAll {path : Path} {file : Nat} {whole : List UInt8}
    (meant : effects.file path whole) (rounds : Nat) {rest : List UInt8} (left : rest <:+ whole) :
    Program.Follows effects.monitor
      (fun last result => last = some (path, file) ∧ Checked.NoPanic result)
      (writeAll file rounds rest).run (some (path, file)) := by
  induction rounds generalizing rest with
  | zero =>
      cases rest with
      | nil => exact ⟨rfl, Checked.noPanic_ok ()⟩
      | cons byte rest => exact ⟨rfl, Checked.noPanic_err _⟩
  | succ rounds ih =>
      cases rest with
      | nil => exact ⟨rfl, Checked.noPanic_ok ()⟩
      | cons byte rest =>
          constructor
          · exact ⟨path, whole, rfl, meant, left⟩
          · intro reply
            cases reply with
            | error kind => exact ⟨rfl, Checked.noPanic_err _⟩
            | ok written =>
                by_cases stuck : written = 0
                · subst stuck
                  exact ⟨rfl, Checked.noPanic_err _⟩
                · change Program.Follows _ _ (ite _ _ _ : Storage Unit).run _
                  rw [if_neg stuck]
                  exact ih ((List.drop_suffix written _).trans left)

theorem follows_writeNewPrivate {path : Path} {bytes : List UInt8}
    (meant : effects.file path bytes) : Follows effects (writeNewPrivate path bytes) := by
  have looks := fun (request : FileCall) (readOnly : request.ReadOnly) => readOnly
  have finishes : ∀ file, Follows effects (do
      perform (.sync file)
      setPrivatePermissions path) := fun file =>
    follows_looking (makes_bind (makes_look looks (.sync file) trivial)
      fun _ => makes_setPrivatePermissions looks path)
  apply follows_bind (follows_looking (makes_ensureFileType looks _ _ _))
  intro _ last
  constructor
  · exact ⟨bytes, meant⟩
  · intro reply
    cases reply with
    | error kind => exact Checked.noPanic_err _
    | ok file =>
        apply Program.Follows.bind (follows_writeAll meant bytes.length List.suffix_rfl)
        intro later result written
        cases result with
        | ok _ => exact finishes file later
        | error stopped => exact fun panicked => written.2 (by cases panicked; rfl)

/-! ## `initialize` -/

theorem follows_createPrivateDirectory {path : Path} (meant : effects.directory path) :
    Follows effects (createPrivateDirectory path) := by
  have looks := fun (request : FileCall) (readOnly : request.ReadOnly) => readOnly
  apply follows_bind (follows_looking (makes_pathExists looks path))
  intro there
  cases there with
  | true =>
      exact follows_looking (makes_bind (makes_ensureFileType looks _ _ _)
        fun _ => makes_setPrivatePermissions looks path)
  | false =>
      apply follows_bind (@follows_perform effects (.createDir path) fun _ => meant)
      intro _
      exact follows_looking (makes_setPrivatePermissions looks path)

theorem follows_initializeChecks (paths : StatePaths) (unlockPath : Path) :
    Follows effects (paths.initializeChecks unlockPath) := by
  have looks := fun (request : FileCall) (readOnly : request.ReadOnly) => readOnly
  apply follows_looking
  apply makes_bind (makes_check (Checked.noPanic_reject _ _))
  intro _
  apply makes_bind (makes_rejectExisting looks _ _)
  intro _
  apply makes_bind (makes_rejectExisting looks _ _)
  intro _
  apply makes_bind (makes_rejectExisting looks _ _)
  intro _
  exact makes_ensureFileType looks _ _ _

/-- What `initialize` may change. The key goes to the unlock path, whose spelling does not begin
with the root's; in the root the private identity stands encrypted. -/
def initializeEffects (primitives : Primitives) (root unlockPath : Path) (draws : InitializeDraws) :
    Effects where
  directory path := path ∈ stateDirectories root
  file path whole := ∃ unlockKey secrets encrypted,
    Drawn primitives draws unlockKey secrets encrypted ∧
      (path = unlockPath ∧ unlockPath.startsWith root = false ∧
          whole = encodeUnlockKey unlockKey ∨
        path = (StatePaths.fromRoot root).identityPublic ∧
          whole = (secrets.publicProfile primitives).encode ∨
        path = (StatePaths.fromRoot root).identityEncrypted ∧ whole = encrypted)
  removal path := path = (StatePaths.fromRoot root).identityPublic
  print _ := False

theorem noPanic_drawIdentity (draws : InitializeDraws) :
    Checked.NoPanic (drawIdentity primitives draws) := by
  apply Checked.noPanic_bind (Checked.noPanic_okOr _ _)
  intro unlockKey _
  apply Checked.noPanic_bind
  · apply Checked.noPanic_bind (Checked.noPanic_okOr _ _)
    intro identitySecret _
    exact Checked.noPanic_bind (Checked.noPanic_okOr _ _) fun _ _ => Checked.noPanic_ok _
  · intro identity _
    apply Checked.noPanic_bind
    · apply Checked.noPanic_bind (Checked.noPanic_okOr _ _)
      intro nonce _
      exact Checked.noPanic_bind (Checked.noPanic_okOr _ _) fun _ _ => Checked.noPanic_ok _
    · exact fun _ _ => Checked.noPanic_ok _

theorem follows_initializeState (root unlockPath : Path) (draws : InitializeDraws) :
    Follows (initializeEffects primitives root unlockPath draws)
      ((StatePaths.fromRoot root).initializeState primitives unlockPath draws) := by
  by_cases inside : unlockPath.startsWith (StatePaths.fromRoot root).root = true
  · have stops : (StatePaths.fromRoot root).initializeState primitives unlockPath draws =
        check (.err (.invalidInput
          "unlock key must be stored outside the Sealed state directory")) := by
      unfold StatePaths.initializeState StatePaths.initializeChecks
      rw [Checked.reject_of inside]
      rfl
    rw [stops]
    exact follows_check (Checked.noPanic_err _)
  · have outside : unlockPath.startsWith root = false := Bool.eq_false_iff.2 inside
    have directories : ∀ paths, (∀ path ∈ paths, path ∈ stateDirectories root) →
        Follows (initializeEffects primitives root unlockPath draws) (createDirectories paths) := by
      intro paths meant
      induction paths with
      | nil => exact follows_return ()
      | cons path rest ih =>
          apply follows_bind (follows_createPrivateDirectory (meant path List.mem_cons_self))
          intro _
          exact ih fun other member => meant other (List.mem_cons_of_mem _ member)
    rw [initializeState_eq]
    apply follows_bind (follows_initializeChecks _ _)
    intro _
    rw [initializeDirectories_eq]
    apply follows_bind (directories _ fun _ member => member)
    intro _
    apply follows_checked (noPanic_drawIdentity draws)
    intro drawn computed
    obtain ⟨unlockKey, secrets, profile, encrypted⟩ := drawn
    obtain ⟨drawn, same⟩ := drawIdentity_eq_ok_iff.1 computed
    subst same
    have unlock : (initializeEffects primitives root unlockPath draws).file unlockPath
        (encodeUnlockKey unlockKey) :=
      ⟨unlockKey, secrets, encrypted, drawn, .inl ⟨rfl, outside, rfl⟩⟩
    have identity : (initializeEffects primitives root unlockPath draws).file
        (StatePaths.fromRoot root).identityPublic (secrets.publicProfile primitives).encode :=
      ⟨unlockKey, secrets, encrypted, drawn, .inr (.inl ⟨rfl, rfl⟩)⟩
    have secret : (initializeEffects primitives root unlockPath draws).file
        (StatePaths.fromRoot root).identityEncrypted encrypted :=
      ⟨unlockKey, secrets, encrypted, drawn, .inr (.inr ⟨rfl, rfl⟩)⟩
    apply follows_bind _ fun _ => follows_return _
    apply follows_bind (follows_writeNewPrivate unlock)
    intro _
    apply follows_bind (follows_writeNewPrivate identity)
    intro _
    apply follows_lift (follows_writeNewPrivate secret)
    intro result safe
    cases result with
    | ok _ => exact follows_return ()
    | error stopped =>
        apply follows_bind (@follows_attempt (initializeEffects primitives root unlockPath draws)
          (.removeFile (StatePaths.fromRoot root).identityPublic) fun _ => rfl)
        intro _
        exact follows_check safe

/-! ## `trust` -/

/-- What `trust_profile` may change once it has the profile: it pins it whole, under a valid
name. -/
def pinEffects (primitives : Primitives) (root : Path) (contactAlias : List UInt8)
    (profile : PublicProfile) : Effects where
  directory path := path = root.join (ascii "contacts")
  file path whole := validateAlias contactAlias = true ∧
    path = (StatePaths.fromRoot root).contactPath contactAlias ∧
    whole = profile.encode ∧ PublicProfile.parse primitives whole = .ok profile
  removal _ := False
  print _ := False

theorem follows_pinProfile {root : Path} {contactAlias : List UInt8} {profile : PublicProfile}
    (valid : validateAlias contactAlias = true)
    (made : PublicProfile.parse primitives profile.encode = .ok profile) :
    Follows (pinEffects primitives root contactAlias profile)
      ((StatePaths.fromRoot root).pinProfile primitives profile contactAlias) := by
  have looks := fun (request : FileCall) (readOnly : request.ReadOnly) => readOnly
  apply follows_bind (follows_createPrivateDirectory rfl)
  intro _
  apply follows_bind (follows_looking (makes_pathExists looks _))
  intro there
  cases there with
  | true =>
      apply follows_bind (follows_looking (makes_readRegularLimited looks _ _))
      intro stored
      apply follows_bind (follows_check (PublicProfile.noPanic_parse stored))
      intro pinned
      split
      · exact follows_return _
      · exact follows_check (Checked.noPanic_err _)
  | false =>
      have meant : (pinEffects primitives root contactAlias profile).file
          ((StatePaths.fromRoot root).contactPath contactAlias) profile.encode :=
        ⟨valid, rfl, rfl, made⟩
      apply follows_bind (follows_writeNewPrivate meant)
      intro _
      exact follows_return _

/-! ## What is read -/

/-- A function that only looks, with what is known of its value. -/
def Knows (holds : α → Prop) (storage : Storage α) : Prop :=
  Program.Confined (fun request : FileCall => request.ReadOnly)
    (fun result => Checked.NoPanic result ∧ ∀ value, result = .ok value → holds value) storage.run

theorem knows_check {result : Result α} (safe : Checked.NoPanic result) :
    Knows (fun value => result = .ok value) (check result) :=
  ⟨safe, fun _ same => same⟩

theorem knows_looking {storage : Storage α}
    (makes : Makes (fun request => request.ReadOnly) storage) : Knows (fun _ => True) storage :=
  Program.Confined.mono makes (fun _ => id) fun _ safe => ⟨safe, fun _ _ => trivial⟩

theorem Knows.mono {holds goal : α → Prop} {storage : Storage α} (knows : Knows holds storage)
    (values : ∀ value, holds value → goal value) : Knows goal storage :=
  Program.Confined.mono knows (fun _ => id) fun _ known =>
    ⟨known.1, fun value same => values value (known.2 value same)⟩

theorem knows_then {holds : α → Prop} {goal : β → Prop} {storage : Storage α}
    {rest : α → Storage β} (first : Knows holds storage)
    (next : ∀ value, holds value → Knows goal (rest value)) : Knows goal (storage >>= rest) := by
  apply Program.Confined.bind first
  intro result known
  cases result with
  | ok value => exact next value (known.2 value rfl)
  | error stopped => exact ⟨fun panicked => known.1 (by cases panicked; rfl), nofun⟩

theorem knows_parse (bytes : List UInt8) :
    Knows (fun profile => PublicProfile.parse primitives profile.encode = .ok profile)
      (check (PublicProfile.parse primitives bytes)) := by
  apply (knows_check (PublicProfile.noPanic_parse bytes)).mono
  intro profile parsed
  obtain ⟨_, same⟩ := PublicProfile.parse_eq_ok_iff.1 parsed
  subst same
  exact parsed

theorem knows_exportProfile (paths : StatePaths) :
    Knows (fun profile => PublicProfile.parse primitives profile.encode = .ok profile)
      (paths.exportProfile primitives) :=
  knows_then (knows_looking (makes_readRegularLimited (fun _ => id) _ _))
    fun bytes _ => knows_parse bytes

/-- `trust_profile` up to the profile that it pins. -/
def offeredProfile (primitives : Primitives) (source : Path) (contactAlias : List UInt8) :
    Storage PublicProfile := do
  check (.reject (¬ validateAlias contactAlias = true) (.invalidInput
    "contact name must contain only ASCII letters, digits, '-' or '_'"))
  let bytes ← readRegularLimited source 512
  check (PublicProfile.parse primitives bytes)

theorem trustProfile_eq (paths : StatePaths) (source : Path) (contactAlias : List UInt8) :
    paths.trustProfile primitives source contactAlias = (do
      let profile ← offeredProfile primitives source contactAlias
      paths.pinProfile primitives profile contactAlias) := by
  unfold StatePaths.trustProfile offeredProfile
  simp only [bind_assoc]

theorem knows_offeredProfile (source : Path) (contactAlias : List UInt8) :
    Knows (fun profile => validateAlias contactAlias = true ∧
        PublicProfile.parse primitives profile.encode = .ok profile)
      (offeredProfile primitives source contactAlias) := by
  apply knows_then (knows_check (Checked.noPanic_reject _ _))
  intro _ passed
  have valid : validateAlias contactAlias = true := by
    simpa using Checked.reject_eq_ok_iff.1 passed
  apply knows_then (knows_looking (makes_readRegularLimited (fun _ => id) _ _))
  intro bytes _
  exact (knows_parse bytes).mono fun _ made => ⟨valid, made⟩

end Storage

end Sealed
