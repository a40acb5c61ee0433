import Sealed.CommandEffects
import Sealed.CommandSequences

/-! What each command means to do. It looks and asks until it knows, and from then on it has only
the effects that belong to what it has learnt in this very run. No command panics. -/

set_option autoImplicit false

namespace Sealed

open Foundation

variable {primitives : Primitives} {environment : Environment} {caller : Nat}

/-- Calls that change nothing and print nothing. -/
def CliCall.Passive : CliCall → Prop
  | .file request => request.ReadOnly
  | .print _ => False
  | .flush | .readInput _ | .readLine | .choose _ => True

namespace Effects

theorem passive_of_permits {last : LastFile} {request : CliCall}
    (permits : none.permitsCli last request) : request.Passive := by
  cases request with
  | flush | readInput | readLine | choose => trivial
  | print bytes => exact permits
  | file request =>
      cases request with
      | lstat | stat | setMode | sync | openRead | fileLength | read | readDir => trivial
      | createDir path => exact permits
      | removeFile path => exact permits
      | createNew path =>
          obtain ⟨_, meant⟩ := permits
          exact meant
      | write file bytes =>
          obtain ⟨_, _, _, meant, _⟩ := permits
          exact meant

theorem permits_passive {effects : Effects} {request : CliCall} (passive : request.Passive)
    (last : LastFile) : effects.permitsCli last request := by
  cases request with
  | flush | readInput | readLine | choose => trivial
  | print bytes => exact passive.elim
  | file request => exact permits_readOnly passive last

theorem advance_passive {request : CliCall} (passive : request.Passive) (last : LastFile)
    (reply : request.Reply) : advanceCli last request reply = last := by
  cases request with
  | print | flush | readInput | readLine | choose => rfl
  | file request => exact advance_readOnly passive last reply

end Effects

namespace Cli

variable {α β : Type} {effects many : Effects}

/-! ## What a command learns -/

/-- A command that only looks and asks, with what is known of its value. -/
def Knows (holds : α → Prop) (command : Cli α) : Prop :=
  Program.Confined CliCall.Passive
    (fun result => Checked.NoPanic result ∧ ∀ value, result = .ok value → holds value) command.run

theorem knows_check {result : Result α} (safe : Checked.NoPanic result) :
    Knows (fun value => result = .ok value) (check result) :=
  ⟨safe, fun _ same => same⟩

theorem knows_follows {command : Cli α} (follows : Follows .none command) :
    Knows (fun _ => True) command :=
  (follows none).confined (fun _ _ => Effects.passive_of_permits)
    fun _ _ safe => ⟨safe, fun _ _ => trivial⟩

theorem knows_storage {holds : α → Prop} {function : Storage α}
    (knows : Storage.Knows holds function) : Knows holds (storage function) :=
  Program.Confined.inject knows fun _ readOnly => readOnly

theorem Knows.mapErr {holds : α → Prop} {command : Cli α} (knows : Knows holds command)
    (change : Error → Error) : Knows holds (mapErr command change) := by
  apply Program.Confined.bind knows
  intro result known
  exact ⟨Checked.noPanic_mapErr known.1,
    fun value same => known.2 value (Checked.mapErr_eq_ok_iff.1 same)⟩

theorem Knows.follows {holds : α → Prop} {asks : Cli α} {rest : α → Cli β}
    (knows : Knows holds asks) (next : ∀ value, holds value → Follows effects (rest value)) :
    Follows effects (asks >>= rest) := by
  intro last
  have follows := Program.Confined.follows knows effects.cliMonitor last
    (fun request passive => Effects.permits_passive passive last)
    fun request passive reply => Effects.advance_passive passive last reply
  apply Program.Follows.bind follows
  intro later result known
  cases result with
  | ok value => exact next value (known.2.2 value rfl) later
  | error stopped => exact fun panicked => known.2.1 (by cases panicked; rfl)

/-! ## What a command intends -/

/-- The command learns what the intention does, and then has only the effects that the intention
comes to, which are some of these. -/
inductive Intends (many : Effects) : Cli Effects → Cli α → Prop where
  | act {effects : Effects} {command : Cli α} :
      Follows effects command → Effects.Within effects many →
        Intends many (return effects) command
  | learn {β : Type} {holds : β → Prop} {asks : Cli β} {intention : β → Cli Effects}
      {rest : β → Cli α} :
      Knows holds asks → (∀ value, holds value → Intends many (intention value) (rest value)) →
        Intends many (asks >>= intention) (asks >>= rest)

theorem Intends.ask {asks : Cli β} {intention : β → Cli Effects} {rest : β → Cli α}
    (follows : Follows .none asks) (next : ∀ value, Intends many (intention value) (rest value)) :
    Intends many (asks >>= intention) (asks >>= rest) :=
  .learn (knows_follows follows) fun value _ => next value

theorem Intends.checked {result : Result β} {intention : β → Cli Effects} {rest : β → Cli α}
    (safe : Checked.NoPanic result)
    (next : ∀ value, result = .ok value → Intends many (intention value) (rest value)) :
    Intends many (check result >>= intention) (check result >>= rest) :=
  .learn (knows_check safe) next

theorem Intends.follows {intention : Cli Effects} {command : Cli α}
    (intends : Intends many intention command) : Follows many command := by
  induction intends with
  | act follows within => exact follows.within within
  | learn knows _ ih => exact knows.follows ih

/-- A call that is more than a look or a question comes after the intention is known, and is one
of those that it permits. -/
theorem Intends.changes {intention : Cli Effects} {command : Cli α}
    (intends : Intends many intention command) {turns : List (FileSystem × CliOutcome)}
    {front back : List CliMoment} {moment : CliMoment}
    (trace : (runAmong caller command turns).2 = front ++ moment :: back) :
    moment.event.request.Passive ∨ ∃ effects before since,
      runAmong caller intention turns = (some (.ok effects), before) ∧ front = before ++ since ∧
      effects.permitsCli (Effects.lastFile (since.map Moment.event)) moment.event.request := by
  induction intends generalizing turns front with
  | act follows _ =>
      exact .inr ⟨_, [], front, rfl, rfl, (follows.among rfl).1 front moment back trace⟩
  | @learn β holds asks intention rest knows _ ih =>
      obtain ⟨calls, values⟩ : (∀ moment ∈ (runAmong caller asks turns).2,
            moment.event.request.Passive) ∧
          ∀ result, (runAmong caller asks turns).1 = some result →
            Checked.NoPanic result ∧ ∀ value, result = .ok value → holds value :=
        Program.Confined.among knows turns
      rcases Program.runAmong_andThen_either trace with ⟨others, asking⟩ |
        ⟨value, first, second, _, ran, split, _⟩
      · left
        apply calls moment
        rw [asking]
        simp
      · have whole : runAmong caller (asks >>= rest) turns = _ :=
          Program.runAmong_andThen_value ran
        have later := congrArg Prod.snd whole
        rw [trace, split, List.append_assoc] at later
        have held := (values _ (congrArg Prod.fst ran)).2 value rfl
        rcases ih value held (List.append_cancel_left later).symm with passive |
          ⟨effects, before, since, meant, same, permits⟩
        · exact .inl passive
        · have intended : runAmong caller (asks >>= intention) turns = _ :=
            Program.runAmong_andThen_value ran
          refine .inr ⟨effects, first ++ before, since, ?_, ?_, permits⟩
          · exact intended.trans (congrArg (fun run => (run.1, first ++ run.2)) meant)
          · rw [split, same, List.append_assoc]

/-! ## The effects of what was learnt -/

/-- A blob goes to the file that was asked for, or it is printed. -/
def sealEffects : Option Path → List UInt8 → Effects
  | some path, blob => .writing path blob
  | none, blob => .printing blob

/-- A letter that was opened is shown, and its file may go unless it is to be kept. The wizard
ends the last line. -/
def openEffects (wizard : Bool) (opening : Opening primitives) : Effects where
  directory _ := False
  file _ _ := False
  removal path := opening.keep = false ∧ path = opening.blobPath
  print bytes := bytes = opening.letter.body ∨
    wizard = true ∧ bytes = [newline] ∧ opening.letter.body.getLast? ≠ some newline

/-- The wizard also makes the directory of the key, and those above it. -/
def wizardInitEffects (primitives : Primitives) (root unlockPath : Path) (draws : InitializeDraws) :
    Effects :=
  { Storage.initializeEffects primitives root unlockPath draws with
    directory := fun path =>
      path ∈ Storage.stateDirectories root ∨ (Storage.parentOrHere unlockPath).IsAncestor path }

section

variable (environment : Environment) (primitives : Primitives) (paths : StatePaths)

def intendInit (args : List (List UInt8)) (draws : InitializeDraws) : Cli Effects := do
  let options ← check (parseOptions false false args)
  check (.reject (options.positionals ≠ []) (.usage usage))
  let unlockPath ← resolveUnlockPath environment options.unlockPath
  return Storage.initializeEffects primitives paths.root unlockPath draws

def intendIdentity (args : List (List UInt8)) : Cli Effects := do
  check (.reject (args ≠ [ascii "export"]) (.usage usage))
  let profile ← storage (paths.exportProfile primitives)
  return .printing profile.encode

def intendTrust (args : List (List UInt8)) : Cli Effects := do
  let options ← check (parseOptions true false args)
  let source := Path.ofBytes (← check (single options))
  let contactAlias ←
    match options.contactAlias with
    | some contactAlias => pure contactAlias
    | none => check (.okOr
        ((source.fileName.bind fun name => fromUtf8 (fileStem name)).filter fun stem =>
          validateAlias stem)
        (.invalidInput "cannot derive a safe contact name; use --name NAME"))
  let profile ← storage (Storage.offeredProfile primitives source contactAlias)
  return Storage.pinEffects primitives paths.root contactAlias profile

def intendSeal (args : List (List UInt8)) (draws : SealDraws) : Cli Effects := do
  let options ← check (parseOptions false true args)
  let contactAlias ← check (.okOr (fromUtf8 (← check (single options)))
    (.invalidInput "contact name is not valid UTF-8"))
  let contact ← storage (paths.contact primitives contactAlias)
  let unlockPath ← resolveUnlockPath environment options.unlockPath
  let (secrets, profile) ← storage (paths.loadIdentity primitives unlockPath)
  let body : List UInt8 ← perform (.readInput (maxBodyLen + 1))
  check (.reject (body.length > maxBodyLen)
    (.invalidInput "message body exceeds the 1 MiB limit"))
  let blob ← check (Message.seal primitives secrets profile contact.profile body draws)
  return sealEffects options.output blob

def intendOpen (args : List (List UInt8)) : Cli Effects := do
  let opening ← commandOpenLetter environment primitives paths args
  return openEffects false opening

def intendWizardInit (draws : InitializeDraws) : Cli Effects := do
  let defaultUnlockPath ← projectLocalUnlockPath environment
  let unlockPath ← promptPath environment (some defaultUnlockPath.display)
  return wizardInitEffects primitives paths.root unlockPath draws

def intendWizardExport : Cli Effects := do
  let profile ← mapErr (storage (paths.exportProfile primitives))
    fun _ => .notFound "identity is not initialized; choose option 1 first"
  let destination ← promptPath environment (some (ascii "sealed-profile.pub"))
  return .writing destination profile.encode

def intendWizardTrust : Cli Effects := do
  let profilePath ← promptPath environment none
  let defaultAlias := (profilePath.fileName.bind fun name => fromUtf8 (fileStem name)).filter
    fun stem => validateAlias stem
  let contactAlias ← prompt defaultAlias
  check (.reject (¬ validateAlias contactAlias = true)
    (.invalidInput "contact name may contain only letters, digits, '-' or '_'"))
  let profile ← storage (Storage.offeredProfile primitives profilePath contactAlias)
  return Storage.pinEffects primitives paths.root contactAlias profile

def intendWizardSeal (draws : SealDraws) : Cli Effects := do
  let contacts ← storage (paths.allContacts primitives)
  check (.reject (contacts = [])
    (.notFound "no pinned contacts; import a public profile with option 3"))
  let choice : Option Nat ← perform (.choose contacts.length)
  let index ← check (.okOr choice (.invalidInput "recipient selection cancelled"))
  let selected ← check (.okOr contacts[index]? (.invalidInput "invalid recipient selection"))
  let unlockPath ← promptUnlockPath environment
  let outputPath ← promptPath environment
    (some (ascii "letter-for-" ++ selected.alias ++ ascii ".bin"))
  let body ← readMultilineLetter
  check (.reject (body = []) (.invalidInput "letter body cannot be empty"))
  let (secrets, profile) ← storage (paths.loadIdentity primitives unlockPath)
  let blob ← check (Message.seal primitives secrets profile selected.profile body draws)
  return .writing outputPath blob

def intendWizardOpen : Cli Effects := do
  let opening ← wizardOpenLetter environment primitives paths
  return openEffects true opening

end

/-! ## Each command has its intention -/

theorem intends_commandInit (root : Path) (args : List (List UInt8)) (draws : InitializeDraws) :
    Intends .any (intendInit environment primitives (.fromRoot root) args draws)
      (commandInit environment primitives (.fromRoot root) args draws) := by
  apply Intends.checked (noPanic_parseOptionsFrom _ _ _ _)
  intro options _
  apply Intends.checked (Checked.noPanic_reject _ _)
  intro _ _
  apply Intends.ask (follows_resolveUnlockPath _)
  intro unlockPath
  apply Intends.act _ (Effects.within_any _)
  apply follows_bind (follows_storage (Storage.follows_initializeState root unlockPath draws))
  exact fun profile => follows_return ()

theorem intends_commandIdentity (paths : StatePaths) (args : List (List UInt8)) :
    Intends .growing (intendIdentity primitives paths args)
      (commandIdentity primitives paths args) := by
  apply Intends.checked (Checked.noPanic_reject _ _)
  intro _ _
  apply Intends.learn (knows_storage (Storage.knows_exportProfile paths))
  intro profile _
  apply Intends.act _ (Effects.within_growing fun _ => id)
  exact @follows_perform (.printing profile.encode) (.print profile.encode) fun _ => rfl

theorem intends_trust (root source : Path) (contactAlias : List UInt8) :
    Intends .growing
      (do
        let profile ← storage (Storage.offeredProfile primitives source contactAlias)
        return Storage.pinEffects primitives root contactAlias profile)
      (do let _profile ← storage ((StatePaths.fromRoot root).trustProfile primitives source
            contactAlias)) := by
  rw [Storage.trustProfile_eq, storage_bind, bind_assoc]
  apply Intends.learn (knows_storage (Storage.knows_offeredProfile source contactAlias))
  intro profile known
  apply Intends.act _ (Effects.within_growing fun _ => id)
  apply follows_bind (follows_storage (Storage.follows_pinProfile known.1 known.2))
  exact fun _ => follows_return ()

theorem intends_commandTrust (root : Path) (args : List (List UInt8)) :
    Intends .growing (intendTrust primitives (.fromRoot root) args)
      (commandTrust primitives (.fromRoot root) args) := by
  apply Intends.checked (noPanic_parseOptionsFrom _ _ _ _)
  intro options _
  apply Intends.checked (noPanic_single _)
  intro source _
  cases options.contactAlias with
  | some contactAlias => exact intends_trust root _ contactAlias
  | none =>
      apply Intends.checked (Checked.noPanic_okOr _ _)
      exact fun contactAlias _ => intends_trust root _ contactAlias

theorem intends_commandSeal (paths : StatePaths) (args : List (List UInt8)) (draws : SealDraws) :
    Intends .growing (intendSeal environment primitives paths args draws)
      (commandSeal environment primitives paths args draws) := by
  have looks := fun (request : FileCall) (readOnly : request.ReadOnly) => readOnly
  apply Intends.checked (noPanic_parseOptionsFrom _ _ _ _)
  intro options _
  apply Intends.checked (noPanic_single _)
  intro positional _
  apply Intends.checked (Checked.noPanic_okOr _ _)
  intro contactAlias _
  apply Intends.ask (follows_looking (Storage.makes_contact looks paths contactAlias))
  intro contact
  apply Intends.ask (follows_resolveUnlockPath _)
  intro unlockPath
  apply Intends.ask (follows_looking (Storage.makes_loadIdentity looks paths unlockPath))
  intro identity
  apply Intends.ask (@follows_perform _ (.readInput (maxBodyLen + 1)) fun _ => trivial)
  intro (body : List UInt8)
  apply Intends.checked (Checked.noPanic_reject _ _)
  intro _ _
  apply Intends.checked (noPanic_seal _ _ _ _ _)
  intro blob _
  cases options.output with
  | some path =>
      apply Intends.act _ (Effects.within_growing fun _ => id)
      exact follows_storage (Storage.follows_writeNewPrivate ⟨rfl, rfl⟩)
  | none =>
      apply Intends.act _ (Effects.within_growing fun _ => id)
      exact follows_bind (@follows_perform (.printing blob) (.print blob) fun _ => rfl)
        fun _ => @follows_perform _ .flush fun _ => trivial

theorem follows_deliverLetter (wizard : Bool) (opening : Opening primitives) :
    Follows (openEffects wizard opening) (deliverLetter wizard opening) := by
  have flushes := @follows_perform (openEffects wizard opening) .flush fun _ => trivial
  apply follows_bind
  · apply follows_bind (@follows_perform (openEffects wizard opening) (.print opening.letter.body)
      fun _ => .inl rfl)
    intro _
    dsimp only
    split
    · rename_i ends
      exact follows_bind (@follows_perform (openEffects wizard opening) (.print [newline])
        fun _ => .inr ⟨ends.1, rfl, ends.2⟩) fun _ => flushes
    · exact flushes
  · intro _
    cases kept : opening.keep with
    | true => exact follows_return ()
    | false =>
        apply follows_storage
        apply Storage.follows_bind (Storage.follows_looking
          (Storage.makes_ensureFileType (fun _ => id) _ _ _))
        intro _
        exact @Storage.follows_perform (openEffects wizard opening)
          (.removeFile opening.blobPath) fun _ => ⟨kept, rfl⟩

theorem intends_delivers (wizard : Bool) {openLetter : Cli (Opening primitives)}
    (follows : Follows .none openLetter) :
    Intends .any (do
        let opening ← openLetter
        return openEffects wizard opening)
      (openLetter >>= deliverLetter wizard) :=
  .ask follows fun opening => .act (follows_deliverLetter wizard opening) (Effects.within_any _)

theorem intends_wizardInit (root : Path) (draws : InitializeDraws) :
    Intends .any (intendWizardInit environment primitives (.fromRoot root) draws)
      (wizardInit environment primitives (.fromRoot root) draws) := by
  apply Intends.ask follows_projectLocalUnlockPath
  intro defaultUnlockPath
  apply Intends.ask (follows_promptPath _)
  intro unlockPath
  apply Intends.act _ (Effects.within_any _)
  have within : Effects.Within (Storage.initializeEffects primitives root unlockPath draws)
      (wizardInitEffects primitives root unlockPath draws) :=
    ⟨fun _ => .inl, fun _ _ => id, fun _ => id, fun _ => id⟩
  have finish : Follows (wizardInitEffects primitives root unlockPath draws)
      (do let _profile ← storage
            ((StatePaths.fromRoot root).initializeState primitives unlockPath draws)) :=
    follows_bind ((follows_storage (Storage.follows_initializeState root unlockPath draws)).within
      within) fun profile => follows_return ()
  have makes := fun rounds => @follows_createDirAll
    (wizardInitEffects primitives root unlockPath draws) rounds _ fun _ => .inr
  apply follows_bind (follows_looking (Storage.makes_pathExists (fun _ => id) _))
  intro there
  dsimp only
  split
  · split
    · exact follows_bind (makes _) fun _ => finish
    · apply follows_bind (follows_promptYesNo true)
      intro create
      apply follows_checked (Checked.noPanic_reject _ _)
      intro _ _
      exact follows_bind (makes _) fun _ => finish
  · exact finish

theorem intends_wizardExport (paths : StatePaths) :
    Intends .growing (intendWizardExport environment primitives paths)
      (wizardExport environment primitives paths) := by
  apply Intends.learn ((knows_storage (Storage.knows_exportProfile paths)).mapErr _)
  intro profile _
  apply Intends.ask (follows_promptPath _)
  intro destination
  apply Intends.act _ (Effects.within_growing fun _ => id)
  exact follows_storage (Storage.follows_writeNewPrivate ⟨rfl, rfl⟩)

theorem intends_wizardTrust (root : Path) :
    Intends .growing (intendWizardTrust environment primitives (.fromRoot root))
      (wizardTrust environment primitives (.fromRoot root)) := by
  apply Intends.ask (follows_promptPath none)
  intro profilePath
  apply Intends.ask (follows_prompt _)
  intro contactAlias
  apply Intends.checked (Checked.noPanic_reject _ _)
  exact fun _ _ => intends_trust root profilePath contactAlias

theorem intends_wizardSeal (paths : StatePaths) (draws : SealDraws) :
    Intends .growing (intendWizardSeal environment primitives paths draws)
      (wizardSeal environment primitives paths draws) := by
  have looks := fun (request : FileCall) (readOnly : request.ReadOnly) => readOnly
  apply Intends.ask (follows_looking (Storage.makes_allContacts looks paths))
  intro contacts
  apply Intends.checked (Checked.noPanic_reject _ _)
  intro _ _
  apply Intends.ask (@follows_perform _ (.choose contacts.length) fun _ => trivial)
  intro (choice : Option Nat)
  apply Intends.checked (Checked.noPanic_okOr _ _)
  intro index _
  apply Intends.checked (Checked.noPanic_okOr _ _)
  intro selected _
  apply Intends.ask follows_promptUnlockPath
  intro unlockPath
  apply Intends.ask (follows_promptPath _)
  intro outputPath
  apply Intends.ask (follows_readLetterFrom _ _)
  intro body
  apply Intends.checked (Checked.noPanic_reject _ _)
  intro _ _
  apply Intends.ask (follows_looking (Storage.makes_loadIdentity looks paths unlockPath))
  intro identity
  apply Intends.checked (noPanic_seal _ _ _ _ _)
  intro blob _
  apply Intends.act _ (Effects.within_growing fun _ => id)
  exact follows_storage (Storage.follows_writeNewPrivate ⟨rfl, rfl⟩)

end Cli

/-! ## All commands -/

namespace Command

/-- What the command means to do, once it knows. -/
def intention (primitives : Primitives) (environment : Environment) (command : Command) :
    Cli Effects := do
  let paths ← Cli.check (Cli.discover environment)
  match command with
  | .init args draws => Cli.intendInit environment primitives paths args draws
  | .identity args => Cli.intendIdentity primitives paths args
  | .trust args => Cli.intendTrust primitives paths args
  | .«seal» args draws => Cli.intendSeal environment primitives paths args draws
  | .«open» args => Cli.intendOpen environment primitives paths args
  | .wizardInit draws => Cli.intendWizardInit environment primitives paths draws
  | .wizardExport => Cli.intendWizardExport environment primitives paths
  | .wizardTrust => Cli.intendWizardTrust environment primitives paths
  | .wizardSeal draws => Cli.intendWizardSeal environment primitives paths draws
  | .wizardOpen => Cli.intendWizardOpen environment primitives paths

/-- Only `init` and `open` take names away. -/
def scope : Command → Effects
  | .init _ _ | .wizardInit _ | .«open» _ | .wizardOpen => .any
  | .identity _ | .trust _ | .«seal» _ _ | .wizardExport | .wizardTrust | .wizardSeal _ => .growing

theorem noPanic_discover (environment : Environment) :
    Checked.NoPanic (Cli.discover environment) := by
  unfold Cli.discover
  split
  · exact Checked.noPanic_ok _
  · exact Checked.noPanic_bind (Checked.noPanic_okOr _ _) fun _ _ => Checked.noPanic_ok _

theorem intends (command : Command) (environment : Environment) :
    Cli.Intends command.scope (command.intention primitives environment)
      (command.run primitives environment) := by
  apply Cli.Intends.checked (noPanic_discover environment)
  intro paths discovered
  obtain ⟨root, same⟩ := discover_root discovered
  subst same
  cases command with
  | init args draws => exact Cli.intends_commandInit root args draws
  | identity args => exact Cli.intends_commandIdentity _ args
  | trust args => exact Cli.intends_commandTrust root args
  | «seal» args draws => exact Cli.intends_commandSeal _ args draws
  | «open» args => exact Cli.intends_delivers false (Cli.follows_commandOpenLetter _ args)
  | wizardInit draws => exact Cli.intends_wizardInit root draws
  | wizardExport => exact Cli.intends_wizardExport _
  | wizardTrust => exact Cli.intends_wizardTrust root
  | wizardSeal draws => exact Cli.intends_wizardSeal _ draws
  | wizardOpen => exact Cli.intends_delivers true (Cli.follows_wizardOpenLetter _)

theorem follows_scope (command : Command) (environment : Environment) :
    Cli.Follows command.scope (command.run primitives environment) :=
  (command.intends environment).follows

/-- No command panics, whatever its arguments, the files, the terminal and the random source
are, as long as standard error can be written. -/
theorem never_panics (primitives : Primitives) (environment : Environment) (command : Command)
    (caller : Nat) (turns : List (FileSystem × CliOutcome)) :
    (Cli.runAmong caller (command.run primitives environment) turns).1 ≠
      some (.error .panic) := by
  intro panicked
  exact ((command.follows_scope environment).among rfl).2 _ panicked rfl

end Command

end Sealed
