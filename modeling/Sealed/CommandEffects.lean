import Sealed.OpenCommands
import Sealed.PaddingProperties
import Sealed.StorageEffects

/-! What a command may change and print, whatever the replies. -/

set_option autoImplicit false

namespace Sealed

open Foundation

variable {primitives : Primitives} {environment : Environment}

namespace Effects

def permitsCli (effects : Effects) (last : LastFile) : CliCall → Prop
  | .file request => effects.permits last request
  | .print bytes => effects.print bytes
  | .flush | .readInput _ | .readLine | .choose _ => True

def advanceCli (last : LastFile) : (request : CliCall) → request.Reply → LastFile
  | .file request, reply => advance last request reply
  | .print _, _ | .flush, _ | .readInput _, _ | .readLine, _ | .choose _, _ => last

def cliMonitor (effects : Effects) : Monitor CliCall.Reply LastFile :=
  ⟨effects.permitsCli, advanceCli⟩

/-- The file that the calls created last. -/
def lastFile (events : List CliEvent) : LastFile := none.cliMonitor.after .none events

/-- What has such an effect has it in the other as well. -/
structure Within (few many : Effects) : Prop where
  directory : ∀ path, few.directory path → many.directory path
  file : ∀ path whole, few.file path whole → many.file path whole
  removal : ∀ path, few.removal path → many.removal path
  print : ∀ bytes, few.print bytes → many.print bytes

theorem Within.permitsCli {few many : Effects} (within : Within few many) (last : LastFile)
    (request : CliCall) (permits : few.permitsCli last request) : many.permitsCli last request := by
  cases request with
  | flush | readInput | readLine | choose => trivial
  | print bytes => exact within.print bytes permits
  | file request =>
      cases request with
      | lstat | stat | setMode | sync | openRead | fileLength | read | readDir => trivial
      | createDir path => exact within.directory path permits
      | removeFile path => exact within.removal path permits
      | createNew path =>
          obtain ⟨whole, meant⟩ := permits
          exact ⟨whole, within.file path whole meant⟩
      | write file bytes =>
          obtain ⟨path, whole, opened, meant, left⟩ := permits
          exact ⟨path, whole, opened, within.file path whole meant, left⟩

def any : Effects := ⟨fun _ => True, fun _ _ => True, fun _ => True, fun _ => True⟩

/-- Everything but removals. -/
def growing : Effects := { any with removal := fun _ => False }

theorem within_any (effects : Effects) : Within effects any :=
  ⟨fun _ _ => trivial, fun _ _ _ => trivial, fun _ _ => trivial, fun _ _ => trivial⟩

theorem within_growing {effects : Effects} (spares : ∀ path, ¬ effects.removal path) :
    Within effects growing :=
  ⟨fun _ _ => trivial, fun _ _ _ => trivial, spares, fun _ _ => trivial⟩

end Effects

namespace Cli

variable {α β : Type} {effects : Effects}

/-- The command has only such effects, and does not panic. -/
def Follows (effects : Effects) (command : Cli α) : Prop :=
  ∀ last, Program.Follows effects.cliMonitor (fun _ result => Checked.NoPanic result) command.run last

theorem Follows.within {many : Effects} {command : Cli α} (follows : Follows effects command)
    (within : Effects.Within effects many) : Follows many command :=
  fun last => (follows last).weaken within.permitsCli rfl

/-- Every call of a run has such an effect. -/
theorem Follows.among {command : Cli α} (follows : Follows effects command) {caller : Nat}
    {turns : List (FileSystem × CliOutcome)} {result : Option (Checked Error α)}
    {trace : List CliMoment} (ran : runAmong caller command turns = (result, trace)) :
    (∀ front moment back, trace = front ++ moment :: back →
      effects.permitsCli (Effects.lastFile (front.map Moment.event)) moment.event.request) ∧
    ∀ value, result = some value → Checked.NoPanic value := by
  have accepts : effects.cliMonitor.Accepts none
        ((runAmong caller command turns).2.map Moment.event) ∧
      ∀ value, (runAmong caller command turns).1 = some value → Checked.NoPanic value :=
    Program.Follows.among (follows none) turns
  rw [ran] at accepts
  constructor
  · intro front moment back split
    have accepted := accepts.1
    rw [split, List.map_append] at accepted
    exact accepted.permits
  · exact accepts.2

theorem follows_check {result : Result α} (safe : Checked.NoPanic result) :
    Follows effects (check result) := fun _ => safe

theorem follows_return (value : α) : Follows effects (return value) :=
  follows_check (Checked.noPanic_ok value)

theorem follows_bind {command : Cli α} {rest : α → Cli β} (first : Follows effects command)
    (next : ∀ value, Follows effects (rest value)) : Follows effects (command >>= rest) := by
  intro last
  apply Program.Follows.bind (first last)
  intro later result safe
  cases result with
  | ok value => exact next value later
  | error stopped => exact fun panicked => safe (by cases panicked; rfl)

theorem follows_checked {result : Result α} {rest : α → Cli β} (safe : Checked.NoPanic result)
    (next : ∀ value, result = .ok value → Follows effects (rest value)) :
    Follows effects (check result >>= rest) := by
  cases result with
  | ok value => exact next value rfl
  | error stopped => exact fun _ panicked => safe (by cases panicked; rfl)

theorem follows_perform {request : CliCall} (permits : ∀ last, effects.permitsCli last request) :
    Follows effects (perform request) := by
  intro last
  constructor
  · exact permits last
  · intro reply
    cases reply with
    | ok answer => exact Checked.noPanic_ok answer
    | error kind => exact Checked.noPanic_err _

theorem follows_storage {function : Storage α} (follows : Storage.Follows effects function) :
    Follows effects (storage function) := fun last =>
  (follows last).inject (fun _ _ permits => permits) fun _ _ _ => rfl

theorem follows_looking {function : Storage α}
    (makes : Storage.Makes (fun request => request.ReadOnly) function) :
    Follows effects (storage function) :=
  follows_storage (Storage.follows_looking makes)

theorem follows_mapErr {command : Cli α} (follows : Follows effects command)
    (change : Error → Error) : Follows effects (mapErr command change) := fun last =>
  Program.Follows.bind (follows last) fun _ _ safe => Checked.noPanic_mapErr safe

theorem follows_ite {condition : Prop} [Decidable condition] {first second : Cli α}
    (left : Follows effects first) (right : Follows effects second) :
    Follows effects (if condition then first else second) := by
  split
  · exact left
  · exact right

/-! ## Options and prompts -/

theorem noPanic_parseOptionsFrom (allowName allowOutput : Bool) (options : Options)
    (args : List (List UInt8)) :
    Checked.NoPanic (parseOptionsFrom allowName allowOutput options args) := by
  fun_induction parseOptionsFrom allowName allowOutput options args <;> simp_all

theorem noPanic_takeKeep (keep : Bool) (args : List (List UInt8)) :
    Checked.NoPanic (takeKeep keep args) := by
  fun_induction takeKeep keep args with
  | case1 keep => exact Checked.noPanic_ok _
  | case2 => exact Checked.noPanic_err _
  | case3 _ _ _ ih => exact ih
  | case4 _ _ _ _ ih => exact Checked.noPanic_bind ih fun _ _ => Checked.noPanic_ok _

theorem noPanic_parseOpenOptions (args : List (List UInt8)) :
    Checked.NoPanic (parseOpenOptions args) := by
  apply Checked.noPanic_bind (noPanic_takeKeep false args)
  intro taken _
  apply Checked.noPanic_bind (noPanic_parseOptionsFrom _ _ _ _)
  intro options _
  exact Checked.noPanic_bind (Checked.noPanic_reject _ _) fun _ _ => Checked.noPanic_ok _

theorem noPanic_single (options : Options) : Checked.NoPanic (single options) := by
  unfold single
  split
  · exact Checked.noPanic_ok _
  · exact Checked.noPanic_err _

theorem noPanic_expandHomePath (input : List UInt8) :
    Checked.NoPanic (expandHomePath environment input) := by
  unfold expandHomePath
  split
  · exact Checked.noPanic_okOr _ _
  · split
    · exact Checked.noPanic_bind (Checked.noPanic_okOr _ _) fun _ _ => Checked.noPanic_ok _
    · exact Checked.noPanic_ok _

theorem follows_prompt (default : Option (List UInt8)) : Follows effects (prompt default) := by
  apply follows_bind (@follows_perform effects .readLine fun _ => trivial)
  intro (input : List UInt8)
  exact follows_ite (follows_check (Checked.noPanic_okOr _ _)) (follows_return _)

theorem follows_promptYesNo (defaultYes : Bool) : Follows effects (promptYesNo defaultYes) := by
  apply follows_bind (follows_prompt _)
  intro answer
  apply follows_ite (follows_return _)
  apply follows_ite (follows_return _)
  exact follows_ite (follows_return _) (follows_check (Checked.noPanic_err _))

theorem follows_readLetterFrom (rounds : Nat) (body : List UInt8) :
    Follows effects (readLetterFrom rounds body) := by
  induction rounds generalizing body with
  | zero => exact follows_check (Checked.noPanic_err _)
  | succ rounds ih =>
      apply follows_bind (@follows_perform effects .readLine fun _ => trivial)
      intro (line : List UInt8)
      apply follows_ite (follows_check (Checked.noPanic_err _))
      apply follows_ite (follows_return _)
      exact follows_ite (follows_check (Checked.noPanic_err _)) (ih _)

theorem follows_promptPath (default : Option (List UInt8)) :
    Follows effects (promptPath environment default) := by
  apply follows_bind (follows_prompt default)
  intro entered
  exact follows_check (noPanic_expandHomePath entered)

theorem follows_promptUnlockPath : Follows effects (promptUnlockPath environment) := by
  unfold promptUnlockPath
  cases environment.unlockKey with
  | some path => exact follows_return path
  | none => exact follows_promptPath none

theorem follows_resolveUnlockPath (supplied : Option Path) :
    Follows effects (resolveUnlockPath environment supplied) := by
  unfold resolveUnlockPath
  cases supplied with
  | some path => exact follows_return path
  | none =>
      cases environment.unlockKey with
      | some path => exact follows_return path
      | none =>
          apply follows_bind (@follows_perform effects .readLine fun _ => trivial)
          intro (input : List UInt8)
          exact follows_ite (follows_check (Checked.noPanic_err _)) (follows_return _)

theorem follows_projectLocalUnlockPath : Follows effects (projectLocalUnlockPath environment) := by
  unfold projectLocalUnlockPath
  cases environment.projectDir with
  | some path => exact follows_return _
  | none =>
      apply follows_bind
      · apply follows_check
        cases environment.currentDir with
        | ok path => exact Checked.noPanic_ok path
        | error kind => exact Checked.noPanic_err _
      · exact fun path => follows_return _

/-- Only the directory itself is made, and those above it. -/
theorem follows_createDirAll (rounds : Nat) {path : Path}
    (meant : ∀ above, path.IsAncestor above → effects.directory above) :
    Follows effects (storage (Storage.createDirAll rounds path)) := by
  apply follows_storage
  intro last
  have makes := @Storage.makes_createDirAll
    (fun request => request.ReadOnly ∨ ∃ above, path.IsAncestor above ∧ request = .createDir above)
    (fun _ => .inl) rounds path fun above chain => .inr ⟨above, chain, rfl⟩
  have follows := Program.Confined.follows makes effects.monitor last
    (by
      intro request one
      rcases one with readOnly | ⟨above, chain, same⟩
      · exact Effects.permits_readOnly readOnly last
      · subst same
        exact meant above chain)
    (by
      intro request one reply
      rcases one with readOnly | ⟨above, _, same⟩
      · exact Effects.advance_readOnly readOnly last reply
      · subst same
        rfl)
  exact follows.mono fun _ _ held => held.2

/-! ## Letters -/

theorem noPanic_open (secrets : IdentitySecrets) (profile : PublicProfile)
    (contacts : List Contact) (blob : List UInt8) :
    Checked.NoPanic (Message.open primitives secrets profile contacts blob) := by
  intro panicked
  cases Message.open_stops secrets profile contacts blob .panic panicked

theorem noPanic_seal (secrets : IdentitySecrets) (profile recipient : PublicProfile)
    (body : List UInt8) (draws : SealDraws) :
    Checked.NoPanic (Message.seal primitives secrets profile recipient body draws) :=
  fun panicked => Message.seal_stops secrets profile recipient body draws .panic panicked (.inl rfl)

theorem follows_acceptLetter (paths : StatePaths) (keep : Bool) (blobPath unlockPath : Path) :
    Follows effects (acceptLetter primitives paths keep blobPath unlockPath) := by
  have looks := fun (request : FileCall) (readOnly : request.ReadOnly) => readOnly
  apply follows_bind (follows_looking (Storage.makes_loadIdentity looks paths unlockPath))
  intro identity
  apply follows_bind (follows_looking (Storage.makes_allContacts looks paths))
  intro contacts
  apply follows_bind (follows_mapErr (follows_looking
    (Storage.makes_readRegularLimited looks blobPath maxBlobLen)) _)
  intro blob
  split
  · exact follows_return _
  · rename_i stopped accepted
    apply follows_check
    intro panicked
    apply noPanic_open identity.1 identity.2 contacts blob
    rw [accepted]
    cases panicked
    rfl

theorem follows_commandOpenLetter (paths : StatePaths) (args : List (List UInt8)) :
    Follows effects (commandOpenLetter environment primitives paths args) := by
  apply follows_checked (noPanic_parseOpenOptions args)
  intro parsed _
  apply follows_checked (noPanic_single _)
  intro blobPath _
  apply follows_bind (follows_resolveUnlockPath _)
  intro unlockPath
  exact follows_acceptLetter _ _ _ _

theorem follows_wizardOpenLetter (paths : StatePaths) :
    Follows effects (wizardOpenLetter environment primitives paths) := by
  apply follows_bind (follows_promptPath none)
  intro blobPath
  apply follows_bind follows_promptUnlockPath
  intro unlockPath
  apply follows_bind (follows_promptYesNo true)
  intro consume
  exact follows_acceptLetter _ _ _ _

end Cli

end Sealed
