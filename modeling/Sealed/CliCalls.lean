import Sealed.Cli
import Sealed.Foundation.FileSystemProperties
import Sealed.StorageCalls

/-! Which calls the parts of a command make, whatever the replies. -/

set_option autoImplicit false

namespace Sealed

open Foundation

/-- Calls that leave the file system as it is. -/
def CliCall.ReadOnly : CliCall → Prop
  | .file request => request.ReadOnly
  | .print _ | .flush | .readInput _ | .readLine | .choose _ => True

/-- Calls to the streams and the terminal. -/
def CliCall.Apart : CliCall → Prop
  | .file _ => False
  | .print _ | .flush | .readInput _ | .readLine | .choose _ => True

theorem CliCall.Apart.readOnly {request : CliCall} (apart : request.Apart) : request.ReadOnly := by
  cases request with
  | file request => exact apart.elim
  | print | flush | readInput | readLine | choose => trivial

theorem CliCall.respond_readOnly {caller : Nat} {request : CliCall} (readOnly : request.ReadOnly)
    (fs : FileSystem) (happened : CliOutcome) :
    (CliCall.respond caller fs request happened).2 = fs := by
  cases request with
  | file request => exact FileSystem.respond_readOnly readOnly _
  | print | flush | readInput | readLine | choose =>
      obtain ⟨outcome, _, _⟩ := happened
      cases outcome <;> rfl

/-- No call changes the working directory. -/
theorem CliCall.respond_working (caller : Nat) (fs : FileSystem) (request : CliCall)
    (happened : CliOutcome) :
    (CliCall.respond caller fs request happened).2.working = fs.working := by
  obtain ⟨outcome, input, choice⟩ := happened
  cases outcome with
  | failed => cases request <;> simp [CliCall.respond, FileSystem.respond_failed]
  | carriedOut chunk =>
      cases request with
      | print | flush | readInput | readLine | choose => rfl
      | file request =>
          cases request <;>
            simp only [CliCall.respond, FileSystem.respond, FileSystem.createDirAt,
              FileSystem.createNewAt, FileSystem.removeFileAt, FileSystem.append,
              FileSystem.createDirectory, FileSystem.createFile, FileSystem.remove] <;>
            repeat' split
          all_goals rfl

namespace Cli

variable {α β : Type} {allowed : CliCall → Prop} {primitives : Primitives}

theorem storage_bind (function : Storage α) (rest : α → Storage β) :
    storage (function >>= rest) = (storage function >>= fun value => storage (rest value)) := by
  have inject : ∀ program : Program FileCall.Reply (Checked Error α),
      Program.inject CliCall.file (fun _ reply => reply) (program >>= ExceptT.bindCont rest) =
        (Program.inject CliCall.file (fun _ reply => reply) program >>=
          ExceptT.bindCont fun value => storage (rest value) :
            Program CliCall.Reply (Checked Error β)) := by
    intro program
    induction program with
    | done result => cases result <;> rfl
    | call request next ih => exact congrArg _ (funext fun reply => ih reply)
  exact inject function.run

theorem storage_perform (request : FileCall) :
    storage (Storage.perform request) = perform (.file request) := by
  refine congrArg (Program.call (CliCall.file request)) (funext fun reply => ?_)
  cases reply <;> rfl

/-- The command makes only such calls. -/
def Makes (allowed : CliCall → Prop) (command : Cli α) : Prop :=
  Program.Confined allowed (fun _ => True) command.run

theorem makes_check (result : Result α) : Makes allowed (check result) := trivial

theorem makes_return (value : α) : Makes allowed (return value) := trivial

theorem makes_bind {command : Cli α} {rest : α → Cli β} (first : Makes allowed command)
    (next : ∀ value, Makes allowed (rest value)) : Makes allowed (command >>= rest) := by
  apply Program.Confined.bind first
  intro result _
  cases result with
  | ok value => exact next value
  | error stopped => trivial

theorem makes_perform {request : CliCall} (permitted : allowed request) :
    Makes allowed (perform request) := by
  refine ⟨permitted, fun reply => ?_⟩
  cases reply with
  | ok answer => trivial
  | error kind => trivial

theorem makes_storage {permitted : FileCall → Prop} {function : Storage α}
    (makes : Storage.Makes permitted function)
    (within : ∀ request, permitted request → allowed (.file request)) :
    Makes allowed (storage function) :=
  Program.Confined.inject (Program.Confined.mono makes (fun _ => id) fun _ _ => trivial) within

theorem makes_mapErr {command : Cli α} (makes : Makes allowed command) (change : Error → Error) :
    Makes allowed (mapErr command change) :=
  Program.Confined.bind makes fun _ _ => trivial

theorem makes_ite {condition : Prop} [Decidable condition] {first second : Cli α}
    (left : Makes allowed first) (right : Makes allowed second) :
    Makes allowed (if condition then first else second) := by
  split
  · exact left
  · exact right

/-! ## Prompts -/

theorem makes_projectLocalUnlockPath (environment : Environment) :
    Makes allowed (projectLocalUnlockPath environment) := by
  unfold projectLocalUnlockPath
  cases environment.projectDir with
  | some path => exact makes_return _
  | none => exact makes_bind (makes_check _) fun path => makes_return _

section Apart

variable (apart : ∀ request : CliCall, request.Apart → allowed request)
include apart

theorem makes_ask (request : CliCall) (away : request.Apart) : Makes allowed (perform request) :=
  makes_perform (apart request away)

theorem makes_prompt (default : Option (List UInt8)) : Makes allowed (prompt default) := by
  apply makes_bind (makes_ask apart .readLine trivial)
  intro (input : List UInt8)
  exact makes_ite (makes_check _) (makes_return _)

theorem makes_promptYesNo (defaultYes : Bool) : Makes allowed (promptYesNo defaultYes) := by
  apply makes_bind (makes_prompt apart _)
  intro answer
  apply makes_ite (makes_return _)
  apply makes_ite (makes_return _)
  exact makes_ite (makes_return _) (makes_check _)

theorem makes_readLetterFrom (rounds : Nat) (body : List UInt8) :
    Makes allowed (readLetterFrom rounds body) := by
  induction rounds generalizing body with
  | zero => exact makes_check _
  | succ rounds ih =>
      apply makes_bind (makes_ask apart .readLine trivial)
      intro (line : List UInt8)
      apply makes_ite (makes_check _)
      apply makes_ite (makes_return _)
      exact makes_ite (makes_check _) (ih _)

theorem makes_promptPath (environment : Environment) (default : Option (List UInt8)) :
    Makes allowed (promptPath environment default) := by
  apply makes_bind (makes_prompt apart default)
  intro entered
  exact makes_check _

theorem makes_promptUnlockPath (environment : Environment) :
    Makes allowed (promptUnlockPath environment) := by
  unfold promptUnlockPath
  cases environment.unlockKey with
  | some path => exact makes_return path
  | none => exact makes_promptPath apart environment none

theorem makes_resolveUnlockPath (environment : Environment) (supplied : Option Path) :
    Makes allowed (resolveUnlockPath environment supplied) := by
  unfold resolveUnlockPath
  cases supplied with
  | some path => exact makes_return path
  | none =>
      cases environment.unlockKey with
      | some path => exact makes_return path
      | none =>
          apply makes_bind (makes_ask apart .readLine trivial)
          intro (input : List UInt8)
          exact makes_ite (makes_check _) (makes_return _)

theorem makes_showLetter (wizard : Bool) (letter : OpenedLetter) :
    Makes allowed (showLetter wizard letter) := by
  apply makes_bind (makes_ask apart (.print letter.body) trivial)
  intro _
  have flushes : Makes allowed (perform .flush) := makes_ask apart .flush trivial
  apply makes_ite _ flushes
  apply makes_bind (makes_ask apart (.print [newline]) trivial)
  intro _
  exact flushes

end Apart

/-! ## Letters -/

section Looks

variable (looks : ∀ request : CliCall, request.ReadOnly → allowed request)
include looks

theorem makes_looking {function : Storage α}
    (makes : Storage.Makes (fun request => request.ReadOnly) function) :
    Makes allowed (storage function) :=
  makes_storage makes fun request readOnly => looks (.file request) readOnly

theorem makes_acceptLetter (paths : StatePaths) (keep : Bool) (blobPath unlockPath : Path) :
    Makes allowed (acceptLetter primitives paths keep blobPath unlockPath) := by
  apply makes_bind (makes_looking looks (Storage.makes_loadIdentity (fun _ => id) paths unlockPath))
  intro identity
  apply makes_bind (makes_looking looks (Storage.makes_allContacts (fun _ => id) paths))
  intro contacts
  apply makes_bind (makes_mapErr (makes_looking looks
    (Storage.makes_readRegularLimited (fun _ => id) blobPath maxBlobLen)) _)
  intro blob
  split
  · exact makes_return _
  · exact makes_check _

end Looks

/-- Commands that ask, and then open a letter. -/
inductive Opens (primitives : Primitives) (paths : StatePaths) : Cli (Opening primitives) → Prop
  where
  | accept (keep : Bool) (blobPath unlockPath : Path) :
      Opens primitives paths (acceptLetter primitives paths keep blobPath unlockPath)
  | asked {α : Type} {asks : Cli α} {rest : α → Cli (Opening primitives)} :
      Makes CliCall.Apart asks → (∀ value, Opens primitives paths (rest value)) →
      Opens primitives paths (asks >>= rest)

theorem opens_commandOpenLetter (environment : Environment) (paths : StatePaths)
    (args : List (List UInt8)) :
    Opens primitives paths (commandOpenLetter environment primitives paths args) := by
  apply Opens.asked (makes_check _)
  intro parsed
  apply Opens.asked (makes_check _)
  intro blobPath
  apply Opens.asked (makes_resolveUnlockPath (fun _ => id) environment _)
  intro unlockPath
  exact .accept _ _ _

theorem opens_wizardOpenLetter (environment : Environment) (paths : StatePaths) :
    Opens primitives paths (wizardOpenLetter environment primitives paths) := by
  apply Opens.asked (makes_promptPath (fun _ => id) environment none)
  intro blobPath
  apply Opens.asked (makes_promptUnlockPath (fun _ => id) environment)
  intro unlockPath
  apply Opens.asked (makes_promptYesNo (fun _ => id) true)
  intro consume
  exact .accept _ _ _

theorem Opens.makes {paths : StatePaths} {openLetter : Cli (Opening primitives)}
    (opens : Opens primitives paths openLetter) : Makes CliCall.ReadOnly openLetter := by
  induction opens with
  | accept keep blobPath unlockPath =>
      exact makes_acceptLetter (fun _ => id) paths keep blobPath unlockPath
  | asked asks _ ih =>
      have looks := Program.Confined.mono asks (fun _ => CliCall.Apart.readOnly) fun _ _ => trivial
      exact makes_bind looks ih

end Cli

end Sealed
