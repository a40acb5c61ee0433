import Sealed.Foundation.Interference
import Sealed.Message
import Sealed.Storage

/-! The commands and the wizards. What they show on stderr is left out: it is taken to be
writable, since `eprintln!` and `eprint!` panic where it is not. A choice from a list is one
call. -/

set_option autoImplicit false

namespace Sealed

open Foundation

/-- The calls of a command: to the file system, to its standard streams and to the terminal. -/
inductive CliCall where
  | file (request : FileCall)
  | print (bytes : List UInt8)
  | flush
  | readInput (limit : Nat)
  | readLine
  | choose (choices : Nat)
deriving DecidableEq

namespace CliCall

abbrev Answer : CliCall → Type
  | .file request => request.Answer
  | .print _ | .flush => Unit
  | .readInput _ | .readLine => List UInt8
  | .choose _ => Option Nat

abbrev Reply (request : CliCall) : Type := Except IoErrorKind request.Answer

end CliCall

/-- What happens to a call, and what the user supplies if it asks for something. -/
structure CliOutcome where
  outcome : Outcome
  input : List UInt8
  choice : Option Nat

/-- The answer to a call of a command, and the file system after it. -/
def CliCall.respond (caller : Nat) (fs : FileSystem) :
    (request : CliCall) → CliOutcome → request.Reply × FileSystem
  | .file request, happened => FileSystem.respond caller fs request happened.outcome
  | _, ⟨.failed, _, _⟩ => (.error .other, fs)
  | .print _, _ | .flush, _ => (.ok (), fs)
  | .readInput limit, happened => (.ok (happened.input.take limit), fs)
  | .readLine, happened =>
      (match fromUtf8 happened.input with
        | some line => .ok line
        | none => .error .other, fs)
  | .choose _, happened => (.ok happened.choice, fs)

abbrev CliEvent := Foundation.Event CliCall.Reply CliOutcome

/-- The variables of the process environment, and its working directory. -/
structure Environment where
  sealedHome : Option Path
  unlockKey : Option Path
  projectDir : Option Path
  home : Option Path
  currentDir : Except IoErrorKind Path

abbrev Cli (α : Type) := ExceptT (Abort Error) (Program CliCall.Reply) α

namespace Cli

def perform (request : CliCall) : Cli request.Answer :=
  ExceptT.mk ((Program.perform request : Program CliCall.Reply _) >>= fun reply =>
    match reply with
    | .ok answer => pure (.ok answer)
    | .error kind => pure (.error (.error (.io kind))))

def check {α : Type} (result : Result α) : Cli α := ExceptT.mk (pure result)

def storage {α : Type} (function : Storage α) : Cli α :=
  ExceptT.mk (function.run.inject .file fun _ reply => reply)

/-- `Result::map_err`. -/
def mapErr {α : Type} (command : Cli α) (change : Error → Error) : Cli α :=
  ExceptT.mk (command.run >>= fun result => pure (Checked.mapErr result change))

/-! ## Options -/

def usage : String :=
  "Usage:\n  sealed                         Interactive terminal\n  sealed init [--unlock-key PATH]\n  sealed identity export\n  sealed trust PROFILE [--name NAME]\n  sealed seal CONTACT [--unlock-key PATH] [--output BLOB]\n  sealed open BLOB [--unlock-key PATH] [--keep]"

/-- What `parse_options` returns. Arguments are kept as their bytes. -/
structure Options where
  positionals : List (List UInt8)
  unlockPath : Option Path
  contactAlias : Option (List UInt8)
  output : Option Path

/-- The loop of `parse_options`, from an index on. -/
def parseOptionsFrom (allowName allowOutput : Bool) :
    Options → List (List UInt8) → Result Options
  | options, [] => .ok options
  | options, arg :: rest =>
      match fromUtf8 arg with
      | none =>
          parseOptionsFrom allowName allowOutput
            { options with positionals := options.positionals ++ [arg] } rest
      | some text =>
          if text = ascii "--unlock-key" then
            match rest with
            | [] => .err (.usage usage)
            | value :: rest =>
                parseOptionsFrom allowName allowOutput
                  { options with unlockPath := some (.ofBytes value) } rest
          else if text = ascii "--name" ∧ allowName = true then
            match rest with
            | [] => .err (.usage usage)
            | value :: rest =>
                match fromUtf8 value with
                | none => .err (.usage usage)
                | some name =>
                    parseOptionsFrom allowName allowOutput
                      { options with contactAlias := some name } rest
          else if text = ascii "--output" ∧ allowOutput = true then
            match rest with
            | [] => .err (.usage usage)
            | value :: rest =>
                parseOptionsFrom allowName allowOutput
                  { options with output := some (.ofBytes value) } rest
          else if (ascii "-").isPrefixOf text then .err (.usage usage)
          else
            parseOptionsFrom allowName allowOutput
              { options with positionals := options.positionals ++ [arg] } rest

def parseOptions (allowName allowOutput : Bool) (args : List (List UInt8)) : Result Options :=
  parseOptionsFrom allowName allowOutput ⟨[], none, none, none⟩ args

/-- The first loop of `parse_open_options`: the arguments without `--keep`, and whether it
is among them. -/
def takeKeep : Bool → List (List UInt8) → Result (List (List UInt8) × Bool)
  | keep, [] => .ok ([], keep)
  | keep, arg :: rest =>
      if arg = ascii "--keep" then
        if keep then .err (.usage usage) else takeKeep true rest
      else do
        let (filtered, keep) ← takeKeep keep rest
        return (arg :: filtered, keep)

def parseOpenOptions (args : List (List UInt8)) : Result (Options × Bool) := do
  let (filtered, keep) ← takeKeep false args
  let options ← parseOptions false false filtered
  .reject (options.output.isSome = true) (.usage usage)
  return (options, keep)

/-- The only positional argument. -/
def single (options : Options) : Result (List UInt8) :=
  match options.positionals with
  | [positional] => .ok positional
  | _ => .err (.usage usage)

/-! ## Prompts -/

def prompt (default : Option (List UInt8)) : Cli (List UInt8) := do
  let input : List UInt8 ← perform .readLine
  let trimmed := trim input
  if trimmed = [] then check (.okOr default (.invalidInput "input cannot be empty"))
  else return trimmed

def promptYesNo (defaultYes : Bool) : Cli Bool := do
  let default := if defaultYes then ascii "Y/n" else ascii "y/N"
  let answer ← prompt (some default)
  if answer = default then return defaultYes
  else if toAsciiLowercase answer ∈ [ascii "y", ascii "yes"] then return true
  else if toAsciiLowercase answer ∈ [ascii "n", ascii "no"] then return false
  else check (.err (.invalidInput "answer with y or n"))

/-- The loop of `read_multiline_letter`. Every line has a byte, so that the limit ends it. -/
def readLetterFrom : Nat → List UInt8 → Cli (List UInt8)
  | 0, _ => check (.err (.invalidInput "message body exceeds the 1 MiB limit"))
  | rounds + 1, body => do
      let line : List UInt8 ← perform .readLine
      let ended := (line.reverse.dropWhile fun byte => byte = carriageReturn ∨ byte = newline).reverse
      if line = [] then
        check (.err (.invalidInput "terminal input ended before the final dot"))
      else if ended = ascii "." then return body
      else if body.length + line.length > maxBodyLen then
        check (.err (.invalidInput "message body exceeds the 1 MiB limit"))
      else readLetterFrom rounds (body ++ line)

def readMultilineLetter : Cli (List UInt8) := readLetterFrom (maxBodyLen + 1) []

variable (environment : Environment)

def homeDirectory : Result Path :=
  .okOr environment.home (.notFound "home directory is unavailable")

def expandHomePath (input : List UInt8) : Result Path :=
  if input = ascii "~" then homeDirectory environment
  else
    match stripPrefix (ascii "~/") input with
    | some remainder => do return (← homeDirectory environment).push (.ofBytes remainder)
    | none => .ok (.ofBytes input)

def promptPath (default : Option (List UInt8)) : Cli Path := do
  let entered ← prompt default
  check (expandHomePath environment entered)

def promptUnlockPath : Cli Path :=
  match environment.unlockKey with
  | some path => return path
  | none => promptPath environment none

def readPathFromTerminal : Cli Path := do
  let input : List UInt8 ← perform .readLine
  let trimmed := trim input
  if trimmed = [] then check (.err (.invalidInput "unlock key path cannot be empty"))
  else return .ofBytes trimmed

def resolveUnlockPath (supplied : Option Path) : Cli Path :=
  match supplied, environment.unlockKey with
  | some path, _ | none, some path => return path
  | none, none => readPathFromTerminal

def projectLocalUnlockPath : Cli Path := do
  let projectDir ←
    match environment.projectDir with
    | some path => pure path
    | none => check (environment.currentDir.mapError fun kind => .error (.io kind))
  return (projectDir.join (ascii ".sealed-local")).join (ascii "unlock.key")

/-- `StatePaths::discover`. -/
def discover : Result StatePaths :=
  match environment.sealedHome with
  | some root => .ok (.fromRoot root)
  | none => do
      let base ← .okOr environment.home
        (.notFound "home directory is unavailable; set SEALED_HOME")
      return .fromRoot (base.join (ascii ".sealed"))

/-! ## Opening a letter -/

variable (primitives : Primitives)

/-- A letter that `message::open` accepted, with all that it was opened with, and with what
is to become of its file. -/
structure Opening where
  keep : Bool
  blobPath : Path
  secrets : IdentitySecrets
  profile : PublicProfile
  contacts : List Contact
  blob : List UInt8
  letter : OpenedLetter
  accepted : Message.open primitives secrets profile contacts blob = .ok letter

/-- The part of `command_open` and `wizard_open` that opens the letter. -/
def acceptLetter (paths : StatePaths) (keep : Bool) (blobPath unlockPath : Path) :
    Cli (Opening primitives) := do
  let (secrets, profile) ← storage (paths.loadIdentity primitives unlockPath)
  let contacts ← storage (paths.allContacts primitives)
  let blob ← mapErr (storage (Storage.readBlob blobPath)) fun _ => .cannotOpen
  match accepted : Message.open primitives secrets profile contacts blob with
  | .ok letter => return { keep, blobPath, secrets, profile, contacts, blob, letter, accepted }
  | .error stopped => check (.error stopped)

/-- The part that shows it. The wizard ends the last line. -/
def showLetter (wizard : Bool) (letter : OpenedLetter) : Cli Unit := do
  perform (.print letter.body)
  if wizard = true ∧ letter.body.getLast? ≠ some newline then perform (.print [newline])
  perform .flush

/-- What both do with a letter that was opened. -/
def deliverLetter {primitives : Primitives} (wizard : Bool) (opening : Opening primitives) :
    Cli Unit := do
  showLetter wizard opening.letter
  if opening.keep then return ()
  else storage (Storage.consumeBlob opening.blobPath)

/-! ## The commands -/

variable (paths : StatePaths)

def commandInit (args : List (List UInt8)) (draws : InitializeDraws) : Cli Unit := do
  let options ← check (parseOptions false false args)
  check (.reject (options.positionals ≠ []) (.usage usage))
  let unlockPath ← resolveUnlockPath environment options.unlockPath
  let _profile ← storage (paths.initializeState primitives unlockPath draws)

def commandIdentity (args : List (List UInt8)) : Cli Unit := do
  check (.reject (args ≠ [ascii "export"]) (.usage usage))
  let profile ← storage (paths.exportProfile primitives)
  perform (.print profile.encode)

def commandTrust (args : List (List UInt8)) : Cli Unit := do
  let options ← check (parseOptions true false args)
  let source := Path.ofBytes (← check (single options))
  let contactAlias ←
    match options.contactAlias with
    | some contactAlias => pure contactAlias
    | none => check (.okOr
        ((source.fileName.bind fun name => fromUtf8 (fileStem name)).filter fun stem =>
          validateAlias stem)
        (.invalidInput "cannot derive a safe contact name; use --name NAME"))
  let _profile ← storage (paths.trustProfile primitives source contactAlias)

def commandSeal (args : List (List UInt8)) (draws : SealDraws) : Cli Unit := do
  let options ← check (parseOptions false true args)
  let contactAlias ← check (.okOr (fromUtf8 (← check (single options)))
    (.invalidInput "contact name is not valid UTF-8"))
  let contact ← storage (paths.contact primitives contactAlias)
  let unlockPath ← resolveUnlockPath environment options.unlockPath
  let (secrets, profile) ← storage (paths.loadIdentity primitives unlockPath)
  let body : List UInt8 ← perform (.readInput (maxBodyLen + 1))
  check (.reject (body.length > maxBodyLen)
    (.invalidInput "message body exceeds the 1 MiB limit"))
  let blob ← check (Message.seal primitives secrets profile contact.profile body draws)
  match options.output with
  | some path => storage (Storage.writeNewPrivate path blob)
  | none => do
      perform (.print blob)
      perform .flush

/-- `command_open` up to the opened letter. -/
def commandOpenLetter (args : List (List UInt8)) : Cli (Opening primitives) := do
  let (options, keep) ← check (parseOpenOptions args)
  let blobPath := Path.ofBytes (← check (single options))
  let unlockPath ← resolveUnlockPath environment options.unlockPath
  acceptLetter primitives paths keep blobPath unlockPath

def commandOpen (args : List (List UInt8)) : Cli Unit := do
  let opening ← commandOpenLetter environment primitives paths args
  deliverLetter false opening

/-! ## The wizards -/

def wizardInit (draws : InitializeDraws) : Cli Unit := do
  let defaultUnlockPath ← projectLocalUnlockPath environment
  let unlockPath ← promptPath environment (some defaultUnlockPath.display)
  let parent := Storage.parentOrHere unlockPath
  if !(← storage (Storage.pathExists parent)) then
    if unlockPath.components = defaultUnlockPath.components then
      storage (Storage.createDirAll parent.segments.length parent)
    else
      let create ← promptYesNo true
      check (.reject (create = false) (.invalidInput "identity creation cancelled"))
      storage (Storage.createDirAll parent.segments.length parent)
  let _profile ← storage (paths.initializeState primitives unlockPath draws)

def wizardExport : Cli Unit := do
  let profile ← mapErr (storage (paths.exportProfile primitives))
    fun _ => .notFound "identity is not initialized; choose option 1 first"
  let destination ← promptPath environment (some (ascii "sealed-profile.pub"))
  storage (Storage.writeNewPrivate destination profile.encode)

def wizardTrust : Cli Unit := do
  let profilePath ← promptPath environment none
  let defaultAlias := (profilePath.fileName.bind fun name => fromUtf8 (fileStem name)).filter
    fun stem => validateAlias stem
  let contactAlias ← prompt defaultAlias
  check (.reject (¬ validateAlias contactAlias = true)
    (.invalidInput "contact name may contain only letters, digits, '-' or '_'"))
  let _profile ← storage (paths.trustProfile primitives profilePath contactAlias)

def wizardSeal (draws : SealDraws) : Cli Unit := do
  let contacts ← storage (paths.allContacts primitives)
  check (.reject (contacts = [])
    (.notFound "no pinned contacts; import a public profile with option 3"))
  let choice : Option Nat ← perform (.choose contacts.length)
  let index ← check (.okOr choice (.invalidInput "recipient selection cancelled"))
  let selected ← check (.okOr contacts[index]? (.invalidInput "invalid recipient selection"))
  let unlockPath ← promptUnlockPath environment
  let outputPath ← promptPath environment
    (some (ascii "letter-for-" ++ selected.alias ++ ascii ".bin"))
  let body ← readMultilineLetter
  check (.reject (body = []) (.invalidInput "letter body cannot be empty"))
  let (secrets, profile) ← storage (paths.loadIdentity primitives unlockPath)
  let blob ← check (Message.seal primitives secrets profile selected.profile body draws)
  storage (Storage.writeNewPrivate outputPath blob)

/-- `wizard_open` up to the opened letter. -/
def wizardOpenLetter : Cli (Opening primitives) := do
  let blobPath ← promptPath environment none
  let unlockPath ← promptUnlockPath environment
  let consume ← promptYesNo true
  acceptLetter primitives paths (!consume) blobPath unlockPath

def wizardOpen : Cli Unit := do
  let opening ← wizardOpenLetter environment primitives paths
  deliverLetter true opening

end Cli

/-- A command line, or a wizard, with the random draws that it may make. -/
inductive Command where
  | init (args : List (List UInt8)) (draws : InitializeDraws)
  | identity (args : List (List UInt8))
  | trust (args : List (List UInt8))
  | «seal» (args : List (List UInt8)) (draws : SealDraws)
  | «open» (args : List (List UInt8))
  | wizardInit (draws : InitializeDraws)
  | wizardExport
  | wizardTrust
  | wizardSeal (draws : SealDraws)
  | wizardOpen

/-- What `run` does with a command, once it was told apart. -/
def Command.run (primitives : Primitives) (environment : Environment) (command : Command) :
    Cli Unit := do
  let paths ← Cli.check (Cli.discover environment)
  match command with
  | .init args draws => Cli.commandInit environment primitives paths args draws
  | .identity args => Cli.commandIdentity primitives paths args
  | .trust args => Cli.commandTrust primitives paths args
  | .«seal» args draws => Cli.commandSeal environment primitives paths args draws
  | .«open» args => Cli.commandOpen environment primitives paths args
  | .wizardInit draws => Cli.wizardInit environment primitives paths draws
  | .wizardExport => Cli.wizardExport environment primitives paths
  | .wizardTrust => Cli.wizardTrust environment primitives paths
  | .wizardSeal draws => Cli.wizardSeal environment primitives paths draws
  | .wizardOpen => Cli.wizardOpen environment primitives paths

end Sealed
