import Sealed.CliCalls
import Sealed.Foundation.Decimal
import Sealed.Foundation.Linking

/-! The interactive terminal: the choice from a list, the menu, and the dispatch of a command
line. What they show on stderr is not kept, and every write to it succeeds. A loop that waits for
the user makes at most as many rounds as it is given. -/

set_option autoImplicit false

namespace Sealed

open Foundation

/-! ## The terminal -/

/-- The settings of a terminal, as `stty -g` prints them on a line. -/
structure Settings where
  text : List UInt8
  valid : fromUtf8 (text ++ [newline]) = some (text ++ [newline])
  trimmed : trim (text ++ [newline]) = text
  distinct : text ≠ ascii "-g"

def Settings.ofText (text : List UInt8) : Option Settings :=
  if same : fromUtf8 (text ++ [newline]) = some (text ++ [newline]) ∧
      trim (text ++ [newline]) = text ∧ text ≠ ascii "-g" then
    some ⟨text, same.1, same.2.1, same.2.2⟩
  else none

/-- The calls of the menu: those of its commands, under the number of the round that makes them,
and those that read keys. `/bin/stty` is one call. -/
inductive TerminalCall where
  | cli (round : Nat) (request : CliCall)
  | openTerminal
  | stty (arguments : List (List UInt8))
  | readExact (count : Nat)
deriving DecidableEq

namespace TerminalCall

/-- Of `/bin/stty`, whether it succeeded, and its output. -/
abbrev Answer : TerminalCall → Type
  | .cli _ request => request.Answer
  | .openTerminal => Unit
  | .stty _ => Bool × List UInt8
  | .readExact count => Bytes count

abbrev Reply (request : TerminalCall) : Type := Except IoErrorKind request.Answer

end TerminalCall

/-- What `/bin/stty` does: all that it was asked for, or not all of it. Either way, the settings
that it leaves. -/
inductive SttyOutcome where
  | done (mode : Settings)
  | refused (mode : Settings)

structure TerminalOutcome where
  cli : CliOutcome
  stty : SttyOutcome

/-- The file system, the settings of the terminal, and the bytes that will be typed. -/
structure Console where
  files : FileSystem
  mode : Settings
  typed : List UInt8

/-- The settings that switch off lines, echo and signals. -/
def rawArguments : List (List UInt8) :=
  [ascii "-icanon", ascii "min", ascii "1", ascii "time", ascii "0", ascii "-echo", ascii "-isig"]

/-- `/bin/stty` once it runs: `-g` prints the settings, and what it prints restores them. -/
def Console.stty (console : Console) (arguments : List (List UInt8)) (happened : SttyOutcome) :
    (Bool × List UInt8) × Console :=
  match happened, arguments with
  | .done mode, [argument] =>
      if argument = ascii "-g" then ((true, console.mode.text ++ [newline]), console)
      else
        match Settings.ofText argument with
        | some saved => ((true, []), { console with mode := saved })
        | none => ((false, []), { console with mode })
  | .refused mode, [argument] =>
      if argument = ascii "-g" then ((false, []), console)
      else ((false, []), { console with mode })
  | .done mode, _ => ((true, []), { console with mode })
  | .refused mode, _ => ((false, []), { console with mode })

/-- The answer to a call of the menu, and the console after it. -/
def TerminalCall.respond (console : Console) :
    (request : TerminalCall) → TerminalOutcome → request.Reply × Console
  | .cli round request, happened =>
      let answer := CliCall.respond round console.files request happened.cli
      (answer.1, { console with files := answer.2 })
  | .openTerminal, ⟨⟨.failed, _, _⟩, _⟩ => (.error .other, console)
  | .stty _, ⟨⟨.failed, _, _⟩, _⟩ => (.error .other, console)
  | .readExact _, ⟨⟨.failed, _, _⟩, _⟩ => (.error .other, console)
  | .openTerminal, _ => (.ok (), console)
  | .stty arguments, happened =>
      let answer := console.stty arguments happened.stty
      (.ok answer.1, answer.2)
  | .readExact count, _ =>
      match Bytes.tryFrom count (console.typed.take count) with
      | some bytes => (.ok bytes, { console with typed := console.typed.drop count })
      | none => (.error .other, { console with typed := [] })

/-- Why the menu stops without a value. It may also not be done yet. -/
inductive Halt where
  | stopped (abort : Abort Error)
  | unfinished
deriving DecidableEq

abbrev Terminal (α : Type) := ExceptT Halt (Program TerminalCall.Reply) α

namespace Terminal

variable {α : Type}

def check (result : Result α) : Terminal α := ExceptT.mk (pure (result.mapError .stopped))

/-- More rounds than were given. -/
def unfinished : Terminal α := ExceptT.mk (pure (.error .unfinished))

/-- A call whose failure the function inspects. -/
def attempt (request : TerminalCall) : Terminal request.Reply :=
  ExceptT.mk ((Program.perform request : Program TerminalCall.Reply _) >>= fun reply =>
    pure (.ok reply))

/-- A call whose failure is `Error::Io`. -/
def perform (request : TerminalCall) : Terminal request.Answer := do
  match ← attempt request with
  | .ok answer => return answer
  | .error kind => check (.err (.io kind))

/-- A function whose error is inspected. -/
def catchError (function : Terminal α) : Terminal (Except Error α) :=
  ExceptT.mk (function.run >>= fun result =>
    match result with
    | .ok value => pure (.ok (.ok value))
    | .error (.stopped (.error error)) => pure (.ok (.error error))
    | .error halt => pure (.error halt))

/-- `Drop`, when the body is done, whatever it came to. -/
def dropping (cleanup : Terminal Unit) (body : Terminal α) : Terminal α :=
  ExceptT.mk (body.run >>= fun result =>
    match result with
    | .error .unfinished => pure (.error .unfinished)
    | result => (do cleanup; ExceptT.mk (pure result) : Terminal α).run)

/-! ## Keys -/

/-- What `stty` makes of the output of the command. -/
def sttyText (output : Bool × List UInt8) : Result (List UInt8) := do
  .reject (output.1 = false) (.invalidInput "cannot configure terminal key input")
  let text ← .okOr (fromUtf8 output.2) (.invalidInput "terminal returned invalid settings")
  return trim text

def stty (arguments : List (List UInt8)) : Terminal (List UInt8) := do
  let output ← perform (.stty arguments)
  check (sttyText output)

def restoreStty (savedMode : List UInt8) : Terminal Unit := do
  let _status ← attempt (.stty [savedMode])

structure RawTerminal where
  savedMode : List UInt8

def RawTerminal.enter : Terminal RawTerminal := do
  perform .openTerminal
  let savedMode ← stty [ascii "-g"]
  match ← catchError (stty rawArguments) with
  | .ok _ => return { savedMode }
  | .error error => do
      restoreStty savedMode
      check (.err error)

inductive PickerKey where
  | up
  | down
  | select
  | cancel
  | ignore
deriving DecidableEq

/-- The key of a first byte, unless it is the escape character. -/
def keyOfByte (byte : UInt8) : Option PickerKey :=
  if byte = carriageReturn ∨ byte = newline then some .select
  else if byte = 0x03 then some .cancel
  else if byte = 0x6b then some .up
  else if byte = 0x6a then some .down
  else if byte = 0x1b then none
  else some .ignore

def keyOfSequence (sequence : List UInt8) : PickerKey :=
  if sequence = ascii "[A" ∨ sequence = ascii "OA" then .up
  else if sequence = ascii "[B" ∨ sequence = ascii "OB" then .down
  else .ignore

/-- The key that begins with a byte. -/
def keyFrom (first : UInt8) : Terminal PickerKey :=
  match keyOfByte first with
  | some key => return key
  | none => do
      let sequence : Bytes 2 ← perform (.readExact 2)
      return keyOfSequence sequence.toList

def readPickerKey : Terminal PickerKey := do
  let first : Bytes 1 ← perform (.readExact 1)
  keyFrom (← check (.index first.toList 0))

/-- The loop of `choose_from_list`, for so many keys. -/
def pickFrom (choices : Nat) : Nat → Nat → Terminal (Option Nat)
  | 0, _ => unfinished
  | keys + 1, selected => do
      match ← readPickerKey with
      | .up => pickFrom choices keys ((checkedSub selected 1).getD (choices - 1))
      | .down => pickFrom choices keys ((selected + 1) % choices)
      | .select => return some selected
      | .cancel => return none
      | .ignore => pickFrom choices keys selected

/-! ## Commands in the menu -/

/-- A command that chooses nothing. -/
def ofCli (round : Nat) (command : Cli α) : Terminal α :=
  ExceptT.mk (command.run.inject (.cli round) (fun _ reply => reply) >>= fun result =>
    pure (result.mapError .stopped))

/-- The choice that a number stands for. -/
def chosenNumber (choices : Nat) (selected : List UInt8) : Result (Option Nat) :=
  let index := (parseUsize selected).bind fun number => checkedSub number 1
  .okOr ((index.filter (· < choices)).map some) (.invalidInput "invalid selection")

/-- The choice by a number. -/
def chooseByNumber (round choices : Nat) : Terminal (Option Nat) := do
  let selected ← ofCli round (Cli.prompt none)
  check (chosenNumber choices selected)

/-- `choose_from_list`. -/
def chooseFromList (keys round choices : Nat) : Terminal (Option Nat) := do
  check (.reject (choices = 0) (.invalidInput "there is nothing to select"))
  match ← catchError RawTerminal.enter with
  | .ok terminal => dropping (restoreStty terminal.savedMode) (pickFrom choices keys 0)
  | .error _ => chooseByNumber round choices

/-- How the calls of a wizard are answered: a choice from a list by its function. -/
def answer (keys round : Nat) : (request : CliCall) → Terminal request.Reply
  | .choose choices => do return .ok (← chooseFromList keys round choices)
  | .file request => attempt (.cli round (.file request))
  | .print bytes => attempt (.cli round (.print bytes))
  | .flush => attempt (.cli round .flush)
  | .readInput limit => attempt (.cli round (.readInput limit))
  | .readLine => attempt (.cli round .readLine)

/-- A wizard, which may choose from a list. -/
def ofWizard (keys round : Nat) (command : Cli α) : Terminal α :=
  command.run.link (answer keys round) .stopped

end Terminal

def Cli.wizardShow (primitives : Primitives) (paths : StatePaths) : Cli Unit := do
  let _profile ← mapErr (storage (paths.exportProfile primitives))
    fun _ => .notFound "identity is not initialized; choose option 1 first"
  let _contacts ← storage (paths.allContacts primitives)

/-- The random draws of one command. -/
structure CommandDraws where
  identity : InitializeDraws
  letter : SealDraws

namespace Terminal

def menuItems : List String :=
  ["Create identity", "Export public profile", "Add or verify contact", "Seal a letter",
    "Open a letter", "Show identity and contacts", "Exit"]

variable (environment : Environment) (primitives : Primitives) (keys : Nat)

def printStateSummary (round : Nat) (paths : StatePaths) : Terminal Unit := do
  let _profile ← catchError (ofCli round (Cli.storage (paths.exportProfile primitives)))
  let _contacts ← catchError (ofCli round (Cli.storage (paths.allContacts primitives)))

def waitForEnter (round : Nat) : Terminal Unit := do
  let _line ← ofCli round (Cli.perform .readLine)

/-- The wizard at an index of the menu, before `Exit`. -/
def wizard (paths : StatePaths) (draws : CommandDraws) (index : Nat) : Option (Cli Unit) :=
  match index with
  | 0 => some (Cli.wizardInit environment primitives paths draws.identity)
  | 1 => some (Cli.wizardExport environment primitives paths)
  | 2 => some (Cli.wizardTrust environment primitives paths)
  | 3 => some (Cli.wizardSeal environment primitives paths draws.letter)
  | 4 => some (Cli.wizardOpen environment primitives paths)
  | 5 => some (Cli.wizardShow primitives paths)
  | _ => none

/-- The rest of a round of the menu, by what was chosen, and the rounds after it. -/
def afterChoice (paths : StatePaths) (round : Nat) (draws : CommandDraws)
    (further : Terminal Unit) : Option Nat → Terminal Unit
  | none => return ()
  | some index =>
      match wizard environment primitives paths draws index with
      | some action => do
          let _shown ← catchError (ofWizard keys round action)
          waitForEnter round
          further
      | none =>
          if index = 6 then return ()
          else check (.err (.invalidInput "invalid menu selection"))

/-- The loop of `interactive`, one round for each of the draws. -/
def menu (paths : StatePaths) : Nat → List CommandDraws → Terminal Unit
  | _, [] => unfinished
  | round, draws :: rest => do
      printStateSummary primitives round paths
      let choice ← chooseFromList keys round menuItems.length
      afterChoice environment primitives keys paths round draws (menu paths (round + 1) rest) choice

def interactive (rounds : List CommandDraws) : Terminal Unit := do
  let paths ← check (Cli.discover environment)
  menu environment primitives keys paths 0 rounds

end Terminal

/-- The command of a command line. -/
def Command.named (name : List UInt8) (remaining : List (List UInt8)) (draws : CommandDraws) :
    Option Command :=
  if name = ascii "init" then some (.init remaining draws.identity)
  else if name = ascii "identity" then some (.identity remaining)
  else if name = ascii "trust" then some (.trust remaining)
  else if name = ascii "seal" then some (.«seal» remaining draws.letter)
  else if name = ascii "open" then some (.«open» remaining)
  else none

/-- `println!`, which panics where it cannot write. -/
def Cli.println (text : List UInt8) : Cli Unit :=
  ExceptT.mk ((Program.perform (.print (text ++ [newline])) : Program CliCall.Reply _) >>=
    fun reply => match reply with
    | .ok _ => pure (.ok ())
    | .error _ => pure Checked.panicked)

/-- The command of a command line, or the help text. -/
def runNamed (environment : Environment) (primitives : Primitives) (draws : CommandDraws)
    (name : List UInt8) (remaining : List (List UInt8)) : Terminal Unit :=
  match Command.named name remaining draws with
  | some command => Terminal.ofCli 0 (command.run primitives environment)
  | none => do
      let _paths ← Terminal.check (Cli.discover environment)
      if name = ascii "help" ∨ name = ascii "--help" ∨ name = ascii "-h" then
        Terminal.ofCli 0 (Cli.println (ascii Cli.usage))
      else Terminal.check (.err (.usage Cli.usage))

/-- `run`, with the arguments after the name of the program. -/
def run (environment : Environment) (primitives : Primitives) (keys : Nat) (isTerminal : Bool)
    (draws : CommandDraws) (rounds : List CommandDraws) (args : List (List UInt8)) :
    Terminal Unit :=
  match args with
  | [] =>
      if isTerminal then Terminal.interactive environment primitives keys rounds
      else Terminal.check (.err (.usage Cli.usage))
  | name :: remaining => do
      let name ← Terminal.check (.okOr (fromUtf8 name) (.usage Cli.usage))
      runNamed environment primitives draws name remaining

end Sealed
