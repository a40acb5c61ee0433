import Sealed.Intentions
import Sealed.PickerProperties

/-! What a whole process does, from its arguments on. The files are left as by commands that
run one after another, and the terminal as it was. -/

set_option autoImplicit false

namespace Sealed.Terminal

open Foundation FileSystem

variable {α β : Type} {allowed : TerminalCall → Prop} {good : TerminalCall → TerminalOutcome → Prop}
  {console : Console} {environment : Environment} {primitives : Primitives}

/-! ## Which calls a function makes -/

theorem makes_attempt {request : TerminalCall} (permitted : allowed request) :
    Makes allowed (fun _ => True) (attempt request) :=
  ⟨permitted, fun _ => trivial⟩

theorem makes_catchError {function : Terminal α}
    (makes : Makes allowed (fun _ => True) function) :
    Makes allowed (fun _ => True) (catchError function) := by
  apply Program.Confined.bind makes
  intro result _
  cases result with
  | ok value => trivial
  | error halt =>
      cases halt with
      | unfinished => trivial
      | stopped abort => cases abort <;> trivial

theorem makes_dropping {cleanup : Terminal Unit} {body : Terminal α}
    (makes : Makes allowed (fun _ => True) body)
    (cleans : Makes allowed (fun _ => True) cleanup) :
    Makes allowed (fun _ => True) (dropping cleanup body) := by
  apply Program.Confined.bind makes
  intro result _
  have after : Program.Confined allowed (fun _ => True)
      (do cleanup; ExceptT.mk (pure result) : Terminal α).run :=
    makes_then cleans (fun _ _ => trivial) fun _ _ => trivial
  cases result with
  | ok value => exact after
  | error halt =>
      cases halt with
      | unfinished => trivial
      | stopped abort => exact after

theorem Makes.any {holds : Except Halt α → Prop} {function : Terminal α}
    (makes : Makes allowed holds function) : Makes allowed (fun _ => True) function :=
  Program.Confined.mono makes (fun _ => id) fun _ _ => trivial

/-! ## Choices leave the files as they are -/

/-- A call without an effect on the files. -/
def SparesFiles (request : TerminalCall) : Prop :=
  ∀ console happened, (TerminalCall.respond console request happened).2.files = console.files

theorem sparesFiles_cli {round : Nat} {request : CliCall} (readOnly : request.ReadOnly) :
    SparesFiles (.cli round request) :=
  fun _ _ => CliCall.respond_readOnly readOnly _ _

theorem sparesFiles_openTerminal : SparesFiles .openTerminal := by
  intro console happened
  obtain ⟨⟨outcome, input, choice⟩, settings⟩ := happened
  cases outcome <;> rfl

theorem files_stty (console : Console) (arguments : List (List UInt8)) (happened : SttyOutcome) :
    (console.stty arguments happened).2.files = console.files := by
  unfold Console.stty
  split
  · split
    · rfl
    · split <;> rfl
  · split <;> rfl
  · rfl
  · rfl

theorem sparesFiles_stty (arguments : List (List UInt8)) : SparesFiles (.stty arguments) := by
  intro console happened
  obtain ⟨⟨outcome, input, choice⟩, settings⟩ := happened
  cases outcome with
  | failed => rfl
  | carriedOut chunk => exact files_stty console arguments settings

theorem sparesFiles_readExact (count : Nat) : SparesFiles (.readExact count) := by
  intro console happened
  obtain ⟨⟨outcome, input, choice⟩, settings⟩ := happened
  cases outcome with
  | failed => rfl
  | carriedOut chunk =>
      simp only [TerminalCall.respond]
      split <;> rfl

/-- A function of such calls. -/
abbrev KeepsFiles (function : Terminal α) : Prop := Makes SparesFiles (fun _ => True) function

theorem keepsFiles_then {function : Terminal α} {rest : α → Terminal β}
    (first : KeepsFiles function) (next : ∀ value, KeepsFiles (rest value)) :
    KeepsFiles (function >>= rest) :=
  makes_then first (fun value _ => next value) fun _ _ => trivial

theorem keepsFiles_stty (arguments : List (List UInt8)) : KeepsFiles (stty arguments) := by
  apply keepsFiles_then (makes_perform (sparesFiles_stty arguments)).any
  exact fun _ => trivial

theorem keepsFiles_restoreStty (mode : List UInt8) : KeepsFiles (restoreStty mode) :=
  keepsFiles_then (makes_attempt (sparesFiles_stty _)) fun _ => trivial

theorem keepsFiles_enter : KeepsFiles RawTerminal.enter := by
  apply keepsFiles_then (makes_perform sparesFiles_openTerminal).any
  intro _
  apply keepsFiles_then (keepsFiles_stty _)
  intro savedMode
  apply keepsFiles_then (makes_catchError (keepsFiles_stty _))
  intro raw
  cases raw with
  | ok text => trivial
  | error error => exact keepsFiles_then (keepsFiles_restoreStty _) fun _ => trivial

theorem keepsFiles_chooseFromList (keys round choices : Nat) :
    KeepsFiles (chooseFromList keys round choices) := by
  unfold chooseFromList
  by_cases empty : choices = 0
  · rw [Checked.reject_of empty]
    trivial
  rw [Checked.reject_of_not empty]
  apply keepsFiles_then (makes_catchError keepsFiles_enter)
  intro entry
  cases entry with
  | ok terminal =>
      apply makes_dropping _ (keepsFiles_restoreStty _)
      apply Program.Confined.mono (makes_pickFrom keys (Nat.pos_of_ne_zero empty))
      · intro request reads
        obtain ⟨count, same⟩ := reads
        subst same
        exact sparesFiles_readExact count
      · exact fun _ _ => trivial
  | error error =>
      apply Program.Confined.mono (makes_chooseByNumber round choices)
      · intro request reads
        cases reads
        exact sparesFiles_cli trivial
      · exact fun _ _ => trivial

theorem keepsFiles_ofCli {command : Cli α} (round : Nat)
    (makes : Cli.Makes CliCall.ReadOnly command) : KeepsFiles (ofCli round command) := by
  apply Program.Confined.mono (makes_ofCli makes)
  · intro request called
    obtain ⟨call, same, readOnly⟩ := called
    subst same
    exact sparesFiles_cli readOnly
  · exact fun _ _ => trivial

/-- Such a condition holds at every point and in the end. -/
def Throughout (good : TerminalCall → TerminalOutcome → Prop) (holds : Console → Prop)
    (function : Terminal α) (console : Console) : Prop :=
  Program.Throughout TerminalCall.respond good holds function.run console

theorem KeepsFiles.throughout {function : Terminal α} (keeps : KeepsFiles function) :
    Throughout good (fun later => later.files = console.files) function console :=
  Program.Confined.throughout keeps rfl fun _ spares later kept happened _ =>
    (spares later happened).trans kept

/-! ## A wizard acts on the files like its command -/

/-- What is answered acts on the files like the call. -/
def ActsLike (round : Nat) (request : CliCall) (console later : Console) :
    Except Halt request.Reply → Prop :=
  Program.Continues
    (fun reply => ∃ outcome,
      CliCall.respond round console.files request outcome = (reply, later.files))
    fun _ => later.files = console.files

theorem attempt_answers (round : Nat) (request : CliCall) (console : Console) :
    Always good (fun later _ => later.files = console.files) (ActsLike round request console)
      (attempt (.cli round request)) console := by
  constructor
  · rfl
  · exact fun happened _ => ⟨happened.cli, rfl⟩

theorem answer_answers (keys round : Nat) (request : CliCall) (console : Console) :
    Always good (fun later _ => later.files = console.files) (ActsLike round request console)
      (answer keys round request) console := by
  cases request with
  | file request => exact attempt_answers round (.file request) console
  | print bytes => exact attempt_answers round (.print bytes) console
  | flush => exact attempt_answers round .flush console
  | readInput limit => exact attempt_answers round (.readInput limit) console
  | readLine => exact attempt_answers round .readLine console
  | choose choices =>
      apply always_then (keepsFiles_chooseFromList keys round choices).throughout
      · intro later choice kept
        apply always_return
        refine ⟨⟨.carriedOut 0, [], choice⟩, ?_⟩
        rw [kept]
        rfl
      · exact fun _ _ kept => kept

theorem ofWizard_passes (keys round : Nat) (command : Cli α) :
    Throughout good
      (fun later => Program.Passes (CliCall.respond round) command.run console.files later.files)
      (ofWizard keys round command) console :=
  Program.simulates_link (answer_answers keys round) command.run console

/-- A command of a command line answers its calls itself. -/
theorem ofCli_eq_link (round : Nat) (command : Cli α) :
    ofCli round command =
      command.run.link (fun request => attempt (.cli round request)) .stopped := by
  have linked : ∀ program : Program CliCall.Reply (Checked Error α),
      (program.inject (.cli round) (fun _ reply => reply) >>= fun result =>
          pure (result.mapError .stopped) : Program TerminalCall.Reply (Except Halt α)) =
        (program.link (fun request => attempt (.cli round request)) .stopped : Terminal α).run := by
    intro program
    induction program with
    | done result => cases result <;> rfl
    | call request next ih => exact congrArg _ (funext fun reply => ih reply)
  exact linked command.run

theorem ofCli_passes (round : Nat) (command : Cli α) :
    Throughout good
      (fun later => Program.Passes (CliCall.respond round) command.run console.files later.files)
      (ofCli round command) console := by
  rw [ofCli_eq_link]
  exact Program.simulates_link (attempt_answers round) command.run console

/-! ## The history of a process -/

/-- The commands that a round of the menu may run. -/
def menuCommands (draws : CommandDraws) : List Command :=
  [.wizardInit draws.identity, .wizardExport, .wizardTrust, .wizardSeal draws.letter, .wizardOpen]

/-- An invocation by a process of its environment and its working directory. -/
structure InvokedIn (environment : Environment) (directory : Nat) (invocation : Invocation) :
    Prop where
  environment : invocation.environment = environment
  directory : invocation.directory = directory

/-- The invocation of a round of the menu. -/
structure InRound (environment : Environment) (directory : Nat) (draws : CommandDraws)
    (invocation : Invocation) : Prop extends InvokedIn environment directory invocation where
  command : invocation.command ∈ menuCommands draws

/-- What the rounds so far have done to the files is what one command for each of them does. -/
def AfterRounds (environment : Environment) (primitives : Primitives) (round : Nat)
    (rounds : List CommandDraws) (fs later : FileSystem) : Prop :=
  ∃ done invocations, done <+: rounds ∧
    List.Forall₂ (InRound environment fs.working) done invocations ∧
    later = runAll primitives round invocations fs

theorem afterRounds_refl {round : Nat} {rounds : List CommandDraws} (fs : FileSystem) :
    AfterRounds environment primitives round rounds fs fs :=
  ⟨[], [], List.nil_prefix, .nil, rfl⟩

/-- One more round. -/
theorem AfterRounds.cons {round : Nat} {draws : CommandDraws} {rounds : List CommandDraws}
    {fs later : FileSystem} {invocation : Invocation}
    (invoked : InRound environment fs.working draws invocation)
    (after : AfterRounds environment primitives (round + 1) rounds
      (invocation.run primitives round fs).2.1 later) :
    AfterRounds environment primitives round (draws :: rounds) fs later := by
  obtain ⟨done, invocations, first, each, same⟩ := after
  rw [invocation.working, invoked.directory, Storage.seenFrom_working] at each
  exact ⟨draws :: done, invocation :: invocations, List.cons_prefix_cons.2 ⟨rfl, first⟩,
    .cons invoked each, same⟩

theorem passes_readOnly {command : Cli α} {round : Nat} {fs later : FileSystem}
    (makes : Cli.Makes CliCall.ReadOnly command)
    (passes : Program.Passes (CliCall.respond round) command.run fs later) : later = fs := by
  have kept : Program.Throughout (CliCall.respond round) (fun _ _ => True)
      (fun later => later = fs) command.run fs := by
    apply Program.Confined.throughout makes
    · rfl
    · intro request readOnly middle same happened _
      rw [CliCall.respond_readOnly readOnly, same]
  obtain ⟨outcomes, there⟩ := passes
  subst there
  exact kept.of_run fun _ _ => trivial

theorem makes_wizardShow (paths : StatePaths) :
    Cli.Makes CliCall.ReadOnly (Cli.wizardShow primitives paths) := by
  have looks := fun (request : FileCall) (readOnly : request.ReadOnly) => readOnly
  apply Cli.makes_bind
  · exact Cli.makes_mapErr
      (Cli.makes_looking (fun _ => id) (Storage.makes_exportProfile looks paths)) _
  · intro profile
    apply Cli.makes_bind (Cli.makes_looking (fun _ => id) (Storage.makes_allContacts looks paths))
    exact fun _ => trivial

/-- The round of a wizard, as far as it has come. -/
theorem wizard_invoked {round : Nat} {draws : CommandDraws} {paths : StatePaths} {index : Nat}
    {action : Cli Unit} {fs later : FileSystem} (discovered : Cli.discover environment = .ok paths)
    (chosen : wizard environment primitives paths draws index = some action)
    (passes : Program.Passes (CliCall.respond round) action.run fs later) :
    ∃ invocation, InRound environment fs.working draws invocation ∧
      (invocation.run primitives round fs).2.1 = later := by
  have invoked : ∀ command ∈ menuCommands draws, command.run primitives environment = action →
      ∃ invocation, InRound environment fs.working draws invocation ∧
        (invocation.run primitives round fs).2.1 = later := by
    intro command member same
    obtain ⟨outcomes, there⟩ := passes
    refine ⟨⟨environment, fs.working, command, outcomes⟩, ⟨⟨rfl, rfl⟩, member⟩, ?_⟩
    unfold Invocation.run
    rw [Storage.seenFrom_working, same]
    exact there
  unfold Command.run at invoked
  rw [discovered] at invoked
  unfold wizard at chosen
  split at chosen
  · exact invoked (.wizardInit draws.identity) (by simp [menuCommands]) (Option.some.inj chosen)
  · exact invoked .wizardExport (by simp [menuCommands]) (Option.some.inj chosen)
  · exact invoked .wizardTrust (by simp [menuCommands]) (Option.some.inj chosen)
  · exact invoked (.wizardSeal draws.letter) (by simp [menuCommands]) (Option.some.inj chosen)
  · exact invoked .wizardOpen (by simp [menuCommands]) (Option.some.inj chosen)
  · cases chosen
    -- Nothing is done to the files, as by a command that dies at once.
    have unmoved := passes_readOnly (makes_wizardShow paths) passes
    refine ⟨⟨environment, fs.working, .wizardExport, []⟩, ⟨⟨rfl, rfl⟩, by simp [menuCommands]⟩, ?_⟩
    unfold Invocation.run
    rw [Storage.seenFrom_working, unmoved]
    exact Program.run_nil _ _
  · cases chosen

/-! ## The menu -/

/-- What holds of the files before such a function still holds after it. -/
theorem KeepsFiles.then {holds : FileSystem → Prop} {function : Terminal α} {rest : α → Terminal β}
    (keeps : KeepsFiles function) (start : holds console.files)
    (next : ∀ later value, later.files = console.files →
      Throughout good (fun final => holds final.files) (rest value) later) :
    Throughout good (fun final => holds final.files) (function >>= rest) console := by
  have still : ∀ later : Console, later.files = console.files → holds later.files :=
    fun later kept => kept ▸ start
  have kept := @KeepsFiles.throughout _ good console _ keeps
  apply always_then (Program.Always.mono kept (fun later _ => still later) fun _ _ => id)
  · exact next
  · exact fun later _ => still later

theorem keepsFiles_printStateSummary (round : Nat) (paths : StatePaths) :
    KeepsFiles (printStateSummary primitives round paths) := by
  have looks := fun (request : FileCall) (readOnly : request.ReadOnly) => readOnly
  apply keepsFiles_then (makes_catchError (keepsFiles_ofCli round
    (Cli.makes_looking (fun _ => id) (Storage.makes_exportProfile looks paths))))
  intro profile
  apply keepsFiles_then (makes_catchError (keepsFiles_ofCli round
    (Cli.makes_looking (fun _ => id) (Storage.makes_allContacts looks paths))))
  exact fun _ => trivial

theorem keepsFiles_waitForEnter (round : Nat) : KeepsFiles (waitForEnter round) := by
  apply keepsFiles_then (keepsFiles_ofCli round (@Cli.makes_perform _ .readLine trivial))
  exact fun _ => trivial

/-- By induction on the rounds: the files after each of them are those after its command. -/
theorem menu_afterRounds (keys : Nat) {paths : StatePaths} (round : Nat)
    (rounds : List CommandDraws) (discovered : Cli.discover environment = .ok paths)
    (console : Console) :
    Throughout good
      (fun later => AfterRounds environment primitives round rounds console.files later.files)
      (menu environment primitives keys paths round rounds) console := by
  induction rounds generalizing round console with
  | nil => exact afterRounds_refl console.files
  | cons draws rest ih =>
      apply (keepsFiles_printStateSummary round paths).then (afterRounds_refl console.files)
      intro later _ same
      rw [← same]
      apply (keepsFiles_chooseFromList keys round menuItems.length).then (afterRounds_refl _)
      intro later choice same
      rw [← same]
      cases choice with
      | none => exact afterRounds_refl later.files
      | some index =>
          unfold afterChoice
          simp only
          cases chosen : wizard environment primitives paths draws index with
          | none =>
              have leaves : ∀ result : Except Halt Unit, Throughout good
                  (fun final => AfterRounds environment primitives round (draws :: rest)
                    later.files final.files) (ExceptT.mk (pure result)) later :=
                fun _ => afterRounds_refl later.files
              simp only
              split
              · exact leaves _
              · exact leaves _
          | some action =>
              have invoked : Throughout good
                  (fun final => ∃ invocation, InRound environment later.files.working draws
                    invocation ∧ (invocation.run primitives round later.files).2.1 = final.files)
                  (catchError (ofWizard keys round action)) later := by
                apply always_catchError
                apply (ofWizard_passes keys round action).mono
                exact fun final passes => wizard_invoked discovered chosen passes
              have far : ∀ final : Console, (∃ invocation, InRound environment later.files.working
                  draws invocation ∧
                    (invocation.run primitives round later.files).2.1 = final.files) →
                  AfterRounds environment primitives round (draws :: rest) later.files
                    final.files := by
                intro final known
                obtain ⟨invocation, inRound, there⟩ := known
                rw [← there]
                exact .cons inRound (afterRounds_refl _)
              simp only
              have within := Program.Always.mono invoked (fun final _ => far final) fun _ _ => id
              apply always_then within
              · intro final shown known
                apply (keepsFiles_waitForEnter round).then (far final known)
                intro last _ same
                obtain ⟨invocation, inRound, there⟩ := known
                apply (ih (round + 1) last).mono
                intro ended after
                rw [same, ← there] at after
                exact .cons inRound after
              · exact fun final _ => far final

end Sealed.Terminal

namespace Sealed

open Foundation FileSystem Terminal

variable {environment : Environment} {primitives : Primitives}

/-- The commands that a process runs: at most the one that its arguments name, or, without
arguments, one for each of the rounds that the menu has come to. -/
def OfProcess (environment : Environment) (directory : Nat) (draws : CommandDraws)
    (rounds : List CommandDraws) : List (List UInt8) → List Invocation → Prop
  | [], invocations =>
      ∃ done, done <+: rounds ∧ List.Forall₂ (InRound environment directory) done invocations
  | name :: remaining, invocations =>
      invocations.length ≤ 1 ∧ ∀ invocation ∈ invocations,
        InvokedIn environment directory invocation ∧
          Command.named name remaining draws = some invocation.command

theorem keepsFiles_println (round : Nat) (text : List UInt8) :
    KeepsFiles (ofCli round (Cli.println text)) := by
  apply keepsFiles_ofCli
  constructor
  · trivial
  · intro reply
    cases reply <;> trivial

/-- What a process does to the files, so far. -/
def AfterProcess (environment : Environment) (primitives : Primitives) (draws : CommandDraws)
    (rounds : List CommandDraws) (args : List (List UInt8)) (fs later : FileSystem) : Prop :=
  ∃ invocations, OfProcess environment fs.working draws rounds args invocations ∧
    later = runAll primitives 0 invocations fs

theorem runNamed_afterProcess {good : TerminalCall → TerminalOutcome → Prop} (draws : CommandDraws)
    (rounds : List CommandDraws) (name : List UInt8) (remaining : List (List UInt8))
    (console : Console) :
    Throughout good
      (fun later => AfterProcess environment primitives draws rounds (name :: remaining)
        console.files later.files)
      (runNamed environment primitives draws name remaining) console := by
  have idle : ∀ later : Console, later.files = console.files →
      AfterProcess environment primitives draws rounds (name :: remaining) console.files
        later.files :=
    fun later same => ⟨[], ⟨Nat.zero_le 1, List.forall_mem_nil _⟩, same⟩
  unfold runNamed
  cases named : Command.named name remaining draws with
  | some command =>
      apply (ofCli_passes 0 (command.run primitives environment)).mono
      intro later passes
      obtain ⟨outcomes, there⟩ := passes
      refine ⟨[⟨environment, console.files.working, command, outcomes⟩],
        ⟨Nat.le_refl 1, ?_⟩, ?_⟩
      · intro invocation member
        cases List.mem_singleton.1 member
        exact ⟨⟨rfl, rfl⟩, named⟩
      · simp only [runAll, Invocation.run]
        rw [Storage.seenFrom_working]
        exact there.symm
  | none =>
      cases Cli.discover environment with
      | error stopped => exact idle console rfl
      | ok paths =>
          change Throughout _ _ (ite _ _ _) _
          split
          · exact (keepsFiles_println 0 _).throughout.mono idle
          · exact idle console rfl

theorem run_afterProcess {good : TerminalCall → TerminalOutcome → Prop} (keys : Nat)
    (isTerminal : Bool) (draws : CommandDraws) (rounds : List CommandDraws)
    (args : List (List UInt8)) (console : Console) :
    Throughout good
      (fun later => AfterProcess environment primitives draws rounds args console.files later.files)
      (Sealed.run environment primitives keys isTerminal draws rounds args) console := by
  cases args with
  | nil =>
      have idle : AfterProcess environment primitives draws rounds [] console.files
          console.files := ⟨[], ⟨[], List.nil_prefix, .nil⟩, rfl⟩
      unfold Sealed.run
      cases isTerminal with
      | false => exact idle
      | true =>
          change Throughout _ _ (interactive environment primitives keys rounds) _
          unfold interactive
          cases discovered : Cli.discover environment with
          | error stopped => exact idle
          | ok paths =>
              apply (menu_afterRounds keys 0 rounds discovered console).mono
              intro later after
              obtain ⟨done, invocations, first, each, same⟩ := after
              exact ⟨invocations, ⟨done, first, each⟩, same⟩
  | cons name remaining =>
      change Throughout _ _ (check (.okOr (fromUtf8 name) _) >>= fun text =>
        runNamed environment primitives draws text remaining) _
      cases valid : fromUtf8 name with
      | none =>
          have idle : AfterProcess environment primitives draws rounds (name :: remaining)
              console.files console.files := ⟨[], ⟨Nat.zero_le 1, List.forall_mem_nil _⟩, rfl⟩
          exact idle
      | some text =>
          obtain ⟨_, same⟩ := fromUtf8_eq_some_iff.1 valid
          subst same
          exact runNamed_afterProcess draws rounds name remaining console

/-- What a process does to the files, however it fails and wherever it dies, is what commands do
that run one after another. So it spares keys and pins, as these do. -/
theorem run_is_commands (environment : Environment) (primitives : Primitives) (keys : Nat)
    (isTerminal : Bool) (draws : CommandDraws) (rounds : List CommandDraws)
    (args : List (List UInt8)) (console : Console) (outcomes : List TerminalOutcome) :
    let after := (Program.run TerminalCall.respond
      (Sealed.run environment primitives keys isTerminal draws rounds args).run console
      outcomes).2.1
    ∃ invocations, OfProcess environment console.files.working draws rounds args invocations ∧
      after.files = runAll primitives 0 invocations console.files ∧
      (Older 0 console.files → ∀ directory name file,
        console.files.lookup directory name = some (.file file) →
        KeyOrPin primitives (console.files.contents file) →
          after.files.lookup directory name = some (.file file) ∧
            after.files.contents file = console.files.contents file) := by
  intro after
  have refined : Throughout (fun _ _ => True)
      (fun later => AfterProcess environment primitives draws rounds args console.files later.files)
      (Sealed.run environment primitives keys isTerminal draws rounds args) console :=
    run_afterProcess keys isTerminal draws rounds args console
  obtain ⟨invocations, ofProcess, same⟩ := refined.of_run fun _ _ => trivial
  refine ⟨invocations, ofProcess, same, ?_⟩
  intro older directory name file found safe
  obtain ⟨spared, _⟩ := @runAll_spared primitives console.files 0 invocations older
  rw [← same] at spared
  rcases spared.entry directory name file found with still | lost
  · exact ⟨still, spared.contents file (console.files.filesExist _ _ _ found)⟩
  · exact absurd lost safe.not_letter

/-! ## The terminal after a process -/

namespace Terminal

variable {α β : Type} {console : Console} {mode : Settings}

/-- The settings of the terminal are these, and nothing has panicked. -/
structure Civil (mode : Settings) (later : Console) (result : Except Halt α) : Prop where
  mode : result ≠ .error .unfinished → later.mode = mode
  noPanic : result ≠ .error (.stopped .panic)

theorem Civil.stopped {later : Console} {halt : Halt}
    (civil : Civil mode later (.error halt : Except Halt α)) :
    Civil mode later (.error halt : Except Halt β) where
  mode := fun done => civil.mode fun same => done (congrArg _ (Except.error.inj same))
  noPanic := fun panicked => civil.noPanic (congrArg _ (Except.error.inj panicked))

/-- As long as `stty` restores what it is asked to restore, a function asks for lines and acts on
files only while the terminal has these settings, and leaves it with them. -/
def KeepsMode (mode : Settings) (function : Terminal α) (console : Console) : Prop :=
  Always (Restores mode) (Cooked mode) (Civil mode) function console

theorem keepsMode_result {result : Result α} (same : console.mode = mode)
    (noPanic : Checked.NoPanic result) : KeepsMode mode (check result) console := by
  apply always_check
  constructor
  · exact fun _ => same
  · intro panicked
    cases result with
    | ok value => cases panicked
    | error abort =>
        cases panicked
        exact noPanic rfl

theorem keepsMode_return {value : α} (same : console.mode = mode) :
    KeepsMode mode (return value) console :=
  keepsMode_result same (Checked.noPanic_ok value)

theorem keepsMode_then {function : Terminal α} {rest : α → Terminal β}
    (first : KeepsMode mode function console)
    (next : ∀ later value, later.mode = mode → KeepsMode mode (rest value) later) :
    KeepsMode mode (function >>= rest) console := by
  apply always_then first
  · exact fun later value civil => next later value (civil.mode nofun)
  · exact fun later halt civil => civil.stopped

theorem keepsMode_catchError {function : Terminal α} (keeps : KeepsMode mode function console) :
    KeepsMode mode (catchError function) console := by
  apply always_catchError
  apply keeps.mono fun _ _ => id
  intro later result civil
  cases result with
  | ok value => exact ⟨fun _ => civil.mode nofun, nofun⟩
  | error halt =>
      cases halt with
      | unfinished => exact ⟨fun done => absurd rfl done, nofun⟩
      | stopped abort =>
          cases abort with
          | error error => exact ⟨fun _ => civil.mode nofun, nofun⟩
          | panic => exact absurd rfl civil.noPanic

theorem keepsMode_ofCli {command : Cli α} {allowed : CliCall → Prop} (round : Nat)
    (noPanic : Program.Confined allowed Checked.NoPanic command.run)
    (same : console.mode = mode) : KeepsMode mode (ofCli round command) console := by
  have kept : Always (Restores mode) (Cooked mode)
      (fun later result => later.mode = mode ∧
        ∃ value, result = Except.mapError .stopped value ∧ Checked.NoPanic value)
      (ofCli round command) console := by
    apply Program.Confined.always (makes_ofCli noPanic)
    · exact same
    · exact fun request called later same _ _ _ => same
    · intro request called later same happened _
      obtain ⟨call, cli, _⟩ := called
      subst cli
      exact same
  apply kept.mono fun _ _ => id
  intro later result holds
  obtain ⟨same, value, came, noPanic⟩ := holds
  subst came
  have civil : KeepsMode mode (check value) later := keepsMode_result same noPanic
  exact civil

theorem keepsMode_chooseFromList (keys round choices : Nat) (same : console.mode = mode) :
    KeepsMode mode (chooseFromList keys round choices) console := by
  subst same
  apply (chooses keys round choices).mono fun _ _ => id
  exact fun later result chosen => ⟨chosen.mode, chosen.noPanic⟩

theorem keepsMode_answer (keys round : Nat) (request : CliCall) (same : console.mode = mode) :
    KeepsMode mode (answer keys round request) console := by
  have itself : ∀ call : CliCall, KeepsMode mode (attempt (.cli round call)) console := by
    intro call
    constructor
    · exact fun _ _ _ => same
    · exact fun happened _ => ⟨fun _ => same, nofun⟩
  cases request with
  | file request => exact itself (.file request)
  | print bytes => exact itself (.print bytes)
  | flush => exact itself .flush
  | readInput limit => exact itself (.readInput limit)
  | readLine => exact itself .readLine
  | choose choices =>
      apply keepsMode_then (keepsMode_chooseFromList keys round choices same)
      exact fun later choice same => keepsMode_return same

theorem keepsMode_ofWizard {command : Cli α} {allowed : CliCall → Prop} (keys round : Nat)
    (noPanic : Program.Confined allowed Checked.NoPanic command.run)
    (same : console.mode = mode) : KeepsMode mode (ofWizard keys round command) console := by
  apply Program.Confined.always_link noPanic
  · intro request _ later same
    apply (keepsMode_answer keys round request same).mono fun _ _ => id
    intro final reply civil
    cases reply with
    | ok reply => exact civil.mode nofun
    | error halt => exact civil.stopped
  · exact fun later value same _ => ⟨fun _ => same, nofun⟩
  · intro later stopped same noPanic
    have civil : KeepsMode mode (check (.error stopped : Result α)) later :=
      keepsMode_result same noPanic
    exact civil
  · exact same

theorem confined_follows {command : Cli α} {effects : Effects}
    (follows : Cli.Follows effects command) :
    Program.Confined (fun _ => True) Checked.NoPanic command.run :=
  (follows .none).confined (fun _ _ _ => trivial) fun _ _ => id

theorem follows_wizardShow (paths : StatePaths) :
    Cli.Follows .none (Cli.wizardShow primitives paths) := by
  have looks := fun (request : FileCall) (readOnly : request.ReadOnly) => readOnly
  apply Cli.follows_bind
  · exact Cli.follows_mapErr (Cli.follows_looking (Storage.makes_exportProfile looks paths)) _
  · intro profile
    apply Cli.follows_bind (Cli.follows_looking (Storage.makes_allContacts looks paths))
    exact fun _ => Cli.follows_return ()

/-- No wizard panics. -/
theorem noPanic_wizard {paths : StatePaths} {draws : CommandDraws} {index : Nat}
    {action : Cli Unit} (discovered : Cli.discover environment = .ok paths)
    (chosen : wizard environment primitives paths draws index = some action) :
    Program.Confined (fun _ => True) Checked.NoPanic action.run := by
  have invoked : ∀ command : Command, command.run primitives environment = action →
      Program.Confined (fun _ => True) Checked.NoPanic action.run := by
    intro command same
    subst same
    exact confined_follows (command.follows_scope environment)
  unfold Command.run at invoked
  rw [discovered] at invoked
  unfold wizard at chosen
  split at chosen
  · exact invoked (.wizardInit draws.identity) (Option.some.inj chosen)
  · exact invoked .wizardExport (Option.some.inj chosen)
  · exact invoked .wizardTrust (Option.some.inj chosen)
  · exact invoked (.wizardSeal draws.letter) (Option.some.inj chosen)
  · exact invoked .wizardOpen (Option.some.inj chosen)
  · cases chosen
    exact confined_follows (follows_wizardShow paths)
  · cases chosen

theorem keepsMode_printStateSummary (round : Nat) (paths : StatePaths)
    (same : console.mode = mode) :
    KeepsMode mode (printStateSummary primitives round paths) console := by
  have looks := fun (request : FileCall) (readOnly : request.ReadOnly) => readOnly
  have exports := @Cli.follows_looking _ .none _
    (@Storage.makes_exportProfile _ primitives looks paths)
  have lists := @Cli.follows_looking _ .none _
    (@Storage.makes_allContacts _ primitives looks paths)
  apply keepsMode_then
    (keepsMode_catchError (keepsMode_ofCli round (confined_follows exports) same))
  intro later profile same
  apply keepsMode_then (keepsMode_catchError (keepsMode_ofCli round (confined_follows lists) same))
  exact fun final contacts same => keepsMode_return same

theorem keepsMode_waitForEnter (round : Nat) (same : console.mode = mode) :
    KeepsMode mode (waitForEnter round) console := by
  have reads := @Cli.follows_perform .none .readLine fun _ => trivial
  apply keepsMode_then (keepsMode_ofCli round (confined_follows reads) same)
  exact fun later line same => keepsMode_return same

/-- By induction on the rounds: each of them begins and ends with the settings. -/
theorem keepsMode_menu (keys : Nat) {paths : StatePaths} (round : Nat) (rounds : List CommandDraws)
    (discovered : Cli.discover environment = .ok paths) (same : console.mode = mode) :
    KeepsMode mode (menu environment primitives keys paths round rounds) console := by
  induction rounds generalizing round console with
  | nil => exact ⟨fun done => absurd rfl done, nofun⟩
  | cons draws rest ih =>
      apply keepsMode_then (keepsMode_printStateSummary round paths same)
      intro later _ same
      apply keepsMode_then (keepsMode_chooseFromList keys round _ same)
      intro later choice same
      cases choice with
      | none => exact keepsMode_return same
      | some index =>
          unfold afterChoice
          simp only
          cases chosen : wizard environment primitives paths draws index with
          | none =>
              simp only
              split
              · exact keepsMode_return same
              · exact keepsMode_result same (Checked.noPanic_err _)
          | some action =>
              apply keepsMode_then (keepsMode_catchError
                (keepsMode_ofWizard keys round (noPanic_wizard discovered chosen) same))
              intro later shown same
              apply keepsMode_then (keepsMode_waitForEnter round same)
              exact fun later _ same => ih (round + 1) same

end Terminal

/-- The settings of the terminal are these, and nothing has panicked but the help text. -/
structure Restored (args : List (List UInt8)) (mode : Settings) (later : Console)
    (result : Except Halt Unit) : Prop where
  mode : result ≠ .error .unfinished → later.mode = mode
  panics : result = .error (.stopped .panic) →
    ∃ name ∈ [ascii "help", ascii "--help", ascii "-h"], args.head? = some name

theorem Terminal.KeepsMode.restored {args : List (List UInt8)} {mode : Settings}
    {function : Terminal Unit} {console : Console} (keeps : KeepsMode mode function console) :
    Always (Restores mode) (Cooked mode) (Restored args mode) function console := by
  apply Program.Always.mono keeps fun _ _ => id
  exact fun later result civil => ⟨civil.mode, fun panicked => absurd panicked civil.noPanic⟩

theorem runNamed_restores {mode : Settings} (draws : CommandDraws) (name : List UInt8)
    (remaining : List (List UInt8)) (console : Console) (same : console.mode = mode) :
    Always (Restores mode) (Cooked mode) (Restored (name :: remaining) mode)
      (runNamed environment primitives draws name remaining) console := by
  unfold runNamed
  cases named : Command.named name remaining draws with
  | some command =>
      have follows : Cli.Follows command.scope (command.run primitives environment) :=
        command.follows_scope environment
      exact (keepsMode_ofCli 0 (confined_follows follows) same).restored
  | none =>
      have discovers : KeepsMode mode (check (Cli.discover environment)) console :=
        keepsMode_result same (Command.noPanic_discover environment)
      apply always_then discovers
      · intro later paths civil
        have same : later.mode = mode := civil.mode nofun
        split
        · rename_i help
          have kept : Always (Restores mode) (Cooked mode)
              (fun final result => final.mode = mode ∧
                ∃ value, result = Except.mapError .stopped value ∧ True)
              (ofCli 0 (Cli.println (ascii Cli.usage))) later := by
            apply Program.Confined.always (makes_ofCli (Program.confined_any _))
            · exact same
            · exact fun request called later same _ _ _ => same
            · intro request called final same happened _
              obtain ⟨call, cli, _⟩ := called
              subst cli
              exact same
          apply kept.mono fun _ _ => id
          intro final result holds
          exact ⟨fun _ => holds.1, fun _ => ⟨name, by simpa using help, rfl⟩⟩
        · exact (keepsMode_result same (Checked.noPanic_err _)).restored
      · intro later halt civil
        have stopped : Civil mode later (.error halt : Except Halt Unit) := civil.stopped
        exact ⟨stopped.mode, fun panicked => absurd panicked stopped.noPanic⟩

/-- Whatever happens, as long as `stty` restores what it is asked to restore: a process asks for
lines and acts on files only while the terminal has the settings that it had at the start, and has
them when it comes to its end. It panics nowhere but where it prints the help text. -/
theorem run_restores_terminal (environment : Environment) (primitives : Primitives) (keys : Nat)
    (isTerminal : Bool) (draws : CommandDraws) (rounds : List CommandDraws)
    (args : List (List UInt8)) (console : Console) :
    Always (Restores console.mode) (Cooked console.mode) (Restored args console.mode)
      (Sealed.run environment primitives keys isTerminal draws rounds args) console := by
  have usage : ∀ args, Always (Restores console.mode) (Cooked console.mode)
      (Restored args console.mode) (check (.err (.usage Cli.usage))) console :=
    fun _ => (keepsMode_result rfl (Checked.noPanic_err _)).restored
  cases args with
  | nil =>
      unfold Sealed.run
      cases isTerminal with
      | false => exact usage []
      | true =>
          have keeps : KeepsMode console.mode (interactive environment primitives keys rounds)
              console := by
            unfold interactive
            cases discovered : Cli.discover environment with
            | error stopped =>
                have noPanic : Checked.NoPanic (.error stopped : Result Unit) := by
                  intro panicked
                  cases panicked
                  exact Command.noPanic_discover environment discovered
                have stops : KeepsMode console.mode (check (.error stopped : Result Unit))
                    console := keepsMode_result rfl noPanic
                exact stops
            | ok paths => exact keepsMode_menu keys 0 rounds discovered rfl
          exact keeps.restored
  | cons name remaining =>
      change Always _ _ _ (check (.okOr (fromUtf8 name) _) >>= fun text =>
        runNamed environment primitives draws text remaining) _
      cases valid : fromUtf8 name with
      | none => exact usage (name :: remaining)
      | some text =>
          obtain ⟨_, same⟩ := fromUtf8_eq_some_iff.1 valid
          subst same
          exact runNamed_restores draws name remaining console rfl

end Sealed
