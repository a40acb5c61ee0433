import Mathlib.Data.Int.ModEq
import Sealed.Terminal

/-! What a choice from a list comes to. The arrow keys turn around a ring of the choices, a
number names one of them, and the settings of the terminal are restored. -/

set_option autoImplicit false

namespace Sealed.Terminal

open Foundation

variable {α β : Type} {good : TerminalCall → TerminalOutcome → Prop}
  {before : Console → TerminalCall → Prop} {console : Console}

/-! ## Rules -/

/-- As long as the outcomes are good, the first condition holds before every call, and the
second one where the function is done. -/
def Always (good : TerminalCall → TerminalOutcome → Prop) (before : Console → TerminalCall → Prop)
    (post : Console → Except Halt α → Prop) (function : Terminal α) (console : Console) : Prop :=
  Program.Always TerminalCall.respond good before post function.run console

theorem Always.mono {wider : Console → TerminalCall → Prop}
    {post goal : Console → Except Halt α → Prop} {function : Terminal α}
    (always : Always good before post function console)
    (points : ∀ later request, before later request → wider later request)
    (values : ∀ later result, post later result → goal later result) :
    Always good wider goal function console :=
  Program.Always.mono always points values

theorem always_check {post : Console → Except Halt α → Prop} {result : Result α}
    (holds : post console (result.mapError .stopped)) :
    Always good before post (check result) console := holds

theorem always_return {post : Console → Except Halt α → Prop} {value : α}
    (holds : post console (.ok value)) : Always good before post (return value) console := holds

theorem always_then {post : Console → Except Halt α → Prop} {goal : Console → Except Halt β → Prop}
    {function : Terminal α} {rest : α → Terminal β}
    (first : Always good before post function console)
    (next : ∀ later value, post later (.ok value) → Always good before goal (rest value) later)
    (stops : ∀ later halt, post later (.error halt) → goal later (.error halt)) :
    Always good before goal (function >>= rest) console := by
  apply Program.Always.andThen
  apply Program.Always.mono first fun _ _ => id
  intro later result holds
  cases result with
  | ok value => exact next later value holds
  | error halt => exact stops later halt holds

theorem always_attempt {request : TerminalCall}
    {post : Console → Except Halt request.Reply → Prop} (point : before console request)
    (answers : ∀ happened, good request happened →
      post (TerminalCall.respond console request happened).2
        (.ok (TerminalCall.respond console request happened).1)) :
    Always good before post (attempt request) console := ⟨point, answers⟩

/-- The value of a call that ends its function when it fails. -/
def answered {answer : Type} (reply : Except IoErrorKind answer) : Except Halt answer :=
  reply.mapError fun kind => .stopped (.error (.io kind))

theorem always_perform {request : TerminalCall}
    {post : Console → Except Halt request.Answer → Prop} (point : before console request)
    (answers : ∀ happened, good request happened →
      post (TerminalCall.respond console request happened).2
        (answered (TerminalCall.respond console request happened).1)) :
    Always good before post (perform request) console := by
  apply Program.Always.andThen
  constructor
  · exact point
  · intro happened fine
    have holds := answers happened fine
    generalize TerminalCall.respond console request happened = answer at holds
    obtain ⟨reply, later⟩ := answer
    cases reply with
    | ok value => exact holds
    | error kind => exact holds

/-- What a function comes to where its error is inspected. -/
def caught (result : Except Halt α) : Except Halt (Except Error α) :=
  match result with
  | .ok value => .ok (.ok value)
  | .error (.stopped (.error error)) => .ok (.error error)
  | .error halt => .error halt

theorem always_catchError {post : Console → Except Halt (Except Error α) → Prop}
    {function : Terminal α}
    (always : Always good before (fun later result => post later (caught result)) function
      console) :
    Always good before post (catchError function) console := by
  apply Program.Always.bind
  apply Program.Always.mono always fun _ _ => id
  intro later result holds
  cases result with
  | ok value => exact holds
  | error halt =>
      cases halt with
      | unfinished => exact holds
      | stopped abort => cases abort <;> exact holds

theorem always_dropping {post : Console → Except Halt α → Prop} {cleanup : Terminal Unit}
    {body : Terminal α}
    (always : Always good before
      (fun later result =>
        (result = .error .unfinished → post later (.error .unfinished)) ∧
        (result ≠ .error .unfinished → Always good before
          (fun final cleaned => cleaned = .ok () ∧ post final result) cleanup later))
      body console) :
    Always good before post (dropping cleanup body) console := by
  apply Program.Always.bind
  apply Program.Always.mono always fun _ _ => id
  intro later result holds
  have cleans : result ≠ .error .unfinished → Program.Always TerminalCall.respond good before post
      (do cleanup; ExceptT.mk (pure result) : Terminal α).run later := by
    intro done
    apply always_then (holds.2 done)
    · exact fun final _ cleaned => cleaned.2
    · intro final halt cleaned
      cases cleaned.1
  cases result with
  | ok value => exact cleans nofun
  | error halt =>
      cases halt with
      | unfinished => exact holds.1 rfl
      | stopped abort => exact cleans nofun

/-! ## The keys that bytes spell -/

/-- The first key, and the bytes behind it. -/
def nextKey : List UInt8 → Option (PickerKey × List UInt8)
  | [] => none
  | byte :: rest =>
      match keyOfByte byte with
      | some key => some (key, rest)
      | none =>
          match rest with
          | second :: third :: rest => some (keyOfSequence [second, third], rest)
          | _ => none

/-- What is typed until a choice ends: the keys that move, the key that ends it, unless the bytes
end before, and the bytes behind it. -/
structure Presses where
  moves : List PickerKey
  ending : Option PickerKey
  unread : List UInt8
deriving DecidableEq

def Presses.after (presses : Presses) (key : PickerKey) : Presses :=
  { presses with moves := key :: presses.moves }

def presses : List UInt8 → Presses
  | [] => ⟨[], none, []⟩
  | byte :: rest =>
      match keyOfByte byte with
      | some .select => ⟨[], some .select, rest⟩
      | some .cancel => ⟨[], some .cancel, rest⟩
      | some key => (presses rest).after key
      | none =>
          match rest with
          | second :: third :: rest => (presses rest).after (keyOfSequence [second, third])
          | _ => ⟨[], none, []⟩

/-- How far a key moves. -/
def PickerKey.step : PickerKey → ℤ
  | .up => -1
  | .down => 1
  | .select | .cancel | .ignore => 0

/-- Where the keys lead on a ring of so many choices. -/
def position (choices start : Nat) (moves : List PickerKey) : Nat :=
  ((start + (moves.map PickerKey.step).sum) % choices).toNat

/-- A read that finds too few bytes. -/
def inputEnded {α : Type} : Except Halt α := .error (.stopped (.error (.io .other)))

/-- What a choice comes to. -/
def Presses.choice (choices start : Nat) (presses : Presses) : Except Halt (Option Nat) :=
  match presses.ending with
  | some .select => .ok (some (position choices start presses.moves))
  | some _ => .ok none
  | none => inputEnded

theorem keyOfSequence_moves (sequence : List UInt8) :
    keyOfSequence sequence ≠ .select ∧ keyOfSequence sequence ≠ .cancel := by
  unfold keyOfSequence
  split
  · exact ⟨nofun, nofun⟩
  · split
    · exact ⟨nofun, nofun⟩
    · exact ⟨nofun, nofun⟩

theorem presses_eq (typed : List UInt8) :
    presses typed =
      match nextKey typed with
      | none => ⟨[], none, []⟩
      | some (key, rest) =>
          if key = .select ∨ key = .cancel then ⟨[], some key, rest⟩
          else (presses rest).after key := by
  match typed with
  | [] => rfl
  | [byte] | [byte, _] =>
      cases known : keyOfByte byte with
      | none => simp [presses, nextKey, known]
      | some key => cases key <;> simp [presses, nextKey, known]
  | byte :: second :: third :: typed =>
      rw [presses]
      cases known : keyOfByte byte with
      | none =>
          obtain ⟨notSelect, notCancel⟩ := keyOfSequence_moves [second, third]
          simp [nextKey, known, notSelect, notCancel]
      | some key => cases key <;> simp [nextKey, known]

theorem presses_cut {typed : List UInt8} (next : nextKey typed = none) :
    presses typed = ⟨[], none, []⟩ := by
  rw [presses_eq, next]

theorem presses_ended {typed rest : List UInt8} {key : PickerKey}
    (next : nextKey typed = some (key, rest)) (ends : key = .select ∨ key = .cancel) :
    presses typed = ⟨[], some key, rest⟩ := by
  rw [presses_eq, next]
  exact if_pos ends

theorem presses_moved {typed rest : List UInt8} {key : PickerKey}
    (next : nextKey typed = some (key, rest)) (moves : key ≠ .select ∧ key ≠ .cancel) :
    presses typed = (presses rest).after key := by
  rw [presses_eq, next]
  exact if_neg (not_or.2 moves)

/-! ## The choice by keys -/

/-- The call is carried out, and `stty` does all that it is asked for. -/
def Steady (_ : TerminalCall) (happened : TerminalOutcome) : Prop :=
  happened.cli.outcome ≠ .failed ∧ ∃ mode, happened.stty = .done mode

/-- No condition before a call. -/
abbrev Anywhere (_ : Console) (_ : TerminalCall) : Prop := True

theorem reads_bytes {count : Nat} (bytes : Bytes count) {rest : List UInt8}
    (typed : console.typed = bytes.toList ++ rest) :
    Always Steady Anywhere
      (fun later result => result = .ok bytes ∧ later = { console with typed := rest })
      (perform (.readExact count)) console := by
  apply always_perform trivial
  intro happened steady
  obtain ⟨⟨outcome, input, choice⟩, settings⟩ := happened
  have taken : console.typed.take count = bytes.toList := by
    rw [typed]
    exact List.take_left' bytes.length_eq
  have left : console.typed.drop count = rest := by
    rw [typed]
    exact List.drop_left' bytes.length_eq
  cases outcome with
  | failed => exact absurd rfl steady.1
  | carriedOut chunk =>
      simp only [TerminalCall.respond, taken, left, Bytes.tryFrom_toList]
      exact ⟨rfl, trivial⟩

theorem reads_end {count : Nat} (short : console.typed.length < count) :
    Always Steady Anywhere
      (fun later result => result = inputEnded ∧ later = { console with typed := [] })
      (perform (.readExact count)) console := by
  apply always_perform trivial
  intro happened steady
  obtain ⟨⟨outcome, input, choice⟩, settings⟩ := happened
  have missing : Bytes.tryFrom count (console.typed.take count) = none := by
    apply dif_neg
    rw [List.length_take]
    omega
  cases outcome with
  | failed => exact absurd rfl steady.1
  | carriedOut chunk =>
      simp only [TerminalCall.respond, missing]
      exact ⟨rfl, trivial⟩

theorem reads_key {key : PickerKey} {rest : List UInt8}
    (next : nextKey console.typed = some (key, rest)) :
    Always Steady Anywhere
      (fun later result => result = .ok key ∧ later = { console with typed := rest })
      readPickerKey console := by
  match typed : console.typed with
  | [] =>
      rw [typed] at next
      cases next
  | byte :: behind =>
      rw [typed] at next
      apply always_then (reads_bytes ⟨[byte], rfl⟩ typed)
      · intro later first read
        obtain ⟨same, there⟩ := read
        cases same
        subst there
        change Always _ _ _ (keyFrom byte) _
        unfold keyFrom
        unfold nextKey at next
        cases known : keyOfByte byte with
        | some other =>
            simp only [known] at next
            cases next
            exact always_return ⟨rfl, rfl⟩
        | none =>
            simp only [known] at next
            match behind with
            | [] | [_] => cases next
            | second :: third :: behind =>
                cases next
                apply always_then (reads_bytes ⟨[second, third], rfl⟩ rfl)
                · intro later sequence read
                  obtain ⟨same, there⟩ := read
                  cases same
                  subst there
                  exact always_return ⟨rfl, rfl⟩
                · exact fun _ _ read => nomatch read.1
      · exact fun _ _ read => nomatch read.1

theorem reads_no_key (next : nextKey console.typed = none) :
    Always Steady Anywhere
      (fun later result => result = inputEnded ∧ later = { console with typed := [] })
      readPickerKey console := by
  match typed : console.typed with
  | [] =>
      apply always_then (reads_end (by rw [typed]; exact Nat.one_pos))
      · exact fun _ _ ended => nomatch ended.1
      · intro later halt ended
        obtain ⟨same, there⟩ := ended
        cases same
        exact ⟨rfl, there⟩
  | byte :: behind =>
      rw [typed] at next
      apply always_then (reads_bytes ⟨[byte], rfl⟩ typed)
      · intro later first read
        obtain ⟨same, there⟩ := read
        cases same
        subst there
        change Always _ _ _ (keyFrom byte) _
        unfold keyFrom
        unfold nextKey at next
        cases known : keyOfByte byte with
        | some other =>
            simp only [known] at next
            cases next
        | none =>
            have short : behind.length < 2 := by
              simp only [known] at next
              match behind with
              | [] => exact Nat.two_pos
              | [_] => exact Nat.one_lt_two
              | second :: third :: behind => cases next
            apply always_then (reads_end short)
            · exact fun _ _ ended => nomatch ended.1
            · intro later halt ended
              obtain ⟨same, there⟩ := ended
              cases same
              exact ⟨rfl, there⟩
      · exact fun _ _ read => nomatch read.1

/-- Where one key leads. -/
theorem position_turn {choices start next : Nat} {key : PickerKey} (moves : List PickerKey)
    (turned : (next : ℤ) ≡ start + key.step [ZMOD choices]) :
    position choices next moves = position choices start (key :: moves) := by
  unfold position
  rw [List.map_cons, List.sum_cons, ← add_assoc]
  exact congrArg Int.toNat (turned.add_right _)

theorem turns_up {choices selected : Nat} (inside : selected < choices) :
    (((checkedSub selected 1).getD (choices - 1) : Nat) : ℤ) ≡
      selected + PickerKey.up.step [ZMOD choices] := by
  cases selected with
  | zero =>
      have wraps : (((choices - 1 : Nat)) : ℤ) = -1 + choices := by omega
      change ((choices - 1 : Nat) : ℤ) ≡ _ [ZMOD _]
      rw [wraps]
      exact Int.add_modulus_modEq_iff.2 rfl
  | succ selected =>
      have back : ((selected : Nat) : ℤ) = (selected + 1 : Nat) + PickerKey.up.step := by
        simp [PickerKey.step]
      change ((selected : Nat) : ℤ) ≡ _ [ZMOD _]
      rw [back]

theorem turns_down (choices selected : Nat) :
    (((selected + 1) % choices : Nat) : ℤ) ≡ selected + PickerKey.down.step [ZMOD choices] := by
  rw [Int.natCast_mod]
  exact Int.mod_modEq _ _

theorem inside_up {choices selected : Nat} (inside : selected < choices) :
    (checkedSub selected 1).getD (choices - 1) < choices := by
  unfold checkedSub
  split
  · simp only [Option.getD_some]
    omega
  · simp only [Option.getD_none]
    omega

/-- The loop, from any selection on: by induction on the keys that it may read. -/
theorem picks {choices : Nat} (keys : Nat) {selected : Nat} (inside : selected < choices)
    (enough : (presses console.typed).moves.length < keys) :
    Always Steady Anywhere
      (fun later result => result = (presses console.typed).choice choices selected ∧
        later = { console with typed := (presses console.typed).unread })
      (pickFrom choices keys selected) console := by
  induction keys generalizing selected console with
  | zero => omega
  | succ keys ih =>
      unfold pickFrom
      cases next : nextKey console.typed with
      | none =>
          rw [presses_cut next]
          apply always_then (reads_no_key next)
          · intro later key ended
            cases ended.1
          · intro later halt ended
            obtain ⟨same, there⟩ := ended
            cases same
            exact ⟨rfl, there⟩
      | some step =>
          obtain ⟨key, rest⟩ := step
          apply always_then (reads_key next)
          · intro later found read
            obtain ⟨same, there⟩ := read
            cases same
            subst there
            have turn : ∀ turned, turned < choices →
                (turned : ℤ) ≡ selected + key.step [ZMOD choices] →
                key ≠ .select ∧ key ≠ .cancel → Always Steady Anywhere
                  (fun later result => result = (presses console.typed).choice choices selected ∧
                    later = { console with typed := (presses console.typed).unread })
                  (pickFrom choices keys turned) { console with typed := rest } := by
              intro turned within congruent moves
              have spelled := presses_moved next moves
              rw [spelled] at enough ⊢
              have fewer : (presses rest).moves.length < keys := Nat.lt_of_succ_lt_succ enough
              apply (@ih { console with typed := rest } _ within fewer).mono fun _ _ => id
              intro later result picked
              refine ⟨picked.1.trans ?_, picked.2⟩
              unfold Presses.choice Presses.after
              simp only [position_turn _ congruent]
            cases key with
            | up => exact turn _ (inside_up inside) (turns_up inside) (by simp)
            | down => exact turn _ (Nat.mod_lt _ (by omega)) (turns_down _ _) (by simp)
            | ignore => exact turn _ inside (by simp [PickerKey.step, Int.ModEq]) (by simp)
            | select =>
                rw [presses_ended next (.inl rfl)]
                have stays : position choices selected [] = selected := by
                  simp [position, Int.emod_eq_of_lt, inside]
                exact always_return ⟨by rw [Presses.choice, stays], rfl⟩
            | cancel =>
                rw [presses_ended next (.inr rfl)]
                exact always_return ⟨rfl, rfl⟩
          · intro later halt read
            cases read.1

/-! ## The settings of the terminal -/

theorem Settings.ofText_text (mode : Settings) : Settings.ofText mode.text = some mode :=
  dif_pos ⟨mode.valid, mode.trimmed, mode.distinct⟩

theorem stty_asks (console : Console) (happened : SttyOutcome) :
    (console.stty [ascii "-g"] happened).2 = console ∧
      ((console.stty [ascii "-g"] happened).1 = (true, console.mode.text ++ [newline]) ∨
        (console.stty [ascii "-g"] happened).1.1 = false) := by
  cases happened with
  | done mode => exact ⟨rfl, .inl rfl⟩
  | refused mode => exact ⟨rfl, .inr rfl⟩

theorem stty_restores (console : Console) (mode left : Settings) :
    console.stty [mode.text] (.done left) = ((true, []), { console with mode }) := by
  simp only [Console.stty, if_neg mode.distinct, Settings.ofText_text]

theorem stty_raw (console : Console) (happened : SttyOutcome) :
    ∃ mode, (console.stty rawArguments happened).2 = { console with mode } ∧
      (console.stty rawArguments happened).1.2 = [] := by
  cases happened with
  | done mode => exact ⟨mode, rfl, rfl⟩
  | refused mode => exact ⟨mode, rfl, rfl⟩

theorem noPanic_sttyText (output : Bool × List UInt8) : Checked.NoPanic (sttyText output) := by
  apply Checked.noPanic_bind (Checked.noPanic_reject _ _)
  intro _ _
  exact Checked.noPanic_bind (Checked.noPanic_okOr _ _) fun _ _ => Checked.noPanic_ok _

theorem always_stty {arguments : List (List UInt8)}
    {post : Console → Except Halt (List UInt8) → Prop} (point : before console (.stty arguments))
    (unstarted : ∀ happened, good (.stty arguments) happened → happened.cli.outcome = .failed →
      post console inputEnded)
    (ran : ∀ happened, good (.stty arguments) happened → happened.cli.outcome ≠ .failed →
      post (console.stty arguments happened.stty).2
        ((sttyText (console.stty arguments happened.stty).1).mapError .stopped)) :
    Always good before post (stty arguments) console := by
  have called : Always good before (fun later output => Program.Continues
      (fun output => post later ((sttyText output).mapError .stopped))
      (fun halt => post later (.error halt)) output) (perform (.stty arguments)) console := by
    apply always_perform point
    intro happened fine
    obtain ⟨⟨outcome, input, choice⟩, settings⟩ := happened
    cases outcome with
    | failed => exact unstarted _ fine rfl
    | carriedOut chunk => exact ran _ fine nofun
  apply always_then called
  · exact fun later output holds => always_check holds
  · exact fun later halt holds => holds

/-- A call of `stty` that is meant to restore such settings does so. -/
def Restores (mode : Settings) (request : TerminalCall) (happened : TerminalOutcome) : Prop :=
  request = .stty [mode.text] → Steady request happened

/-- The terminal has such settings whenever something else than a key is asked for. -/
def Cooked (mode : Settings) (later : Console) (request : TerminalCall) : Prop :=
  ∀ round call, request = .cli round call → later.mode = mode

theorem always_restoreStty {mode : Settings} {later : Console}
    (point : before later (.stty [mode.text]))
    (restores : ∀ happened, good (.stty [mode.text]) happened →
      Steady (.stty [mode.text]) happened) :
    Always good before
      (fun final cleaned => cleaned = .ok () ∧ final = { later with mode })
      (restoreStty mode.text) later := by
  have called : Always good before
      (fun final (reply : Except Halt (TerminalCall.stty [mode.text]).Reply) =>
        (∃ status, reply = .ok status) ∧ final = { later with mode })
      (attempt (.stty [mode.text])) later := by
    apply always_attempt point
    intro happened fine
    obtain ⟨carried, left, all⟩ := restores happened fine
    obtain ⟨⟨outcome, input, choice⟩, settings⟩ := happened
    cases outcome with
    | failed => exact absurd rfl carried
    | carriedOut chunk =>
        cases all
        simp only [TerminalCall.respond, stty_restores]
        exact ⟨⟨_, rfl⟩, trivial⟩
  apply always_then called
  · exact fun final status holds => always_return ⟨rfl, holds.2⟩
  · intro final halt holds
    obtain ⟨⟨_, same⟩, _⟩ := holds
    cases same

/-- If there is no value, there is an error in its place. -/
def Reports (result : Except Halt α) : Prop :=
  ∀ halt, result = .error halt → ∃ error, halt = .stopped (.error error)

theorem reports_inputEnded : Reports (inputEnded : Except Halt α) :=
  fun _ same => ⟨_, (Except.error.inj same).symm⟩

theorem reports_check {result : Result α} (noPanic : Checked.NoPanic result) :
    Reports (result.mapError .stopped) := by
  intro halt stopped
  cases result with
  | ok value => cases stopped
  | error abort =>
      cases abort with
      | error error => exact ⟨error, (Except.error.inj stopped).symm⟩
      | panic => exact absurd rfl noPanic

theorem Reports.stopped {halt : Halt} (reports : Reports (.error halt : Except Halt α)) :
    Reports (.error halt : Except Halt β) :=
  fun _ same => reports _ (congrArg _ (Except.error.inj same))

theorem opens_terminal :
    Always good (Cooked console.mode)
      (fun later (result : Except Halt Unit) => later = console ∧ Reports result)
      (perform .openTerminal) console := by
  apply always_perform fun _ _ => nofun
  intro happened _
  obtain ⟨⟨outcome, input, choice⟩, settings⟩ := happened
  cases outcome with
  | failed => exact ⟨rfl, reports_inputEnded⟩
  | carriedOut chunk => exact ⟨rfl, nofun⟩

theorem asks_settings :
    Always good (Cooked console.mode)
      (fun later result => later = console ∧ Reports result ∧
        ∀ text, result = .ok text → text = console.mode.text)
      (stty [ascii "-g"]) console := by
  apply always_stty fun _ _ => nofun
  · exact fun _ _ _ => ⟨rfl, reports_inputEnded, nofun⟩
  · intro happened _ _
    obtain ⟨same, printed⟩ := stty_asks console happened.stty
    refine ⟨same, reports_check (noPanic_sttyText _), ?_⟩
    intro text found
    rcases printed with printed | refused
    · rw [printed] at found
      have valid : sttyText (true, console.mode.text ++ [newline]) = .ok console.mode.text := by
        unfold sttyText
        rw [console.mode.valid]
        exact congrArg _ console.mode.trimmed
      rw [valid] at found
      exact (Except.ok.inj found).symm
    · unfold sttyText at found
      rw [refused] at found
      cases found

theorem sets_raw :
    Always good (Cooked console.mode)
      (fun later result => (∃ mode, later = { console with mode }) ∧ Reports result)
      (stty rawArguments) console := by
  apply always_stty fun _ _ => nofun
  · exact fun _ _ _ => ⟨⟨_, rfl⟩, reports_inputEnded⟩
  · intro happened _ _
    obtain ⟨mode, left, _⟩ := stty_raw console happened.stty
    exact ⟨⟨mode, left⟩, reports_check (noPanic_sttyText _)⟩

/-- Before the keys are read. Where that fails, the settings are those of before. -/
theorem enters :
    Always (Restores console.mode) (Cooked console.mode)
      (fun later result => later.files = console.files ∧ Reports result ∧
        (∀ terminal, result = .ok terminal → terminal.savedMode = console.mode.text) ∧
        ((∃ halt, result = .error halt) → later.mode = console.mode))
      RawTerminal.enter console := by
  apply always_then opens_terminal
  · intro later _ opened
    obtain ⟨same, _⟩ := opened
    subst same
    apply always_then asks_settings
    · intro later savedMode known
      obtain ⟨same, _, saved⟩ := known
      subst same
      cases saved savedMode rfl
      have caughtRaw : Always (Restores later.mode) (Cooked later.mode)
          (fun final result => (∃ mode, final = { later with mode }) ∧ ∃ value, result = .ok value)
          (catchError (stty rawArguments)) later := by
        apply always_catchError
        apply sets_raw.mono fun _ _ => id
        intro final result changed
        refine ⟨changed.1, ?_⟩
        cases result with
        | ok text => exact ⟨_, rfl⟩
        | error halt =>
            obtain ⟨error, same⟩ := changed.2 halt rfl
            subst same
            exact ⟨_, rfl⟩
      apply always_then caughtRaw
      · intro final value changed
        obtain ⟨⟨mode, same⟩, _⟩ := changed
        subst same
        cases value with
        | ok text =>
            apply always_return
            refine ⟨rfl, nofun, ?_, nofun⟩
            intro terminal same
            cases same
            rfl
        | error error =>
            -- The settings may have changed, so that they are restored.
            apply always_then (always_restoreStty (fun _ _ => nofun) fun _ fine => fine rfl)
            · intro last _ restored
              obtain ⟨_, same⟩ := restored
              subst same
              exact always_check ⟨rfl, reports_check (Checked.noPanic_err error), nofun,
                fun _ => rfl⟩
            · intro last halt restored
              cases restored.1
      · intro final halt changed
        obtain ⟨_, _, same⟩ := changed
        cases same
    · intro final halt known
      obtain ⟨same, reports, _⟩ := known
      subst same
      exact ⟨rfl, reports.stopped, nofun, fun _ => rfl⟩
  · intro final halt opened
    obtain ⟨same, reports⟩ := opened
    subst same
    exact ⟨rfl, reports.stopped, nofun, fun _ => rfl⟩

/-! ## Whatever happens -/

/-- What `choose_from_list` says and leaves, whatever happens. -/
structure Chosen (choices : Nat) (console later : Console) (result : Except Halt (Option Nat)) :
    Prop where
  files : later.files = console.files
  mode : result ≠ .error .unfinished → later.mode = console.mode
  inside : ∀ index, result = .ok (some index) → index < choices
  noPanic : result ≠ .error (.stopped .panic)

/-- The function makes only such calls, and comes only to such a result. -/
def Makes (allowed : TerminalCall → Prop) (holds : Except Halt α → Prop) (function : Terminal α) :
    Prop :=
  Program.Confined allowed holds function.run

theorem makes_then {allowed : TerminalCall → Prop} {holds : Except Halt α → Prop}
    {goal : Except Halt β → Prop} {function : Terminal α} {rest : α → Terminal β}
    (first : Makes allowed holds function)
    (next : ∀ value, holds (.ok value) → Makes allowed goal (rest value))
    (stops : ∀ halt, holds (.error halt) → goal (.error halt)) :
    Makes allowed goal (function >>= rest) := by
  apply Program.Confined.bind first
  intro result held
  cases result with
  | ok value => exact next value held
  | error halt => exact stops halt held

theorem makes_perform {allowed : TerminalCall → Prop} {request : TerminalCall}
    (permitted : allowed request) : Makes allowed Reports (perform request) := by
  constructor
  · exact permitted
  · intro reply
    cases reply with
    | ok answer => exact nofun
    | error kind => exact fun _ same => ⟨_, (Except.error.inj same).symm⟩

/-- A read of keys. -/
def ReadsKeys (request : TerminalCall) : Prop := ∃ count, request = .readExact count

theorem makes_readPickerKey : Makes ReadsKeys Reports readPickerKey := by
  apply makes_then (makes_perform ⟨1, rfl⟩)
  · intro (first : Bytes 1) _
    obtain ⟨bytes, length⟩ := first
    match bytes, length with
    | [byte], _ =>
        change Makes _ _ (keyFrom byte)
        unfold keyFrom
        cases keyOfByte byte with
        | some key => exact nofun
        | none =>
            apply makes_then (makes_perform ⟨2, rfl⟩)
            · exact fun _ _ => nofun
            · exact fun _ reports => reports.stopped
  · exact fun _ reports => reports.stopped

/-- A choice among so many, if any. -/
def Inside (choices : Nat) (result : Except Halt (Option Nat)) : Prop :=
  (∀ index, result = .ok (some index) → index < choices) ∧ result ≠ .error (.stopped .panic)

theorem makes_pickFrom {choices : Nat} (keys : Nat) {selected : Nat} (inside : selected < choices) :
    Makes ReadsKeys (Inside choices) (pickFrom choices keys selected) := by
  induction keys generalizing selected with
  | zero => exact ⟨nofun, nofun⟩
  | succ keys ih =>
      unfold pickFrom
      apply makes_then makes_readPickerKey
      · intro key _
        cases key with
        | up => exact ih (inside_up inside)
        | down => exact ih (Nat.mod_lt _ (by omega))
        | ignore => exact ih inside
        | cancel => exact ⟨nofun, nofun⟩
        | select =>
            refine ⟨?_, nofun⟩
            intro index same
            cases same
            exact inside
      · intro halt reports
        obtain ⟨error, same⟩ := reports halt rfl
        subst same
        exact ⟨nofun, nofun⟩

theorem makes_ofCli {allowed : CliCall → Prop} {holds : Checked Error α → Prop} {round : Nat}
    {command : Cli α} (confined : Program.Confined allowed holds command.run) :
    Makes (fun request => ∃ call, request = .cli round call ∧ allowed call)
      (fun result => ∃ value, result = value.mapError .stopped ∧ holds value)
      (ofCli round command) := by
  have injected : Program.Confined (fun request => ∃ call, request = .cli round call ∧ allowed call)
      holds (command.run.inject (.cli round) fun _ reply => reply : Program TerminalCall.Reply _) :=
    confined.inject fun call permitted => ⟨call, rfl, permitted⟩
  apply Program.Confined.bind injected
  exact fun value held => ⟨value, rfl, held⟩

theorem confined_prompt (default : Option (List UInt8)) :
    Program.Confined (fun request => request = .readLine) Checked.NoPanic
      (Cli.prompt default).run := by
  constructor
  · rfl
  · intro reply
    cases reply with
    | error kind => exact Checked.noPanic_err _
    | ok input =>
        change Program.Confined _ _ (ite _ _ _ : Cli (List UInt8)).run
        split
        · exact Checked.noPanic_okOr _ _
        · exact Checked.noPanic_ok _

theorem chosenNumber_eq_ok {choices index : Nat} {selected : List UInt8} :
    chosenNumber choices selected = .ok (some index) ↔
      index < choices ∧ parseUsize selected = some (index + 1) := by
  unfold chosenNumber
  cases parseUsize selected with
  | none => exact ⟨nofun, fun known => nomatch known.2⟩
  | some number =>
      cases number with
      | zero => exact ⟨nofun, fun known => nomatch known.2⟩
      | succ number =>
          have counted : checkedSub (number + 1) 1 = some number :=
            if_pos (Nat.le_add_left 1 number)
          simp only [Option.bind_some, counted, Option.filter_some, decide_eq_true_eq]
          by_cases inside : number < choices
          · rw [if_pos inside]
            constructor
            · intro chosen
              cases chosen
              exact ⟨inside, rfl⟩
            · intro known
              cases known.2
              rfl
          · rw [if_neg inside]
            constructor
            · exact nofun
            · intro known
              cases known.2
              exact absurd known.1 inside

/-- A read of a line, in such a round. -/
def ReadsLine (round : Nat) (request : TerminalCall) : Prop := request = .cli round .readLine

theorem makes_chooseByNumber (round choices : Nat) :
    Makes (ReadsLine round) (Inside choices) (chooseByNumber round choices) := by
  have prompts : Makes (ReadsLine round) Reports (ofCli round (Cli.prompt none)) := by
    apply Program.Confined.mono (makes_ofCli (confined_prompt none))
    · intro request called
      obtain ⟨call, same, line⟩ := called
      subst line
      exact same
    · intro result reported
      obtain ⟨value, same, noPanic⟩ := reported
      subst same
      exact reports_check noPanic
  apply makes_then prompts
  · intro selected _
    refine ⟨?_, ?_⟩
    · intro index chosen
      cases known : chosenNumber choices selected with
      | error abort =>
          rw [known] at chosen
          cases chosen
      | ok choice =>
          rw [known] at chosen
          cases chosen
          exact (chosenNumber_eq_ok.1 known).1
    · intro panicked
      cases known : chosenNumber choices selected with
      | ok choice =>
          rw [known] at panicked
          cases panicked
      | error abort =>
          rw [known] at panicked
          cases panicked
          exact Checked.noPanic_okOr _ _ known
  · intro halt reports
    obtain ⟨error, same⟩ := reports halt rfl
    subst same
    exact ⟨nofun, nofun⟩

/-- Whatever happens, as long as `stty` restores what it is asked to restore: a choice is among
the choices, and in the end the terminal has the settings that it had. -/
theorem chooses (keys round choices : Nat) :
    Always (Restores console.mode) (Cooked console.mode) (Chosen choices console)
      (chooseFromList keys round choices) console := by
  by_cases empty : choices = 0
  · unfold chooseFromList
    rw [Checked.reject_of empty]
    have refused : Chosen choices console console
        (.error (.stopped (.error (.invalidInput "there is nothing to select")))) :=
      ⟨rfl, fun _ => rfl, nofun, nofun⟩
    exact refused
  unfold chooseFromList
  rw [Checked.reject_of_not empty]
  change Always _ _ _ (catchError RawTerminal.enter >>= _) console
  have entered : Always (Restores console.mode) (Cooked console.mode)
      (fun later result => later.files = console.files ∧
        ((∃ terminal, result = .ok (.ok terminal) ∧ terminal.savedMode = console.mode.text) ∨
          (∃ error, result = .ok (.error error)) ∧ later.mode = console.mode))
      (catchError RawTerminal.enter) console := by
    apply always_catchError
    apply enters.mono fun _ _ => id
    intro later result holds
    obtain ⟨files, reports, saved, kept⟩ := holds
    cases result with
    | ok terminal => exact ⟨files, .inl ⟨terminal, rfl, saved terminal rfl⟩⟩
    | error halt =>
        obtain ⟨error, same⟩ := reports halt rfl
        subst same
        exact ⟨files, .inr ⟨⟨error, rfl⟩, kept ⟨_, rfl⟩⟩⟩
  apply always_then entered
  · intro later entry holds
    obtain ⟨files, saved | known⟩ := holds
    · obtain ⟨terminal, same, text⟩ := saved
      cases same
      change Always _ _ _ (dropping (restoreStty terminal.savedMode) _) later
      rw [text]
      apply always_dropping
      have reads := makes_pickFrom keys (Nat.pos_of_ne_zero empty)
      have unmoved : Always (Restores console.mode) (Cooked console.mode)
          (fun final result => final.files = console.files ∧ Inside choices result)
          (pickFrom choices keys 0) later := by
        apply Program.Confined.always reads
        · exact files
        · intro request called final _ round call same
          obtain ⟨count, key⟩ := called
          cases key.symm.trans same
        · intro request called final kept happened _
          obtain ⟨count, key⟩ := called
          subst key
          obtain ⟨⟨outcome, input, choice⟩, settings⟩ := happened
          cases outcome with
          | failed => exact kept
          | carriedOut chunk =>
              simp only [TerminalCall.respond]
              split <;> exact kept
      apply unmoved.mono fun _ _ => id
      intro final result holds
      obtain ⟨kept, inside⟩ := holds
      constructor
      · intro _
        exact ⟨kept, fun done => absurd rfl done, nofun, nofun⟩
      · intro _
        have restored := @always_restoreStty (Restores console.mode) (Cooked console.mode)
          console.mode final (fun _ _ => nofun) fun _ fine => fine rfl
        apply restored.mono fun _ _ => id
        intro last cleaned same
        obtain ⟨ok, same⟩ := same
        subst same
        exact ⟨ok, kept, fun _ => rfl, inside.1, inside.2⟩
    · obtain ⟨⟨error, same⟩, mode⟩ := known
      cases same
      have reads : Always (Restores console.mode) (Cooked console.mode)
          (fun final result => (final.files = console.files ∧ final.mode = console.mode) ∧
            Inside choices result)
          (chooseByNumber round choices) later := by
        apply Program.Confined.always (makes_chooseByNumber round choices)
        · exact ⟨files, mode⟩
        · intro request line final kept _ _ _
          exact kept.2
        · intro request line final kept happened _
          cases line
          obtain ⟨⟨outcome, input, choice⟩, settings⟩ := happened
          cases outcome with
          | failed => exact kept
          | carriedOut chunk => exact kept
      apply reads.mono fun _ _ => id
      intro final result holds
      obtain ⟨kept, inside⟩ := holds
      exact ⟨kept.1, fun _ => kept.2, inside.1, inside.2⟩
  · intro later halt holds
    obtain ⟨_, ⟨_, same, _⟩ | ⟨⟨_, same⟩, _⟩⟩ := holds
    · cases same
    · cases same

/-! ## Exactly -/

theorem enters_steadily :
    Always Steady Anywhere
      (fun later result => result = .ok ⟨console.mode.text⟩ ∧
        ∃ mode, later = { console with mode })
      RawTerminal.enter console := by
  have opened : Always Steady Anywhere
      (fun later (result : Except Halt Unit) => later = console ∧ result = .ok ())
      (perform .openTerminal) console := by
    apply always_perform trivial
    intro happened steady
    obtain ⟨⟨outcome, input, choice⟩, settings⟩ := happened
    cases outcome with
    | failed => exact absurd rfl steady.1
    | carriedOut chunk => exact ⟨rfl, rfl⟩
  have asked : Always Steady Anywhere
      (fun later result => later = console ∧ result = .ok console.mode.text)
      (stty [ascii "-g"]) console := by
    apply always_stty trivial
    · exact fun _ steady failed => absurd failed steady.1
    · intro happened steady _
      obtain ⟨_, mode, all⟩ := steady
      rw [all]
      refine ⟨rfl, ?_⟩
      change Except.mapError _ (sttyText (true, console.mode.text ++ [newline])) = _
      unfold sttyText
      rw [console.mode.valid]
      exact congrArg Except.ok console.mode.trimmed
  have changed : Always Steady Anywhere
      (fun later (result : Except Halt (Except Error (List UInt8))) =>
        (∃ mode, later = { console with mode }) ∧ ∃ text, result = .ok (.ok text))
      (catchError (stty rawArguments)) console := by
    apply always_catchError
    apply always_stty trivial
    · exact fun _ steady failed => absurd failed steady.1
    · intro happened steady _
      obtain ⟨_, mode, all⟩ := steady
      rw [all]
      exact ⟨⟨mode, rfl⟩, _, rfl⟩
  apply always_then opened
  · intro later _ unmoved
    obtain ⟨same, _⟩ := unmoved
    subst same
    apply always_then asked
    · intro later savedMode known
      obtain ⟨same, saved⟩ := known
      subst same
      cases saved
      apply always_then changed
      · intro final result left
        obtain ⟨moved, text, same⟩ := left
        cases same
        exact always_return ⟨rfl, moved⟩
      · exact fun _ _ left => nomatch left.2
    · exact fun _ _ known => nomatch known.2
  · exact fun _ _ unmoved => nomatch unmoved.2

theorem chooses_by_keys {keys choices : Nat} (round : Nat) (positive : 0 < choices)
    (enough : (presses console.typed).moves.length < keys) :
    Always Steady Anywhere
      (fun later result => result = (presses console.typed).choice choices 0 ∧
        later = { console with typed := (presses console.typed).unread })
      (chooseFromList keys round choices) console := by
  unfold chooseFromList
  rw [Checked.reject_of_not (Nat.pos_iff_ne_zero.1 positive)]
  change Always _ _ _ (catchError RawTerminal.enter >>= _) console
  have entered : Always Steady Anywhere
      (fun later result => result = .ok (.ok ⟨console.mode.text⟩) ∧
        ∃ mode, later = { console with mode })
      (catchError RawTerminal.enter) console := by
    apply always_catchError
    apply enters_steadily.mono fun _ _ => id
    intro later result holds
    rw [holds.1]
    exact ⟨rfl, holds.2⟩
  apply always_then entered
  · intro later entry holds
    obtain ⟨same, mode, moved⟩ := holds
    cases same
    subst moved
    apply always_dropping
    have picked := @picks { console with mode } choices keys 0 positive enough
    apply picked.mono fun _ _ => id
    intro final result holds
    obtain ⟨same, moved⟩ := holds
    subst same moved
    constructor
    · intro stopped
      unfold Presses.choice at stopped
      split at stopped <;> cases stopped
    · intro _
      have restored := @always_restoreStty Steady Anywhere console.mode
        { console with mode, typed := (presses console.typed).unread } trivial fun _ => id
      apply restored.mono fun _ _ => id
      exact fun last cleaned same => ⟨same.1, rfl, same.2⟩
  · exact fun _ _ holds => nomatch holds.1

/-- With the keys, the choice is the entry that the arrows lead to on a ring of the choices, and
the settings of the terminal are those of before. -/
theorem chooseFromList_follows_keys (console : Console) (keys round choices : Nat)
    (positive : 0 < choices) (enough : (presses console.typed).moves.length < keys)
    (outcomes : Nat → TerminalOutcome)
    (steady : ∀ turn, (outcomes turn).cli.outcome ≠ .failed ∧
      ∃ mode, (outcomes turn).stty = .done mode) :
    ∃ turns events, Program.run TerminalCall.respond (chooseFromList keys round choices).run
        console ((List.range turns).map outcomes) =
      (some ((presses console.typed).choice choices 0),
        { console with typed := (presses console.typed).unread }, events) := by
  obtain ⟨turns, result, later, events, ran, same, moved⟩ :=
    (chooses_by_keys round positive enough).finishes outcomes fun _ => steady
  subst same moved
  exact ⟨turns, events, ran⟩

def Sample.settings : Settings where
  text := ascii "sane"
  valid := by decide +kernel
  trimmed := by decide +kernel
  distinct := by decide +kernel

theorem chooseFromList_follows_keys_sample :
    ∃ turns events, Program.run TerminalCall.respond (chooseFromList 4 0 7).run
        ⟨.empty, Sample.settings, ascii "jjk" ++ [carriageReturn]⟩
        ((List.range turns).map fun _ => ⟨⟨.carriedOut 0, [], none⟩, .done Sample.settings⟩) =
      (some (.ok (some 1)), ⟨.empty, Sample.settings, []⟩, events) := by
  have pressed : presses (ascii "jjk" ++ [carriageReturn]) =
      ⟨[.down, .down, .up], some .select, []⟩ := by decide +kernel
  have followed := chooseFromList_follows_keys
    ⟨.empty, Sample.settings, ascii "jjk" ++ [carriageReturn]⟩ 4 0 7 (by decide)
    (by rw [pressed]; decide)
    (fun _ => ⟨⟨.carriedOut 0, [], none⟩, .done Sample.settings⟩)
    (fun _ => ⟨nofun, Sample.settings, rfl⟩)
  simp only [pressed] at followed
  exact followed

/-- The one call of a choice by a number, and what comes of it. -/
theorem chooses_by_number {line : List UInt8} (round choices : Nat)
    (valid : fromUtf8 line = some line) :
    Always (fun _ happened => happened.cli.outcome ≠ .failed ∧ happened.cli.input = line) Anywhere
      (fun later result => later = console ∧
        result = if trim line = [] then
            .error (.stopped (.error (.invalidInput "input cannot be empty")))
          else (chosenNumber choices (trim line)).mapError .stopped)
      (chooseByNumber round choices) console := by
  constructor
  · trivial
  · intro happened supplied
    obtain ⟨⟨outcome, input, choice⟩, settings⟩ := happened
    obtain ⟨carried, same⟩ := supplied
    cases same
    cases outcome with
    | failed => exact absurd rfl carried
    | carriedOut chunk =>
        simp only [TerminalCall.respond, CliCall.respond, valid]
        change Program.Always _ _ _ _
          (((Program.inject _ _ (ite (trim input = []) _ _)).bind _).bind _) _
        by_cases empty : trim input = []
        · rw [if_pos empty, if_pos empty]
          exact ⟨rfl, rfl⟩
        · rw [if_neg empty, if_neg empty]
          exact ⟨rfl, rfl⟩

theorem chosenNumber_reports {choices : Nat} {selected : List UInt8} :
    (∃ index, chosenNumber choices selected = .ok (some index)) ∨
      chosenNumber choices selected = .err (.invalidInput "invalid selection") := by
  change (∃ index, Checked.okOr (Option.map some _) _ = _) ∨ Checked.okOr (Option.map some _) _ = _
  cases ((parseUsize selected).bind fun number => checkedSub number 1).filter (· < choices) with
  | none => exact .inr rfl
  | some index => exact .inl ⟨index, rfl⟩

theorem mapError_eq_ok {result : Result α} {value : α} :
    result.mapError Halt.stopped = .ok value ↔ result = .ok value := by
  cases result with
  | ok other =>
      constructor
      · exact fun same => congrArg _ (Except.ok.inj same)
      · exact fun same => congrArg _ (Except.ok.inj same)
  | error abort => exact ⟨nofun, nofun⟩

/-- Without them, the choice is the entry whose number is on the line that was read. So every
number that the list shows beside an entry chooses it. -/
theorem chooseByNumber_follows_line (console : Console) (round choices : Nat)
    (line : List UInt8) (valid : utf8Valid line = true) (fits : choices < usizeLimit)
    (outcomes : Nat → TerminalOutcome)
    (supplied : ∀ turn, (outcomes turn).cli.outcome ≠ .failed ∧ (outcomes turn).cli.input = line) :
    ∃ turns result events, Program.run TerminalCall.respond (chooseByNumber round choices).run
        console ((List.range turns).map outcomes) = (some result, console, events) ∧
      (∀ index, result = .ok (some index) ↔ index < choices ∧ Spells (trim line) (index + 1)) ∧
      ((∃ index, result = .ok (some index)) ∨ ∃ message,
        result = .error (.stopped (.error (.invalidInput message)))) ∧
      ∀ index < choices, line = decimalText (index + 1) ++ [newline] →
        result = .ok (some index) := by
  obtain ⟨turns, result, later, events, ran, unmoved, same⟩ :=
    (chooses_by_number round choices (if_pos valid)).finishes outcomes
      fun _ => supplied
  subst unmoved
  have chosen : ∀ index,
      result = .ok (some index) ↔ index < choices ∧ Spells (trim line) (index + 1) := by
    intro index
    rw [same]
    split
    · rename_i empty
      exact ⟨nofun, fun known => absurd empty (spells_nonempty known.2)⟩
    · rw [mapError_eq_ok, chosenNumber_eq_ok, parseUsize_eq_some_iff]
      constructor
      · exact fun known => ⟨known.1, known.2.1⟩
      · exact fun known => ⟨known.1, known.2, by omega⟩
  refine ⟨turns, result, events, ran, chosen, ?_, ?_⟩
  · rw [same]
    split
    · exact .inr ⟨_, rfl⟩
    · rcases @chosenNumber_reports choices (trim line) with ⟨index, known⟩ | known
      · exact .inl ⟨index, by rw [known]; rfl⟩
      · exact .inr ⟨_, by rw [known]; rfl⟩
  · intro index inside typed
    obtain ⟨filled, digital⟩ := decimalText_digits (Nat.succ_pos index)
    apply (chosen index).2
    rw [typed, trim_line filled digital]
    exact ⟨inside, spells_decimalText (Nat.succ_pos index)⟩

theorem chooseByNumber_follows_line_sample :
    ∃ turns events, Program.run TerminalCall.respond (chooseByNumber 0 7).run
        ⟨.empty, Sample.settings, []⟩
        ((List.range turns).map fun _ =>
          ⟨⟨.carriedOut 0, decimalText 3 ++ [newline], none⟩, .done Sample.settings⟩) =
      (some (.ok (some 2)), ⟨.empty, Sample.settings, []⟩, events) := by
  obtain ⟨turns, result, events, ran, _, _, shown⟩ := chooseByNumber_follows_line
    ⟨.empty, Sample.settings, []⟩ 0 7 (decimalText 3 ++ [newline]) (by decide +kernel)
    (by decide +kernel)
    (fun _ => ⟨⟨.carriedOut 0, decimalText 3 ++ [newline], none⟩, .done Sample.settings⟩)
    (fun _ => ⟨nofun, rfl⟩)
  rw [shown 2 (by decide) rfl] at ran
  exact ⟨turns, events, ran⟩

end Sealed.Terminal
