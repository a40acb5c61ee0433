import Sealed.CommandEffects

/-! What `open` shows. Every byte on its standard output is of a letter that this very run has
accepted, and whose blob it has read. -/

set_option autoImplicit false

namespace Sealed

open Foundation

variable {caller : Nat} {primitives : Primitives}

namespace Cli

variable {α : Type}

/-- Nothing but the letter that was opened, and an end for its last line. -/
def Shows (wizard : Bool) (letter : OpenedLetter) (before : List CliMoment) (bytes : List UInt8) :
    Prop :=
  bytes = letter.body ∧ before = [] ∨
    wizard = true ∧ bytes = [newline] ∧ letter.body.getLast? ≠ some newline ∧
      ∃ shown, before = [shown] ∧ shown.event.request = .print letter.body

theorem Follows.silent {command : Cli α} (follows : Follows .none command) :
    Makes (fun request => ∀ bytes, request ≠ .print bytes) command := by
  apply Program.Follows.confined (follows none)
  · intro last request permits bytes same
    subst same
    exact permits
  · exact fun _ _ _ => trivial

theorem shows_showLetter {wizard : Bool} {letter : OpenedLetter}
    {turns : List (FileSystem × CliOutcome)} {front back : List CliMoment} {moment : CliMoment}
    {bytes : List UInt8}
    (trace : (runAmong caller (showLetter wizard letter) turns).2 = front ++ moment :: back)
    (request : moment.event.request = .print bytes) : Shows wizard letter front bytes := by
  rcases Program.runAmong_andThen_either trace with ⟨others, printing⟩ |
    ⟨_, first, second, turns', printed, split, later⟩
  · obtain ⟨alone, same⟩ := runAmong_perform_split printing
    cases same.symm.trans request
    exact .inl ⟨rfl, alone⟩
  · obtain ⟨shown, _, single, event, _⟩ := runAmong_perform printed
    subst single
    have body : shown.event.request = .print letter.body := by rw [event]
    change (Program.runAmong _ (ite _ _ _ : Cli Unit).run _).2 = _ at later
    by_cases ends : wizard = true ∧ letter.body.getLast? ≠ some newline
    · rw [if_pos ends] at later
      rcases Program.runAmong_andThen_either later with ⟨others, ending⟩ |
        ⟨_, third, fourth, turns'', _, split', flushing⟩
      · obtain ⟨alone, same⟩ := runAmong_perform_split ending
        subst alone
        cases same.symm.trans request
        exact .inr ⟨ends.1, rfl, ends.2, shown, split, body⟩
      · obtain ⟨_, same⟩ := runAmong_perform_split flushing
        cases same.symm.trans request
    · rw [if_neg ends] at later
      obtain ⟨_, same⟩ := runAmong_perform_split later
      cases same.symm.trans request

/-- A command prints only when the letter was accepted, and then only this letter. Where it was
not, the command ends as the opening did, and changes nothing. -/
def ShowsAccepted (wizard : Bool) (caller : Nat) (openLetter : Cli (Opening primitives))
    (command : Cli Unit) : Prop :=
  ∀ turns,
    (∀ front moment back bytes,
      (runAmong caller command turns).2 = front ++ moment :: back →
      moment.event.request = .print bytes →
      ∃ opening before shown,
        runAmong caller openLetter turns = (some (.ok opening), before) ∧
        Sourced opening before ∧ front = before ++ shown ∧
        Shows wizard opening.letter shown bytes) ∧
    ∀ stopped trace, runAmong caller openLetter turns = (some (.error stopped), trace) →
      runAmong caller command turns = (some (.error stopped), trace) ∧
        ∀ moment ∈ trace, moment.after = moment.before

theorem showsAccepted_deliverLetter {wizard : Bool} {paths : StatePaths}
    {openLetter : Cli (Opening primitives)} (opens : Opens primitives paths openLetter)
    (follows : Follows .none openLetter) :
    ShowsAccepted wizard caller openLetter (openLetter >>= deliverLetter wizard) := by
  intro turns
  constructor
  · intro front moment back bytes trace request
    have silent := follows.silent
    obtain ⟨opening, before, shown, turns', _, ran, split, later⟩ :=
      Program.runAmong_andThen_split silent (fun other => other bytes request) trace
    refine ⟨opening, before, shown, ran, opens.sourced ran, split, ?_⟩
    rcases Program.runAmong_andThen_either later with ⟨others, showing⟩ |
      ⟨_, first, second, turns'', _, _, consuming⟩
    · exact shows_showLetter showing request
    · -- What follows the letter prints nothing.
      have consumes : Makes (fun request => ∀ bytes, request ≠ .print bytes)
          (if opening.keep then return () else storage (Storage.consumeBlob opening.blobPath)) := by
        apply makes_ite (makes_return ())
        apply @makes_storage _ _ (fun _ => True)
        · apply Storage.makes_bind (Storage.makes_ensureFileType (fun _ _ => trivial) _ _ _)
          intro _
          exact Storage.makes_perform trivial
        · exact fun _ _ _ => nofun
      have never : ∀ other ∈ second ++ moment :: back, ∀ bytes, other.event.request ≠ .print bytes :=
        consumes.among (Prod.ext rfl consuming)
      exact absurd request (never moment (by simp) bytes)
  · intro stopped trace ran
    constructor
    · exact Program.runAmong_andThen_stopped ran
    · intro moment member
      have among : moment ∈ (runAmong caller openLetter turns).2 := by
        rw [ran]
        exact member
      exact unchanged_of_readOnly among (opens.makes.among ran moment member)

/-- `open` shows nothing but the letter that this run has read from its file and accepted, as a
command and as a wizard. A letter that is refused shows nothing and changes nothing. -/
theorem open_shows_accepted (environment : Environment) (paths : StatePaths)
    (args : List (List UInt8)) :
    ShowsAccepted false caller (commandOpenLetter environment primitives paths args)
        (commandOpen environment primitives paths args) ∧
      ShowsAccepted true caller (wizardOpenLetter environment primitives paths)
        (wizardOpen environment primitives paths) := by
  constructor
  · exact showsAccepted_deliverLetter (opens_commandOpenLetter environment paths args)
      (follows_commandOpenLetter paths args)
  · exact showsAccepted_deliverLetter (opens_wizardOpenLetter environment paths)
      (follows_wizardOpenLetter paths)

end Cli

end Sealed
