import Sealed.Foundation.Monitor

/-! Programs that share a world, where each of them relies on what they all guarantee. -/

set_option autoImplicit false

namespace Sealed.Foundation

variable {Call World Inner Outcome State : Type} {Reply : Call → Type} {α β ε : Type}

/-- What every one of the programs does to the world, in any number of steps. -/
structure Sharing (World : Type) where
  step : World → World → Prop
  refl : ∀ world, step world world
  trans : ∀ {first second third}, step first second → step second third → step first third

def Sharing.contract (sharing : Sharing World) : Contract World where
  rely := sharing.step
  guarantee := sharing.step
  rely_refl := sharing.refl
  rely_trans := sharing.trans

namespace Program

variable {respond : World → (request : Call) → Outcome → Reply request × World}
  {sharing : Sharing World} {holds : World → α → Prop} {program : Program Reply α} {world : World}

/-- Among others who share the world, the program does no more than they all do, and such a value
holds where it ends. -/
def Cooperates (respond : World → (request : Call) → Outcome → Reply request × World)
    (sharing : Sharing World) (holds : World → α → Prop) (program : Program Reply α)
    (world : World) : Prop :=
  Meets respond sharing.contract (fun _ => holds) program world

theorem Cooperates.mono {goal : World → α → Prop}
    (cooperates : Cooperates respond sharing holds program world)
    (values : ∀ later value, holds later value → goal later value) :
    Cooperates respond sharing goal program world :=
  Meets.consequence cooperates fun _ => values

/-- All that happened from the start to the end is what every one of the programs does. -/
theorem Cooperates.since (cooperates : Cooperates respond sharing holds program world) :
    Cooperates respond sharing
      (fun later value => sharing.step world later ∧ holds later value) program world := by
  induction program generalizing world with
  | done value => exact fun later relied => ⟨relied, cooperates later relied⟩
  | call request next ih =>
      intro later relied outcome
      obtain ⟨step, rest⟩ := cooperates later relied outcome
      constructor
      · exact step
      · apply (ih _ rest).mono
        intro final value known
        exact ⟨sharing.trans (sharing.trans relied step) known.1, known.2⟩

theorem Cooperates.andThen {holds : World → Except ε α → Prop} {goal : World → Except ε β → Prop}
    {program : ExceptT ε (Program Reply) α} {rest : α → ExceptT ε (Program Reply) β}
    (first : Cooperates respond sharing holds program.run world)
    (next : ∀ later value, sharing.step world later → holds later (.ok value) →
      Cooperates respond sharing goal (rest value).run later)
    (stops : ∀ later stopped, goal later (.error stopped)) :
    Cooperates respond sharing goal (program >>= rest).run world := by
  apply Meets.andThen
  apply first.since.consequence
  intro events later result known
  cases result with
  | ok value => exact next later value known.1 known.2
  | error stopped => exact fun final _ => stops final stopped

theorem Confined.cooperates {allowed : Call → Prop} {result : α → Prop}
    (confined : Confined allowed result program)
    (unchanged : ∀ request, allowed request → ∀ world outcome,
      (respond world request outcome).2 = world) (world : World) :
    Cooperates respond sharing (fun _ => result) program world := by
  apply Confined.meets confined
  intro request permitted world outcome
  rw [unchanged request permitted world outcome]
  exact sharing.refl world

/-- A program under a monitor, where the calls that it permits are what every program does, as
long as its state fits the world. -/
theorem Follows.cooperates {monitor : Monitor Reply State} {result : State → α → Prop}
    {fits : State → World → Prop} {state : State} (follows : Follows monitor result program state)
    (start : fits state world)
    (stable : ∀ state before after, sharing.step before after → fits state before →
      fits state after)
    (acts : ∀ state world request outcome, fits state world → monitor.permits state request →
      sharing.step world (respond world request outcome).2 ∧
        fits (monitor.advance state request (respond world request outcome).1)
          (respond world request outcome).2) :
    Cooperates respond sharing (fun later value => ∃ state, fits state later ∧ result state value)
      program world := by
  induction program generalizing state world with
  | done value => exact fun later relied => ⟨state, stable _ _ _ relied start, follows⟩
  | call request next ih =>
      intro later relied outcome
      have fit := stable _ _ _ relied start
      obtain ⟨step, fitting⟩ := acts state later request outcome fit follows.1
      exact ⟨step, ih _ (follows.2 _) fitting⟩

/-! ## Another view of the world -/

/-- Calls of a program that sees the world in its own way. -/
def seenBy (inner : Inner → (request : Call) → Outcome → Reply request × Inner)
    (see : World → Inner) (put : World → Inner → World) (world : World) (request : Call)
    (outcome : Outcome) : Reply request × World :=
  let answer := inner (see world) request outcome
  (answer.1, put world answer.2)

theorem Cooperates.seenBy {inner : Inner → (request : Call) → Outcome → Reply request × Inner}
    {within : Sharing Inner} {see : World → Inner} {put : World → Inner → World}
    {frame : World → Prop} {holds : Inner → α → Prop}
    (relies : ∀ before after, frame before → sharing.step before after →
      frame after ∧ within.step (see before) (see after))
    (acts : ∀ before after, frame before → within.step (see before) after →
      frame (put before after) ∧ see (put before after) = after ∧
        sharing.step before (put before after))
    (start : frame world) (cooperates : Cooperates inner within holds program (see world)) :
    Cooperates (Program.seenBy inner see put) sharing (fun later => holds (see later)) program
      world := by
  induction program generalizing world with
  | done value => exact fun later relied => cooperates _ (relies _ _ start relied).2
  | call request next ih =>
      intro later relied outcome
      obtain ⟨framed, seen⟩ := relies _ _ start relied
      obtain ⟨step, rest⟩ := cooperates _ seen outcome
      obtain ⟨framed', same, acted⟩ := acts later _ framed step
      constructor
      · exact acted
      · apply ih _ framed'
        rw [Program.seenBy, same]
        exact rest

end Program

/-! ## Pools -/

namespace Pool

variable {respond : Nat → World → (request : Call) → Outcome → Reply request × World}
  {sharing : Sharing World}

theorem Meets.shared {posts : Nat → List (Event Reply Outcome) → World → α → Prop}
    {pool : Pool Reply Outcome World α}
    (meets : Meets respond (fun _ => sharing.contract) posts pool)
    (schedule : List (Nat × Outcome)) :
    sharing.step pool.world (Pool.run respond pool schedule).world := by
  induction schedule generalizing pool with
  | nil => exact sharing.refl pool.world
  | cons turn schedule ih =>
      have compatible : Compatible fun _ : Nat => sharing.contract := fun _ _ _ _ _ => id
      have later := ih (meets.step compatible turn)
      rcases meets.step_guarantee turn with same | step
      · rw [same] at later
        exact later
      · exact sharing.trans step later

/-- In every state of a pool of such programs, only that was done which every one of them does. -/
theorem run_shared {holds : Nat → World → α → Prop} {programs : List (Program Reply α)}
    {world : World}
    (each : ∀ index program, programs[index]? = some program →
      Program.Cooperates (respond index) sharing (holds index) program world)
    (schedule : List (Nat × Outcome)) :
    sharing.step world (Pool.run respond (start world programs) schedule).world := by
  have meets : Meets respond (fun _ => sharing.contract) (fun index _ => holds index)
      (start world programs) := Meets.start each
  exact meets.shared schedule

end Pool

end Sealed.Foundation
