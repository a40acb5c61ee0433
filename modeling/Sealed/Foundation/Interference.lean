import Sealed.Foundation.Program

/-! Runs of a program among others, who may change the world between any two of its calls,
and programs that call another kind of world. -/

set_option autoImplicit false

namespace Sealed.Foundation

/-- A call with the world that it found and the world that it left. -/
structure Moment {Call : Type} (Reply : Call → Type) (Outcome World : Type) where
  before : World
  event : Event Reply Outcome
  after : World

namespace Program

variable {Call World Outcome : Type} {Reply : Call → Type} {α β ε : Type}

section

variable (respond : World → (request : Call) → Outcome → Reply request × World)

/-- The run of a program where the others choose the world that each call finds. It dies
when the turns end. -/
def runAmong : Program Reply α → List (World × Outcome) →
    Option α × List (Moment Reply Outcome World)
  | .done value, _ => (some value, [])
  | .call _ _, [] => (none, [])
  | .call request next, (world, outcome) :: turns =>
      let answer := respond world request outcome
      let rest := runAmong (next answer.1) turns
      (rest.1, ⟨world, ⟨request, outcome, answer.1⟩, answer.2⟩ :: rest.2)

end

/-- Between the calls the others change the world in such ways only, from a first world on. -/
def Relies (rely : World → World → Prop) : World → List (Moment Reply Outcome World) → Prop
  | _, [] => True
  | world, moment :: rest => rely world moment.before ∧ Relies rely moment.after rest

/-- The world that the last call left. -/
def leftBy : World → List (Moment Reply Outcome World) → World
  | world, [] => world
  | _, moment :: rest => leftBy moment.after rest

theorem relies_append {rely : World → World → Prop} {world : World}
    {first second : List (Moment Reply Outcome World)} :
    Relies rely world (first ++ second) ↔
      Relies rely world first ∧ Relies rely (leftBy world first) second := by
  induction first generalizing world with
  | nil => exact (and_iff_right trivial).symm
  | cons moment rest ih =>
      rw [List.cons_append]
      simp only [Relies, leftBy, ih, and_assoc]

/-- What the others keep, and the program keeps with every call, is kept throughout. -/
theorem Relies.keeps {rely : World → World → Prop} {world : World}
    {moments : List (Moment Reply Outcome World)} (relies : Relies rely world moments)
    (refl : ∀ world, rely world world)
    (trans : ∀ {first second third}, rely first second → rely second third → rely first third)
    (own : ∀ moment ∈ moments, rely moment.before moment.after) :
    rely world (leftBy world moments) := by
  induction moments generalizing world with
  | nil => exact refl world
  | cons moment rest ih =>
      have later := ih relies.2 fun other member => own other (List.mem_cons_of_mem _ member)
      exact trans (trans relies.1 (own moment List.mem_cons_self)) later

variable {respond : World → (request : Call) → Outcome → Reply request × World}

theorem runAmong_answer {program : Program Reply α} {turns : List (World × Outcome)} :
    ∀ moment ∈ (runAmong respond program turns).2,
      (moment.event.reply, moment.after) =
        respond moment.before moment.event.request moment.event.outcome := by
  induction program generalizing turns with
  | done value => exact nofun
  | call request next ih =>
      cases turns with
      | nil => exact nofun
      | cons turn turns =>
          intro moment member
          rcases List.mem_cons.1 member with rfl | member
          · rfl
          · exact ih _ moment member

theorem Confined.among {allowed : Call → Prop} {holds : α → Prop} {program : Program Reply α}
    (confined : Confined allowed holds program) (turns : List (World × Outcome)) :
    (∀ moment ∈ (runAmong respond program turns).2, allowed moment.event.request) ∧
      ∀ value, (runAmong respond program turns).1 = some value → holds value := by
  induction program generalizing turns with
  | done value =>
      refine ⟨nofun, ?_⟩
      rintro _ ⟨⟩
      exact confined
  | call request next ih =>
      cases turns with
      | nil => exact ⟨nofun, nofun⟩
      | cons turn turns =>
          obtain ⟨calls, values⟩ := ih _ (confined.2 _) turns
          refine ⟨fun moment member => ?_, values⟩
          rcases List.mem_cons.1 member with rfl | member
          · exact confined.1
          · exact calls moment member

/-- A call that the first of two programs does not make is made by the second, after the
first came to its value. -/
theorem runAmong_bind_split {allowed : Call → Prop} {holds : α → Prop} {program : Program Reply α}
    {rest : α → Program Reply β} {turns : List (World × Outcome)}
    {front back : List (Moment Reply Outcome World)} {moment : Moment Reply Outcome World}
    (confined : Confined allowed holds program) (other : ¬ allowed moment.event.request)
    (trace : (runAmong respond (program >>= rest) turns).2 = front ++ moment :: back) :
    ∃ value first second turns', holds value ∧
      runAmong respond program turns = (some value, first) ∧ front = first ++ second ∧
        (runAmong respond (rest value) turns').2 = second ++ moment :: back := by
  induction program generalizing turns front with
  | done value => exact ⟨value, [], front, turns, confined, rfl, rfl, trace⟩
  | call request next ih =>
      cases turns with
      | nil => simp [runAmong] at trace
      | cons turn turns =>
          cases front with
          | nil =>
              cases trace
              exact absurd confined.1 other
          | cons head front =>
              obtain ⟨same, trace⟩ := List.cons.inj trace
              obtain ⟨value, first, second, turns', held, ran, rfl, later⟩ :=
                ih _ (confined.2 _) trace
              exact ⟨value, head :: first, second, turns', held, by simp [runAmong, ran, ← same],
                rfl, later⟩

/-- The same where an error ends the program. -/
theorem runAmong_andThen_split {allowed : Call → Prop} {holds : Except ε α → Prop}
    {program : ExceptT ε (Program Reply) α} {rest : α → ExceptT ε (Program Reply) β}
    {turns : List (World × Outcome)} {front back : List (Moment Reply Outcome World)}
    {moment : Moment Reply Outcome World} (confined : Confined allowed holds program.run)
    (other : ¬ allowed moment.event.request)
    (trace : (runAmong respond (program >>= rest).run turns).2 = front ++ moment :: back) :
    ∃ value first second turns', holds (.ok value) ∧
      runAmong respond program.run turns = (some (.ok value), first) ∧ front = first ++ second ∧
        (runAmong respond (rest value).run turns').2 = second ++ moment :: back := by
  obtain ⟨result, first, second, turns', held, ran, split, later⟩ :=
    runAmong_bind_split confined other trace
  cases result with
  | ok value => exact ⟨value, first, second, turns', held, ran, split, later⟩
  | error stopped => simp [runAmong, ExceptT.bindCont] at later

/-- A call of two programs is made by the first, or by the second after the first came to its
value. -/
theorem runAmong_andThen_either {program : ExceptT ε (Program Reply) α}
    {rest : α → ExceptT ε (Program Reply) β} {turns : List (World × Outcome)}
    {front back : List (Moment Reply Outcome World)} {moment : Moment Reply Outcome World}
    (trace : (runAmong respond (program >>= rest).run turns).2 = front ++ moment :: back) :
    (∃ others, (runAmong respond program.run turns).2 = front ++ moment :: others) ∨
      ∃ value first second turns',
        runAmong respond program.run turns = (some (.ok value), first) ∧ front = first ++ second ∧
          (runAmong respond (rest value).run turns').2 = second ++ moment :: back := by
  have either : ∀ tree : Program Reply (Except ε α), ∀ (turns : List (World × Outcome)) front,
      (runAmong respond (tree >>= ExceptT.bindCont rest) turns).2 = front ++ moment :: back →
      (∃ others, (runAmong respond tree turns).2 = front ++ moment :: others) ∨
        ∃ value first second turns',
          runAmong respond tree turns = (some (.ok value), first) ∧ front = first ++ second ∧
            (runAmong respond (rest value).run turns').2 = second ++ moment :: back := by
    intro tree
    induction tree with
    | done result =>
        intro turns front trace
        cases result with
        | ok value => exact .inr ⟨value, [], front, turns, rfl, rfl, trace⟩
        | error stopped => simp [runAmong, ExceptT.bindCont] at trace
    | call request next ih =>
        intro turns front trace
        cases turns with
        | nil => simp [runAmong] at trace
        | cons turn turns =>
            cases front with
            | nil =>
                obtain ⟨same, _⟩ := List.cons.inj trace
                exact .inl ⟨_, by simp only [runAmong, ← same]; rfl⟩
            | cons head front =>
                obtain ⟨same, trace⟩ := List.cons.inj trace
                rcases ih _ turns front trace with ⟨others, within⟩ |
                  ⟨value, first, second, turns', ran, split, later⟩
                · exact .inl ⟨others, by simp only [runAmong, within, ← same]; rfl⟩
                · exact .inr ⟨value, head :: first, second, turns', by simp [runAmong, ran, ← same],
                    by rw [split]; rfl, later⟩
  exact either program.run turns front trace

/-- Where the first of two programs stops, both do. -/
theorem runAmong_andThen_stopped {program : ExceptT ε (Program Reply) α}
    {rest : α → ExceptT ε (Program Reply) β} {turns : List (World × Outcome)} {stopped : ε}
    {trace : List (Moment Reply Outcome World)}
    (ran : runAmong respond program.run turns = (some (.error stopped), trace)) :
    runAmong respond (program >>= rest).run turns = (some (.error stopped), trace) := by
  have both : ∀ tree : Program Reply (Except ε α), ∀ (turns : List (World × Outcome)) trace,
      runAmong respond tree turns = (some (.error stopped), trace) →
      runAmong respond (tree >>= ExceptT.bindCont rest) turns = (some (.error stopped), trace) := by
    intro tree
    induction tree with
    | done result =>
        intro turns trace ran
        cases ran
        rfl
    | call request next ih =>
        intro turns trace ran
        cases turns with
        | nil => cases ran
        | cons turn turns =>
            simp only [runAmong, Prod.mk.injEq] at ran
            obtain ⟨returned, same⟩ := ran
            have later := ih _ turns _ (Prod.ext returned rfl)
            simp only [call_bind, runAmong, later, same]
  exact both program.run turns trace ran

/-- After the first of two programs came to its value, the second goes on with the turns that are
left. -/
theorem runAmong_andThen_value {program : ExceptT ε (Program Reply) α}
    {rest : α → ExceptT ε (Program Reply) β} {turns : List (World × Outcome)} {value : α}
    {first : List (Moment Reply Outcome World)}
    (ran : runAmong respond program.run turns = (some (.ok value), first)) :
    runAmong respond (program >>= rest).run turns =
      ((runAmong respond (rest value).run (turns.drop first.length)).1,
        first ++ (runAmong respond (rest value).run (turns.drop first.length)).2) := by
  have both : ∀ tree : Program Reply (Except ε α), ∀ (turns : List (World × Outcome)) first,
      runAmong respond tree turns = (some (.ok value), first) →
      runAmong respond (tree >>= ExceptT.bindCont rest) turns =
        ((runAmong respond (rest value).run (turns.drop first.length)).1,
          first ++ (runAmong respond (rest value).run (turns.drop first.length)).2) := by
    intro tree
    induction tree with
    | done result =>
        intro turns first ran
        cases ran
        rfl
    | call request next ih =>
        intro turns first ran
        cases turns with
        | nil => cases ran
        | cons turn turns =>
            simp only [runAmong, Prod.mk.injEq] at ran
            obtain ⟨returned, same⟩ := ran
            subst same
            have later := ih _ turns _ (Prod.ext returned rfl)
            simp only [call_bind, runAmong, later, List.length_cons, List.drop_succ_cons,
              List.cons_append]
  exact both program.run turns first ran

/-- A run that came to a value ran both of two programs to a value. -/
theorem runAmong_bind_done {program : Program Reply α} {rest : α → Program Reply β}
    {turns : List (World × Outcome)} {value : β} {trace : List (Moment Reply Outcome World)}
    (ran : runAmong respond (program >>= rest) turns = (some value, trace)) :
    ∃ middle first second turns', runAmong respond program turns = (some middle, first) ∧
      runAmong respond (rest middle) turns' = (some value, second) ∧ trace = first ++ second := by
  induction program generalizing turns trace with
  | done middle => exact ⟨middle, [], trace, turns, rfl, ran, rfl⟩
  | call request next ih =>
      cases turns with
      | nil => cases ran
      | cons turn turns =>
          simp only [call_bind, runAmong, Prod.mk.injEq] at ran
          obtain ⟨returned, rfl⟩ := ran
          obtain ⟨middle, first, second, turns', ran, later, split⟩ := ih _ (Prod.ext returned rfl)
          exact ⟨middle, _ :: first, second, turns', by simp only [runAmong, ran], later,
            congrArg _ split⟩

theorem runAmong_andThen_done {program : ExceptT ε (Program Reply) α}
    {rest : α → ExceptT ε (Program Reply) β} {turns : List (World × Outcome)} {value : β}
    {trace : List (Moment Reply Outcome World)}
    (ran : runAmong respond (program >>= rest).run turns = (some (.ok value), trace)) :
    ∃ middle first second turns', runAmong respond program.run turns = (some (.ok middle), first) ∧
      runAmong respond (rest middle).run turns' = (some (.ok value), second) ∧
        trace = first ++ second := by
  obtain ⟨result, first, second, turns', ran, later, split⟩ := runAmong_bind_done ran
  cases result with
  | ok middle => exact ⟨middle, first, second, turns', ran, later, split⟩
  | error stopped => simp [runAmong, ExceptT.bindCont] at later

/-- Where the others keep to what the program relies on, it keeps its contract. -/
theorem Meets.among {contract : Contract World}
    {post : List (Event Reply Outcome) → World → α → Prop} {program : Program Reply α}
    {world : World} (meets : Meets respond contract post program world)
    {turns : List (World × Outcome)}
    (relies : Relies contract.rely world (runAmong respond program turns).2) :
    (∀ moment ∈ (runAmong respond program turns).2,
      contract.guarantee moment.before moment.after) ∧
    ∀ value, (runAmong respond program turns).1 = some value →
      post ((runAmong respond program turns).2.map Moment.event)
        (leftBy world (runAmong respond program turns).2) value := by
  induction program generalizing world post turns with
  | done value =>
      refine ⟨nofun, ?_⟩
      rintro _ ⟨⟩
      exact meets world (contract.rely_refl world)
  | call request next ih =>
      cases turns with
      | nil => exact ⟨nofun, nofun⟩
      | cons turn turns =>
          obtain ⟨relied, later⟩ := relies
          obtain ⟨step, following⟩ := meets _ relied turn.2
          obtain ⟨steps, values⟩ := ih _ following later
          refine ⟨fun moment member => ?_, values⟩
          rcases List.mem_cons.1 member with rfl | member
          · exact step
          · exact steps moment member

/-! ## Programs inside others -/

/-- A program whose calls are some of those of a larger kind. -/
def inject {Outer : Type} {OuterReply : Outer → Type} (wrap : Call → Outer)
    (unwrap : (request : Call) → OuterReply (wrap request) → Reply request) :
    Program Reply α → Program OuterReply α
  | .done value => .done value
  | .call request next =>
      .call (wrap request) fun reply => inject wrap unwrap (next (unwrap request reply))

section Inject

variable {Outer OuterOutcome : Type} {OuterReply : Outer → Type} {wrap : Call → Outer}
  {unwrap : (request : Call) → OuterReply (wrap request) → Reply request}

theorem Confined.inject {allowed : Call → Prop} {permitted : Outer → Prop} {holds : α → Prop}
    {program : Program Reply α} (confined : Confined allowed holds program)
    (calls : ∀ request, allowed request → permitted (wrap request)) :
    Confined permitted holds (program.inject wrap unwrap) := by
  induction program with
  | done value => exact confined
  | call request next ih => exact ⟨calls request confined.1, fun reply => ih _ (confined.2 _)⟩

/-- A program keeps its contract inside another one, where its calls are answered alike. -/
theorem Meets.inject {contract : Contract World} {holds : World → α → Prop}
    {program : Program Reply α} {world : World}
    (outer : World → (request : Outer) → OuterOutcome → OuterReply request × World)
    (outcomeOf : OuterOutcome → Outcome)
    (answers : ∀ world request outcome,
      (unwrap request (outer world (wrap request) outcome).1,
        (outer world (wrap request) outcome).2) = respond world request (outcomeOf outcome))
    (meets : Meets respond contract (fun _ => holds) program world) :
    Meets outer contract (fun _ => holds) (program.inject wrap unwrap) world := by
  induction program generalizing world with
  | done value => exact meets
  | call request next ih =>
      intro later relied outcome
      obtain ⟨step, rest⟩ := meets later relied (outcomeOf outcome)
      rw [← answers] at step rest
      exact ⟨step, ih _ rest⟩

end Inject

end Program

end Sealed.Foundation
