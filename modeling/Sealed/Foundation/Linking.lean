import Sealed.Foundation.Interference

/-! What holds at every point of a lone run, which may die at any of them, and programs whose
calls are answered by other programs. -/

set_option autoImplicit false

namespace Sealed.Foundation.Program

variable {Call World Outcome : Type} {Reply : Call → Type} {α β ε : Type}

/-! ## Every point of a run -/

/-- As long as the outcomes are good: before every call the first condition holds, and where
the program comes to a value the second one does. -/
def Always (respond : World → (request : Call) → Outcome → Reply request × World)
    (good : Call → Outcome → Prop) (before : World → Call → Prop) (post : World → α → Prop) :
    Program Reply α → World → Prop
  | .done value, world => post world value
  | .call request next, world =>
      before world request ∧ ∀ outcome, good request outcome → Always respond good before post
        (next (respond world request outcome).1) (respond world request outcome).2

section Always

variable {respond : World → (request : Call) → Outcome → Reply request × World}
  {good : Call → Outcome → Prop} {before : World → Call → Prop} {post : World → α → Prop}

theorem Always.mono {wider : World → Call → Prop} {goal : World → α → Prop}
    {program : Program Reply α} {world : World}
    (always : Always respond good before post program world)
    (points : ∀ later request, before later request → wider later request)
    (values : ∀ later value, post later value → goal later value) :
    Always respond good wider goal program world := by
  induction program generalizing world with
  | done value => exact values world value always
  | call request next ih =>
      exact ⟨points world request always.1, fun outcome fine => ih _ (always.2 outcome fine)⟩

theorem Always.bind {goal : World → β → Prop} {program : Program Reply α}
    {rest : α → Program Reply β} {world : World}
    (always : Always respond good before
      (fun later value => Always respond good before goal (rest value) later) program world) :
    Always respond good before goal (program >>= rest) world := by
  induction program generalizing world with
  | done value => exact always
  | call request next ih =>
      exact ⟨always.1, fun outcome fine => ih _ (always.2 outcome fine)⟩

theorem Always.andThen {goal : World → Except ε β → Prop}
    {program : ExceptT ε (Program Reply) α} {rest : α → ExceptT ε (Program Reply) β}
    {world : World}
    (always : Always respond good before
      (fun later => Continues (fun value => Always respond good before goal (rest value).run later)
        fun stopped => goal later (.error stopped)) program.run world) :
    Always respond good before goal (program >>= rest).run world := by
  change Always respond good before goal (program.run >>= ExceptT.bindCont rest) world
  apply Always.bind
  apply always.mono fun _ _ => id
  intro later result continues
  cases result with
  | ok value => exact continues
  | error stopped => exact continues

/-- Calls that keep an invariant. -/
theorem Confined.always {allowed : Call → Prop} {result : α → Prop} {holds : World → Prop}
    {program : Program Reply α} {world : World} (confined : Confined allowed result program)
    (start : holds world)
    (points : ∀ request, allowed request → ∀ later, holds later → before later request)
    (keeps : ∀ request, allowed request → ∀ later, holds later → ∀ outcome, good request outcome →
      holds (respond later request outcome).2) :
    Always respond good before (fun later value => holds later ∧ result value) program world := by
  induction program generalizing world with
  | done value => exact ⟨start, confined⟩
  | call request next ih =>
      constructor
      · exact points request confined.1 world start
      · intro outcome fine
        exact ih _ (confined.2 _) (keeps request confined.1 world start outcome fine)

theorem Always.of_run {program : Program Reply α} {world : World}
    (always : Always respond good before post program world) {outcomes : List Outcome}
    (fine : ∀ event ∈ (run respond program world outcomes).2.2, good event.request event.outcome) :
    (∀ value, (run respond program world outcomes).1 = some value →
      post (run respond program world outcomes).2.1 value) ∧
    ((run respond program world outcomes).1 = none →
      ∃ request, before (run respond program world outcomes).2.1 request) := by
  induction program generalizing world outcomes with
  | done value =>
      constructor
      · intro other same
        cases same
        exact always
      · exact nofun
  | call request next ih =>
      cases outcomes with
      | nil => exact ⟨nofun, fun _ => ⟨request, always.1⟩⟩
      | cons outcome outcomes =>
          apply ih _ (always.2 outcome (fine _ List.mem_cons_self))
          exact fun event member => fine event (List.mem_cons_of_mem _ member)

/-- Against a stream of good outcomes, the program comes to a value for which the second condition
holds. -/
theorem Always.finishes {program : Program Reply α} {world : World}
    (always : Always respond good before post program world) (outcomes : Nat → Outcome)
    (fine : ∀ request turn, good request (outcomes turn)) :
    ∃ turns, ∃ value later events,
      run respond program world ((List.range turns).map outcomes) = (some value, later, events) ∧
        post later value := by
  obtain ⟨turns, finished⟩ := run_terminates respond program world outcomes
  obtain ⟨value, came⟩ := Option.isSome_iff_exists.1 finished
  have stream : ∀ event ∈ (run respond program world ((List.range turns).map outcomes)).2.2,
      good event.request event.outcome := by
    intro event member
    obtain ⟨turn, _, same⟩ := List.mem_map.1 (run_outcomes _ _ _ _ event member)
    rw [← same]
    exact fine _ turn
  exact ⟨turns, value, _, _, Prod.ext came rfl, (always.of_run stream).1 value came⟩

theorem confined_any (program : Program Reply α) :
    Confined (fun _ => True) (fun _ => True) program := by
  induction program with
  | done value => trivial
  | call request next ih => exact ⟨trivial, ih⟩

/-- A condition on the world that holds at every point and in the end. -/
def Throughout (respond : World → (request : Call) → Outcome → Reply request × World)
    (good : Call → Outcome → Prop) (holds : World → Prop) (program : Program Reply α)
    (world : World) : Prop :=
  Always respond good (fun later _ => holds later) (fun later _ => holds later) program world

theorem Throughout.mono {holds goal : World → Prop} {program : Program Reply α} {world : World}
    (throughout : Throughout respond good holds program world)
    (weaker : ∀ later, holds later → goal later) : Throughout respond good goal program world :=
  Always.mono throughout (fun later _ => weaker later) fun later _ => weaker later

theorem Confined.throughout {allowed : Call → Prop} {result : α → Prop} {holds : World → Prop}
    {program : Program Reply α} {world : World} (confined : Confined allowed result program)
    (start : holds world)
    (keeps : ∀ request, allowed request → ∀ later, holds later → ∀ outcome, good request outcome →
      holds (respond later request outcome).2) : Throughout respond good holds program world :=
  (confined.always start (fun _ _ _ => id) keeps).mono (fun _ _ => id) fun _ _ => And.left

theorem Throughout.of_run {holds : World → Prop} {program : Program Reply α} {world : World}
    (throughout : Throughout respond good holds program world) {outcomes : List Outcome}
    (fine : ∀ event ∈ (run respond program world outcomes).2.2, good event.request event.outcome) :
    holds (run respond program world outcomes).2.1 := by
  obtain ⟨ended, died⟩ := Always.of_run throughout fine
  cases came : (run respond program world outcomes).1 with
  | some value => exact ended value came
  | none =>
      obtain ⟨_, point⟩ := died came
      exact point

end Always

/-! ## Lone runs -/

/-- Some lone run is in this world when it dies, or at its end. -/
def Passes (respond : World → (request : Call) → Outcome → Reply request × World)
    (program : Program Reply α) (world later : World) : Prop :=
  ∃ outcomes, (run respond program world outcomes).2.1 = later

section Runs

variable {respond : World → (request : Call) → Outcome → Reply request × World}
  {request : Call} {next : Reply request → Program Reply α} {world middle later : World}
  {outcome : Outcome} {reply : Reply request}

/-- A run that dies at once. -/
theorem run_nil (program : Program Reply α) (world : World) :
    (run respond program world []).2.1 = world := by
  cases program <;> rfl

theorem Passes.call (passes : Passes respond (next reply) middle later)
    (answered : respond world request outcome = (reply, middle)) :
    Passes respond (.call request next) world later := by
  obtain ⟨outcomes, there⟩ := passes
  refine ⟨outcome :: outcomes, ?_⟩
  simp only [run, answered, there]

end Runs

/-! ## Linking -/

variable {Outer OuterWorld OuterOutcome : Type} {OuterReply : Outer → Type} {ε' : Type}

/-- The program with each of its calls answered by a program, whose failure ends it. -/
def link (handler : (request : Call) → ExceptT ε' (Program OuterReply) (Reply request))
    (raise : ε → ε') : Program Reply (Except ε α) → ExceptT ε' (Program OuterReply) α
  | .done (.ok value) => ExceptT.mk (pure (.ok value))
  | .done (.error stopped) => ExceptT.mk (pure (.error (raise stopped)))
  | .call request next => handler request >>= fun reply => link handler raise (next reply)

section Link

variable {handler : (request : Call) → ExceptT ε' (Program OuterReply) (Reply request)}
  {raise : ε → ε'}
  {outer : OuterWorld → (request : Outer) → OuterOutcome → OuterReply request × OuterWorld}
  {good : Outer → OuterOutcome → Prop} {before : OuterWorld → Outer → Prop}
  {allowed : Call → Prop} {result : Except ε α → Prop}

/-- What every answer keeps, the linked program keeps. -/
theorem Confined.always_link {holds : OuterWorld → Prop} {goal : OuterWorld → Except ε' α → Prop}
    {program : Program Reply (Except ε α)} (confined : Confined allowed result program)
    (answers : ∀ request, allowed request → ∀ world, holds world → Always outer good before
      (fun later => Continues (fun _ => holds later) fun stopped => goal later (.error stopped))
      (handler request).run world)
    (values : ∀ later value, holds later → result (.ok value) → goal later (.ok value))
    (errors : ∀ later stopped, holds later → result (.error stopped) →
      goal later (.error (raise stopped)))
    {world : OuterWorld} (start : holds world) :
    Always outer good before goal (program.link handler raise).run world := by
  induction program generalizing world with
  | done value =>
      cases value with
      | ok value => exact values world value start confined
      | error stopped => exact errors world stopped start confined
  | call request next ih =>
      apply Always.andThen
      apply (answers request confined.1 world start).mono fun _ _ => id
      intro later reply answered
      cases reply with
      | ok reply => exact ih reply (confined.2 reply) answered
      | error stopped => exact answered

/-- What the linked program does to a part of the world, the program itself does with some
outcomes of its calls, as long as each answer acts there like one call. -/
theorem simulates_link {respond : World → (request : Call) → Outcome → Reply request × World}
    {project : OuterWorld → World}
    (answers : ∀ request world, Always outer good
      (fun later _ => project later = project world)
      (fun later => Continues
        (fun reply => ∃ outcome, respond (project world) request outcome = (reply, project later))
        fun _ => project later = project world)
      (handler request).run world)
    (program : Program Reply (Except ε α)) (world : OuterWorld) :
    Throughout outer good (fun later => Passes respond program (project world) (project later))
      (program.link handler raise).run world := by
  induction program generalizing world with
  | done value => cases value <;> exact ⟨[], rfl⟩
  | call request next ih =>
      have stay : ∀ later, project later = project world →
          Passes respond (.call request next) (project world) (project later) :=
        fun later same => ⟨[], same.symm⟩
      apply Always.andThen
      apply (answers request world).mono fun later _ => stay later
      intro later reply answered
      cases reply with
      | error stopped => exact stay later answered
      | ok reply =>
          obtain ⟨outcome, same⟩ := answered
          exact (ih reply later).mono fun final passes => passes.call same

end Link

/-! ## Inside another program -/

section Inject

variable {wrap : Call → Outer} {unwrap : (request : Call) → OuterReply (wrap request) → Reply request}
  {respond : World → (request : Call) → Outcome → Reply request × World}
  {outer : OuterWorld → (request : Outer) → OuterOutcome → OuterReply request × OuterWorld}
  {good : Outer → OuterOutcome → Prop}

/-- What a program that is alone meets, it meets inside another one, whose world has a part that
its calls leave alone. -/
theorem Meets.always_inject {guarantee : World → World → Prop}
    {post : List (Event Reply Outcome) → World → α → Prop} {program : Program Reply α}
    {world : OuterWorld} (project : OuterWorld → World) (frame : OuterWorld → Prop)
    (outcomeOf : OuterOutcome → Outcome)
    (answers : ∀ later request outcome,
      (unwrap request (outer later (wrap request) outcome).1,
        project (outer later (wrap request) outcome).2) =
      respond (project later) request (outcomeOf outcome))
    (keeps : ∀ later request outcome, frame later → frame (outer later (wrap request) outcome).2)
    (start : frame world)
    (meets : Meets respond (Contract.alone guarantee) post program (project world)) :
    Always outer good (fun _ _ => True)
      (fun later value => frame later ∧ ∃ events : List (Event Reply Outcome),
        (∀ event ∈ events, ∃ outcome, good (wrap event.request) outcome ∧
          event.outcome = outcomeOf outcome) ∧ post events (project later) value)
      (program.inject wrap unwrap) world := by
  induction program generalizing world post with
  | done value => exact ⟨start, [], List.forall_mem_nil _, meets _ rfl⟩
  | call request next ih =>
      constructor
      · trivial
      · intro outcome fine
        have rest := (meets _ rfl (outcomeOf outcome)).2
        rw [← answers] at rest
        apply (ih _ (keeps _ _ outcome start) rest).mono fun _ _ => id
        intro later value holds
        obtain ⟨framed, events, each, held⟩ := holds
        exact ⟨framed, _, List.forall_mem_cons.2 ⟨⟨outcome, fine, rfl⟩, each⟩, held⟩

end Inject

end Sealed.Foundation.Program
