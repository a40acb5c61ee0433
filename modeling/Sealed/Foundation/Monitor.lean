import Sealed.Foundation.Interference

/-! Programs under a monitor, which sees every call with its reply and says which calls it
permits next. -/

set_option autoImplicit false

namespace Sealed.Foundation

/-- Which calls are permitted in a state, and the state that a reply leads to. -/
structure Monitor {Call : Type} (Reply : Call → Type) (State : Type) where
  permits : State → Call → Prop
  advance : State → (request : Call) → Reply request → State

variable {Call World Outcome State : Type} {Reply : Call → Type} {α β ε : Type}

namespace Monitor

variable (monitor : Monitor Reply State)

/-- The state after calls that were answered. -/
def after (state : State) (events : List (Event Reply Outcome)) : State :=
  events.foldl (fun state event => monitor.advance state event.request event.reply) state

/-- Every call was permitted in the state that it found. -/
def Accepts : State → List (Event Reply Outcome) → Prop
  | _, [] => True
  | state, event :: rest =>
      monitor.permits state event.request ∧
        Accepts (monitor.advance state event.request event.reply) rest

variable {monitor}

theorem Accepts.permits {state : State} {front back : List (Event Reply Outcome)}
    {event : Event Reply Outcome} (accepts : monitor.Accepts state (front ++ event :: back)) :
    monitor.permits (monitor.after state front) event.request := by
  induction front generalizing state with
  | nil => exact accepts.1
  | cons head front ih => exact ih accepts.2

end Monitor

namespace Program

variable {monitor : Monitor Reply State} {holds : State → α → Prop}

/-- Whatever the replies, the monitor permits every call, and such a value holds in the
state that it ends in. -/
def Follows (monitor : Monitor Reply State) (holds : State → α → Prop) :
    Program Reply α → State → Prop
  | .done value, state => holds state value
  | .call request next, state =>
      monitor.permits state request ∧
        ∀ reply, Follows monitor holds (next reply) (monitor.advance state request reply)

theorem Follows.mono {goal : State → α → Prop} {program : Program Reply α} {state : State}
    (follows : Follows monitor holds program state)
    (values : ∀ state value, holds state value → goal state value) :
    Follows monitor goal program state := by
  induction program generalizing state with
  | done value => exact values state value follows
  | call request next ih => exact ⟨follows.1, fun reply => ih reply (follows.2 reply)⟩

/-- A monitor that permits more, and counts alike. -/
theorem Follows.weaken {other : Monitor Reply State} {program : Program Reply α} {state : State}
    (follows : Follows monitor holds program state)
    (permits : ∀ state request, monitor.permits state request → other.permits state request)
    (advances : other.advance = monitor.advance) : Follows other holds program state := by
  induction program generalizing state with
  | done value => exact follows
  | call request next ih =>
      constructor
      · exact permits state request follows.1
      · intro reply
        rw [advances]
        exact ih reply (follows.2 reply)

/-- What the monitor never permits is not called. -/
theorem Follows.confined {allowed : Call → Prop} {result : α → Prop} {program : Program Reply α}
    {state : State} (follows : Follows monitor holds program state)
    (permits : ∀ state request, monitor.permits state request → allowed request)
    (values : ∀ state value, holds state value → result value) :
    Confined allowed result program := by
  induction program generalizing state with
  | done value => exact values state value follows
  | call request next ih =>
      exact ⟨permits state request follows.1, fun reply => ih reply (follows.2 reply)⟩

theorem Follows.bind {goal : State → β → Prop} {program : Program Reply α}
    {rest : α → Program Reply β} {state : State}
    (follows : Follows monitor holds program state)
    (next : ∀ later value, holds later value → Follows monitor goal (rest value) later) :
    Follows monitor goal (program >>= rest) state := by
  induction program generalizing state with
  | done value => exact next state value follows
  | call request continue' ih => exact ⟨follows.1, fun reply => ih reply (follows.2 reply)⟩

/-- Calls that the monitor permits in a state and does not count. -/
theorem Confined.follows {allowed : Call → Prop} {result : α → Prop} {program : Program Reply α}
    (confined : Confined allowed result program) (monitor : Monitor Reply State) (state : State)
    (permits : ∀ request, allowed request → monitor.permits state request)
    (stays : ∀ request, allowed request → ∀ reply, monitor.advance state request reply = state) :
    Follows monitor (fun later value => later = state ∧ result value) program state := by
  induction program with
  | done value => exact ⟨rfl, confined⟩
  | call request next ih =>
      constructor
      · exact permits request confined.1
      · intro reply
        rw [stays request confined.1 reply]
        exact ih reply (confined.2 reply)

/-- A program inside another one, under a monitor that sees its calls alike. -/
theorem Follows.inject {Outer : Type} {OuterReply : Outer → Type} {outer : Monitor OuterReply State}
    {wrap : Call → Outer} {unwrap : (request : Call) → OuterReply (wrap request) → Reply request}
    {program : Program Reply α} {state : State} (follows : Follows monitor holds program state)
    (permits : ∀ state request, monitor.permits state request → outer.permits state (wrap request))
    (advances : ∀ state request reply,
      outer.advance state (wrap request) reply =
        monitor.advance state request (unwrap request reply)) :
    Follows outer holds (program.inject wrap unwrap) state := by
  induction program generalizing state with
  | done value => exact follows
  | call request next ih =>
      constructor
      · exact permits state request follows.1
      · intro reply
        rw [advances]
        exact ih _ (follows.2 _)

/-- The monitor accepts every run, whatever the others do. -/
theorem Follows.among {respond : World → (request : Call) → Outcome → Reply request × World}
    {program : Program Reply α} {state : State} (follows : Follows monitor holds program state)
    (turns : List (World × Outcome)) :
    monitor.Accepts state ((runAmong respond program turns).2.map Moment.event) ∧
      ∀ value, (runAmong respond program turns).1 = some value →
        holds (monitor.after state ((runAmong respond program turns).2.map Moment.event)) value := by
  induction program generalizing state turns with
  | done value =>
      constructor
      · trivial
      · intro other same
        cases same
        exact follows
  | call request next ih =>
      cases turns with
      | nil => exact ⟨trivial, nofun⟩
      | cons turn turns =>
          obtain ⟨accepts, values⟩ := ih _ (follows.2 (respond turn.1 request turn.2).1) turns
          exact ⟨⟨follows.1, accepts⟩, values⟩

end Program

end Sealed.Foundation
