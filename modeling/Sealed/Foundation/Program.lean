import Mathlib.Data.List.Forall2
import Mathlib.Logic.Function.Basic
import Mathlib.Logic.Relation
import Mathlib.Order.Basic

/-! Programs as trees of calls, their runs against a world that answers the calls, and a
rely-guarantee logic for one program among others. -/

set_option autoImplicit false

namespace Sealed.Foundation

/-- A program that makes calls and continues with the replies. -/
inductive Program {Call : Type} (Reply : Call → Type) (α : Type) where
  | done (value : α)
  | call (request : Call) (next : Reply request → Program Reply α)

/-- A call that was answered, with the outcome that the answer was drawn from. -/
structure Event {Call : Type} (Reply : Call → Type) (Outcome : Type) where
  request : Call
  outcome : Outcome
  reply : Reply request

namespace Program

variable {Call World Outcome : Type} {Reply : Call → Type} {α β ε : Type}

def bind (program : Program Reply α) (rest : α → Program Reply β) : Program Reply β :=
  match program with
  | .done value => rest value
  | .call request next => .call request fun reply => (next reply).bind rest

instance : Monad (Program Reply) where
  pure := .done
  bind := .bind

def perform (request : Call) : Program Reply (Reply request) := .call request .done

@[simp] theorem pure_eq (value : α) : (pure value : Program Reply α) = .done value := rfl

@[simp] theorem done_bind (value : α) (rest : α → Program Reply β) :
    (Program.done value >>= rest) = rest value := rfl

@[simp] theorem call_bind (request : Call) (next : Reply request → Program Reply α)
    (rest : α → Program Reply β) :
    (Program.call request next >>= rest) = .call request fun reply => next reply >>= rest := rfl

theorem bind_pure (program : Program Reply α) : (program >>= Program.done) = program := by
  induction program with
  | done value => rfl
  | call request next ih => exact congrArg _ (funext ih)

theorem bind_assoc {γ : Type} (program : Program Reply α) (rest : α → Program Reply β)
    (last : β → Program Reply γ) :
    (program >>= rest >>= last) = (program >>= fun value => rest value >>= last) := by
  induction program with
  | done value => rfl
  | call request next ih => exact congrArg _ (funext ih)

instance : LawfulMonad (Program Reply) :=
  LawfulMonad.mk' (Program Reply) bind_pure (fun _ _ => rfl) bind_assoc

/-! ## Runs -/

/-- The run of a program that dies when the outcomes end: its value if it came to one,
the world it leaves, and the calls that were answered. -/
def run (respond : World → (request : Call) → Outcome → Reply request × World) :
    Program Reply α → World → List Outcome → Option α × World × List (Event Reply Outcome)
  | .done value, world, _ => (some value, world, [])
  | .call _ _, world, [] => (none, world, [])
  | .call request next, world, outcome :: outcomes =>
      let answer := respond world request outcome
      let rest := run respond (next answer.1) answer.2 outcomes
      (rest.1, rest.2.1, ⟨request, outcome, answer.1⟩ :: rest.2.2)

/-- Against every stream of outcomes a program comes to a value. -/
theorem run_terminates (respond : World → (request : Call) → Outcome → Reply request × World)
    (program : Program Reply α) (world : World) (outcomes : Nat → Outcome) :
    ∃ steps, (run respond program world ((List.range steps).map outcomes)).1.isSome = true := by
  induction program generalizing world outcomes with
  | done value => exact ⟨0, rfl⟩
  | call request next ih =>
      let answer := respond world request (outcomes 0)
      obtain ⟨steps, finished⟩ := ih answer.1 answer.2 fun step => outcomes (step + 1)
      refine ⟨steps + 1, ?_⟩
      rw [List.range_succ_eq_map, List.map_cons, List.map_map]
      exact finished

/-- A program that has come to a value makes no use of further outcomes. -/
theorem run_append (respond : World → (request : Call) → Outcome → Reply request × World)
    {program : Program Reply α} {world : World} {first : List Outcome}
    (finished : (run respond program world first).1.isSome = true) (second : List Outcome) :
    run respond program world (first ++ second) = run respond program world first := by
  induction program generalizing world first with
  | done value => rfl
  | call request next ih =>
      cases first with
      | nil => cases finished
      | cons outcome outcomes =>
          simp only [List.cons_append, run, ih _ finished]

/-- The value that a program comes to against a stream does not depend on how much of it there
is. -/
theorem run_stream {respond : World → (request : Call) → Outcome → Reply request × World}
    {program : Program Reply α} {world : World} {outcomes : Nat → Outcome} {few many : Nat}
    (first : (run respond program world ((List.range few).map outcomes)).1.isSome = true)
    (second : (run respond program world ((List.range many).map outcomes)).1.isSome = true) :
    run respond program world ((List.range few).map outcomes) =
      run respond program world ((List.range many).map outcomes) := by
  have further : ∀ {steps : Nat} (more : Nat),
      (run respond program world ((List.range steps).map outcomes)).1.isSome = true →
        run respond program world ((List.range (steps + more)).map outcomes) =
          run respond program world ((List.range steps).map outcomes) := by
    intro steps more finished
    rw [List.range_add, List.map_append]
    exact run_append respond finished _
  rcases Nat.le_total few many with le | le
  · obtain ⟨more, same⟩ := Nat.exists_eq_add_of_le le
    subst same
    exact (further more first).symm
  · obtain ⟨more, same⟩ := Nat.exists_eq_add_of_le le
    subst same
    exact further more second

theorem run_outcomes (respond : World → (request : Call) → Outcome → Reply request × World)
    (program : Program Reply α) (world : World) (outcomes : List Outcome) :
    ∀ event ∈ (run respond program world outcomes).2.2, event.outcome ∈ outcomes := by
  induction program generalizing world outcomes with
  | done value => exact nofun
  | call request next ih =>
      cases outcomes with
      | nil => exact nofun
      | cons outcome outcomes =>
          intro event member
          rcases List.mem_cons.1 member with rfl | member
          · exact List.mem_cons_self
          · exact List.mem_cons_of_mem _ (ih _ _ outcomes event member)

/-- Whatever the replies, the program makes only such calls and comes only to such a value. -/
def Confined (allowed : Call → Prop) (holds : α → Prop) : Program Reply α → Prop
  | .done value => holds value
  | .call request next => allowed request ∧ ∀ reply, Confined allowed holds (next reply)

section Confined

variable {allowed : Call → Prop} {holds : α → Prop}

theorem Confined.mono {permitted : Call → Prop} {goal : α → Prop} {program : Program Reply α}
    (confined : Confined allowed holds program) (calls : ∀ request, allowed request → permitted request)
    (values : ∀ value, holds value → goal value) : Confined permitted goal program := by
  induction program with
  | done value => exact values value confined
  | call request next ih => exact ⟨calls request confined.1, fun reply => ih reply (confined.2 reply)⟩

theorem Confined.bind {goal : β → Prop} {program : Program Reply α} {rest : α → Program Reply β}
    (confined : Confined allowed holds program)
    (next : ∀ value, holds value → Confined allowed goal (rest value)) :
    Confined allowed goal (program >>= rest) := by
  induction program with
  | done value => exact next value confined
  | call request continue' ih => exact ⟨confined.1, fun reply => ih reply (confined.2 reply)⟩

theorem Confined.run {program : Program Reply α} (confined : Confined allowed holds program)
    {respond : World → (request : Call) → Outcome → Reply request × World} {world : World}
    {outcomes : List Outcome} {value : α}
    (finished : (Program.run respond program world outcomes).1 = some value) : holds value := by
  induction program generalizing world outcomes with
  | done other =>
      cases finished
      exact confined
  | call request next ih =>
      cases outcomes with
      | nil => cases finished
      | cons outcome outcomes => exact ih _ (confined.2 _) finished

end Confined

end Program

/-! ## Contracts -/

/-- What a program may rely on while others act, and what it guarantees of every step of
its own. -/
structure Contract (World : Type) where
  rely : World → World → Prop
  guarantee : World → World → Prop
  rely_refl : ∀ world, rely world world
  rely_trans : ∀ {first second third}, rely first second → rely second third → rely first third

namespace Contract

variable {World : Type}

/-- A program alone in its world. -/
def alone (guarantee : World → World → Prop) : Contract World where
  rely := Eq
  guarantee := guarantee
  rely_refl := fun _ => rfl
  rely_trans := Eq.trans

/-- The contract with another guarantee. -/
def guaranteeing (contract : Contract World) (guarantee : World → World → Prop) :
    Contract World :=
  { contract with guarantee }

end Contract

namespace Program

variable {Call World Outcome : Type} {Reply : Call → Type} {α β ε : Type}
variable (respond : World → (request : Call) → Outcome → Reply request × World)

/-- Every step of the program meets the guarantee, and where it comes to a value the
postcondition holds of its calls, of the world and of the value. The others may act before
every step and after the last. -/
def Meets (contract : Contract World)
    (post : List (Event Reply Outcome) → World → α → Prop) : Program Reply α → World → Prop
  | .done value, world => ∀ later, contract.rely world later → post [] later value
  | .call request next, world =>
      ∀ later, contract.rely world later → ∀ outcome,
        contract.guarantee later (respond later request outcome).2 ∧
          Meets contract
            (fun events =>
              post (⟨request, outcome, (respond later request outcome).1⟩ :: events))
            (next (respond later request outcome).1) (respond later request outcome).2

variable {respond} {contract : Contract World}
  {post : List (Event Reply Outcome) → World → α → Prop}

theorem Meets.stable {program : Program Reply α} {world later : World}
    (meets : Meets respond contract post program world) (relied : contract.rely world later) :
    Meets respond contract post program later := by
  cases program with
  | done value => exact fun final relied' => meets final (contract.rely_trans relied relied')
  | call request next => exact fun final relied' => meets final (contract.rely_trans relied relied')

/-- A weaker postcondition and a weaker guarantee under a stronger rely. -/
theorem Meets.weaken {other : Contract World}
    {goal : List (Event Reply Outcome) → World → α → Prop} {program : Program Reply α}
    {world : World} (meets : Meets respond contract post program world)
    (rely : ∀ before after, other.rely before after → contract.rely before after)
    (guarantee : ∀ before after, contract.guarantee before after → other.guarantee before after)
    (consequence : ∀ events later value, post events later value → goal events later value) :
    Meets respond other goal program world := by
  induction program generalizing world post goal with
  | done value =>
      exact fun later relied => consequence _ _ _ (meets later (rely _ _ relied))
  | call request next ih =>
      intro later relied outcome
      obtain ⟨step, rest⟩ := meets later (rely _ _ relied) outcome
      exact ⟨guarantee _ _ step, ih _ rest fun events => consequence _⟩

theorem Meets.consequence {goal : List (Event Reply Outcome) → World → α → Prop}
    {program : Program Reply α} {world : World}
    (meets : Meets respond contract post program world)
    (consequence : ∀ events later value, post events later value → goal events later value) :
    Meets respond contract goal program world :=
  meets.weaken (fun _ _ relied => relied) (fun _ _ step => step) consequence

theorem Meets.bind {goal : List (Event Reply Outcome) → World → β → Prop}
    {program : Program Reply α} {rest : α → Program Reply β} {world : World}
    (meets : Meets respond contract
      (fun events later value =>
        Meets respond contract (fun more => goal (events ++ more)) (rest value) later)
      program world) :
    Meets respond contract goal (program >>= rest) world := by
  induction program generalizing world goal with
  | done value => exact meets world (contract.rely_refl world)
  | call request next ih =>
      intro later relied outcome
      obtain ⟨step, following⟩ := meets later relied outcome
      exact ⟨step, ih _ following⟩

theorem Meets.map {change : α → β} {program : Program Reply α} {world : World}
    (meets : Meets respond contract post program world) :
    Meets respond contract
      (fun events later changed => ∃ value, changed = change value ∧ post events later value)
      (change <$> program) world := by
  induction program generalizing world post with
  | done value => exact fun later relied => ⟨value, rfl, meets later relied⟩
  | call request next ih =>
      intro later relied outcome
      obtain ⟨step, following⟩ := meets later relied outcome
      exact ⟨step, ih _ following⟩

theorem Confined.meets {allowed : Call → Prop} {holds : α → Prop} {program : Program Reply α}
    (confined : Confined allowed holds program)
    (keeps : ∀ request, allowed request → ∀ world outcome,
      contract.guarantee world (respond world request outcome).2) (world : World) :
    Meets respond contract (fun _ _ => holds) program world := by
  induction program generalizing world with
  | done value => exact fun _ _ => confined
  | call request next ih =>
      intro later _ outcome
      exact ⟨keeps request confined.1 later outcome, ih _ (confined.2 _) _⟩

/-- Calls that leave the world as it is, by a program that is alone in it. -/
theorem Confined.meets_unchanged {guarantee : World → World → Prop} {allowed : Call → Prop}
    {holds : α → Prop} {program : Program Reply α} (confined : Confined allowed holds program)
    (idle : ∀ world, guarantee world world)
    (unchanged : ∀ request, allowed request → ∀ world outcome,
      (respond world request outcome).2 = world) (world : World) :
    Meets respond (Contract.alone guarantee) (fun _ later value => later = world ∧ holds value)
      program world := by
  induction program with
  | done value => exact fun later relied => ⟨relied.symm, confined⟩
  | call request next ih =>
      intro later relied outcome
      cases relied
      rw [unchanged request confined.1 world outcome]
      exact ⟨idle world, ih _ (confined.2 _)⟩

theorem Meets.and {other : List (Event Reply Outcome) → World → α → Prop}
    {program : Program Reply α} {world : World}
    (first : Meets respond contract post program world)
    (second : Meets respond contract other program world) :
    Meets respond contract (fun events later value => post events later value ∧
      other events later value) program world := by
  induction program generalizing world post other with
  | done value => exact fun later relied => ⟨first later relied, second later relied⟩
  | call request next ih =>
      intro later relied outcome
      obtain ⟨step, rest⟩ := first later relied outcome
      exact ⟨step, ih _ rest (second later relied outcome).2⟩

/-- The steps of the program and of the others, from the start to the end. -/
theorem Meets.reach {program : Program Reply α} {world : World}
    (meets : Meets respond contract post program world) :
    Meets respond contract
      (fun events later value => post events later value ∧
        Relation.ReflTransGen
          (fun before after => contract.rely before after ∨ contract.guarantee before after)
          world later)
      program world := by
  induction program generalizing world post with
  | done value => exact fun later relied => ⟨meets later relied, .single (.inl relied)⟩
  | call request next ih =>
      intro later relied outcome
      obtain ⟨step, rest⟩ := meets later relied outcome
      refine ⟨step, (ih _ rest).consequence fun events final value reached => ⟨reached.1, ?_⟩⟩
      exact .head (.inl relied) (.head (.inr step) reached.2)

/-- The frame rule: what the others keep, and every step of the program, is there at the
end. -/
theorem Meets.keeping {holds : World → Prop} {program : Program Reply α} {world : World}
    (meets : Meets respond (contract.guaranteeing fun before after =>
      contract.guarantee before after ∧ (holds before → holds after)) post program world)
    (start : holds world)
    (kept : ∀ before after, contract.rely before after → holds before → holds after) :
    Meets respond contract (fun events later value => post events later value ∧ holds later)
      program world := by
  refine meets.reach.weaken (fun _ _ relied => relied) (fun _ _ step => step.1) ?_
  rintro events later value ⟨meets, reached⟩
  refine ⟨meets, ?_⟩
  clear meets
  induction reached with
  | refl => exact start
  | tail _ step ih =>
      rcases step with relied | ⟨_, keeps⟩
      · exact kept _ _ relied ih
      · exact keeps ih

/-- A run that nobody disturbs: its value meets the postcondition, and even where it dies
the world was reached by guaranteed steps. -/
theorem Meets.of_run {program : Program Reply α} {world : World}
    (meets : Meets respond contract post program world) (outcomes : List Outcome) :
    (∀ value, (run respond program world outcomes).1 = some value →
      post (run respond program world outcomes).2.2 (run respond program world outcomes).2.1
        value) ∧
    Relation.ReflTransGen contract.guarantee world (run respond program world outcomes).2.1 := by
  induction program generalizing world outcomes post with
  | done value =>
      refine ⟨?_, .refl⟩
      rintro _ ⟨⟩
      exact meets world (contract.rely_refl world)
  | call request next ih =>
      cases outcomes with
      | nil => exact ⟨by rintro _ ⟨⟩, .refl⟩
      | cons outcome outcomes =>
          obtain ⟨step, rest⟩ := meets world (contract.rely_refl world) outcome
          obtain ⟨value, reached⟩ := ih _ rest outcomes
          exact ⟨value, .head step reached⟩

/-! ### Programs that may fail -/

/-- What is left to show of a value, or of the error in its place. -/
def Continues (rest : α → Prop) (stops : ε → Prop) : Except ε α → Prop
  | .ok value => rest value
  | .error stopped => stops stopped

theorem Meets.andThen {goal : List (Event Reply Outcome) → World → Except ε β → Prop}
    {program : ExceptT ε (Program Reply) α} {rest : α → ExceptT ε (Program Reply) β}
    {world : World}
    (meets : Meets respond contract
      (fun events later => Continues
        (fun value =>
          Meets respond contract (fun more => goal (events ++ more)) (rest value).run later)
        fun stopped => ∀ final, contract.rely later final → goal events final (.error stopped))
      program.run world) :
    Meets respond contract goal (program >>= rest).run world := by
  change Meets respond contract goal (program.run >>= ExceptT.bindCont rest) world
  refine Meets.bind (meets.consequence ?_)
  intro events later result holds
  cases result with
  | ok value => exact holds
  | error stopped =>
      intro final relied
      rw [List.append_nil]
      exact holds final relied

/-- One program for each item: what holds of an item's value, and is kept by the others, holds of
all of them in the end. -/
theorem Meets.mapM {holds : World → α → β → Prop} {each : α → ExceptT ε (Program Reply) β}
    (stable : ∀ before after, contract.rely before after → ∀ item value,
      holds before item value → holds after item value)
    (meets : ∀ item world, Meets respond contract
      (fun _ later result => contract.rely world later ∧
        ∀ value, result = .ok value → holds later item value) (each item).run world)
    (items : List α) (world : World) :
    Meets respond contract
      (fun _ later result => contract.rely world later ∧
        ∀ values, result = .ok values → List.Forall₂ (holds later) items values)
      (items.mapM each).run world := by
  induction items generalizing world with
  | nil =>
      intro later relied
      refine ⟨relied, ?_⟩
      intro values ok
      cases ok
      exact .nil
  | cons item rest ih =>
      rw [List.mapM_cons]
      apply Meets.andThen
      refine (meets item world).consequence ?_
      intro _ first result reported
      obtain ⟨relied, held⟩ := reported
      cases result with
      | error stopped => exact fun later relied' => ⟨contract.rely_trans relied relied', nofun⟩
      | ok value =>
          apply Meets.andThen
          refine (ih first).consequence ?_
          intro _ second result reported
          obtain ⟨relied', others⟩ := reported
          have kept := stable _ _ relied' _ _ (held value rfl)
          have reached := contract.rely_trans relied relied'
          cases result with
          | error stopped => exact fun later more => ⟨contract.rely_trans reached more, nofun⟩
          | ok values =>
              intro later more
              refine ⟨contract.rely_trans reached more, ?_⟩
              intro all ok
              cases ok
              refine .cons (stable _ _ more _ _ kept) ?_
              exact (others values rfl).imp fun _ _ => stable _ _ more _ _

end Program

/-! ## Programs that take turns -/

structure Thread {Call : Type} (Reply : Call → Type) (Outcome α : Type) where
  program : Program Reply α
  events : List (Event Reply Outcome)

structure Pool {Call : Type} (Reply : Call → Type) (Outcome World α : Type) where
  world : World
  threads : List (Thread Reply Outcome α)

namespace Pool

variable {Call World Outcome : Type} {Reply : Call → Type} {α : Type}

/-- Programs that have not made any call. -/
def start (world : World) (programs : List (Program Reply α)) :
    Pool Reply Outcome World α where
  world := world
  threads := programs.map fun program => ⟨program, []⟩

variable (respond : Nat → World → (request : Call) → Outcome → Reply request × World)

/-- The thread whose turn it is makes its next call. A thread that is done stays so. -/
def step (pool : Pool Reply Outcome World α) (turn : Nat × Outcome) :
    Pool Reply Outcome World α :=
  match pool.threads[turn.1]? with
  | some ⟨.call request next, events⟩ =>
      let answer := respond turn.1 pool.world request turn.2
      { world := answer.2
        threads := pool.threads.set turn.1
          ⟨next answer.1, events ++ [⟨request, turn.2, answer.1⟩]⟩ }
  | _ => pool

def run (pool : Pool Reply Outcome World α) (schedule : List (Nat × Outcome)) :
    Pool Reply Outcome World α :=
  schedule.foldl (step respond) pool

/-- The value of a thread that is done. -/
def result (pool : Pool Reply Outcome World α) (index : Nat) : Option α :=
  match pool.threads[index]? with
  | some ⟨.done value, _⟩ => some value
  | _ => none

/-- The calls a thread has made. -/
def events (pool : Pool Reply Outcome World α) (index : Nat) : List (Event Reply Outcome) :=
  match pool.threads[index]? with
  | some thread => thread.events
  | none => []

/-- Every thread keeps its contract from here on. -/
def Meets (contracts : Nat → Contract World)
    (posts : Nat → List (Event Reply Outcome) → World → α → Prop)
    (pool : Pool Reply Outcome World α) : Prop :=
  ∀ index thread, pool.threads[index]? = some thread →
    Program.Meets (respond index) (contracts index)
      (fun events => posts index (thread.events ++ events)) thread.program pool.world

/-- What one thread guarantees is what every other one relies on. -/
def Compatible (contracts : Nat → Contract World) : Prop :=
  ∀ actor observer, actor ≠ observer → ∀ before after,
    (contracts actor).guarantee before after → (contracts observer).rely before after

variable {respond} {contracts : Nat → Contract World}
  {posts : Nat → List (Event Reply Outcome) → World → α → Prop}

theorem step_other (pool : Pool Reply Outcome World α) {turn : Nat × Outcome} {index : Nat}
    (other : turn.1 ≠ index) :
    (Pool.step respond pool turn).threads[index]? = pool.threads[index]? := by
  unfold Pool.step
  split
  · exact List.getElem?_set_ne other
  · rfl

theorem result_run {pool : Pool Reply Outcome World α} {index : Nat} {value : α}
    (finished : pool.result index = some value) (schedule : List (Nat × Outcome)) :
    (Pool.run respond pool schedule).result index = some value := by
  induction schedule generalizing pool with
  | nil => exact finished
  | cons turn schedule ih =>
      refine ih ?_
      by_cases own : turn.1 = index
      · subst own
        unfold result at finished
        split at finished
        · rename_i found
          simp only [result, Pool.step, found]
          exact finished
        · cases finished
      · unfold result
        rw [step_other pool own]
        exact finished

/-- A step acts on the world by one guaranteed step of its thread, or not at all. -/
theorem Meets.step_guarantee {pool : Pool Reply Outcome World α}
    (meets : Meets respond contracts posts pool) (turn : Nat × Outcome) :
    (step respond pool turn).world = pool.world ∨
      (contracts turn.1).guarantee pool.world (step respond pool turn).world := by
  unfold step
  split
  · rename_i request next events found
    exact .inr (meets turn.1 _ found pool.world ((contracts turn.1).rely_refl _) turn.2).1
  · exact .inl rfl

theorem Meets.step {pool : Pool Reply Outcome World α} (compatible : Compatible contracts)
    (meets : Meets respond contracts posts pool) (turn : Nat × Outcome) :
    Meets respond contracts posts (step respond pool turn) := by
  intro index thread found
  unfold Pool.step at found ⊢
  split at found
  · rename_i request next events current
    obtain ⟨guaranteed, rest⟩ :=
      meets turn.1 _ current pool.world ((contracts turn.1).rely_refl _) turn.2
    by_cases own : index = turn.1
    · subst own
      rw [List.getElem?_set_self (List.getElem?_eq_some_iff.1 current).1] at found
      cases found
      exact rest.consequence fun more later value holds => by
        rw [List.append_assoc]
        exact holds
    · rw [List.getElem?_set_ne (Ne.symm own)] at found
      exact (meets index thread found).stable
        (compatible turn.1 index (Ne.symm own) _ _ guaranteed)
  · exact meets index thread found

theorem Meets.run {pool : Pool Reply Outcome World α} (compatible : Compatible contracts)
    (meets : Meets respond contracts posts pool) (schedule : List (Nat × Outcome)) :
    Meets respond contracts posts (run respond pool schedule) := by
  induction schedule generalizing pool with
  | nil => exact meets
  | cons turn schedule ih => exact ih (meets.step compatible turn)

/-- A thread that is done has its postcondition, in every later world too. -/
theorem Meets.of_result {pool : Pool Reply Outcome World α}
    (meets : Meets respond contracts posts pool) {index : Nat} {value : α}
    (finished : pool.result index = some value) :
    posts index (pool.events index) pool.world value := by
  unfold result at finished
  split at finished
  · rename_i done events found
    cases finished
    have holds := meets index _ found pool.world ((contracts index).rely_refl _)
    simpa [Pool.events, found] using holds
  · cases finished

/-- A thread that is done sees what the others guarantee, and nothing else. -/
theorem Meets.relied {pool : Pool Reply Outcome World α} (compatible : Compatible contracts)
    (meets : Meets respond contracts posts pool) {index : Nat} {value : α}
    (finished : pool.result index = some value) (schedule : List (Nat × Outcome)) :
    (contracts index).rely pool.world (Pool.run respond pool schedule).world := by
  induction schedule generalizing pool with
  | nil => exact (contracts index).rely_refl _
  | cons turn schedule ih =>
      have still : (Pool.step respond pool turn).result index = some value :=
        result_run finished [turn]
      refine (contracts index).rely_trans ?_ (ih (meets.step compatible turn) still)
      by_cases own : turn.1 = index
      · subst own
        have same : (Pool.step respond pool turn).world = pool.world := by
          unfold result at finished
          split at finished
          · rename_i found
            simp only [Pool.step, found]
          · cases finished
        rw [same]
        exact (contracts turn.1).rely_refl _
      · rcases meets.step_guarantee turn with same | guaranteed
        · rw [same]
          exact (contracts index).rely_refl _
        · exact compatible turn.1 index own _ _ guaranteed

theorem Meets.replace {pool : Pool Reply Outcome World α}
    (meets : Meets respond contracts posts pool) (index : Nat) (contract : Contract World)
    (post : List (Event Reply Outcome) → World → α → Prop)
    (thread : ∀ thread, pool.threads[index]? = some thread →
      Program.Meets (respond index) contract (fun events => post (thread.events ++ events))
        thread.program pool.world) :
    Meets respond (Function.update contracts index contract) (Function.update posts index post)
      pool := by
  intro other found there
  by_cases same : other = index
  · subst same
    rw [Function.update_self, Function.update_self]
    exact thread found there
  · rw [Function.update_of_ne same, Function.update_of_ne same]
    exact meets other found there

theorem Compatible.replace (compatible : Compatible contracts) (index : Nat)
    (contract : Contract World)
    (gives : ∀ other, other ≠ index → ∀ before after, contract.guarantee before after →
      (contracts other).rely before after)
    (takes : ∀ other, other ≠ index → ∀ before after, (contracts other).guarantee before after →
      contract.rely before after) :
    Compatible (Function.update contracts index contract) := by
  intro actor observer distinct before after
  by_cases acts : actor = index
  · subst acts
    rw [Function.update_self, Function.update_of_ne (Ne.symm distinct)]
    exact gives observer (Ne.symm distinct) before after
  · by_cases observes : observer = index
    · subst observes
      rw [Function.update_self, Function.update_of_ne acts]
      exact takes actor acts before after
    · rw [Function.update_of_ne acts, Function.update_of_ne observes]
      exact compatible actor observer distinct before after

theorem Meets.start {world : World} {programs : List (Program Reply α)}
    (each : ∀ index program, programs[index]? = some program →
      Program.Meets (respond index) (contracts index) (posts index) program world) :
    Meets respond contracts posts (start world programs) := by
  intro index thread found
  simp only [Pool.start, List.getElem?_map, Option.map_eq_some_iff] at found
  obtain ⟨program, member, rfl⟩ := found
  exact each index program member

theorem run_idle (pool : Pool Reply Outcome World α) {schedule : List (Nat × Outcome)}
    {index : Nat} (idle : ∀ turn ∈ schedule, turn.1 ≠ index) :
    (Pool.run respond pool schedule).threads[index]? = pool.threads[index]? := by
  induction schedule generalizing pool with
  | nil => rfl
  | cons turn schedule ih =>
      rw [show Pool.run respond pool (turn :: schedule) =
        Pool.run respond (Pool.step respond pool turn) schedule from rfl]
      rw [ih _ fun later member => idle later (List.mem_cons_of_mem _ member),
        step_other pool (idle turn List.mem_cons_self)]

theorem run_append (pool : Pool Reply Outcome World α) (first second : List (Nat × Outcome)) :
    Pool.run respond pool (first ++ second) =
      Pool.run respond (Pool.run respond pool first) second :=
  List.foldl_append

/-- A thread that has not begun may be given another postcondition, from the world of now on. -/
theorem Meets.late {pool : Pool Reply Outcome World α} (compatible : Compatible contracts)
    (meets : Meets respond contracts posts pool) {index : Nat} {program : Program Reply α}
    (unstarted : pool.threads[index]? = some ⟨program, []⟩)
    {post : List (Event Reply Outcome) → World → α → Prop}
    (fresh : Program.Meets (respond index) (contracts index) post program pool.world)
    {schedule : List (Nat × Outcome)} {value : α}
    (finished : (Pool.run respond pool schedule).result index = some value) :
    post ((Pool.run respond pool schedule).events index) (Pool.run respond pool schedule).world
      value := by
  have replaced := meets.replace index (contracts index) post (by
    intro thread found
    cases unstarted.symm.trans found
    exact fresh)
  rw [Function.update_eq_self] at replaced
  have holds := (replaced.run compatible schedule).of_result finished
  rw [Function.update_self] at holds
  exact holds

end Pool

end Sealed.Foundation
