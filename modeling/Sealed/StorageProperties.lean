import Sealed.Foundation.FileSystemProperties
import Sealed.Storage

/-! What each storage function does to the file system and what its value says about it,
whatever the other programs do within the rely. -/

set_option autoImplicit false

namespace Sealed

open Foundation FileSystem

abbrev FileEvent := Foundation.Event FileCall.Reply Outcome

/-- No call of these met a failure beyond the state of the file system. -/
def Clean (events : List FileEvent) : Prop := ∀ event ∈ events, event.outcome ≠ .failed

/-- The call was carried out and succeeded. -/
def Answered (event : FileEvent) : Prop := ∃ answer, event.reply = .ok answer

instance (event : FileEvent) : Decidable (Answered event) :=
  match same : event.reply with
  | .ok answer => isTrue ⟨answer, same⟩
  | .error _ => isFalse fun ⟨_, ok⟩ => nomatch same.symm.trans ok

@[simp] theorem clean_nil : Clean [] := fun _ member => nomatch member

@[simp] theorem clean_cons {event : FileEvent} {events : List FileEvent} :
    Clean (event :: events) ↔ event.outcome ≠ .failed ∧ Clean events := by
  simp [Clean]

@[simp] theorem clean_append {first second : List FileEvent} :
    Clean (first ++ second) ↔ Clean first ∧ Clean second := by
  simp only [Clean, List.mem_append]
  constructor
  · intro all
    exact ⟨fun event member => all event (.inl member), fun event member => all event (.inr member)⟩
  · rintro ⟨early, late⟩ event (member | member)
    · exact early event member
    · exact late event member

namespace Storage

variable {caller : Nat} {contract : Contract FileSystem} {α β : Type}
  {goal : List FileEvent → FileSystem → Checked Error α → Prop} {world : FileSystem}

/-- A function of `caller` keeps its contract. -/
abbrev Meets (caller : Nat) (contract : Contract FileSystem)
    (goal : List FileEvent → FileSystem → Checked Error α → Prop) (storage : Storage α)
    (world : FileSystem) : Prop :=
  Program.Meets (FileSystem.respond caller) contract goal storage.run world

/-- The value of a call that ends its function when it fails. -/
def answered {answer : Type} (reply : Except IoErrorKind answer) : Checked Error answer :=
  reply.mapError fun kind => .error (.io kind)

theorem meets_perform (request : FileCall)
    {goal : List FileEvent → FileSystem → Checked Error request.Answer → Prop}
    (answers : ∀ later, contract.rely world later → ∀ outcome,
      contract.guarantee later (FileSystem.respond caller later request outcome).2 ∧
        ∀ final, contract.rely (FileSystem.respond caller later request outcome).2 final →
          goal [⟨request, outcome, (FileSystem.respond caller later request outcome).1⟩] final
            (answered (FileSystem.respond caller later request outcome).1)) :
    Meets caller contract goal (perform request) world := by
  intro later relied outcome
  obtain ⟨step, value⟩ := answers later relied outcome
  refine ⟨step, ?_⟩
  cases reply : (FileSystem.respond caller later request outcome).1 with
  | ok answer =>
      intro final relied
      have holds := value final relied
      rw [reply] at holds
      exact holds
  | error kind =>
      intro final relied
      have holds := value final relied
      rw [reply] at holds
      exact holds

theorem meets_attempt (request : FileCall)
    {goal : List FileEvent → FileSystem → Checked Error request.Reply → Prop}
    (answers : ∀ later, contract.rely world later → ∀ outcome,
      contract.guarantee later (FileSystem.respond caller later request outcome).2 ∧
        ∀ final, contract.rely (FileSystem.respond caller later request outcome).2 final →
          goal [⟨request, outcome, (FileSystem.respond caller later request outcome).1⟩] final
            (.ok (FileSystem.respond caller later request outcome).1)) :
    Meets caller contract goal (attempt request) world := answers

theorem meets_check {result : Result α}
    (holds : ∀ later, contract.rely world later → goal [] later result) :
    Meets caller contract goal (check result) world := holds

theorem meets_return {value : α}
    (holds : ∀ later, contract.rely world later → goal [] later (.ok value)) :
    Meets caller contract goal (return value) world := holds

theorem meets_bind {goal : List FileEvent → FileSystem → Checked Error β → Prop}
    {storage : Storage α} {rest : α → Storage β}
    (meets : Meets caller contract
      (fun events later => Program.Continues
        (fun value => Meets caller contract (fun more => goal (events ++ more)) (rest value) later)
        fun stopped => ∀ final, contract.rely later final → goal events final (.error stopped))
      storage world) :
    Meets caller contract goal (storage >>= rest) world :=
  Program.Meets.andThen meets

theorem meets_then {post : List FileEvent → FileSystem → Checked Error α → Prop}
    {goal : List FileEvent → FileSystem → Checked Error β → Prop}
    {storage : Storage α} {rest : α → Storage β} (first : Meets caller contract post storage world)
    (proceeds : ∀ events later value, post events later (.ok value) →
      Meets caller contract (fun more => goal (events ++ more)) (rest value) later)
    (stops : ∀ events later stopped, post events later (.error stopped) →
      ∀ final, contract.rely later final → goal events final (.error stopped)) :
    Meets caller contract goal (storage >>= rest) world := by
  refine meets_bind (first.consequence fun events later result holds => ?_)
  cases result with
  | ok value => exact proceeds events later value holds
  | error stopped => exact stops events later stopped holds

@[simp] theorem answered_eq_ok_iff {answer : Type} {reply : Except IoErrorKind answer}
    {value : answer} : answered reply = .ok value ↔ reply = .ok value := by
  cases reply <;> simp [answered, Except.mapError]

@[simp] theorem ok_eq_answered_iff {answer : Type} {reply : Except IoErrorKind answer}
    {value : answer} : .ok value = answered reply ↔ reply = .ok value := by
  rw [eq_comm, answered_eq_ok_iff]

theorem noPanic_answered {answer : Type} (reply : Except IoErrorKind answer) :
    Checked.NoPanic (answered reply) := by
  cases reply <;> simp [Checked.NoPanic, answered, Except.mapError]

theorem check_ok_bind (value : α) (rest : α → Storage β) :
    (check (.ok value) >>= rest) = rest value := rfl

theorem check_bind {result : Result α} {value : α} (passed : result = .ok value)
    (rest : α → Storage β) : (check result >>= rest) = rest value := by
  rw [passed, check_ok_bind]

theorem bind_return (storage : Storage Unit) : (storage >>= fun _ => return ()) = storage := by
  have same : ∀ program : Program FileCall.Reply (Checked Error Unit),
      (program >>= ExceptT.bindCont fun _ => (return () : Storage Unit)) = program := by
    intro program
    induction program with
    | done result => cases result <;> rfl
    | call request next ih => exact congrArg _ (funext ih)
  exact same storage

/-! ## Calls that only look -/

theorem meets_observe {request : FileCall} (readOnly : request.ReadOnly)
    (idle : ∀ moment, contract.guarantee moment moment)
    {goal : List FileEvent → FileSystem → Checked Error request.Answer → Prop}
    (observes : ∀ moment later outcome, contract.rely world moment → contract.rely moment later →
      goal [⟨request, outcome, (FileSystem.respond caller moment request outcome).1⟩] later
        (answered (FileSystem.respond caller moment request outcome).1)) :
    Meets caller contract goal (perform request) world := by
  refine meets_perform _ fun moment relied outcome => ?_
  rw [respond_readOnly readOnly]
  exact ⟨idle moment, fun later relied' => observes moment later outcome relied relied'⟩

/-- The function ran until a call went unanswered. -/
def RanThrough (events : List FileEvent) (result : Checked Error α) : Prop :=
  match result with
  | .ok _ => ∀ event ∈ events, Answered event
  | .error _ => ∃ front last, events = front ++ [last] ∧ (∀ event ∈ front, Answered event) ∧
      ¬ Answered last

theorem RanThrough.append {first second : List FileEvent} {value : α}
    {result : Checked Error β} (early : RanThrough first (.ok value : Checked Error α))
    (late : RanThrough second result) : RanThrough (first ++ second) result := by
  cases result with
  | ok final =>
      intro event member
      rcases List.mem_append.1 member with member | member
      · exact early event member
      · exact late event member
  | error stopped =>
      obtain ⟨front, last, rfl, answered, unanswered⟩ := late
      refine ⟨first ++ front, last, (List.append_assoc _ _ _).symm, ?_, unanswered⟩
      intro event member
      rcases List.mem_append.1 member with member | member
      · exact early event member
      · exact answered event member

/-- Every call only looked, and the others alone moved the world. -/
structure Looked (contract : Contract FileSystem) (world later : FileSystem)
    (events : List FileEvent) : Prop where
  relied : contract.rely world later
  readOnly : ∀ event ∈ events, event.request.ReadOnly

theorem Looked.append {middle later : FileSystem} {first second : List FileEvent}
    (early : Looked contract world middle first) (late : Looked contract middle later second) :
    Looked contract world later (first ++ second) := by
  refine ⟨contract.rely_trans early.relied late.relied, fun event member => ?_⟩
  rcases List.mem_append.1 member with member | member
  · exact early.readOnly event member
  · exact late.readOnly event member

theorem Looked.until {later final : FileSystem} {events : List FileEvent}
    (looked : Looked contract world later events) (relied : contract.rely later final) :
    Looked contract world final events :=
  ⟨contract.rely_trans looked.relied relied, looked.readOnly⟩

/-- One call that only looks, as a function of its own. -/
theorem meets_look (request : FileCall) (readOnly : request.ReadOnly)
    (idle : ∀ moment, contract.guarantee moment moment) :
    Meets caller contract
      (fun events later result => Looked contract world later events ∧ RanThrough events result ∧
        ∃ moment outcome, contract.rely world moment ∧ contract.rely moment later ∧
          events = [⟨request, outcome, (FileSystem.respond caller moment request outcome).1⟩] ∧
          result = answered (FileSystem.respond caller moment request outcome).1)
      (perform request) world := by
  refine meets_observe readOnly idle fun moment later outcome relied relied' => ?_
  refine ⟨⟨contract.rely_trans relied relied', ?_⟩, ?_, moment, outcome, relied, relied', rfl, rfl⟩
  · intro event member
    rw [List.mem_singleton.1 member]
    exact readOnly
  · cases reply : (FileSystem.respond caller moment request outcome).1 with
    | ok answer =>
        intro event member
        rw [List.mem_singleton.1 member]
        exact ⟨answer, rfl⟩
    | error kind =>
        refine ⟨[], _, rfl, by simp, ?_⟩
        rintro ⟨answer, ⟨⟩⟩

/-- A call that only looks, where the function inspects its failure. -/
theorem meets_glance (request : FileCall) (readOnly : request.ReadOnly)
    (idle : ∀ moment, contract.guarantee moment moment) :
    Meets caller contract
      (fun events later result => Looked contract world later events ∧
        ∃ moment outcome, contract.rely world moment ∧ contract.rely moment later ∧
          events = [⟨request, outcome, (FileSystem.respond caller moment request outcome).1⟩] ∧
          result = .ok (FileSystem.respond caller moment request outcome).1)
      (attempt request) world := by
  refine meets_attempt _ fun moment relied outcome => ?_
  rw [respond_readOnly readOnly]
  refine ⟨idle moment, fun later relied' => ⟨⟨contract.rely_trans relied relied', ?_⟩, moment,
    outcome, relied, relied', rfl, rfl⟩⟩
  intro event member
  rw [List.mem_singleton.1 member]
  exact readOnly

theorem meets_lift {post : List FileEvent → FileSystem → Checked Error α → Prop}
    {storage : Storage α} (meets : Meets caller contract post storage world) :
    Meets caller contract
      (fun events later reply => ∃ result, reply = .ok result ∧ post events later result)
      (ExceptT.lift storage.run) world :=
  Program.Meets.map meets

/-- What has passed the type check had the type at the moment of the look-up; what keeps
the type passes, unless the look-up fails. -/
theorem meets_ensureFileType (idle : ∀ moment, contract.guarantee moment moment)
    {wanted : FileType} (real : wanted ≠ .symlink) (path : Path) (message : String) :
    Meets caller contract
      (fun events later result => Looked contract world later events ∧
        (result = .ok () → RanThrough events result ∧ ∃ moment, contract.rely world moment ∧
          contract.rely moment later ∧ IsType wanted path moment) ∧
        ((∀ moment, contract.rely world moment → IsType wanted path moment) →
          RanThrough events result ∧ (Clean events → result = .ok ())) ∧
        Checked.NoPanic result)
      (ensureFileType wanted path message) world := by
  refine meets_then (meets_look (.lstat path) trivial idle) ?_ ?_
  · rintro events later fileType ⟨looked, ran, moment, outcome, before, after, rfl, reply⟩
    have carried : outcome ≠ .failed := by
      rintro rfl
      rw [respond_failed] at reply
      cases reply
    rw [ok_eq_answered_iff, respond_lstat carried] at reply
    refine meets_check fun final relied => ?_
    rw [List.append_nil]
    have looked' : Looked contract world final _ :=
      ⟨contract.rely_trans looked.relied relied, looked.readOnly⟩
    refine ⟨looked', ?_, ?_, Checked.noPanic_reject _ _⟩
    · intro passed
      rw [passed]
      rw [Checked.reject_eq_ok_iff, not_or, not_not] at passed
      obtain ⟨node, found, type⟩ : ∃ node, moment.node false path = .ok node ∧
          node.fileType = fileType := by
        cases found : moment.node false path with
        | error kind =>
            rw [found] at reply
            cases reply
        | ok node =>
            rw [found] at reply
            cases reply
            exact ⟨node, rfl, rfl⟩
      exact ⟨ran, moment, before, contract.rely_trans after relied, node, found, type.trans passed.2⟩
    · intro known
      obtain ⟨node, found, type⟩ := known moment before
      rw [found] at reply
      cases reply
      have passed : ¬ (node.fileType = .symlink ∨ node.fileType ≠ wanted) := by
        rw [type]
        simp [real]
      rw [Checked.reject_of_not passed]
      exact ⟨ran, fun _ => rfl⟩
  · rintro events later stopped ⟨looked, ran, moment, outcome, before, after, rfl, reply⟩
    refine fun final relied => ⟨looked.until relied, nofun, fun known => ⟨ran, fun clean => ?_⟩, ?_⟩
    · obtain ⟨node, found, _⟩ := known moment before
      rw [respond_lstat (clean _ List.mem_cons_self), found] at reply
      cases reply
    · rintro ⟨⟩
      exact noPanic_answered _ reply.symm

theorem meets_setPrivatePermissions (idle : ∀ moment, contract.guarantee moment moment)
    (path : Path) :
    Meets caller contract
      (fun events later result => Looked contract world later events ∧ RanThrough events result ∧
        (Clean events → (∀ moment, contract.rely world moment →
            ∃ node, moment.node false path = .ok node ∧ ∀ target, node ≠ .symlink target) →
          result = .ok ()))
      (setPrivatePermissions path) world := by
  refine meets_then (meets_look (.lstat path) trivial idle) ?_ ?_
  · rintro events later fileType ⟨looked, ran, moment, outcome, before, after, rfl, _⟩
    refine (meets_look (.setMode path) trivial idle).consequence ?_
    rintro more final result ⟨looked', ran', moment', outcome', before', after', rfl, rfl⟩
    refine ⟨looked.append looked', ran.append ran', fun clean known => ?_⟩
    obtain ⟨node, found, plain⟩ :=
      known moment' (contract.rely_trans before (contract.rely_trans after before'))
    have carried : outcome' ≠ .failed := (clean_append.1 clean).2 _ List.mem_cons_self
    rw [respond_setMode carried, node_follow found plain]
    rfl
  · rintro events later stopped ⟨looked, ran, moment, outcome, before, after, rfl, reply⟩
    refine fun final relied => ⟨⟨contract.rely_trans looked.relied relied, looked.readOnly⟩, ran,
      fun clean known => ?_⟩
    obtain ⟨node, found, _⟩ := known moment before
    rw [respond_lstat (clean _ List.mem_cons_self), found] at reply
    cases reply

theorem meets_pathExists (idle : ∀ moment, contract.guarantee moment moment) (path : Path) :
    Meets caller contract
      (fun events later result => Looked contract world later events ∧
        ∃ found, result = .ok found ∧
          (found = true → ∃ moment, contract.rely world moment ∧ contract.rely moment later ∧
            ∃ node, moment.node true path = .ok node) ∧
          (Clean events → found = false → ∃ moment, contract.rely world moment ∧
            contract.rely moment later ∧ ∀ node, moment.node true path ≠ .ok node))
      (pathExists path) world := by
  refine meets_then (meets_glance (.stat path) trivial idle) ?_ ?_
  · rintro events later reply ⟨looked, moment, outcome, before, after, rfl, ⟨⟩⟩
    cases answer : (FileSystem.respond caller moment (.stat path) outcome).1 with
    | ok fileType =>
        refine meets_return fun final relied => ?_
        rw [List.append_nil]
        refine ⟨⟨contract.rely_trans looked.relied relied, answer ▸ looked.readOnly⟩, true, rfl,
          fun _ => ⟨moment, before, contract.rely_trans after relied, ?_⟩, nofun⟩
        have carried : outcome ≠ .failed := by
          rintro rfl
          rw [respond_failed] at answer
          cases answer
        rw [respond_stat carried] at answer
        cases found : moment.node true path with
        | error kind =>
            rw [found] at answer
            cases answer
        | ok node => exact ⟨node, rfl⟩
    | error kind =>
        refine meets_return fun final relied => ?_
        rw [List.append_nil]
        refine ⟨⟨contract.rely_trans looked.relied relied, answer ▸ looked.readOnly⟩, false, rfl,
          nofun, fun clean _ => ⟨moment, before, contract.rely_trans after relied, ?_⟩⟩
        intro node found
        rw [respond_stat (clean _ List.mem_cons_self), found] at answer
        cases answer
  · rintro events later stopped ⟨_, _, _, _, _, _, ⟨⟩⟩

/-! ## Making files and directories -/

/-- The call was made, and it succeeded. -/
def Succeeded (request : FileCall) (events : List FileEvent) : Prop :=
  ∃ event ∈ events, event.request = request ∧ Answered event

@[simp] theorem succeeded_append {request : FileCall} {first second : List FileEvent} :
    Succeeded request (first ++ second) ↔ Succeeded request first ∨ Succeeded request second := by
  simp only [Succeeded, List.mem_append, or_and_right, exists_or]

theorem Looked.not_succeeded {later : FileSystem} {events : List FileEvent}
    (looked : Looked contract world later events) (request : FileCall)
    (changing : ¬ request.ReadOnly) : ¬ Succeeded request events := by
  rintro ⟨event, member, rfl, _⟩
  exact changing (looked.readOnly event member)

/-- A call that fills a free slot, or fails without an effect. -/
theorem meets_make (request : FileCall) (idle : ∀ moment, contract.guarantee moment moment)
    {path : Path} {answer : FileSystem → request.Answer}
    {change : FileSystem → Nat → Name → FileSystem}
    (cases : ∀ moment chunk,
      (∃ directory name, moment.locate false path = .ok (.slot directory name) ∧
        moment.lookup directory name = none ∧
        FileSystem.respond caller moment request (.carriedOut chunk) =
          (.ok (answer moment), change moment directory name)) ∨
      ¬ Vacant path moment ∧ ∃ kind,
        FileSystem.respond caller moment request (.carriedOut chunk) = (.error kind, moment))
    (make : ∀ moment directory name, contract.rely world moment →
      moment.locate false path = .ok (.slot directory name) →
        moment.lookup directory name = none →
          contract.guarantee moment (change moment directory name)) :
    Meets caller contract
      (fun events later result => ∃ moment outcome, contract.rely world moment ∧
        events = [⟨request, outcome, (FileSystem.respond caller moment request outcome).1⟩] ∧
        ((result = .ok (answer moment) ∧ Succeeded request events ∧ ∃ directory name,
            moment.locate false path = .ok (.slot directory name) ∧
              moment.lookup directory name = none ∧
              contract.rely (change moment directory name) later) ∨
          (∃ stopped, result = .error stopped) ∧ RanThrough events result ∧
            ¬ Succeeded request events ∧ contract.rely moment later ∧
            (Clean events → ¬ Vacant path moment)))
      (perform request) world := by
  refine meets_perform _ fun moment relied outcome => ?_
  have refused : ∀ kind, FileSystem.respond caller moment request outcome = (.error kind, moment) →
      ¬ Answered ⟨request, outcome, (FileSystem.respond caller moment request outcome).1⟩ := by
    rintro kind answer ⟨_, succeeded⟩
    rw [answer] at succeeded
    cases succeeded
  cases outcome with
  | failed =>
      have answer := respond_failed moment caller request
      have unanswered := refused _ answer
      rw [answer] at unanswered ⊢
      refine ⟨idle moment, fun later after => ⟨moment, .failed, relied, by rw [answer],
        .inr ⟨⟨_, rfl⟩, ⟨[], _, rfl, List.forall_mem_nil _, unanswered⟩, ?_, after, ?_⟩⟩⟩
      · rintro ⟨event, member, _, succeeded⟩
        rw [List.mem_singleton.1 member] at succeeded
        exact unanswered succeeded
      · intro clean
        exact absurd rfl (clean _ List.mem_cons_self)
  | carriedOut chunk =>
      rcases cases moment chunk with
        ⟨directory, name, located, free, answer⟩ | ⟨filled, kind, answer⟩
      · rw [answer]
        exact ⟨make moment directory name relied located free, fun later after => ⟨moment,
          .carriedOut chunk, relied, by rw [answer], .inl ⟨rfl,
            ⟨_, List.mem_cons_self, rfl, _, rfl⟩, directory, name, located, free, after⟩⟩⟩
      · have unanswered := refused _ answer
        rw [answer] at unanswered ⊢
        refine ⟨idle moment, fun later after => ⟨moment, .carriedOut chunk, relied, by rw [answer],
          .inr ⟨⟨_, rfl⟩, ⟨[], _, rfl, List.forall_mem_nil _, unanswered⟩, ?_, after, fun _ => filled⟩⟩⟩
        rintro ⟨event, member, _, succeeded⟩
        rw [List.mem_singleton.1 member] at succeeded
        exact unanswered succeeded

/-- What `create_private_directory` does and says. -/
structure Prepared (contract : Contract FileSystem) (path : Path) (world : FileSystem)
    (events : List FileEvent) (later : FileSystem) (result : Checked Error Unit) : Prop where
  requests : ∀ event ∈ events, event.request.ReadOnly ∨ event.request = .createDir path
  moved : (contract.rely world later ∧ ¬ Succeeded (.createDir path) events) ∨
    (Succeeded (.createDir path) events ∧ ∃ moment directory name, contract.rely world moment ∧
      moment.locate false path.unslashed = .ok (.slot directory name) ∧
      moment.lookup directory name = none ∧
      contract.rely (moment.createDirectory directory name) later)
  directory : result = .ok () → IsType .directory path later
  present : Clean events → (∀ moment, contract.rely world moment →
    IsType .directory path moment) → result = .ok ()
  missing : Clean events → (∀ moment, contract.rely world moment →
    Vacant path.unslashed moment) → result = .ok ()

theorem Prepared.looked {path : Path} {later : FileSystem} {events : List FileEvent}
    {result : Checked Error Unit} (looked : Looked contract world later events)
    (directory : result = .ok () → IsType .directory path later)
    (present : Clean events → (∀ moment, contract.rely world moment →
      IsType .directory path moment) → result = .ok ())
    (seen : ∃ moment, contract.rely world moment ∧ ∃ node, moment.node true path = .ok node) :
    Prepared contract path world events later result where
  requests := fun event member => .inl (looked.readOnly event member)
  moved := .inl ⟨looked.relied, looked.not_succeeded (.createDir path) id⟩
  directory := directory
  present := present
  missing := by
    intro _ always
    obtain ⟨moment, before, node, there⟩ := seen
    rw [node_of_vacant_unslashed (always moment before)] at there
    cases there

theorem meets_createPrivateDirectory (idle : ∀ moment, contract.guarantee moment moment)
    (extended : ∀ before after, contract.rely before after → Extends before after) {path : Path}
    (make : ∀ moment directory name, contract.rely world moment →
      moment.locate false path.unslashed = .ok (.slot directory name) →
        moment.lookup directory name = none →
          contract.guarantee moment (moment.createDirectory directory name)) :
    Meets caller contract (Prepared contract path world) (createPrivateDirectory path) world := by
  refine meets_then (meets_pathExists idle path) ?_ ?_
  · rintro first existed found ⟨looked, _, ⟨⟩, seen, unseen⟩
    cases found with
    | true =>
        obtain ⟨moment, before, _, there⟩ := seen rfl
        refine meets_then (meets_ensureFileType idle (by decide) path _) ?_ ?_
        · rintro second checked _ ⟨looked', passed, _⟩
          obtain ⟨ran, moment', before', after', type⟩ := passed rfl
          refine (meets_setPrivatePermissions idle path).consequence ?_
          rintro third later result ⟨looked'', ran', present⟩
          refine .looked (looked.append (looked'.append looked'')) (fun _ => ?_) ?_
            ⟨moment, before, there⟩
          · exact (type.extends (extended _ _ after')).extends (extended _ _ looked''.relied)
          · intro clean always
            refine present (clean_append.1 (clean_append.1 clean).2).2 fun moment relied => ?_
            exact (always moment (contract.rely_trans looked.relied
              (contract.rely_trans looked'.relied relied))).plain (by decide)
        · rintro second checked stopped ⟨looked', _, known, _⟩ later relied
          refine .looked (looked.append (looked'.until relied)) nofun ?_ ⟨moment, before, there⟩
          intro clean always
          have ok := (known fun moment relied =>
            always moment (contract.rely_trans looked.relied relied)).2 (clean_append.1 clean).2
          cases ok
    | false =>
        have absent : Clean first →
            ¬ ∀ moment, contract.rely world moment → IsType .directory path moment := by
          intro clean always
          obtain ⟨moment, before, _, nothing⟩ := unseen clean rfl
          obtain ⟨node, there, plain⟩ := (always moment before).plain (by decide)
          exact nothing node (node_follow there plain)
        refine meets_then (meets_make (.createDir path) idle
          (fun moment _ => createDirAt_cases moment path)
          fun moment directory name relied =>
            make moment directory name (contract.rely_trans looked.relied relied)) ?_ ?_
        · rintro second created _ ⟨moment, outcome, before, rfl, made | ⟨⟨_, ⟨⟩⟩, _⟩⟩
          obtain ⟨_, didMake, directory, name, located, free, after⟩ := made
          refine (meets_setPrivatePermissions idle path).consequence ?_
          rintro third final result ⟨looked', ran, present⟩
          have standing : ∀ later, contract.rely (moment.createDirectory directory name) later →
              IsType .directory path later := fun later relied =>
            IsType.extends (extended _ _ relied) ⟨_, node_createDirectory located free, rfl⟩
          have relied := contract.rely_trans after looked'.relied
          refine ⟨?_, .inr ⟨?_, moment, directory, name,
            contract.rely_trans looked.relied before, located, free, relied⟩,
            fun _ => standing final relied, ?_, ?_⟩
          · intro event member
            rcases List.mem_append.1 member with member | member
            · exact .inl (looked.readOnly event member)
            · rcases List.mem_cons.1 member with rfl | member
              · exact .inr rfl
              · exact .inl (looked'.readOnly event member)
          · exact succeeded_append.2 (.inr (succeeded_append.2 (.inl didMake)))
          · intro clean always
            exact absurd (always · ·) (absent (clean_append.1 clean).1)
          · intro clean always
            refine present (clean_append.1 (clean_append.1 clean).2).2 fun later relied => ?_
            exact (standing later (contract.rely_trans after relied)).plain (by decide)
        · rintro second middle stopped ⟨moment, outcome, before, rfl, ⟨⟨⟩, _⟩ | refused⟩ final relied
          obtain ⟨_, _, notMade, after, unmakeable⟩ := refused
          refine ⟨?_, .inl ⟨?_, ?_⟩, nofun, ?_, ?_⟩
          · intro event member
            rcases List.mem_append.1 member with member | member
            · exact .inl (looked.readOnly event member)
            · rw [List.mem_singleton.1 member]
              exact .inr rfl
          · exact contract.rely_trans looked.relied
              (contract.rely_trans before (contract.rely_trans after relied))
          · rw [succeeded_append, not_or]
            exact ⟨looked.not_succeeded (.createDir path) id, notMade⟩
          · intro clean always
            exact absurd (always · ·) (absent (clean_append.1 clean).1)
          · intro clean always
            exact absurd (always moment (contract.rely_trans looked.relied before))
              (unmakeable (clean_append.1 clean).2)
  · rintro events later stopped ⟨_, _, ⟨⟩, _⟩

end Storage

end Sealed
