import Sealed.CliCalls
import Sealed.InitializeProperties
import Sealed.LetterProperties
import Sealed.ReadProperties

/-! What `open` removes. The letter is read from one file, shown, and then the path is looked
up once more to remove what it names by then. -/

set_option autoImplicit false

namespace Sealed

open Foundation FileSystem

abbrev CliMoment := Moment CliCall.Reply CliOutcome FileSystem

variable {caller : Nat} {primitives : Primitives}

namespace Cli

variable {α β : Type}

/-- The run of a command among other processes. -/
abbrev runAmong (caller : Nat) (command : Cli α) (turns : List (FileSystem × CliOutcome)) :
    Option (Checked Error α) × List CliMoment :=
  Program.runAmong (CliCall.respond caller) command.run turns

theorem Makes.among {allowed : CliCall → Prop} {command : Cli α} (makes : Makes allowed command)
    {turns : List (FileSystem × CliOutcome)} {result : Option (Checked Error α)}
    {trace : List CliMoment} (ran : runAmong caller command turns = (result, trace)) :
    ∀ moment ∈ trace, allowed moment.event.request := by
  have calls : ∀ moment ∈ (runAmong caller command turns).2, allowed moment.event.request :=
    (Program.Confined.among makes turns).1
  rwa [ran] at calls

theorem unchanged_of_readOnly {command : Cli α} {turns : List (FileSystem × CliOutcome)}
    {moment : CliMoment} (member : moment ∈ (runAmong caller command turns).2)
    (readOnly : moment.event.request.ReadOnly) : moment.after = moment.before := by
  have answer := Program.runAmong_answer moment member
  rw [← CliCall.respond_readOnly readOnly moment.before moment.event.outcome]
  exact congrArg Prod.snd answer

theorem runAmong_perform {request : CliCall} {turns : List (FileSystem × CliOutcome)}
    {answer : request.Answer} {trace : List CliMoment}
    (ran : runAmong caller (perform request) turns = (some (.ok answer), trace)) :
    ∃ moment happened, trace = [moment] ∧ moment.event = ⟨request, happened, .ok answer⟩ ∧
      (CliCall.respond caller moment.before request happened).1 = .ok answer := by
  cases turns with
  | nil => cases ran
  | cons turn turns =>
      obtain ⟨before, happened⟩ := turn
      cases reply : (CliCall.respond caller before request happened).1 with
      | error kind => simp [runAmong, perform, Program.perform, Program.runAmong, reply] at ran
      | ok value =>
          simp [runAmong, perform, Program.perform, Program.runAmong, reply] at ran
          obtain ⟨rfl, rfl⟩ := ran
          exact ⟨_, happened, rfl, rfl, reply⟩

theorem runAmong_perform_split {request : CliCall} {turns : List (FileSystem × CliOutcome)}
    {front back : List CliMoment} {moment : CliMoment}
    (trace : (runAmong caller (perform request) turns).2 = front ++ moment :: back) :
    front = [] ∧ moment.event.request = request := by
  cases turns with
  | nil => simp [runAmong, perform, Program.perform, Program.runAmong] at trace
  | cons turn turns =>
      obtain ⟨before, happened⟩ := turn
      cases reply : (CliCall.respond caller before request happened).1 <;>
        simp [runAmong, perform, Program.perform, Program.runAmong, reply,
          List.singleton_eq_append_iff] at trace <;>
        exact ⟨trace.1, by rw [trace.2.1]⟩

theorem runAmong_mapErr {command : Cli α} {change : Error → Error}
    {turns : List (FileSystem × CliOutcome)} {value : α} {trace : List CliMoment}
    (ran : runAmong caller (mapErr command change) turns = (some (.ok value), trace)) :
    runAmong caller command turns = (some (.ok value), trace) := by
  obtain ⟨result, first, second, turns', whole, later, rfl⟩ := Program.runAmong_bind_done ran
  cases result with
  | ok middle =>
      cases later
      exact whole.trans (by rw [List.append_nil])
  | error stopped => cases stopped <;> cases later

/-! ## What was shown -/

/-- The bytes that were flushed, and those that were written since. -/
def emit : List UInt8 × List UInt8 → CliEvent → List UInt8 × List UInt8
  | (out, held), ⟨.print bytes, _, .ok _⟩ => (out, held ++ bytes)
  | (out, held), ⟨.flush, _, .ok _⟩ => (out ++ held, [])
  | state, _ => state

/-- What reached the standard output. -/
def flushed (events : List CliEvent) : List UInt8 := (events.foldl emit ([], [])).1

theorem flushed_append_files {first second : List CliEvent}
    (files : ∀ event ∈ second, ¬ event.request.Apart) :
    flushed (first ++ second) = flushed first := by
  unfold flushed
  rw [List.foldl_append]
  generalize first.foldl emit ([], []) = state
  induction second generalizing state with
  | nil => rfl
  | cons event rest ih =>
      have same : emit state event = state := by
        obtain ⟨request, happened, reply⟩ := event
        cases request with
        | file request => rfl
        | print | flush | readInput | readLine | choose =>
            exact absurd trivial (files _ List.mem_cons_self)
      rw [List.foldl_cons, same]
      exact ih (fun other member => files other (List.mem_cons_of_mem _ member)) state

theorem flushed_showLetter {wizard : Bool} {letter : OpenedLetter}
    {turns : List (FileSystem × CliOutcome)} {trace : List CliMoment}
    (ran : runAmong caller (showLetter wizard letter) turns = (some (.ok ()), trace)) :
    letter.body <+: flushed (trace.map Moment.event) := by
  obtain ⟨_, first, second, turns', printed, later, rfl⟩ := Program.runAmong_andThen_done ran
  obtain ⟨_, _, rfl, body, _⟩ := runAmong_perform printed
  change Program.runAmong _ (ite _ _ _ : Cli Unit).run _ = _ at later
  by_cases ends : wizard = true ∧ letter.body.getLast? ≠ some newline
  · rw [if_pos ends] at later
    obtain ⟨_, third, fourth, _, ended, last, rfl⟩ := Program.runAmong_andThen_done later
    obtain ⟨_, _, rfl, line, _⟩ := runAmong_perform ended
    obtain ⟨_, _, rfl, flush, _⟩ := runAmong_perform last
    simp [flushed, emit, body, line, flush]
  · rw [if_neg ends] at later
    obtain ⟨_, _, rfl, flush, _⟩ := runAmong_perform later
    simp [flushed, emit, body, flush]

/-! ## What is removed -/

theorem not_readOnly {request : CliCall} {path : Path} (same : request = .file (.removeFile path)) :
    ¬ request.ReadOnly := by
  rw [same]
  exact id

/-- What came before a removal: the letter was shown, and the path was looked at again. -/
theorem deliverLetter_split {wizard : Bool} {opening : Opening primitives} {path : Path}
    {turns : List (FileSystem × CliOutcome)} {front back : List CliMoment} {removal : CliMoment}
    (trace : (runAmong caller (deliverLetter wizard opening) turns).2 = front ++ removal :: back)
    (request : removal.event.request = .file (.removeFile path)) :
    opening.keep = false ∧ opening.blobPath = path ∧ ∃ shown looked turns' turns'',
      front = shown ++ looked ∧
      runAmong caller (showLetter wizard opening.letter) turns' = (some (.ok ()), shown) ∧
      runAmong caller (storage (Storage.ensureRegularFile path)) turns'' =
        (some (.ok ()), looked) := by
  have shows : Makes CliCall.ReadOnly (showLetter wizard opening.letter) :=
    makes_showLetter (fun _ => CliCall.Apart.readOnly) wizard opening.letter
  obtain ⟨_, shown, second, turns', _, ran, rfl, later⟩ :=
    Program.runAmong_andThen_split shows (not_readOnly request) trace
  cases kept : opening.keep with
  | true => simp [kept, Program.runAmong] at later
  | false =>
      simp only [kept] at later
      change (runAmong caller (storage (Storage.consumeBlob opening.blobPath)) turns').2 = _ at later
      unfold Storage.consumeBlob at later
      rw [storage_bind] at later
      have looks : Makes CliCall.ReadOnly
          (storage (Storage.ensureRegularFile opening.blobPath)) :=
        makes_looking (fun _ => id) (Storage.makes_ensureFileType (fun _ => id) _ _ _)
      obtain ⟨_, looked, third, turns'', _, checked, rfl, last⟩ :=
        Program.runAmong_andThen_split looks (not_readOnly request) later
      rw [storage_perform] at last
      obtain ⟨rfl, same⟩ := runAmong_perform_split last
      cases same.symm.trans request
      exact ⟨rfl, rfl, shown, looked, turns, turns', by rw [List.append_nil], ran, checked⟩

/-! ## Where the letter came from -/

/-- Another process left alone what the path names, and the bytes of the file. -/
def LeftAlone (path : Path) (file : Nat) (before after : FileSystem) : Prop :=
  after.node false path = before.node false path ∧ after.contents file = before.contents file

theorem LeftAlone.refl (path : Path) (file : Nat) (fs : FileSystem) : LeftAlone path file fs fs :=
  ⟨rfl, rfl⟩

theorem LeftAlone.trans {path : Path} {file : Nat} {first second third : FileSystem}
    (early : LeftAlone path file first second) (late : LeftAlone path file second third) :
    LeftAlone path file first third :=
  ⟨late.1.trans early.1, late.2.trans early.2⟩

/-- One process among others that leave the path and the file alone. -/
def beside (path : Path) (file : Nat) : Contract FileSystem where
  rely := LeftAlone path file
  guarantee := fun _ _ => True
  rely_refl := .refl path file
  rely_trans := .trans

/-- The file of the letter was opened, and its bytes, if nobody touched them, are the blob. -/
def Sourced (opening : Opening primitives) (trace : List CliMoment) : Prop :=
  ∃ front opened back file, trace = front ++ opened :: back ∧
    opened.event.request = .file (.openRead opening.blobPath) ∧
    opened.before.node true opening.blobPath = .ok (.file file) ∧
    (∀ moment ∈ back, ∀ path, moment.event.request ≠ .file (.openRead path)) ∧
    (Program.Relies (LeftAlone opening.blobPath file) opened.after back →
      (Program.leftBy opened.after back).contents file = opening.blob)

theorem Sourced.prepend {opening : Opening primitives} {trace : List CliMoment}
    (sourced : Sourced opening trace) (first : List CliMoment) :
    Sourced opening (first ++ trace) := by
  obtain ⟨front, opened, back, file, rfl, rest⟩ := sourced
  exact ⟨first ++ front, opened, back, file, by rw [List.append_assoc], rest⟩

/-- What a storage function guarantees holds where a command came to its value. -/
theorem among_storage {contract : Contract FileSystem} {holds : FileSystem → Checked Error α → Prop}
    {function : Storage α} {fs : FileSystem} {turns : List (FileSystem × CliOutcome)}
    {result : Checked Error α} {trace : List CliMoment}
    (meets : Storage.Meets caller contract (fun _ => holds) function fs)
    (ran : runAmong caller (storage function) turns = (some result, trace))
    (relies : Program.Relies contract.rely fs trace) :
    holds (Program.leftBy fs trace) result := by
  have within : Program.Meets (CliCall.respond caller) contract (fun _ => holds)
      (storage function).run fs :=
    Program.Meets.inject (CliCall.respond caller) CliOutcome.outcome (fun _ _ _ => rfl) meets
  have whole : Program.runAmong (CliCall.respond caller) (storage function).run turns =
    (some result, trace) := ran
  have relies' : Program.Relies contract.rely fs
      (Program.runAmong (CliCall.respond caller) (storage function).run turns).2 := by
    rwa [whole]
  have holds' := (within.among relies').2 result (congrArg Prod.fst whole)
  rwa [whole] at holds'

/-- The blob stands in the file that was opened for it. -/
theorem readOpen_contents {path : Path} {file maximum : Nat} {fs : FileSystem}
    {turns : List (FileSystem × CliOutcome)} {bytes : List UInt8} {trace : List CliMoment}
    (ran : runAmong caller (storage (do
      let declared : Nat ← Storage.perform (.fileLength file)
      Storage.check (.reject (declared > maximum) (.invalidInput "file is too large"))
      let bytes ← Storage.readToEnd file (maximum + 1) (maximum + 1) []
      Storage.check (.reject (bytes.length > maximum) (.invalidInput "file is too large"))
      return bytes)) turns = (some (.ok bytes), trace))
    (relies : Program.Relies (LeftAlone path file) fs trace) :
    (Program.leftBy fs trace).contents file = bytes := by
  have growing : Storage.GrowingAt file (beside path file) := by
    intro before after alone
    exact alone.2 ▸ List.prefix_refl _
  have sound : ∀ events later result, Storage.ReadOpen (beside path file) file maximum fs events
      later result → ∀ bytes, result = .ok bytes → later.contents file = bytes := by
    intro events later result read bytes ok
    obtain ⟨_, moment, _, after, same⟩ := read.sound bytes ok
    exact after.2.trans same
  have read := @Storage.meets_readOpen caller (beside path file) fs (fun _ => trivial) file growing
    maximum
  exact among_storage (read.consequence sound) ran relies bytes rfl

theorem sourced_acceptLetter {paths : StatePaths} {keep : Bool} {blobPath unlockPath : Path}
    {turns : List (FileSystem × CliOutcome)} {opening : Opening primitives}
    {trace : List CliMoment}
    (ran : runAmong caller (acceptLetter primitives paths keep blobPath unlockPath) turns =
      (some (.ok opening), trace)) : Sourced opening trace := by
  obtain ⟨⟨secrets, profile⟩, loads, rest₁, _, _, ran₁, rfl⟩ := Program.runAmong_andThen_done ran
  obtain ⟨contacts, lists, rest₂, _, _, ran₂, rfl⟩ := Program.runAmong_andThen_done ran₁
  obtain ⟨blob, reads, ends, _, mapped, ran₃, rfl⟩ := Program.runAmong_andThen_done ran₂
  have ended : ends = [] ∧ opening.blobPath = blobPath ∧ opening.blob = blob := by
    split at ran₃
    · cases ran₃
      exact ⟨rfl, rfl, rfl⟩
    · cases ran₃
  obtain ⟨rfl, rfl, rfl⟩ := ended
  have read := runAmong_mapErr mapped
  unfold Storage.readBlob Storage.readRegularLimited at read
  rw [storage_bind] at read
  obtain ⟨_, looks, rest₄, _, _, ran₄, rfl⟩ := Program.runAmong_andThen_done read
  rw [storage_bind, storage_perform] at ran₄
  obtain ⟨file, opens, back, _, single, ran₅, rfl⟩ := Program.runAmong_andThen_done ran₄
  obtain ⟨opened, happened, rfl, event, reply⟩ := runAmong_perform single
  have there : opened.before.node true opening.blobPath = .ok (.file file) := by
    obtain ⟨outcome, _, _⟩ := happened
    cases outcome with
    | failed => cases reply
    | carriedOut chunk => exact Storage.openReadAt_eq_ok_iff.1 reply
  have others : Makes (fun request => ∀ path, request ≠ .file (.openRead path)) (storage _) :=
    makes_storage (@Storage.makes_readOpen (fun request => ∀ path, request ≠ .openRead path) file
      (fun _ => nofun) (fun _ _ _ => nofun) maxBlobLen)
      fun request other path same => other path (CliCall.file.inj same)
  refine ⟨loads ++ lists ++ looks, opened, back, file, by simp, ?_, there, others.among ran₅,
    readOpen_contents ran₅⟩
  rw [event]

theorem Opens.sourced {paths : StatePaths} {openLetter : Cli (Opening primitives)}
    (opens : Opens primitives paths openLetter) {turns : List (FileSystem × CliOutcome)}
    {opening : Opening primitives} {trace : List CliMoment}
    (ran : runAmong caller openLetter turns = (some (.ok opening), trace)) :
    Sourced opening trace := by
  induction opens generalizing turns trace with
  | accept keep blobPath unlockPath => exact sourced_acceptLetter ran
  | asked _ _ ih =>
      obtain ⟨value, first, rest, _, _, later, rfl⟩ := Program.runAmong_andThen_done ran
      have sourced : Sourced opening rest := ih value later
      exact sourced.prepend first

/-! ## Only the letter that was shown -/

/-- From the moment when the file behind a path was opened for the last time, the others
left it and its name alone. -/
def Undisturbed (path : Path) (moments : List CliMoment) : Prop :=
  ∀ front opened back file, moments = front ++ opened :: back →
    opened.event.request = .file (.openRead path) →
    opened.before.node true path = .ok (.file file) →
    (∀ moment ∈ back, moment.event.request ≠ .file (.openRead path)) →
    Program.Relies (LeftAlone path file) opened.after back

/-- A command removes no file before the letter was opened, shown and flushed, none that is
to be kept, and, where the condition holds up to the removal, none but the one that holds
the blob of this letter. -/
def OnlyShown (condition : Path → List CliMoment → Prop) (caller : Nat)
    (openLetter : Cli (Opening primitives)) (command : Cli Unit) : Prop :=
  ∀ turns,
    (∀ moment ∈ (runAmong caller command turns).2, moment.after = moment.before ∨
      ∃ path, moment.event.request = .file (.removeFile path)) ∧
    ∀ front removal back path,
      (runAmong caller command turns).2 = front ++ removal :: back →
      removal.event.request = .file (.removeFile path) →
      ∃ opening before shown,
        runAmong caller openLetter turns = (some (.ok opening), before) ∧
        front = before ++ shown ∧ opening.blobPath = path ∧ opening.keep = false ∧
        opening.letter.body <+: flushed (shown.map Moment.event) ∧
        (condition path (front ++ [removal]) → ∃ file,
          removal.before.node false path = .ok (.file file) ∧
          removal.before.contents file = opening.blob)

theorem makes_deliverLetter {allowed : CliCall → Prop}
    (looks : ∀ request : CliCall, request.ReadOnly → allowed request) (wizard : Bool)
    (opening : Opening primitives) (removes : allowed (.file (.removeFile opening.blobPath))) :
    Makes allowed (deliverLetter wizard opening) := by
  apply makes_bind (makes_showLetter (fun request apart => looks request apart.readOnly) _ _)
  intro _
  apply makes_ite (makes_return ())
  unfold Storage.consumeBlob
  rw [storage_bind]
  apply makes_bind (makes_looking looks (Storage.makes_ensureFileType (fun _ => id) _ _ _))
  intro _
  rw [storage_perform]
  exact makes_perform removes

theorem makes_ensureRegularFile (path : Path) :
    Makes (fun request => request = .file (.lstat path))
      (storage (Storage.ensureRegularFile path)) := by
  have lstat : Storage.Makes (fun request => request = .lstat path)
      (Storage.ensureRegularFile path) := by
    refine Storage.makes_bind (Storage.makes_perform rfl) fun fileType => ?_
    exact Storage.makes_check (Checked.noPanic_reject _ _)
  exact makes_storage lstat fun _ => congrArg CliCall.file

theorem own_leftAlone {command : Cli α} (looks : Makes CliCall.ReadOnly command)
    {turns : List (FileSystem × CliOutcome)} {result : Option (Checked Error α)}
    {trace : List CliMoment} (ran : runAmong caller command turns = (result, trace)) (path : Path)
    (file : Nat) : ∀ moment ∈ trace, LeftAlone path file moment.before moment.after := by
  intro moment member
  have among : moment ∈ (runAmong caller command turns).2 := by
    rw [ran]
    exact member
  rw [unchanged_of_readOnly among (looks.among ran moment member)]
  exact .refl path file _

theorem regular_of_checked {path : Path} {file : Nat} {fs : FileSystem}
    {turns : List (FileSystem × CliOutcome)} {trace : List CliMoment}
    (ran : runAmong caller (storage (Storage.ensureRegularFile path)) turns =
      (some (.ok ()), trace))
    (relies : Program.Relies (LeftAlone path file) fs trace) :
    ∃ id, fs.node false path = .ok (.file id) := by
  have checked := @Storage.meets_ensureFileType caller (beside path file) fs (fun _ => trivial)
    .file (by decide) path "path is not a regular file"
  have regular : Storage.Meets caller (beside path file)
      (fun _ _ result => result = .ok () →
        ∃ moment, LeftAlone path file fs moment ∧ IsType .file path moment)
      (Storage.ensureRegularFile path) fs := by
    apply checked.consequence
    intro events later result holds ok
    obtain ⟨_, moment, before, _, type⟩ := holds.2.1 ok
    exact ⟨moment, before, type⟩
  obtain ⟨moment, before, type⟩ := among_storage regular ran relies rfl
  obtain ⟨id, found⟩ := type.file
  exact ⟨id, before.1.symm.trans found⟩

/-- A letter that is opened and then delivered. The induction on its run is in the rules for
runs among others: between the read and the removal every step keeps the file. -/
theorem onlyShown_deliverLetter {wizard : Bool} {paths : StatePaths}
    {openLetter : Cli (Opening primitives)} (opens : Opens primitives paths openLetter) :
    OnlyShown Undisturbed caller openLetter (openLetter >>= deliverLetter wizard) := by
  have looks : Makes CliCall.ReadOnly openLetter := opens.makes
  intro turns
  constructor
  · intro moment member
    have either : Makes (fun request => request.ReadOnly ∨ ∃ path, request = .file (.removeFile path))
        (openLetter >>= deliverLetter wizard) := by
      apply makes_bind (Program.Confined.mono looks (fun _ => .inl) fun _ _ => trivial)
      intro opening
      exact makes_deliverLetter (fun _ => .inl) wizard opening (.inr ⟨_, rfl⟩)
    rcases either.among rfl moment member with readOnly | removes
    · exact .inl (unchanged_of_readOnly member readOnly)
    · exact .inr removes
  · intro front removal back path trace request
    obtain ⟨opening, before, second, turns', _, ran, rfl, later⟩ :=
      Program.runAmong_andThen_split looks (not_readOnly request) trace
    obtain ⟨keep, rfl, shown, looked, turns₁, turns₂, rfl, printed, checked⟩ :=
      deliverLetter_split later request
    have shows : Makes CliCall.Apart (showLetter wizard opening.letter) :=
      makes_showLetter (fun _ => id) wizard opening.letter
    have away := shows.among printed
    have lookedAt : ∀ moment ∈ looked, moment.event.request = .file (.lstat opening.blobPath) :=
      (makes_ensureRegularFile opening.blobPath).among checked
    refine ⟨opening, before, shown ++ looked, ran, rfl, rfl, keep, ?_, ?_⟩
    · rw [List.map_append, flushed_append_files]
      · exact flushed_showLetter printed
      · intro event member
        obtain ⟨moment, among, rfl⟩ := List.mem_map.1 member
        rw [lookedAt moment among]
        exact id
    · intro undisturbed
      obtain ⟨front, opened, back, file, rfl, asked, there, last, contents⟩ := opens.sourced ran
      have own := own_leftAlone looks ran opening.blobPath file
      have unchanged : opened.after = opened.before := by
        have member : opened ∈ (runAmong caller openLetter turns).2 := by simp [ran]
        exact unchanged_of_readOnly member (by rw [asked]; trivial)
      have notReopened : ∀ moment ∈ back ++ (shown ++ (looked ++ [removal])),
          moment.event.request ≠ .file (.openRead opening.blobPath) := by
        intro moment member same
        simp only [List.mem_append, List.mem_singleton] at member
        rcases member with early | visible | late | rfl
        · exact last moment early _ same
        · have apart := away moment visible
          rw [same] at apart
          exact apart
        · cases (lookedAt moment late).symm.trans same
        · cases request.symm.trans same
      have relies := undisturbed front opened (back ++ (shown ++ (looked ++ [removal]))) file
        (by simp) asked there notReopened
      rw [Program.relies_append, Program.relies_append, Program.relies_append] at relies
      obtain ⟨whileRead, whileShown, whileLooked, beforeRemoval, _⟩ := relies
      have read := whileRead.keeps (.refl _ _) .trans fun moment member =>
        own moment (List.mem_append_right _ (List.mem_cons_of_mem _ member))
      have visible := whileShown.keeps (.refl _ _) .trans
        (own_leftAlone (makes_showLetter (fun _ => CliCall.Apart.readOnly) _ _) printed _ _)
      have looks := whileLooked.keeps (.refl _ _) .trans
        (own_leftAlone (makes_looking (fun _ => id)
          (Storage.makes_ensureFileType (fun _ => id) _ _ _)) checked _ _)
      have untilShown := read.trans visible
      have untilRemoval := (untilShown.trans looks).trans beforeRemoval
      -- The look before the removal found a file. Its name was left alone, so that it is the
      -- one which was opened.
      obtain ⟨id, found⟩ := regular_of_checked checked whileLooked
      rw [untilShown.1, unchanged] at found
      cases there.symm.trans (node_follow found nofun)
      refine ⟨file, untilRemoval.1.trans (by rw [unchanged, found]), ?_⟩
      calc removal.before.contents file
        _ = opened.after.contents file := untilRemoval.2
        _ = (Program.leftBy opened.after back).contents file := read.2.symm
        _ = opening.blob := contents whileRead

/-- Where nobody changes the file of the letter or its name from the read on, `open` consumes
nothing but the letter that it showed. -/
theorem open_only_shown (environment : Environment) (paths : StatePaths)
    (args : List (List UInt8)) :
    OnlyShown Undisturbed caller (commandOpenLetter environment primitives paths args)
        (commandOpen environment primitives paths args) ∧
      OnlyShown Undisturbed caller (wizardOpenLetter environment primitives paths)
        (wizardOpen environment primitives paths) := by
  constructor
  · exact onlyShown_deliverLetter (opens_commandOpenLetter environment paths args)
  · exact onlyShown_deliverLetter (opens_wizardOpenLetter environment paths)

end Cli

namespace Sample

open Cli

def letterPath : Path := ⟨true, [.name (ascii "letter")], false⟩

/-- A letter that bob sealed for alice. -/
def letterOf (body : List UInt8) : List UInt8 :=
  match Message.seal .transparent bob (bob.publicProfile .transparent)
    (alice.publicProfile .transparent) body
    (.drawn (.replicate 32 5) (.replicate 24 6) (.replicate 32 7) fun length =>
      .replicate length 8) with
  | .ok blob => blob
  | .error _ => []

/-- The identity of alice, and a letter to her. -/
def delivered : FileSystem :=
  (Program.run (FileSystem.respond 0)
    ((StatePaths.fromRoot root).initializeState .transparent unlockPath draws).run .empty
    (.replicate 40 (.carriedOut 1000))).2.1.withFile 0 letterPath (letterOf (ascii "first"))

/-- The next letter was renamed over the first one. -/
def replaced : FileSystem :=
  (delivered.remove 0 (ascii "letter")).withFile 0 letterPath (letterOf (ascii "second"))

def environment : Environment where
  sealedHome := some root
  unlockKey := some unlockPath
  projectDir := none
  home := none
  currentDir := .ok ⟨true, [], false⟩

/-- The other process acts between the look before the removal and the removal. -/
def overtaken : List (FileSystem × CliOutcome) :=
  .replicate 26 (delivered, ⟨.carriedOut 5000, [], none⟩) ++
    [(replaced, ⟨.carriedOut 5000, [], none⟩)]

end Sample

/-- A letter that nobody has read is removed. -/
theorem Cli.commandOpen_removes_unread :
    ¬ OnlyShown (fun _ _ => True) 0
      (commandOpenLetter Sample.environment .transparent (.fromRoot Sample.root)
        [Sample.letterPath.toBytes])
      (commandOpen Sample.environment .transparent (.fromRoot Sample.root)
        [Sample.letterPath.toBytes]) := by
  intro shows
  obtain ⟨_, removals⟩ := shows Sample.overtaken
  have ran : (∃ removal ∈ (runAmong 0 (commandOpen Sample.environment .transparent
        (.fromRoot Sample.root) [Sample.letterPath.toBytes]) Sample.overtaken).2,
      removal.event.request = .file (.removeFile Sample.letterPath) ∧
      removal.before.node false Sample.letterPath = .ok (.file 4) ∧
      removal.before.contents 4 = Sample.letterOf (ascii "second")) ∧
    ((runAmong 0 (commandOpenLetter Sample.environment .transparent (.fromRoot Sample.root)
        [Sample.letterPath.toBytes]) Sample.overtaken).1.bind
      fun result => result.toOption.map Opening.blob) = some (Sample.letterOf (ascii "first")) ∧
    Sample.letterOf (ascii "second") ≠ Sample.letterOf (ascii "first") := by decide +kernel
  obtain ⟨⟨removal, member, request, named, unread⟩, opened, distinct⟩ := ran
  obtain ⟨front, back, trace⟩ := List.append_of_mem member
  obtain ⟨opening, before, _, accepted, _, _, _, _, consumed⟩ :=
    removals front removal back _ trace request
  obtain ⟨file, named', read⟩ := consumed trivial
  cases named.symm.trans named'
  rw [accepted] at opened
  have first : opening.blob = Sample.letterOf (ascii "first") := Option.some.inj opened
  exact distinct (unread.symm.trans (read.trans first))

end Sealed
