import Sealed.WriteProperties

/-! What `initialize` does, phase by phase: its checks only look, then it makes directories,
and of its three files every one that it finished stays as it was written. -/

set_option autoImplicit false

namespace Sealed.Storage

open Foundation FileSystem

variable {caller : Nat} {contract : Contract FileSystem} {world : FileSystem}

/-! ## The checks -/

theorem meets_rejectExisting (idle : ∀ moment, contract.guarantee moment moment) (path : Path)
    (message : String) :
    Meets caller contract
      (fun events later result => Looked contract world later events ∧
        (result = .ok () → ∃ moment, contract.rely world moment ∧ contract.rely moment later ∧
          moment.node false path = .error .notFound) ∧
        (Clean events → (∀ moment, contract.rely world moment →
          moment.node false path = .error .notFound) → result = .ok ()))
      (rejectExisting path message) world := by
  refine meets_then (meets_glance (.lstat path) trivial idle) ?_ ?_
  · rintro events later reply ⟨looked, moment, outcome, before, after, rfl, ⟨⟩⟩
    cases outcome with
    | failed =>
        intro final relied
        rw [List.append_nil]
        exact ⟨looked.until relied, nofun, fun clean => absurd rfl (clean _ List.mem_cons_self)⟩
    | carriedOut chunk =>
        have answer : (FileSystem.respond caller moment (.lstat path) (.carriedOut chunk)).1 =
          (moment.node false path).map Node.fileType := rfl
        rw [answer] at looked ⊢
        cases found : moment.node false path with
        | ok node =>
            rw [found] at looked
            intro final relied
            rw [List.append_nil]
            refine ⟨looked.until relied, nofun, fun _ always => ?_⟩
            rw [always moment before] at found
            cases found
        | error kind =>
            rw [found] at looked
            cases kind with
            | notFound =>
                intro final relied
                rw [List.append_nil]
                exact ⟨looked.until relied, fun _ => ⟨moment, before,
                  contract.rely_trans after relied, found⟩, fun _ _ => rfl⟩
            | alreadyExists | notADirectory | isADirectory | filesystemLoop | writeZero | other =>
                intro final relied
                rw [List.append_nil]
                refine ⟨looked.until relied, nofun, fun _ always => ?_⟩
                rw [always moment before] at found
                cases found
  · rintro events later stopped ⟨_, _, _, _, _, _, ⟨⟩⟩

/-- The file system that `initialize` starts to change. -/
structure Admissible (paths : StatePaths) (unlockPath : Path) (fs : FileSystem) : Prop where
  outside : unlockPath.startsWith paths.root = false
  identityPublic : fs.node false paths.identityPublic = .error .notFound
  identityEncrypted : fs.node false paths.identityEncrypted = .error .notFound
  unlock : fs.node false unlockPath = .error .notFound
  parent : IsType .directory (parentOrHere unlockPath) fs

theorem meets_initializeChecks (idle : ∀ moment, contract.guarantee moment moment)
    (paths : StatePaths) (unlockPath : Path) :
    Meets caller contract
      (fun events later result => Looked contract world later events ∧
        (result = .ok () → Alone contract → Admissible paths unlockPath world) ∧
        (Clean events → (∀ moment, contract.rely world moment →
          Admissible paths unlockPath moment) → result = .ok ()))
      (paths.initializeChecks unlockPath) world := by
  by_cases inside : unlockPath.startsWith paths.root = true
  · unfold StatePaths.initializeChecks
    rw [Checked.reject_of inside]
    refine fun later relied => ⟨⟨relied, List.forall_mem_nil _⟩, nofun, fun _ always => ?_⟩
    have outside := (always world (contract.rely_refl world)).outside
    rw [inside] at outside
    cases outside
  · unfold StatePaths.initializeChecks
    rw [check_bind (Checked.reject_of_not inside)]
    refine meets_then (meets_rejectExisting idle paths.identityPublic _) ?_ ?_
    · rintro first after₁ _ ⟨looked₁, missing₁, _⟩
      refine meets_then (meets_rejectExisting idle paths.identityEncrypted _) ?_ ?_
      · rintro second after₂ _ ⟨looked₂, missing₂, _⟩
        refine meets_then (meets_rejectExisting idle unlockPath _) ?_ ?_
        · rintro third after₃ _ ⟨looked₃, missing₃, _⟩
          refine (meets_ensureFileType idle (by decide) (parentOrHere unlockPath) _).consequence ?_
          rintro fourth later result ⟨looked₄, parent, known, _⟩
          have looked := looked₁.append (looked₂.append (looked₃.append looked₄))
          refine ⟨looked, fun ok alone => ?_, fun clean always => ?_⟩
          · obtain ⟨moment₁, before₁, _, noPublic⟩ := missing₁ rfl
            obtain ⟨moment₂, before₂, _, noEncrypted⟩ := missing₂ rfl
            obtain ⟨moment₃, before₃, _, noUnlock⟩ := missing₃ rfl
            obtain ⟨_, moment₄, before₄, _, type⟩ := parent ok
            cases alone _ _ looked₁.relied
            cases alone _ _ looked₂.relied
            cases alone _ _ looked₃.relied
            cases alone _ _ before₁
            cases alone _ _ before₂
            cases alone _ _ before₃
            cases alone _ _ before₄
            exact ⟨by simpa using inside, noPublic, noEncrypted, noUnlock, type⟩
          · exact (known fun moment relied => (always moment
              (contract.rely_trans (looked₁.append (looked₂.append looked₃)).relied relied)).parent).2
              (clean_append.1 (clean_append.1 (clean_append.1 clean).2).2).2
        · rintro third after₃ stopped ⟨looked₃, _, known⟩ later relied
          refine ⟨(looked₁.append (looked₂.append looked₃)).until relied, nofun, ?_⟩
          intro clean always
          cases known (clean_append.1 (clean_append.1 clean).2).2 fun moment relied =>
            (always moment (contract.rely_trans (looked₁.append looked₂).relied relied)).unlock
      · rintro second after₂ stopped ⟨looked₂, _, known⟩ later relied
        refine ⟨(looked₁.append looked₂).until relied, nofun, ?_⟩
        intro clean always
        cases known (clean_append.1 clean).2 fun moment relied =>
          (always moment (contract.rely_trans looked₁.relied relied)).identityEncrypted
    · rintro first after₁ stopped ⟨looked₁, _, known⟩ later relied
      refine ⟨looked₁.until relied, nofun, ?_⟩
      intro clean always
      cases known clean fun moment relied => (always moment relied).identityPublic

/-! ## The directories -/

/-- The directory that a call made. -/
def madeDirectory : FileEvent → Option Path
  | ⟨.createDir path, _, .ok _⟩ => some path
  | _ => none

/-- The directories that a run made, in the order in which it made them. -/
def madeDirectories (events : List FileEvent) : List Path := events.filterMap madeDirectory

/-- The file system with the directories that a run made, and nothing else of the run. -/
def withMade (fs : FileSystem) (events : List FileEvent) : FileSystem :=
  fs.withDirectories (madeDirectories events)

theorem withMade_append (fs : FileSystem) (first second : List FileEvent) :
    withMade fs (first ++ second) = withMade (withMade fs first) second := by
  unfold withMade madeDirectories
  rw [List.filterMap_append]
  exact List.foldl_append

theorem withMade_cons_answered {path : Path} {event : FileEvent}
    (request : event.request = .createDir path) (answered : Answered event) (fs : FileSystem)
    (rest : List FileEvent) :
    withMade fs (event :: rest) = withMade (fs.withDirectory path) rest := by
  obtain ⟨made, outcome, reply⟩ := event
  cases request
  obtain ⟨answer, same⟩ := answered
  cases reply with
  | ok _ => rfl
  | error kind => cases same

theorem withMade_cons_other {event : FileEvent}
    (other : ∀ path, event.request = .createDir path → ¬ Answered event) (fs : FileSystem)
    (rest : List FileEvent) : withMade fs (event :: rest) = withMade fs rest := by
  obtain ⟨made, outcome, reply⟩ := event
  cases made with
  | createDir path =>
      cases reply with
      | ok answer => exact absurd ⟨answer, rfl⟩ (other path rfl)
      | error kind => rfl
  | lstat | stat | setMode | createNew | write | sync | removeFile | openRead | fileLength | read
  | readDir => rfl

theorem withMade_of_none {events : List FileEvent}
    (none : ∀ event ∈ events, ∀ path, event.request = .createDir path → ¬ Answered event)
    (fs : FileSystem) : withMade fs events = fs := by
  induction events generalizing fs with
  | nil => rfl
  | cons event rest ih =>
      rw [withMade_cons_other (none event List.mem_cons_self)]
      exact ih (fun other member => none other (List.mem_cons_of_mem _ member)) fs

/-- However often a directory is asked for, it is made once. -/
theorem withMade_of_succeeded {path : Path} {events : List FileEvent}
    (only : ∀ event ∈ events, event.request.ReadOnly ∨ event.request = .createDir path)
    (succeeded : Succeeded (.createDir path) events) (fs : FileSystem) :
    withMade fs events = fs.withDirectory path := by
  induction events generalizing fs with
  | nil =>
      obtain ⟨_, ⟨⟩, _⟩ := succeeded
  | cons event rest ih =>
      have only' := fun other member => only other (List.mem_cons_of_mem event member)
      have elsewhere : ∀ later, ¬ Succeeded (.createDir path) rest → withMade later rest = later := by
        refine fun later never => withMade_of_none (fun other member made request answered => ?_) later
        rcases only' other member with readOnly | same
        · rw [request] at readOnly
          exact readOnly
        · exact never ⟨other, member, same, answered⟩
      by_cases head : event.request = .createDir path ∧ Answered event
      · rw [withMade_cons_answered head.1 head.2]
        by_cases again : Succeeded (.createDir path) rest
        · rw [ih only' again, withDirectory_idem]
        · exact elsewhere _ again
      · have tail : Succeeded (.createDir path) rest := by
          obtain ⟨other, member, request, answered⟩ := succeeded
          rcases List.mem_cons.1 member with rfl | member
          · exact absurd ⟨request, answered⟩ head
          · exact ⟨other, member, request, answered⟩
        rw [withMade_cons_other, ih only' tail]
        intro made request answered
        rcases only event List.mem_cons_self with readOnly | same
        · rw [request] at readOnly
          exact readOnly
        · exact head ⟨same, answered⟩

section Prepared

variable {path : Path} {events : List FileEvent} {later : FileSystem}
  {result : Checked Error Unit}

theorem Prepared.extends (extended : ∀ before after, contract.rely before after →
      Extends before after)
    (prepared : Prepared contract path world events later result) : Extends world later := by
  rcases prepared.moved with ⟨relied, _⟩ | ⟨_, moment, directory, name, before, located, free, after⟩
  · exact extended _ _ relied
  · exact (extended _ _ before).trans
      ((extends_createDirectory (slot_lt located) free).trans (extended _ _ after))

theorem Prepared.withMade (alone : Alone contract)
    (prepared : Prepared contract path world events later result) :
    later = withMade world events := by
  rcases prepared.moved with ⟨relied, never⟩ | ⟨made, moment, directory, name, before, located, free,
    after⟩
  · rw [alone _ _ relied, withMade_of_none]
    intro event member other request answered
    rcases prepared.requests event member with readOnly | same
    · rw [request] at readOnly
      exact readOnly
    · exact never ⟨event, member, same, answered⟩
  · cases alone _ _ before
    rw [alone _ _ after, withMade_of_succeeded prepared.requests made]
    rcases world.withDirectory_cases path with ⟨_, _, located', _, same⟩ | ⟨filled, _⟩
    · cases located.symm.trans located'
      exact same.symm
    · exact absurd ⟨directory, name, located, free⟩ filled

theorem Prepared.moves (alone : Alone contract)
    (prepared : Prepared contract path world events later result) :
    later = world ∨ later = world.withDirectory path := by
  rw [prepared.withMade alone]
  by_cases made : Succeeded (.createDir path) events
  · exact .inr (withMade_of_succeeded prepared.requests made world)
  · left
    refine withMade_of_none (fun event member other request answered => ?_) world
    rcases prepared.requests event member with readOnly | same
    · rw [request] at readOnly
      exact readOnly
    · exact made ⟨event, member, same, answered⟩

theorem Prepared.ok (alone : Alone contract)
    (prepared : Prepared contract path world events later (.ok ())) :
    later = world.withDirectory path := by
  rcases prepared.moves alone with rfl | same
  · exact (withDirectory_of_isType (prepared.directory rfl)).symm
  · exact same

theorem Prepared.clean (alone : Alone contract)
    (prepared : Prepared contract path world events later result) (clean : Clean events)
    (there : IsType .directory path (world.withDirectory path)) : result = .ok () := by
  rcases world.withDirectory_cases path with ⟨directory, name, located, free, _⟩ | ⟨_, same⟩
  · refine prepared.missing clean fun moment relied => ?_
    rw [alone _ _ relied]
    exact ⟨directory, name, located, free⟩
  · refine prepared.present clean fun moment relied => ?_
    rw [alone _ _ relied]
    rwa [same] at there

end Prepared

/-- One directory after the other. -/
def createDirectories : List Path → Storage Unit
  | [] => return ()
  | path :: rest => do
      createPrivateDirectory path
      createDirectories rest

/-- All of the first paths lead to directories, and the one after them was tried at most. -/
def Reached (paths : List Path) (world later : FileSystem) : Prop :=
  ∃ finished last, Builds finished world ∧ finished ++ last <+: paths ∧ last.length ≤ 1 ∧
    later = world.withDirectories (finished ++ last)

/-- What making one directory after the other does and says. -/
structure Directories (contract : Contract FileSystem) (paths : List Path) (world : FileSystem)
    (events : List FileEvent) (later : FileSystem) (result : Checked Error Unit) : Prop where
  requests : ∀ event ∈ events, event.request.ReadOnly ∨ ∃ path, event.request = .createDir path
  extended : Extends world later
  directories : result = .ok () → ∀ path ∈ paths, IsType .directory path later
  made : Alone contract → later = withMade world events
  reached : Alone contract → Reached paths world later
  whole : Alone contract → result = .ok () →
    Builds paths world ∧ later = world.withDirectories paths
  clean : Alone contract → Clean events → Builds paths world → result = .ok ()

theorem meets_createDirectories (respects : Respects caller contract)
    (steps : ∀ before after, Step caller before after → contract.guarantee before after)
    (paths : List Path) :
    Meets caller contract (Directories contract paths world) (createDirectories paths) world := by
  have extended := fun before after relied => (respects before after relied).extended
  induction paths generalizing world with
  | nil =>
      intro later relied
      exact ⟨List.forall_mem_nil _, extended _ _ relied, nofun, fun alone => alone _ _ relied,
        fun alone => ⟨[], [], trivial, List.nil_prefix, Nat.zero_le _, alone _ _ relied⟩,
        fun alone _ => ⟨trivial, alone _ _ relied⟩, fun _ _ _ => rfl⟩
  | cons path rest ih =>
      refine meets_then (meets_createPrivateDirectory (fun moment => steps _ _ (.idle moment))
        extended fun moment directory name _ located free =>
          steps _ _ (.createDirectory moment directory name (slot_lt located) free)) ?_ ?_
      · rintro first middle _ prepared
        have requests : ∀ event ∈ first,
            event.request.ReadOnly ∨ ∃ path, event.request = .createDir path :=
          fun event member => (prepared.requests event member).imp_right fun same => ⟨path, same⟩
        refine ih.consequence fun second later result directories => ⟨?_, ?_, ?_, ?_, ?_, ?_, ?_⟩
        · intro event member
          rcases List.mem_append.1 member with member | member
          · exact requests event member
          · exact directories.requests event member
        · exact (prepared.extends extended).trans directories.extended
        · intro ok other member
          rcases List.mem_cons.1 member with rfl | member
          · exact (prepared.directory rfl).extends directories.extended
          · exact directories.directories ok other member
        · intro alone
          rw [withMade_append, ← prepared.withMade alone]
          exact directories.made alone
        · intro alone
          have same := prepared.ok alone
          obtain ⟨finished, last, builds, early, short, rfl⟩ := directories.reached alone
          rw [same] at builds
          refine ⟨path :: finished, last, ⟨same ▸ prepared.directory rfl, builds⟩,
            (List.prefix_cons_inj path).2 early, short, ?_⟩
          rw [same]
          rfl
        · intro alone ok
          have same := prepared.ok alone
          obtain ⟨builds, whole⟩ := directories.whole alone ok
          rw [same] at builds whole
          exact ⟨⟨same ▸ prepared.directory rfl, builds⟩, whole⟩
        · rintro alone clean ⟨there, builds⟩
          rw [← prepared.ok alone] at builds
          exact directories.clean alone (clean_append.1 clean).2 builds
      · rintro first middle stopped prepared later relied
        have moved := fun alone : Alone contract => alone _ _ relied
        refine ⟨fun event member => (prepared.requests event member).imp_right fun same =>
          ⟨path, same⟩, (prepared.extends extended).trans (extended _ _ relied), nofun, ?_, ?_,
          nofun, ?_⟩
        · intro alone
          rw [moved alone]
          exact prepared.withMade alone
        · intro alone
          rw [moved alone]
          rcases prepared.moves alone with same | same
          · exact ⟨[], [], trivial, List.nil_prefix, Nat.zero_le _, same⟩
          · exact ⟨[], [path], trivial, (List.prefix_cons_inj path).2 List.nil_prefix,
              Nat.le_refl _, same⟩
        · rintro alone clean ⟨there, _⟩
          cases prepared.clean alone clean there

/-- The directories of a state directory, in the order they are made. -/
def stateDirectories (root : Path) : List Path :=
  [root, root.join (ascii "identity"), root.join (ascii "contacts")]

theorem initializeDirectories_eq (root : Path) :
    (StatePaths.fromRoot root).initializeDirectories =
      createDirectories (stateDirectories root) := by
  have parent : (StatePaths.fromRoot root).identityPublic.parent =
      some (root.join (ascii "identity")) := Path.parent_join_join _ _ _
  unfold StatePaths.initializeDirectories
  rw [parent]
  simp only [createDirectories, stateDirectories, bind_return]
  rfl

/-! ## The files -/

/-- The call succeeded, and a later one failed. -/
def FailedAfter (request : FileCall) (events : List FileEvent) : Prop :=
  ∃ before event after, events = before ++ event :: after ∧ event.request = request ∧
    Answered event ∧ ∃ failed ∈ after, ¬ Answered failed

/-- Every path in turn is free for a file, which then gets its bytes. -/
def Fills (caller : Nat) : List (Path × List UInt8) → FileSystem → Prop
  | [], _ => True
  | (path, bytes) :: rest, fs => Vacant path fs ∧ Fills caller rest (fs.withFile caller path bytes)

/-- What the file phase of `initialize` does and says. -/
structure Filed (caller : Nat) (contract : Contract FileSystem) (paths : StatePaths)
    (unlockPath : Path) (unlockBytes profileBytes encrypted : List UInt8) (world : FileSystem)
    (events : List FileEvent) (later : FileSystem) (result : Checked Error Unit) : Prop where
  requests : ∀ event ∈ events, ∀ path, event.request ≠ .createDir path
  outcome :
    (result = .ok () ∧ (∀ event ∈ events, Answered event) ∧ ∃ unlock identity secret,
      Keeping caller unlockPath unlock unlockBytes later ∧
      Keeping caller paths.identityPublic identity profileBytes later ∧
      Keeping caller paths.identityEncrypted secret encrypted later) ∨
    ((∃ stopped, result = .error stopped) ∧ ¬ Succeeded (.createNew unlockPath) events ∧
      contract.rely world later) ∨
    ((∃ stopped, result = .error stopped) ∧ FailedAfter (.createNew unlockPath) events ∧
      ∃ unlock, Holding caller unlockPath unlock later)
  fills : Alone contract → result = .ok () →
    Fills caller [(unlockPath, unlockBytes), (paths.identityPublic, profileBytes),
      (paths.identityEncrypted, encrypted)] world
  clean : Alone contract → Clean events → IsType .directory (parentOrHere unlockPath) world →
    Fills caller [(unlockPath, unlockBytes), (paths.identityPublic, profileBytes),
      (paths.identityEncrypted, encrypted)] world → result = .ok ()

theorem Written.no_createDir {path : Path} {bytes : List UInt8} {world later : FileSystem}
    {events : List FileEvent} {result : Checked Error Unit}
    (written : Written caller contract path bytes world events later result) :
    ∀ event ∈ events, ∀ other, event.request ≠ .createDir other := by
  intro event member other request
  rcases written.requests event member with readOnly | same | ⟨_, _, same⟩
  · rw [request] at readOnly
    exact readOnly
  · rw [request] at same
    cases same
  · rw [request] at same
    cases same

/-- A file was created, and the function did not run to its end. -/
theorem FailedAfter.of_ranThrough {request : FileCall} {events : List FileEvent}
    {stopped : Abort Error} (succeeded : Succeeded request events)
    (ran : RanThrough events (.error stopped : Checked Error Unit)) :
    FailedAfter request events := by
  obtain ⟨front, last, rfl, _, unanswered⟩ := ran
  obtain ⟨event, member, same, answered⟩ := succeeded
  rcases List.mem_append.1 member with early | late
  · obtain ⟨before, after, rfl⟩ := List.append_of_mem early
    refine ⟨before, event, after ++ [last], by simp, same, answered, last, ?_, unanswered⟩
    exact List.mem_append_right _ List.mem_cons_self
  · rw [List.mem_singleton.1 late] at answered
    exact absurd answered unanswered

theorem FailedAfter.append {request : FileCall} {first second : List FileEvent}
    (succeeded : Succeeded request first) (failed : ∃ event ∈ second, ¬ Answered event) :
    FailedAfter request (first ++ second) := by
  obtain ⟨event, member, same, answered⟩ := succeeded
  obtain ⟨before, after, rfl⟩ := List.append_of_mem member
  obtain ⟨last, late, unanswered⟩ := failed
  exact ⟨before, event, after ++ second, by simp, same, answered, last,
    List.mem_append_right _ late, unanswered⟩

theorem RanThrough.failed {events : List FileEvent} {stopped : Abort Error}
    (ran : RanThrough events (.error stopped : Checked Error Unit)) :
    ∃ event ∈ events, ¬ Answered event := by
  obtain ⟨front, last, rfl, _, unanswered⟩ := ran
  exact ⟨last, List.mem_append_right _ List.mem_cons_self, unanswered⟩

/-- The rollback takes away the caller's own file, and keeps the others. -/
theorem removeFile_step {path : Path} {file : Nat} {fs : FileSystem}
    (holding : Holding caller path file fs) (outcome : Outcome) :
    Step caller fs (FileSystem.respond caller fs (.removeFile path) outcome).2 ∧
      ∀ other kept bytes, other ≠ file → Keeping caller kept other bytes fs →
        Keeping caller kept other bytes
          (FileSystem.respond caller fs (.removeFile path) outcome).2 := by
  obtain ⟨directory, name, located, found, own⟩ := holding
  cases outcome with
  | failed =>
      rw [respond_failed]
      exact ⟨.idle fs, fun _ _ _ _ keeping => keeping⟩
  | carriedOut chunk =>
      change Step caller fs (fs.removeFileAt path).2 ∧ ∀ other kept bytes, other ≠ file →
        Keeping caller kept other bytes fs →
          Keeping caller kept other bytes (fs.removeFileAt path).2
      rcases fs.removeFileAt_cases path with ⟨_, _, _, located', _, _, removed⟩ | ⟨kind, refused⟩
      · cases located.symm.trans located'
        rw [removed]
        exact ⟨.remove fs directory name file found own, fun _ _ _ distinct keeping =>
          keeping.remove found (Ne.symm distinct)⟩
      · rw [refused]
        exact ⟨.idle fs, fun _ _ _ _ keeping => keeping⟩

theorem Written.keeping (respects : Respects caller contract) {path : Path}
    {bytes : List UInt8} {world later : FileSystem} {events : List FileEvent}
    (written : Written caller contract path bytes world events later (.ok ())) :
    Succeeded (.createNew path) events ∧ ∃ file, world.creators file ≠ some caller ∧
      Keeping caller path file bytes later := by
  rcases written.moved with ⟨_, _, _, ⟨⟩⟩ | ⟨made, moment, before, _, holding, front, _, contents,
    whole⟩
  exact ⟨made, _, respects.fresh before, holding, contents.trans (whole rfl)⟩

theorem meets_initializeFiles (respects : Respects caller contract)
    (steps : ∀ before after, Step caller before after → contract.guarantee before after)
    {paths : StatePaths} {unlockPath : Path} {unlockBytes profileBytes encrypted : List UInt8}
    (publicParent : IsType .directory (parentOrHere paths.identityPublic) world)
    (encryptedParent : IsType .directory (parentOrHere paths.identityEncrypted) world) :
    Meets caller contract
      (Filed caller contract paths unlockPath unlockBytes profileBytes encrypted world)
      (paths.initializeFiles unlockPath unlockBytes profileBytes encrypted) world := by
  let parents (fs : FileSystem) : Prop := IsType .directory (parentOrHere paths.identityPublic) fs ∧
    IsType .directory (parentOrHere paths.identityEncrypted) fs
  have extended : ∀ before after, Extends before after → parents before → parents after :=
    fun _ _ same both => ⟨both.1.extends same, both.2.extends same⟩
  refine meets_then (meets_writeNew respects steps
    (show parents world from ⟨publicParent, encryptedParent⟩) (fun _ _ same => extended _ _ same.extended)
    fun _ _ _ _ => extended _ _ extends_append) ?_ ?_
  · rintro first after₁ _ ⟨written₁, parents₁, exact₁⟩
    obtain ⟨made, unlock, _, keeping₁⟩ := written₁.keeping respects
    have own : after₁.creators unlock = some caller := by
      obtain ⟨⟨_, _, _, _, created⟩, _⟩ := keeping₁
      exact created
    let second (fs : FileSystem) : Prop :=
      parents fs ∧ Keeping caller unlockPath unlock unlockBytes fs
    refine meets_then (meets_writeNew respects steps (show second after₁ from ⟨parents₁, keeping₁⟩)
      (fun _ _ same both => ⟨extended _ _ same.extended both.1, both.2.respected same⟩)
      fun moment file chunk fresh both => ⟨extended _ _ extends_append both.1,
        both.2.append fun same => fresh (same ▸ own)⟩) ?_ ?_
    · rintro events₂ after₂ _ ⟨written₂, ⟨parents₂, keeping₂⟩, exact₂⟩
      obtain ⟨_, identity, fresh, identity₂⟩ := written₂.keeping respects
      have distinct : unlock ≠ identity := fun same => fresh (same ▸ own)
      have own₂ : after₂.creators identity = some caller ∧ after₂.creators unlock = some caller := by
        obtain ⟨⟨_, _, _, _, created⟩, _⟩ := identity₂
        obtain ⟨⟨_, _, _, _, created'⟩, _⟩ := keeping₂
        exact ⟨created, created'⟩
      let third (fs : FileSystem) : Prop := Keeping caller unlockPath unlock unlockBytes fs ∧
        Keeping caller paths.identityPublic identity profileBytes fs
      have appended : ∀ moment file chunk, after₂.creators file ≠ some caller → third moment →
          third (moment.append file chunk) := fun moment file chunk fresh both =>
        ⟨both.1.append fun same => fresh (same ▸ own₂.2),
          both.2.append fun same => fresh (same ▸ own₂.1)⟩
      refine meets_then (meets_lift (meets_writeNew respects steps
        (show third after₂ from ⟨keeping₂, identity₂⟩)
        (fun _ _ same both => ⟨both.1.respected same, both.2.respected same⟩)
        appended)) ?_ ?_
      · rintro events₃ after₃ reply ⟨result, ⟨⟩, written₃, ⟨keeping₃, identity₃⟩, exact₃⟩
        cases reply with
        | ok _ =>
            obtain ⟨_, secret, _, secret₃⟩ := written₃.keeping respects
            intro later relied
            have same := respects _ _ relied
            rw [List.append_nil]
            refine ⟨?_, .inl ⟨rfl, ?_, unlock, identity, secret, keeping₃.respected same,
              identity₃.respected same, secret₃.respected same⟩, ?_, fun _ _ _ _ => rfl⟩
            · exact List.forall_mem_append.2 ⟨written₁.no_createDir,
                List.forall_mem_append.2 ⟨written₂.no_createDir, written₃.no_createDir⟩⟩
            · exact (written₁.ran (.inl made)).append (RanThrough.append
                (written₂.ran (.inl (written₂.keeping respects).1))
                (written₃.ran (.inl (written₃.keeping respects).1)))
            · intro alone _
              obtain ⟨vacant₁, rfl⟩ := exact₁ alone rfl
              obtain ⟨vacant₂, rfl⟩ := exact₂ alone rfl
              exact ⟨vacant₁, vacant₂, (exact₃ alone rfl).1, trivial⟩
        | error stopped =>
            refine meets_bind (meets_attempt (.removeFile paths.identityPublic) ?_)
            intro moment relied outcome
            have same := respects _ _ relied
            obtain ⟨step, keeps⟩ := removeFile_step (identity₃.respected same).1 outcome
            refine ⟨steps _ _ step, fun final after last relied' => ?_⟩
            have ran := written₃.ran (.inr fun moment relied => parents₂.2.extends
              (respects _ _ relied).extended)
            have kept := (keeps _ _ _ distinct (keeping₃.respected same)).respected
              (respects _ _ (contract.rely_trans after relied'))
            refine ⟨?_, .inr (.inr ⟨⟨stopped, rfl⟩, .append made ?_, unlock, kept.1⟩), fun _ => nofun,
              ?_⟩
            · refine List.forall_mem_append.2 ⟨written₁.no_createDir, List.forall_mem_append.2
                ⟨written₂.no_createDir, List.forall_mem_append.2 ⟨written₃.no_createDir, ?_⟩⟩⟩
              rintro event member other request
              rw [List.mem_singleton.1 member] at request
              cases request
            · obtain ⟨event, member, unanswered⟩ := ran.failed
              exact ⟨event, List.mem_append_right _ (List.mem_append_left _ member), unanswered⟩
            · rintro alone clean _ ⟨_, _, vacant, _⟩
              rw [← (exact₁ alone rfl).2, ← (exact₂ alone rfl).2] at vacant
              cases written₃.clean (clean_append.1 (clean_append.1 (clean_append.1 clean).2).2).1
                fun moment relied => by
                  rw [alone _ _ relied]
                  exact ⟨parents₂.2, vacant⟩
      · rintro events₃ after₃ stopped ⟨_, ⟨⟩, _⟩
    · rintro events₂ after₂ stopped ⟨written₂, ⟨parents₂, keeping₂⟩, _⟩ later relied
      have ran := written₂.ran (.inr fun moment relied => parents₁.1.extends
        (respects _ _ relied).extended)
      refine ⟨List.forall_mem_append.2 ⟨written₁.no_createDir, written₂.no_createDir⟩,
        .inr (.inr ⟨⟨stopped, rfl⟩, .append made ran.failed, unlock,
          keeping₂.1.relied respects relied⟩), fun _ => nofun, ?_⟩
      rintro alone clean _ ⟨_, vacant, _⟩
      rw [← (exact₁ alone rfl).2] at vacant
      cases written₂.clean (clean_append.1 clean).2 fun moment relied => by
        rw [alone _ _ relied]
        exact ⟨parents₁.1, vacant⟩
  · rintro first after₁ stopped ⟨written₁, _, _⟩ later relied
    refine ⟨written₁.no_createDir, .inr ?_, fun _ => nofun, ?_⟩
    · rcases written₁.moved with ⟨never, relied₁, _⟩ | ⟨made, moment, _, _, holding, _⟩
      · exact .inl ⟨⟨stopped, rfl⟩, never, contract.rely_trans relied₁ relied⟩
      · exact .inr ⟨⟨stopped, rfl⟩, .of_ranThrough made (written₁.ran (.inl made)), _,
          holding.relied respects relied⟩
    · rintro alone clean parent ⟨vacant, _⟩
      cases written₁.clean clean fun moment relied => by
        rw [alone _ _ relied]
        exact ⟨parent, vacant⟩

/-! ## The whole function -/

theorem FailedAfter.of_append {request : FileCall} {first second : List FileEvent}
    (failed : FailedAfter request (first ++ second)) (never : ¬ Succeeded request first) :
    FailedAfter request second := by
  obtain ⟨before, event, after, split, same, answered, last, member, unanswered⟩ := failed
  rcases List.append_eq_append_iff.1 split with ⟨between, rfl, rest⟩ | ⟨between, front, rest⟩
  · exact ⟨between, event, after, rest, same, answered, last, member, unanswered⟩
  · cases between with
    | nil => exact ⟨[], event, after, rest.symm, same, answered, last, member, unanswered⟩
    | cons head tail =>
        cases rest
        refine absurd ⟨event, ?_, same, answered⟩ never
        rw [front]
        exact List.mem_append_right _ List.mem_cons_self

theorem FailedAfter.prepend {request : FileCall} {second : List FileEvent}
    (failed : FailedAfter request second) (first : List FileEvent) :
    FailedAfter request (first ++ second) := by
  obtain ⟨before, event, after, rfl, rest⟩ := failed
  exact ⟨first ++ before, event, after, (List.append_assoc _ _ _).symm, rest⟩

theorem not_failedAfter {request : FileCall} {events : List FileEvent}
    (answered : ∀ event ∈ events, Answered event) : ¬ FailedAfter request events := by
  rintro ⟨before, event, after, rfl, _, _, last, member, unanswered⟩
  exact unanswered (answered last (List.mem_append_right _ (List.mem_cons_of_mem _ member)))

variable {primitives : Primitives}

/-- The draws of one call, and the secrets that it makes of them. -/
structure Drawn (primitives : Primitives) (draws : InitializeDraws) (unlockKey : Bytes 32)
    (secrets : IdentitySecrets) (encrypted : List UInt8) : Prop where
  key : draws.unlockKey = some unlockKey
  identity : draws.identitySecret = some secrets.identitySecret
  agreement : draws.agreementSecret = some secrets.agreementSecret
  ciphertext : encryptPrivateIdentity primitives secrets unlockKey draws.nonce = .ok encrypted

/-- The part of `initialize` that touches no file. -/
def drawIdentity (primitives : Primitives) (draws : InitializeDraws) :
    Result (Bytes 32 × IdentitySecrets × PublicProfile × List UInt8) := do
  let unlockKey ← randomArray draws.unlockKey
  let (secrets, profile) ←
    IdentitySecrets.generate primitives draws.identitySecret draws.agreementSecret
  let encrypted ← encryptPrivateIdentity primitives secrets unlockKey draws.nonce
  return (unlockKey, secrets, profile, encrypted)

theorem drawIdentity_eq_ok_iff {draws : InitializeDraws} {unlockKey : Bytes 32}
    {secrets : IdentitySecrets} {profile : PublicProfile} {encrypted : List UInt8} :
    drawIdentity primitives draws = .ok (unlockKey, secrets, profile, encrypted) ↔
      Drawn primitives draws unlockKey secrets encrypted ∧
        profile = secrets.publicProfile primitives := by
  simp only [drawIdentity, IdentitySecrets.generate, randomArray, Checked.bind_eq_ok,
    Checked.okOr_eq_ok_iff, Checked.pure_eq_ok, Except.ok.injEq, Prod.mk.injEq]
  constructor
  · rintro ⟨key, drawn, _, ⟨identity, drawnIdentity, agreement, drawnAgreement, rfl⟩, file, sealed,
      rfl, rfl, rfl, rfl⟩
    exact ⟨⟨drawn, drawnIdentity, drawnAgreement, sealed⟩, rfl⟩
  · rintro ⟨⟨drawn, drawnIdentity, drawnAgreement, sealed⟩, rfl⟩
    exact ⟨_, drawn, (secrets, secrets.publicProfile primitives),
      ⟨_, drawnIdentity, _, drawnAgreement, rfl⟩, _, sealed, rfl, rfl, rfl, rfl⟩

theorem initializeState_eq (paths : StatePaths) (unlockPath : Path) (draws : InitializeDraws) :
    paths.initializeState primitives unlockPath draws = (do
      paths.initializeChecks unlockPath
      paths.initializeDirectories
      let (unlockKey, _, profile, encrypted) ← check (drawIdentity primitives draws)
      paths.initializeFiles unlockPath (encodeUnlockKey unlockKey) profile.encode encrypted
      return profile) := by
  unfold StatePaths.initializeState drawIdentity
  refine congrArg _ (funext fun _ => congrArg _ (funext fun _ => ?_))
  cases randomArray draws.unlockKey with
  | error stopped => rfl
  | ok unlockKey =>
      cases IdentitySecrets.generate primitives draws.identitySecret draws.agreementSecret with
      | error stopped => rfl
      | ok identity =>
          obtain ⟨secrets, profile⟩ := identity
          change (check (encryptPrivateIdentity primitives secrets unlockKey draws.nonce) >>= _) =
            (check (encryptPrivateIdentity primitives secrets unlockKey draws.nonce >>= _) >>= _)
          cases encryptPrivateIdentity primitives secrets unlockKey draws.nonce with
          | error stopped => rfl
          | ok encrypted => rfl

theorem parentOrHere_join_join (path : Path) (first second : Name) :
    parentOrHere ((path.join first).join second) = path.join first := by
  have filled : (path.join first).isEmpty = false := by simp [Path.isEmpty, Path.join]
  unfold parentOrHere
  rw [Path.parent_join_join, Option.filter_some, filled]
  rfl

/-- The files of one call, in the order it writes them. -/
def stateFiles (root unlockPath : Path) (unlockKey : Bytes 32) (profile : PublicProfile)
    (encrypted : List UInt8) : List (Path × List UInt8) :=
  [(unlockPath, encodeUnlockKey unlockKey),
    ((StatePaths.fromRoot root).identityPublic, profile.encode),
    ((StatePaths.fromRoot root).identityEncrypted, encrypted)]

/-- The state in which a call that nothing disturbs succeeds. -/
structure Attainable (primitives : Primitives) (caller : Nat) (root unlockPath : Path)
    (draws : InitializeDraws) (fs : FileSystem) : Prop where
  admissible : Admissible (.fromRoot root) unlockPath fs
  builds : Builds (stateDirectories root) fs
  fills : ∃ unlockKey secrets encrypted, Drawn primitives draws unlockKey secrets encrypted ∧
    Fills caller (stateFiles root unlockPath unlockKey (secrets.publicProfile primitives) encrypted)
      (fs.withDirectories (stateDirectories root))

/-- What a call that is alone leaves behind. -/
inductive Leaves (caller : Nat) (root unlockPath : Path) (world : FileSystem)
    (events : List FileEvent) (later : FileSystem) : Checked Error PublicProfile → Prop where
  | complete (profile : PublicProfile) (whole : ¬ FailedAfter (.createNew unlockPath) events)
      (vacant : Vacant unlockPath (withMade world events)) :
      Leaves caller root unlockPath world events later (.ok profile)
  | early (stopped : Abort Error) (never : ¬ Succeeded (.createNew unlockPath) events)
      (same : later = withMade world events)
      (reached : later = world ∨ Admissible (.fromRoot root) unlockPath world ∧
        Reached (stateDirectories root) world later) :
      Leaves caller root unlockPath world events later (.error stopped)
  | late (stopped : Abort Error) (failed : FailedAfter (.createNew unlockPath) events)
      (admissible : Admissible (.fromRoot root) unlockPath world) (unlock : Nat)
      (holding : Holding caller unlockPath unlock later) :
      Leaves caller root unlockPath world events later (.error stopped)

/-- What `initialize` does and says. -/
structure Initialized (primitives : Primitives) (caller : Nat) (contract : Contract FileSystem)
    (root unlockPath : Path) (draws : InitializeDraws) (world : FileSystem)
    (events : List FileEvent) (later : FileSystem) (result : Checked Error PublicProfile) :
    Prop where
  stored : ∀ profile, result = .ok profile → ∃ unlockKey secrets encrypted,
    Drawn primitives draws unlockKey secrets encrypted ∧
      profile = secrets.publicProfile primitives ∧ ∃ unlock identity secret,
        Keeping caller unlockPath unlock (encodeUnlockKey unlockKey) later ∧
        Keeping caller (StatePaths.fromRoot root).identityPublic identity profile.encode later ∧
        Keeping caller (StatePaths.fromRoot root).identityEncrypted secret encrypted later
  leaves : Alone contract → Leaves caller root unlockPath world events later result
  attains : Alone contract → ∀ profile, result = .ok profile →
    Attainable primitives caller root unlockPath draws world
  clean : Alone contract → Clean events →
    Attainable primitives caller root unlockPath draws world → ∃ profile, result = .ok profile

theorem Looked.withMade {later : FileSystem} {events : List FileEvent}
    (looked : Looked contract world later events) (fs : FileSystem) : withMade fs events = fs := by
  refine withMade_of_none (fun event member path request _ => ?_) fs
  have readOnly := looked.readOnly event member
  rw [request] at readOnly
  exact readOnly

theorem Directories.not_created {paths : List Path} {later : FileSystem}
    {events : List FileEvent} {result : Checked Error Unit}
    (directories : Directories contract paths world events later result) (path : Path) :
    ¬ Succeeded (.createNew path) events := by
  rintro ⟨event, member, request, _⟩
  rcases directories.requests event member with readOnly | ⟨_, same⟩
  · rw [request] at readOnly
    exact readOnly
  · rw [request] at same
    cases same

theorem meets_initializeState (respects : Respects caller contract)
    (steps : ∀ before after, Step caller before after → contract.guarantee before after)
    (root unlockPath : Path) (draws : InitializeDraws) :
    Meets caller contract (Initialized primitives caller contract root unlockPath draws world)
      ((StatePaths.fromRoot root).initializeState primitives unlockPath draws) world := by
  have idle := fun moment => steps _ _ (.idle moment)
  rw [initializeState_eq, initializeDirectories_eq]
  refine meets_then (meets_initializeChecks idle _ unlockPath) ?_ ?_
  · rintro first middle _ ⟨looked, admissible, _⟩
    have notFirst : ¬ Succeeded (.createNew unlockPath) first := looked.not_succeeded _ id
    refine meets_then (meets_createDirectories respects steps _) ?_ ?_
    · rintro second prepared _ directories
      have never : ¬ Succeeded (.createNew unlockPath) (first ++ second) := by
        rw [succeeded_append, not_or]
        exact ⟨notFirst, directories.not_created _⟩
      have made : Alone contract → prepared = withMade world (first ++ second) := by
        intro alone
        have same := alone _ _ looked.relied
        rw [withMade_append, looked.withMade, ← same]
        exact directories.made alone
      have whole : Alone contract → Builds (stateDirectories root) world ∧
          prepared = world.withDirectories (stateDirectories root) := by
        intro alone
        rw [← alone _ _ looked.relied]
        exact directories.whole alone rfl
      have early : ∀ stopped more later, Alone contract →
          ¬ Succeeded (.createNew unlockPath) more → (∀ fs, withMade fs more = fs) →
            later = prepared → Leaves caller root unlockPath world (first ++ (second ++ more)) later
              (.error stopped) := by
        intro stopped more later alone notMore nothing same
        refine .early stopped ?_ ?_ (.inr ⟨admissible rfl alone, stateDirectories root, [],
          (whole alone).1, by simp, Nat.zero_le _, ?_⟩)
        · rw [← List.append_assoc, succeeded_append, not_or]
          exact ⟨never, notMore⟩
        · rw [← List.append_assoc, withMade_append, nothing, same]
          exact made alone
        · rw [same, List.append_nil]
          exact (whole alone).2
      cases drawn : drawIdentity primitives draws with
      | error stopped =>
          intro later relied
          refine ⟨nofun, fun alone => ?_, fun _ => nofun, ?_⟩
          · exact early stopped [] later alone (by rintro ⟨_, ⟨⟩, _⟩) (fun _ => rfl)
              (alone _ _ relied)
          · rintro alone clean ⟨_, _, unlockKey, secrets, encrypted, draw, _⟩
            rw [drawIdentity_eq_ok_iff.2 ⟨draw, rfl⟩] at drawn
            cases drawn
      | ok value =>
          obtain ⟨unlockKey, secrets, profile, encrypted⟩ := value
          obtain ⟨draw, rfl⟩ := drawIdentity_eq_ok_iff.1 drawn
          rw [check_ok_bind]
          have identity : IsType .directory (root.join (ascii "identity")) prepared :=
            directories.directories rfl _ (by simp [stateDirectories])
          refine meets_then (meets_initializeFiles respects steps
            ((parentOrHere_join_join root _ _).symm ▸ identity)
            ((parentOrHere_join_join root _ _).symm ▸ identity)) ?_ ?_
          · rintro third after _ filed later relied
            rw [List.append_nil]
            have same := respects _ _ relied
            rcases filed.outcome with
              ⟨_, answered, unlock, identity, secret, unlockKept, identityKept, secretKept⟩ |
              ⟨⟨_, ⟨⟩⟩, _⟩ | ⟨⟨_, ⟨⟩⟩, _⟩
            refine ⟨?_, fun alone => .complete _ ?_ ?_, ?_, fun _ _ _ => ⟨_, rfl⟩⟩
            · rintro _ ⟨⟩
              exact ⟨unlockKey, secrets, encrypted, draw, rfl, unlock, identity, secret,
                unlockKept.respected same, identityKept.respected same, secretKept.respected same⟩
            · intro failed
              rw [← List.append_assoc] at failed
              exact not_failedAfter answered (failed.of_append never)
            · rw [← List.append_assoc, withMade_append, ← made alone,
                withMade_of_none fun event member path request _ =>
                  filed.requests event member path request]
              exact (filed.fills alone rfl).1
            · rintro alone _ ⟨⟩
              refine ⟨admissible rfl alone, (whole alone).1, unlockKey, secrets, encrypted, draw, ?_⟩
              rw [← (whole alone).2]
              exact filed.fills alone rfl
          · rintro third after stopped filed later relied
            refine ⟨nofun, fun alone => ?_, fun _ => nofun, ?_⟩
            · rcases filed.outcome with ⟨⟨⟩, _⟩ | ⟨_, notMore, relied'⟩ | ⟨_, failed, unlock, holding⟩
              · exact early stopped third later alone notMore
                  (withMade_of_none fun event member path request _ =>
                    filed.requests event member path request)
                  (alone _ _ (contract.rely_trans relied' relied))
              · exact .late stopped ((failed.prepend second).prepend first) (admissible rfl alone)
                  unlock (holding.relied respects relied)
            · rintro alone clean ⟨start, _, _, _, _, draw', fills⟩
              cases (drawIdentity_eq_ok_iff.2 ⟨draw', rfl⟩).symm.trans drawn
              have same := (whole alone).2
              rw [← same] at fills
              cases filed.clean alone (clean_append.1 (clean_append.1 clean).2).2
                (start.parent.extends (same ▸ extends_withDirectories _)) fills
    · rintro second prepared stopped directories later relied
      refine ⟨nofun, fun alone => .early stopped ?_ ?_ (.inr ⟨admissible rfl alone, ?_⟩),
        fun _ => nofun, ?_⟩
      · rw [succeeded_append, not_or]
        exact ⟨notFirst, directories.not_created _⟩
      · have same := alone _ _ looked.relied
        rw [withMade_append, looked.withMade, ← same, alone _ _ relied]
        exact directories.made alone
      · rw [← alone _ _ looked.relied, alone _ _ relied]
        exact directories.reached alone
      · rintro alone clean ⟨_, builds, _⟩
        rw [← alone _ _ looked.relied] at builds
        cases directories.clean alone (clean_append.1 clean).2 builds
  · rintro first middle stopped ⟨looked, _, known⟩ later relied
    have looked' := looked.until relied
    refine ⟨nofun, fun alone => .early stopped (looked.not_succeeded _ id) ?_
      (.inl (alone _ _ looked'.relied)), fun _ => nofun, ?_⟩
    · rw [looked.withMade]
      exact alone _ _ looked'.relied
    · rintro alone clean ⟨start, _, _⟩
      cases known clean fun moment relied => alone _ _ relied ▸ start

end Sealed.Storage

/-! ## A call for the examples -/

namespace Sealed.Sample

open Foundation

def root : Path := ⟨true, [.name (ascii "state")], false⟩

def unlockPath : Path := ⟨true, [.name (ascii "key")], false⟩

def draws : InitializeDraws where
  unlockKey := some (.replicate 32 9)
  identitySecret := some (.replicate 32 1)
  agreementSecret := some (.replicate 32 2)
  nonce := some (.replicate 24 3)

def profile : PublicProfile := .new .transparent (.replicate 32 1) (.replicate 32 2)

end Sealed.Sample
