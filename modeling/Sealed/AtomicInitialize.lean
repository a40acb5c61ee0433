import Sealed.InitializeProperties
import Sealed.LoneRuns

/-! When `initialize` is all or nothing. It takes its public profile back when the third file
cannot be written, and takes nothing else back, so that what stays behind depends on how far
it came. -/

set_option autoImplicit false

namespace Sealed

open Foundation FileSystem Storage

variable {primitives : Primitives} {caller : Nat} {root unlockPath : Path}

/-- What stands at a path, with the bytes of a file. -/
def Foundation.FileSystem.entry (path : Path) (fs : FileSystem) : Option (Node × List UInt8) :=
  match fs.node false path with
  | .ok (.file file) => some (.file file, fs.contents file)
  | .ok node => some (node, [])
  | .error _ => none

namespace Foundation.FileSystem

theorem entry_of_notFound {path : Path} {fs : FileSystem}
    (missing : fs.node false path = .error .notFound) : entry path fs = none := by
  simp [entry, missing]

theorem entry_of_node {path : Path} {fs : FileSystem} {node : Node}
    (found : fs.node false path = .ok node) : entry path fs ≠ none := by
  cases node <;> simp [entry, found]

/-! ## New directories are empty -/

theorem lookup_nextDirectory {fs : FileSystem} {directory : Nat} {name : Name}
    (inside : directory < fs.nextDirectory) (other : Name) :
    (fs.createDirectory directory name).lookup fs.nextDirectory other = none := by
  rw [lookup_createDirectory inside, if_neg fun same => Nat.ne_of_gt inside same.1, lookup,
    fs.unusedDirectories _ (Nat.le_refl _)]
  rfl

/-- In a directory that was made just now there is nothing. -/
theorem vacant_join_createDirectory {path : Path} {fs : FileSystem} {directory : Nat}
    {name : Name} (located : fs.locate false path.unslashed = .ok (.slot directory name))
    (free : fs.lookup directory name = none) (other : Name) :
    Vacant (path.join other) (fs.createDirectory directory name) := by
  have found := node_follow (node_createDirectory located free) (by simp)
  exact ⟨_, other, locate_join found (by simp), lookup_nextDirectory (slot_lt located) other⟩

/-- A file two directories deep stays missing while the directories are made. -/
theorem node_join_join_of_withDirectory {path : Path} {fs : FileSystem} {inner name : Name}
    (missing : fs.node false ((path.join inner).join name) = .error .notFound) :
    (fs.withDirectory path).node false ((path.join inner).join name) = .error .notFound := by
  rcases fs.withDirectory_cases path with ⟨_, _, located, free, made⟩ | ⟨_, same⟩
  · rw [made]
    have vacant : Vacant (path.join inner).unslashed _ :=
      vacant_join_createDirectory located free inner
    exact node_join_vacant vacant name
  · rwa [same]

theorem node_join_of_withDirectory {path : Path} {fs : FileSystem} {name : Name}
    (missing : fs.node false (path.join name) = .error .notFound) :
    (fs.withDirectory path).node false (path.join name) = .error .notFound := by
  rcases fs.withDirectory_cases path with ⟨_, _, located, free, made⟩ | ⟨_, same⟩
  · rw [made]
    exact node_of_vacant (vacant_join_createDirectory located free name)
  · rwa [same]

/-- A directory next to another one leaves that one's names alone. -/
theorem node_join_of_sibling {path other : Path} (sibling : Name) {name : Name} {fs : FileSystem}
    (parent : IsType .directory path fs) (there : IsType .directory other fs)
    (missing : fs.node false (other.join name) = .error .notFound) (distinct : name ≠ sibling) :
    (fs.withDirectory (path.join sibling)).node false (other.join name) = .error .notFound := by
  rcases fs.withDirectory_cases (path.join sibling) with
    ⟨directory, entry, located, free, made⟩ | ⟨_, same⟩
  · have inside := slot_lt located
    obtain ⟨id, found⟩ := there.directory
    obtain ⟨above, found'⟩ := parent.directory
    have place : fs.locate false (other.join name) = .ok (.slot id name) :=
      locate_join (node_follow found (by simp)) (by simp)
    have place' : fs.locate false (path.join sibling) = .ok (.slot above sibling) :=
      locate_join (node_follow found' (by simp)) (by simp)
    cases located.symm.trans place'
    have vacant : fs.lookup id name = none := by
      cases free' : fs.lookup id name with
      | none => rfl
      | some node =>
          rw [node_eq_ok_iff.2 ⟨_, place, free'⟩] at missing
          cases missing
    rw [made]
    refine node_of_vacant ⟨id, name, (extends_createDirectory inside free).locate place, ?_⟩
    rw [lookup_createDirectory inside, if_neg fun same => distinct same.2]
    exact vacant
  · rwa [same]

end Foundation.FileSystem

/-- While the state directories are made, the identity files stay missing. -/
theorem Storage.Reached.missing {fs later : FileSystem} {name : Name}
    (reached : Reached (stateDirectories root) fs later)
    (missing : fs.node false ((root.join (ascii "identity")).join name) = .error .notFound)
    (distinct : name ≠ ascii "contacts") :
    later.node false ((root.join (ascii "identity")).join name) = .error .notFound := by
  obtain ⟨finished, last, builds, early, short, rfl⟩ := reached
  have first := node_join_join_of_withDirectory missing
  have second := node_join_of_withDirectory first
  cases finished with
  | nil =>
      cases last with
      | nil => exact missing
      | cons path rest =>
          obtain ⟨rfl, _⟩ := List.cons_prefix_cons.1 early
          obtain rfl := List.length_eq_zero_iff.1 (Nat.le_zero.1 (Nat.le_of_succ_le_succ short))
          exact first
  | cons path finished =>
      obtain ⟨rfl, second'⟩ := List.cons_prefix_cons.1 early
      cases finished with
      | nil =>
          cases last with
          | nil => exact first
          | cons path rest =>
              obtain ⟨rfl, _⟩ := List.cons_prefix_cons.1 second'
              obtain rfl := List.length_eq_zero_iff.1 (Nat.le_zero.1 (Nat.le_of_succ_le_succ short))
              exact second
      | cons path finished =>
          obtain ⟨rfl, third'⟩ := List.cons_prefix_cons.1 second'
          obtain ⟨parent, there, _⟩ := builds
          have third := node_join_of_sibling (ascii "contacts")
            (parent.extends (extends_withDirectory _)) there second distinct
          change (withDirectories (finished ++ last) _).node _ _ = _
          rcases List.prefix_cons_iff.1 third' with none | ⟨rest, all, ended⟩
          · rw [show finished ++ last = [] from none]
            exact second
          · rw [show finished ++ last = _ :: rest from all, List.prefix_nil.1 ended]
            exact third

/-! ## All or nothing -/

/-- Nothing stands at the unlock path, and something would with these directories. -/
def Overbuilt (unlockPath : Path) (fs : FileSystem) (made : List Path) : Prop :=
  fs.node false unlockPath = .error .notFound ∧
    ∃ node, (fs.withDirectories made).node false unlockPath = .ok node

/-- A failed call leaves its three paths as they were, and where a first call would have
succeeded a retry succeeds. A call that succeeded stored its three files. -/
structure AllOrNothing (primitives : Primitives) (root unlockPath : Path)
    (draws : InitializeDraws) (before after : FileSystem)
    (result : Checked Error PublicProfile) : Prop where
  unchanged : ∀ stopped, result = .error stopped →
    entry (StatePaths.fromRoot root).identityPublic after =
      entry (StatePaths.fromRoot root).identityPublic before ∧
    entry (StatePaths.fromRoot root).identityEncrypted after =
      entry (StatePaths.fromRoot root).identityEncrypted before ∧
    entry unlockPath after = entry unlockPath before
  retry : ∀ stopped, result = .error stopped → ∀ (caller : Nat) (again : InitializeDraws),
    (∃ outcomes profile, (∀ outcome ∈ outcomes, outcome ≠ .failed) ∧
      (runAlone caller ((StatePaths.fromRoot root).initializeState primitives unlockPath again)
        before outcomes).1 = some (.ok profile)) →
    Settles caller ((StatePaths.fromRoot root).initializeState primitives unlockPath again) after
      fun retried => ∃ profile, retried = .ok profile
  stored : ∀ profile, result = .ok profile → ∃ unlockKey secrets encrypted,
    Drawn primitives draws unlockKey secrets encrypted ∧
      profile = secrets.publicProfile primitives ∧
      Contains unlockPath (encodeUnlockKey unlockKey) after ∧
      Contains (StatePaths.fromRoot root).identityPublic profile.encode after ∧
      Contains (StatePaths.fromRoot root).identityEncrypted encrypted after

/-- The directories alone do not stand in the way of a retry. -/
theorem Storage.Attainable.resume {draws : InitializeDraws} {fs later : FileSystem}
    (attainable : Attainable primitives caller root unlockPath draws fs)
    (reached : Reached (stateDirectories root) fs later) :
    Attainable primitives caller root unlockPath draws later := by
  have start := attainable.admissible
  have identityPublic := reached.missing start.identityPublic (by decide)
  have identityEncrypted := reached.missing start.identityEncrypted (by decide)
  obtain ⟨_, _, _, early, _, rfl⟩ := reached
  obtain ⟨builds, same⟩ := attainable.builds.resume early
  obtain ⟨unlockKey, secrets, encrypted, drawn, fills⟩ := attainable.fills
  refine ⟨⟨start.outside, identityPublic, identityEncrypted, ?_,
    start.parent.extends (extends_withDirectories _)⟩, builds, unlockKey, secrets, encrypted,
    drawn, ?_⟩
  · have later : (fs.withDirectories (stateDirectories root)).node false unlockPath =
        .error .notFound := node_of_vacant fills.1
    exact node_notFound_of_withDirectories (same ▸ later)
  · rw [same]
    exact fills

theorem settles_initializeState {draws : InitializeDraws} {fs : FileSystem}
    (attainable : Attainable primitives caller root unlockPath draws fs) :
    Settles caller ((StatePaths.fromRoot root).initializeState primitives unlockPath draws) fs
      fun result => ∃ profile, result = .ok profile :=
  settles_of_meets (meets_initializeState (respects_lone (Step caller)) (fun _ _ step => step) root
      unlockPath draws)
    fun _ _ _ clean initialized => initialized.clean (alone_lone _) clean attainable

/-- `initialize` is all or nothing exactly where no call fails after the unlock key file was
created, and nothing came to stand at the unlock path with the state directories that it made. -/
theorem StatePaths.initializeState_allOrNothing (primitives : Primitives) (caller : Nat)
    (root unlockPath : Path) (draws : InitializeDraws) (fs : FileSystem)
    (outcomes : List Outcome) (result : Checked Error PublicProfile)
    (finished : (runAlone caller ((fromRoot root).initializeState primitives unlockPath draws) fs
      outcomes).1 = some result) :
    let run := runAlone caller ((fromRoot root).initializeState primitives unlockPath draws) fs
      outcomes
    AllOrNothing primitives root unlockPath draws fs run.2.1 result ↔
      ¬ FailedAfter (.createNew unlockPath) run.2.2 ∧
        ¬ Overbuilt unlockPath fs (madeDirectories run.2.2) := by
  intro run
  have initialized : Initialized primitives caller (lone (Step caller)) root unlockPath draws fs
      run.2.2 run.2.1 result :=
    runAlone_meets (meets_initializeState (respects_lone (Step caller)) (fun _ _ step => step) root
      unlockPath draws) finished
  have attains : ∀ retrier again, (∃ quiet profile, (∀ outcome ∈ quiet, outcome ≠ .failed) ∧
      (runAlone retrier ((fromRoot root).initializeState primitives unlockPath again) fs
        quiet).1 = some (.ok profile)) →
      Attainable primitives retrier root unlockPath again fs := by
    rintro retrier again ⟨quiet, profile, _, ok⟩
    exact (runAlone_meets (meets_initializeState (respects_lone (Step retrier))
      (fun _ _ step => step) root unlockPath again) ok).attains (alone_lone _) profile rfl
  have leaves := initialized.leaves (alone_lone _)
  have stored := initialized.stored
  clear_value run
  cases leaves with
  | complete profile whole vacant =>
      refine ⟨fun _ => ⟨whole, ?_⟩, fun _ => ⟨nofun, nofun, ?_⟩⟩
      · rintro ⟨_, node, found⟩
        cases (node_of_vacant vacant).symm.trans found
      · intro _ ok
        obtain ⟨unlockKey, secrets, encrypted, drawn, same, _, _, _, unlock, identity, secret⟩ :=
          stored _ ok
        exact ⟨unlockKey, secrets, encrypted, drawn, same, unlock.contains, identity.contains,
          secret.contains⟩
  | early stopped never same reached =>
      have whole : ¬ FailedAfter (.createNew unlockPath) run.2.2 := by
        rintro ⟨before, event, after, split, request, answered, _⟩
        exact never ⟨event, by simp [split], request, answered⟩
      refine ⟨fun atomic => ⟨whole, ?_⟩, fun condition => ⟨fun _ _ => ?_, ?_, nofun⟩⟩
      · rintro ⟨missing, node, found⟩
        have unlock := (atomic.unchanged stopped rfl).2.2
        rw [entry_of_notFound missing, same] at unlock
        exact entry_of_node found unlock
      · rcases reached with unchanged | ⟨start, reached⟩
        · rw [unchanged]
          exact ⟨rfl, rfl, rfl⟩
        · refine ⟨?_, ?_, ?_⟩
          · exact (entry_of_notFound (reached.missing start.identityPublic (by decide))).trans
              (entry_of_notFound start.identityPublic).symm
          · exact (entry_of_notFound (reached.missing start.identityEncrypted (by decide))).trans
              (entry_of_notFound start.identityEncrypted).symm
          · rw [entry_of_notFound start.unlock]
            cases found : run.2.1.node false unlockPath with
            | error kind => simp [entry, found]
            | ok node =>
                rw [same] at found
                exact absurd ⟨start.unlock, node, found⟩ condition.2
      · intro _ _ retrier again quiet
        have attainable := attains retrier again quiet
        rcases reached with unchanged | ⟨_, reached⟩
        · rw [unchanged]
          exact settles_initializeState attainable
        · exact settles_initializeState (attainable.resume reached)
  | late stopped failed admissible unlock holding =>
      refine ⟨fun atomic => ?_, fun condition => absurd failed condition.1⟩
      have unchanged := (atomic.unchanged stopped rfl).2.2
      rw [entry_of_notFound admissible.unlock] at unchanged
      exact absurd unchanged (entry_of_node holding.node)

namespace Sample

/-- The encrypted identity cannot be created, and the rollback goes through. -/
def refused : List Outcome :=
  .replicate 29 (.carriedOut 1000) ++ .failed :: .replicate 1 (.carriedOut 1000)

/-- The first directory cannot be made. -/
def hindered : List Outcome := .replicate 5 (.carriedOut 1000) ++ [.failed]

end Sample

/-- The unlock key file stays behind, and keeps the next call from beginning. -/
theorem StatePaths.initializeState_leaves_unlockKey :
    let call := (fromRoot Sample.root).initializeState .transparent Sample.unlockPath Sample.draws
    let run := runAlone 0 call .empty Sample.refused
    run.1 = some (.error (.error (.io .other))) ∧
      (∀ event ∈ run.2.2,
        event.request = .removeFile (fromRoot Sample.root).identityPublic → Answered event) ∧
      (runAlone 0 call run.2.1 (.replicate 3 (.carriedOut 1000))).1 =
        some (.error (.error (.invalidInput "unlock key destination already exists"))) ∧
      ¬ AllOrNothing .transparent Sample.root Sample.unlockPath Sample.draws .empty run.2.1
        (.error (.error (.io .other))) := by
  intro call run
  refine ⟨by decide +kernel, by decide +kernel, by decide +kernel, fun atomic => ?_⟩
  have unchanged := (atomic.unchanged _ rfl).2.2
  exact absurd unchanged (by decide +kernel)

theorem StatePaths.initializeState_allOrNothing_sample :
    AllOrNothing .transparent Sample.root Sample.unlockPath Sample.draws .empty
      (runAlone 0 ((fromRoot Sample.root).initializeState .transparent Sample.unlockPath
        Sample.draws) .empty Sample.hindered).2.1 (.error (.error (.io .other))) := by
  refine (initializeState_allOrNothing .transparent 0 Sample.root Sample.unlockPath Sample.draws
    .empty Sample.hindered (.error (.error (.io .other))) (by decide +kernel)).2 ⟨?_, ?_⟩
  · have never : ∀ event ∈ (runAlone 0 ((fromRoot Sample.root).initializeState .transparent
        Sample.unlockPath Sample.draws) .empty Sample.hindered).2.2,
        event.request ≠ .createNew Sample.unlockPath := by decide +kernel
    rintro ⟨before, event, after, split, request, _⟩
    exact never event (by simp [split]) request
  · have missing : (withMade .empty (runAlone 0 ((fromRoot Sample.root).initializeState .transparent
        Sample.unlockPath Sample.draws) .empty Sample.hindered).2.2).node false
          Sample.unlockPath = .error .notFound := by decide +kernel
    rintro ⟨_, node, found⟩
    cases missing.symm.trans found

end Sealed
