import Sealed.AtomicInitialize
import Sealed.Foundation.FileTree
import Sealed.LoneWrites
import Sealed.StorageCalls

/-! Where `initialize` lets the unlock key lie. Its guard compares the components of two
spellings, while the key goes where the path leads. -/

set_option autoImplicit false

namespace Sealed

open Foundation FileSystem Storage

variable {caller : Nat} {root unlockPath : Path}

/-- The path lies in or below the root, both resolved against the working directory. -/
def Foundation.FileSystem.Within (fs : FileSystem) (root path : Path) : Prop :=
  ∃ working, Leads fs working fs.working ∧ root.resolve working <+: path.resolve working

/-- In a tree such a path leads to a place whose names go on from those of the root. -/
theorem Foundation.FileSystem.Within.named {fs : FileSystem} (tree : Tree fs) {path : Path}
    (within : fs.Within root path) {follow : Bool} {place : Place}
    (located : fs.locate follow path = .ok place) :
    ∃ working names, Leads fs working fs.working ∧ root.resolve working <+: names ∧
      fs.Named names place := by
  obtain ⟨working, leads, below⟩ := within
  exact ⟨working, _, leads, below, named_of_locate tree leads located⟩

namespace Storage

variable {α : Type}

theorem makes_initializeState (primitives : Primitives) (paths : StatePaths) (unlockPath : Path)
    (draws : InitializeDraws) :
    Makes (fun _ => True) (paths.initializeState primitives unlockPath draws) := by
  have looks : ∀ request : FileCall, request.ReadOnly → True := fun _ _ => trivial
  have drawn : ∀ {n : Nat} (draw : Draw n), Checked.NoPanic (randomArray draw) :=
    fun draw => Checked.noPanic_okOr _ _
  have writes : ∀ path bytes, Makes (fun _ => True) (writeNewPrivate path bytes) :=
    fun path bytes => makes_writeNewPrivate looks trivial (fun _ _ => trivial) bytes
  have directory : ∀ path, Makes (fun _ => True) (createPrivateDirectory path) :=
    fun path => makes_createPrivateDirectory looks trivial
  apply makes_bind
  · apply makes_bind (makes_check (Checked.noPanic_reject _ _))
    intro _
    apply makes_bind (makes_rejectExisting looks _ _)
    intro _
    apply makes_bind (makes_rejectExisting looks _ _)
    intro _
    apply makes_bind (makes_rejectExisting looks _ _)
    intro _
    exact makes_ensureFileType looks _ _ _
  intro _
  apply makes_bind
  · apply makes_bind (directory _)
    intro _
    apply makes_bind (makes_check (Checked.noPanic_okOr _ _))
    intro parent
    apply makes_bind (directory _)
    intro _
    exact directory _
  intro _
  apply makes_bind (makes_check (drawn _))
  intro unlockKey
  apply makes_bind (makes_check ?_)
  · intro identity
    apply makes_bind (makes_check ?_)
    · intro encrypted
      apply makes_bind
      · apply makes_bind (writes _ _)
        intro _
        apply makes_bind (writes _ _)
        intro _
        apply makes_lift (writes _ _)
        intro reply safe
        cases reply with
        | ok _ => exact makes_return ()
        | error stopped =>
            apply makes_bind (makes_attempt trivial)
            intro _
            apply makes_check
            intro panicked
            cases panicked
            exact safe rfl
      · intro _
        exact makes_return _
    · exact Checked.noPanic_bind (drawn _) fun _ _ =>
        Checked.noPanic_bind (Checked.noPanic_okOr _ _) fun _ _ => Checked.noPanic_ok _
  · exact Checked.noPanic_bind (drawn _) fun _ _ => Checked.noPanic_bind (drawn _) fun _ _ =>
      Checked.noPanic_ok _

/-! ## Files are only ever added -/

theorem nextFile_withDirectory (fs : FileSystem) (path : Path) :
    (fs.withDirectory path).nextFile = fs.nextFile := by
  rcases fs.withDirectory_cases path with ⟨_, _, _, _, same⟩ | ⟨_, same⟩
  · rw [same, nextFile_createDirectory]
  · rw [same]

theorem nextFile_withDirectories (fs : FileSystem) (paths : List Path) :
    (fs.withDirectories paths).nextFile = fs.nextFile := by
  induction paths generalizing fs with
  | nil => rfl
  | cons path rest ih => exact (ih _).trans (nextFile_withDirectory fs path)

theorem nextFile_withFile (caller : Nat) {path : Path} {fs : FileSystem} (vacant : Vacant path fs)
    (bytes : List UInt8) : (fs.withFile caller path bytes).nextFile = fs.nextFile + 1 := by
  obtain ⟨_, _, located, _, same⟩ := withFile_of_vacant caller vacant bytes
  rw [same, nextFile_append, nextFile_createFile (slot_lt located)]

theorem nextFile_respond (fs : FileSystem) (request : FileCall) (outcome : Outcome) :
    fs.nextFile ≤ (FileSystem.respond caller fs request outcome).2.nextFile := by
  by_cases readOnly : request.ReadOnly
  · rw [respond_readOnly readOnly]
  · cases outcome with
    | failed => rw [respond_failed]
    | carriedOut chunk =>
        cases request with
        | lstat | stat | setMode | sync | openRead | fileLength | read | readDir =>
            exact absurd trivial readOnly
        | createDir path =>
            change fs.nextFile ≤ (fs.createDirAt path).2.nextFile
            rcases fs.createDirAt_cases path with ⟨_, _, _, _, same⟩ | ⟨_, _, same⟩
            · rw [same, nextFile_createDirectory]
            · rw [same]
        | createNew path =>
            change fs.nextFile ≤ (fs.createNewAt caller path).2.nextFile
            rcases fs.createNewAt_cases caller path with ⟨_, _, located, _, same⟩ | ⟨_, _, same⟩
            · rw [same, nextFile_createFile (slot_lt located)]
              exact Nat.le_succ _
            · rw [same]
        | write file bytes =>
            change fs.nextFile ≤ (fs.append file _).nextFile
            rw [nextFile_append]
        | removeFile path =>
            change fs.nextFile ≤ (fs.removeFileAt path).2.nextFile
            rcases fs.removeFileAt_cases path with ⟨_, _, _, _, _, _, same⟩ | ⟨_, same⟩
            · rw [same]
              exact Nat.le_refl _
            · rw [same]

theorem meets_grows (program : Program FileCall.Reply α) (fs : FileSystem) :
    Program.Meets (FileSystem.respond caller) free
      (fun _ later _ => fs.nextFile ≤ later.nextFile) program fs := by
  induction program generalizing fs with
  | done value =>
      rintro _ rfl
      exact Nat.le_refl _
  | call request next ih =>
      rintro _ rfl outcome
      refine ⟨trivial, (ih _ _).consequence fun _ later _ grown => ?_⟩
      exact Nat.le_trans (nextFile_respond fs request outcome) grown

/-! ## When the unlock key file comes to be -/

/-- Before its files, `initialize` finds nothing to object to. -/
structure Proceeds (root unlockPath : Path) (fs : FileSystem) : Prop where
  admissible : Admissible (.fromRoot root) unlockPath fs
  builds : Builds (stateDirectories root) fs
  vacant : Vacant unlockPath (fs.withDirectories (stateDirectories root))

theorem meets_initializeFiles_placed (paths : StatePaths)
    (unlockBytes profileBytes encrypted : List UInt8) (fs : FileSystem) :
    Meets caller free
      (fun events later result =>
        (¬ Vacant unlockPath fs → later = fs ∧ ∃ stopped, result = .error stopped) ∧
        (Vacant unlockPath fs → IsType .directory (parentOrHere unlockPath) fs → Clean events →
          fs.nextFile < later.nextFile))
      (paths.initializeFiles unlockPath unlockBytes profileBytes encrypted) fs := by
  apply meets_then (meets_writeNewPrivate_alone unlockPath unlockBytes)
  · rintro first middle _ ⟨written, front, _, _, _, ⟨notMade, _⟩ | ⟨_, vacant, same⟩⟩
    · rcases written.moved with ⟨_, _, _, ⟨⟩⟩ | ⟨made, _⟩
      exact absurd made notMade
    · have grown : fs.nextFile < middle.nextFile := by
        rw [same, nextFile_withFile caller vacant]
        exact Nat.lt_succ_self _
      refine (meets_grows _ middle).consequence fun second later result more => ⟨?_, ?_⟩
      · exact absurd vacant
      · exact fun _ _ _ => Nat.lt_of_lt_of_le grown more
  · rintro first middle stopped ⟨written, front, _, _, _, ⟨notMade, rfl, _⟩ | ⟨_, vacant, same⟩⟩
    · rintro _ rfl
      refine ⟨fun _ => ⟨rfl, stopped, rfl⟩, fun vacant parent clean => ?_⟩
      cases written.clean clean (by
        rintro _ rfl
        exact ⟨parent, vacant⟩)
    · rintro _ rfl
      refine ⟨absurd vacant, fun _ _ _ => ?_⟩
      rw [same, nextFile_withFile caller vacant]
      exact Nat.lt_succ_self _

/-- The draws of a call, and with them everything that it writes, can be had. -/
def Drawable (primitives : Primitives) (draws : InitializeDraws) : Prop :=
  ∃ drawn, drawIdentity primitives draws = .ok drawn

theorem meets_initializeState_placed (primitives : Primitives) (draws : InitializeDraws)
    (fs : FileSystem) :
    Meets caller free
      (fun events later result =>
        (¬ Proceeds root unlockPath fs →
          (∃ stopped, result = .error stopped) ∧ later.nextFile = fs.nextFile) ∧
        (Proceeds root unlockPath fs → Drawable primitives draws → Clean events →
          fs.nextFile < later.nextFile))
      ((StatePaths.fromRoot root).initializeState primitives unlockPath draws) fs := by
  have idle : ∀ moment : FileSystem, free.guarantee moment moment := fun _ => trivial
  rw [initializeState_eq, initializeDirectories_eq]
  apply meets_then (meets_initializeChecks idle _ unlockPath)
  · rintro first _ _ ⟨looked, admissible, _⟩
    cases looked.relied
    have start := admissible rfl (alone_lone _)
    apply meets_then (meets_createDirectories (respects_lone _) (fun _ _ _ => trivial) _)
    · rintro second _ _ directories
      obtain ⟨builds, rfl⟩ := directories.whole (alone_lone _) rfl
      cases drawn : drawIdentity primitives draws with
      | error stopped =>
          rintro _ rfl
          refine ⟨fun _ => ⟨⟨stopped, rfl⟩, nextFile_withDirectories fs _⟩, ?_⟩
          rintro _ ⟨_, drawn'⟩
          cases drawn.symm.trans drawn'
      | ok value =>
          obtain ⟨unlockKey, secrets, profile, encrypted⟩ := value
          rw [check_ok_bind]
          apply meets_then (meets_initializeFiles_placed _ _ _ _ _)
          · rintro third later _ ⟨refused, grown⟩ _ rfl
            refine ⟨fun hindered => ?_, fun proceeds _ clean => ?_⟩
            · have filled : ¬ Vacant unlockPath (fs.withDirectories (stateDirectories root)) :=
                fun vacant => hindered ⟨start, builds, vacant⟩
              obtain ⟨_, _, ⟨⟩⟩ := refused filled
            · rw [← nextFile_withDirectories fs (stateDirectories root)]
              exact grown proceeds.vacant (start.parent.extends (extends_withDirectories _))
                (clean_append.1 (clean_append.1 (clean_append.1 clean).2).2).1
          · rintro third later stopped ⟨refused, grown⟩ _ rfl
            refine ⟨fun hindered => ⟨⟨stopped, rfl⟩, ?_⟩, fun proceeds _ clean => ?_⟩
            · have filled : ¬ Vacant unlockPath (fs.withDirectories (stateDirectories root)) :=
                fun vacant => hindered ⟨start, builds, vacant⟩
              rw [(refused filled).1, nextFile_withDirectories]
            · rw [← nextFile_withDirectories fs (stateDirectories root)]
              exact grown proceeds.vacant (start.parent.extends (extends_withDirectories _))
                (clean_append.1 (clean_append.1 clean).2).2
    · rintro second later stopped directories _ rfl
      have same : later.nextFile = fs.nextFile := by
        obtain ⟨_, _, _, _, _, rfl⟩ := directories.reached (alone_lone _)
        exact nextFile_withDirectories fs _
      refine ⟨fun _ => ⟨⟨stopped, rfl⟩, same⟩, fun proceeds _ clean => ?_⟩
      cases directories.clean (alone_lone _) (clean_append.1 clean).2 proceeds.builds
  · rintro first _ stopped ⟨looked, _, known⟩ _ rfl
    cases looked.relied
    refine ⟨fun _ => ⟨⟨stopped, rfl⟩, rfl⟩, fun proceeds _ clean => ?_⟩
    cases known clean (by
      rintro _ rfl
      exact proceeds.admissible)

theorem drawable (primitives : Primitives) : ∃ draws, Drawable primitives draws := by
  let secrets : IdentitySecrets := ⟨.replicate 32 0, .replicate 32 0⟩
  have short : (privatePlaintext secrets).length ≤ maxBlobLen := by
    rw [length_privatePlaintext]
    decide
  obtain ⟨ciphertext, encrypted⟩ := @Primitives.encrypt_of_length primitives (.replicate 32 0)
    (.replicate 24 0) identityAadDomain _ short
  let draws : InitializeDraws := ⟨some (.replicate 32 0), some secrets.identitySecret,
    some secrets.agreementSecret, some (.replicate 24 0)⟩
  have sealed : encryptPrivateIdentity primitives secrets (.replicate 32 0) draws.nonce =
      .ok ((Bytes.replicate 24 0).toList ++ ciphertext) := by
    simp [encryptPrivateIdentity, draws, encrypted]
  exact ⟨draws, _, drawIdentity_eq_ok_iff.2 ⟨⟨rfl, rfl, rfl, sealed⟩, rfl⟩⟩

end Storage

/-! ## The placement -/

/-- A key that would lie in or below the root is refused, and no file is created. Files are
numbered as they are created, and `nextFile` counts them. -/
def KeptOutside (primitives : Primitives) (root unlockPath : Path) (fs : FileSystem) : Prop :=
  fs.Within root unlockPath → ∀ caller draws outcomes,
    let run := runAlone caller ((StatePaths.fromRoot root).initializeState primitives unlockPath
      draws) fs outcomes
    (∀ result, run.1 = some result → ∃ error, result = .error (.error error)) ∧
      run.2.1.nextFile = fs.nextFile

/-- The guard holds exactly where it can be read off the spelling, or something else stands
in the way. -/
theorem StatePaths.initializeState_keptOutside_iff (primitives : Primitives)
    (root unlockPath : Path) (fs : FileSystem) :
    KeptOutside primitives root unlockPath fs ↔
      (fs.Within root unlockPath →
        unlockPath.startsWith root = true ∨ ¬ Proceeds root unlockPath fs) := by
  constructor
  · intro kept within
    by_contra passed
    obtain ⟨_, proceeds⟩ := not_or.1 passed
    obtain ⟨draws, drawn⟩ := drawable primitives
    obtain ⟨steps, finished⟩ := Program.run_terminates (FileSystem.respond 0)
      ((fromRoot root).initializeState primitives unlockPath draws).run fs fun _ => .carriedOut 0
    obtain ⟨result, ended⟩ := Option.isSome_iff_exists.1 finished
    have placed := runAlone_meets (meets_initializeState_placed primitives draws fs) ended
    have clean : Clean (runAlone 0 ((fromRoot root).initializeState primitives unlockPath draws) fs
        ((List.range steps).map fun _ => .carriedOut 0)).2.2 := by
      apply clean_runAlone
      intro outcome member
      obtain ⟨_, _, rfl⟩ := List.mem_map.1 member
      exact nofun
    have grown := placed.2 (not_not.1 proceeds) drawn clean
    rw [(kept within 0 draws _).2] at grown
    exact Nat.lt_irrefl _ grown
  · intro guarded within caller draws outcomes run
    have hindered : ¬ Proceeds root unlockPath fs := by
      rcases guarded within with spelled | hindered
      · intro proceeds
        have outside := proceeds.admissible.outside
        rw [show (fromRoot root).root = root from rfl, spelled] at outside
        cases outside
      · exact hindered
    obtain ⟨rest, result, more, finished, _, ended⟩ := @runAlone_finish caller _
      ((fromRoot root).initializeState primitives unlockPath draws) fs outcomes
    have placed := runAlone_meets (meets_initializeState_placed primitives draws fs)
      (congrArg Prod.fst finished)
    rw [finished] at placed
    obtain ⟨⟨stopped, rfl⟩, same⟩ := placed.1 hindered
    refine ⟨fun other returned => ?_, same⟩
    rcases ended with ⟨returned', _⟩ | ⟨died, _⟩
    · cases returned.symm.trans returned'
      have safe := (makes_initializeState primitives (fromRoot root) unlockPath draws).run returned
      cases stopped with
      | panic => exact absurd rfl safe
      | error error => exact ⟨error, rfl⟩
    · cases returned.symm.trans died

namespace Sample

/-- The state directory is there already. -/
def housed : FileSystem := FileSystem.empty.createDirectory 0 (ascii "state")

/-- The same place as `/state/key`, seen from the root. -/
def below : Path := ⟨false, [.name (ascii "state"), .name (ascii "key")], false⟩

theorem housed_tree : Tree housed := by
  have lookup : ∀ directory name, housed.lookup directory name =
      if directory = 0 ∧ name = ascii "state" then some (.directory 1) else none :=
    fun directory name => lookup_createDirectory Nat.one_pos ..
  refine ⟨fun directory name target linked => ?_, by decide, fun directory name id found => ?_⟩
  · rw [lookup] at linked
    split at linked <;> cases linked
  · rw [lookup] at found
    split at found
    · rename_i there
      cases found
      rw [there.1]
      decide
    · cases found

theorem below_within : housed.Within Sample.root below :=
  ⟨[], .root, by decide⟩

end Sample

/-- A relative spelling passes the guard, and the key is stored in the state directory. -/
theorem StatePaths.initializeState_misplaces_unlockKey :
    let call := (fromRoot Sample.root).initializeState .transparent Sample.below Sample.draws
    let run := runAlone 0 call Sample.housed (.replicate 60 (.carriedOut 1000))
    Tree Sample.housed ∧ Sample.housed.Within Sample.root Sample.below ∧
      run.1 = some (.ok Sample.profile) ∧
      run.2.1.node false (Sample.root.join (ascii "key")) = .ok (.file 0) ∧
      run.2.1.contents 0 = encodeUnlockKey (.replicate 32 9) ∧
      ¬ KeptOutside .transparent Sample.root Sample.below Sample.housed := by
  intro call run
  have returned : run.1 = some (.ok Sample.profile) := by decide +kernel
  refine ⟨Sample.housed_tree, Sample.below_within, returned, by decide +kernel, by decide +kernel,
    fun kept => ?_⟩
  obtain ⟨_, ⟨⟩⟩ := (kept Sample.below_within 0 Sample.draws _).1 _ returned

end Sealed
