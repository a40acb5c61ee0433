import Sealed.AtomicInitialize
import Sealed.TrustProperties

/-! Any number of `trust_profile` and `contact` calls on one root, in any interleaving of
their system calls: a profile that was pinned under an alias stays, whatever the other calls
do and wherever they fail. -/

set_option autoImplicit false

namespace Sealed

open Foundation FileSystem Storage StatePaths

inductive ContactCall where
  | trust (source : Path) (contactAlias : List UInt8)
  | lookUp (contactAlias : List UInt8)

inductive ContactAnswer where
  | trusted (result : Checked Error PublicProfile)
  | found (result : Checked Error Contact)
deriving DecidableEq

def ContactCall.program (primitives : Primitives) (root : Path) :
    ContactCall → Program FileCall.Reply ContactAnswer
  | .trust source contactAlias =>
      .trusted <$> ((fromRoot root).trustProfile primitives source contactAlias).run
  | .lookUp contactAlias => .found <$> ((fromRoot root).contact primitives contactAlias).run

/-- Callers that take turns. -/
abbrev ContactPool := Pool FileCall.Reply Outcome FileSystem ContactAnswer

/-! ## Files with one name -/

/-- A file that a caller created has one name. -/
def Storage.Unshared (fs : FileSystem) : Prop :=
  ∀ file, fs.creators file ≠ none → ∀ directory name other otherName,
    fs.lookup directory name = some (.file file) → fs.lookup other otherName = some (.file file) →
      other = directory ∧ otherName = name

theorem Storage.Pins.unshared {paths : StatePaths} {contactAlias : List UInt8} {caller : Nat}
    {before after : FileSystem} (pins : Pins paths contactAlias caller before after)
    (unshared : Unshared before) : Unshared after := by
  intro file created directory name other otherName found found'
  cases pins with
  | idle => exact unshared file created _ _ _ _ found found'
  | createDirectory inside entry located free =>
      rw [lookup_createDirectory (slot_lt located)] at found found'
      rw [creators_createDirectory] at created
      split at found
      · cases found
      split at found'
      · cases found'
      exact unshared file created _ _ _ _ found found'
  | createFile inside entry located free =>
      rw [lookup_createFile (slot_lt located)] at found found'
      rw [creators_createFile (slot_lt located)] at created
      split at found <;> split at found'
      · rename_i here there
        exact ⟨there.1.trans here.1.symm, there.2.trans here.2.symm⟩
      · cases found
        exact absurd (before.filesExist _ _ _ found') (Nat.lt_irrefl _)
      · cases found'
        exact absurd (before.filesExist _ _ _ found) (Nat.lt_irrefl _)
      · rw [if_neg (Nat.ne_of_lt (before.filesExist _ _ _ found))] at created
        exact unshared file created _ _ _ _ found found'
  | append own chunk profile holding fits =>
      rw [lookup_append] at found found'
      rw [creators_append] at created
      exact unshared file created _ _ _ _ found found'

/-- What stands at a path stays, where its slot and the bytes behind it do. -/
theorem Foundation.FileSystem.entry_eq_of_slot {path : Path} {before after : FileSystem}
    {directory : Nat} {name : Name} (extended : Extends before after)
    (located : before.locate false path = .ok (.slot directory name))
    (same : after.lookup directory name = before.lookup directory name)
    (contents : ∀ file, before.lookup directory name = some (.file file) →
      after.contents file = before.contents file) : entry path after = entry path before := by
  have node : after.node false path = before.node false path := by
    unfold FileSystem.node
    rw [extended.locate located, located]
    simp only [bind, Except.bind, nodeAt, same]
  unfold entry
  rw [node]
  cases found : before.node false path with
  | error kind => rfl
  | ok node =>
      cases node with
      | file file =>
          obtain ⟨place, located', there⟩ := node_eq_ok_iff.1 found
          cases located.symm.trans located'
          simp only [contents file there]
      | directory | symlink | special => rfl

theorem Storage.Pins.entry {root : Path} {contactAlias other : List UInt8} {caller : Nat}
    {before after : FileSystem} (pins : Pins (fromRoot root) contactAlias caller before after)
    (unshared : Unshared before) (distinct : other ≠ contactAlias) :
    entry ((fromRoot root).contactPath other) after =
      entry ((fromRoot root).contactPath other) before := by
  have names : other ++ ascii ".contact" ≠ contactAlias ++ ascii ".contact" := fun same =>
    distinct (List.append_cancel_right same)
  have extended := pins.step.extends
  cases pins with
  | idle => rfl
  | createDirectory directory name located free =>
      have vacant : Vacant ((fromRoot root).contacts.join (other ++ ascii ".contact"))
          (before.createDirectory directory name) := vacant_join_createDirectory located free _
      have missing : before.node false ((fromRoot root).contacts.join _) = .error .notFound :=
        node_join_vacant ⟨directory, name, located, free⟩ (other ++ ascii ".contact")
      exact (entry_of_notFound (node_of_vacant vacant)).trans (entry_of_notFound missing).symm
  | createFile directory name located free =>
      obtain ⟨parent, found⟩ := contacts_of_child located
      have place : ∀ stem, before.locate false ((fromRoot root).contactPath stem) =
          .ok (.slot parent (stem ++ ascii ".contact")) := fun stem => locate_join found (by simp)
      cases located.symm.trans (place contactAlias)
      apply entry_eq_of_slot extended (place other)
      · rw [lookup_createFile (slot_lt located), if_neg fun both => names both.2]
      · exact fun file _ => congrFun (contents_createFile _ _ _) file
  | append file chunk profile holding fits =>
      obtain ⟨directory, name, located, mine, created⟩ := holding
      obtain ⟨parent, found⟩ := contacts_of_child located
      have place : ∀ stem, before.locate false ((fromRoot root).contactPath stem) =
          .ok (.slot parent (stem ++ ascii ".contact")) := fun stem => locate_join found (by simp)
      cases located.symm.trans (place contactAlias)
      apply entry_eq_of_slot extended (place other)
      · rw [lookup_append]
      · intro file' yours
        rw [contents_append, if_neg]
        rintro ⟨rfl, _⟩
        exact names (unshared _ (by simp [created]) _ _ _ _ mine yours).2

namespace ContactPool

variable (primitives : Primitives) (root : Path)

/-- Calls that have not begun, on a file system where none of them created anything. -/
def start (calls : List ContactCall) (fs : FileSystem) : ContactPool :=
  Pool.start (unclaimed fs) (calls.map (ContactCall.program primitives root))

def run (pool : ContactPool) (schedule : List (Nat × Outcome)) : ContactPool :=
  Pool.run FileSystem.respond pool schedule

variable {primitives root}

/-! ## Contracts -/

/-- What every caller relies on. -/
def keeping (index : Nat) : Contract FileSystem where
  rely := fun before after => Respected index before after ∧ Preserved before after
  guarantee := Eq
  rely_refl := fun fs => ⟨.refl fs, .refl fs⟩
  rely_trans := fun early late => ⟨early.1.trans late.1, early.2.trans late.2⟩

/-- The changes of a call. -/
def changes (root : Path) (calls : List ContactCall) (index : Nat) :
    FileSystem → FileSystem → Prop :=
  match calls[index]? with
  | some (.trust _ contactAlias) => Pins (fromRoot root) contactAlias index
  | _ => Eq

def contracts (root : Path) (calls : List ContactCall) (index : Nat) : Contract FileSystem :=
  (keeping index).guaranteeing (changes root calls index)

theorem changes_refl (calls : List ContactCall) (index : Nat) (fs : FileSystem) :
    changes root calls index fs fs := by
  unfold changes
  cases calls[index]? with
  | none => rfl
  | some call =>
      cases call with
      | trust source contactAlias => exact .idle fs
      | lookUp contactAlias => rfl

theorem changes_cases {calls : List ContactCall} {index : Nat} {before after : FileSystem}
    (change : changes root calls index before after) :
    ∃ contactAlias, Pins (fromRoot root) contactAlias index before after := by
  unfold changes at change
  cases called : calls[index]? with
  | none =>
      rw [called] at change
      cases change
      exact ⟨[], .idle before⟩
  | some call =>
      rw [called] at change
      cases call with
      | trust source contactAlias => exact ⟨contactAlias, change⟩
      | lookUp contactAlias =>
          cases change
          exact ⟨contactAlias, .idle before⟩

theorem compatible (calls : List ContactCall) : Pool.Compatible (contracts root calls) := by
  intro actor observer distinct before after change
  obtain ⟨_, pins⟩ := changes_cases change
  exact ⟨pins.step.respected distinct, pins.preserved⟩

/-- What a finished call says. -/
def Post (primitives : Primitives) (root : Path) (calls : List ContactCall) (index : Nat)
    (_ : List FileEvent) (fs : FileSystem) (answer : ContactAnswer) : Prop :=
  ∀ source contactAlias, calls[index]? = some (.trust source contactAlias) →
    ∀ profile, answer = .trusted (.ok profile) → validateAlias contactAlias = true ∧
      PublicProfile.parse primitives profile.encode = .ok profile ∧
      Pinned (fromRoot root) contactAlias profile fs

theorem respects_keeping (index : Nat) : Respects index (keeping index) :=
  fun _ _ relied => relied.1

theorem preserves_keeping (index : Nat) : Preserves (keeping index) :=
  fun _ _ relied => relied.2

theorem meets_run (calls : List ContactCall) (fs : FileSystem)
    (schedule : List (Nat × Outcome)) :
    Pool.Meets FileSystem.respond (contracts root calls) (Post primitives root calls)
      ((start primitives root calls fs).run schedule) := by
  refine Pool.Meets.run (compatible calls) (Pool.Meets.start fun index program member => ?_)
    schedule
  rw [List.getElem?_map, Option.map_eq_some_iff] at member
  obtain ⟨call, called, rfl⟩ := member
  unfold contracts changes
  rw [called]
  cases call with
  | trust source contactAlias =>
      refine (Program.Meets.map (meets_trustProfile (respects_keeping index)
        (preserves_keeping index) source)).consequence ?_
      rintro events later _ ⟨result, rfl, pinned⟩ _ _ called' profile ⟨⟩
      cases called.symm.trans called'
      exact pinned profile rfl
  | lookUp contactAlias =>
      refine (Program.Meets.map (meets_contact (fun _ => rfl)
        (preserves_keeping index).growing)).consequence ?_
      rintro events later _ _ _ _ called'
      cases called.symm.trans called'

/-! ## From one point of a run on -/

theorem step_changes (calls : List ContactCall) (fs : FileSystem)
    (schedule : List (Nat × Outcome)) (turn : Nat × Outcome) :
    let pool := (start primitives root calls fs).run schedule
    changes root calls turn.1 pool.world (pool.run [turn]).world := by
  intro pool
  rcases (@meets_run primitives root calls fs schedule).step_guarantee turn with same | change
  · change changes root calls turn.1 pool.world (Pool.step _ pool turn).world
    rw [same]
    exact changes_refl calls turn.1 _
  · exact change

theorem run_append (calls : List ContactCall) (fs : FileSystem)
    (schedule more : List (Nat × Outcome)) :
    ((start primitives root calls fs).run schedule).run more =
      (start primitives root calls fs).run (schedule ++ more) :=
  (Pool.run_append _ _ _).symm

/-- What stays, stays through every run, and files that were created keep one name. -/
theorem preserved_run (calls : List ContactCall) (fs : FileSystem)
    (schedule more : List (Nat × Outcome)) :
    let pool := (start primitives root calls fs).run schedule
    Preserved pool.world (pool.run more).world ∧
      (Unshared pool.world → Unshared (pool.run more).world) := by
  induction more generalizing schedule with
  | nil => exact ⟨.refl _, id⟩
  | cons turn more ih =>
      intro pool
      obtain ⟨_, pins⟩ := changes_cases (@step_changes primitives root calls fs schedule turn)
      obtain ⟨preserved, unshared⟩ := ih (schedule ++ [turn])
      rw [← run_append] at preserved unshared
      exact ⟨pins.preserved.trans preserved, fun before => unshared (pins.unshared before)⟩

theorem unshared_run (calls : List ContactCall) (fs : FileSystem)
    (schedule : List (Nat × Outcome)) :
    Unshared ((start primitives root calls fs).run schedule).world :=
  (@preserved_run primitives root calls fs [] schedule).2 fun _ created => absurd rfl created

/-- A call that has not begun and changes nothing from here on. -/
theorem late (calls : List ContactCall) (fs : FileSystem) (schedule : List (Nat × Outcome))
    {index : Nat} {call : ContactCall} (called : calls[index]? = some call)
    (unstarted : ∀ turn ∈ schedule, turn.1 ≠ index)
    {post : List FileEvent → FileSystem → ContactAnswer → Prop}
    (meets : Program.Meets (FileSystem.respond index) (keeping index) post
      (call.program primitives root) ((start primitives root calls fs).run schedule).world)
    (more : List (Nat × Outcome)) :
    let later := ((start primitives root calls fs).run schedule).run more
    (∀ answer, later.result index = some answer →
      post (later.events index) later.world answer) ∧
    ∀ outcome, (later.run [(index, outcome)]).world = later.world := by
  intro later
  have thread : ((start primitives root calls fs).run schedule).threads[index]? =
      some ⟨call.program primitives root, []⟩ := by
    refine (Pool.run_idle (start primitives root calls fs) unstarted).trans ?_
    simp only [start, Pool.start, List.getElem?_map, called, Option.map_some]
  have replaced := (@meets_run primitives root calls fs schedule).replace index (keeping index)
    post (by
      intro found there
      cases thread.symm.trans there
      exact meets)
  have compatible' := (compatible calls : Pool.Compatible (contracts root calls)).replace index
    (keeping index)
    (by
      rintro other distinct before _ rfl
      exact (keeping other).rely_refl before)
    (by
      intro other distinct before after change
      exact compatible calls other index distinct before after change)
  have onwards := replaced.run compatible' more
  constructor
  · intro answer finished
    have holds := onwards.of_result finished
    rw [Function.update_self] at holds
    exact holds
  · intro outcome
    rcases onwards.step_guarantee (index, outcome) with same | same
    · exact same
    · rw [Function.update_self] at same
      exact same.symm

/-- A pinned alias is immutable. -/
theorem pinned_immutable (calls : List ContactCall) (fs : FileSystem)
    (schedule : List (Nat × Outcome)) :
    let pool := (start primitives root calls fs).run schedule
    (∀ first second source other contactAlias left right,
      calls[first]? = some (.trust source contactAlias) →
      calls[second]? = some (.trust other contactAlias) →
      pool.result first = some (.trusted (.ok left)) →
      pool.result second = some (.trusted (.ok right)) → left = right) ∧
    (∀ index source contactAlias profile, calls[index]? = some (.trust source contactAlias) →
      pool.result index = some (.trusted (.ok profile)) →
      (∃ file, ∀ more,
        (pool.run more).world.node false ((fromRoot root).contactPath contactAlias) =
          .ok (.file file) ∧ (pool.run more).world.contents file = profile.encode) ∧
      (∀ reader, calls[reader]? = some (.lookUp contactAlias) →
        (∀ turn ∈ schedule, turn.1 ≠ reader) → ∀ more result,
          (pool.run more).result reader = some (.found result) →
          Clean ((pool.run more).events reader) → result = .ok ⟨contactAlias, profile⟩) ∧
      ∀ rival source offered, calls[rival]? = some (.trust source contactAlias) →
        (∀ turn ∈ schedule, turn.1 ≠ rival) → Contains source offered.encode pool.world →
        PublicProfile.parse primitives offered.encode = .ok offered → profile ≠ offered →
          ∀ more, (∀ outcome, ((pool.run more).run [(rival, outcome)]).world =
              (pool.run more).world) ∧
            ∀ result, (pool.run more).result rival = some (.trusted result) →
              (∀ accepted, result ≠ .ok accepted) ∧
              (Clean ((pool.run more).events rival) →
                result = .error (.error .identityMismatch))) ∧
    ∀ turn source contactAlias other, calls[turn.1]? = some (.trust source contactAlias) →
      other ≠ contactAlias →
        entry ((fromRoot root).contactPath other) (pool.run [turn]).world =
          entry ((fromRoot root).contactPath other) pool.world := by
  intro pool
  have meets := @meets_run primitives root calls fs schedule
  refine ⟨?_, ?_, ?_⟩
  · intro first second source other contactAlias left right called called' leftOk rightOk
    obtain ⟨_, leftMade, leftPinned⟩ := meets.of_result leftOk _ _ called left rfl
    obtain ⟨_, rightMade, rightPinned⟩ := meets.of_result rightOk _ _ called' right rfl
    exact leftPinned.unique rightPinned leftMade rightMade
  · intro index source contactAlias profile called ok
    obtain ⟨valid, made, pinned⟩ := meets.of_result ok _ _ called profile rfl
    refine ⟨?_, ?_, ?_⟩
    · obtain ⟨file, found, contents⟩ := pinned.file
      refine ⟨file, fun more => ?_⟩
      have preserved := (@preserved_run primitives root calls fs schedule more).1
      obtain ⟨_, same⟩ := preserved.settled file ⟨file_lt found, .inr ⟨profile, contents⟩⟩
      exact ⟨preserved.node_file found, same.trans contents⟩
    · intro reader called' unstarted more result finished clean
      have looks := @meets_contact_late primitives reader _ _ _ _ (preserves_keeping reader)
        (fun _ => rfl) profile pinned valid made
      obtain ⟨_, same, _, complete⟩ :=
        (late calls fs schedule called' unstarted (Program.Meets.map looks) more).1 _ finished
      cases same
      exact complete clean
    · intro rival source' offered called' unstarted offer offeredMade distinct more
      have refuses := @meets_trustProfile_late primitives rival _ _ _ _ (preserves_keeping rival)
        (fun _ => rfl) profile pinned source' offered made offeredMade offer distinct
      obtain ⟨refused, still⟩ :=
        late calls fs schedule called' unstarted (Program.Meets.map refuses) more
      refine ⟨still, fun result finished => ?_⟩
      obtain ⟨_, same, never, mismatch⟩ := refused _ finished
      cases same
      exact ⟨never, mismatch valid⟩
  · intro turn source contactAlias other called distinct
    have change := @step_changes primitives root calls fs schedule turn
    unfold changes at change
    rw [called] at change
    exact Pins.entry change (unshared_run calls fs schedule) distinct

end ContactPool

namespace Sample

def rival : PublicProfile := .new .transparent (.replicate 32 3) (.replicate 32 4)

def sourceAt (name : String) : Path := top.join (ascii name)

/-- Two profiles to import. -/
def sources : FileSystem :=
  (FileSystem.empty.withFile 0 (sourceAt "first") pinned.encode).withFile 0 (sourceAt "second")
    rival.encode

def contactCalls : List ContactCall :=
  [.trust (sourceAt "first") (ascii "anna"), .trust (sourceAt "second") (ascii "anna"),
    .lookUp (ascii "anna")]

/-- The first call alone. -/
def firstTurns : List (Nat × Outcome) := .replicate 20 (0, .carriedOut 1000)

def pinning : ContactPool :=
  (ContactPool.start .transparent top contactCalls sources).run firstTurns

end Sample

theorem ContactPool.pinned_immutable_sample :
    (∀ more result, (Sample.pinning.run more).result 2 = some (.found result) →
      Clean ((Sample.pinning.run more).events 2) → result = .ok ⟨ascii "anna", Sample.pinned⟩) ∧
    ∀ more result, (Sample.pinning.run more).result 1 = some (.trusted result) →
      Clean ((Sample.pinning.run more).events 1) →
        result = .error (.error .identityMismatch) := by
  have ran : Sample.pinning.result 0 = some (.trusted (.ok Sample.pinned)) ∧
      Sample.pinning.world.node false (Sample.sourceAt "second") = .ok (.file 1) ∧
      Sample.pinning.world.contents 1 = Sample.rival.encode := by
    decide +kernel
  obtain ⟨finished, named, spelled⟩ := ran
  have offer : Contains (Sample.sourceAt "second") Sample.rival.encode Sample.pinning.world :=
    ⟨1, named, spelled⟩
  have others : ∀ index, index ≠ 0 → ∀ turn ∈ Sample.firstTurns, turn.1 ≠ index := by
    intro index distinct turn member
    rw [List.eq_of_mem_replicate member]
    exact Ne.symm distinct
  obtain ⟨_, immutable, _⟩ := @pinned_immutable .transparent Sample.top Sample.contactCalls
    Sample.sources Sample.firstTurns
  obtain ⟨_, found, refused⟩ := immutable 0 _ (ascii "anna") Sample.pinned rfl finished
  refine ⟨found 2 rfl (others 2 (by decide)), fun more result ended => ?_⟩
  obtain ⟨_, rejects⟩ := refused 1 _ Sample.rival rfl (others 1 (by decide)) offer
    (PublicProfile.parse_encode _ _) (by decide) more
  exact (rejects result ended).2

end Sealed
