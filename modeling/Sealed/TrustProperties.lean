import Sealed.ContactLookups
import Sealed.WriteProperties

/-! What `trust_profile` changes and says. It makes the contacts directory and one new file,
written front to back, so that a file with a whole profile is left alone by every call. -/

set_option autoImplicit false

namespace Sealed

open Foundation FileSystem Storage

variable {primitives : Primitives} {caller : Nat} {paths : StatePaths}
  {contactAlias : List UInt8} {contract : Contract FileSystem} {world : FileSystem}

namespace Storage

/-! ## What stays -/

/-- Nobody adds to the file any more: it was there from the start, or it holds a whole
profile. -/
def Settled (file : Nat) (fs : FileSystem) : Prop :=
  file < fs.nextFile ∧
    (fs.creators file = none ∨ ∃ profile : PublicProfile, fs.contents file = profile.encode)

/-- Names stay, files only grow, and settled files stay as they are. -/
structure Preserved (before after : FileSystem) : Prop where
  extended : Extends before after
  entry : ∀ directory name node, before.lookup directory name = some node →
    after.lookup directory name = some node
  grown : ∀ file, before.contents file <+: after.contents file
  settled : ∀ file, Settled file before →
    Settled file after ∧ after.contents file = before.contents file

theorem Preserved.refl (fs : FileSystem) : Preserved fs fs :=
  ⟨.refl fs, fun _ _ _ found => found, fun _ => List.prefix_refl _, fun _ settled => ⟨settled, rfl⟩⟩

theorem Preserved.trans {first second third : FileSystem} (early : Preserved first second)
    (late : Preserved second third) : Preserved first third where
  extended := early.extended.trans late.extended
  entry := fun _ _ _ found => late.entry _ _ _ (early.entry _ _ _ found)
  grown := fun file => (early.grown file).trans (late.grown file)
  settled := by
    intro file settled
    obtain ⟨settled', same⟩ := early.settled file settled
    obtain ⟨settled'', same'⟩ := late.settled file settled'
    exact ⟨settled'', same'.trans same⟩

theorem Preserved.node_file {before after : FileSystem} (preserved : Preserved before after)
    {path : Path} {file : Nat} (found : before.node false path = .ok (.file file)) :
    after.node false path = .ok (.file file) := by
  obtain ⟨place, located, entry⟩ := node_eq_ok_iff.1 found
  apply node_eq_ok_iff.2
  refine ⟨place, preserved.extended.locate located, ?_⟩
  cases place with
  | inside directory => cases entry
  | slot directory name => exact preserved.entry _ _ _ entry

theorem file_lt {fs : FileSystem} {follow : Bool} {path : Path} {file : Nat}
    (found : fs.node follow path = .ok (.file file)) : file < fs.nextFile := by
  obtain ⟨place, _, entry⟩ := node_eq_ok_iff.1 found
  cases place with
  | inside directory => cases entry
  | slot directory name => exact fs.filesExist _ _ _ entry

theorem Preserved.contains {before after : FileSystem} (preserved : Preserved before after)
    {path : Path} {profile : PublicProfile} (contained : Contains path profile.encode before) :
    Contains path profile.encode after := by
  obtain ⟨file, found, contents⟩ := contained
  obtain ⟨_, same⟩ := preserved.settled file ⟨file_lt found, .inr ⟨profile, contents⟩⟩
  exact ⟨file, preserved.node_file found, same.trans contents⟩

/-- The changes of a call that pins a profile under an alias. -/
inductive Pins (paths : StatePaths) (contactAlias : List UInt8) (caller : Nat) :
    FileSystem → FileSystem → Prop where
  | idle (fs : FileSystem) : Pins paths contactAlias caller fs fs
  | createDirectory (fs : FileSystem) (directory : Nat) (name : Name)
      (located : fs.locate false paths.contacts.unslashed = .ok (.slot directory name))
      (free : fs.lookup directory name = none) :
      Pins paths contactAlias caller fs (fs.createDirectory directory name)
  | createFile (fs : FileSystem) (directory : Nat) (name : Name)
      (located : fs.locate false (paths.contactPath contactAlias) = .ok (.slot directory name))
      (free : fs.lookup directory name = none) :
      Pins paths contactAlias caller fs (fs.createFile caller directory name)
  | append (fs : FileSystem) (file : Nat) (chunk : List UInt8) (profile : PublicProfile)
      (holding : Holding caller (paths.contactPath contactAlias) file fs)
      (fits : fs.contents file ++ chunk <+: profile.encode) :
      Pins paths contactAlias caller fs (fs.append file chunk)

theorem Holding.own {path : Path} {file : Nat} {fs : FileSystem}
    (holding : Holding caller path file fs) : fs.creators file = some caller := by
  obtain ⟨_, _, _, _, created⟩ := holding
  exact created

theorem Pins.step {before after : FileSystem} (pins : Pins paths contactAlias caller before after) :
    Step caller before after := by
  cases pins with
  | idle => exact .idle _
  | createDirectory directory name located free =>
      exact .createDirectory _ _ _ (slot_lt located) free
  | createFile directory name located free => exact .createFile _ _ _ (slot_lt located) free
  | append file chunk profile holding fits => exact .append _ _ _ holding.own

theorem chunk_eq_nil {whole profile : PublicProfile} {bytes chunk : List UInt8}
    (settled : bytes = whole.encode) (fits : bytes ++ chunk <+: profile.encode) : chunk = [] := by
  have length := fits.length_le
  rw [List.length_append, settled, PublicProfile.length_encode, PublicProfile.length_encode]
    at length
  exact List.length_eq_zero_iff.1 (by omega)

theorem Pins.preserved {before after : FileSystem}
    (pins : Pins paths contactAlias caller before after) : Preserved before after := by
  have extended := pins.step.extends
  cases pins with
  | idle => exact .refl _
  | createDirectory directory name located free =>
      have inside := slot_lt located
      refine ⟨extended, ?_, ?_, ?_⟩
      · intro other otherName node found
        rw [lookup_createDirectory inside]
        exact lookup_of_new free found
      · intro file
        exact (congrFun (contents_createDirectory ..) file).symm ▸ List.prefix_refl _
      · rintro file ⟨below, known⟩
        rw [contents_createDirectory]
        refine ⟨⟨?_, ?_⟩, rfl⟩
        · rwa [nextFile_createDirectory]
        · rwa [creators_createDirectory, contents_createDirectory]
  | createFile directory name located free =>
      have inside := slot_lt located
      refine ⟨extended, ?_, ?_, ?_⟩
      · intro other otherName node found
        rw [lookup_createFile inside]
        exact lookup_of_new free found
      · intro file
        exact (congrFun (contents_createFile ..) file).symm ▸ List.prefix_refl _
      · rintro file ⟨below, known⟩
        rw [contents_createFile]
        refine ⟨⟨?_, ?_⟩, rfl⟩
        · rw [nextFile_createFile inside]
          exact Nat.lt_succ_of_lt below
        · rwa [creators_createFile inside, if_neg (Nat.ne_of_lt below), contents_createFile]
  | append file chunk profile holding fits =>
      refine ⟨extended, ?_, ?_, ?_⟩
      · intro other otherName node found
        rwa [lookup_append]
      · intro other
        rw [contents_append]
        split
        · rename_i same
          rw [same.1]
          exact List.prefix_append _ _
        · exact List.prefix_refl _
      · rintro other ⟨below, known⟩
        have same : (before.append file chunk).contents other = before.contents other := by
          rw [contents_append]
          split
          · rename_i here
            obtain ⟨rfl, _⟩ := here
            rcases known with unclaimed | ⟨whole, settled⟩
            · cases holding.own.symm.trans unclaimed
            · rw [chunk_eq_nil settled fits, List.append_nil]
          · rfl
        refine ⟨⟨?_, ?_⟩, same⟩
        · rwa [nextFile_append]
        · rwa [creators_append, same]

/-- The others keep names and settled files. -/
abbrev Preserves (contract : Contract FileSystem) : Prop :=
  ∀ before after, contract.rely before after → Preserved before after

/-- A call that pins under an alias, where its own changes keep what stays too. -/
theorem meets_preserved (preserves : Preserves contract) {α : Type}
    {post : List FileEvent → FileSystem → Checked Error α → Prop} {storage : Storage α}
    (meets : Meets caller (contract.guaranteeing (Pins paths contactAlias caller)) post storage
      world) :
    Meets caller (contract.guaranteeing (Pins paths contactAlias caller))
      (fun events later result => post events later result ∧ Preserved world later) storage
      world := by
  refine meets.reach.consequence ?_
  rintro events later result ⟨holds, reached⟩
  refine ⟨holds, ?_⟩
  clear holds
  induction reached with
  | refl => exact .refl world
  | tail _ step ih =>
      rcases step with relied | pins
      · exact ih.trans (preserves _ _ relied)
      · exact ih.trans (Pins.preserved pins)

theorem Preserves.growing (preserves : Preserves contract) : Growing contract :=
  fun before after relied => (preserves before after relied).grown

end Storage

namespace StatePaths

/-! ## Pinning -/

/-- The profile stands under its alias in a real contacts directory. -/
structure Pinned (paths : StatePaths) (contactAlias : List UInt8) (profile : PublicProfile)
    (fs : FileSystem) : Prop where
  contacts : IsType .directory paths.contacts fs
  file : Contains (paths.contactPath contactAlias) profile.encode fs

theorem Pinned.preserved {profile : PublicProfile} {before after : FileSystem}
    (pinned : Pinned paths contactAlias profile before) (preserved : Preserved before after) :
    Pinned paths contactAlias profile after :=
  ⟨pinned.contacts.extends preserved.extended, preserved.contains pinned.file⟩

theorem Pinned.unique {first second : PublicProfile} {fs : FileSystem}
    (left : Pinned paths contactAlias first fs) (right : Pinned paths contactAlias second fs)
    (firstMade : PublicProfile.parse primitives first.encode = .ok first)
    (secondMade : PublicProfile.parse primitives second.encode = .ok second) : first = second := by
  obtain ⟨_, file, found, contents⟩ := left
  obtain ⟨_, file', found', contents'⟩ := right
  cases found.symm.trans found'
  rw [← contents, contents', secondMade] at firstMade
  exact (Except.ok.inj firstMade).symm

theorem Pinned.of_read (preserves : Preserves contract) {path : Path}
    {profile : PublicProfile} {maximum : Nat} {later : FileSystem} {events : List FileEvent}
    (read : ReadRegular contract path maximum world events later (.ok profile.encode)) :
    Contains path profile.encode later := by
  obtain ⟨_, regular, opened, moment, file, _, middle, late, last, ⟨node, found, type⟩, there,
    contents⟩ := read.sound _ rfl
  cases node with
  | file other =>
      have early := preserves _ _ middle
      have found' := early.node_file found
      cases (node_follow found' (by simp)).symm.trans there
      refine (preserves _ _ last).contains ⟨file, ?_, contents⟩
      exact (preserves _ _ late).node_file found'
  | directory | symlink | special => cases type

theorem meets_pinProfile (respects : Respects caller contract) (preserves : Preserves contract)
    (profile : PublicProfile) :
    Storage.Meets caller (contract.guaranteeing (Pins paths contactAlias caller))
      (fun _ later result => ∀ pinned, result = .ok pinned → pinned = profile ∧
        Pinned paths contactAlias profile later)
      (paths.pinProfile primitives profile contactAlias) world := by
  let pinning := contract.guaranteeing (Pins paths contactAlias caller)
  have respects' : Respects caller pinning := respects
  have preserves' : Preserves pinning := preserves
  have idle : ∀ moment, pinning.guarantee moment moment := Pins.idle
  refine meets_then (meets_createPrivateDirectory idle
    (fun before after relied => (preserves before after relied).extended)
    fun moment directory name _ located free =>
      .createDirectory moment directory name located free) ?_ ?_
  · intro first made _ prepared
    have contacts := prepared.directory rfl
    refine meets_then (meets_pathExists idle (paths.contactPath contactAlias)) ?_ ?_
    · rintro second looked found ⟨glanced, _, ⟨⟩, _⟩
      have contacts' := contacts.extends (preserves _ _ glanced.relied).extended
      cases found with
      | true =>
          refine meets_then (meets_readRegularLimited idle preserves'.growing _ 512) ?_ ?_
          · intro third read bytes whole
            cases parsed : PublicProfile.parse primitives bytes with
            | error stopped =>
                intro later relied pinned ok
                cases ok
            | ok pinned =>
                rw [check_ok_bind]
                obtain ⟨_, rfl⟩ := PublicProfile.parse_eq_ok_iff.1 parsed
                by_cases same : pinned = profile
                · rw [if_pos same]
                  rintro later relied _ ⟨⟩
                  subst same
                  have pinned' : Pinned paths contactAlias pinned read :=
                    ⟨contacts'.extends (preserves _ _ whole.looked.relied).extended,
                      Pinned.of_read preserves' whole⟩
                  exact ⟨rfl, pinned'.preserved (preserves _ _ relied)⟩
                · rw [if_neg same]
                  rintro later relied _ ⟨⟩
          · rintro third read stopped _ later relied _ ⟨⟩
      | false =>
          refine meets_then (meets_preserved preserves (meets_writeNewPrivate respects' idle
            (fun moment directory name _ located free =>
              .createFile moment directory name located free)
            fun moment file chunk _ holding fits =>
              .append moment file chunk profile holding fits)) ?_ ?_
          · rintro third stored _ ⟨written, preserved⟩ later relied _ ⟨⟩
            rcases written.moved with ⟨_, _, _, ⟨⟩⟩ | ⟨_, moment, before, _, holding, front, _,
              contents, whole⟩
            have pinned : Pinned paths contactAlias profile stored :=
              ⟨contacts'.extends preserved.extended, _, holding.node, by rw [contents, whole rfl]⟩
            exact ⟨rfl, pinned.preserved (preserves _ _ relied)⟩
          · rintro third stored stopped _ later relied _ ⟨⟩
    · rintro second looked stopped _ later relied _ ⟨⟩
  · rintro first made stopped _ later relied _ ⟨⟩

/-- A profile that `trust_profile` returns came from a canonical source and stands under the
alias. -/
theorem meets_trustProfile (respects : Respects caller contract) (preserves : Preserves contract)
    (source : Path) :
    Storage.Meets caller (contract.guaranteeing (Pins paths contactAlias caller))
      (fun _ later result => ∀ profile, result = .ok profile →
        validateAlias contactAlias = true ∧
        PublicProfile.parse primitives profile.encode = .ok profile ∧
        Pinned paths contactAlias profile later)
      (paths.trustProfile primitives source contactAlias) world := by
  let pinning := contract.guaranteeing (Pins paths contactAlias caller)
  have preserves' : Preserves pinning := preserves
  have idle : ∀ moment, pinning.guarantee moment moment := Pins.idle
  by_cases valid : validateAlias contactAlias = true
  · unfold trustProfile
    rw [check_bind (Checked.reject_of_not (not_not.2 valid))]
    refine meets_then (meets_readRegularLimited idle preserves'.growing source 512) ?_ ?_
    · intro first read bytes whole
      cases parsed : PublicProfile.parse primitives bytes with
      | error stopped => rintro later relied _ ⟨⟩
      | ok profile =>
          rw [check_ok_bind]
          refine (meets_pinProfile respects preserves profile).consequence ?_
          intro second later result pins pinned ok
          obtain ⟨rfl, standing⟩ := pins pinned ok
          obtain ⟨_, rfl⟩ := PublicProfile.parse_eq_ok_iff.1 parsed
          exact ⟨valid, parsed, standing⟩
    · rintro first read stopped _ later relied _ ⟨⟩
  · unfold trustProfile
    rw [Checked.reject_of valid]
    rintro later relied _ ⟨⟩

theorem meets_contact (idle : ∀ moment, contract.guarantee moment moment)
    (growing : Growing contract) :
    Storage.Meets caller contract (fun _ _ _ => True) (paths.contact primitives contactAlias)
      world := by
  unfold contact
  by_cases valid : validateAlias contactAlias = true
  · rw [check_bind (Checked.reject_of_not (not_not.2 valid))]
    refine meets_then (Program.Meets.map (meets_readRegularLimited idle growing _ 512)) ?_ ?_
    · intro first read bytes _
      cases PublicProfile.parse primitives bytes <;> exact fun _ _ => trivial
    · exact fun _ _ _ _ _ _ => trivial
  · rw [Checked.reject_of valid]
    exact fun _ _ => trivial

/-! ## Under an alias that is taken -/

/-- Nothing is written to a path at which something stands. -/
theorem meets_writeNewPrivate_filled (idle : ∀ moment, contract.guarantee moment moment)
    {path : Path} (filled : ∀ moment, contract.rely world moment → ¬ Vacant path moment)
    (bytes : List UInt8) :
    Storage.Meets caller contract (fun _ _ result => ∀ value, result ≠ .ok value)
      (writeNewPrivate path bytes) world := by
  refine meets_then (meets_ensureFileType idle (by decide) (parentOrHere path) _) ?_ ?_
  · intro first checked _ ⟨looked, _⟩
    refine meets_then (meets_make (.createNew path) idle
      (fun moment _ => createNewAt_cases moment caller path) ?_) ?_ ?_
    · intro moment directory name relied located free
      exact absurd ⟨directory, name, located, free⟩
        (filled moment (contract.rely_trans looked.relied relied))
    · rintro second created _ ⟨moment, outcome, before, _, made | ⟨⟨_, ⟨⟩⟩, _⟩⟩
      obtain ⟨_, _, directory, name, located, free, _⟩ := made
      exact absurd ⟨directory, name, located, free⟩
        (filled moment (contract.rely_trans looked.relied before))
    · exact fun _ _ _ _ _ _ => nofun
  · exact fun _ _ _ _ _ _ => nofun

section

variable (preserves : Preserves contract) (idle : ∀ moment, contract.guarantee moment moment)
include preserves

theorem stands {path : Path} {profile : PublicProfile}
    (contained : Contains path profile.encode world) :
    ∃ file, ∀ moment, contract.rely world moment →
      moment.node false path = .ok (.file file) ∧ moment.contents file = profile.encode := by
  obtain ⟨file, found, contents⟩ := contained
  refine ⟨file, fun moment relied => ?_⟩
  have preserved := preserves _ _ relied
  obtain ⟨_, same⟩ := preserved.settled file ⟨file_lt found, .inr ⟨profile, contents⟩⟩
  exact ⟨preserved.node_file found, same.trans contents⟩

include idle

theorem meets_readProfile {path : Path} {profile : PublicProfile}
    (contained : Contains path profile.encode world) :
    Storage.Meets caller contract
      (fun events later result => contract.rely world later ∧
        (∀ bytes, result = .ok bytes → bytes = profile.encode) ∧
        (Clean events → result = .ok profile.encode))
      (readRegularLimited path 512) world := by
  obtain ⟨file, always⟩ := stands preserves contained
  refine (meets_readRegularLimited idle preserves.growing path 512).consequence ?_
  intro events later result read
  refine ⟨read.looked.relied, ?_, ?_⟩
  · intro bytes ok
    obtain ⟨_, regular, opened, moment, other, early, middle, late, _, _, there, rfl⟩ :=
      read.sound bytes ok
    obtain ⟨found, _⟩ := always opened (contract.rely_trans early middle)
    cases (node_follow found (by simp)).symm.trans there
    exact (always moment (contract.rely_trans early (contract.rely_trans middle late))).2
  · intro clean
    refine read.complete clean file profile.encode always ?_
    rw [PublicProfile.length_encode]
    decide

theorem meets_contact_stored {pinned : PublicProfile}
    (stored : Contains (paths.contactPath contactAlias) pinned.encode world)
    (valid : validateAlias contactAlias = true)
    (pinnedMade : PublicProfile.parse primitives pinned.encode = .ok pinned) :
    Storage.Meets caller contract
      (fun events _ result => (∀ contact, result = .ok contact → contact = ⟨contactAlias, pinned⟩) ∧
        (Clean events → result = .ok ⟨contactAlias, pinned⟩))
      (paths.contact primitives contactAlias) world := by
  unfold contact
  rw [check_bind (Checked.reject_of_not (not_not.2 valid))]
  refine meets_then (Program.Meets.map (meets_readProfile preserves idle stored)) ?_ ?_
  · rintro first read bytes ⟨result, same, _, whole, _⟩
    have found : bytes = pinned.encode := by
      cases result with
      | ok value =>
          cases same
          exact whole bytes rfl
      | error stopped => cases same
    rw [found, check_bind pinnedMade]
    rintro later _
    exact ⟨fun contact ok => (Except.ok.inj ok).symm, fun _ => rfl⟩
  · rintro first read stopped ⟨result, same, _, _, complete⟩ later _
    refine ⟨nofun, fun clean => ?_⟩
    rw [complete clean] at same
    cases same

variable {pinned : PublicProfile} (standing : Pinned paths contactAlias pinned world)
include standing

/-- A call that starts with another profile under the alias changes nothing and is refused. -/
theorem meets_trustProfile_late {source : Path} {offered : PublicProfile}
    (pinnedMade : PublicProfile.parse primitives pinned.encode = .ok pinned)
    (offeredMade : PublicProfile.parse primitives offered.encode = .ok offered)
    (offer : Contains source offered.encode world) (distinct : pinned ≠ offered) :
    Storage.Meets caller contract
      (fun events _ result => (∀ profile, result ≠ .ok profile) ∧
        (validateAlias contactAlias = true → Clean events →
          result = .error (.error .identityMismatch)))
      (paths.trustProfile primitives source contactAlias) world := by
  by_cases valid : validateAlias contactAlias = true
  case neg =>
    unfold trustProfile
    rw [Checked.reject_of valid]
    exact fun later _ => ⟨nofun, fun claimed => absurd claimed valid⟩
  unfold trustProfile
  rw [check_bind (Checked.reject_of_not (not_not.2 valid))]
  refine meets_then (meets_readProfile preserves idle offer) ?_ ?_
  · rintro first read bytes ⟨relied, same, _⟩
    rw [same bytes rfl, check_bind offeredMade]
    have standing := standing.preserved (preserves _ _ relied)
    have always : ∀ moment, contract.rely read moment →
        Pinned paths contactAlias pinned moment := fun moment relied' =>
      standing.preserved (preserves _ _ relied')
    refine meets_then (meets_createPrivateDirectory idle
      (fun before after relied => (preserves before after relied).extended) ?_) ?_ ?_
    · intro moment directory name relied' located free
      obtain ⟨node, found, _⟩ := (always moment relied').contacts
      rw [node_of_vacant_unslashed ⟨directory, name, located, free⟩] at found
      cases found
    · intro second made _ prepared
      have relied' : contract.rely read made := by
        rcases prepared.moved with ⟨relied', _⟩ | ⟨_, moment, directory, name, before, located,
          free, _⟩
        · exact relied'
        · obtain ⟨node, found, _⟩ := (always moment before).contacts
          rw [node_of_vacant_unslashed ⟨directory, name, located, free⟩] at found
          cases found
      refine meets_then (meets_pathExists idle (paths.contactPath contactAlias)) ?_ ?_
      · rintro third looked found ⟨glanced, _, ⟨⟩, _, unseen⟩
        have standing := always looked (contract.rely_trans relied' glanced.relied)
        cases found with
        | true =>
            refine meets_then (meets_readProfile preserves idle standing.file) ?_ ?_
            · rintro fourth reread bytes ⟨_, same, _⟩
              rw [same bytes rfl, check_bind pinnedMade, if_neg distinct]
              exact fun later _ => ⟨nofun, fun _ _ => rfl⟩
            · rintro fourth reread stopped ⟨_, _, complete⟩ later _
              refine ⟨nofun, fun _ clean => ?_⟩
              cases complete (clean_append.1 (clean_append.1 (clean_append.1 clean).2).2).2
        | false =>
            have blind : ¬ Clean third := by
              intro clean
              obtain ⟨moment, before, _, nothing⟩ := unseen clean rfl
              obtain ⟨file, there, _⟩ := (always moment (contract.rely_trans relied' before)).file
              exact nothing _ (node_follow there (by simp))
            refine meets_then (meets_writeNewPrivate_filled idle ?_ _) ?_ ?_
            · intro moment before vacant
              obtain ⟨file, there, _⟩ := (standing.preserved (preserves _ _ before)).file
              rw [node_of_vacant vacant] at there
              cases there
            · intro fourth later _ never
              exact absurd rfl (never _)
            · intro fourth stored stopped _ later _
              refine ⟨nofun, fun _ clean => ?_⟩
              exact absurd (clean_append.1 (clean_append.1 (clean_append.1 clean).2).2).1 blind
      · rintro third looked stopped ⟨_, _, ⟨⟩, _⟩
    · intro second made stopped prepared later _
      refine ⟨nofun, fun _ clean => ?_⟩
      cases prepared.present (clean_append.1 clean).2 fun moment relied' =>
        (always moment relied').contacts
  · rintro first read stopped ⟨_, _, complete⟩ later _
    refine ⟨nofun, fun _ clean => ?_⟩
    cases complete clean

theorem meets_contact_late (valid : validateAlias contactAlias = true)
    (pinnedMade : PublicProfile.parse primitives pinned.encode = .ok pinned) :
    Storage.Meets caller contract
      (fun events _ result => (∀ contact, result = .ok contact → contact = ⟨contactAlias, pinned⟩) ∧
        (Clean events → result = .ok ⟨contactAlias, pinned⟩))
      (paths.contact primitives contactAlias) world :=
  meets_contact_stored preserves idle standing.file valid pinnedMade

end

end StatePaths

end Sealed
