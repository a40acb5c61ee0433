import Sealed.ConcurrentTrust
import Sealed.LoadProperties
import Sealed.LoneWrites

/-! When pinning a contact is all or nothing. The contact file is created under its final
name before its bytes are written and is never taken back, so that it depends on how far a
call came whether the store can still be read. -/

set_option autoImplicit false

namespace Sealed

open Foundation FileSystem Storage StatePaths

variable {primitives : Primitives} {caller : Nat} {root source : Path}
  {contactAlias : List UInt8} {fs : FileSystem}

theorem Storage.Looked.no_createNew {contract : Contract FileSystem} {world later : FileSystem}
    {events : List FileEvent} (looked : Looked contract world later events) :
    ∀ event ∈ events, ∀ path, event.request ≠ .createNew path := by
  intro event member path same
  have readOnly := looked.readOnly event member
  rw [same] at readOnly
  exact readOnly

/-! ## What a call leaves -/

namespace StatePaths

/-- What a call that meets no failure needs to pin the profile, or to find it pinned. -/
structure Ready (primitives : Primitives) (paths : StatePaths) (source : Path)
    (contactAlias : List UInt8) (profile : PublicProfile) (fs : FileSystem) : Prop where
  valid : validateAlias contactAlias = true
  made : PublicProfile.parse primitives profile.encode = .ok profile
  offer : Contains source profile.encode fs
  room : Vacant paths.contacts.unslashed fs ∨ IsType .directory paths.contacts fs ∧
    (Contains (paths.contactPath contactAlias) profile.encode fs ∨
      Vacant (paths.contactPath contactAlias) fs)

/-- The file system with the contacts directory, found or made. -/
def Prepares (paths : StatePaths) (fs base : FileSystem) : Prop :=
  base = fs ∨ Vacant paths.contacts.unslashed fs ∧ base = fs.withDirectory paths.contacts

/-- A contact file was created and some of its bytes were written. -/
structure Created (primitives : Primitives) (caller : Nat) (paths : StatePaths) (source : Path)
    (contactAlias : List UInt8) (profile : PublicProfile) (front : List UInt8)
    (fs base : FileSystem) (events : List FileEvent) (later : FileSystem)
    (result : Checked Error PublicProfile) : Prop where
  made : PublicProfile.parse primitives profile.encode = .ok profile
  valid : validateAlias contactAlias = true
  offer : Contains source profile.encode fs
  contacts : IsType .directory paths.contacts base
  vacant : Vacant (paths.contactPath contactAlias) base
  later : later = base.withFile caller (paths.contactPath contactAlias) front
  written : front <+: profile.encode
  count : moved events = front.length
  whole : ∀ pinned, result = .ok pinned → front = profile.encode
  ran : ∃ before after, events = before ++ after ∧
    (∀ event ∈ before, event.request ≠ .createNew (paths.contactPath contactAlias)) ∧
    Succeeded (.createNew (paths.contactPath contactAlias)) after ∧ RanThrough after result

/-- What a call does and says alone. -/
structure Imported (primitives : Primitives) (caller : Nat) (paths : StatePaths) (source : Path)
    (contactAlias : List UInt8) (fs : FileSystem) (events : List FileEvent)
    (later : FileSystem) (result : Checked Error PublicProfile) : Prop where
  sound : ∀ profile, Clean events → result = .ok profile →
    Ready primitives paths source contactAlias profile fs
  complete : ∀ profile, Clean events → Ready primitives paths source contactAlias profile fs →
    result = .ok profile
  leaves : ∃ base, Prepares paths fs base ∧
    ((¬ Succeeded (.createNew (paths.contactPath contactAlias)) events ∧ later = base) ∨
      ∃ profile front, Created primitives caller paths source contactAlias profile front fs base
        events later result)

variable {paths : StatePaths}

theorem Ready.unique {first second : PublicProfile}
    (left : Ready primitives paths source contactAlias first fs)
    (right : Ready primitives paths source contactAlias second fs) : first = second := by
  have made := left.made
  rw [left.offer.unique right.offer, right.made] at made
  exact (Except.ok.inj made).symm

theorem Imported.stopped {later : FileSystem} {events : List FileEvent} {stopped : Abort Error}
    (prepares : Prepares paths fs later)
    (never : ¬ Succeeded (.createNew (paths.contactPath contactAlias)) events)
    (refused : Clean events → ∀ profile,
      ¬ Ready primitives paths source contactAlias profile fs) :
    Imported primitives caller paths source contactAlias fs events later (.error stopped) where
  sound := nofun
  complete := fun profile clean ready => absurd ready (refused clean profile)
  leaves := ⟨later, prepares, .inl ⟨never, rfl⟩⟩

theorem idle_free (moment : FileSystem) : free.guarantee moment moment := trivial

theorem meets_prepare (paths : StatePaths) (fs : FileSystem) :
    Storage.Meets caller free
      (fun events later result => (∀ event ∈ events, ∀ path, event.request ≠ .createNew path) ∧
        moved events = 0 ∧ Prepares paths fs later ∧
        (result = .ok () → IsType .directory paths.contacts later) ∧
        (Clean events → Vacant paths.contacts.unslashed fs ∨ IsType .directory paths.contacts fs →
          result = .ok ()))
      (createPrivateDirectory paths.contacts) fs := by
  refine (meets_createPrivateDirectory idle_free (by rintro _ _ rfl; exact .refl _)
    fun _ _ _ _ _ _ => trivial).consequence ?_
  intro events later result prepared
  refine ⟨?_, ?_, ?_, prepared.directory, ?_⟩
  · intro event member path same
    rcases prepared.requests event member with readOnly | request
    · rw [same] at readOnly
      exact readOnly
    · cases same.symm.trans request
  · apply moved_eq_zero
    intro event member
    left
    intro file bytes same
    rcases prepared.requests event member with readOnly | request
    · rw [same] at readOnly
      exact readOnly
    · cases same.symm.trans request
  · rcases prepared.moved with ⟨relied, _⟩ | ⟨_, moment, directory, name, relied, located, free',
      relied'⟩
    · exact .inl relied.symm
    · cases relied
      cases relied'
      refine .inr ⟨⟨directory, name, located, free'⟩, ?_⟩
      rcases fs.withDirectory_cases paths.contacts with ⟨_, _, located', _, same⟩ | ⟨filled, _⟩
      · cases located.symm.trans located'
        exact same.symm
      · exact absurd ⟨directory, name, located, free'⟩ filled
  · rintro clean (vacant | there)
    · exact prepared.missing clean (by rintro _ rfl; exact vacant)
    · exact prepared.present clean (by rintro _ rfl; exact there)

theorem meets_pin {profile : PublicProfile}
    (made : PublicProfile.parse primitives profile.encode = .ok profile)
    (parent : IsType .directory (parentOrHere (paths.contactPath contactAlias)) fs) :
    Storage.Meets caller free
      (fun events later result =>
        (Clean events → ∀ pinned, result = .ok pinned → pinned = profile ∧
          (Contains (paths.contactPath contactAlias) profile.encode fs ∨
            Vacant (paths.contactPath contactAlias) fs)) ∧
        (Clean events → Contains (paths.contactPath contactAlias) profile.encode fs ∨
          Vacant (paths.contactPath contactAlias) fs → result = .ok profile) ∧
        ((¬ Succeeded (.createNew (paths.contactPath contactAlias)) events ∧ later = fs) ∨
          Vacant (paths.contactPath contactAlias) fs ∧ ∃ front,
            later = fs.withFile caller (paths.contactPath contactAlias) front ∧
            front <+: profile.encode ∧ moved events = front.length ∧
            (∀ pinned, result = .ok pinned → front = profile.encode) ∧
            ∃ before after, events = before ++ after ∧
              (∀ event ∈ before,
                event.request ≠ .createNew (paths.contactPath contactAlias)) ∧
              Succeeded (.createNew (paths.contactPath contactAlias)) after ∧
              RanThrough after result))
      (do
        if ← pathExists (paths.contactPath contactAlias) then
          let pinned ← check (PublicProfile.parse primitives
            (← readRegularLimited (paths.contactPath contactAlias) 512))
          if pinned = profile then return profile
          else check (.err .identityMismatch)
        else
          writeNewPrivate (paths.contactPath contactAlias) profile.encode
          return profile) fs := by
  refine meets_then (meets_pathExists idle_free (paths.contactPath contactAlias)) ?_ ?_
  · rintro first _ found ⟨looked, _, ⟨⟩, seen, unseen⟩
    cases looked.relied
    have notYet := looked.not_succeeded (.createNew (paths.contactPath contactAlias)) id
    cases found with
    | true =>
        obtain ⟨_, rfl, _, node, there⟩ := seen rfl
        have filled : ¬ Vacant (paths.contactPath contactAlias) fs := by
          intro vacant
          rw [node_of_vacant vacant] at there
          cases there
        refine meets_then (meets_readLooking _ 512) ?_ ?_
        · rintro second _ bytes ⟨looked', sound, complete⟩
          cases looked'.relied
          have never : ∀ more, more = [] → ¬ Succeeded
              (.createNew (paths.contactPath contactAlias)) (first ++ (second ++ more)) := by
            rintro _ rfl
            rw [succeeded_append, succeeded_append, not_or, not_or]
            exact ⟨notYet, looked'.not_succeeded _ id, by rintro ⟨_, ⟨⟩, _⟩⟩
          have whole : Clean second →
              Contains (paths.contactPath contactAlias) profile.encode fs →
                bytes = profile.encode := fun clean contained =>
            Except.ok.inj (complete clean _ contained (by
              rw [PublicProfile.length_encode]
              decide))
          cases parsed : PublicProfile.parse primitives bytes with
          | error stopped =>
              rintro _ rfl
              refine ⟨fun _ => nofun, ?_, .inl ⟨never [] rfl, rfl⟩⟩
              rintro clean (contained | vacant)
              · rw [whole (clean_append.1 (clean_append.1 clean).2).1 contained, made] at parsed
                cases parsed
              · exact absurd vacant filled
          | ok pinned =>
              obtain ⟨_, rfl⟩ := PublicProfile.parse_eq_ok_iff.1 parsed
              by_cases same : pinned = profile
              · subst same
                rw [check_ok_bind, if_pos rfl]
                rintro _ rfl
                exact ⟨fun _ _ ok => ⟨(Except.ok.inj ok).symm, .inl (sound _ rfl)⟩, fun _ _ => rfl,
                  .inl ⟨never [] rfl, rfl⟩⟩
              · rw [check_ok_bind, if_neg same]
                rintro _ rfl
                refine ⟨fun _ => nofun, ?_, .inl ⟨never [] rfl, rfl⟩⟩
                rintro clean (contained | vacant)
                · rw [whole (clean_append.1 (clean_append.1 clean).2).1 contained, made] at parsed
                  exact absurd (Except.ok.inj parsed).symm same
                · exact absurd vacant filled
        · rintro second _ stopped ⟨looked', _, complete⟩ _ rfl
          cases looked'.relied
          refine ⟨fun _ => nofun, ?_, .inl ⟨?_, rfl⟩⟩
          · rintro clean (contained | vacant)
            · cases complete (clean_append.1 clean).2 _ contained (by
                rw [PublicProfile.length_encode]
                decide)
            · exact absurd vacant filled
          · rw [succeeded_append, not_or]
            exact ⟨notYet, looked'.not_succeeded _ id⟩
    | false =>
        have missing : Clean first →
            ¬ Contains (paths.contactPath contactAlias) profile.encode fs := by
          rintro clean ⟨file, there, _⟩
          obtain ⟨_, rfl, _, nothing⟩ := unseen clean rfl
          exact nothing _ (node_follow there (by simp))
        refine meets_then (meets_writeNewPrivate_alone _ profile.encode) ?_ ?_
        · rintro second _ _ ⟨written, front, prefixed, count, whole, ⟨never, _⟩ | stored⟩ _ rfl
          · rcases written.moved with ⟨_, _, _, ⟨⟩⟩ | ⟨succeeded, _⟩
            exact absurd succeeded never
          · obtain ⟨succeeded, vacant, rfl⟩ := stored
            refine ⟨fun _ _ ok => ⟨(Except.ok.inj ok).symm, .inr vacant⟩, fun _ _ => rfl,
              .inr ⟨vacant, front, rfl, prefixed, ?_, fun _ _ => whole rfl, first, second, ?_, ?_,
                succeeded, written.ran (.inl succeeded)⟩⟩
            · rw [moved_append, moved_append, looked.moved, count]
              simp
            · rw [List.append_nil]
            · exact fun event member => looked.no_createNew event member _
        · rintro second _ stopped ⟨written, front, prefixed, count, _, stored⟩ _ rfl
          refine ⟨fun _ => nofun, ?_, ?_⟩
          · rintro clean (contained | vacant)
            · exact absurd contained (missing (clean_append.1 clean).1)
            · cases written.clean (clean_append.1 clean).2 (by
                rintro _ rfl
                exact ⟨parent, vacant⟩)
          · rcases stored with ⟨never, rfl, _⟩ | ⟨succeeded, vacant, rfl⟩
            · refine .inl ⟨?_, rfl⟩
              rw [succeeded_append, not_or]
              exact ⟨notYet, never⟩
            · refine .inr ⟨vacant, front, rfl, prefixed, ?_, fun _ => nofun, first, second, rfl, ?_,
                succeeded, written.ran (.inl succeeded)⟩
              · rw [moved_append, looked.moved, count, Nat.zero_add]
              · exact fun event member => looked.no_createNew event member _
  · rintro first _ stopped ⟨_, _, ⟨⟩, _⟩

/-- Where the contacts were missing, the contact file is missing in the new directory. -/
theorem Prepares.vacant {base : FileSystem} (prepares : Prepares paths fs base)
    (missing : Vacant paths.contacts.unslashed fs) (there : IsType .directory paths.contacts base)
    (name : Name) : Vacant (paths.contacts.join name) base := by
  rcases prepares with rfl | ⟨_, rfl⟩
  · obtain ⟨node, found, _⟩ := there
    rw [node_of_vacant_unslashed missing] at found
    cases found
  · rcases fs.withDirectory_cases paths.contacts with ⟨_, _, located, free', same⟩ | ⟨filled, _⟩
    · rw [same]
      exact vacant_join_createDirectory located free' name
    · exact absurd missing filled

theorem Prepares.eq_of_isType {base : FileSystem} (prepares : Prepares paths fs base)
    (there : IsType .directory paths.contacts fs) : base = fs := by
  rcases prepares with same | ⟨missing, _⟩
  · exact same
  · obtain ⟨node, found, _⟩ := there
    rw [node_of_vacant_unslashed missing] at found
    cases found

theorem meets_trustProfile_alone (fs : FileSystem) :
    Storage.Meets caller free
      (Imported primitives caller (fromRoot root) source contactAlias fs)
      ((fromRoot root).trustProfile primitives source contactAlias) fs := by
  unfold trustProfile
  by_cases valid : validateAlias contactAlias = true
  case neg =>
    rw [Checked.reject_of valid]
    rintro _ rfl
    exact .stopped (.inl rfl) (by rintro ⟨_, ⟨⟩, _⟩) fun _ _ ready => valid ready.valid
  rw [check_bind (Checked.reject_of_not (not_not.2 valid))]
  refine meets_then (meets_readLooking source 512) ?_ ?_
  · rintro first _ bytes ⟨looked, sound, _⟩
    cases looked.relied
    have source' := sound bytes rfl
    cases parsed : PublicProfile.parse primitives bytes with
    | error stopped =>
        rintro _ rfl
        rw [List.append_nil]
        refine .stopped (.inl rfl) (looked.not_succeeded _ id) fun _ profile ready => ?_
        rw [source'.unique ready.offer, ready.made] at parsed
        cases parsed
    | ok profile =>
        obtain ⟨_, rfl⟩ := PublicProfile.parse_eq_ok_iff.1 parsed
        rw [check_ok_bind]
        refine meets_then (meets_prepare (fromRoot root) fs) ?_ ?_
        · rintro second base _ ⟨others, none, prepares, contacts, _⟩
          have there := contacts rfl
          refine (meets_pin parsed ?_).consequence ?_
          · rw [contactPath, show (fromRoot root).contacts = root.join (ascii "contacts") from rfl,
              parentOrHere_join_join]
            exact there
          rintro third later result ⟨pins, stands, leaves⟩
          have notYet : ∀ event ∈ first ++ second,
              event.request ≠ .createNew ((fromRoot root).contactPath contactAlias) := by
            intro event member
            rcases List.mem_append.1 member with member | member
            · exact looked.no_createNew event member _
            · exact others event member _
          refine ⟨?_, ?_, base, prepares, ?_⟩
          · intro pinned clean ok
            obtain ⟨rfl, room⟩ := pins (clean_append.1 (clean_append.1 clean).2).2 pinned ok
            refine ⟨valid, parsed, source', ?_⟩
            rcases prepares with rfl | ⟨missing, _⟩
            · exact .inr ⟨there, room⟩
            · exact .inl missing
          · intro pinned clean ready
            have same : pinned = profile := by
              have made := ready.made
              rw [ready.offer.unique source', parsed] at made
              exact (Except.ok.inj made).symm
            subst same
            refine stands (clean_append.1 (clean_append.1 clean).2).2 ?_
            rcases ready.room with missing | ⟨standing, room⟩
            · exact .inr (prepares.vacant missing there _)
            · rw [prepares.eq_of_isType standing]
              exact room
          · rcases leaves with ⟨never, rfl⟩ | ⟨vacant, front, rfl, prefixed, count, whole, before,
              after, rfl, early, succeeded, ran⟩
            · refine .inl ⟨?_, rfl⟩
              rw [← List.append_assoc, succeeded_append, not_or]
              refine ⟨?_, never⟩
              rintro ⟨event, member, request, _⟩
              exact notYet event member request
            · refine .inr ⟨profile, front, parsed, valid, source', there, vacant, rfl, prefixed, ?_,
                whole, first ++ (second ++ before), after, by simp, ?_, succeeded, ran⟩
              · rw [moved_append, moved_append, looked.moved, none, count]
                simp
              · intro event member
                rw [← List.append_assoc] at member
                rcases List.mem_append.1 member with member | member
                · exact notYet event member
                · exact early event member
        · rintro second base stopped ⟨others, _, prepares, _, prepared⟩ _ rfl
          refine .stopped prepares ?_ fun clean profile' ready => ?_
          · rw [succeeded_append, not_or]
            refine ⟨looked.not_succeeded _ id, ?_⟩
            rintro ⟨event, member, request, _⟩
            exact others event member _ request
          · cases prepared (clean_append.1 clean).2 (ready.room.imp_right And.left)
  · rintro first _ stopped ⟨looked, _, complete⟩ _ rfl
    cases looked.relied
    refine .stopped (.inl rfl) (looked.not_succeeded _ id) fun clean profile ready => ?_
    cases complete clean _ ready.offer (by
      rw [PublicProfile.length_encode]
      decide)

/-! ## The listing after a call -/

section

variable {base : FileSystem} {id : Nat} {front : List UInt8} {old : List Contact}

theorem directories_withFile {path : Path} {bytes : List UInt8} {directory : Nat} {name : Name}
    (located : fs.locate false path = .ok (.slot directory name))
    (free' : fs.lookup directory name = none) :
    (fs.withFile caller path bytes).directories =
      fs.enter directory name (.file fs.nextFile) := by
  obtain ⟨_, _, located', _, same⟩ :=
    withFile_of_vacant caller ⟨directory, name, located, free'⟩ bytes
  cases located.symm.trans located'
  rw [same]
  unfold FileSystem.append FileSystem.createFile
  simp only [dif_pos (slot_lt located)]
  split <;> rfl

theorem Prepares.contactsAt {paths : StatePaths} (prepares : Prepares paths fs base)
    (listed : StatePaths.contactsAt primitives paths fs = some old) :
    StatePaths.contactsAt primitives paths base = some old := by
  rcases prepares with rfl | ⟨missing, rfl⟩
  · exact listed
  · have none : old = [] := by
      unfold StatePaths.contactsAt at listed
      rw [node_of_vacant_unslashed missing] at listed
      exact (Option.some.inj listed).symm
    rcases fs.withDirectory_cases paths.contacts with
      ⟨directory, name, located, free', same⟩ | ⟨filled, _⟩
    · have empty : ((fs.createDirectory directory name).directories fs.nextDirectory).keys = [] := by
        rw [List.eq_nil_iff_forall_not_mem]
        intro other member
        obtain ⟨node, entry⟩ := Option.isSome_iff_exists.1 (AList.lookup_isSome.2 member)
        cases (lookup_nextDirectory (slot_lt located) other).symm.trans entry
      have names : contactNames [] = [] := by simp [contactNames]
      rw [same, contactsAt_directory (node_createDirectory located free'), empty, names, none]
      rfl
    · exact absurd missing filled

variable (real : base.node false paths.contacts = .ok (.directory id))
  (vacant : Vacant (paths.contactPath contactAlias) base)
include real vacant

theorem locate_contactPath :
    base.locate false (paths.contactPath contactAlias) =
        .ok (.slot id (contactAlias ++ ascii ".contact")) ∧
      base.lookup id (contactAlias ++ ascii ".contact") = none := by
  have place : base.locate false (paths.contactPath contactAlias) =
      .ok (.slot id (contactAlias ++ ascii ".contact")) :=
    locate_join (node_follow real (by simp)) (by simp)
  obtain ⟨_, _, located, free'⟩ := vacant
  cases place.symm.trans located
  exact ⟨place, free'⟩

/-- The new file is found under its alias as far as its bytes are a profile, and the other
aliases are found as before. -/
theorem contactAt_withFile (other : List UInt8) (contact : Contact) :
    contactAt primitives paths (base.withFile caller (paths.contactPath contactAlias) front)
        other = some contact ↔
      if other = contactAlias then
        validateAlias contactAlias = true ∧ contact.alias = contactAlias ∧
          PublicProfile.parse primitives front = .ok contact.profile
      else contactAt primitives paths base other = some contact := by
  obtain ⟨located, free'⟩ := locate_contactPath real vacant
  obtain ⟨_, _, located', _, same⟩ := withFile_of_vacant caller vacant front
  cases located.symm.trans located'
  have inside := slot_lt located
  have extended := @extends_withFile caller _ _ vacant front
  have there := node_follow (extended.node_directory real) (by simp)
  have lookup : ∀ name, (base.withFile caller (paths.contactPath contactAlias) front).lookup id name =
      if name = contactAlias ++ ascii ".contact" then some (.file base.nextFile)
      else base.lookup id name := by
    intro name
    rw [same, lookup_append, lookup_createFile inside]
    simp
  have contents : ∀ file, (base.withFile caller (paths.contactPath contactAlias) front).contents file =
      if file = base.nextFile then front else base.contents file := by
    intro file
    rw [same, contents_append, nextFile_createFile inside, contents_createFile,
      (base.unusedFiles _ (Nat.le_refl _)).1]
    simp
  rw [contactAt_eq_some_iff_lookup there]
  split
  · rename_i same'
    subst same'
    rw [lookup, if_pos rfl]
    constructor
    · rintro ⟨valid, alias', _, ⟨⟩, parsed⟩
      rw [contents, if_pos rfl] at parsed
      exact ⟨valid, alias', parsed⟩
    · rintro ⟨valid, alias', parsed⟩
      refine ⟨valid, alias', _, rfl, ?_⟩
      rw [contents, if_pos rfl]
      exact parsed
  · rename_i distinct
    rw [contactAt_eq_some_iff_lookup (node_follow real (by simp)), lookup,
      if_neg fun names => distinct (List.append_cancel_right names)]
    constructor
    · rintro ⟨valid, alias', file, entry, parsed⟩
      rw [contents, if_neg (Nat.ne_of_lt (base.filesExist _ _ _ entry))] at parsed
      exact ⟨valid, alias', file, entry, parsed⟩
    · rintro ⟨valid, alias', file, entry, parsed⟩
      refine ⟨valid, alias', file, entry, ?_⟩
      rw [contents, if_neg (Nat.ne_of_lt (base.filesExist _ _ _ entry))]
      exact parsed

theorem contactNames_withFile (valid : validateAlias contactAlias = true) :
    ∃ before after, contactNames (base.directories id).keys = before ++ after ∧
      contactNames ((base.withFile caller (paths.contactPath contactAlias) front).directories
        id).keys = before ++ (contactAlias ++ ascii ".contact") :: after := by
  obtain ⟨located, free'⟩ := locate_contactPath real vacant
  have absent : contactAlias ++ ascii ".contact" ∉ (base.directories id).keys := by
    intro member
    obtain ⟨node, entry⟩ := Option.isSome_iff_exists.1 (AList.lookup_isSome.2 member)
    cases free'.symm.trans entry
  have keys : ((base.withFile caller (paths.contactPath contactAlias) front).directories id).keys =
      (contactAlias ++ ascii ".contact") :: (base.directories id).keys := by
    rw [directories_withFile located free', enter, Function.update_self, AList.keys,
      AList.entries_insert_of_notMem absent]
    rfl
  have extended : extension (contactAlias ++ ascii ".contact") = some (ascii "contact") :=
    congrArg Prod.snd (splitAtDot_contact valid)
  rw [keys]
  unfold contactNames
  rw [List.filter_cons_of_pos (by simpa using extended)]
  obtain ⟨before, after, whole, parts, _⟩ := @List.mergeSort_cons _
    (fun left right : Name => decide (left ≤ right))
    (by simpa using fun _ _ _ => List.le_trans) (by simpa using List.le_total)
    (contactAlias ++ ascii ".contact") ((base.directories id).keys.filter fun name =>
      extension name = some (ascii "contact"))
  exact ⟨before, after, parts, whole⟩

theorem contactsAt_withFile (valid : validateAlias contactAlias = true)
    (listed : contactsAt primitives paths base = some old) :
    ∃ first last, old = first ++ last ∧ ∀ contacts,
      contactsAt primitives paths (base.withFile caller (paths.contactPath contactAlias) front) =
          some contacts ↔
        ∃ contact, contact.alias = contactAlias ∧
          PublicProfile.parse primitives front = .ok contact.profile ∧
          contacts = first ++ contact :: last := by
  obtain ⟨located, free'⟩ := locate_contactPath real vacant
  obtain ⟨before, after, parts, whole⟩ := @contactNames_withFile caller _ _ _ _ front real vacant valid
  let later := base.withFile caller (paths.contactPath contactAlias) front
  have others : ∀ name ∈ before ++ after,
      contactAt primitives paths later (fileStem name) =
        contactAt primitives paths base (fileStem name) := by
    intro name member
    rw [← parts] at member
    obtain ⟨key, extended⟩ := mem_contactNames.1 member
    have distinct : fileStem name ≠ contactAlias := by
      rintro rfl
      rw [← name_of_extension extended] at free'
      obtain ⟨node, entry⟩ := Option.isSome_iff_exists.1 (AList.lookup_isSome.2 key)
      cases free'.symm.trans entry
    apply Option.ext
    intro contact
    rw [contactAt_withFile real vacant, if_neg distinct]
  have stem : fileStem (contactAlias ++ ascii ".contact") = contactAlias :=
    congrArg Prod.fst (splitAtDot_contact valid)
  rw [contactsAt_directory real, mapM_eq_some_iff, parts, List.map_append] at listed
  obtain ⟨first, last, rfl, early, late⟩ := List.append_eq_map_iff.1 listed
  refine ⟨first, last, rfl, fun contacts => ?_⟩
  have real' : later.node false paths.contacts = .ok (.directory id) :=
    (@extends_withFile caller _ _ vacant front).node_directory real
  have mapped : (before ++ (contactAlias ++ ascii ".contact") :: after).map
      (fun name => contactAt primitives paths later (fileStem name)) =
        first.map some ++ contactAt primitives paths later contactAlias :: last.map some := by
    rw [List.map_append, List.map_cons, stem, early, late]
    congr 1
    · exact List.map_congr_left fun name member => others name (List.mem_append_left _ member)
    · congr 1
      exact List.map_congr_left fun name member => others name (List.mem_append_right _ member)
  rw [contactsAt_directory real', mapM_eq_some_iff, whole, mapped]
  have found : ∀ contact, contactAt primitives paths later contactAlias = some contact ↔
      contact.alias = contactAlias ∧
        PublicProfile.parse primitives front = .ok contact.profile := by
    intro contact
    rw [contactAt_withFile real vacant, if_pos rfl]
    exact and_iff_right valid
  constructor
  · intro same
    cases read : contactAt primitives paths later contactAlias with
    | none =>
        have member : none ∈ contacts.map some := by
          rw [← same, read]
          exact List.mem_append_right _ List.mem_cons_self
        obtain ⟨_, _, ⟨⟩⟩ := List.mem_map.1 member
    | some contact =>
        obtain ⟨alias', parsed⟩ := (found contact).1 read
        refine ⟨contact, alias', parsed, ?_⟩
        rw [read, ← List.map_cons, ← List.map_append] at same
        have wrapped : Function.Injective (some : Contact → _) := fun _ _ => Option.some.inj
        exact (List.map_injective_iff.2 wrapped same).symm
  · rintro ⟨contact, alias', parsed, rfl⟩
    rw [(found contact).2 ⟨alias', parsed⟩, List.map_append, List.map_cons]

end

/-! ## Another try -/

section

variable {base : FileSystem} {profile : PublicProfile}

theorem Prepares.preserved (prepares : Prepares paths fs base) : Preserved fs base := by
  rcases prepares with rfl | ⟨missing, rfl⟩
  · exact .refl base
  · rcases fs.withDirectory_cases paths.contacts with
      ⟨directory, name, located, free', same⟩ | ⟨filled, _⟩
    · rw [same]
      exact Pins.preserved (@Pins.createDirectory paths [] 0 fs directory name located free')
    · exact absurd missing filled

/-- Once the directory is made, another try needs no more than the first one. -/
theorem Ready.prepared (ready : Ready primitives paths source contactAlias profile fs)
    (prepares : Prepares paths fs base) :
    Ready primitives paths source contactAlias profile base := by
  refine ⟨ready.valid, ready.made, prepares.preserved.contains ready.offer, ?_⟩
  rcases ready.room with missing | ⟨there, room⟩
  · rcases prepares with rfl | ⟨_, rfl⟩
    · exact .inl missing
    · rcases fs.withDirectory_cases paths.contacts with
        ⟨directory, name, located, free', same⟩ | ⟨filled, _⟩
      · rw [same]
        exact .inr ⟨⟨_, node_createDirectory located free', rfl⟩,
          .inr (vacant_join_createDirectory located free' _)⟩
      · exact absurd missing filled
  · rw [prepares.eq_of_isType there]
    exact .inr ⟨there, room⟩

/-- Once the whole profile is written, another try finds it. -/
theorem Ready.of_created {front : List UInt8} {events : List FileEvent} {later : FileSystem}
    {result : Checked Error PublicProfile} (prepares : Prepares paths fs base)
    (created : Created primitives caller paths source contactAlias profile front fs base events
      later result) (whole : front = profile.encode) :
    Ready primitives paths source contactAlias profile later := by
  subst whole
  obtain ⟨directory, name, located, free', same⟩ :=
    withFile_of_vacant caller created.vacant profile.encode
  have empty : (base.createFile caller directory name).contents base.nextFile = [] := by
    rw [contents_createFile]
    exact (base.unusedFiles _ (Nat.le_refl _)).1
  have preserved : Preserved base later := by
    rw [created.later, same]
    have made := @Pins.createFile paths contactAlias caller base directory name located free'
    have filled := @Pins.append paths contactAlias caller _ base.nextFile profile.encode profile
      (holding_createFile caller located free') (by rw [empty]; exact List.prefix_refl _)
    exact made.preserved.trans filled.preserved
  refine ⟨created.valid, created.made, ?_, .inr ⟨created.contacts.extends preserved.extended, ?_⟩⟩
  · exact (prepares.preserved.trans preserved).contains created.offer
  · rw [created.later]
    exact .inl (keeping_withFile created.vacant profile.encode).contains

end

end StatePaths

/-! ## All or nothing -/

theorem quiet_trustProfile (fs : FileSystem) {result : Checked Error PublicProfile}
    (yields : Yields ((fromRoot root).trustProfile primitives source contactAlias) fs result)
    (profile : PublicProfile) :
    result = .ok profile ↔
      Ready primitives (fromRoot root) source contactAlias profile fs := by
  obtain ⟨caller, outcomes, quiet, finished⟩ := yields
  have imported := runAlone_meets (meets_trustProfile_alone fs) finished
  exact ⟨imported.sound profile (clean_runAlone quiet),
    imported.complete profile (clean_runAlone quiet)⟩

/-- What a call that stopped anywhere leaves of the store. -/
structure AtomicTrust (primitives : Primitives) (root source : Path) (contactAlias : List UInt8)
    (old : List Contact) (before after : FileSystem)
    (result : Option (Checked Error PublicProfile)) : Prop where
  listed : ∃ contacts, Returns ((fromRoot root).allContacts primitives) after contacts ∧
    (contacts = old ∨ ∃ profile first last, Contains source profile.encode before ∧
      old = first ++ last ∧ contacts = first ++ ⟨contactAlias, profile⟩ :: last)
  refused : ∀ stopped, result = some (.error stopped) →
    Returns ((fromRoot root).allContacts primitives) after old
  retry : (∃ profile, Yields ((fromRoot root).trustProfile primitives source contactAlias) before
      (.ok profile)) →
    ∀ again, Yields ((fromRoot root).trustProfile primitives source contactAlias) after again →
      ∃ profile, again = .ok profile

theorem Storage.FailedAfter.behind {request : FileCall} {events : List FileEvent}
    (failed : FailedAfter request events) (front : List FileEvent) :
    FailedAfter request (front ++ events) := by
  obtain ⟨before, event, after, rfl, same, answered, unanswered⟩ := failed
  exact ⟨front ++ before, event, after, (List.append_assoc _ _ _).symm, same, answered, unanswered⟩

/-- A function that ran from the creation of a file until a call went unanswered met no
failure before that call. -/
theorem not_failedAfter {α : Type} {request : FileCall} {events more before after : List FileEvent}
    {result : Checked Error α} (whole : events ++ more = before ++ after)
    (early : ∀ event ∈ before, event.request ≠ request) (ran : RanThrough after result)
    (open' : more ≠ [] ∨ ∃ value, result = .ok value) : ¬ FailedAfter request events := by
  rintro ⟨front, event, back, rfl, same, _, failed, member, unanswered⟩
  rw [List.append_assoc, List.cons_append] at whole
  obtain ⟨middle, rest⟩ : ∃ middle, after = middle ++ back ++ more := by
    rcases List.append_eq_append_iff.1 whole with ⟨middle, rfl, rest⟩ | ⟨middle, rfl, rest⟩
    · cases middle with
      | nil => exact ⟨[event], rest.symm⟩
      | cons first others =>
          obtain ⟨rfl, _⟩ := List.cons.inj rest
          exact absurd same (early event (List.mem_append_right _ List.mem_cons_self))
    · exact ⟨middle ++ [event], by rw [rest]; simp⟩
  cases result with
  | ok value =>
      refine unanswered (ran failed ?_)
      rw [rest]
      exact List.mem_append_left _ (List.mem_append_right _ member)
  | error stopped =>
      obtain ⟨answered, last, split, all, _⟩ := ran
      have filled : more ≠ [] := by
        rcases open' with filled | ⟨_, ⟨⟩⟩
        exact filled
      rw [rest, ← List.dropLast_append_getLast filled, ← List.append_assoc] at split
      have same := (List.append_inj' split rfl).1
      apply unanswered
      apply all
      rw [← same]
      exact List.mem_append_left _ (List.mem_append_right _ member)

/-- Pinning is atomic exactly where no call fails after the contact file was created, and the
process does not die before all its bytes are written. -/
theorem StatePaths.trustProfile_atomic_iff (primitives : Primitives) (caller : Nat)
    (root source : Path) (contactAlias : List UInt8) (old : List Contact) (fs : FileSystem)
    (outcomes : List Outcome)
    (readable : Returns ((fromRoot root).allContacts primitives) fs old) :
    let run := runAlone caller ((fromRoot root).trustProfile primitives source contactAlias) fs
      outcomes
    let creation := FileCall.createNew ((fromRoot root).contactPath contactAlias)
    AtomicTrust primitives root source contactAlias old fs run.2.1 run.1 ↔
      ¬ FailedAfter creation run.2.2 ∧
        (Succeeded creation run.2.2 → ∀ profile : PublicProfile,
          Contains source profile.encode fs → moved run.2.2 = profile.encode.length) := by
  intro run creation
  have lists : ∀ world contacts, Returns ((fromRoot root).allContacts primitives) world contacts ↔
      contactsAt primitives (fromRoot root) world = some contacts := fun world contacts =>
    returns_iff fun _ => reads_allContacts fun _ => rfl
  rw [lists] at readable
  obtain ⟨rest, result, more, finished, unanswered, ended⟩ := @runAlone_finish caller _
    ((fromRoot root).trustProfile primitives source contactAlias) fs outcomes
  have imported := runAlone_meets (meets_trustProfile_alone fs) (congrArg Prod.fst finished)
  rw [finished] at imported
  change Imported primitives caller (fromRoot root) source contactAlias fs (run.2.2 ++ more) run.2.1
    result at imported
  have none : ∀ request, ¬ Succeeded request more := by
    rintro request ⟨event, member, _, answered⟩
    exact unanswered event member answered
  have counted : moved (run.2.2 ++ more) = moved run.2.2 := by
    rw [moved_append, moved_eq_zero fun event member => .inr (unanswered event member)]
    rfl
  -- What another call needs is there again, once it is there at all.
  have retry : (∀ profile, Ready primitives (fromRoot root) source contactAlias profile fs →
      Ready primitives (fromRoot root) source contactAlias profile run.2.1) →
      (∃ profile, Yields ((fromRoot root).trustProfile primitives source contactAlias) fs
        (.ok profile)) →
      ∀ again, Yields ((fromRoot root).trustProfile primitives source contactAlias) run.2.1 again →
        ∃ profile, again = .ok profile := by
    rintro kept ⟨profile, first⟩ again yields
    exact ⟨profile, (quiet_trustProfile _ yields profile).2
      (kept profile ((quiet_trustProfile _ first profile).1 rfl))⟩
  obtain ⟨base, prepares, ⟨never, later⟩ | ⟨profile, front, created⟩⟩ := imported.leaves
  · have quiet : ¬ Succeeded creation run.2.2 := fun succeeded =>
      never (succeeded_append.2 (.inl succeeded))
    have listed := prepares.contactsAt readable
    rw [← later, ← lists] at listed
    constructor
    · intro _
      refine ⟨?_, fun succeeded => absurd succeeded quiet⟩
      rintro ⟨before, event, after, split, request, answered, _⟩
      exact quiet ⟨event, by simp [split], request, answered⟩
    · intro _
      exact ⟨⟨old, listed, .inl rfl⟩, fun _ _ => listed,
        retry fun profile ready => later ▸ ready.prepared prepares⟩
  · have offer := created.offer
    obtain ⟨before, after, split, early, succeeded, ran⟩ := created.ran
    obtain ⟨id, real⟩ := created.contacts.directory
    obtain ⟨first, last, rfl, listing⟩ := @contactsAt_withFile primitives caller contactAlias _ base
      id front old real created.vacant created.valid (prepares.contactsAt readable)
    rw [← created.later] at listing
    have whole : ∀ contact : Contact, PublicProfile.parse primitives front = .ok contact.profile →
        contact.profile = profile ∧ front = profile.encode := by
      intro contact parsed
      obtain ⟨_, rfl⟩ := PublicProfile.parse_eq_ok_iff.1 parsed
      have same : contact.profile.encode = profile.encode := created.written.eq_of_length (by
        rw [PublicProfile.length_encode, PublicProfile.length_encode])
      have made := created.made
      rw [← same, parsed] at made
      exact ⟨Except.ok.inj made, same⟩
    have done : Succeeded creation run.2.2 := by
      have total : Succeeded creation (run.2.2 ++ more) := by
        rw [split]
        exact succeeded_append.2 (.inr succeeded)
      exact (succeeded_append.1 total).resolve_right (none creation)
    constructor
    · intro atomic
      obtain ⟨contacts, listed, _⟩ := atomic.listed
      obtain ⟨contact, _, parsed, _⟩ := (listing contacts).1 ((lists _ _).1 listed)
      refine ⟨?_, fun _ offered offer' => ?_⟩
      · refine not_failedAfter split early ran ?_
        rcases ended with ⟨returned, rfl⟩ | ⟨_, filled⟩
        · cases result with
          | ok value => exact .inr ⟨value, rfl⟩
          | error stopped =>
              obtain ⟨contact, _, _, same⟩ :=
                (listing _).1 ((lists _ _).1 (atomic.refused stopped returned))
              have length := congrArg List.length same
              simp only [List.length_append, List.length_cons] at length
              omega
        · exact .inl filled
      · rw [← counted, created.count, (whole contact parsed).2, offer.unique offer']
    · rintro ⟨unfailed, moves⟩
      have complete : front = profile.encode := created.written.eq_of_length (by
        rw [← created.count, counted]
        exact moves done profile offer)
      have listed : contactsAt primitives (fromRoot root) run.2.1 =
          some (first ++ ⟨contactAlias, profile⟩ :: last) :=
        (listing _).2 ⟨⟨contactAlias, profile⟩, rfl, complete ▸ created.made, rfl⟩
      refine ⟨⟨_, (lists _ _).2 listed, .inr ⟨profile, first, last, offer, rfl, rfl⟩⟩, ?_, ?_⟩
      · intro stopped returned
        rcases ended with ⟨returned', rfl⟩ | ⟨died, _⟩
        · cases returned.symm.trans returned'
          rw [List.append_nil] at split
          have failed := @FailedAfter.of_ranThrough _ _ stopped succeeded ran
          exact absurd (split ▸ failed.behind before) unfailed
        · cases returned.symm.trans died
      · refine retry fun other ready => ?_
        have same : other = profile := by
          have made := ready.made
          rw [ready.offer.unique offer, created.made] at made
          exact (Except.ok.inj made).symm
        exact same ▸ Ready.of_created prepares created complete

namespace Sample

/-- The first write to the contact file fails. -/
def unwritten : List Outcome := .replicate 12 (.carriedOut 1000) ++ [.failed]

/-- The contacts directory cannot be made. -/
def unprepared : List Outcome := .replicate 6 (.carriedOut 1000) ++ [.failed]

theorem sources_listed :
    Returns ((fromRoot top).allContacts .transparent) sources [] :=
  (returns_iff fun _ => reads_allContacts fun _ => rfl).2 (by decide +kernel)

end Sample

/-- An empty contact file stays behind, and no contact can be listed any more. -/
theorem StatePaths.trustProfile_spoils_store :
    let call := (fromRoot Sample.top).trustProfile .transparent (Sample.sourceAt "first")
      (ascii "anna")
    let run := runAlone 0 call Sample.sources Sample.unwritten
    run.1 = some (.error (.error (.io .other))) ∧
      Returns ((fromRoot Sample.top).allContacts .transparent) Sample.sources [] ∧
      Yields ((fromRoot Sample.top).allContacts .transparent) run.2.1
        (.error (.error (.invalidInput "unsupported public profile"))) ∧
      ¬ AtomicTrust .transparent Sample.top (Sample.sourceAt "first") (ascii "anna") []
        Sample.sources run.2.1 run.1 := by
  intro call run
  have ran : run.1 = some (.error (.error (.io .other))) ∧
      (runAlone 0 ((fromRoot Sample.top).allContacts .transparent) run.2.1
        (.replicate 20 (.carriedOut 1000))).1 =
          some (.error (.error (.invalidInput "unsupported public profile"))) := by
    decide +kernel
  obtain ⟨failed, unreadable⟩ := ran
  have spoiled : Yields ((fromRoot Sample.top).allContacts .transparent) run.2.1
      (.error (.error (.invalidInput "unsupported public profile"))) :=
    ⟨0, .replicate 20 (.carriedOut 1000), by decide, unreadable⟩
  refine ⟨failed, Sample.sources_listed, spoiled, fun atomic => ?_⟩
  obtain ⟨contacts, listed, _⟩ := atomic.listed
  cases listed _ spoiled

theorem StatePaths.trustProfile_atomic_iff_sample :
    AtomicTrust .transparent Sample.top (Sample.sourceAt "first") (ascii "anna") []
      Sample.sources
      (runAlone 0 ((fromRoot Sample.top).trustProfile .transparent (Sample.sourceAt "first")
        (ascii "anna")) Sample.sources Sample.unprepared).2.1
      (some (.error (.error (.io .other)))) := by
  have ran : (∀ event ∈ (runAlone 0 ((fromRoot Sample.top).trustProfile .transparent
        (Sample.sourceAt "first") (ascii "anna")) Sample.sources Sample.unprepared).2.2,
      event.request ≠ .createNew ((fromRoot Sample.top).contactPath (ascii "anna"))) ∧
    (runAlone 0 ((fromRoot Sample.top).trustProfile .transparent (Sample.sourceAt "first")
      (ascii "anna")) Sample.sources Sample.unprepared).1 =
        some (.error (.error (.io .other))) := by
    decide +kernel
  obtain ⟨never, refused⟩ := ran
  have atomic := (trustProfile_atomic_iff .transparent 0 Sample.top (Sample.sourceAt "first")
    (ascii "anna") [] Sample.sources Sample.unprepared Sample.sources_listed).2 ⟨?_, ?_⟩
  · rwa [refused] at atomic
  · rintro ⟨before, event, after, split, request, _⟩
    exact never event (by simp [split]) request
  · rintro ⟨event, member, request, _⟩
    exact absurd request (never event member)

end Sealed
