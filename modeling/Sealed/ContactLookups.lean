import Sealed.Foundation.FileSystemGrowth
import Sealed.IdentityProperties
import Sealed.LoneReads

/-! The two ways of looking up pinned contacts, `contact` by a file name made from the alias
and `all_contacts` by the names in the directory. -/

set_option autoImplicit false

namespace Sealed

open Foundation FileSystem Storage

variable {primitives : Primitives} {caller : Nat} {fs : FileSystem}

/-! ## Aliases and file names -/

theorem validateAlias_byte {contactAlias : List UInt8} (valid : validateAlias contactAlias = true) :
    ∀ byte ∈ contactAlias, byte < 0x80 ∧ byte ≠ 0x2e ∧ byte ≠ 0x2f := by
  intro byte member
  unfold validateAlias at valid
  rw [Bool.and_eq_true, List.all_eq_true] at valid
  have permitted := valid.2 byte member
  simp only [isAsciiAlphanumeric, Bool.or_eq_true, Bool.and_eq_true, decide_eq_true_iff,
    beq_iff_eq, UInt8.le_iff_toNat_le, ← UInt8.toNat_inj] at permitted
  simp only [UInt8.lt_iff_toNat_lt, ne_eq, ← UInt8.toNat_inj]
  simp only [UInt8.reduceToNat] at permitted ⊢
  omega

theorem validateAlias_ne_nil {contactAlias : List UInt8}
    (valid : validateAlias contactAlias = true) : contactAlias ≠ [] := by
  rintro rfl
  cases valid

theorem splitAtDot_contact {contactAlias : List UInt8}
    (valid : validateAlias contactAlias = true) :
    splitAtDot (contactAlias ++ ascii ".contact") = (contactAlias, some (ascii "contact")) := by
  apply splitAtDot_eq_some_iff.2
  refine ⟨rfl, validateAlias_ne_nil valid, by decide, fun same => ?_⟩
  have length := congrArg List.length same
  rw [List.length_append, show (ascii ".contact").length = 8 from rfl] at length
  simp only [List.length_cons, List.length_nil] at length
  omega

theorem name_of_extension {name : Name} (extended : extension name = some (ascii "contact")) :
    name = fileStem name ++ ascii ".contact" :=
  (splitAtDot_eq_some_iff.1 (Prod.ext rfl extended)).1

theorem mem_contactNames {listing : List Name} {name : Name} :
    name ∈ StatePaths.contactNames listing ↔
      name ∈ listing ∧ extension name = some (ascii "contact") := by
  rw [StatePaths.contactNames, List.mem_mergeSort, List.mem_filter, decide_eq_true_iff]

theorem nodup_contactNames {listing : List Name} (nodup : listing.Nodup) :
    (StatePaths.contactNames listing).Nodup :=
  (List.mergeSort_perm _ _).nodup_iff.2 (nodup.filter _)

namespace StatePaths

/-! ## What the look-ups read -/

section

variable (primitives : Primitives) (paths : StatePaths) (fs : FileSystem)

def profileAt (path : Path) : Option PublicProfile := do
  let bytes ← bytesAt path 512 fs
  (PublicProfile.parse primitives bytes).toOption

def contactAt (contactAlias : List UInt8) : Option Contact :=
  if validateAlias contactAlias = true then
    (profileAt primitives fs (paths.contactPath contactAlias)).map (⟨contactAlias, ·⟩)
  else none

def contactNamedAt (name : Name) : Option Contact :=
  if validateAlias (fileStem name) = true then
    (profileAt primitives fs (paths.contacts.join name)).map (⟨fileStem name, ·⟩)
  else none

def contactsAt : Option (List Contact) :=
  match fs.node true paths.contacts, fs.node false paths.contacts with
  | .error _, _ => some []
  | .ok _, .ok (.directory id) =>
      (contactNames (fs.directories id).keys).mapM (contactNamedAt primitives paths fs)
  | .ok _, _ => none

end

variable {guarantee : FileSystem → FileSystem → Prop} {paths : StatePaths}

theorem reads_contact (idle : ∀ moment, guarantee moment moment) (contactAlias : List UInt8) :
    Storage.Meets caller (lone guarantee) (Reads fs (contactAt primitives paths fs contactAlias))
      (paths.contact primitives contactAlias) fs := by
  have value : contactAt primitives paths fs contactAlias =
      (Checked.reject (¬ validateAlias contactAlias = true)
        (Error.invalidInput "invalid contact name")).toOption >>= fun _ =>
      bytesAt (paths.contactPath contactAlias) 512 fs >>= fun bytes =>
      (PublicProfile.parse primitives bytes).toOption >>= fun profile =>
      some ⟨contactAlias, profile⟩ := by
    unfold contactAt profileAt
    by_cases valid : validateAlias contactAlias = true
    · rw [if_pos valid, Checked.reject_of_not (not_not.2 valid)]
      rw [Option.map_eq_bind]
      exact Option.bind_assoc ..
    · rw [if_neg valid, Checked.reject_of valid]
      rfl
  rw [value]
  apply reads_bind (reads_check (Checked.noPanic_reject _ _))
  intro _
  apply reads_bind (reads_mapError _ (reads_readRegularLimited idle _ 512))
  · intro bytes
    apply reads_bind (reads_check (PublicProfile.noPanic_parse bytes))
    intro profile
    exact reads_return _
  · intro stopped reported
    unfold mapNotFound
    split
    · exact nofun
    · exact reported

theorem fromUtf8_filter (stem : List UInt8) :
    ((fromUtf8 stem).filter fun text => validateAlias text) =
      if validateAlias stem = true then some stem else none := by
  by_cases valid : validateAlias stem = true
  · have text : fromUtf8 stem = some stem := fromUtf8_eq_some_iff.2
      ⟨utf8Valid_of_ascii fun byte member => (validateAlias_byte valid byte member).1, rfl⟩
    rw [text, if_pos valid]
    simp [valid]
  · rw [if_neg valid]
    unfold fromUtf8
    split <;> simp [valid]

theorem reads_contactNamed (idle : ∀ moment, guarantee moment moment) (name : Name) :
    Storage.Meets caller (lone guarantee) (Reads fs (contactNamedAt primitives paths fs name))
      (paths.contactNamed primitives name) fs := by
  have value : contactNamedAt primitives paths fs name =
      (Checked.okOr ((fromUtf8 (fileStem name)).filter fun stem => validateAlias stem)
        (Error.invalidInput "invalid contact filename")).toOption >>= fun contactAlias =>
      bytesAt (paths.contacts.join name) 512 fs >>= fun bytes =>
      (PublicProfile.parse primitives bytes).toOption >>= fun profile =>
      some ⟨contactAlias, profile⟩ := by
    unfold contactNamedAt profileAt
    rw [fromUtf8_filter]
    by_cases valid : validateAlias (fileStem name) = true
    · rw [if_pos valid, if_pos valid]
      rw [Option.map_eq_bind]
      exact Option.bind_assoc ..
    · rw [if_neg valid, if_neg valid]
      rfl
  rw [value]
  apply reads_bind (reads_check (Checked.noPanic_okOr _ _))
  intro contactAlias
  apply reads_bind (reads_readRegularLimited idle _ 512)
  intro bytes
  apply reads_bind (reads_check (PublicProfile.noPanic_parse bytes))
  intro profile
  exact reads_return _

theorem reads_allContacts (idle : ∀ moment, guarantee moment moment) :
    Storage.Meets caller (lone guarantee) (Reads fs (contactsAt primitives paths fs))
      (paths.allContacts primitives) fs := by
  have value : contactsAt primitives paths fs =
      some (fs.node true paths.contacts).isOk >>= fun found =>
      if found = true then
        passes .directory paths.contacts fs >>= fun _ =>
        (fs.readDirAt paths.contacts).toOption >>= fun listing =>
        (contactNames listing).mapM (contactNamedAt primitives paths fs)
      else some [] := by
    unfold contactsAt passes readDirAt
    cases followed : fs.node true paths.contacts with
    | error kind => rfl
    | ok node =>
        cases found : fs.node false paths.contacts with
        | error kind => rfl
        | ok node' =>
            cases node' with
            | directory id =>
                cases (node_follow found (by simp)).symm.trans followed
                rfl
            | file | symlink | special => rfl
  rw [value]
  apply reads_bind (reads_pathExists idle paths.contacts)
  intro found
  cases found with
  | false => exact reads_return []
  | true =>
      apply reads_bind (reads_ensureFileType idle (by decide) paths.contacts _)
      intro _
      apply reads_bind (reads_readDir idle paths.contacts)
      intro listing
      exact reads_mapM (reads_contactNamed idle) _

/-! ## Where the look-ups agree -/

theorem profileAt_eq_some_iff {path : Path} {profile : PublicProfile} :
    profileAt primitives fs path = some profile ↔
      ∃ bytes, Contains path bytes fs ∧ PublicProfile.parse primitives bytes = .ok profile := by
  unfold profileAt
  constructor
  · intro read
    obtain ⟨bytes, there, parsed⟩ := Option.bind_eq_some_iff.1 read
    refine ⟨bytes, (bytesAt_eq_some_iff.1 there).1, ?_⟩
    cases result : PublicProfile.parse primitives bytes with
    | ok value =>
        rw [result] at parsed
        exact congrArg _ (Option.some.inj parsed)
    | error stopped =>
        rw [result] at parsed
        cases parsed
  · rintro ⟨bytes, contained, parsed⟩
    have fits : bytes.length ≤ 512 := by
      obtain ⟨_, rfl⟩ := PublicProfile.parse_eq_ok_iff.1 parsed
      rw [PublicProfile.length_encode]
      decide
    apply Option.bind_eq_some_iff.2
    exact ⟨bytes, bytesAt_eq_some_iff.2 ⟨contained, fits⟩, by rw [parsed]; rfl⟩

theorem contactAt_eq_some_iff {contactAlias : List UInt8} {contact : Contact} :
    contactAt primitives paths fs contactAlias = some contact ↔
      validateAlias contactAlias = true ∧ contact.alias = contactAlias ∧
        profileAt primitives fs (paths.contactPath contactAlias) = some contact.profile := by
  unfold contactAt
  split
  · rename_i valid
    rw [Option.map_eq_some_iff]
    constructor
    · rintro ⟨profile, read, rfl⟩
      exact ⟨valid, rfl, read⟩
    · rintro ⟨_, rfl, read⟩
      exact ⟨contact.profile, read, rfl⟩
  · rename_i invalid
    constructor
    · exact nofun
    · rintro ⟨valid, _⟩
      exact absurd valid invalid

theorem contactNamedAt_eq {name : Name} (extended : extension name = some (ascii "contact")) :
    contactNamedAt primitives paths fs name =
      contactAt primitives paths fs (fileStem name) := by
  unfold contactNamedAt contactAt contactPath
  rw [← name_of_extension extended]

/-- In a real directory the listing is what `contact` finds for the stems. -/
theorem contactsAt_directory {id : Nat}
    (found : fs.node false paths.contacts = .ok (.directory id)) :
    contactsAt primitives paths fs =
      (contactNames (fs.directories id).keys).mapM fun name =>
        contactAt primitives paths fs (fileStem name) := by
  unfold contactsAt
  rw [node_follow found (by simp), found]
  have same : ∀ names : List Name, (∀ name ∈ names, extension name = some (ascii "contact")) →
      names.mapM (contactNamedAt primitives paths fs) =
        names.mapM fun name => contactAt primitives paths fs (fileStem name) := by
    intro names extended
    induction names with
    | nil => rfl
    | cons name rest ih =>
        rw [List.mapM_cons, List.mapM_cons, contactNamedAt_eq (extended name List.mem_cons_self),
          ih fun other member => extended other (List.mem_cons_of_mem _ member)]
  exact same _ fun name member => (mem_contactNames.1 member).2

theorem contains_join {path : Path} {id : Nat} {name : Name} {bytes : List UInt8}
    (found : fs.node true path = .ok (.directory id)) :
    Contains (path.join name) bytes fs ↔
      ∃ file, fs.lookup id name = some (.file file) ∧ fs.contents file = bytes := by
  have located : fs.locate false (path.join name) = .ok (.slot id name) :=
    locate_join found (by simp)
  have entry : ∀ file, fs.node false (path.join name) = .ok (.file file) ↔
      fs.lookup id name = some (.file file) := by
    intro file
    rw [node_eq_ok_iff]
    constructor
    · rintro ⟨place, located', there⟩
      cases located.symm.trans located'
      exact there
    · intro there
      exact ⟨_, located, there⟩
  unfold Contains
  simp only [entry]

/-- The contacts are absent, a real directory or a link to a directory, and every contact
file in it is a regular file with a valid stem and a canonical profile. -/
structure WellStocked (primitives : Primitives) (contacts : Path) (fs : FileSystem) : Prop where
  place : (∃ kind, fs.node false contacts = .error kind) ∨
    (∃ id, fs.node false contacts = .ok (.directory id)) ∨
    ∃ target id, fs.node false contacts = .ok (.symlink target) ∧
      fs.node true contacts = .ok (.directory id)
  entries : ∀ id, fs.node true contacts = .ok (.directory id) → ∀ name node,
    fs.lookup id name = some node → extension name = some (ascii "contact") →
      validateAlias (fileStem name) = true ∧ ∃ file profile, node = .file file ∧
        PublicProfile.parse primitives (fs.contents file) = .ok profile

/-- The two ways of looking up contacts agree, and aliases and contact files match. -/
structure LookupsAgree (primitives : Primitives) (paths : StatePaths) (fs : FileSystem) :
    Prop where
  same : ∀ contactAlias found listed, Yields (paths.contact primitives contactAlias) fs found →
    Yields (paths.allContacts primitives) fs listed → ∀ contact, found = .ok contact ↔
      ∃ contacts, listed = .ok contacts ∧ contact ∈ contacts ∧ contact.alias = contactAlias
  once : ∀ contacts, Yields (paths.allContacts primitives) fs (.ok contacts) →
    (contacts.map (·.alias)).Nodup
  child : ∀ contactAlias, validateAlias contactAlias = true → ∃ name,
    paths.contactPath contactAlias = paths.contacts.join name ∧
      fileStem name = contactAlias ∧ extension name = some (ascii "contact") ∧
      0x2f ∉ name ∧ name ≠ ascii "." ∧ name ≠ ascii ".."
  apart : ∀ left right, paths.contactPath left = paths.contactPath right → left = right

theorem contactPath_injective {left right : List UInt8}
    (same : paths.contactPath left = paths.contactPath right) : left = right := by
  have segments := congrArg Path.segments same
  have last := List.append_cancel_left segments
  simp only [List.cons.injEq, Segment.name.injEq, and_true] at last
  exact List.append_cancel_right last

theorem contactPath_child (paths : StatePaths) {contactAlias : List UInt8}
    (valid : validateAlias contactAlias = true) :
    ∃ name, paths.contactPath contactAlias = paths.contacts.join name ∧
      fileStem name = contactAlias ∧ extension name = some (ascii "contact") ∧
      0x2f ∉ name ∧ name ≠ ascii "." ∧ name ≠ ascii ".." := by
  have parts := splitAtDot_contact valid
  have long : 8 ≤ (contactAlias ++ ascii ".contact").length := by
    rw [List.length_append]
    exact Nat.le_add_left _ _
  refine ⟨_, rfl, congrArg Prod.fst parts, congrArg Prod.snd parts, ?_, ?_, ?_⟩
  · intro member
    rcases List.mem_append.1 member with member | member
    · exact (validateAlias_byte valid _ member).2.2 rfl
    · exact absurd member (by decide)
  · intro same
    rw [same] at long
    exact absurd long (by decide)
  · intro same
    rw [same] at long
    exact absurd long (by decide)

/-- What leads to a contact file leads through the directory of the contacts. -/
theorem contacts_of_child {root : Path} {follow : Bool} {name : Name} {place : Place}
    (located : fs.locate follow ((fromRoot root).contacts.join name) = .ok place) :
    ∃ id, fs.node true (fromRoot root).contacts = .ok (.directory id) :=
  directory_of_join (by simp [fromRoot, Path.isEmpty, Path.join]) rfl located

theorem contactAt_absent {root : Path} {kind : IoErrorKind}
    (missing : fs.node false (fromRoot root).contacts = .error kind) (contactAlias : List UInt8) :
    contactAt primitives (fromRoot root) fs contactAlias = none ∧
      contactsAt primitives (fromRoot root) fs = some [] := by
  have unfollowed : ∀ node, fs.node true (fromRoot root).contacts ≠ .ok node := by
    intro node found
    obtain ⟨other, there⟩ := node_unfollowed found
    cases missing.symm.trans there
  constructor
  · rw [Option.eq_none_iff_forall_ne_some]
    intro contact read
    obtain ⟨_, _, read⟩ := contactAt_eq_some_iff.1 read
    obtain ⟨_, ⟨file, there, _⟩, _⟩ := profileAt_eq_some_iff.1 read
    obtain ⟨place, located, _⟩ := node_eq_ok_iff.1 there
    obtain ⟨id, found⟩ := contacts_of_child located
    exact unfollowed _ found
  · unfold contactsAt
    cases found : fs.node true (fromRoot root).contacts with
    | error kind => rfl
    | ok node => exact absurd found (unfollowed node)

/-- What `contact` finds is the entry with the name that the alias makes. -/
theorem contactAt_eq_some_iff_lookup {id : Nat} {contactAlias : List UInt8} {contact : Contact}
    (found : fs.node true paths.contacts = .ok (.directory id)) :
    contactAt primitives paths fs contactAlias = some contact ↔
      validateAlias contactAlias = true ∧ contact.alias = contactAlias ∧ ∃ file,
        fs.lookup id (contactAlias ++ ascii ".contact") = some (.file file) ∧
          PublicProfile.parse primitives (fs.contents file) = .ok contact.profile := by
  rw [contactAt_eq_some_iff, profileAt_eq_some_iff]
  constructor
  · rintro ⟨valid, same, bytes, contained, parsed⟩
    obtain ⟨file, entry, rfl⟩ := (contains_join found).1 contained
    exact ⟨valid, same, file, entry, parsed⟩
  · rintro ⟨valid, same, file, entry, parsed⟩
    exact ⟨valid, same, _, (contains_join found).2 ⟨file, entry, rfl⟩, parsed⟩

theorem WellStocked.reads {id : Nat} {name : Name}
    (stocked : WellStocked primitives paths.contacts fs)
    (found : fs.node true paths.contacts = .ok (.directory id))
    (member : name ∈ contactNames (fs.directories id).keys) :
    ∃ contact, contactAt primitives paths fs (fileStem name) = some contact := by
  obtain ⟨key, extended⟩ := mem_contactNames.1 member
  obtain ⟨node, entry⟩ := Option.isSome_iff_exists.1 (AList.lookup_isSome.2 key)
  obtain ⟨valid, file, profile, rfl, parsed⟩ := stocked.entries id found name node entry extended
  refine ⟨⟨fileStem name, profile⟩, ?_⟩
  apply (contactAt_eq_some_iff_lookup found).2
  refine ⟨valid, rfl, file, ?_, parsed⟩
  rw [← name_of_extension extended]
  exact entry

/-- Every contact that is found has a file in the listing. -/
theorem mem_contactNames_of_contactAt {id : Nat} {contactAlias : List UInt8} {contact : Contact}
    (found : fs.node true paths.contacts = .ok (.directory id))
    (read : contactAt primitives paths fs contactAlias = some contact) :
    contactAlias ++ ascii ".contact" ∈ contactNames (fs.directories id).keys ∧
      fileStem (contactAlias ++ ascii ".contact") = contactAlias := by
  obtain ⟨valid, _, file, entry, _⟩ := (contactAt_eq_some_iff_lookup found).1 read
  have parts := splitAtDot_contact valid
  refine ⟨mem_contactNames.2 ⟨?_, congrArg Prod.snd parts⟩, congrArg Prod.fst parts⟩
  exact AList.lookup_isSome.1 (Option.isSome_of_eq_some entry)

theorem nodup_stems {names : List Name} (nodup : names.Nodup) :
    ((contactNames names).map fileStem).Nodup := by
  apply List.Nodup.map_on
  · intro left leftMember right rightMember same
    rw [name_of_extension (mem_contactNames.1 leftMember).2,
      name_of_extension (mem_contactNames.1 rightMember).2, same]
  · exact nodup_contactNames nodup

/-- A real directory is listed in full, each contact once. -/
theorem contactsAt_of_directory {id : Nat}
    (stocked : WellStocked primitives paths.contacts fs)
    (real : fs.node false paths.contacts = .ok (.directory id)) :
    ∃ contacts, contactsAt primitives paths fs = some contacts ∧
      (contacts.map (·.alias)).Nodup ∧
      ∀ contact, contact ∈ contacts ↔
        contactAt primitives paths fs contact.alias = some contact := by
  have found := node_follow real (by simp)
  obtain ⟨contacts, listed⟩ := exists_mapM_eq_some fun name => stocked.reads found
  rw [← contactsAt_directory real] at listed
  have pairs := listed
  rw [contactsAt_directory real, mapM_eq_some_iff] at pairs
  have aliases : contacts.map (·.alias) = (contactNames (fs.directories id).keys).map fileStem := by
    have wrapped : Function.Injective (some : List UInt8 → _) := fun _ _ => Option.some.inj
    apply List.map_injective_iff.2 wrapped
    have mapped := congrArg (List.map (Option.map (·.alias))) pairs
    rw [List.map_map, List.map_map] at mapped
    rw [List.map_map, List.map_map]
    refine Eq.trans mapped.symm (List.map_congr_left fun name member => ?_)
    obtain ⟨contact, read⟩ := stocked.reads found member
    rw [Function.comp_apply, read, Option.map_some]
    exact congrArg some (contactAt_eq_some_iff.1 read).2.1
  refine ⟨contacts, listed, ?_, fun contact => ?_⟩
  · rw [aliases]
    exact nodup_stems (AList.nodupKeys _)
  constructor
  · intro member
    have image : some contact ∈ contacts.map some := List.mem_map_of_mem member
    rw [← pairs] at image
    obtain ⟨name, _, read⟩ := List.mem_map.1 image
    rw [(contactAt_eq_some_iff.1 read).2.1]
    exact read
  · intro read
    obtain ⟨member, stem⟩ := mem_contactNames_of_contactAt found read
    have image := List.mem_map_of_mem (f := fun name =>
      contactAt primitives paths fs (fileStem name)) member
    rw [pairs, stem, read] at image
    obtain ⟨_, member, same⟩ := List.mem_map.1 image
    exact Option.some.inj same ▸ member

theorem lookupsAgree_of_reads
    (same : ∀ contactAlias contact, contactAt primitives paths fs contactAlias = some contact ↔
      ∃ contacts, contactsAt primitives paths fs = some contacts ∧ contact ∈ contacts ∧
        contact.alias = contactAlias)
    (once : ∀ contacts, contactsAt primitives paths fs = some contacts →
      (contacts.map (·.alias)).Nodup) :
    LookupsAgree primitives paths fs where
  same := by
    intro contactAlias found listed foundYields listedYields contact
    rw [foundYields.reads fun caller => reads_contact (fun _ => rfl) contactAlias, same]
    simp only [listedYields.reads fun caller => reads_allContacts fun _ => rfl]
  once := by
    intro contacts yields
    exact once contacts ((yields.reads (fun caller => reads_allContacts fun _ => rfl) contacts).1 rfl)
  child := fun contactAlias valid => contactPath_child paths valid
  apart := fun left right => contactPath_injective

theorem contactsAt_symlink {target : Path} {id : Nat}
    (link : fs.node false paths.contacts = .ok (.symlink target))
    (led : fs.node true paths.contacts = .ok (.directory id)) :
    contactsAt primitives paths fs = none := by
  unfold contactsAt
  rw [led, link]

/-- The look-ups agree unless the contacts are a link to a directory with a contact file. -/
theorem lookups_agree_iff (primitives : Primitives) (root : Path) (fs : FileSystem)
    (stocked : WellStocked primitives (fromRoot root).contacts fs) :
    LookupsAgree primitives (fromRoot root) fs ↔
      ((∃ target, fs.node false (fromRoot root).contacts = .ok (.symlink target)) →
        ∀ id name node, fs.node true (fromRoot root).contacts = .ok (.directory id) →
          fs.lookup id name = some node → extension name ≠ some (ascii "contact")) := by
  constructor
  · rintro agree ⟨target, link⟩ id name node led entry extended
    obtain ⟨valid, file, profile, rfl, parsed⟩ :=
      stocked.entries id led name node entry extended
    have read : contactAt primitives (fromRoot root) fs (fileStem name) =
        some ⟨fileStem name, profile⟩ := by
      apply (contactAt_eq_some_iff_lookup led).2
      refine ⟨valid, rfl, file, ?_, parsed⟩
      rw [← name_of_extension extended]
      exact entry
    obtain ⟨found, foundYields⟩ :=
      exists_yields ((fromRoot root).contact primitives (fileStem name)) fs
    obtain ⟨listed, listedYields⟩ := exists_yields ((fromRoot root).allContacts primitives) fs
    have ok := (foundYields.reads (fun caller => reads_contact (fun _ => rfl) _) _).2 read
    obtain ⟨contacts, all, _⟩ := (agree.same _ found listed foundYields listedYields _).1 ok
    have listing :=
      (listedYields.reads (fun caller => reads_allContacts fun _ => rfl) contacts).1 all
    rw [contactsAt_symlink link led] at listing
    cases listing
  · intro condition
    rcases stocked.place with ⟨kind, missing⟩ | ⟨id, real⟩ | ⟨target, id, link, led⟩
    · apply lookupsAgree_of_reads
      · intro contactAlias contact
        obtain ⟨absent, listed⟩ := @contactAt_absent primitives fs root kind missing contactAlias
        rw [absent, listed]
        simp
      · intro contacts listed
        rw [(contactAt_absent missing []).2] at listed
        cases listed
        exact List.nodup_nil
    · obtain ⟨contacts, listed, nodup, members⟩ := contactsAt_of_directory stocked real
      apply lookupsAgree_of_reads
      · intro contactAlias contact
        rw [listed]
        constructor
        · intro read
          have same := (contactAt_eq_some_iff.1 read).2.1
          exact ⟨contacts, rfl, (members contact).2 (by rw [same]; exact read), same⟩
        · rintro ⟨_, ⟨⟩, member, rfl⟩
          exact (members contact).1 member
      · intro others listed'
        cases listed.symm.trans listed'
        exact nodup
    · have none := @contactsAt_symlink primitives fs (fromRoot root) target id link led
      apply lookupsAgree_of_reads
      · intro contactAlias contact
        rw [none]
        constructor
        · intro read
          obtain ⟨member, _⟩ := mem_contactNames_of_contactAt led read
          obtain ⟨key, extended⟩ := mem_contactNames.1 member
          obtain ⟨node, entry⟩ := Option.isSome_iff_exists.1 (AList.lookup_isSome.2 key)
          exact absurd extended (condition ⟨target, link⟩ id _ node led entry)
        · rintro ⟨_, ⟨⟩, _⟩
      · intro contacts listed
        rw [none] at listed
        cases listed

end StatePaths

namespace Sample

def top : Path := ⟨true, [], false⟩

def pinned : PublicProfile := .new .transparent (.replicate 32 1) (.replicate 32 2)

/-- A directory with one contact. -/
def store (name : Name) : FileSystem :=
  ((FileSystem.empty.createDirectory 0 name).createFile 0 1 (ascii "anna.contact")).append 0
    pinned.encode

/-- The contacts are a link to the directory. -/
def linked : FileSystem :=
  (store (ascii "shared")).createLink 0 (ascii "contacts")
    ⟨false, [.name (ascii "shared")], false⟩

theorem entries_of_keys {fs : FileSystem}
    (found : fs.node true (StatePaths.fromRoot top).contacts = .ok (.directory 1))
    (keys : (fs.directories 1).keys = [ascii "anna.contact"])
    (entry : fs.lookup 1 (ascii "anna.contact") = some (.file 0))
    (contents : fs.contents 0 = pinned.encode) :
    ∀ id, fs.node true (StatePaths.fromRoot top).contacts = .ok (.directory id) →
      ∀ name node, fs.lookup id name = some node → extension name = some (ascii "contact") →
        validateAlias (fileStem name) = true ∧ ∃ file profile, node = .file file ∧
          PublicProfile.parse .transparent (fs.contents file) = .ok profile := by
  intro id found' name node there _
  cases found.symm.trans found'
  have key := AList.lookup_isSome.1 (Option.isSome_of_eq_some there)
  rw [AList.mem_keys, keys] at key
  cases List.mem_singleton.1 key
  cases entry.symm.trans there
  exact ⟨by decide, 0, pinned, rfl, by rw [contents]; exact PublicProfile.parse_encode _ _⟩

end Sample

/-- A contact behind a link is found by its alias and not listed. -/
theorem StatePaths.lookups_disagree_behind_link :
    WellStocked .transparent (fromRoot Sample.top).contacts Sample.linked ∧
      Yields ((fromRoot Sample.top).contact .transparent (ascii "anna")) Sample.linked
        (.ok ⟨ascii "anna", Sample.pinned⟩) ∧
      Yields ((fromRoot Sample.top).allContacts .transparent) Sample.linked
        (.error (.error (.invalidInput "path is not a real directory"))) ∧
      ¬ LookupsAgree .transparent (fromRoot Sample.top) Sample.linked := by
  have stocked : WellStocked .transparent (fromRoot Sample.top).contacts Sample.linked := by
    constructor
    · exact .inr (.inr ⟨⟨false, [.name (ascii "shared")], false⟩, 1, by decide +kernel,
        by decide +kernel⟩)
    · exact Sample.entries_of_keys (by decide +kernel) (by decide +kernel) (by decide +kernel)
        (by decide +kernel)
  have found : Yields ((fromRoot Sample.top).contact .transparent (ascii "anna")) Sample.linked
      (.ok ⟨ascii "anna", Sample.pinned⟩) :=
    ⟨0, .replicate 10 (.carriedOut 1000), by decide, by decide +kernel⟩
  have listed : Yields ((fromRoot Sample.top).allContacts .transparent) Sample.linked
      (.error (.error (.invalidInput "path is not a real directory"))) :=
    ⟨0, .replicate 10 (.carriedOut 1000), by decide, by decide +kernel⟩
  refine ⟨stocked, found, listed, fun agree => ?_⟩
  obtain ⟨contacts, all, _⟩ := (agree.same _ _ _ found listed _).1 rfl
  cases all

theorem StatePaths.lookups_agree_iff_sample :
    LookupsAgree .transparent (fromRoot Sample.top) (Sample.store (ascii "contacts")) := by
  apply (lookups_agree_iff .transparent Sample.top (Sample.store (ascii "contacts")) ?_).2
  · rintro ⟨target, link⟩
    have real : (Sample.store (ascii "contacts")).node false (fromRoot Sample.top).contacts =
        .ok (.directory 1) := by decide +kernel
    cases real.symm.trans link
  · constructor
    · exact .inr (.inl ⟨1, by decide +kernel⟩)
    · exact Sample.entries_of_keys (by decide +kernel) (by decide +kernel) (by decide +kernel)
        (by decide +kernel)

end Sealed
