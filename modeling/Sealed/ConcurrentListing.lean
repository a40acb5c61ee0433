import Sealed.ConcurrentTrust
import Sealed.LoadProperties

/-! `all_contacts` among calls that pin and look up contacts on one root, in any interleaving
of their system calls. Every call tells of the same contacts, and none is forgotten. -/

set_option autoImplicit false

namespace Sealed

open Foundation FileSystem Storage

variable {primitives : Primitives} {caller : Nat} {paths : StatePaths} {root : Path}
  {contract : Contract FileSystem} {world : FileSystem}

/-! ## One listing -/

/-- The contact stands whole in its file. -/
structure Stored (primitives : Primitives) (paths : StatePaths) (fs : FileSystem)
    (contact : Contact) : Prop where
  valid : validateAlias contact.alias = true
  canonical : PublicProfile.parse primitives contact.profile.encode = .ok contact.profile
  file : Contains (paths.contactPath contact.alias) contact.profile.encode fs

theorem Stored.preserved {before after : FileSystem} {contact : Contact}
    (stored : Stored primitives paths before contact) (preserved : Preserved before after) :
    Stored primitives paths after contact :=
  ⟨stored.valid, stored.canonical, preserved.contains stored.file⟩

/-- One alias has one contact. -/
theorem Stored.unique {fs : FileSystem} {first second : Contact}
    (left : Stored primitives paths fs first) (right : Stored primitives paths fs second)
    (same : first.alias = second.alias) : first = second := by
  obtain ⟨firstAlias, firstProfile⟩ := first
  obtain ⟨secondAlias, secondProfile⟩ := second
  cases same
  have spelled : firstProfile.encode = secondProfile.encode := Contains.unique left.file right.file
  have canonical := left.canonical
  rw [spelled, right.canonical] at canonical
  cases canonical
  rfl

/-- The contact was read from the file of this name. -/
structure Named (primitives : Primitives) (paths : StatePaths) (fs : FileSystem) (name : Name)
    (contact : Contact) : Prop where
  stem : fileStem name = contact.alias
  valid : validateAlias contact.alias = true
  canonical : PublicProfile.parse primitives contact.profile.encode = .ok contact.profile
  file : Contains (paths.contacts.join name) contact.profile.encode fs

theorem Named.stored {fs : FileSystem} {name : Name} {contact : Contact}
    (named : Named primitives paths fs name contact)
    (extended : extension name = some (ascii "contact")) : Stored primitives paths fs contact := by
  refine ⟨named.valid, named.canonical, ?_⟩
  have file := named.file
  rw [name_of_extension extended, named.stem] at file
  exact file

namespace StatePaths

theorem meets_contactNamed (preserves : Preserves contract)
    (idle : ∀ moment, contract.guarantee moment moment) (name : Name) (world : FileSystem) :
    Storage.Meets caller contract
      (fun _ later result => contract.rely world later ∧
        ∀ contact, result = .ok contact → Named primitives paths later name contact)
      (paths.contactNamed primitives name) world := by
  unfold contactNamed
  rw [fromUtf8_filter]
  by_cases valid : validateAlias (fileStem name) = true
  · rw [if_pos valid]
    change Storage.Meets _ _ _ (readRegularLimited (paths.contacts.join name) 512 >>= _) _
    apply meets_then (meets_readRegularLimited idle preserves.growing _ 512)
    · intro _ read bytes whole
      cases parsed : PublicProfile.parse primitives bytes with
      | error stopped =>
          exact fun later relied => ⟨contract.rely_trans whole.looked.relied relied, nofun⟩
      | ok profile =>
          obtain ⟨_, rfl⟩ := PublicProfile.parse_eq_ok_iff.1 parsed
          have file := Pinned.of_read preserves whole
          intro later relied
          refine ⟨contract.rely_trans whole.looked.relied relied, ?_⟩
          intro contact ok
          cases ok
          exact ⟨rfl, valid, parsed, (preserves _ _ relied).contains file⟩
    · intro _ read stopped whole later relied
      exact ⟨contract.rely_trans whole.looked.relied relied, nofun⟩
  · rw [if_neg valid]
    exact fun later relied => ⟨relied, nofun⟩

/-- What a listing says. -/
structure Listing (primitives : Primitives) (paths : StatePaths) (world : FileSystem)
    (events : List FileEvent) (later : FileSystem) (contacts : List Contact) : Prop where
  once : (contacts.map (·.alias)).Nodup
  stored : ∀ contact ∈ contacts, Stored primitives paths later contact
  complete : Clean events → ∀ contact, Stored primitives paths world contact → contact ∈ contacts

/-- Names of contact files, one for each contact that was read. -/
theorem listing_of_named {names : List Name} {contacts : List Contact} {fs : FileSystem}
    (nodup : names.Nodup)
    (read : List.Forall₂ (Named primitives paths fs) (contactNames names) contacts) :
    (contacts.map (·.alias)).Nodup ∧ (∀ contact ∈ contacts, Stored primitives paths fs contact) ∧
      ∀ name ∈ names, extension name = some (ascii "contact") →
        ∃ contact ∈ contacts, contact.alias = fileStem name := by
  have aliases : contacts.map (·.alias) = (contactNames names).map fileStem := by
    have same : List.Forall₂ Eq ((contactNames names).map fileStem) (contacts.map (·.alias)) := by
      rw [List.forall₂_map_left_iff, List.forall₂_map_right_iff]
      exact read.imp fun _ _ named => named.stem
    rw [List.forall₂_eq_eq_eq] at same
    exact same.symm
  refine ⟨aliases ▸ nodup_stems nodup, ?_, ?_⟩
  · intro contact member
    obtain ⟨index, inside, same⟩ := List.getElem_of_mem member
    have inside' : index < (contactNames names).length := read.length_eq ▸ inside
    have named := read.get inside' inside
    have extended := (mem_contactNames.1 (List.get_mem (contactNames names) ⟨index, inside'⟩)).2
    rw [← same]
    exact named.stored extended
  · intro name member extended
    have stem : fileStem name ∈ contacts.map (·.alias) := by
      rw [aliases]
      exact List.mem_map_of_mem (mem_contactNames.2 ⟨member, extended⟩)
    obtain ⟨contact, listed, same⟩ := List.mem_map.1 stem
    exact ⟨contact, listed, same⟩

theorem meets_allContacts (preserves : Preserves contract)
    (idle : ∀ moment, contract.guarantee moment moment) :
    Storage.Meets caller contract
      (fun events later result => ∀ contacts, result = .ok contacts →
        Listing primitives (fromRoot root) world events later contacts)
      ((fromRoot root).allContacts primitives) world := by
  have directory : ∀ moment contact, contract.rely world moment →
      Stored primitives (fromRoot root) world contact →
      ∃ id, moment.node true (fromRoot root).contacts = .ok (.directory id) ∧
        ∃ file, moment.lookup id (contact.alias ++ ascii ".contact") = some (.file file) := by
    intro moment contact relied stored
    have later := stored.preserved (preserves _ _ relied)
    obtain ⟨file, found, _⟩ := later.file
    obtain ⟨place, located, _⟩ := node_eq_ok_iff.1 found
    obtain ⟨id, led⟩ := contacts_of_child located
    obtain ⟨file, entry, _⟩ := (contains_join led).1 later.file
    exact ⟨id, led, file, entry⟩
  unfold allContacts
  apply meets_then (meets_pathExists idle (fromRoot root).contacts)
  · intro first looked found glanced
    obtain ⟨glanced, _, same, _, unseen⟩ := glanced
    cases same
    cases found with
    | false =>
        intro later relied contacts ok
        cases ok
        refine ⟨List.nodup_nil, List.forall_mem_nil _, ?_⟩
        intro clean contact stored
        obtain ⟨moment, before, _, nothing⟩ := unseen (clean_append.1 clean).1 rfl
        obtain ⟨id, led, _⟩ := directory moment contact before stored
        exact absurd led (nothing _)
    | true =>
        apply meets_then (meets_ensureFileType idle (by decide) (fromRoot root).contacts _)
        · intro second checked _ passed
          obtain ⟨checking, _⟩ := passed
          apply meets_then (meets_look (.readDir (fromRoot root).contacts) trivial idle)
          · intro third listed names reading
            obtain ⟨reading, _, moment, outcome, before, after, event, reply⟩ := reading
            have carried : outcome ≠ .failed := by
              intro failed
              subst failed
              rw [respond_failed] at reply
              cases reply
            rw [ok_eq_answered_iff, respond_readDir carried] at reply
            have keys : ∃ id, moment.node true (fromRoot root).contacts = .ok (.directory id) ∧
                (moment.directories id).keys = names := by
              unfold readDirAt at reply
              split at reply
              · cases reply
              · rename_i id led
                exact ⟨id, led, Except.ok.inj reply⟩
              · cases reply
            obtain ⟨id, led, rfl⟩ := keys
            refine (Program.Meets.mapM ?_ (meets_contactNamed preserves idle) _
              listed).consequence ?_
            · intro earlier later relied name contact named
              exact ⟨named.stem, named.valid, named.canonical,
                (preserves _ _ relied).contains named.file⟩
            · intro fourth later result reported contacts ok
              obtain ⟨relied, each⟩ := reported
              obtain ⟨once, stored, every⟩ :=
                listing_of_named (AList.nodupKeys _) (each contacts ok)
              refine ⟨once, stored, ?_⟩
              intro _ contact standing
              have until' := contract.rely_trans glanced.relied
                (contract.rely_trans checking.relied before)
              obtain ⟨other, led', file, entry⟩ := directory moment contact until' standing
              cases led.symm.trans led'
              have parts := splitAtDot_contact standing.valid
              obtain ⟨listed', member, alike⟩ := every _
                (AList.lookup_isSome.1 (Option.isSome_of_eq_some entry)) (congrArg Prod.snd parts)
              have kept := standing.preserved (preserves _ _
                (contract.rely_trans until' (contract.rely_trans after relied)))
              have same := (stored listed' member).unique kept
                (alike.trans (congrArg Prod.fst parts))
              exact same ▸ member
          · exact fun _ _ _ _ _ _ => nofun
        · exact fun _ _ _ _ _ _ => nofun
  · exact fun _ _ _ _ _ _ => nofun

/-- What `contact` finds stands whole in its file. -/
theorem meets_contact_sound (preserves : Preserves contract)
    (idle : ∀ moment, contract.guarantee moment moment) (contactAlias : List UInt8) :
    Storage.Meets caller contract
      (fun _ later result => ∀ contact, result = .ok contact →
        Stored primitives paths later contact)
      (paths.contact primitives contactAlias) world := by
  unfold contact
  by_cases valid : validateAlias contactAlias = true
  · rw [check_bind (Checked.reject_of_not (not_not.2 valid))]
    apply meets_then (Program.Meets.map (meets_readRegularLimited idle preserves.growing _ 512))
    · intro _ read bytes reported
      obtain ⟨result, same, whole⟩ := reported
      cases result with
      | error stopped => cases same
      | ok found =>
          cases same
          cases parsed : PublicProfile.parse primitives bytes with
          | error stopped => exact fun _ _ => nofun
          | ok profile =>
              obtain ⟨_, spelled⟩ := PublicProfile.parse_eq_ok_iff.1 parsed
              subst spelled
              have file := Pinned.of_read preserves whole
              intro later relied contact ok
              cases ok
              exact ⟨valid, parsed, (preserves _ _ relied).contains file⟩
    · exact fun _ _ _ _ _ _ => nofun
  · rw [Checked.reject_of valid]
    exact fun _ _ => nofun

end StatePaths

/-! ## Many calls -/

open StatePaths

/-- A call on the contacts of one root. -/
inductive StoreCall where
  | contact (call : ContactCall)
  | list

inductive StoreAnswer where
  | contact (answer : ContactAnswer)
  | listed (result : Checked Error (List Contact))
deriving DecidableEq

def StoreCall.program (primitives : Primitives) (root : Path) :
    StoreCall → Program FileCall.Reply StoreAnswer
  | .contact call => .contact <$> call.program primitives root
  | .list => .listed <$> ((fromRoot root).allContacts primitives).run

/-- The contacts that a call tells of when it is done. -/
def StoreCall.reported : StoreCall → StoreAnswer → List Contact
  | .contact (.trust _ contactAlias), .contact (.trusted (.ok profile)) =>
      [⟨contactAlias, profile⟩]
  | .contact (.lookUp _), .contact (.found (.ok looked)) => [looked]
  | .list, .listed (.ok contacts) => contacts
  | _, _ => []

abbrev StorePool := Pool FileCall.Reply Outcome FileSystem StoreAnswer

namespace StorePool

/-- Calls that have not begun, on a file system where none of them created anything. -/
def start (primitives : Primitives) (root : Path) (calls : List StoreCall) (fs : FileSystem) :
    StorePool :=
  Pool.start (unclaimed fs) (calls.map (StoreCall.program primitives root))

def run (pool : StorePool) (schedule : List (Nat × Outcome)) : StorePool :=
  Pool.run FileSystem.respond pool schedule

/-- Only a call that pins changes anything. -/
def changes (root : Path) (calls : List StoreCall) (index : Nat) :
    FileSystem → FileSystem → Prop :=
  match calls[index]? with
  | some (.contact (.trust _ contactAlias)) => Pins (fromRoot root) contactAlias index
  | _ => Eq

def contracts (root : Path) (calls : List StoreCall) (index : Nat) : Contract FileSystem :=
  (ContactPool.keeping index).guaranteeing (changes root calls index)

theorem compatible (calls : List StoreCall) : Pool.Compatible (contracts root calls) := by
  intro actor observer distinct before after change
  have pins : ∃ contactAlias, Pins (fromRoot root) contactAlias actor before after := by
    unfold contracts changes at change
    split at change
    · exact ⟨_, change⟩
    · cases change
      exact ⟨[], .idle before⟩
  obtain ⟨_, pins⟩ := pins
  exact ⟨pins.step.respected distinct, pins.preserved⟩

/-- What a finished call says. -/
def Post (primitives : Primitives) (root : Path) (calls : List StoreCall) (index : Nat)
    (_ : List FileEvent) (fs : FileSystem) (answer : StoreAnswer) : Prop :=
  ∀ call, calls[index]? = some call →
    (∀ contact ∈ call.reported answer, Stored primitives (fromRoot root) fs contact) ∧
    (call = .list → ((call.reported answer).map (·.alias)).Nodup)

theorem meets_run (calls : List StoreCall) (fs : FileSystem) (schedule : List (Nat × Outcome)) :
    Pool.Meets FileSystem.respond (contracts root calls) (Post primitives root calls)
      ((start primitives root calls fs).run schedule) := by
  apply Pool.Meets.run (compatible calls)
  apply Pool.Meets.start
  intro index program member
  rw [List.getElem?_map, Option.map_eq_some_iff] at member
  obtain ⟨call, called, rfl⟩ := member
  have preserves : Preserves (contracts root calls index) := fun _ _ relied => relied.2
  have said : ∀ {events later answer},
      (∀ contact ∈ call.reported answer, Stored primitives (fromRoot root) later contact) →
      (call = .list → ((call.reported answer).map (·.alias)).Nodup) →
      Post primitives root calls index events later answer := by
    intro events later answer stored once other called'
    cases called.symm.trans called'
    exact ⟨stored, once⟩
  cases call with
  | contact call =>
      cases call with
      | trust source contactAlias =>
          have pinning : contracts root calls index =
              (ContactPool.keeping index).guaranteeing
                (Pins (fromRoot root) contactAlias index) := by
            unfold contracts changes
            rw [called]
          rw [pinning]
          apply Program.Meets.consequence (Program.Meets.map (Program.Meets.map
            (meets_trustProfile (ContactPool.respects_keeping index)
              (ContactPool.preserves_keeping index) source)))
          intro events later answer reported
          obtain ⟨_, rfl, result, rfl, pinned⟩ := reported
          apply said ?_ nofun
          cases result with
          | error stopped => exact List.forall_mem_nil _
          | ok profile =>
              obtain ⟨valid, canonical, standing⟩ := pinned profile rfl
              intro contact member
              cases List.mem_singleton.1 member
              exact ⟨valid, canonical, standing.file⟩
      | lookUp contactAlias =>
          have idle : ∀ moment, (contracts root calls index).guarantee moment moment := by
            intro moment
            unfold contracts changes
            rw [called]
            rfl
          apply Program.Meets.consequence (Program.Meets.map (Program.Meets.map
            (meets_contact_sound preserves idle contactAlias)))
          intro events later answer reported
          obtain ⟨_, rfl, result, rfl, found⟩ := reported
          apply said ?_ nofun
          cases result with
          | error stopped => exact List.forall_mem_nil _
          | ok looked =>
              intro contact member
              cases List.mem_singleton.1 member
              exact found looked rfl
  | list =>
      have idle : ∀ moment, (contracts root calls index).guarantee moment moment := by
        intro moment
        unfold contracts changes
        rw [called]
        rfl
      apply Program.Meets.consequence (Program.Meets.map (meets_allContacts preserves idle))
      intro events later answer reported
      obtain ⟨result, rfl, listing⟩ := reported
      cases result with
      | error stopped => exact said (List.forall_mem_nil _) fun _ => List.nodup_nil
      | ok contacts => exact said (listing contacts rfl).stored fun _ => (listing contacts rfl).once

/-- A call that has not begun finds the world as the others have left it. -/
theorem late (calls : List StoreCall) (fs : FileSystem) (schedule : List (Nat × Outcome))
    {index : Nat} {call : StoreCall} (called : calls[index]? = some call)
    (unstarted : ∀ turn ∈ schedule, turn.1 ≠ index)
    {post : List FileEvent → FileSystem → StoreAnswer → Prop}
    (meets : Program.Meets (FileSystem.respond index) (contracts root calls index) post
      (call.program primitives root) ((start primitives root calls fs).run schedule).world)
    {more : List (Nat × Outcome)} {answer : StoreAnswer}
    (finished : (((start primitives root calls fs).run schedule).run more).result index =
      some answer) :
    let later := ((start primitives root calls fs).run schedule).run more
    post (later.events index) later.world answer := by
  have thread : ((start primitives root calls fs).run schedule).threads[index]? =
      some ⟨call.program primitives root, []⟩ := by
    apply (Pool.run_idle (start primitives root calls fs) unstarted).trans
    simp only [start, Pool.start, List.getElem?_map, called, Option.map_some]
  exact Pool.Meets.late (compatible calls) (meets_run calls fs schedule) thread meets finished

/-- The calls never disagree about a contact. What one call has told of stays, and every listing
and look-up that begins afterwards tells of it too. -/
theorem reports_agree (primitives : Primitives) (root : Path) (calls : List StoreCall)
    (fs : FileSystem) (schedule : List (Nat × Outcome)) :
    let pool := (start primitives root calls fs).run schedule
    (∀ first second call other answer reply contact rival,
      calls[first]? = some call → calls[second]? = some other →
      pool.result first = some answer → pool.result second = some reply →
      contact ∈ call.reported answer → rival ∈ other.reported reply →
      contact.alias = rival.alias → contact = rival) ∧
    (∀ index contacts, calls[index]? = some .list →
      pool.result index = some (.listed (.ok contacts)) → (contacts.map (·.alias)).Nodup) ∧
    ∀ index call answer contact, calls[index]? = some call → pool.result index = some answer →
      contact ∈ call.reported answer →
        (∀ more, Stored primitives (fromRoot root) (pool.run more).world contact) ∧
        (∀ reader, calls[reader]? = some .list → (∀ turn ∈ schedule, turn.1 ≠ reader) →
          ∀ more contacts, (pool.run more).result reader = some (.listed (.ok contacts)) →
            Clean ((pool.run more).events reader) → contact ∈ contacts) ∧
        ∀ reader, calls[reader]? = some (.contact (.lookUp contact.alias)) →
          (∀ turn ∈ schedule, turn.1 ≠ reader) → ∀ more result,
            (pool.run more).result reader = some (.contact (.found result)) →
              Clean ((pool.run more).events reader) → result = .ok contact := by
  intro pool
  have meets := @meets_run primitives root calls fs schedule
  have idle : ∀ reader call, calls[reader]? = some call →
      (∀ source contactAlias, call ≠ .contact (.trust source contactAlias)) →
      ∀ moment, (contracts root calls reader).guarantee moment moment := by
    intro reader call called looks moment
    unfold contracts changes
    rw [called]
    split
    · rename_i same
      cases same
      exact absurd rfl (looks _ _)
    · rfl
  refine ⟨?_, ?_, ?_⟩
  · intro first second call other answer reply contact rival called called' ended ended' told told'
      same
    have stored := (meets.of_result ended call called).1 contact told
    exact stored.unique ((meets.of_result ended' other called').1 rival told') same
  · intro index contacts called ended
    exact (meets.of_result ended _ called).2 rfl
  · intro index call answer contact called ended told
    have stored := (meets.of_result ended call called).1 contact told
    refine ⟨?_, ?_, ?_⟩
    · intro more
      exact stored.preserved (meets.relied (compatible calls) ended more).2
    · intro reader called' unstarted more contacts finished clean
      have lists := @meets_allContacts primitives reader root (contracts root calls reader)
        pool.world
        (fun _ _ relied => relied.2) (idle reader _ called' (fun _ _ => nofun))
      obtain ⟨_, same, listing⟩ :=
        late calls fs schedule called' unstarted (Program.Meets.map lists) finished
      cases same
      exact (listing contacts rfl).complete clean contact stored
    · intro reader called' unstarted more result finished clean
      have looks := @meets_contact_stored primitives reader (fromRoot root) contact.alias
        (contracts root calls reader) pool.world (fun _ _ relied => relied.2)
        (idle reader _ called' (fun _ _ => nofun)) contact.profile stored.file stored.valid
        stored.canonical
      obtain ⟨_, same, _, answered, _, complete⟩ := late calls fs schedule called' unstarted
        (Program.Meets.map (Program.Meets.map looks)) finished
      cases same
      cases answered
      exact complete clean

end StorePool

namespace Sample

def storeCalls : List StoreCall :=
  [.contact (.trust (sourceAt "first") (ascii "anna")), .list, .contact (.lookUp (ascii "anna"))]

def telling : StorePool :=
  (StorePool.start .transparent top storeCalls sources).run firstTurns

/-- The listing and the look-up, call by call. -/
def readersTurns : List (Nat × Outcome) :=
  (List.replicate 20 [(1, .carriedOut 1000), (2, .carriedOut 1000)]).flatten

end Sample

theorem StorePool.reports_agree_sample :
    let later := Sample.telling.run Sample.readersTurns
    (∃ contacts, later.result 1 = some (.listed (.ok contacts)) ∧
      ⟨ascii "anna", Sample.pinned⟩ ∈ contacts) ∧
    (∃ result, later.result 2 = some (.contact (.found result)) ∧
      result = .ok ⟨ascii "anna", Sample.pinned⟩) ∧
    Stored .transparent (fromRoot Sample.top) later.world ⟨ascii "anna", Sample.pinned⟩ := by
  intro later
  have ended : Sample.telling.result 0 = some (.contact (.trusted (.ok Sample.pinned))) := by
    decide +kernel
  have lists : later.result 1 = some (.listed (.ok [⟨ascii "anna", Sample.pinned⟩])) ∧
      Clean (later.events 1) := by
    unfold Clean
    decide +kernel
  have finds : later.result 2 = some (.contact (.found (.ok ⟨ascii "anna", Sample.pinned⟩))) ∧
      Clean (later.events 2) := by
    unfold Clean
    decide +kernel
  have others : ∀ index, index ≠ 0 → ∀ turn ∈ Sample.firstTurns, turn.1 ≠ index := by
    intro index distinct turn member
    rw [List.eq_of_mem_replicate member]
    exact Ne.symm distinct
  obtain ⟨_, _, told⟩ := reports_agree .transparent Sample.top Sample.storeCalls Sample.sources
    Sample.firstTurns
  obtain ⟨stored, listed, found⟩ := told 0 _ _ ⟨ascii "anna", Sample.pinned⟩ rfl ended
    (List.mem_singleton.2 rfl)
  refine ⟨⟨_, lists.1, ?_⟩, ⟨_, finds.1, ?_⟩, stored Sample.readersTurns⟩
  · exact listed 1 rfl (others 1 (by decide)) Sample.readersTurns _ lists.1 lists.2
  · exact found 2 rfl (others 2 (by decide)) Sample.readersTurns _ finds.1 finds.2

end Sealed
