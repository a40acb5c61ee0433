import Sealed.CommandSequences
import Sealed.ContactLookups
import Sealed.Foundation.Linking
import Sealed.LoadProperties

/-! Commands whose calls do not fail: what they come to, what they print and what they leave. -/

set_option autoImplicit false

namespace Sealed

open Foundation FileSystem Storage StatePaths

/-! ## Standard output -/

/-- What a call has written to the standard output. -/
def written : (request : CliCall) → request.Reply → List UInt8
  | .print bytes, .ok _ => bytes
  | _, _ => []

def stdout (events : List CliEvent) : List UInt8 :=
  events.flatMap fun event => written event.request event.reply

/-- The files, and what a command has printed so far. -/
structure Machine where
  files : FileSystem
  printed : List UInt8

def Machine.respond (caller : Nat) (machine : Machine) (request : CliCall)
    (happened : CliOutcome) : request.Reply × Machine :=
  let answer := CliCall.respond caller machine.files request happened
  (answer.1, ⟨answer.2, machine.printed ++ written request answer.1⟩)

namespace Cli

variable {α β : Type} {caller : Nat} {input : List UInt8} {machine middle later : Machine}
  {environment : Environment} {primitives : Primitives}

theorem run_machine (program : Program CliCall.Reply α) (fs : FileSystem) (printed : List UInt8)
    (outcomes : List CliOutcome) :
    Program.run (Machine.respond caller) program ⟨fs, printed⟩ outcomes =
      ((Program.run (CliCall.respond caller) program fs outcomes).1,
        ⟨(Program.run (CliCall.respond caller) program fs outcomes).2.1,
          printed ++ stdout (Program.run (CliCall.respond caller) program fs outcomes).2.2⟩,
        (Program.run (CliCall.respond caller) program fs outcomes).2.2) := by
  induction program generalizing fs printed outcomes with
  | done value => simp [Program.run, stdout]
  | call request next ih =>
      cases outcomes with
      | nil => simp [Program.run, stdout]
      | cons happened outcomes =>
          simp [Program.run, Machine.respond, ih, stdout]

/-! ## Undisturbed commands -/

/-- The call is carried out, and whoever is asked for input supplies this one. -/
def Quiet (input : List UInt8) (_ : CliCall) (happened : CliOutcome) : Prop :=
  happened.outcome ≠ .failed ∧ happened.input = input

/-- Undisturbed, the command comes to this value, and leaves the machine in this state. -/
def Comes (caller : Nat) (input : List UInt8) (command : Cli α) (machine : Machine) (value : α)
    (later : Machine) : Prop :=
  Program.Always (Machine.respond caller) (Quiet input) (fun _ _ => True)
    (fun final result => final = later ∧ result = .ok value) command.run machine

theorem comes_then {command : Cli α} {rest : α → Cli β} {value : α} {result : β}
    (first : Comes caller input command machine value middle)
    (next : Comes caller input (rest value) middle result later) :
    Comes caller input (command >>= rest) machine result later := by
  apply Program.Always.andThen
  apply first.mono fun _ _ => id
  intro final reply came
  obtain ⟨there, same⟩ := came
  subst there same
  exact next

theorem comes_check {result : Result α} {value : α} (ok : result = .ok value) :
    Comes caller input (check result) machine value machine := by
  subst ok
  exact ⟨rfl, rfl⟩

theorem comes_return (value : α) : Comes caller input (return value) machine value machine :=
  comes_check rfl

theorem comes_mapErr {command : Cli α} {value : α} {change : Error → Error}
    (comes : Comes caller input command machine value later) :
    Comes caller input (mapErr command change) machine value later := by
  apply Program.Always.bind
  apply comes.mono fun _ _ => id
  intro final reply came
  obtain ⟨there, same⟩ := came
  subst there same
  exact ⟨rfl, rfl⟩

/-- One call, where it answers so unless it fails. -/
theorem comes_perform {request : CliCall} {answer : request.Answer}
    (answers : ∀ happened, Quiet input request happened →
      machine.respond caller request happened = (.ok answer, later)) :
    Comes caller input (perform request) machine answer later := by
  constructor
  · trivial
  · intro happened quiet
    rw [answers happened quiet]
    exact ⟨rfl, rfl⟩

theorem comes_print (bytes : List UInt8) :
    Comes caller input (perform (.print bytes)) machine ()
      { machine with printed := machine.printed ++ bytes } := by
  apply comes_perform
  intro happened quiet
  obtain ⟨outcome, _, _⟩ := happened
  cases outcome with
  | failed => exact absurd rfl quiet.1
  | carriedOut chunk => rfl

theorem comes_flush : Comes caller input (perform .flush) machine () machine := by
  apply comes_perform
  intro happened quiet
  obtain ⟨outcome, _, _⟩ := happened
  cases outcome with
  | failed => exact absurd rfl quiet.1
  | carriedOut chunk =>
      change (Except.ok (), Machine.mk machine.files (machine.printed ++ [])) = _
      rw [List.append_nil]

theorem comes_readInput (limit : Nat) :
    Comes caller input (perform (.readInput limit)) machine (input.take limit) machine := by
  apply comes_perform
  intro happened quiet
  obtain ⟨outcome, supplied, _⟩ := happened
  obtain ⟨carried, same⟩ := quiet
  cases same
  cases outcome with
  | failed => exact absurd rfl carried
  | carriedOut chunk =>
      change (Except.ok _, Machine.mk machine.files (machine.printed ++ [])) = _
      rw [List.append_nil]

/-- A storage function that comes to a value when no call fails. -/
theorem comes_storage {guarantee : FileSystem → FileSystem → Prop} {function : Storage α}
    {post : List FileEvent → FileSystem → Checked Error α → Prop} {value : α} {fs : FileSystem}
    (meets : Storage.Meets caller (lone guarantee) post function machine.files)
    (clean : ∀ events final result, Clean events → post events final result →
      final = fs ∧ result = .ok value) :
    Comes caller input (storage function) machine value { machine with files := fs } := by
  have always : Program.Always (Machine.respond caller) (Quiet input) (fun _ _ => True) _
      (storage function).run machine :=
    Program.Meets.always_inject Machine.files (fun later => later.printed = machine.printed)
      CliOutcome.outcome (fun _ _ _ => rfl)
      (fun later request happened kept => (List.append_nil _).trans kept) rfl meets
  apply always.mono fun _ _ => id
  intro final result holds
  obtain ⟨printed, events, each, held⟩ := holds
  have quiet : Clean events := by
    intro event member
    obtain ⟨happened, undisturbed, same⟩ := each event member
    rw [same]
    exact undisturbed.1
  obtain ⟨files, same⟩ := clean events final.files result quiet held
  obtain ⟨finalFiles, finalPrinted⟩ := final
  cases files
  cases printed
  exact ⟨rfl, same⟩

theorem comes_reads {function : Storage α} {value : α}
    (reads : Storage.Meets caller (lone Eq) (Reads machine.files (some value)) function
      machine.files) :
    Comes caller input (storage function) machine value machine :=
  comes_storage reads fun _ _ _ quiet read =>
    ⟨read.unchanged, (read.clean quiet value).2 rfl⟩

theorem comes_run {command : Cli α} {fs fs' : FileSystem} {value : α} {printed : List UInt8}
    (comes : Comes caller input command ⟨fs, []⟩ value ⟨fs', printed⟩)
    {outcomes : Nat → CliOutcome}
    (quiet : ∀ turn, (outcomes turn).outcome ≠ .failed ∧ (outcomes turn).input = input) :
    ∃ turns events, Program.run (CliCall.respond caller) command.run fs
        ((List.range turns).map outcomes) = (some (.ok value), fs', events) ∧
      stdout events = printed := by
  obtain ⟨turns, result, final, events, ran, there, same⟩ :=
    Program.Always.finishes comes outcomes fun _ => quiet
  subst there same
  rw [run_machine] at ran
  obtain ⟨came, world⟩ := Prod.ext_iff.1 ran
  obtain ⟨left, same⟩ := Prod.ext_iff.1 world
  refine ⟨turns, events, Prod.ext came (Prod.ext (congrArg Machine.files left) same), ?_⟩
  subst same
  exact congrArg Machine.printed left

/-! ## Arguments -/

/-- The path of the unlock key is an argument or a variable of the environment. -/
def Unlocks (environment : Environment) (options : Options) (unlockPath : Path) : Prop :=
  options.unlockPath.or environment.unlockKey = some unlockPath

theorem Unlocks.resolve {options : Options} {unlockPath : Path}
    (unlocks : Unlocks environment options unlockPath) :
    resolveUnlockPath environment options.unlockPath = return unlockPath := by
  unfold Unlocks at unlocks
  unfold resolveUnlockPath
  cases supplied : options.unlockPath with
  | some path =>
      rw [supplied] at unlocks
      cases unlocks
      rfl
  | none =>
      rw [supplied, Option.none_or] at unlocks
      rw [unlocks]

/-- `seal CONTACT`, which prints the letter. -/
def SealsTo (environment : Environment) (args : List (List UInt8)) (contactAlias : List UInt8)
    (unlockPath : Path) : Prop :=
  ∃ options, parseOptions false true args = .ok options ∧ single options = .ok contactAlias ∧
    options.output = none ∧ Unlocks environment options unlockPath

/-- `open BLOB`, with or without `--keep`. -/
def OpensAt (environment : Environment) (args : List (List UInt8)) (blobPath unlockPath : Path)
    (keep : Bool) : Prop :=
  ∃ options positional, parseOpenOptions args = .ok (options, keep) ∧
    single options = .ok positional ∧ blobPath = .ofBytes positional ∧
    Unlocks environment options unlockPath

/-! ## The commands -/

variable {paths : StatePaths} {secrets : IdentitySecrets} {profile : PublicProfile}
  {unlockPath : Path}

theorem comes_exportProfile
    (stored : Contains paths.identityPublic (secrets.publicProfile primitives).encode
      machine.files) :
    Comes caller input (storage (paths.exportProfile primitives)) machine
      (secrets.publicProfile primitives) machine :=
  comes_storage (meets_exportProfile (fun _ => rfl) paths machine.files)
    fun _ _ _ quiet exported => ⟨exported.1, exported.2.2.2 quiet secrets stored⟩

theorem comes_loadIdentity
    (coherent : Coherent primitives paths unlockPath secrets profile machine.files) :
    Comes caller input (storage (paths.loadIdentity primitives unlockPath)) machine
      (secrets, profile) machine :=
  comes_storage (meets_loadIdentity Eq (fun _ => rfl) paths unlockPath machine.files)
    fun _ _ _ quiet loaded => ⟨loaded.unchanged, loaded.complete quiet secrets profile coherent⟩

theorem comes_readBlob {blobPath : Path} {blob : List UInt8}
    (there : Contains blobPath blob machine.files) (short : blob.length ≤ maxBlobLen) :
    Comes caller input (storage (Storage.readBlob blobPath)) machine blob machine := by
  apply comes_reads
  rw [← bytesAt_eq_some_iff.2 ⟨there, short⟩]
  exact reads_readRegularLimited (fun _ => rfl) blobPath maxBlobLen

/-- `identity export` prints the profile that is stored. -/
theorem comes_commandIdentity
    (stored : Contains paths.identityPublic (secrets.publicProfile primitives).encode
      machine.files) :
    Comes caller input (commandIdentity primitives paths [ascii "export"]) machine ()
      { machine with
        printed := machine.printed ++ (secrets.publicProfile primitives).encode } := by
  apply comes_then (comes_check (Checked.reject_of_not (not_not.2 rfl)))
  apply comes_then (comes_exportProfile stored)
  exact comes_print _

theorem contactAt_text {contactAlias : List UInt8} {fs : FileSystem} {contact : Contact}
    (found : contactAt primitives paths fs contactAlias = some contact) :
    fromUtf8 contactAlias = some contactAlias := by
  unfold contactAt at found
  split at found
  · rename_i valid
    exact fromUtf8_eq_some_iff.2
      ⟨utf8Valid_of_ascii fun byte member => (validateAlias_byte valid byte member).1, rfl⟩
  · cases found

theorem comes_commandSeal {args : List (List UInt8)} {contactAlias blob : List UInt8}
    {draws : SealDraws} {recipient : PublicProfile}
    (seals : SealsTo environment args contactAlias unlockPath)
    (contact : contactAt primitives paths machine.files contactAlias =
      some ⟨contactAlias, recipient⟩)
    (coherent : Coherent primitives paths unlockPath secrets profile machine.files)
    (bounded : input.length ≤ maxBodyLen)
    (made : Message.seal primitives secrets profile recipient input draws = .ok blob) :
    Comes caller input (commandSeal environment primitives paths args draws) machine ()
      { machine with printed := machine.printed ++ blob } := by
  obtain ⟨options, parsed, named, output, unlocks⟩ := seals
  have text := contactAt_text contact
  have whole : input.take (maxBodyLen + 1) = input := List.take_of_length_le (by omega)
  apply comes_then (comes_check parsed)
  apply comes_then (comes_check named)
  apply comes_then (comes_check (congrArg (Checked.okOr · _) text))
  apply comes_then
  · apply comes_reads
    rw [← contact]
    exact reads_contact (fun _ => rfl) contactAlias
  rw [unlocks.resolve]
  apply comes_then (comes_return unlockPath)
  apply comes_then (comes_loadIdentity coherent)
  apply comes_then (comes_readInput (maxBodyLen + 1))
  rw [whole]
  apply comes_then (comes_check (Checked.reject_of_not (by omega)))
  apply comes_then (comes_check made)
  rw [output]
  exact comes_then (comes_print blob) comes_flush

/-- The name of a regular file can be taken away. -/
theorem removable {path : Path} {bytes : List UInt8} {fs : FileSystem}
    (there : Contains path bytes fs) : (fs.removeFileAt path).1 = .ok () := by
  obtain ⟨file, found, _⟩ := there
  obtain ⟨place, located, standing⟩ := node_eq_ok_iff.1 found
  unfold removeFileAt
  rw [located]
  cases place with
  | inside id => cases standing
  | slot directory name =>
      change fs.lookup directory name = some (.file file) at standing
      simp only [standing]

theorem comes_consumeBlob {blobPath : Path} {blob : List UInt8}
    (there : Contains blobPath blob machine.files) :
    Comes caller input (storage (Storage.consumeBlob blobPath)) machine ()
      { machine with files := (machine.files.removeFileAt blobPath).2 } := by
  have regular : passes .file blobPath machine.files = some () := by
    obtain ⟨file, found, _⟩ := there
    unfold passes
    rw [found]
    rfl
  unfold Storage.consumeBlob
  rw [storage_bind]
  apply comes_then
  · apply comes_reads
    rw [← regular]
    have real : FileType.file ≠ .symlink := nofun
    exact reads_ensureFileType (fun _ => rfl) real blobPath _
  rw [storage_perform]
  apply comes_perform
  intro happened quiet
  obtain ⟨outcome, _, _⟩ := happened
  cases outcome with
  | failed => exact absurd rfl quiet.1
  | carriedOut chunk =>
      change ((machine.files.removeFileAt blobPath).1,
        Machine.mk (machine.files.removeFileAt blobPath).2 (machine.printed ++ [])) = _
      rw [removable there, List.append_nil]

/-- What is left of a letter that was opened. -/
def afterOpen (keep : Bool) (blobPath : Path) (fs : FileSystem) : FileSystem :=
  if keep then fs else (fs.removeFileAt blobPath).2

/-- `open` prints the letter in the file. -/
theorem comes_commandOpen {args : List (List UInt8)} {blobPath : Path} {keep : Bool}
    {contacts : List Contact} {blob : List UInt8} {letter : OpenedLetter}
    (opens : OpensAt environment args blobPath unlockPath keep)
    (coherent : Coherent primitives paths unlockPath secrets profile machine.files)
    (listed : contactsAt primitives paths machine.files = some contacts)
    (there : Contains blobPath blob machine.files)
    (accepted : Message.open primitives secrets profile contacts blob = .ok letter) :
    Comes caller input (commandOpen environment primitives paths args) machine ()
      ⟨afterOpen keep blobPath machine.files, machine.printed ++ letter.body⟩ := by
  obtain ⟨options, positional, parsed, named, same, unlocks⟩ := opens
  subst same
  have short : blob.length ≤ maxBlobLen :=
    (validBlobLen_iff.1 (Message.validBlobLen_of_open accepted)).2.1
  have accepts : Comes caller input (acceptLetter primitives paths keep (.ofBytes positional)
      unlockPath) machine
      ⟨keep, .ofBytes positional, secrets, profile, contacts, blob, letter, accepted⟩ machine := by
    apply comes_then (comes_loadIdentity coherent)
    apply comes_then
    · apply comes_reads
      rw [← listed]
      exact reads_allContacts fun _ => rfl
    apply comes_then (comes_mapErr (comes_readBlob there short))
    split
    · rename_i other accepted'
      cases accepted.symm.trans accepted'
      exact comes_return _
    · rename_i stopped refused
      cases accepted.symm.trans refused
  have delivers : Comes caller input (deliverLetter false
      ⟨keep, .ofBytes positional, secrets, profile, contacts, blob, letter, accepted⟩) machine ()
      ⟨afterOpen keep (.ofBytes positional) machine.files, machine.printed ++ letter.body⟩ := by
    have shows : Comes caller input (showLetter false letter) machine ()
        { machine with printed := machine.printed ++ letter.body } := by
      apply comes_then (comes_print letter.body)
      change Comes _ _ (ite _ _ _) _ _ _
      rw [if_neg fun ends => nomatch ends.1]
      exact comes_flush
    apply comes_then shows
    change Comes _ _ (if keep then return () else
      storage (Storage.consumeBlob (.ofBytes positional))) _ _ _
    unfold afterOpen
    cases keep with
    | true => exact comes_return ()
    | false => exact @comes_consumeBlob _ _ ⟨machine.files, _⟩ _ _ there
  apply comes_then
  · apply comes_then (comes_check parsed)
    apply comes_then (comes_check named)
    rw [unlocks.resolve]
    apply comes_then (comes_return unlockPath)
    exact accepts
  · exact delivers

end Cli

end Sealed
