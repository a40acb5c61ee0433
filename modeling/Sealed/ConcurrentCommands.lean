import Sealed.Foundation.FileSystemSharing
import Sealed.Intentions

/-! Commands of any number of processes, between whose calls the others may act. What was stored
before them they leave alone, as long as it is no letter. -/

set_option autoImplicit false

namespace Sealed

open Foundation FileSystem

variable {consumable : List UInt8 → Prop} {bound caller : Nat} {fs before after : FileSystem}
  {primitives : Primitives} {environment : Environment}

/-! ## Everything but removals -/

namespace Effects

/-- The file that was created last is not one of those below the number. -/
def Owned (bound : Nat) (last : LastFile) (fs : FileSystem) : Prop :=
  bound ≤ fs.nextFile ∧ ∀ path file, last = some (path, file) → bound ≤ file

theorem owned_none (below : bound ≤ fs.nextFile) : Owned bound .none fs := by
  refine ⟨below, ?_⟩
  intro path file same
  cases same

theorem Owned.shares {last : LastFile} (owned : Owned bound last before)
    (shares : Shares consumable bound before after) : Owned bound last after :=
  ⟨Nat.le_trans owned.1 shares.nextFile, owned.2⟩

theorem Owned.acts {last : LastFile} (owned : Owned bound last fs) (request : FileCall)
    (permits : growing.permits last request) (outcome : Outcome) :
    Shares consumable bound fs (FileSystem.respond caller fs request outcome).2 ∧
      Owned bound (advance last request (FileSystem.respond caller fs request outcome).1)
        (FileSystem.respond caller fs request outcome).2 := by
  by_cases readOnly : request.ReadOnly
  · rw [FileSystem.respond_readOnly readOnly outcome, advance_readOnly readOnly]
    exact ⟨.refl fs, owned⟩
  · cases outcome with
    | failed =>
        rw [FileSystem.respond_failed]
        refine ⟨.refl fs, ?_⟩
        cases request <;> exact owned
    | carriedOut chunk =>
        cases request with
        | lstat | stat | setMode | sync | openRead | fileLength | read | readDir =>
            exact absurd trivial readOnly
        | removeFile path => exact permits.elim
        | createDir path =>
            have stays : ∀ shares : Shares consumable bound fs (fs.createDirAt path).2,
                Shares consumable bound fs (fs.createDirAt path).2 ∧
                  Owned bound last (fs.createDirAt path).2 := fun shares =>
              ⟨shares, owned.shares shares⟩
            apply stays
            rcases fs.createDirAt_cases path with ⟨directory, name, located, free, made⟩ |
              ⟨_, kind, refused⟩
            · rw [made]
              exact shares_createDirectory (slot_lt located) free
            · rw [refused]
              exact .refl fs
        | createNew path =>
            change Shares _ _ _ (fs.createNewAt caller path).2 ∧
              Owned bound (advance last (.createNew path) (fs.createNewAt caller path).1)
                (fs.createNewAt caller path).2
            rcases fs.createNewAt_cases caller path with ⟨directory, name, located, free, made⟩ |
              ⟨_, kind, refused⟩
            · rw [made]
              have inside := slot_lt located
              have shares := @shares_createFile consumable bound fs _ _ caller inside free
              refine ⟨shares, Nat.le_trans owned.1 shares.nextFile, ?_⟩
              intro other file same
              cases same
              exact owned.1
            · rw [refused]
              exact ⟨.refl fs, owned⟩
        | write file bytes =>
            obtain ⟨path, whole, same, _⟩ := permits
            have shares := @shares_append consumable bound fs file (owned.2 path file same)
              (bytes.take (chunk + 1))
            exact ⟨shares, owned.shares shares⟩

end Effects

namespace Storage

variable {α : Type}

/-- Among others, the function shares the file system with them, and such a result holds where it
ends. -/
def Cooperates (consumable : List UInt8 → Prop) (bound caller : Nat)
    (holds : FileSystem → Checked Error α → Prop) (storage : Storage α) (fs : FileSystem) : Prop :=
  Program.Cooperates (FileSystem.respond caller) (common consumable bound) holds storage.run fs

theorem cooperates_from {holds : Effects.LastFile → Checked Error α → Prop} {storage : Storage α}
    {last : Effects.LastFile}
    (follows : Program.Follows Effects.growing.monitor holds storage.run last)
    (owned : Effects.Owned bound last fs) :
    Cooperates consumable bound caller (fun _ _ => True) storage fs := by
  have cooperates : Program.Cooperates (FileSystem.respond caller) (common consumable bound) _
      storage.run fs := follows.cooperates owned
    (fun _ _ _ shares owned => owned.shares shares)
    fun _ _ request outcome owned permits => owned.acts request permits outcome
  exact cooperates.mono fun _ _ _ => trivial

theorem cooperates_follows {storage : Storage α} (follows : Follows Effects.growing storage)
    (below : bound ≤ fs.nextFile) :
    Cooperates consumable bound caller (fun _ _ => True) storage fs :=
  cooperates_from (follows none) (Effects.owned_none below)

/-! ## `initialize` -/

theorem cooperates_createNew (path : Path) (below : bound ≤ fs.nextFile) :
    Cooperates consumable bound caller
      (fun later result => ∀ file, result = .ok file →
        bound ≤ file ∧ Removable consumable bound path later)
      (perform (.createNew path)) fs := by
  intro later relied outcome
  have below := Nat.le_trans below relied.nextFile
  have owned : Effects.Owned bound none later := Effects.owned_none below
  constructor
  · exact (owned.acts (.createNew path) ⟨[], trivial⟩ outcome).1
  · cases outcome with
    | failed =>
        intro final _ file same
        cases same
    | carriedOut chunk =>
        simp only [FileSystem.respond]
        rcases later.createNewAt_cases caller path with ⟨directory, name, located, free, made⟩ |
          ⟨_, kind, refused⟩
        · rw [made]
          intro final shares file same
          cases same
          have removable := @removable_createFile consumable bound later path _ caller _ located
            free below
          have grown : bound ≤ (later.createFile caller directory name).nextFile := by
            rw [nextFile_createFile (slot_lt located)]
            exact Nat.le_succ_of_le below
          exact ⟨below, removable.shares grown shares⟩
        · rw [refused]
          intro final _ file same
          cases same

/-- Where the file was written, its name may be taken away again. -/
theorem cooperates_writeNewPrivate (path : Path) (bytes : List UInt8)
    (below : bound ≤ fs.nextFile) :
    Cooperates consumable bound caller
      (fun later result => result = .ok () → Removable consumable bound path later)
      (writeNewPrivate path bytes) fs := by
  have looks := fun (request : FileCall) (readOnly : request.ReadOnly) => readOnly
  apply cooperates_then below
    (cooperates_follows (follows_looking (makes_ensureFileType looks _ _ _)) below)
  · intro later _ below _ _
    apply cooperates_then below (cooperates_createNew path below)
    · intro later file below _ known
      obtain ⟨own, removable⟩ := known file rfl
      have writes := @follows_writeAll Effects.growing path file bytes trivial bytes.length bytes
        List.suffix_rfl
      have owned : Effects.Owned bound (some (path, file)) later := by
        refine ⟨below, fun _ _ same => ?_⟩
        cases same
        exact own
      have finishes : Follows Effects.growing (do
          perform (.sync file)
          setPrivatePermissions path) :=
        follows_looking (makes_bind (makes_look looks (.sync file) trivial)
          fun _ => makes_setPrivatePermissions looks path)
      apply cooperates_then below (cooperates_from writes owned)
      · intro final _ grown shares _
        have removable := removable.shares below shares
        apply (cooperates_follows finishes grown).since.mono
        exact fun last _ since _ => removable.shares grown since.1
      · exact fun _ _ => nofun
    · exact fun _ _ => nofun
  · exact fun _ _ => nofun

theorem shares_removeFile {path : Path} (removable : Removable consumable bound path fs)
    (outcome : Outcome) :
    Shares consumable bound fs (FileSystem.respond caller fs (.removeFile path) outcome).2 := by
  cases outcome with
  | failed => exact .refl fs
  | carriedOut chunk => exact removable.removeFile

theorem cooperates_initializeFiles (paths : StatePaths) (unlockPath : Path)
    (unlockBytes profileBytes encrypted : List UInt8) (below : bound ≤ fs.nextFile) :
    Cooperates consumable bound caller (fun _ _ => True)
      (paths.initializeFiles unlockPath unlockBytes profileBytes encrypted) fs := by
  apply cooperates_then below (cooperates_writeNewPrivate unlockPath unlockBytes below) _
    fun _ _ => trivial
  intro later _ below _ _
  apply cooperates_then below
    (cooperates_writeNewPrivate paths.identityPublic profileBytes below) _ fun _ _ => trivial
  intro later _ below _ written
  have removable := written rfl
  have writes := @cooperates_writeNewPrivate consumable bound caller _ paths.identityEncrypted
    encrypted below
  have lifted : Cooperates consumable bound caller (fun _ _ => True)
      (ExceptT.lift (writeNewPrivate paths.identityEncrypted encrypted).run) later :=
    (Program.Meets.map writes).consequence fun _ _ _ _ => trivial
  apply cooperates_then below lifted _ fun _ _ => trivial
  intro final result grown shares _
  have removable := removable.shares below shares
  cases result with
  | ok _ => exact fun _ _ => trivial
  | error stopped =>
      -- The rollback finds what this call has made, or what is newer still.
      intro last shares outcome
      exact ⟨shares_removeFile (removable.shares grown shares) outcome, fun _ _ => trivial⟩

theorem cooperates_initializeState (root unlockPath : Path) (draws : InitializeDraws)
    (below : bound ≤ fs.nextFile) :
    Cooperates consumable bound caller (fun _ _ => True)
      ((StatePaths.fromRoot root).initializeState primitives unlockPath draws) fs := by
  have makes := fun path => @follows_createPrivateDirectory Effects.growing path trivial
  rw [initializeState_eq]
  apply cooperates_then below (cooperates_follows (follows_initializeChecks _ _) below) _
    fun _ _ => trivial
  intro later _ below _ _
  have directories : Follows Effects.growing (StatePaths.fromRoot root).initializeDirectories := by
    apply follows_bind (makes _)
    intro _
    apply follows_checked (Checked.noPanic_okOr _ _)
    intro parent _
    exact follows_bind (makes _) fun _ => makes _
  apply cooperates_then below (cooperates_follows directories below) _ fun _ _ => trivial
  intro later _ below _ _
  cases drawIdentity primitives draws with
  | error stopped => exact fun _ _ => trivial
  | ok drawn =>
      apply (cooperates_initializeFiles _ _ _ _ _ below).andThen _ fun _ _ => trivial
      exact fun _ _ _ _ _ _ => trivial

end Storage

/-! ## Commands -/

namespace Cli

variable {α : Type}

/-- Among others, the command shares the file system with them, and such a result holds where it
ends. -/
def Cooperates (consumable : List UInt8 → Prop) (bound caller : Nat)
    (holds : FileSystem → Checked Error α → Prop) (command : Cli α) (fs : FileSystem) : Prop :=
  Program.Cooperates (CliCall.respond caller) (common consumable bound) holds command.run fs

theorem cooperates_storage {holds : FileSystem → Checked Error α → Prop} {function : Storage α}
    (cooperates : Storage.Cooperates consumable bound caller holds function fs) :
    Cooperates consumable bound caller holds (storage function) fs :=
  Program.Meets.inject (CliCall.respond caller) CliOutcome.outcome (fun _ _ _ => rfl) cooperates

theorem cooperates_looking {command : Cli α} (makes : Makes CliCall.ReadOnly command) :
    Cooperates consumable bound caller (fun _ _ => True) command fs :=
  Program.Confined.cooperates makes (fun _ readOnly world happened =>
    CliCall.respond_readOnly readOnly world happened) fs

theorem cooperates_apart {command : Cli α} (makes : Makes CliCall.Apart command) :
    Cooperates consumable bound caller (fun _ _ => True) command fs :=
  cooperates_looking (Program.Confined.mono makes (fun _ => CliCall.Apart.readOnly)
    fun _ => id)

theorem acts_apart {last : Effects.LastFile} {world : FileSystem}
    (owned : Effects.Owned bound last world) {request : CliCall} (apart : request.Apart)
    (happened : CliOutcome) :
    Shares consumable bound world (CliCall.respond caller world request happened).2 ∧
      Effects.Owned bound
        (Effects.advanceCli last request (CliCall.respond caller world request happened).1)
        (CliCall.respond caller world request happened).2 := by
  rw [CliCall.respond_readOnly apart.readOnly]
  refine ⟨.refl world, ?_⟩
  cases request with
  | file request => exact apart.elim
  | print | flush | readInput | readLine | choose => exact owned

theorem cooperates_follows {command : Cli α} (follows : Follows .growing command)
    (below : bound ≤ fs.nextFile) :
    Cooperates consumable bound caller (fun _ _ => True) command fs := by
  have owned : Effects.Owned bound none fs := Effects.owned_none below
  have acts : ∀ last world (request : CliCall) (happened : CliOutcome),
      Effects.Owned bound last world → Effects.growing.permitsCli last request →
        Shares consumable bound world (CliCall.respond caller world request happened).2 ∧
          Effects.Owned bound
            (Effects.advanceCli last request (CliCall.respond caller world request happened).1)
            (CliCall.respond caller world request happened).2 := by
    intro last world request happened owned permits
    cases request with
    | file request => exact owned.acts request permits happened.outcome
    | print | flush | readInput | readLine | choose =>
        apply acts_apart owned
        trivial
  have cooperates : Program.Cooperates (CliCall.respond caller) (common consumable bound) _
      command.run fs := (follows none).cooperates owned
    (fun _ _ _ shares owned => owned.shares shares) acts
  exact cooperates.mono fun _ _ _ => trivial

/-! ## `init` -/

theorem cooperates_initialized (root unlockPath : Path) (draws : InitializeDraws)
    (below : bound ≤ fs.nextFile) :
    Cooperates consumable bound caller (fun _ _ => True)
      (do let _profile ← storage
            ((StatePaths.fromRoot root).initializeState primitives unlockPath draws)) fs := by
  apply (cooperates_storage (Storage.cooperates_initializeState root unlockPath draws
    below)).andThen _ fun _ _ => trivial
  exact fun _ _ _ _ _ _ => trivial

theorem cooperates_commandInit (root : Path) (args : List (List UInt8)) (draws : InitializeDraws)
    (below : bound ≤ fs.nextFile) :
    Cooperates consumable bound caller (fun _ _ => True)
      (commandInit environment primitives (.fromRoot root) args draws) fs := by
  apply cooperates_then below (cooperates_apart (makes_check _)) _ fun _ _ => trivial
  intro later options below _ _
  apply cooperates_then below (cooperates_apart (makes_check _)) _ fun _ _ => trivial
  intro later _ below _ _
  apply cooperates_then below
    (cooperates_apart (makes_resolveUnlockPath (fun _ => id) environment _)) _ fun _ _ => trivial
  exact fun later unlockPath below _ _ => cooperates_initialized root unlockPath draws below

theorem cooperates_wizardInit (root : Path) (draws : InitializeDraws)
    (below : bound ≤ fs.nextFile) :
    Cooperates consumable bound caller (fun _ _ => True)
      (wizardInit environment primitives (.fromRoot root) draws) fs := by
  apply cooperates_then below (cooperates_apart (makes_projectLocalUnlockPath environment)) _
    fun _ _ => trivial
  intro later defaultUnlockPath below _ _
  apply cooperates_then below (cooperates_apart (makes_promptPath (fun _ => id) environment _)) _
    fun _ _ => trivial
  intro later unlockPath below _ _
  apply cooperates_then below (cooperates_looking (makes_looking (fun _ => id)
    (Storage.makes_pathExists (fun _ => id) _))) _ fun _ _ => trivial
  intro later there below _ _
  have finish : ∀ later : FileSystem, bound ≤ later.nextFile →
      Cooperates consumable bound caller (fun _ _ => True)
        (do let _profile ← storage
              ((StatePaths.fromRoot root).initializeState primitives unlockPath draws)) later :=
    fun _ below => cooperates_initialized root unlockPath draws below
  have makes : ∀ later : FileSystem, bound ≤ later.nextFile → ∀ rounds path,
      Cooperates consumable bound caller (fun _ _ => True) (do
        storage (Storage.createDirAll rounds path)
        let _profile ← storage
          ((StatePaths.fromRoot root).initializeState primitives unlockPath draws)) later := by
    intro later below rounds path
    have follows := @follows_createDirAll Effects.growing rounds path fun _ _ => trivial
    apply cooperates_then below (cooperates_follows follows below) _ fun _ _ => trivial
    exact fun final _ below _ _ => finish final below
  dsimp only
  split
  · split
    · exact makes later below _ _
    · apply cooperates_then below (cooperates_apart (makes_promptYesNo (fun _ => id) true)) _
        fun _ _ => trivial
      intro later create below _ _
      apply cooperates_then below (cooperates_apart (makes_check _)) _ fun _ _ => trivial
      exact fun later _ below _ _ => makes later below _ _
  · exact finish later below

/-! ## `open` -/

/-- What was read as a letter from a path may lose its name there. -/
theorem cooperates_readBlob (path : Path) (below : bound ≤ fs.nextFile) :
    Storage.Cooperates consumable bound caller
      (fun later result => ∀ bytes, result = .ok bytes → consumable bytes →
        Removable consumable bound path later)
      (Storage.readBlob path) fs := by
  have reads : Storage.Meets caller (common consumable bound).contract _
      (Storage.readBlob path) fs :=
    Storage.meets_readRegularLimited (fun _ => Shares.refl _)
      (fun _ _ shares => Shares.grows shares) path maxBlobLen
  unfold Storage.Cooperates Program.Cooperates
  apply reads.consequence
  intro events later result regular bytes read letter
  obtain ⟨_, seen, opened, moment, file, before, looked, held, left, type, there, same⟩ :=
    regular.sound bytes read
  have spared : file < bound → consumable (opened.contents file) := by
    intro small
    rw [← Shares.contents held file small, same]
    exact letter
  have grown := Nat.le_trans below (before.trans looked).nextFile
  exact (removable_opened type looked there spared).shares grown (held.trans left)

theorem cooperates_acceptLetter (letters : ∀ bytes, LetterLength bytes → consumable bytes)
    (paths : StatePaths) (keep : Bool) (blobPath unlockPath : Path)
    (below : bound ≤ fs.nextFile) :
    Cooperates consumable bound caller
      (fun later result => ∀ opening, result = .ok opening →
        Removable consumable bound opening.blobPath later)
      (acceptLetter primitives paths keep blobPath unlockPath) fs := by
  unfold acceptLetter
  apply cooperates_then below (cooperates_looking (makes_looking (fun _ => id)
    (Storage.makes_loadIdentity (fun _ => id) paths unlockPath))) _ fun _ _ _ => nofun
  intro later identity below _ _
  apply cooperates_then below (cooperates_looking (makes_looking (fun _ => id)
    (Storage.makes_allContacts (fun _ => id) paths))) _ fun _ _ _ => nofun
  intro later contacts below _ _
  have reads : Cooperates consumable bound caller
      (fun later result => ∀ bytes, result = .ok bytes → consumable bytes →
        Removable consumable bound blobPath later)
      (mapErr (storage (Storage.readBlob blobPath)) fun _ => .cannotOpen) later := by
    have stored : Cooperates consumable bound caller _ (storage (Storage.readBlob blobPath))
        later := cooperates_storage (cooperates_readBlob blobPath below)
    apply Program.Meets.bind
    apply stored.since.consequence
    intro events final result known last shares bytes same letter
    have grown := Nat.le_trans below known.1.nextFile
    exact (known.2 bytes (Checked.mapErr_eq_ok_iff.1 same) letter).shares grown shares
  apply cooperates_then below reads _ fun _ _ _ => nofun
  intro later blob below _ known
  split
  · rename_i letter accepted
    have removable := known blob rfl (letters blob (Message.validBlobLen_of_open accepted))
    intro final shares opening same
    cases same
    exact removable.shares below shares
  · exact fun _ _ _ => nofun

theorem cooperates_deliverLetter (wizard : Bool) (opening : Opening primitives)
    (removable : Removable consumable bound opening.blobPath fs) (below : bound ≤ fs.nextFile) :
    Cooperates consumable bound caller (fun _ _ => True) (deliverLetter wizard opening) fs := by
  apply cooperates_then below
    (cooperates_apart (makes_showLetter (fun _ => id) wizard opening.letter)) _ fun _ _ => trivial
  intro later _ below' shares _
  have removable := removable.shares below shares
  split
  · exact fun _ _ => trivial
  · apply cooperates_storage
    apply cooperates_then below' (Storage.cooperates_follows (Storage.follows_looking
      (Storage.makes_ensureFileType (fun _ => id) _ _ _)) below') _ fun _ _ => trivial
    intro later _ grown shares _
    have removable := removable.shares below' shares
    intro later shares outcome
    constructor
    · exact Storage.shares_removeFile (removable.shares grown shares) outcome
    · generalize (FileSystem.respond caller later (.removeFile opening.blobPath) outcome).1 = reply
      cases reply with
      | ok _ => exact fun _ _ => trivial
      | error kind => exact fun _ _ => trivial

theorem Opens.cooperates (letters : ∀ bytes, LetterLength bytes → consumable bytes)
    {paths : StatePaths} {openLetter : Cli (Opening primitives)}
    (opens : Opens primitives paths openLetter) (below : bound ≤ fs.nextFile) :
    Cooperates consumable bound caller
      (fun later result => ∀ opening, result = .ok opening →
        Removable consumable bound opening.blobPath later) openLetter fs := by
  induction opens generalizing fs with
  | accept keep blobPath unlockPath =>
      exact cooperates_acceptLetter letters paths keep blobPath unlockPath below
  | asked asks _ ih =>
      apply cooperates_then below (cooperates_apart asks) _ fun _ _ _ => nofun
      exact fun later value below _ _ => ih value below

theorem cooperates_delivers (letters : ∀ bytes, LetterLength bytes → consumable bytes)
    (wizard : Bool) {paths : StatePaths} {openLetter : Cli (Opening primitives)}
    (opens : Opens primitives paths openLetter) (below : bound ≤ fs.nextFile) :
    Cooperates consumable bound caller (fun _ _ => True)
      (openLetter >>= deliverLetter wizard) fs := by
  apply cooperates_then below (opens.cooperates letters below) _ fun _ _ => trivial
  intro later opening below _ known
  exact cooperates_deliverLetter wizard opening (known opening rfl) below

end Cli

namespace Command

theorem cooperates (command : Command) (consumes : ∀ bytes, command.Consumes bytes →
    consumable bytes) (below : bound ≤ fs.nextFile) :
    Cli.Cooperates consumable bound caller (fun _ _ => True)
      (command.run primitives environment) fs := by
  cases discovered : Cli.discover environment with
  | error stopped =>
      unfold Command.run
      rw [discovered]
      exact fun _ _ => trivial
  | ok paths =>
      obtain ⟨root, same⟩ := discover_root discovered
      subst same
      have follows : Cli.Follows command.scope (command.run primitives environment) :=
        command.follows_scope environment
      cases command with
      | identity | trust | «seal» | wizardExport | wizardTrust | wizardSeal =>
          exact Cli.cooperates_follows follows below
      | init args draws =>
          unfold Command.run
          rw [discovered]
          exact Cli.cooperates_commandInit root args draws below
      | wizardInit draws =>
          unfold Command.run
          rw [discovered]
          exact Cli.cooperates_wizardInit root draws below
      | «open» args =>
          unfold Command.run
          rw [discovered]
          exact Cli.cooperates_delivers consumes false
            (Cli.opens_commandOpenLetter environment _ args) below
      | wizardOpen =>
          unfold Command.run
          rw [discovered]
          exact Cli.cooperates_delivers consumes true
            (Cli.opens_wizardOpenLetter environment _) below

end Command

/-! ## Processes -/

/-- A command in its environment and its working directory. -/
structure Process where
  environment : Environment
  directory : Nat
  command : Command

def Process.program (primitives : Primitives) (process : Process) :
    Program CliCall.Reply (Checked Error Unit) :=
  (process.command.run primitives process.environment).run

namespace ProcessPool

def directoryOf (processes : List Process) (index : Nat) : Nat :=
  (processes[index]?.map Process.directory).getD 0

/-- The answer to a call of one of the processes, which resolves paths from its own directory. -/
def respond (processes : List Process) (index : Nat) :
    FileSystem → (request : CliCall) → CliOutcome → request.Reply × FileSystem :=
  Program.seenBy (CliCall.respond index) (Storage.seenFrom · (directoryOf processes index))
    fun before after => Storage.seenFrom after before.working

/-- The processes after such turns. One that has no further turn has died there. -/
def run (primitives : Primitives) (processes : List Process) (fs : FileSystem)
    (schedule : List (Nat × CliOutcome)) :
    Pool CliCall.Reply CliOutcome FileSystem (Checked Error Unit) :=
  Pool.run (respond processes) (Pool.start fs (processes.map (Process.program primitives))) schedule

theorem shares_seenFrom (shares : Shares consumable bound before after) {directory : Nat}
    (inside : directory < before.nextDirectory) :
    Shares consumable bound (Storage.seenFrom before directory)
      (Storage.seenFrom after directory) where
  extended := by
    have more := shares.extended.nextDirectory
    constructor
    · simpa using shares.extended.directory
    · simpa using shares.extended.symlink
    · simpa using shares.extended.parent
    · rw [Storage.working_seenFrom inside,
        Storage.working_seenFrom (Nat.lt_of_lt_of_le inside more)]
    · simpa using more
  names := by simpa using shares.names
  entry := by simpa using shares.entry
  contents := by simpa using shares.contents
  grows := by simpa using shares.grows
  creators := by simpa using shares.creators
  nextFile := by simpa using shares.nextFile

theorem cooperates_program {processes : List Process} {index : Nat} {process : Process}
    (found : processes[index]? = some process) (inside : process.directory < fs.nextDirectory)
    (consumes : ∀ bytes, process.command.Consumes bytes → consumable bytes)
    (below : bound ≤ fs.nextFile) :
    Program.Cooperates (respond processes index) (common consumable bound) (fun _ _ => True)
      (process.program primitives) fs := by
  have same : directoryOf processes index = process.directory := by
    unfold directoryOf
    rw [found]
    rfl
  unfold respond
  rw [same]
  have cooperates : Cli.Cooperates consumable bound index (fun _ _ => True)
      (process.command.run primitives process.environment)
      (Storage.seenFrom fs process.directory) :=
    process.command.cooperates consumes (by simpa using below)
  have relies : ∀ before after, process.directory < before.nextDirectory →
      (common consumable bound).step before after →
        process.directory < after.nextDirectory ∧
          (common consumable bound).step (Storage.seenFrom before process.directory)
            (Storage.seenFrom after process.directory) := by
    intro before after inside shares
    exact ⟨Nat.lt_of_lt_of_le inside shares.extended.nextDirectory, shares_seenFrom shares inside⟩
  have acts : ∀ before after, process.directory < before.nextDirectory →
      (common consumable bound).step (Storage.seenFrom before process.directory) after →
        process.directory < (Storage.seenFrom after before.working).nextDirectory ∧
          Storage.seenFrom (Storage.seenFrom after before.working) process.directory = after ∧
          (common consumable bound).step before (Storage.seenFrom after before.working) := by
    intro before after inside shares
    have more := shares.extended.nextDirectory
    have working := shares.extended.working
    rw [Storage.nextDirectory_seenFrom] at more
    rw [Storage.working_seenFrom inside] at working
    refine ⟨?_, ?_, ?_⟩
    · rw [Storage.nextDirectory_seenFrom]
      exact Nat.lt_of_lt_of_le inside more
    · rw [← working, Storage.seenFrom_seenFrom]
    · have back := @shares_seenFrom _ _ _ _ shares before.working
        (by simpa using before.workingExists)
      rw [Storage.seenFrom_seenFrom] at back
      exact back
  exact Program.Cooperates.seenBy relies acts inside cooperates

theorem run_shares {processes : List Process}
    (inside : ∀ process ∈ processes, process.directory < fs.nextDirectory)
    (schedule : List (Nat × CliOutcome)) :
    Shares (fun bytes => ∃ process ∈ processes, process.command.Consumes bytes) fs.nextFile fs
      (run primitives processes fs schedule).world := by
  have each : ∀ index program, (processes.map (Process.program primitives))[index]? = some program →
      Program.Cooperates (respond processes index)
        (common (fun bytes => ∃ process ∈ processes, process.command.Consumes bytes) fs.nextFile)
        (fun _ _ => True) program fs := by
    intro index program found
    rw [List.getElem?_map, Option.map_eq_some_iff] at found
    obtain ⟨process, found, same⟩ := found
    subst same
    have member := List.mem_of_getElem? found
    exact cooperates_program found (inside process member)
      (fun bytes consumes => ⟨process, member, consumes⟩) (Nat.le_refl _)
  exact Pool.run_shared each schedule

theorem spared_of_shares (shares : Shares consumable before.nextFile before after) :
    Storage.Spared consumable before after where
  extended := by
    rw [← shares.extended.working, Storage.seenFrom_working]
    exact shares.extended
  entry := fun directory name file found =>
    shares.entry directory name file (before.filesExist _ _ _ found) found
  contents := shares.contents
  creators := shares.creators
  nextFile := shares.nextFile

/-- Any number of processes run commands at once, in any order of their calls, and whatever fails
and wherever they die. What was stored before them they leave as it is: every key and every pin,
all that a command that succeeded has stored, and every other file, but for the name of a file of
the length of a letter, which only `open` takes away. -/
theorem keeps_keys (primitives : Primitives) (processes : List Process) (fs : FileSystem)
    (inside : ∀ process ∈ processes, process.directory < fs.nextDirectory)
    (schedule : List (Nat × CliOutcome)) :
    let after := (run primitives processes fs schedule).world
    (∀ directory name file, fs.lookup directory name = some (.file file) →
      KeyOrPin primitives (fs.contents file) →
        after.lookup directory name = some (.file file) ∧
          after.contents file = fs.contents file) ∧
    (∀ (command : Command) caller root, command.Stores primitives caller root fs →
      command.Stores primitives caller root after) ∧
    (∀ file < fs.nextFile, after.contents file = fs.contents file) ∧
    ∀ directory name file, fs.lookup directory name = some (.file file) →
      after.lookup directory name = some (.file file) ∨
        ∃ process ∈ processes, process.command.Consumes (fs.contents file) := by
  intro after
  have shares := @run_shares fs primitives processes inside schedule
  have spared : Storage.Spared Cli.LetterLength fs after := by
    apply (spared_of_shares shares).weaken
    intro bytes consumes
    obtain ⟨process, _, consumes⟩ := consumes
    exact consumes.letter
  refine ⟨?_, ?_, shares.contents, (spared_of_shares shares).entry⟩
  · intro directory name file found safe
    rcases spared.entry directory name file found with still | lost
    · exact ⟨still, spared.contents file (fs.filesExist _ _ _ found)⟩
    · exact absurd lost safe.not_letter
  · intro command caller root stores
    have kept := stores.spared spared
    rw [← shares.extended.working, Storage.seenFrom_working] at kept
    exact kept

end ProcessPool

namespace Sample

/-- Another `init`, and `open` on the unlock key. -/
def together : List Process :=
  [⟨Sample.environment, 0, .init [] draws⟩, ⟨Sample.environment, 0, .open [unlockPath.toBytes]⟩]

end Sample

theorem ProcessPool.keeps_keys_sample :
    ∃ root, Cli.discover Sample.initializing.environment = .ok (.fromRoot root) ∧
      ∀ schedule, Sample.initializing.command.Stores .transparent 0 root
        (ProcessPool.run .transparent Sample.together
          (Sample.initializing.run .transparent 0 (Storage.unclaimed .empty)).2.1
          schedule).world := by
  have succeeded : (Sample.initializing.run .transparent 0 (Storage.unclaimed .empty)).1 =
      some (.ok ()) := by decide +kernel
  obtain ⟨root, discovered, stores⟩ := Sample.initializing.stores succeeded
  refine ⟨root, discovered, fun schedule => ?_⟩
  have inside : ∀ process ∈ Sample.together, process.directory <
      (Sample.initializing.run .transparent 0 (Storage.unclaimed .empty)).2.1.nextDirectory := by
    intro process member
    have home : process.directory = 0 := by
      simp only [Sample.together, List.mem_cons, List.not_mem_nil, or_false] at member
      rcases member with same | same <;> rw [same]
    rw [home]
    exact FileSystem.rootExists _
  exact (ProcessPool.keeps_keys .transparent Sample.together _ inside schedule).2.1 _ 0 root stores

end Sealed
