import Sealed.CliCalls
import Sealed.CommandFrame
import Sealed.InitializeProperties
import Sealed.OpenProperties
import Sealed.TrustProperties

/-! What each command changes when it is alone, and what it stored when it succeeds. `open`
takes a name from a file of the length of a letter, and the others only from their own files. -/

set_option autoImplicit false

namespace Sealed

open Foundation FileSystem Storage

variable {primitives : Primitives} {caller : Nat} {environment : Environment} {fs : FileSystem}

namespace Cli

variable {α β : Type} {guarantee : FileSystem → FileSystem → Prop}

/-! ## Commands that are alone -/

/-- Every call of a command keeps the guarantee, and such a result holds where it ends. Nobody
else acts. -/
def Meets (caller : Nat) (guarantee : FileSystem → FileSystem → Prop)
    (post : FileSystem → Checked Error α → Prop) (command : Cli α) (fs : FileSystem) : Prop :=
  Program.Meets (CliCall.respond caller) (Contract.alone guarantee) (fun _ => post) command.run fs

theorem meets_then {command : Cli α} {rest : α → Cli β}
    {post : FileSystem → Checked Error α → Prop} {goal : FileSystem → Checked Error β → Prop}
    (first : Meets caller guarantee post command fs)
    (next : ∀ later value, post later (.ok value) → Meets caller guarantee goal (rest value) later)
    (stops : ∀ later stopped, post later (.error stopped) → goal later (.error stopped)) :
    Meets caller guarantee goal (command >>= rest) fs := by
  apply Program.Meets.andThen
  apply Program.Meets.consequence first
  intro events later result holds
  cases result with
  | ok value => exact next later value holds
  | error stopped =>
      intro final relied
      cases relied
      exact stops later stopped holds

theorem meets_weaken {wider : FileSystem → FileSystem → Prop} {command : Cli α}
    {post goal : FileSystem → Checked Error α → Prop} (meets : Meets caller guarantee post command fs)
    (steps : ∀ before after, guarantee before after → wider before after)
    (consequence : ∀ later result, post later result → goal later result) :
    Meets caller wider goal command fs :=
  Program.Meets.weaken meets (fun _ _ same => same) steps fun _ => consequence

theorem meets_check {post : FileSystem → Checked Error α → Prop} {result : Result α}
    (holds : post fs result) : Meets caller guarantee post (check result) fs := by
  intro later relied
  cases relied
  exact holds

theorem meets_storage {post : FileSystem → Checked Error α → Prop} {function : Storage α}
    (meets : Storage.Meets caller (lone guarantee) (fun _ => post) function fs) :
    Meets caller guarantee post (storage function) fs :=
  Program.Meets.inject (CliCall.respond caller) CliOutcome.outcome (fun _ _ _ => rfl) meets

theorem meets_looking {command : Cli α} (idle : ∀ fs, guarantee fs fs)
    (makes : Makes CliCall.ReadOnly command) :
    Meets caller guarantee (fun later _ => later = fs) command fs := by
  have unchanged := Program.Confined.meets_unchanged makes idle
    (fun request readOnly fs happened => @CliCall.respond_readOnly caller request readOnly fs happened)
    fs
  exact unchanged.consequence fun _ _ _ holds => holds.1

theorem meets_perform {request : CliCall}
    (steps : ∀ happened, guarantee fs (CliCall.respond caller fs request happened).2) :
    Meets caller guarantee (fun _ _ => True) (perform request) fs := by
  intro later relied happened
  cases relied
  refine ⟨steps happened, ?_⟩
  generalize CliCall.respond caller fs request happened = answer
  obtain ⟨reply, after⟩ := answer
  cases reply <;> exact fun _ _ => trivial

theorem meets_mapErr {command : Cli α} {change : Error → Error}
    {post goal : FileSystem → Checked Error α → Prop}
    (meets : Meets caller guarantee post command fs)
    (maps : ∀ later result, post later result → goal later (Checked.mapErr result change)) :
    Meets caller guarantee goal (mapErr command change) fs := by
  apply Program.Meets.bind
  apply Program.Meets.consequence meets
  intro events later result holds final relied
  cases relied
  exact maps later result holds

theorem meets_afterLooking {command : Cli α} {rest : α → Cli β}
    {goal : FileSystem → Checked Error β → Prop} (idle : ∀ fs, guarantee fs fs)
    (makes : Makes CliCall.ReadOnly command)
    (next : ∀ value, Meets caller guarantee goal (rest value) fs)
    (stops : ∀ stopped, goal fs (.error stopped)) :
    Meets caller guarantee goal (command >>= rest) fs := by
  apply meets_then (meets_looking idle makes)
  · intro later value same
    cases same
    exact next value
  · intro later stopped same
    cases same
    exact stops stopped

theorem meets_afterCheck {result : Result α} {rest : α → Cli β}
    {goal : FileSystem → Checked Error β → Prop}
    (next : ∀ value, Meets caller guarantee goal (rest value) fs)
    (stops : ∀ stopped, goal fs (.error stopped)) :
    Meets caller guarantee goal (check result >>= rest) fs := by
  cases result with
  | ok value => exact next value
  | error stopped => exact meets_check (stops stopped)

theorem meets_afterAsking {asks : Cli α} {rest : α → Cli β}
    {goal : FileSystem → Checked Error β → Prop} (idle : ∀ fs, guarantee fs fs)
    (makes : Makes CliCall.Apart asks) (next : ∀ value, Meets caller guarantee goal (rest value) fs)
    (stops : ∀ stopped, goal fs (.error stopped)) :
    Meets caller guarantee goal (asks >>= rest) fs :=
  meets_afterLooking idle
    (Program.Confined.mono makes (fun _ => CliCall.Apart.readOnly) fun _ _ => trivial) next stops

theorem meets_afterReading {function : Storage α} {rest : α → Cli β}
    {goal : FileSystem → Checked Error β → Prop} (idle : ∀ fs, guarantee fs fs)
    (makes : Storage.Makes (fun request => request.ReadOnly) function)
    (next : ∀ value, Meets caller guarantee goal (rest value) fs)
    (stops : ∀ stopped, goal fs (.error stopped)) :
    Meets caller guarantee goal (storage function >>= rest) fs :=
  meets_afterLooking idle (makes_looking (fun _ => id) makes) next stops

/-! ## `init` -/

/-- The three files of a state that the caller made, all of them whole. -/
def Founded (primitives : Primitives) (caller : Nat) (root : Path) (draws : InitializeDraws)
    (fs : FileSystem) : Prop :=
  ∃ unlockPath unlockKey secrets encrypted unlock identity secret,
    Drawn primitives draws unlockKey secrets encrypted ∧
    Keeping caller unlockPath unlock (encodeUnlockKey unlockKey) fs ∧
    Keeping caller (StatePaths.fromRoot root).identityPublic identity
      (secrets.publicProfile primitives).encode fs ∧
    Keeping caller (StatePaths.fromRoot root).identityEncrypted secret encrypted fs

theorem meets_foundsState (root unlockPath : Path) (draws : InitializeDraws) :
    Meets caller (Step caller) (fun later result => result = .ok () →
      Founded primitives caller root draws later)
      (do let _profile ← storage
            ((StatePaths.fromRoot root).initializeState primitives unlockPath draws)) fs := by
  have initialized := @meets_initializeState caller (lone (Step caller)) fs primitives
    (respects_lone (Step caller)) (fun _ _ step => step) root unlockPath draws
  have stored : Storage.Meets caller (lone (Step caller))
      (fun _ later result => ∀ profile, result = .ok profile →
        Founded primitives caller root draws later)
      ((StatePaths.fromRoot root).initializeState primitives unlockPath draws) fs := by
    apply initialized.consequence
    intro events later result holds profile ok
    obtain ⟨unlockKey, secrets, encrypted, drawn, rfl, unlock, identity, secret, kept⟩ :=
      holds.stored profile ok
    exact ⟨unlockPath, unlockKey, secrets, encrypted, unlock, identity, secret, drawn, kept⟩
  apply meets_then (meets_storage stored)
  · intro later profile founded
    exact meets_check fun _ => founded profile rfl
  · exact fun later stopped _ => nofun

theorem meets_commandInit (root : Path) (args : List (List UInt8)) (draws : InitializeDraws) :
    Meets caller (Step caller) (fun later result => result = .ok () →
      Founded primitives caller root draws later)
      (commandInit environment primitives (.fromRoot root) args draws) fs := by
  have idle : ∀ fs, Step caller fs fs := .idle
  apply meets_afterCheck _ fun _ => nofun
  intro options
  apply meets_afterCheck _ fun _ => nofun
  intro _
  apply meets_afterAsking idle (makes_resolveUnlockPath (fun _ => id) environment _) _
    fun _ => nofun
  intro unlockPath
  exact meets_foundsState root unlockPath draws

theorem step_createDir (path : Path) (fs : FileSystem) (happened : CliOutcome) :
    Step caller fs (CliCall.respond caller fs (.file (.createDir path)) happened).2 := by
  obtain ⟨outcome, _, _⟩ := happened
  cases outcome with
  | failed => exact .idle fs
  | carriedOut chunk =>
      change Step caller fs (fs.createDirAt path).2
      rcases fs.createDirAt_cases path with ⟨directory, name, located, free, made⟩ | ⟨_, _, refused⟩
      · rw [made]
        exact .createDirectory fs directory name (slot_lt located) free
      · rw [refused]
        exact .idle fs

theorem meets_createDirAll (rounds : Nat) (path : Path) :
    Meets caller (Step caller) (fun _ _ => True) (storage (createDirAll rounds path)) fs := by
  have makes : Makes
      (fun request => request.ReadOnly ∨ ∃ path, request = .file (.createDir path))
      (storage (createDirAll rounds path)) := by
    have creates := @Storage.makes_createDirAll
      (fun request => request.ReadOnly ∨ ∃ path, request = .createDir path) (fun _ => .inl)
      rounds path fun above _ => .inr ⟨above, rfl⟩
    apply makes_storage creates
    rintro request (readOnly | ⟨path, rfl⟩)
    · exact .inl readOnly
    · exact .inr ⟨path, rfl⟩
  apply Program.Confined.meets makes
  rintro request (readOnly | ⟨path, rfl⟩) world happened
  · rw [CliCall.respond_readOnly readOnly]
    exact .idle world
  · exact step_createDir path world happened

theorem meets_wizardInit (root : Path) (draws : InitializeDraws) :
    Meets caller (Step caller) (fun later result => result = .ok () →
      Founded primitives caller root draws later)
      (wizardInit environment primitives (.fromRoot root) draws) fs := by
  have idle : ∀ fs, Step caller fs fs := .idle
  unfold wizardInit
  apply meets_afterAsking idle (makes_projectLocalUnlockPath environment) _ fun _ => nofun
  intro defaultUnlockPath
  apply meets_afterAsking idle (makes_promptPath (fun _ => id) environment _) _ fun _ => nofun
  intro unlockPath
  apply meets_afterReading idle (Storage.makes_pathExists (fun _ => id) _) _ fun _ => nofun
  intro there
  have finish := fun (later : FileSystem) (made : Unit) (_ : True) =>
    @meets_foundsState primitives caller later root unlockPath draws
  dsimp only
  split
  · split
    · exact meets_then (meets_createDirAll _ _) finish fun _ _ _ => nofun
    · apply meets_afterAsking idle (makes_promptYesNo (fun _ => id) true) _ fun _ => nofun
      intro create
      apply meets_afterCheck _ fun _ => nofun
      intro _
      exact meets_then (meets_createDirAll _ _) finish fun _ _ _ => nofun
  · exact meets_foundsState root unlockPath draws

/-! ## `trust` -/

theorem meets_trust (paths : StatePaths) (source : Path) (contactAlias : List UInt8) :
    Meets caller (Step caller) (fun later result => result = .ok () →
      ∃ profile, paths.Pinned contactAlias profile later)
      (do let _profile ← storage (paths.trustProfile primitives source contactAlias)) fs := by
  have preserves : Storage.Preserves (lone (Step caller)) := by
    rintro before _ rfl
    exact .refl before
  have pins := @StatePaths.meets_trustProfile primitives caller paths contactAlias
    (lone (Step caller)) fs (respects_lone _) preserves source
  have pinned : Storage.Meets caller (lone (Step caller))
      (fun _ later result => ∀ profile, result = .ok profile →
        paths.Pinned contactAlias profile later)
      (paths.trustProfile primitives source contactAlias) fs :=
    pins.weaken (fun _ _ same => same) (fun _ _ => Pins.step)
      fun _ _ _ holds profile ok => (holds profile ok).2.2
  apply meets_then (meets_storage pinned)
  · intro later profile stands
    exact meets_check fun _ => ⟨profile, stands profile rfl⟩
  · exact fun later stopped _ => nofun

theorem meets_commandTrust (paths : StatePaths) (args : List (List UInt8)) :
    Meets caller (Step caller) (fun later result => result = .ok () →
      ∃ contactAlias profile, paths.Pinned contactAlias profile later)
      (commandTrust primitives paths args) fs := by
  unfold commandTrust
  apply meets_afterCheck _ fun _ => nofun
  intro options
  apply meets_afterCheck _ fun _ => nofun
  intro source
  have finish := fun contactAlias => meets_weaken
    (@meets_trust primitives caller fs paths (.ofBytes source) contactAlias) (fun _ _ => id)
    fun later result holds ok => (⟨contactAlias, holds ok⟩ :
      ∃ contactAlias profile, paths.Pinned contactAlias profile later)
  dsimp only
  split
  · exact finish _
  · apply meets_afterCheck _ fun _ => nofun
    exact finish

theorem meets_wizardTrust (paths : StatePaths) :
    Meets caller (Step caller) (fun later result => result = .ok () →
      ∃ contactAlias profile, paths.Pinned contactAlias profile later)
      (wizardTrust environment primitives paths) fs := by
  have idle : ∀ fs, Step caller fs fs := .idle
  unfold wizardTrust
  apply meets_afterAsking idle (makes_promptPath (fun _ => id) environment _) _ fun _ => nofun
  intro profilePath
  apply meets_afterAsking idle (makes_prompt (fun _ => id) _) _ fun _ => nofun
  intro contactAlias
  apply meets_afterCheck _ fun _ => nofun
  intro _
  exact meets_weaken (meets_trust paths profilePath contactAlias) (fun _ _ => id)
    fun later result holds ok => ⟨contactAlias, holds ok⟩

/-! ## `seal` and `export` -/

theorem meets_writes (path : Path) (bytes : List UInt8) :
    Meets caller (Step caller) (fun _ _ => True) (storage (writeNewPrivate path bytes)) fs := by
  have written := @meets_writeNewPrivate caller (lone (Step caller)) (respects_lone _) .idle path
    bytes fs
    (fun moment directory name _ located free =>
      .createFile moment directory name (slot_lt located) free)
    fun moment file chunk _ holding _ => .append moment file chunk holding.own
  exact meets_storage (written.consequence fun _ _ _ _ => trivial)

theorem meets_commandSeal (paths : StatePaths) (args : List (List UInt8)) (draws : SealDraws) :
    Meets caller (Step caller) (fun _ _ => True)
      (commandSeal environment primitives paths args draws) fs := by
  have idle : ∀ fs, Step caller fs fs := .idle
  have ask : ∀ request : CliCall, request.Apart → Makes CliCall.ReadOnly (perform request) :=
    makes_ask fun _ => CliCall.Apart.readOnly
  unfold commandSeal
  apply meets_afterCheck _ fun _ => trivial
  intro options
  apply meets_afterCheck _ fun _ => trivial
  intro positional
  apply meets_afterCheck _ fun _ => trivial
  intro contactAlias
  apply meets_afterReading idle (Storage.makes_contact (fun _ => id) paths contactAlias) _
    fun _ => trivial
  intro contact
  apply meets_afterAsking idle (makes_resolveUnlockPath (fun _ => id) environment _) _
    fun _ => trivial
  intro unlockPath
  apply meets_afterReading idle (Storage.makes_loadIdentity (fun _ => id) paths unlockPath) _
    fun _ => trivial
  intro identity
  apply meets_afterLooking idle (ask (.readInput _) trivial) _ fun _ => trivial
  intro (body : List UInt8)
  apply meets_afterCheck _ fun _ => trivial
  intro _
  apply meets_afterCheck _ fun _ => trivial
  intro blob
  cases options.output with
  | some path => exact meets_writes path blob
  | none =>
      have prints : Makes CliCall.ReadOnly (do perform (.print blob); perform .flush) :=
        makes_bind (ask (.print blob) trivial) fun _ => ask .flush trivial
      exact meets_weaken (meets_looking idle prints) (fun _ _ => id) fun _ _ _ => trivial

theorem meets_commandIdentity (paths : StatePaths) (args : List (List UInt8)) :
    Meets caller (Step caller) (fun _ _ => True) (commandIdentity primitives paths args) fs := by
  have makes : Makes CliCall.ReadOnly (commandIdentity primitives paths args) := by
    apply makes_bind (makes_check _)
    intro _
    apply makes_bind (makes_looking (fun _ => id) (Storage.makes_exportProfile (fun _ => id) paths))
    intro profile
    exact makes_ask (fun _ => CliCall.Apart.readOnly) (.print profile.encode) trivial
  exact meets_weaken (meets_looking Step.idle makes) (fun _ _ => id) fun _ _ _ => trivial

theorem meets_wizardExport (paths : StatePaths) :
    Meets caller (Step caller) (fun _ _ => True) (wizardExport environment primitives paths) fs := by
  have idle : ∀ fs, Step caller fs fs := .idle
  have exports := makes_looking (fun _ => id) (@Storage.makes_exportProfile _ primitives
    (fun _ => id) paths)
  unfold wizardExport
  apply meets_afterLooking idle (makes_mapErr exports _) _ fun _ => trivial
  intro profile
  apply meets_afterAsking idle (makes_promptPath (fun _ => id) environment _) _ fun _ => trivial
  intro destination
  exact meets_writes destination profile.encode

theorem meets_wizardSeal (paths : StatePaths) (draws : SealDraws) :
    Meets caller (Step caller) (fun _ _ => True)
      (wizardSeal environment primitives paths draws) fs := by
  have idle : ∀ fs, Step caller fs fs := .idle
  unfold wizardSeal
  apply meets_afterReading idle (Storage.makes_allContacts (fun _ => id) paths) _ fun _ => trivial
  intro contacts
  apply meets_afterCheck _ fun _ => trivial
  intro _
  apply meets_afterAsking idle (makes_ask (fun _ => id) (.choose _) trivial) _ fun _ => trivial
  intro (choice : Option Nat)
  apply meets_afterCheck _ fun _ => trivial
  intro index
  apply meets_afterCheck _ fun _ => trivial
  intro selected
  apply meets_afterAsking idle (makes_promptUnlockPath (fun _ => id) environment) _ fun _ => trivial
  intro unlockPath
  apply meets_afterAsking idle (makes_promptPath (fun _ => id) environment _) _ fun _ => trivial
  intro outputPath
  apply meets_afterAsking idle (makes_readLetterFrom (fun _ => id) _ _) _ fun _ => trivial
  intro body
  apply meets_afterCheck _ fun _ => trivial
  intro _
  apply meets_afterReading idle (Storage.makes_loadIdentity (fun _ => id) paths unlockPath) _
    fun _ => trivial
  intro identity
  apply meets_afterCheck _ fun _ => trivial
  intro blob
  exact meets_writes outputPath blob

/-! ## `open` -/

/-- The bytes of a letter, as far as their number tells. -/
def LetterLength (bytes : List UInt8) : Prop := validBlobLen bytes.length = true

theorem meets_acceptLetter {guarantee : FileSystem → FileSystem → Prop}
    (idle : ∀ fs, guarantee fs fs) (paths : StatePaths) (keep : Bool)
    (blobPath unlockPath : Path) :
    Meets caller guarantee
      (fun later result => later = fs ∧ ∀ opening, result = .ok opening →
        Contains opening.blobPath opening.blob fs)
      (acceptLetter primitives paths keep blobPath unlockPath) fs := by
  unfold acceptLetter
  apply meets_afterReading idle (Storage.makes_loadIdentity (fun _ => id) paths unlockPath) _
    fun _ => ⟨rfl, nofun⟩
  intro identity
  apply meets_afterReading idle (Storage.makes_allContacts (fun _ => id) paths) _
    fun _ => ⟨rfl, nofun⟩
  intro contacts
  have alone := @meets_readAlone caller fs guarantee idle blobPath maxBlobLen
  have reads : Meets caller guarantee
      (fun later result => later = fs ∧ ∀ bytes, result = .ok bytes → Contains blobPath bytes fs)
      (storage (readBlob blobPath)) fs :=
    meets_storage (alone.consequence fun _ _ _ ⟨same, _, sound, _⟩ =>
      ⟨same, fun bytes ok => (sound bytes ok).2⟩)
  have reads' : Meets caller guarantee
      (fun later result => later = fs ∧ ∀ bytes, result = .ok bytes → Contains blobPath bytes fs)
      (mapErr (storage (readBlob blobPath)) fun _ => .cannotOpen) fs :=
    meets_mapErr reads fun later result ⟨same, sound⟩ =>
      ⟨same, fun bytes ok => sound bytes (Checked.mapErr_eq_ok_iff.1 ok)⟩
  apply meets_then reads'
  · rintro later blob ⟨rfl, stands⟩
    split
    · apply meets_check
      refine ⟨rfl, ?_⟩
      rintro _ ⟨⟩
      exact stands blob rfl
    · exact meets_check ⟨rfl, nofun⟩
  · rintro later stopped ⟨rfl, _⟩
    exact ⟨rfl, nofun⟩

theorem change_removeFile {path : Path} {bytes : List UInt8} (stands : Contains path bytes fs)
    (letter : LetterLength bytes) (happened : CliOutcome) :
    Change LetterLength caller fs
      (CliCall.respond caller fs (.file (.removeFile path)) happened).2 := by
  obtain ⟨outcome, _, _⟩ := happened
  cases outcome with
  | failed => exact .step (.idle fs)
  | carriedOut chunk =>
      change Change LetterLength caller fs (fs.removeFileAt path).2
      rcases fs.removeFileAt_cases path with
        ⟨directory, name, node, located, found, _, removed⟩ | ⟨_, refused⟩
      · rw [removed]
        obtain ⟨file, there, rfl⟩ := stands
        cases (node_eq_ok_iff.2 ⟨_, located, found⟩).symm.trans there
        exact .consume fs directory name file found letter
      · rw [refused]
        exact .step (.idle fs)

/-- The removal takes the name of the letter that was read. -/
theorem meets_deliverLetter (wizard : Bool) (opening : Opening primitives)
    (stands : Contains opening.blobPath opening.blob fs) :
    Meets caller (Change LetterLength caller) (fun _ _ => True) (deliverLetter wizard opening)
      fs := by
  have idle : ∀ fs, Change LetterLength caller fs fs := fun fs => .step (.idle fs)
  unfold deliverLetter
  apply meets_afterAsking idle (makes_showLetter (fun _ => id) _ _) _ fun _ => trivial
  intro _
  split
  · exact meets_check trivial
  · unfold consumeBlob
    rw [storage_bind]
    apply meets_afterReading idle (Storage.makes_ensureFileType (fun _ => id) _ _ _) _
      fun _ => trivial
    intro _
    rw [storage_perform]
    have letter : LetterLength opening.blob := Message.validBlobLen_of_open opening.accepted
    exact meets_perform (change_removeFile stands letter)

theorem Opens.meets {guarantee : FileSystem → FileSystem → Prop} (idle : ∀ fs, guarantee fs fs)
    {paths : StatePaths} {openLetter : Cli (Opening primitives)}
    (opens : Opens primitives paths openLetter) :
    Meets caller guarantee (fun later result => ∀ opening, result = .ok opening →
      Contains opening.blobPath opening.blob later) openLetter fs := by
  induction opens with
  | accept keep blobPath unlockPath =>
      apply meets_weaken (meets_acceptLetter idle paths keep blobPath unlockPath) (fun _ _ => id)
      rintro later result ⟨rfl, stands⟩
      exact stands
  | asked asks _ ih => exact meets_afterAsking idle asks ih fun _ => nofun

theorem meets_delivers (wizard : Bool) {paths : StatePaths} {openLetter : Cli (Opening primitives)}
    (opens : Opens primitives paths openLetter) :
    Meets caller (Change LetterLength caller) (fun _ _ => True)
      (openLetter >>= deliverLetter wizard) fs := by
  apply meets_then (opens.meets fun fs => .step (.idle fs))
  · intro later opening stands
    exact meets_deliverLetter wizard opening (stands opening rfl)
  · exact fun _ _ _ => trivial

theorem meets_commandOpen (paths : StatePaths) (args : List (List UInt8)) :
    Meets caller (Change LetterLength caller) (fun _ _ => True)
      (commandOpen environment primitives paths args) fs :=
  meets_delivers false (opens_commandOpenLetter environment paths args)

theorem meets_wizardOpen (paths : StatePaths) :
    Meets caller (Change LetterLength caller) (fun _ _ => True)
      (wizardOpen environment primitives paths) fs :=
  meets_delivers true (opens_wizardOpenLetter environment paths)

end Cli

end Sealed
