import Sealed.LetterProperties
import Sealed.OptionProperties
import Sealed.QuietCommands

/-! Two people who write to each other. What their commands have stored stays good for as long
as they run, and a letter that one of them seals is what the other one reads. -/

set_option autoImplicit false

namespace Sealed

open Foundation FileSystem Storage StatePaths Cli

variable {primitives : Primitives} {caller : Nat} {environment : Environment} {fs : FileSystem}

/-! ## What a command has stored -/

/-- The three files of an identity, all of them whole. -/
structure Holds (primitives : Primitives) (root unlockPath : Path) (secrets : IdentitySecrets)
    (fs : FileSystem) : Prop where
  secret : ∃ unlockKey nonce encrypted,
    encryptPrivateIdentity primitives secrets unlockKey nonce = .ok encrypted ∧
    Contains unlockPath (encodeUnlockKey unlockKey) fs ∧
    Contains (fromRoot root).identityEncrypted encrypted fs
  identityPublic :
    Contains (fromRoot root).identityPublic (secrets.publicProfile primitives).encode fs

theorem Holds.coherent {root unlockPath : Path} {secrets : IdentitySecrets}
    (inverts : primitives.AeadInverts) (holds : Holds primitives root unlockPath secrets fs) :
    Coherent primitives (fromRoot root) unlockPath secrets (secrets.publicProfile primitives)
      fs := by
  obtain ⟨unlockKey, nonceDraw, encrypted, made, unlock, secret⟩ := holds.secret
  obtain ⟨nonce, ciphertext, _, sealing, same⟩ := encryptPrivateIdentity_eq_ok_iff.1 made
  subst same
  refine ⟨⟨unlockKey, nonce, ciphertext, unlock, secret, ?_, inverts _ _ _ _ _ sealing⟩,
    holds.identityPublic, rfl⟩
  rw [Primitives.length_encrypt sealing, length_privatePlaintext]
  rfl

theorem Holds.spared {root unlockPath : Path} {secrets : IdentitySecrets}
    {before after : FileSystem} (holds : Holds primitives root unlockPath secrets before)
    (spared : Spared LetterLength before after) :
    Holds primitives root unlockPath secrets (seenFrom after before.working) := by
  obtain ⟨unlockKey, nonce, encrypted, made, unlock, secret⟩ := holds.secret
  have unlockSafe : KeyOrPin primitives (encodeUnlockKey unlockKey) := .unlockKey unlockKey
  have secretSafe : KeyOrPin primitives encrypted := .privateIdentity made
  have publicSafe : KeyOrPin primitives (secrets.publicProfile primitives).encode := .profile _
  exact ⟨⟨unlockKey, nonce, encrypted, made, spared.contains unlock unlockSafe.not_letter,
    spared.contains secret secretSafe.not_letter⟩,
    spared.contains holds.identityPublic publicSafe.not_letter⟩

/-- The secrets that `init` draws. -/
def DrawsSecrets (draws : InitializeDraws) (secrets : IdentitySecrets) : Prop :=
  draws.identitySecret = some secrets.identitySecret ∧
    draws.agreementSecret = some secrets.agreementSecret

/-- `init`, with this unlock key. -/
def InitsAt (environment : Environment) (args : List (List UInt8)) (unlockPath : Path) : Prop :=
  ∃ options, parseOptions false false args = .ok options ∧ options.positionals = [] ∧
    Unlocks environment options unlockPath

theorem meets_checked {α β : Type} {guarantee : FileSystem → FileSystem → Prop} {result : Result α}
    {value : α} {rest : α → Cli β} {post : FileSystem → Checked Error β → Prop}
    (ok : result = .ok value) (next : Cli.Meets caller guarantee post (rest value) fs) :
    Cli.Meets caller guarantee post (Cli.check result >>= rest) fs := by
  subst ok
  exact next

theorem meets_init {root unlockPath : Path} {args : List (List UInt8)} {draws : InitializeDraws}
    (inits : InitsAt environment args unlockPath) :
    Cli.Meets caller (Step caller) (fun later result => result = .ok () →
      ∃ secrets, DrawsSecrets draws secrets ∧ Holds primitives root unlockPath secrets later)
      (commandInit environment primitives (fromRoot root) args draws) fs := by
  have initialized := @meets_initializeState caller (lone (Step caller)) fs primitives
    (respects_lone (Step caller)) (fun _ _ step => step) root unlockPath draws
  have stored : Storage.Meets caller (lone (Step caller))
      (fun _ later result => ∀ profile, result = .ok profile →
        ∃ secrets, DrawsSecrets draws secrets ∧ Holds primitives root unlockPath secrets later)
      ((fromRoot root).initializeState primitives unlockPath draws) fs := by
    apply initialized.consequence
    intro events later result holds profile ok
    obtain ⟨unlockKey, secrets, encrypted, drawn, same, unlock, identity, secret, kept⟩ :=
      holds.stored profile ok
    subst same
    exact ⟨secrets, ⟨drawn.identity, drawn.agreement⟩,
      ⟨unlockKey, draws.nonce, encrypted, drawn.ciphertext, kept.1.contains, kept.2.2.contains⟩,
      kept.2.1.contains⟩
  obtain ⟨options, parsed, none, unlocks⟩ := inits
  apply meets_checked parsed
  apply meets_checked (Checked.reject_of_not (not_not.2 none))
  rw [unlocks.resolve]
  apply Cli.meets_then (Cli.meets_storage stored)
  · intro later profile founded
    exact Cli.meets_check fun _ => founded profile rfl
  · exact fun later stopped _ => nofun

/-- `trust PROFILE`, under this name. -/
def TrustsAs (args : List (List UInt8)) (source : Path) (contactAlias : List UInt8) : Prop :=
  ∃ options positional, parseOptions true false args = .ok options ∧
    single options = .ok positional ∧ source = .ofBytes positional ∧
    options.contactAlias.or ((source.fileName.bind fun name => fromUtf8 (fileStem name)).filter
      fun stem => validateAlias stem) = some contactAlias

/-- The contact that `trust` has pinned. -/
structure Knows (primitives : Primitives) (root : Path) (contactAlias : List UInt8)
    (profile : PublicProfile) (fs : FileSystem) : Prop where
  valid : validateAlias contactAlias = true
  made : PublicProfile.parse primitives profile.encode = .ok profile
  file : Contains ((fromRoot root).contactPath contactAlias) profile.encode fs

theorem Knows.contactAt {root : Path} {contactAlias : List UInt8} {profile : PublicProfile}
    (knows : Knows primitives root contactAlias profile fs) :
    contactAt primitives (fromRoot root) fs contactAlias = some ⟨contactAlias, profile⟩ := by
  have read : bytesAt ((fromRoot root).contactPath contactAlias) 512 fs = some profile.encode :=
    bytesAt_eq_some_iff.2 ⟨knows.file, by rw [PublicProfile.length_encode]; decide⟩
  unfold StatePaths.contactAt StatePaths.profileAt
  rw [if_pos knows.valid, read]
  simp [knows.made, Except.toOption]

theorem Knows.spared {root : Path} {contactAlias : List UInt8} {profile : PublicProfile}
    {before after : FileSystem} (knows : Knows primitives root contactAlias profile before)
    (spared : Spared LetterLength before after) :
    Knows primitives root contactAlias profile (seenFrom after before.working) := by
  have safe : KeyOrPin primitives profile.encode := .profile profile
  exact ⟨knows.valid, knows.made, spared.contains knows.file safe.not_letter⟩

/-- Alone, `trust_profile` pins what the source holds. -/
theorem meets_trustsSource {root source : Path} {contactAlias : List UInt8} :
    Storage.Meets caller (lone (Step caller))
      (fun _ later result => ∀ profile, result = .ok profile →
        Contains source profile.encode fs ∧ Knows primitives root contactAlias profile later)
      ((fromRoot root).trustProfile primitives source contactAlias) fs := by
  have preserves : Storage.Preserves (lone (Step caller)) := by
    intro before later same
    cases same
    exact .refl before
  unfold trustProfile
  by_cases valid : validateAlias contactAlias = true
  · rw [check_bind (Checked.reject_of_not (not_not.2 valid))]
    apply Storage.meets_then (meets_readAlone (fun world => .idle world) source 512)
    · intro first read bytes whole
      obtain ⟨same, _, sound, _⟩ := whole
      subst same
      cases parsed : PublicProfile.parse primitives bytes with
      | error stopped => exact fun later relied _ => nofun
      | ok profile =>
          rw [check_ok_bind]
          obtain ⟨_, same⟩ := PublicProfile.parse_eq_ok_iff.1 parsed
          subst same
          have pins := @meets_pinProfile primitives caller (fromRoot root) contactAlias
            (lone (Step caller)) read (respects_lone _) preserves profile
          refine pins.weaken (fun _ _ same => same) (fun _ _ => Pins.step) ?_
          intro second later result pinned profile ok
          obtain ⟨same, standing⟩ := pinned profile ok
          subst same
          exact ⟨(sound _ rfl).2, valid, parsed, standing.file⟩
    · exact fun first read stopped _ later relied _ => nofun
  · rw [Checked.reject_of valid]
    exact fun later relied _ => nofun

theorem meets_trusts {root source : Path} {args : List (List UInt8)} {contactAlias : List UInt8}
    (trusts : TrustsAs args source contactAlias) :
    Cli.Meets caller (Step caller) (fun later result => result = .ok () → ∃ profile,
      Contains source profile.encode fs ∧ Knows primitives root contactAlias profile later)
      (commandTrust primitives (fromRoot root) args) fs := by
  obtain ⟨options, positional, parsed, named, same, chosen⟩ := trusts
  subst same
  have finish : Cli.Meets caller (Step caller) (fun later result => result = .ok () → ∃ profile,
      Contains (Path.ofBytes positional) profile.encode fs ∧
        Knows primitives root contactAlias profile later)
      (do let _profile ← storage
            ((fromRoot root).trustProfile primitives (.ofBytes positional) contactAlias)) fs := by
    apply Cli.meets_then (Cli.meets_storage meets_trustsSource)
    · exact fun later profile pinned => Cli.meets_check fun _ => ⟨profile, pinned profile rfl⟩
    · exact fun later stopped _ => nofun
  apply meets_checked parsed
  apply meets_checked named
  cases supplied : options.contactAlias with
  | some other =>
      rw [supplied] at chosen
      cases chosen
      exact finish
  | none =>
      rw [supplied, Option.none_or] at chosen
      apply meets_checked (congrArg (Checked.okOr · _) chosen)
      exact finish

/-! ## Histories -/

/-- A machine with an identity: among the commands that ran on it one after another there is an
`init` that succeeded. -/
structure Home (primitives : Primitives) where
  start : FileSystem
  earlier : List Invocation
  founding : Invocation
  later : List Invocation
  root : Path
  unlockPath : Path
  secrets : IdentitySecrets
  discovered : discover founding.environment = .ok (.fromRoot root)
  inside : founding.directory < start.nextDirectory
  founded : ∃ args draws, founding.command = .init args draws ∧
    InitsAt founding.environment args unlockPath ∧ DrawsSecrets draws secrets
  succeeded : (founding.run primitives earlier.length
    (runAll primitives 0 earlier (unclaimed start))).1 = some (.ok ())

namespace Home

variable (home : Home primitives)

def history : List Invocation := home.earlier ++ home.founding :: home.later

def profile : PublicProfile := home.secrets.publicProfile primitives

/-- The files after all these commands. -/
def left : FileSystem := runAll primitives 0 home.history (unclaimed home.start)

/-- Files as the next command sees them. -/
def sees (fs : FileSystem) : FileSystem := seenFrom fs home.founding.directory

/-- One more command. -/
def runs (command : Command) (outcomes : List CliOutcome) (fs : FileSystem) :
    Option (Checked Error Unit) × FileSystem × List CliEvent :=
  Invocation.run primitives home.history.length
    ⟨home.founding.environment, home.founding.directory, command, outcomes⟩ fs

/-- The history has a `trust` that succeeded, with a file that held this profile. -/
def Trusts (contactAlias : List UInt8) (profile : PublicProfile) : Prop :=
  ∃ before trusting after args source,
    home.history = before ++ trusting :: after ∧
    trusting.environment = home.founding.environment ∧
    trusting.directory = home.founding.directory ∧
    trusting.command = .trust args ∧ TrustsAs args source contactAlias ∧
    Contains source profile.encode
      (home.sees (runAll primitives 0 before (unclaimed home.start))) ∧
    (trusting.run primitives before.length
      (runAll primitives 0 before (unclaimed home.start))).1 = some (.ok ())

end Home

/-- What comes after a command of a history spares what it has stored. -/
theorem spared_since (primitives : Primitives) {start : FileSystem} (earlier : List Invocation)
    (made : Invocation) (later : List Invocation)
    (inside : made.directory < start.nextDirectory) :
    (made.run primitives earlier.length
        (runAll primitives 0 earlier (unclaimed start))).2.1.working = made.directory ∧
      Spared LetterLength
        (made.run primitives earlier.length (runAll primitives 0 earlier (unclaimed start))).2.1
        (runAll primitives 0 (earlier ++ made :: later) (unclaimed start)) := by
  obtain ⟨spared, older⟩ :=
    @runAll_spared primitives (unclaimed start) 0 earlier (older_unclaimed start)
  rw [Nat.zero_add] at older
  constructor
  · have more := spared.extended.nextDirectory
    rw [nextDirectory_seenFrom] at more
    rw [made.working, working_seenFrom (Nat.lt_of_lt_of_le inside more)]
  · obtain ⟨_, older'⟩ := @Invocation.spared primitives _ made _ older
    rw [runAll_append, Nat.zero_add]
    exact (@runAll_spared primitives _ _ later older').1

namespace Home

variable {home : Home primitives}

theorem drawsSecrets_unique {draws : InitializeDraws} {first second : IdentitySecrets}
    (left : DrawsSecrets draws first) (right : DrawsSecrets draws second) : first = second := by
  obtain ⟨identity, agreement⟩ := first
  obtain ⟨identity', agreement'⟩ := second
  cases left.1.symm.trans right.1
  cases left.2.symm.trans right.2
  rfl

/-- The identity is there, whatever was run since. -/
theorem holds (spared : Spared LetterLength home.left fs) :
    Holds primitives home.root home.unlockPath home.secrets (home.sees fs) := by
  obtain ⟨there, since⟩ :=
    spared_since primitives home.earlier home.founding home.later home.inside
  obtain ⟨args, draws, command, inits, drawn⟩ := home.founded
  have meets : Cli.Meets home.earlier.length (Step home.earlier.length)
      (fun later result => result = .ok () → ∃ secrets, DrawsSecrets draws secrets ∧
        Holds primitives home.root home.unlockPath secrets later)
      (home.founding.command.run primitives home.founding.environment)
      (home.sees (runAll primitives 0 home.earlier (unclaimed home.start))) := by
    unfold Command.run
    rw [home.discovered, command]
    exact meets_init inits
  obtain ⟨secrets, drawn', stored⟩ :=
    (Program.Meets.of_run meets home.founding.outcomes).1 (.ok ()) home.succeeded rfl
  cases drawsSecrets_unique drawn drawn'
  have kept := stored.spared (since.trans spared)
  change Holds _ _ _ _ (seenFrom fs (home.founding.run _ _ _).2.1.working) at kept
  rwa [there] at kept

/-- The contact that was pinned is there, whatever was run since. -/
theorem knows {contactAlias : List UInt8} {profile : PublicProfile}
    (trusts : home.Trusts contactAlias profile)
    (made : PublicProfile.parse primitives profile.encode = .ok profile)
    (spared : Spared LetterLength home.left fs) :
    Knows primitives home.root contactAlias profile (home.sees fs) := by
  obtain ⟨before, trusting, after, args, source, history, environment, directory, command, trustsAs,
    offered, succeeded⟩ := trusts
  have inside : trusting.directory < home.start.nextDirectory := by
    rw [directory]
    exact home.inside
  obtain ⟨there, since⟩ := spared_since primitives before trusting after inside
  have meets : Cli.Meets before.length (Step before.length)
      (fun later result => result = .ok () → ∃ pinned,
        Contains source pinned.encode (home.sees (runAll primitives 0 before
          (unclaimed home.start))) ∧ Knows primitives home.root contactAlias pinned later)
      (trusting.command.run primitives trusting.environment)
      (home.sees (runAll primitives 0 before (unclaimed home.start))) := by
    unfold Command.run
    rw [environment, home.discovered, command]
    exact meets_trusts trustsAs
  unfold Invocation.run at succeeded
  rw [directory] at succeeded
  obtain ⟨pinned, source', stored⟩ :=
    (Program.Meets.of_run meets trusting.outcomes).1 (.ok ()) succeeded rfl
  have same : pinned = profile := by
    have parsed := stored.made
    rw [source'.unique offered, made] at parsed
    exact (Except.ok.inj parsed).symm
  subst same
  have there' : Knows primitives home.root contactAlias pinned (trusting.run primitives
      before.length (runAll primitives 0 before (unclaimed home.start))).2.1 := by
    unfold Invocation.run
    rw [directory]
    exact stored
  rw [← history] at since
  have kept := there'.spared (since.trans spared)
  rwa [there, directory] at kept

/-! ## Commands after the history -/

/-- A command that comes to its end on these files does so in a run. -/
theorem runs_of_comes {command : Command} {input printed : List UInt8} {after : FileSystem}
    (comes : ∀ caller, Comes caller input (command.run primitives home.founding.environment)
      ⟨home.sees fs, []⟩ () ⟨after, printed⟩)
    {outcomes : Nat → CliOutcome}
    (quiet : ∀ turn, (outcomes turn).outcome ≠ .failed ∧ (outcomes turn).input = input) :
    ∃ turns events, home.runs command ((List.range turns).map outcomes) fs =
      (some (.ok ()), after, events) ∧ stdout events = printed :=
  comes_run (comes _) quiet

theorem runs_unique {command : Command} {outcomes : Nat → CliOutcome} {few many : Nat}
    (first : (home.runs command ((List.range few).map outcomes) fs).1.isSome = true)
    (second : (home.runs command ((List.range many).map outcomes) fs).1.isSome = true) :
    home.runs command ((List.range few).map outcomes) fs =
      home.runs command ((List.range many).map outcomes) fs :=
  Program.run_stream first second

end Home

namespace Message

/-- The letter that is sealed is the one that is opened. -/
theorem opens_sealed (commutes : primitives.AgreementCommutes) (inverts : primitives.AeadInverts)
    (accepts : primitives.StrictAcceptsSigned) (senderSecrets recipientSecrets : IdentitySecrets)
    {body : List UInt8} (bounded : body.length ≤ maxBodyLen) (ephemeralSeed : Bytes 32)
    (nonce : Bytes 24) (messageId : Bytes 32) (padding : (length : Nat) → Bytes length)
    (contributes : primitives.diffieHellman ephemeralSeed
      (recipientSecrets.publicProfile primitives).agreementPublic ≠ Bytes.replicate 32 0) :
    ∃ blob, Message.seal primitives senderSecrets (senderSecrets.publicProfile primitives)
        (recipientSecrets.publicProfile primitives) body
        (.drawn ephemeralSeed nonce messageId padding) = .ok blob ∧
      ∀ contacts, ∃ letter, letter.body = body ∧
        Message.open primitives recipientSecrets (recipientSecrets.publicProfile primitives)
          contacts blob = .ok letter := by
  obtain ⟨tail, ciphertext, encrypted, valid, result⟩ := seal_drawn primitives senderSecrets
    (recipientSecrets.publicProfile primitives) bounded ephemeralSeed nonce messageId padding
  have agreed : rejectAllZero (primitives.diffieHellman ephemeralSeed
      (recipientSecrets.publicProfile primitives).agreementPublic) = .ok () :=
    rejectAllZero_eq_ok_iff.2 contributes
  rw [agreed, Checked.ok_bind] at result
  refine ⟨_, result, fun contacts => ⟨_, ?_, open_eq_ok_iff.2 ⟨_, nonce, _, tail,
    carries_sealed commutes inverts contributes encrypted valid rfl,
    authentic_signed accepts senderSecrets _ messageId bounded, rfl⟩⟩⟩
  rfl

end Message

/-- Two people have each made an identity, and one of them has pinned the profile that `identity
export` prints for the other. Then, whatever other commands were run on their machines and however
these ended, what `seal` prints is a letter that `open` turns back into the body. -/
theorem letter_arrives (commutes : primitives.AgreementCommutes) (inverts : primitives.AeadInverts)
    (accepts : primitives.StrictAcceptsSigned) (sender recipient : Home primitives)
    {contactAlias : List UInt8} (trusts : sender.Trusts contactAlias recipient.profile)
    {args : List (List UInt8)}
    (seals : SealsTo sender.founding.environment args contactAlias sender.unlockPath)
    {body : List UInt8} (bounded : body.length ≤ maxBodyLen) (ephemeralSeed : Bytes 32)
    (nonce : Bytes 24) (messageId : Bytes 32) (padding : (length : Nat) → Bytes length)
    (contributes : primitives.diffieHellman ephemeralSeed recipient.profile.agreementPublic ≠
      Bytes.replicate 32 0)
    (outcomes : Nat → CliOutcome)
    (quiet : ∀ turn, (outcomes turn).outcome ≠ .failed ∧ (outcomes turn).input = body) :
    (∃ turns events,
      recipient.runs (.identity [ascii "export"]) ((List.range turns).map outcomes)
        recipient.left = (some (.ok ()), recipient.sees recipient.left, events) ∧
      stdout events = recipient.profile.encode) ∧
    ∃ turns events,
      sender.runs (.seal args (.drawn ephemeralSeed nonce messageId padding))
          ((List.range turns).map outcomes) sender.left =
        (some (.ok ()), sender.sees sender.left, events) ∧
      ∀ arrived blobPath keep contacts openArgs input (later : Nat → CliOutcome),
        Spared LetterLength recipient.left arrived →
        Contains blobPath (stdout events) (recipient.sees arrived) →
        contactsAt primitives (fromRoot recipient.root) (recipient.sees arrived) = some contacts →
        OpensAt recipient.founding.environment openArgs blobPath recipient.unlockPath keep →
        (∀ turn, (later turn).outcome ≠ .failed ∧ (later turn).input = input) →
        ∃ turns events,
          recipient.runs (.open openArgs) ((List.range turns).map later) arrived =
            (some (.ok ()), afterOpen keep blobPath (recipient.sees arrived), events) ∧
          stdout events = body := by
  have made : PublicProfile.parse primitives recipient.profile.encode = .ok recipient.profile :=
    PublicProfile.parse_encode _ _
  have known := sender.knows trusts made (.refl sender.left)
  have sends := (sender.holds (.refl sender.left)).coherent inverts
  obtain ⟨blob, blobMade, opens⟩ := Message.opens_sealed commutes inverts accepts sender.secrets
    recipient.secrets bounded ephemeralSeed nonce messageId padding contributes
  constructor
  · apply Home.runs_of_comes _ quiet
    intro caller
    unfold Command.run
    apply comes_then (comes_check recipient.discovered)
    exact comes_commandIdentity (recipient.holds (.refl recipient.left)).identityPublic
  · have sealing : ∀ caller, Comes caller body
        ((Command.seal args (.drawn ephemeralSeed nonce messageId padding)).run primitives
          sender.founding.environment)
        ⟨sender.sees sender.left, []⟩ () ⟨sender.sees sender.left, blob⟩ := by
      intro caller
      unfold Command.run
      apply comes_then (comes_check sender.discovered)
      exact comes_commandSeal seals known.contactAt sends bounded blobMade
    obtain ⟨turns, events, ran, printed⟩ := Home.runs_of_comes sealing quiet
    refine ⟨turns, events, ran, ?_⟩
    intro arrived blobPath keep contacts openArgs input later spared there listed opensAt still
    rw [printed] at there
    obtain ⟨letter, same, accepted⟩ := opens contacts
    subst same
    apply Home.runs_of_comes _ still
    intro caller
    unfold Command.run
    apply comes_then (comes_check recipient.discovered)
    exact comes_commandOpen opensAt ((recipient.holds spared).coherent inverts) listed there
      accepted

/-! ### Plain command lines -/

theorem splits_plain {allowName allowOutput : Bool} {arg : List UInt8}
    (plain : ¬ ascii "-" <+: arg) : Splits allowName allowOutput [arg] [.positional arg] := by
  refine ⟨?_, rfl⟩
  intro item member
  cases List.mem_singleton.1 member
  exact fun dashed => plain dashed.2

theorem parseOptions_plain {allowName allowOutput : Bool} {arg : List UInt8}
    (plain : ¬ ascii "-" <+: arg) :
    parseOptions allowName allowOutput [arg] = .ok ⟨[arg], none, none, none⟩ :=
  parseOptions_eq_ok_iff.2 ⟨_, splits_plain plain, rfl⟩

/-- `sealed seal CONTACT`, with the unlock key of the environment. -/
theorem sealsTo_plain {contactAlias : List UInt8} {unlockPath : Path}
    (plain : ¬ ascii "-" <+: contactAlias) (unlocks : environment.unlockKey = some unlockPath) :
    SealsTo environment [contactAlias] contactAlias unlockPath :=
  ⟨_, parseOptions_plain plain, rfl, rfl, unlocks⟩

/-- `sealed trust PROFILE`, under the name of the file. -/
theorem trustsAs_plain {arg contactAlias : List UInt8} (plain : ¬ ascii "-" <+: arg)
    (named : (((Path.ofBytes arg).fileName.bind fun name => fromUtf8 (fileStem name)).filter
      fun stem => validateAlias stem) = some contactAlias) :
    TrustsAs [arg] (.ofBytes arg) contactAlias :=
  ⟨_, arg, parseOptions_plain plain, rfl, rfl, named⟩

/-- `sealed open BLOB`. -/
theorem opensAt_plain {arg : List UInt8} {unlockPath : Path} (plain : ¬ ascii "-" <+: arg)
    (unlocks : environment.unlockKey = some unlockPath) :
    OpensAt environment [arg] (.ofBytes arg) unlockPath false := by
  have other : arg ≠ ascii "--keep" := by
    intro same
    subst same
    exact plain (by decide)
  refine ⟨_, arg, parseOpenOptions_eq_ok_iff.2 ⟨?_, ⟨[.positional arg], ?_, rfl⟩, ?_⟩, rfl, rfl,
    unlocks⟩
  · simp [other]
  · simpa [other] using splits_plain plain
  · simp [other.symm]

/-- A file that somebody has put into a directory. -/
theorem spared_received {consumable : List UInt8 → Prop} {directory : Nat} {name : Name}
    {bytes : List UInt8} (inside : directory < fs.nextDirectory)
    (free : fs.lookup directory name = none) :
    Spared consumable fs ((fs.createFile caller directory name).append fs.nextFile bytes) where
  extended := by
    have extended := (extends_createFile inside free).trans
      (@extends_append (fs.createFile caller directory name) fs.nextFile bytes)
    rw [← extended.working, seenFrom_working]
    exact extended
  entry := by
    intro other otherName file found
    left
    rw [lookup_append, lookup_createFile inside, if_neg ?_]
    · exact found
    · rintro ⟨rfl, rfl⟩
      rw [free] at found
      cases found
  contents := by
    intro file old
    simp [Nat.ne_of_lt old]
  creators := by
    intro file old
    simp [inside, Nat.ne_of_lt old]
  nextFile := by simp [inside]

namespace Sample

def offeredPath : List UInt8 := ascii "/alice.pub"

/-- The profile of alice is in a file. -/
def offered : FileSystem :=
  (FileSystem.empty.createFile 0 0 (ascii "alice.pub")).append 0
    (alice.publicProfile .transparent).encode

/-- `sealed init` of bob, undisturbed. -/
def joining : Invocation :=
  { initializing with command := .init [] { draws with
      identitySecret := some bob.identitySecret
      agreementSecret := some bob.agreementSecret } }

/-- `sealed trust` of this file, undisturbed. -/
def trusting : Invocation :=
  { initializing with command := .trust [offeredPath] }

theorem initialized_offered :
    (joining.run .transparent 0 (unclaimed offered)).1 = some (.ok ()) := by
  decide +kernel

theorem initialized_empty :
    (initializing.run .transparent 0 (unclaimed .empty)).1 = some (.ok ()) := by
  decide +kernel

/-- Bob, who has pinned alice. -/
def bobHome : Home .transparent where
  start := offered
  earlier := []
  founding := joining
  later := [trusting]
  root := Sample.root
  unlockPath := Sample.unlockPath
  secrets := bob
  discovered := rfl
  inside := by decide
  founded := ⟨[], _, rfl, ⟨_, rfl, rfl, rfl⟩, rfl, rfl⟩
  succeeded := initialized_offered

/-- Alice, on a machine of her own. -/
def aliceHome : Home .transparent where
  start := .empty
  earlier := []
  founding := initializing
  later := []
  root := Sample.root
  unlockPath := Sample.unlockPath
  secrets := alice
  discovered := rfl
  inside := by decide
  founded := ⟨[], draws, rfl, ⟨_, rfl, rfl, rfl⟩, rfl, rfl⟩
  succeeded := initialized_empty

theorem trustsAs_offered :
    TrustsAs [offeredPath] (.ofBytes offeredPath) (ascii "alice") :=
  trustsAs_plain (by decide +kernel) (by decide +kernel)

theorem trusts_offered : bobHome.Trusts (ascii "alice") aliceHome.profile := by
  have ran : ((bobHome.sees (runAll .transparent 0 [joining] (unclaimed bobHome.start))).node false
        (.ofBytes offeredPath) = .ok (.file 0) ∧
      (bobHome.sees (runAll .transparent 0 [joining] (unclaimed bobHome.start))).contents 0 =
        aliceHome.profile.encode) ∧
      (trusting.run .transparent [joining].length
        (runAll .transparent 0 [joining] (unclaimed bobHome.start))).1 = some (.ok ()) := by
    decide +kernel
  exact ⟨[joining], trusting, [], [offeredPath], .ofBytes offeredPath, rfl, rfl, rfl, rfl,
    trustsAs_offered, ⟨0, ran.1⟩, ran.2⟩

/-- Every call goes through, and this is the standard input. -/
def smoothly (input : List UInt8) (_turn : Nat) : CliOutcome := ⟨.carriedOut 1000, input, none⟩

def sealing : Command :=
  .seal [ascii "alice"] (.drawn (.replicate 32 5) (.replicate 24 6) (.replicate 32 7) fun length =>
    .replicate length 8)

theorem sealing_prints {turns : Nat} {after : FileSystem} {events : List CliEvent}
    (ran : bobHome.runs sealing ((List.range turns).map (smoothly (ascii "hi"))) bobHome.left =
      (some (.ok ()), after, events)) :
    stdout events = letterOf (ascii "hi") := by
  have short : (bobHome.runs sealing ((List.range 60).map (smoothly (ascii "hi")))
        bobHome.left).1.isSome = true ∧
      stdout (bobHome.runs sealing ((List.range 60).map (smoothly (ascii "hi")))
        bobHome.left).2.2 = letterOf (ascii "hi") := by
    decide +kernel
  have same := Home.runs_unique (congrArg (·.1.isSome) ran) short.1
  rw [← same, ran] at short
  exact short.2

/-- A letter has come to alice. -/
def arrived (bytes : List UInt8) : FileSystem :=
  (aliceHome.left.createFile 1 0 (ascii "letter")).append aliceHome.left.nextFile bytes

theorem spared_arrived (bytes : List UInt8) :
    Spared LetterLength aliceHome.left (arrived bytes) :=
  spared_received (by decide +kernel) (by decide +kernel)

theorem arrived_letter :
    Contains letterPath (letterOf (ascii "hi")) (aliceHome.sees (arrived (letterOf (ascii "hi")))) ∧
      contactsAt .transparent (fromRoot aliceHome.root)
        (aliceHome.sees (arrived (letterOf (ascii "hi")))) = some [] := by
  have seen : ((aliceHome.sees (arrived (letterOf (ascii "hi")))).node false letterPath =
        .ok (.file 3) ∧
      (aliceHome.sees (arrived (letterOf (ascii "hi")))).contents 3 = letterOf (ascii "hi")) ∧
      contactsAt .transparent (fromRoot aliceHome.root)
        (aliceHome.sees (arrived (letterOf (ascii "hi")))) = some [] := by
    decide +kernel
  exact ⟨⟨3, seen.1⟩, seen.2⟩

end Sample

/-- Bob writes to alice, who opens his letter. -/
theorem letter_arrives_sample :
    (∃ turns events, Sample.aliceHome.runs (.identity [ascii "export"])
        ((List.range turns).map (Sample.smoothly (ascii "hi"))) Sample.aliceHome.left =
      (some (.ok ()), Sample.aliceHome.sees Sample.aliceHome.left, events) ∧
      stdout events = Sample.aliceHome.profile.encode) ∧
    ∃ turns events, Sample.bobHome.runs Sample.sealing
        ((List.range turns).map (Sample.smoothly (ascii "hi"))) Sample.bobHome.left =
      (some (.ok ()), Sample.bobHome.sees Sample.bobHome.left, events) ∧
      ∃ turns shown, Sample.aliceHome.runs (.open [Sample.letterPath.toBytes])
          ((List.range turns).map (Sample.smoothly [])) (Sample.arrived (stdout events)) =
        (some (.ok ()), afterOpen false Sample.letterPath
          (Sample.aliceHome.sees (Sample.arrived (stdout events))), shown) ∧
        stdout shown = ascii "hi" := by
  obtain ⟨exported, turns, events, ran, arrives⟩ := letter_arrives
    Primitives.transparent_agreementCommutes Primitives.transparent_aeadInverts
    Primitives.transparent_strictAcceptsSigned Sample.bobHome Sample.aliceHome Sample.trusts_offered
    (sealsTo_plain (by decide +kernel) rfl) (by decide : (ascii "hi").length ≤ maxBodyLen)
    (.replicate 32 5) (.replicate 24 6) (.replicate 32 7) (fun length => .replicate length 8)
    (by decide) (Sample.smoothly (ascii "hi")) fun _ => ⟨nofun, rfl⟩
  have printed : stdout events = Sample.letterOf (ascii "hi") := Sample.sealing_prints ran
  refine ⟨exported, turns, events, ran, ?_⟩
  apply arrives _ _ false [] _ [] _ (Sample.spared_arrived _)
  · rw [printed]
    exact Sample.arrived_letter.1
  · rw [printed]
    exact Sample.arrived_letter.2
  · have opens := @opensAt_plain Sample.environment Sample.letterPath.toBytes _
      (by decide +kernel) rfl
    have same : Path.ofBytes Sample.letterPath.toBytes = Sample.letterPath := by decide +kernel
    rwa [same] at opens
  · exact fun _ => ⟨nofun, rfl⟩

end Sealed
