import Sealed.CommandChanges
import Sealed.Foundation.Linking
import Sealed.OpenCommands

/-! Commands run one after another. What a command stored as a key or as a pin stays, since
every file is created exclusively and no key and no pin has the length of a letter. -/

set_option autoImplicit false

namespace Sealed

open Foundation FileSystem Storage Cli

variable {primitives : Primitives} {caller : Nat} {environment : Environment} {fs : FileSystem}

/-! ## One command -/

namespace Command

/-- The files from which a command takes a name that it did not make itself. -/
def Consumes : Command → List UInt8 → Prop
  | .«open» _ | .wizardOpen => LetterLength
  | _ => fun _ => False

/-- What a command that succeeds has stored. -/
def Stores (primitives : Primitives) (caller : Nat) (root : Path) (fs : FileSystem) :
    Command → Prop
  | .init _ draws | .wizardInit draws => Founded primitives caller root draws fs
  | .trust _ | .wizardTrust =>
      ∃ contactAlias profile, (StatePaths.fromRoot root).Pinned contactAlias profile fs
  | _ => True

theorem Consumes.letter {command : Command} {bytes : List UInt8}
    (consumes : command.Consumes bytes) : LetterLength bytes := by
  cases command with
  | «open» | wizardOpen => exact consumes
  | init | identity | trust | «seal» | wizardInit | wizardExport | wizardTrust | wizardSeal =>
      exact consumes.elim

theorem discover_root {paths : StatePaths} (discovered : discover environment = .ok paths) :
    ∃ root, paths = .fromRoot root := by
  unfold discover at discovered
  split at discovered
  · cases discovered
    exact ⟨_, rfl⟩
  · obtain ⟨base, _, made⟩ := Checked.bind_eq_ok.1 discovered
    cases made
    exact ⟨_, rfl⟩

theorem meets_run (command : Command) :
    Cli.Meets caller (Change command.Consumes caller)
      (fun later result => result = .ok () → ∃ root,
        discover environment = .ok (.fromRoot root) ∧ command.Stores primitives caller root later)
      (command.run primitives environment) fs := by
  cases discovered : discover environment with
  | error stopped =>
      unfold Command.run
      rw [discovered]
      exact meets_check nofun
  | ok paths =>
      obtain ⟨root, rfl⟩ := discover_root discovered
      have steps : ∀ before after, Step caller before after →
          Change command.Consumes caller before after := fun _ _ => .step
      have stores : ∀ later : FileSystem, command.Stores primitives caller root later →
          ∃ other, (.ok (.fromRoot root) : Result StatePaths) = .ok (.fromRoot other) ∧
            command.Stores primitives caller other later := fun later stores => ⟨root, rfl, stores⟩
      unfold Command.run
      rw [discovered]
      cases command with
      | init args draws =>
          exact meets_weaken (meets_commandInit root args draws) steps
            fun later _ founded ok => stores later (founded ok)
      | trust args =>
          exact meets_weaken (meets_commandTrust (.fromRoot root) args) steps
            fun later _ pinned ok => stores later (pinned ok)
      | wizardInit draws =>
          exact meets_weaken (meets_wizardInit root draws) steps
            fun later _ founded ok => stores later (founded ok)
      | wizardTrust =>
          exact meets_weaken (meets_wizardTrust (.fromRoot root)) steps
            fun later _ pinned ok => stores later (pinned ok)
      | identity args =>
          exact meets_weaken (meets_commandIdentity (.fromRoot root) args) steps
            fun later _ _ _ => stores later trivial
      | «seal» args draws =>
          exact meets_weaken (meets_commandSeal (.fromRoot root) args draws) steps
            fun later _ _ _ => stores later trivial
      | wizardExport =>
          exact meets_weaken (meets_wizardExport (.fromRoot root)) steps
            fun later _ _ _ => stores later trivial
      | wizardSeal draws =>
          exact meets_weaken (meets_wizardSeal (.fromRoot root) draws) steps
            fun later _ _ _ => stores later trivial
      | «open» args =>
          exact meets_weaken (meets_commandOpen (.fromRoot root) args) (fun _ _ => id)
            fun later _ _ _ => stores later trivial
      | wizardOpen =>
          exact meets_weaken (meets_wizardOpen (.fromRoot root)) (fun _ _ => id)
            fun later _ _ _ => stores later trivial

end Command

/-! ## Sequences -/

/-- A command in its environment and its working directory, with what happens to its calls.
It may die before its end. -/
structure Invocation where
  environment : Environment
  directory : Nat
  command : Command
  outcomes : List CliOutcome

/-- The run of a command. Every command is a caller of its own. -/
def Invocation.run (primitives : Primitives) (index : Nat) (invocation : Invocation)
    (fs : FileSystem) : Option (Checked Error Unit) × FileSystem × List CliEvent :=
  Program.run (CliCall.respond index)
    (invocation.command.run primitives invocation.environment).run
    (seenFrom fs invocation.directory) invocation.outcomes

/-- The file system after commands that run one after another. -/
def runAll (primitives : Primitives) : Nat → List Invocation → FileSystem → FileSystem
  | _, [], fs => fs
  | index, invocation :: rest, fs =>
      runAll primitives (index + 1) rest (invocation.run primitives index fs).2.1

/-- All files were there from the start or are from earlier commands. -/
def Older (index : Nat) (fs : FileSystem) : Prop :=
  ∀ file creator, fs.creators file = some creator → creator < index

theorem older_unclaimed (fs : FileSystem) : Older 0 (unclaimed fs) := by
  intro file creator created
  cases created

theorem Invocation.spared (invocation : Invocation) {index : Nat} (older : Older index fs) :
    Spared invocation.command.Consumes fs (invocation.run primitives index fs).2.1 ∧
      Older (index + 1) (invocation.run primitives index fs).2.1 := by
  have fresh : ∀ file, (seenFrom fs invocation.directory).creators file ≠ some index := by
    intro file created
    rw [creators_seenFrom] at created
    exact Nat.lt_irrefl index (older file index created)
  have meets : Cli.Meets index (Change invocation.command.Consumes index) _
      (invocation.command.run primitives invocation.environment)
      (seenFrom fs invocation.directory) := invocation.command.meets_run
  have since := Since.of_changes fresh (Program.Meets.of_run meets invocation.outcomes).2
  refine ⟨(Spared.seenFrom fs invocation.directory).trans since.spared, ?_⟩
  intro file creator created
  by_cases old : file < (seenFrom fs invocation.directory).nextFile
  · have same := since.spared.creators file old
    rw [creators_seenFrom] at same
    exact Nat.lt_succ_of_lt (older file creator (same.symm.trans created))
  · rw [since.new file creator (Nat.le_of_not_lt old) created]
    exact Nat.lt_succ_self index

theorem Invocation.stores (invocation : Invocation) {index : Nat}
    (succeeded : (invocation.run primitives index fs).1 = some (.ok ())) :
    ∃ root, discover invocation.environment = .ok (.fromRoot root) ∧
      invocation.command.Stores primitives index root (invocation.run primitives index fs).2.1 := by
  have meets : Cli.Meets index (Change invocation.command.Consumes index) _
      (invocation.command.run primitives invocation.environment)
      (seenFrom fs invocation.directory) := invocation.command.meets_run
  exact (Program.Meets.of_run meets invocation.outcomes).1 (.ok ()) succeeded rfl

/-- A command stays in its working directory. -/
theorem Invocation.working (invocation : Invocation) {index : Nat} :
    (invocation.run primitives index fs).2.1.working =
      (seenFrom fs invocation.directory).working := by
  have kept : Program.Throughout (CliCall.respond index) (fun _ _ => True)
      (fun later => later.working = (seenFrom fs invocation.directory).working)
      (invocation.command.run primitives invocation.environment).run
      (seenFrom fs invocation.directory) := by
    apply Program.Confined.throughout (Program.confined_any _)
    · rfl
    · intro request _ later same happened _
      rw [CliCall.respond_working, same]
  exact kept.of_run fun _ _ => trivial

theorem runAll_spared {index : Nat} (invocations : List Invocation) (older : Older index fs) :
    Spared LetterLength fs (runAll primitives index invocations fs) ∧
      Older (index + invocations.length) (runAll primitives index invocations fs) := by
  induction invocations generalizing index fs with
  | nil => exact ⟨.refl fs, older⟩
  | cons invocation rest ih =>
      obtain ⟨spared, older'⟩ := @Invocation.spared primitives fs invocation index older
      obtain ⟨spared', older''⟩ := ih older'
      rw [List.length_cons, Nat.add_comm rest.length, ← Nat.add_assoc]
      exact ⟨(spared.weaken fun _ => Command.Consumes.letter).trans spared', older''⟩

theorem runAll_append (primitives : Primitives) (index : Nat) (first second : List Invocation)
    (fs : FileSystem) :
    runAll primitives index (first ++ second) fs =
      runAll primitives (index + first.length) second (runAll primitives index first fs) := by
  induction first generalizing index fs with
  | nil => rfl
  | cons invocation rest ih =>
      rw [List.cons_append, runAll, ih, List.length_cons, Nat.add_right_comm, Nat.add_assoc]
      rfl

/-! ## Keys and pins -/

/-- The whole bytes of an unlock-key file, of `identity.pub` or a contact file, and of
`identity.key.enc`. -/
inductive KeyOrPin (primitives : Primitives) : List UInt8 → Prop
  | unlockKey (key : Bytes 32) : KeyOrPin primitives (encodeUnlockKey key)
  | profile (profile : PublicProfile) : KeyOrPin primitives profile.encode
  | privateIdentity {secrets : IdentitySecrets} {unlockKey : Bytes 32} {nonce : Draw 24}
      {encrypted : List UInt8}
      (made : encryptPrivateIdentity primitives secrets unlockKey nonce = .ok encrypted) :
      KeyOrPin primitives encrypted

theorem length_encryptPrivateIdentity {secrets : IdentitySecrets} {unlockKey : Bytes 32}
    {nonceDraw : Draw 24} {encrypted : List UInt8}
    (made : encryptPrivateIdentity primitives secrets unlockKey nonceDraw = .ok encrypted) :
    encrypted.length = 105 := by
  obtain ⟨nonce, ciphertext, _, sealing, rfl⟩ := encryptPrivateIdentity_eq_ok_iff.1 made
  have length := Primitives.length_encrypt sealing
  rw [length_privatePlaintext] at length
  rw [List.length_append, nonce.length_eq, length]
  rfl

/-- No key and no pin has the length of a letter. -/
theorem KeyOrPin.not_letter {bytes : List UInt8} (kept : KeyOrPin primitives bytes) :
    ¬ LetterLength bytes := by
  unfold LetterLength
  cases kept with
  | unlockKey key =>
      rw [length_encodeUnlockKey]
      decide
  | profile profile =>
      rw [PublicProfile.length_encode]
      decide
  | privateIdentity made =>
      rw [length_encryptPrivateIdentity made]
      decide

theorem Command.Stores.spared {command : Command} {root : Path} {before after : FileSystem}
    (stores : command.Stores primitives caller root before)
    (spared : Spared LetterLength before after) :
    command.Stores primitives caller root (seenFrom after before.working) := by
  cases command with
  | init _ draws | wizardInit draws =>
      obtain ⟨unlockPath, unlockKey, secrets, encrypted, unlock, identity, secret, drawn, keys,
        publicKept, privateKept⟩ := stores
      have unlockSafe : KeyOrPin primitives (encodeUnlockKey unlockKey) := .unlockKey unlockKey
      have publicSafe : KeyOrPin primitives (secrets.publicProfile primitives).encode := .profile _
      have privateSafe : KeyOrPin primitives encrypted := .privateIdentity drawn.ciphertext
      exact ⟨unlockPath, unlockKey, secrets, encrypted, unlock, identity, secret, drawn,
        spared.keeping keys unlockSafe.not_letter, spared.keeping publicKept publicSafe.not_letter,
        spared.keeping privateKept privateSafe.not_letter⟩
  | trust | wizardTrust =>
      obtain ⟨contactAlias, profile, contacts, file⟩ := stores
      have safe : KeyOrPin primitives profile.encode := .profile profile
      exact ⟨contactAlias, profile, contacts.extends spared.extended,
        spared.contains file safe.not_letter⟩
  | identity | «seal» | «open» | wizardExport | wizardSeal | wizardOpen => trivial

/-- No sequence of commands destroys a key or a pin: every file that holds one after some
command keeps its bytes and its names through all later commands, whatever fails and wherever
they die, and so does what a command that succeeded stored. No command writes to a file that
was there before it, and none but `open` takes a name from such a file, so that the rollback
of `init` removes only what the same call has made. -/
theorem commands_keep_keys (primitives : Primitives) (fs : FileSystem)
    (earlier : List Invocation) (made : Invocation) (later : List Invocation) :
    let before := runAll primitives 0 earlier (unclaimed fs)
    let run := made.run primitives earlier.length before
    let after := runAll primitives (earlier.length + 1) later run.2.1
    (∀ directory name file, run.2.1.lookup directory name = some (.file file) →
      KeyOrPin primitives (run.2.1.contents file) →
        after.lookup directory name = some (.file file) ∧
        after.contents file = run.2.1.contents file) ∧
    (run.1 = some (.ok ()) → ∃ root, discover made.environment = .ok (.fromRoot root) ∧
      made.command.Stores primitives earlier.length root run.2.1 ∧
      made.command.Stores primitives earlier.length root (seenFrom after run.2.1.working)) ∧
    (∀ file < before.nextFile, run.2.1.contents file = before.contents file) ∧
    ∀ directory name file, before.lookup directory name = some (.file file) →
      run.2.1.lookup directory name = some (.file file) ∨
        made.command.Consumes (before.contents file) := by
  intro before run after
  have older : Older earlier.length before := by
    have known := (@runAll_spared primitives (unclaimed fs) 0 earlier (older_unclaimed fs)).2
    rwa [Nat.zero_add] at known
  obtain ⟨spared, older'⟩ := @Invocation.spared primitives before made _ older
  obtain ⟨spared', _⟩ := @runAll_spared primitives run.2.1 _ later older'
  refine ⟨?_, ?_, spared.contents, spared.entry⟩
  · intro directory name file found safe
    rcases spared'.entry directory name file found with still | lost
    · exact ⟨still, spared'.contents file (run.2.1.filesExist _ _ _ found)⟩
    · exact absurd lost safe.not_letter
  · intro succeeded
    obtain ⟨root, discovered, stores⟩ := made.stores succeeded
    exact ⟨root, discovered, stores, stores.spared spared'⟩

namespace Sample

/-- `sealed init`, undisturbed. -/
def initializing : Invocation where
  environment := Sample.environment
  directory := 0
  command := .init [] draws
  outcomes := .replicate 40 ⟨.carriedOut 1000, [], none⟩

/-- `sealed open` on the unlock key. -/
def prying : Invocation where
  environment := Sample.environment
  directory := 0
  command := .«open» [unlockPath.toBytes]
  outcomes := .replicate 40 ⟨.carriedOut 1000, [], none⟩

end Sample

theorem commands_keep_keys_sample :
    let run := Sample.initializing.run .transparent 0 (unclaimed .empty)
    ∃ root, discover Sample.initializing.environment = .ok (.fromRoot root) ∧
      Sample.initializing.command.Stores .transparent 0 root run.2.1 ∧
      Sample.initializing.command.Stores .transparent 0 root
        (seenFrom (runAll .transparent 1 [Sample.prying] run.2.1) run.2.1.working) := by
  have kept := commands_keep_keys .transparent .empty [] Sample.initializing [Sample.prying]
  simp only [runAll, List.length_nil, Nat.zero_add] at kept ⊢
  apply kept.2.1
  decide +kernel

end Sealed
