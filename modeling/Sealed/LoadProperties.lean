import Sealed.IdentityProperties
import Sealed.InitializeProperties
import Sealed.LoneRuns

/-! `load_identity` gives back what `initialize` stored, and accepts no other three files than
those of one identity under one unlock key. -/

set_option autoImplicit false

namespace Sealed

open Foundation FileSystem Storage

variable {primitives : Primitives} {caller : Nat}

theorem Storage.Contains.unique {path : Path} {first second : List UInt8} {fs : FileSystem}
    (left : Contains path first fs) (right : Contains path second fs) : first = second := by
  obtain ⟨file, found, rfl⟩ := left
  obtain ⟨other, found', rfl⟩ := right
  cases found.symm.trans found'
  rfl

/-- The three files of one identity. -/
structure Coherent (primitives : Primitives) (paths : StatePaths) (unlockPath : Path)
    (secrets : IdentitySecrets) (profile : PublicProfile) (fs : FileSystem) : Prop where
  secret : ∃ unlockKey nonce ciphertext, Contains unlockPath (encodeUnlockKey unlockKey) fs ∧
    Contains paths.identityEncrypted (nonce.toList ++ ciphertext) fs ∧ ciphertext.length = 81 ∧
    primitives.decrypt unlockKey nonce identityAadDomain ciphertext =
      some (privatePlaintext secrets)
  identityPublic : Contains paths.identityPublic profile.encode fs
  same : profile = secrets.publicProfile primitives

theorem Coherent.decrypts {paths : StatePaths} {unlockPath : Path} {secrets : IdentitySecrets}
    {profile : PublicProfile} {fs : FileSystem} {unlockKey : Bytes 32} {encrypted : List UInt8}
    (coherent : Coherent primitives paths unlockPath secrets profile fs)
    (unlock : Contains unlockPath (encodeUnlockKey unlockKey) fs)
    (secret : Contains paths.identityEncrypted encrypted fs) :
    decryptPrivateIdentity primitives encrypted unlockKey = .ok secrets := by
  obtain ⟨key, nonce, ciphertext, unlock', secret', length, decrypted⟩ := coherent.secret
  have parsed := parseUnlockKey_encode unlockKey
  rw [unlock.unique unlock', parseUnlockKey_encode] at parsed
  cases parsed
  rw [secret.unique secret', decryptPrivateIdentity_eq_ok_iff]
  exact ⟨nonce, ciphertext, rfl, length, decrypted⟩

/-- What `load_identity` says. -/
structure Loaded (primitives : Primitives) (paths : StatePaths) (unlockPath : Path)
    (fs : FileSystem) (events : List FileEvent) (later : FileSystem)
    (result : Checked Error (IdentitySecrets × PublicProfile)) : Prop where
  unchanged : later = fs
  noPanic : Checked.NoPanic result
  sound : ∀ secrets profile, result = .ok (secrets, profile) →
    Coherent primitives paths unlockPath secrets profile fs
  complete : Clean events → ∀ secrets profile,
    Coherent primitives paths unlockPath secrets profile fs → result = .ok (secrets, profile)

theorem Loaded.stopped {paths : StatePaths} {unlockPath : Path} {fs later : FileSystem}
    {events : List FileEvent} {stopped : Abort Error} (unchanged : later = fs)
    (noPanic : stopped ≠ .panic)
    (refused : Clean events → ∀ secrets profile,
      ¬ Coherent primitives paths unlockPath secrets profile fs) :
    Loaded primitives paths unlockPath fs events later (.error stopped) where
  unchanged := unchanged
  noPanic := fun same => noPanic (Except.error.inj same)
  sound := nofun
  complete := fun clean secrets profile coherent => absurd coherent (refused clean secrets profile)

theorem meets_exportProfile {guarantee : FileSystem → FileSystem → Prop}
    (idle : ∀ moment, guarantee moment moment) (paths : StatePaths) (fs : FileSystem) :
    Storage.Meets caller (lone guarantee)
      (fun events later result => later = fs ∧ Checked.NoPanic result ∧
        (∀ profile, result = .ok profile → Contains paths.identityPublic profile.encode fs) ∧
        (Clean events → ∀ secrets : IdentitySecrets,
          Contains paths.identityPublic (secrets.publicProfile primitives).encode fs →
            result = .ok (secrets.publicProfile primitives)))
      (paths.exportProfile primitives) fs := by
  refine meets_then (meets_readAlone idle paths.identityPublic 512) ?_ ?_
  · rintro events _ bytes ⟨rfl, _, sound, complete⟩ later rfl
    rw [List.append_nil]
    refine ⟨rfl, PublicProfile.noPanic_parse bytes, ?_, ?_⟩
    · intro profile parsed
      obtain ⟨_, rfl⟩ := PublicProfile.parse_eq_ok_iff.1 parsed
      exact (sound _ rfl).2
    · intro clean secrets stored
      cases complete clean _ stored (by rw [PublicProfile.length_encode]; decide)
      exact PublicProfile.parse_encode _ _
  · rintro events _ stopped ⟨rfl, noPanic, _, complete⟩ later rfl
    refine ⟨rfl, fun same => noPanic (by cases same; rfl), nofun, ?_⟩
    intro clean secrets stored
    cases complete clean _ stored (by rw [PublicProfile.length_encode]; decide)

theorem meets_loadIdentity (guarantee : FileSystem → FileSystem → Prop)
    (idle : ∀ moment, guarantee moment moment) (paths : StatePaths) (unlockPath : Path)
    (fs : FileSystem) :
    Storage.Meets caller (lone guarantee) (Loaded primitives paths unlockPath fs)
      (paths.loadIdentity primitives unlockPath) fs := by
  refine meets_then (meets_readAlone idle unlockPath 128) ?_ ?_
  · rintro first _ unlockBytes ⟨rfl, _, sound, _⟩
    have unlock := (sound _ rfl).2
    cases parsed : parseUnlockKey unlockBytes with
    | error stopped =>
        rintro later rfl
        refine .stopped rfl ?_ ?_
        · rintro rfl
          exact noPanic_parseUnlockKey unlockBytes parsed
        · rintro _ secrets profile ⟨⟨unlockKey, _, _, stored, _⟩, _, _⟩
          rw [unlock.unique stored, parseUnlockKey_encode] at parsed
          cases parsed
    | ok unlockKey =>
        obtain rfl := parseUnlockKey_eq_ok_iff.1 parsed
        rw [check_ok_bind]
        refine meets_then (meets_readAlone idle paths.identityEncrypted 512) ?_ ?_
        · rintro second _ encrypted ⟨rfl, _, sound', _⟩
          have secret := (sound' _ rfl).2
          refine meets_then (meets_exportProfile idle paths _) ?_ ?_
          · rintro third _ profile ⟨rfl, _, stored, complete⟩
            have identityPublic := stored _ rfl
            have decrypts := fun secrets profile
                (coherent : Coherent primitives paths unlockPath secrets profile _) =>
              coherent.decrypts unlock secret
            cases decrypted : decryptPrivateIdentity primitives encrypted unlockKey with
            | error stopped =>
                cases stopped with
                | panic => exact absurd decrypted (noPanic_decryptPrivateIdentity _ _)
                | error reported =>
                    rintro later rfl
                    refine .stopped rfl nofun fun _ secrets profile' coherent => ?_
                    cases decrypted.symm.trans (decrypts _ _ coherent)
            | ok secrets =>
                by_cases same : secrets.publicProfile primitives = profile
                · rw [Checked.mapErr_ok, check_ok_bind, check_bind (Checked.reject_of_not (by simpa))]
                  rintro later rfl
                  refine ⟨rfl, nofun, ?_, ?_⟩
                  · rintro _ _ ⟨⟩
                    obtain ⟨nonce, ciphertext, rfl, length, plain⟩ :=
                      decryptPrivateIdentity_eq_ok_iff.1 decrypted
                    exact ⟨⟨unlockKey, nonce, ciphertext, unlock, secret, length, plain⟩,
                      identityPublic, same.symm⟩
                  · intro _ secrets' profile' coherent
                    cases decrypted.symm.trans (decrypts _ _ coherent)
                    rw [coherent.same, same]
                · rw [Checked.mapErr_ok, check_ok_bind, Checked.reject_of same]
                  rintro later rfl
                  refine .stopped rfl nofun fun clean secrets' profile' coherent => same ?_
                  cases decrypted.symm.trans (decrypts _ _ coherent)
                  have stored' := coherent.identityPublic
                  rw [coherent.same] at stored'
                  exact (Except.ok.inj
                    (complete (clean_append.1 (clean_append.1 (clean_append.1 clean).2).2).1 _
                      stored')).symm
          · rintro third _ stopped ⟨rfl, noPanic, _, complete⟩ later rfl
            refine .stopped rfl (fun same => noPanic (by rw [same])) ?_
            intro clean secrets profile coherent
            have stored' := coherent.identityPublic
            rw [coherent.same] at stored'
            cases complete (clean_append.1 (clean_append.1 clean).2).2 _ stored'
        · rintro second _ stopped ⟨rfl, noPanic, _, complete⟩ later rfl
          refine .stopped rfl (fun same => noPanic (by rw [same])) ?_
          rintro clean secrets profile ⟨⟨_, nonce, ciphertext, _, stored', length, _⟩, _, _⟩
          cases complete (clean_append.1 clean).2 _ stored' (by
            rw [List.length_append, nonce.length_eq, length]
            decide)
  · rintro first _ stopped ⟨rfl, noPanic, _, complete⟩ later rfl
    refine .stopped rfl (fun same => noPanic (by rw [same])) ?_
    rintro clean secrets profile ⟨⟨unlockKey, _, _, stored', _⟩, _, _⟩
    cases complete clean _ stored' (by
      rw [length_encodeUnlockKey]
      decide)

/-- What a run of `initialize` that comes to its end stores. -/
theorem Storage.Initialized.coherent {root unlockPath : Path} {draws : InitializeDraws}
    {contract : Contract FileSystem} {world later : FileSystem} {events : List FileEvent}
    {profile : PublicProfile} (inverts : primitives.AeadInverts)
    (initialized : Initialized primitives caller contract root unlockPath draws world events later
      (.ok profile)) :
    ∃ unlockKey secrets encrypted, Drawn primitives draws unlockKey secrets encrypted ∧
      Coherent primitives (.fromRoot root) unlockPath secrets profile later := by
  obtain ⟨unlockKey, secrets, encrypted, drawn, same, unlock, identity, secret, unlockKept,
    identityKept, secretKept⟩ := initialized.stored profile rfl
  refine ⟨unlockKey, secrets, encrypted, drawn, ?_, identityKept.contains, same⟩
  obtain ⟨nonce, ciphertext, _, sealing, rfl⟩ :=
    encryptPrivateIdentity_eq_ok_iff.1 drawn.ciphertext
  refine ⟨unlockKey, nonce, ciphertext, unlockKept.contains, secretKept.contains, ?_,
    inverts _ _ _ _ _ sealing⟩
  rw [Primitives.length_encrypt sealing, length_privatePlaintext]
  rfl

/-- `load_identity` recovers what `initialize` stored, and accepts nothing incoherent. -/
theorem StatePaths.loadIdentity_recovers (inverts : primitives.AeadInverts)
    (root unlockPath : Path) (writer reader : Nat) :
    (∀ (unlockKey : Bytes 32) (secrets : IdentitySecrets) (nonce : Bytes 24), ∃ encrypted,
      encryptPrivateIdentity primitives secrets unlockKey (some nonce) = .ok encrypted ∧
      (encodeUnlockKey unlockKey).length ≤ 128 ∧ encrypted.length = privateFileMaxLen ∧
      encrypted.length ≤ 512 ∧ (secrets.publicProfile primitives).encode.length ≤ 512 ∧
      ∀ fs, Contains unlockPath (encodeUnlockKey unlockKey) fs →
        Contains (fromRoot root).identityEncrypted encrypted fs →
        Contains (fromRoot root).identityPublic (secrets.publicProfile primitives).encode fs →
          Settles reader ((fromRoot root).loadIdentity primitives unlockPath) fs
            (· = .ok (secrets, secrets.publicProfile primitives))) ∧
    (∀ fs draws outcomes profile,
      (runAlone writer ((fromRoot root).initializeState primitives unlockPath draws) fs
        outcomes).1 = some (.ok profile) →
      ∃ unlockKey secrets encrypted, Drawn primitives draws unlockKey secrets encrypted ∧
        profile = secrets.publicProfile primitives ∧
        Settles reader ((fromRoot root).loadIdentity primitives unlockPath)
          (runAlone writer ((fromRoot root).initializeState primitives unlockPath draws) fs
            outcomes).2.1 (· = .ok (secrets, profile))) ∧
    ∀ fs outcomes result,
      (runAlone reader ((fromRoot root).loadIdentity primitives unlockPath) fs outcomes).1 =
        some result →
      (∃ secrets profile, result = .ok (secrets, profile) ∧
        Coherent primitives (fromRoot root) unlockPath secrets profile fs) ∨
      ∃ reported, result = .error (.error reported) := by
  have settles : ∀ fs secrets profile,
      Coherent primitives (fromRoot root) unlockPath secrets profile fs →
        Settles reader ((fromRoot root).loadIdentity primitives unlockPath) fs
          (· = .ok (secrets, profile)) := fun fs secrets profile coherent =>
    settles_of_meets (meets_loadIdentity Eq (fun _ => rfl) _ unlockPath fs)
      fun events later result clean loaded => loaded.complete clean secrets profile coherent
  refine ⟨?_, ?_, ?_⟩
  · intro unlockKey secrets nonce
    obtain ⟨ciphertext, sealing⟩ : ∃ ciphertext, primitives.encrypt unlockKey nonce
        identityAadDomain (privatePlaintext secrets) = some ciphertext :=
      Primitives.encrypt_of_length (by rw [length_privatePlaintext]; decide)
    have length : ciphertext.length = 81 := by
      rw [Primitives.length_encrypt sealing, length_privatePlaintext]
      rfl
    have whole : (nonce.toList ++ ciphertext).length = privateFileMaxLen := by
      rw [List.length_append, nonce.length_eq, length]
      rfl
    refine ⟨_, encryptPrivateIdentity_eq_ok_iff.2 ⟨nonce, ciphertext, rfl, sealing, rfl⟩,
      ?_, whole, ?_, ?_, fun fs unlock secret identity => settles fs _ _ ⟨⟨unlockKey, nonce,
        ciphertext, unlock, secret, length, inverts _ _ _ _ _ sealing⟩, identity, rfl⟩⟩
    · rw [length_encodeUnlockKey]
      decide
    · rw [whole]
      decide
    · rw [PublicProfile.length_encode]
      decide
  · intro fs draws outcomes profile finished
    have initialized := runAlone_meets (meets_initializeState (respects_lone (Step writer))
      (fun _ _ step => step) root unlockPath draws) finished
    obtain ⟨unlockKey, secrets, encrypted, drawn, coherent⟩ := initialized.coherent inverts
    exact ⟨unlockKey, secrets, encrypted, drawn, coherent.same, settles _ _ _ coherent⟩
  · intro fs outcomes result finished
    have loaded := runAlone_meets
      (meets_loadIdentity Eq (fun _ => rfl) _ unlockPath fs) finished
    rcases result with (reported | _) | ⟨secrets, profile⟩
    · exact .inr ⟨reported, rfl⟩
    · exact absurd rfl loaded.noPanic
    · exact .inl ⟨secrets, profile, rfl, loaded.sound secrets profile rfl⟩

theorem StatePaths.loadIdentity_recovers_sample :
    ∃ unlockKey secrets encrypted, Drawn .transparent Sample.draws unlockKey secrets encrypted ∧
      Sample.profile = secrets.publicProfile .transparent ∧
      Settles 1 ((fromRoot Sample.root).loadIdentity .transparent Sample.unlockPath)
        (runAlone 0 ((fromRoot Sample.root).initializeState .transparent Sample.unlockPath
          Sample.draws) .empty (.replicate 40 (.carriedOut 1000))).2.1
        (· = .ok (secrets, Sample.profile)) :=
  (loadIdentity_recovers Primitives.transparent_aeadInverts Sample.root Sample.unlockPath 0 1).2.1
    .empty Sample.draws (.replicate 40 (.carriedOut 1000)) Sample.profile (by decide +kernel)

end Sealed
