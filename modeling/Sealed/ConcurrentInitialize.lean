import Sealed.InitializeProperties

/-! Any number of `initialize` calls on one root, in any interleaving of their system calls:
no call touches what another one created, so that at most one of them succeeds, and its
three files stay as it wrote them. -/

set_option autoImplicit false

namespace Sealed

open Foundation FileSystem Storage

/-- One caller's `initialize`. -/
structure InitializeCall where
  unlockPath : Path
  draws : InitializeDraws

/-- Callers of `initialize` that take turns. -/
abbrev InitializePool := Pool FileCall.Reply Outcome FileSystem (Checked Error PublicProfile)

namespace InitializePool

variable (primitives : Primitives) (root : Path)

/-- Calls that have not begun, on a file system where none of them created anything. -/
def start (calls : List InitializeCall) (fs : FileSystem) : InitializePool :=
  Pool.start (unclaimed fs) (calls.map fun call =>
    ((StatePaths.fromRoot root).initializeState primitives call.unlockPath call.draws).run)

def run (pool : InitializePool) (schedule : List (Nat × Outcome)) : InitializePool :=
  Pool.run FileSystem.respond pool schedule

/-- The state files of a call that came to its end, all of them its own. -/
structure Stored (index : Nat) (call : InitializeCall) (profile : PublicProfile)
    (fs : FileSystem) (unlock identity secret : Nat) (unlockKey : Bytes 32)
    (encrypted : List UInt8) : Prop where
  unlock : Keeping index call.unlockPath unlock (encodeUnlockKey unlockKey) fs
  identityPublic :
    Keeping index (StatePaths.fromRoot root).identityPublic identity profile.encode fs
  identityEncrypted :
    Keeping index (StatePaths.fromRoot root).identityEncrypted secret encrypted fs

variable {primitives root}

theorem Stored.respected {index : Nat} {call : InitializeCall} {profile : PublicProfile}
    {before after : FileSystem} {unlock identity secret : Nat} {unlockKey : Bytes 32}
    {encrypted : List UInt8}
    (stored : Stored root index call profile before unlock identity secret unlockKey encrypted)
    (same : Respected index before after) :
    Stored root index call profile after unlock identity secret unlockKey encrypted :=
  ⟨stored.unlock.respected same, stored.identityPublic.respected same,
    stored.identityEncrypted.respected same⟩

/-- Every caller makes its own changes and respects what the others created. -/
def contracts (index : Nat) : Contract FileSystem := sharing index (Step index)

theorem compatible : Pool.Compatible contracts :=
  fun _ _ distinct _ _ step => step.respected distinct

/-- What a finished call left behind. -/
def Post (primitives : Primitives) (root : Path) (calls : List InitializeCall) (index : Nat)
    (fs : FileSystem) (result : Checked Error PublicProfile) : Prop :=
  ∀ profile, result = .ok profile → ∃ call unlockKey secrets encrypted,
    calls[index]? = some call ∧ Drawn primitives call.draws unlockKey secrets encrypted ∧
      profile = secrets.publicProfile primitives ∧ ∃ unlock identity secret,
        Stored root index call profile fs unlock identity secret unlockKey encrypted

theorem meets_run (calls : List InitializeCall) (fs : FileSystem)
    (schedule : List (Nat × Outcome)) :
    Pool.Meets FileSystem.respond contracts (fun index _ => Post primitives root calls index)
      ((start primitives root calls fs).run schedule) := by
  refine Pool.Meets.run compatible (Pool.Meets.start fun index program member => ?_) schedule
  simp only [List.getElem?_map, Option.map_eq_some_iff] at member
  obtain ⟨call, called, rfl⟩ := member
  refine (@meets_initializeState index (contracts index) _ primitives
    (fun _ _ same => same) (fun _ _ step => step) root call.unlockPath call.draws).consequence ?_
  intro events later result initialized profile ok
  obtain ⟨unlockKey, secrets, encrypted, drawn, same, unlock, identity, secret, kept⟩ :=
    initialized.stored profile ok
  exact ⟨call, unlockKey, secrets, encrypted, called, drawn, same, unlock, identity, secret,
    kept.1, kept.2.1, kept.2.2⟩

/-- Of calls that share a root at most one ever succeeds, and from then on its three files
are the ones it wrote, whatever the other calls do and wherever they fail. -/
theorem one_coherent_identity (calls : List InitializeCall) (fs : FileSystem)
    (schedule : List (Nat × Outcome)) :
    let pool := (start primitives root calls fs).run schedule
    (∀ first second left right, pool.result first = some (.ok left) →
      pool.result second = some (.ok right) → first = second) ∧
    ∀ index profile, pool.result index = some (.ok profile) →
      ∃ call unlockKey secrets encrypted, calls[index]? = some call ∧
        Drawn primitives call.draws unlockKey secrets encrypted ∧
        profile = secrets.publicProfile primitives ∧ ∃ unlock identity secret, ∀ more,
          Stored root index call profile (pool.run more).world unlock identity secret unlockKey
            encrypted := by
  intro pool
  have meets := @meets_run primitives root calls fs schedule
  refine ⟨?_, ?_⟩
  · intro first second left right firstOk secondOk
    obtain ⟨_, _, _, _, _, _, _, _, mine, _, stored⟩ := meets.of_result firstOk left rfl
    obtain ⟨_, _, _, _, _, _, _, _, yours, _, stored'⟩ := meets.of_result secondOk right rfl
    -- Both created the file that stands at the path of the public profile.
    obtain ⟨⟨_, _, located, found, created⟩, _⟩ := stored.identityPublic
    obtain ⟨⟨_, _, located', found', created'⟩, _⟩ := stored'.identityPublic
    cases located.symm.trans located'
    cases found.symm.trans found'
    exact Option.some.inj (created.symm.trans created')
  · intro index profile ok
    obtain ⟨call, unlockKey, secrets, encrypted, called, drawn, same, unlock, identity, secret,
      stored⟩ := meets.of_result ok profile rfl
    exact ⟨call, unlockKey, secrets, encrypted, called, drawn, same, unlock, identity, secret,
      fun more => stored.respected (meets.relied compatible ok more)⟩

end InitializePool

namespace Sample

/-- Two calls with the same secrets and different unlock keys. -/
def calls : List InitializeCall :=
  [⟨unlockPath, draws⟩,
    ⟨⟨true, [.name (ascii "other")], false⟩, { draws with unlockKey := some (.replicate 32 8) }⟩]

/-- The calls take turns, so that the second one fails at the public profile. -/
def turns : List (Nat × Outcome) :=
  (List.replicate 40 [(0, .carriedOut 1000), (1, .carriedOut 1000)]).flatten

def initialized : InitializePool := (InitializePool.start .transparent root calls .empty).run turns

end Sample

theorem InitializePool.one_coherent_identity_sample :
    (∀ result, Sample.initialized.result 1 ≠ some (.ok result)) ∧
    ∃ call unlockKey secrets encrypted, Sample.calls[0]? = some call ∧
      Drawn .transparent call.draws unlockKey secrets encrypted ∧
      Sample.profile = secrets.publicProfile .transparent ∧ ∃ unlock identity secret, ∀ more,
        Stored Sample.root 0 call Sample.profile (Sample.initialized.run more).world unlock
          identity secret unlockKey encrypted := by
  have finished : Sample.initialized.result 0 = some (.ok Sample.profile) := by decide +kernel
  obtain ⟨atMostOne, stays⟩ := @one_coherent_identity .transparent Sample.root
    Sample.calls .empty Sample.turns
  exact ⟨fun result ok => absurd (atMostOne 0 1 _ _ finished ok) (by decide),
    stays 0 Sample.profile finished⟩

end Sealed
