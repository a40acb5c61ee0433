import Sealed.StorageProperties

/-! A limited read of a regular file: what it returns stood in the file at one moment, and
a file that nobody changes is returned as it is. -/

set_option autoImplicit false

namespace Sealed.Storage

open Foundation FileSystem

variable {caller : Nat} {contract : Contract FileSystem} {world : FileSystem}

/-- The others only add to files. -/
def Growing (contract : Contract FileSystem) : Prop :=
  ∀ before after, contract.rely before after → ∀ file,
    before.contents file <+: after.contents file

/-- The others only add to one file. -/
def GrowingAt (file : Nat) (contract : Contract FileSystem) : Prop :=
  ∀ before after, contract.rely before after → before.contents file <+: after.contents file

theorem Growing.at (growing : Growing contract) (file : Nat) : GrowingAt file contract :=
  fun before after relied => growing before after relied file

/-- Induction on the rounds: what was read so far stands in front of the file. -/
theorem meets_readToEnd (idle : ∀ moment, contract.guarantee moment moment)
    {file limit : Nat} (growing : GrowingAt file contract) (rounds : Nat) :
    ∀ {world : FileSystem} (bytes : List UInt8), bytes <+: world.contents file →
      limit ≤ bytes.length + rounds →
        Meets caller contract
          (fun events later result => Looked contract world later events ∧
            Checked.NoPanic result ∧
            (∀ all, result = .ok all → limit ≤ all.length ∨ ∃ moment,
              contract.rely world moment ∧ contract.rely moment later ∧
                moment.contents file = all) ∧
            (Clean events → ∀ data, (∀ moment, contract.rely world moment →
              moment.contents file = data) → data.length < limit → result = .ok data))
          (readToEnd file limit rounds bytes) world := by
  induction rounds with
  | zero =>
      intro world bytes front enough later relied
      refine ⟨⟨relied, List.forall_mem_nil _⟩, nofun, ?_, ?_⟩
      · rintro all ⟨⟩
        exact .inl enough
      · intro _ data always short
        rw [always world (contract.rely_refl world)] at front
        have := front.length_le
        omega
  | succ rounds ih =>
      intro world bytes front enough
      refine meets_then (meets_look (.read file bytes.length (limit - bytes.length))
        trivial idle) ?_ ?_
      · rintro first later chunk ⟨looked, _, moment, outcome, before, after, rfl, reply⟩
        cases outcome with
        | failed => cases reply
        | carriedOut size =>
            obtain ⟨rest, whole⟩ := front.trans (growing _ _ before)
            rw [ok_eq_answered_iff] at reply
            have read : chunk = rest.take (min (size + 1) (limit - bytes.length)) := by
              cases reply
              rw [← whole, List.drop_left]
            change Meets _ _ _ (if chunk.isEmpty then _ else _) _
            split
            · rename_i empty
              rw [List.isEmpty_iff] at empty
              have ended : limit ≤ bytes.length ∨ moment.contents file = bytes := by
                by_cases full : limit ≤ bytes.length
                · exact .inl full
                · have none : rest = [] := by
                    rw [read, List.take_eq_nil_iff] at empty
                    rcases empty with zero | nil
                    · omega
                    · exact nil
                  rw [← whole, none, List.append_nil]
                  exact .inr rfl
              refine meets_return fun final relied => ?_
              rw [List.append_nil]
              refine ⟨looked.until relied, nofun, ?_, ?_⟩
              · rintro all ⟨⟩
                exact ended.imp_right fun same =>
                  ⟨moment, before, contract.rely_trans after relied, same⟩
              · intro _ data always short
                rcases ended with full | same
                · have := (front.trans (growing _ _ before)).length_le
                  rw [always moment before] at this
                  omega
                · rw [← always moment before, same]
            · rename_i filled
              rw [List.isEmpty_iff] at filled
              have positive := List.length_pos_iff.2 filled
              have front' : bytes ++ chunk <+: later.contents file := by
                refine List.IsPrefix.trans ?_ (growing _ _ after)
                rw [← whole, read]
                exact (List.prefix_append_right_inj _).2 (List.take_prefix _ _)
              refine (ih _ front' (by rw [List.length_append]; omega)).consequence ?_
              rintro second final result ⟨looked', noPanic, sound, complete⟩
              refine ⟨looked.append looked', noPanic, ?_, ?_⟩
              · intro all ok
                refine (sound all ok).imp_right ?_
                rintro ⟨finish, before', after', same⟩
                exact ⟨finish, contract.rely_trans looked.relied before', after', same⟩
              · intro clean data always
                exact complete (clean_append.1 clean).2 data fun finish relied =>
                  always finish (contract.rely_trans looked.relied relied)
      · rintro first later stopped ⟨looked, _, moment, outcome, _, _, rfl, reply⟩ final relied
        refine ⟨looked.until relied, ?_, nofun, fun clean => ?_⟩
        · rw [reply]
          exact noPanic_answered _
        · cases outcome with
          | failed => exact absurd rfl (clean _ List.mem_cons_self)
          | carriedOut size => cases reply

/-- What a limited read of an open file says. -/
structure ReadOpen (contract : Contract FileSystem) (file maximum : Nat) (world : FileSystem)
    (events : List FileEvent) (later : FileSystem) (result : Checked Error (List UInt8)) :
    Prop where
  looked : Looked contract world later events
  noPanic : Checked.NoPanic result
  sound : ∀ bytes, result = .ok bytes → bytes.length ≤ maximum ∧ ∃ moment,
    contract.rely world moment ∧ contract.rely moment later ∧ moment.contents file = bytes
  complete : Clean events → ∀ data, (∀ moment, contract.rely world moment →
    moment.contents file = data) → data.length ≤ maximum → result = .ok data

theorem ReadOpen.stopped {file maximum : Nat} {later : FileSystem} {events : List FileEvent}
    {stopped : Abort Error} (looked : Looked contract world later events)
    (reported : stopped ≠ .panic)
    (faulty : Clean events → ∀ data, (∀ moment, contract.rely world moment →
      moment.contents file = data) → ¬ data.length ≤ maximum) :
    ReadOpen contract file maximum world events later (.error stopped) where
  looked := looked
  noPanic := fun same => reported (Except.error.inj same)
  sound := nofun
  complete := fun clean data always fits => absurd fits (faulty clean data always)

theorem meets_readOpen (idle : ∀ moment, contract.guarantee moment moment)
    {file : Nat} (growing : GrowingAt file contract) (maximum : Nat) :
    Meets caller contract (ReadOpen contract file maximum world)
      (do
        let declared : Nat ← perform (.fileLength file)
        check (.reject (declared > maximum) (.invalidInput "file is too large"))
        let bytes ← readToEnd file (maximum + 1) (maximum + 1) []
        check (.reject (bytes.length > maximum) (.invalidInput "file is too large"))
        return bytes) world := by
  refine meets_then (meets_look (.fileLength file) trivial idle) ?_ ?_
  · rintro first later declared ⟨looked, _, moment, outcome, before, _, rfl, reply⟩
    by_cases large : declared > maximum
    · rw [Checked.reject_of large]
      refine fun final relied => .stopped (looked.until relied) nofun fun _ data always => ?_
      cases outcome with
      | failed => cases reply
      | carriedOut =>
          cases reply
          rw [← always moment before]
          omega
    · rw [check_bind (Checked.reject_of_not large)]
      refine meets_then (meets_readToEnd idle growing (maximum + 1) [] List.nil_prefix
        (by simp)) ?_ ?_
      · rintro second final bytes ⟨looked', _, sound, complete⟩
        by_cases excess : bytes.length > maximum
        · rw [Checked.reject_of excess]
          intro last relied
          rw [List.append_nil]
          refine .stopped (looked.append (looked'.until relied)) nofun ?_
          intro clean data always fits
          have same := complete (clean_append.1 clean).2 data
            (fun moment relied => always moment (contract.rely_trans looked.relied relied))
            (Nat.lt_succ_of_le fits)
          cases same
          exact excess.not_ge fits
        · rw [check_bind (Checked.reject_of_not excess)]
          intro last relied
          rw [List.append_nil]
          refine ⟨looked.append (looked'.until relied), nofun, ?_, ?_⟩
          · rintro _ ⟨⟩
            refine ⟨Nat.le_of_not_gt excess, ?_⟩
            rcases sound bytes rfl with long | ⟨moment, before', after', same⟩
            · omega
            · exact ⟨moment, contract.rely_trans looked.relied before',
                contract.rely_trans after' relied, same⟩
          · intro clean data always fits
            exact complete (clean_append.1 clean).2 data
              (fun moment relied => always moment (contract.rely_trans looked.relied relied))
              (Nat.lt_succ_of_le fits)
      · rintro second final stopped ⟨looked', noPanic, _, complete⟩ last relied
        refine .stopped (looked.append (looked'.until relied)) (fun same => noPanic (same ▸ rfl)) ?_
        intro clean data always fits
        cases complete (clean_append.1 clean).2 data
          (fun moment relied => always moment (contract.rely_trans looked.relied relied))
          (Nat.lt_succ_of_le fits)
  · rintro first later stopped ⟨looked, _, moment, outcome, _, _, rfl, reply⟩ final relied
    refine .stopped (looked.until relied) ?_ fun clean => ?_
    · rintro rfl
      exact noPanic_answered _ reply.symm
    · cases outcome with
      | failed => exact absurd rfl (clean _ List.mem_cons_self)
      | carriedOut => cases reply

/-- What `read_regular_limited` says. -/
structure ReadRegular (contract : Contract FileSystem) (path : Path) (maximum : Nat)
    (world : FileSystem) (events : List FileEvent) (later : FileSystem)
    (result : Checked Error (List UInt8)) : Prop where
  looked : Looked contract world later events
  noPanic : Checked.NoPanic result
  sound : ∀ bytes, result = .ok bytes → bytes.length ≤ maximum ∧
    ∃ regular opened moment file, contract.rely world regular ∧ contract.rely regular opened ∧
      contract.rely opened moment ∧ contract.rely moment later ∧ IsType .file path regular ∧
      opened.node true path = .ok (.file file) ∧ moment.contents file = bytes
  complete : Clean events → ∀ file data, (∀ moment, contract.rely world moment →
    moment.node false path = .ok (.file file) ∧ moment.contents file = data) →
      data.length ≤ maximum → result = .ok data

theorem openReadAt_eq_ok_iff {fs : FileSystem} {path : Path} {file : Nat} :
    fs.openReadAt path = .ok file ↔ fs.node true path = .ok (.file file) := by
  unfold openReadAt
  cases fs.node true path with
  | error kind => simp
  | ok node => cases node <;> simp

theorem meets_readRegularLimited (idle : ∀ moment, contract.guarantee moment moment)
    (growing : Growing contract) (path : Path) (maximum : Nat) :
    Meets caller contract (ReadRegular contract path maximum world)
      (readRegularLimited path maximum) world := by
  refine meets_then (meets_ensureFileType idle (by decide) path _) ?_ ?_
  · rintro first later _ ⟨looked, passed, _⟩
    obtain ⟨_, regular, beforeRegular, afterRegular, type⟩ := passed rfl
    refine meets_then (meets_look (.openRead path) trivial idle) ?_ ?_
    · rintro second middle file ⟨looked', _, opened, outcome, before, after, rfl, reply⟩
      have there : opened.node true path = .ok (.file file) := by
        have carried : outcome ≠ .failed := by
          rintro rfl
          rw [respond_failed] at reply
          cases reply
        rw [ok_eq_answered_iff, respond_openRead carried] at reply
        exact openReadAt_eq_ok_iff.1 reply
      refine (meets_readOpen idle (growing.at file) maximum).consequence ?_
      rintro third final result ⟨looked'', noPanic, sound, complete⟩
      refine ⟨looked.append (looked'.append looked''), noPanic, ?_, ?_⟩
      · intro bytes ok
        obtain ⟨fits, moment, before', after', same⟩ := sound bytes ok
        exact ⟨fits, regular, opened, moment, file, beforeRegular,
          contract.rely_trans afterRegular before, contract.rely_trans after before', after', type,
          there, same⟩
      · intro clean file' data always fits
        obtain ⟨found, _⟩ := always opened (contract.rely_trans looked.relied before)
        cases (node_follow found (by simp)).symm.trans there
        refine complete (clean_append.1 (clean_append.1 clean).2).2 data ?_ fits
        exact fun moment relied => (always moment (contract.rely_trans looked.relied
          (contract.rely_trans looked'.relied relied))).2
    · rintro second middle stopped ⟨looked', _, opened, outcome, before, _, rfl, reply⟩ later relied
      refine ⟨looked.append (looked'.until relied), ?_, nofun, ?_⟩
      · rintro ⟨⟩
        exact noPanic_answered _ reply.symm
      · intro clean file data always
        obtain ⟨found, _⟩ := always opened (contract.rely_trans looked.relied before)
        have answer := openReadAt_eq_ok_iff.2 (node_follow found (by simp))
        rw [respond_openRead ((clean_append.1 clean).2 _ List.mem_cons_self), answer] at reply
        cases reply
  · rintro first middle stopped ⟨looked, _, known, reported⟩ later relied
    refine ⟨looked.until relied, ?_, nofun, ?_⟩
    · rintro ⟨⟩
      exact reported rfl
    · intro clean file data always
      cases (known fun moment relied =>
        ⟨.file file, (always moment relied).1, rfl⟩).2 clean

end Sealed.Storage
