import Sealed.CryptoProperties

/-! What `open` accepts. A blob carries a record when it passes every check up to the
signature; the accepted blobs are those that carry an authentic record. -/

set_option autoImplicit false

namespace Sealed

open Foundation InternalRecord

/-- What `open` demands of a blob before it looks at the signature of the record in
it. -/
structure Carries (primitives : Primitives) (recipientSecrets : IdentitySecrets)
    (recipientProfile : PublicProfile) (blob : List UInt8) (ephemeralPublic : Bytes 32)
    (nonce : Bytes 24) (record : InternalRecord) (padding : List UInt8) : Prop where
  size : 512 ≤ blob.length ∧ blob.length ≤ 2 * 1024 * 1024 ∧ ∃ exponent, blob.length = 2 ^ exponent
  own : recipientSecrets.publicProfile primitives = recipientProfile
  ephemeral : blob.take 32 = ephemeralPublic.toList
  nonced : (blob.drop 32).take 24 = nonce.toList
  contributes : primitives.diffieHellman recipientSecrets.agreementSecret ephemeralPublic ≠
    Bytes.replicate 32 0
  decrypted : primitives.decrypt
    (messageKey primitives
      (primitives.diffieHellman recipientSecrets.agreementSecret ephemeralPublic) ephemeralPublic
      recipientProfile.agreementPublic)
    nonce (outerAadDomain ++ blob.take 56) (blob.drop 56) = some (record.layout padding)
  addressed : record.recipientFingerprint = recipientProfile.fingerprint

/-- The signature of a record verifies over its own fields. -/
structure Authentic (primitives : Primitives) (record : InternalRecord) : Prop where
  curve : primitives.isVerifyingKey record.identityPublic = true
  verified : primitives.verifyStrict record.identityPublic
    (signedBytes record.identityPublic record.agreementPublic record.recipientFingerprint
      record.messageId record.body) record.signature = true

variable {primitives : Primitives}

private theorem take_header {blob : List UInt8} {ephemeralPublic : Bytes 32} {nonce : Bytes 24}
    (ephemeral : blob.take 32 = ephemeralPublic.toList)
    (nonced : (blob.drop 32).take 24 = nonce.toList) :
    blob.take 56 = ephemeralPublic.toList ++ nonce.toList := by
  rw [← ephemeral, ← nonced, ← List.take_add]

namespace Carries

variable {recipientSecrets : IdentitySecrets} {recipientProfile : PublicProfile}
  {blob : List UInt8} {ephemeralPublic : Bytes 32} {nonce : Bytes 24} {record : InternalRecord}
  {padding : List UInt8}

theorem header (carries : Carries primitives recipientSecrets recipientProfile blob
      ephemeralPublic nonce record padding) :
    blob.take 56 = ephemeralPublic.toList ++ nonce.toList :=
  take_header carries.ephemeral carries.nonced

theorem blob_eq (carries : Carries primitives recipientSecrets recipientProfile blob
      ephemeralPublic nonce record padding) :
    blob = ephemeralPublic.toList ++ nonce.toList ++ blob.drop 56 := by
  rw [← carries.header, List.take_append_drop]

end Carries

namespace Message

/-- The slices that `open` takes are in range for every blob length it admits. -/
private theorem slices_of_valid {blob : List UInt8}
    (valid : ¬ (¬ validBlobLen blob.length = true ∨ blob.length < outerOverhead)) :
    (Checked.slice blob 0 ephemeralPublicLen : Result _) = .ok (blob.take 32) ∧
      (Checked.slice blob ephemeralPublicLen (ephemeralPublicLen + nonceLen) : Result _) =
        .ok ((blob.drop 32).take 24) ∧
      (Checked.slice blob (ephemeralPublicLen + nonceLen) blob.length : Result _) =
        .ok (blob.drop 56) := by
  have long : 72 ≤ blob.length := Nat.not_lt.1 (not_or.1 valid).2
  refine ⟨?_, ?_, ?_⟩
  · rw [Checked.slice_of_le (Nat.zero_le _) (by simp only [ephemeralPublicLen]; omega)]
    simp [ephemeralPublicLen]
  · rw [Checked.slice_of_le (by simp) (by simp only [ephemeralPublicLen, nonceLen]; omega)]
    simp [ephemeralPublicLen, nonceLen]
  · rw [Checked.slice_of_le (by simp only [ephemeralPublicLen, nonceLen]; omega) (Nat.le_refl _)]
    rw [List.take_of_length_le (by simp)]
    rfl

/-- A plaintext out of an admissible blob is a slice of memory, so the record parser
accepts exactly the layouts. -/
private theorem parse_decrypted {key : Bytes 32} {nonce : Bytes 24}
    {aad blob plaintext : List UInt8} {parsed : ParsedMessage}
    (bounded : blob.length ≤ 2 * 1024 * 1024)
    (decrypted : primitives.decrypt key nonce aad (blob.drop 56) = some plaintext) :
    parseInternal primitives plaintext = .ok parsed ↔
      ∃ (record : InternalRecord) (padding : List UInt8),
        plaintext = record.layout padding ∧ parsed = record.parsed primitives := by
  apply parseInternal_eq_ok_iff
  have shorter := Primitives.length_decrypt decrypted
  rw [List.length_drop] at shorter
  simp only [usizeLimit]
  omega

theorem validBlobLen_of_open {recipientSecrets : IdentitySecrets}
    {recipientProfile : PublicProfile} {contacts : List Contact} {blob : List UInt8}
    {letter : OpenedLetter}
    (accepted : Message.open primitives recipientSecrets recipientProfile contacts blob =
      .ok letter) : validBlobLen blob.length = true := by
  obtain ⟨parsed, opened, _⟩ := Checked.bind_eq_ok.1 accepted
  obtain ⟨_, admitted, _⟩ := Checked.bind_eq_ok.1 opened
  have fits := Checked.reject_eq_ok_iff.1 admitted
  exact not_not.1 (not_or.1 fits).1

/-- Opening up to the signature check succeeds exactly on the blobs that carry a
record, and returns the fields of that record. -/
theorem openRecord_eq_ok_iff {recipientSecrets : IdentitySecrets}
    {recipientProfile : PublicProfile} {blob : List UInt8} {parsed : ParsedMessage} :
    openRecord primitives recipientSecrets recipientProfile blob = .ok parsed ↔
      ∃ (ephemeralPublic : Bytes 32) (nonce : Bytes 24) (record : InternalRecord)
        (padding : List UInt8),
        Carries primitives recipientSecrets recipientProfile blob ephemeralPublic nonce record
            padding ∧ parsed = record.parsed primitives := by
  simp only [openRecord, Checked.bind_eq_ok, Checked.reject_eq_ok_iff, Checked.okOr_eq_ok_iff,
    Checked.slice_eq_ok_iff, Checked.mapErr_eq_ok_iff, deriveMessageKeyRecipient_eq_ok_iff,
    Bytes.tryFrom_eq_some_iff, Checked.pure_eq_ok, Except.ok.injEq, newCipher, not_or, not_not]
  constructor
  · rintro ⟨_, ⟨valid, _⟩, _, own, _, ⟨_, _, rfl⟩, ephemeralPublic, ephemeral, _, ⟨_, _, rfl⟩, nonce,
      nonced, _, ⟨_, _, rfl⟩, _, ⟨contributes, rfl⟩, _, sameKey, plaintext, decrypted, _, accepted,
      _, addressed, rfl⟩
    obtain rfl := Bytes.ext sameKey
    have size := validBlobLen_iff.1 valid
    have body : (blob.drop (ephemeralPublicLen + nonceLen)).take
        (blob.length - (ephemeralPublicLen + nonceLen)) = blob.drop 56 :=
      List.take_of_length_le (by simp)
    rw [body] at decrypted
    obtain ⟨record, padding, rfl, rfl⟩ := (parse_decrypted size.2.1 decrypted).1 accepted
    refine ⟨ephemeralPublic, nonce, record, padding, ⟨size, own, ephemeral, nonced, contributes, ?_,
      addressed⟩, rfl⟩
    have header : blob.take 56 = ephemeralPublic.toList ++ nonce.toList :=
      take_header ephemeral nonced
    rw [header, ← List.append_assoc]
    exact decrypted
  · rintro ⟨ephemeralPublic, nonce, record, padding, carries, rfl⟩
    have valid : validBlobLen blob.length = true := validBlobLen_iff.2 carries.size
    have long : 512 ≤ blob.length := carries.size.1
    have room : 72 ≤ blob.length := by omega
    have body : blob.drop 56 = (blob.drop (ephemeralPublicLen + nonceLen)).take
        (blob.length - (ephemeralPublicLen + nonceLen)) :=
      (List.take_of_length_le (by simp [ephemeralPublicLen, nonceLen])).symm
    have decrypted := carries.decrypted
    rw [carries.header, ← List.append_assoc] at decrypted
    have accepted := (parse_decrypted carries.size.2.1 decrypted).2 ⟨record, padding, rfl, rfl⟩
    exact ⟨(), ⟨valid, Nat.not_lt.2 room⟩, (), carries.own, _,
      ⟨Nat.zero_le _, by simp only [ephemeralPublicLen]; omega, rfl⟩, ephemeralPublic,
      carries.ephemeral, _,
      ⟨Nat.le_add_right _ _, by simp only [ephemeralPublicLen, nonceLen]; omega, rfl⟩, nonce,
      carries.nonced, _,
      ⟨by simp only [ephemeralPublicLen, nonceLen]; omega, Nat.le_refl _, body⟩, _,
      ⟨carries.contributes, rfl⟩, _, rfl, _, decrypted, _, accepted, (), carries.addressed, rfl⟩

/-- Opening succeeds exactly on the blobs that carry an authentic record. -/
theorem open_eq_ok_iff {recipientSecrets : IdentitySecrets} {recipientProfile : PublicProfile}
    {contacts : List Contact} {blob : List UInt8} {letter : OpenedLetter} :
    «open» primitives recipientSecrets recipientProfile contacts blob = .ok letter ↔
      ∃ (ephemeralPublic : Bytes 32) (nonce : Bytes 24) (record : InternalRecord)
        (padding : List UInt8),
        Carries primitives recipientSecrets recipientProfile blob ephemeralPublic nonce record
            padding ∧
          Authentic primitives record ∧
          letter = {
            body := record.body
            messageId := record.messageId
            sender := .new primitives record.identityPublic record.agreementPublic
            senderTrust := classifySender contacts
              (.new primitives record.identityPublic record.agreementPublic)
          } := by
  simp only [«open», Checked.bind_eq_ok, Checked.mapErr_eq_ok_iff, openRecord_eq_ok_iff,
    verifyMessageSignature_eq_ok_iff, Checked.pure_eq_ok, Except.ok.injEq]
  constructor
  · rintro ⟨_, ⟨ephemeralPublic, nonce, record, padding, carries, rfl⟩, _, ⟨curve, _, verified⟩, rfl⟩
    exact ⟨ephemeralPublic, nonce, record, padding, carries, ⟨curve, verified⟩, rfl⟩
  · rintro ⟨ephemeralPublic, nonce, record, padding, carries, authentic, rfl⟩
    have small : record.body.length < 2 ^ 32 := by
      have bounded := record.bounded
      simp only [maxBodyLen] at bounded
      omega
    exact ⟨_, ⟨ephemeralPublic, nonce, record, padding, carries, rfl⟩, (),
      ⟨authentic.curve, small, authentic.verified⟩, rfl⟩

/-! ## The only error -/

/-- Every stage maps its error to one and the same, and no stage can panic: an admitted
blob is long enough for the three slices. -/
theorem openRecord_stops (recipientSecrets : IdentitySecrets) (recipientProfile : PublicProfile)
    (blob : List UInt8) :
    Checked.StopsOnlyBy (· = .error .cannotOpen)
      (openRecord primitives recipientSecrets recipientProfile blob) := by
  refine Checked.stopsOnlyBy_bind (Checked.stopsOnlyBy_reject rfl) fun _ admitted => ?_
  obtain ⟨ephemeral, nonced, rest⟩ := slices_of_valid (Checked.reject_eq_ok_iff.1 admitted)
  rw [ephemeral, nonced, rest]
  refine Checked.stopsOnlyBy_bind (Checked.stopsOnlyBy_reject rfl) fun _ _ => ?_
  refine Checked.stopsOnlyBy_bind (Checked.stopsOnlyBy_ok _) fun _ _ => ?_
  refine Checked.stopsOnlyBy_bind (Checked.stopsOnlyBy_okOr rfl) fun _ _ => ?_
  refine Checked.stopsOnlyBy_bind (Checked.stopsOnlyBy_ok _) fun _ _ => ?_
  refine Checked.stopsOnlyBy_bind (Checked.stopsOnlyBy_okOr rfl) fun _ _ => ?_
  refine Checked.stopsOnlyBy_bind (Checked.stopsOnlyBy_ok _) fun _ _ => ?_
  refine Checked.stopsOnlyBy_bind
    (Checked.stopsOnlyBy_mapErr_const (noPanic_deriveMessageKeyRecipient _ _ _) rfl) fun _ _ => ?_
  refine Checked.stopsOnlyBy_bind (Checked.stopsOnlyBy_okOr rfl) fun _ _ => ?_
  refine Checked.stopsOnlyBy_bind (Checked.stopsOnlyBy_okOr rfl) fun _ _ => ?_
  refine Checked.stopsOnlyBy_bind
    (Checked.stopsOnlyBy_mapErr_const (noPanic_parseInternal _) rfl) fun _ _ => ?_
  exact Checked.stopsOnlyBy_bind (Checked.stopsOnlyBy_reject rfl) fun _ _ =>
    Checked.stopsOnlyBy_ok _

theorem open_stops (recipientSecrets : IdentitySecrets) (recipientProfile : PublicProfile)
    (contacts : List Contact) (blob : List UInt8) :
    Checked.StopsOnlyBy (· = .error .cannotOpen)
      («open» primitives recipientSecrets recipientProfile contacts blob) := by
  refine Checked.stopsOnlyBy_bind (openRecord_stops _ _ _) fun _ _ => ?_
  refine Checked.stopsOnlyBy_bind
    (Checked.stopsOnlyBy_mapErr_const (noPanic_verifyMessageSignature _ _ _ _ _) rfl) fun _ _ => ?_
  exact Checked.stopsOnlyBy_ok _

/-- `open` accepts exactly the well-formed authentic letters, and refuses every other
blob with one error. -/
theorem open_accepts_exactly (primitives : Primitives) (recipientSecrets : IdentitySecrets)
    (recipientProfile : PublicProfile) (contacts : List Contact) (blob : List UInt8) :
    (∀ abort, «open» primitives recipientSecrets recipientProfile contacts blob = .error abort →
      abort = .error .cannotOpen) ∧
    (∀ letter, «open» primitives recipientSecrets recipientProfile contacts blob = .ok letter ↔
      ∃ (ephemeralPublic : Bytes 32) (nonce : Bytes 24) (record : InternalRecord)
        (padding : List UInt8),
        Carries primitives recipientSecrets recipientProfile blob ephemeralPublic nonce record
            padding ∧
          Authentic primitives record ∧
          letter = {
            body := record.body
            messageId := record.messageId
            sender := .new primitives record.identityPublic record.agreementPublic
            senderTrust := classifySender contacts
              (.new primitives record.identityPublic record.agreementPublic)
          }) :=
  ⟨open_stops recipientSecrets recipientProfile contacts blob, fun _ => open_eq_ok_iff⟩

end Message

end Sealed
