import Sealed.CryptoProperties

/-! What `seal` computes: the record it signs, the bucket it pads to, and the transcript
it encrypts under. -/

set_option autoImplicit false

namespace Sealed

open Foundation InternalRecord

variable {primitives : Primitives}

/-- The record a sender signs for a recipient. -/
def InternalRecord.signed (primitives : Primitives) (senderSecrets : IdentitySecrets)
    (recipient : PublicProfile) (messageId : Bytes 32) (body : List UInt8)
    (bounded : body.length ≤ maxBodyLen) : InternalRecord where
  identityPublic := (senderSecrets.publicProfile primitives).identityPublic
  agreementPublic := (senderSecrets.publicProfile primitives).agreementPublic
  recipientFingerprint := recipient.fingerprint
  messageId := messageId
  body := body
  signature := primitives.sign senderSecrets.identitySecret
    (signedBytes (senderSecrets.publicProfile primitives).identityPublic
      (senderSecrets.publicProfile primitives).agreementPublic recipient.fingerprint messageId body)
  bounded := bounded

/-- What `seal` hands to the cipher for an internal record and a bucket. -/
def SealRequest.of (primitives : Primitives) (recipient : PublicProfile)
    (ephemeralSeed : Bytes 32) (nonce : Bytes 24) (internal : List UInt8) (bucket : Nat) :
    SealRequest where
  cipher := messageKey primitives
    (primitives.diffieHellman ephemeralSeed recipient.agreementPublic)
    (primitives.agreementPublic ephemeralSeed) recipient.agreementPublic
  nonce := nonce
  aad := outerAad (primitives.agreementPublic ephemeralSeed) nonce
  internal := internal
  ephemeralPublic := primitives.agreementPublic ephemeralSeed
  blobLen := bucket

/-- Draws that all succeed. -/
def SealDraws.drawn (ephemeralSeed : Bytes 32) (nonce : Bytes 24) (messageId : Bytes 32)
    (padding : (length : Nat) → Bytes length) : SealDraws where
  ephemeralSeed := some ephemeralSeed
  nonce := some nonce
  messageId := some messageId
  padding := fun length => some (padding length)

namespace Message

theorem newCipher_bytes (key : Bytes 32) : newCipher key.toList = some key :=
  Bytes.tryFrom_eq_some_iff.2 rfl

theorem serializeInternal_eq_ok_iff {senderSecrets : IdentitySecrets}
    {senderProfile recipient : PublicProfile} {messageId : Bytes 32}
    {body padding output : List UInt8} :
    serializeInternal primitives senderSecrets senderProfile recipient messageId body padding =
        .ok output ↔
      senderSecrets.publicProfile primitives = senderProfile ∧ output.length < usizeLimit ∧
        ∃ bounded : body.length ≤ maxBodyLen,
          output = (InternalRecord.signed primitives senderSecrets recipient messageId body
            bounded).layout padding := by
  constructor
  · intro serialized
    obtain ⟨record, rfl, fits, signed, identity, agreement, fingerprint, id, rfl⟩ :=
      serializeInternal_eq_ok serialized
    obtain ⟨rfl, _, signature⟩ := signMessage_eq_ok_iff.1 signed
    refine ⟨rfl, fits, record.bounded, ?_⟩
    cases record
    simp_all [InternalRecord.signed]
  · rintro ⟨rfl, fits, bounded, rfl⟩
    have small : body.length < 2 ^ 32 := by
      simp only [maxBodyLen] at bounded
      omega
    have capacity : (checkedAdd internalFixedLen body.length).bind
        (fun length => checkedAdd length padding.length) =
          some (internalFixedLen + body.length + padding.length) := by
      have length := length_layout
        (InternalRecord.signed primitives senderSecrets recipient messageId body bounded) padding
      have total : internalFixedLen + body.length + padding.length < usizeLimit := length ▸ fits
      have first : internalFixedLen + body.length < usizeLimit := by omega
      simp [checkedAdd, first, total]
    simp only [serializeInternal, Checked.bind_eq_ok, Checked.reject_eq_ok_iff,
      Checked.okOr_eq_ok_iff, Checked.pure_eq_ok, Except.ok.injEq]
    refine ⟨(), Nat.not_lt.2 bounded, UInt32.ofNat body.length, if_pos small, _,
      signMessage_eq_ok_iff.2 ⟨rfl, small, rfl⟩, _, capacity, ?_⟩
    simp [layout, head, bodyLen, InternalRecord.signed, protocolVersion, cryptoSuiteClassicalV1]

/-- With every draw made, the sender's own profile and a body within the limit, only the
key agreement can still fail; the padded record and its tag fill the bucket. -/
theorem sealRequest_drawn (primitives : Primitives) (senderSecrets : IdentitySecrets) (recipient : PublicProfile)
    {body : List UInt8} (bounded : body.length ≤ maxBodyLen) (ephemeralSeed : Bytes 32)
    (nonce : Bytes 24) (messageId : Bytes 32) (padding : (length : Nat) → Bytes length) :
    ∃ (bucket : Nat) (tail : List UInt8), validBlobLen bucket = true ∧
      ((InternalRecord.signed primitives senderSecrets recipient messageId body bounded).layout
        tail).length + outerOverhead = bucket ∧
      sealRequest primitives senderSecrets (senderSecrets.publicProfile primitives) recipient body
          (.drawn ephemeralSeed nonce messageId padding) =
        (rejectAllZero (primitives.diffieHellman ephemeralSeed recipient.agreementPublic) >>=
          fun _ => .ok (.of primitives recipient ephemeralSeed nonce
            ((InternalRecord.signed primitives senderSecrets recipient messageId body
              bounded).layout tail) bucket)) := by
  obtain ⟨doublings, bucket, padded, isBucket, valid⟩ := paddedBlobLen_eq_some bounded
  have holds := isBucket.holds
  let room := bucket - outerOverhead - internalFixedLen - body.length
  let record := InternalRecord.signed primitives senderSecrets recipient messageId body bounded
  have length : (record.layout (padding room).toList).length + outerOverhead = bucket := by
    rw [length_layout, Bytes.length_toList]
    simp only [record, InternalRecord.signed, room]
    omega
  have fits : (record.layout (padding room).toList).length < usizeLimit := by
    have bounds := (validBlobLen_iff.1 valid).2.1
    simp only [maxBlobLen, usizeLimit] at bounds ⊢
    omega
  have serialized := serializeInternal_eq_ok_iff.2 ⟨rfl, fits, bounded, rfl⟩
  refine ⟨bucket, (padding room).toList, valid, length, ?_⟩
  unfold sealRequest
  rw [Checked.reject_of_not (Nat.not_lt.2 bounded), padded]
  simp only [SealDraws.drawn, randomArray_some, Checked.okOr_some, Checked.ok_bind]
  rw [Checked.sub_of_le (by omega), Checked.ok_bind, Checked.sub_of_le (by omega), Checked.ok_bind,
    Checked.sub_of_le (by omega), Checked.ok_bind, serialized, Checked.ok_bind,
    Checked.reject_of_not (by omega), Checked.ok_bind]
  -- Past the padding check the request depends on the agreement alone.
  rw [deriveMessageKeySender_eq]
  cases rejectAllZero (primitives.diffieHellman ephemeralSeed recipient.agreementPublic) with
  | error abort => rfl
  | ok value =>
      simp only [Checked.ok_bind, newCipher_bytes, Checked.okOr_some]
      rfl

/-- A letter whose key agreement contributes is sealed; one whose agreement does not is
refused before anything is encrypted. -/
theorem seal_drawn (primitives : Primitives) (senderSecrets : IdentitySecrets) (recipient : PublicProfile)
    {body : List UInt8} (bounded : body.length ≤ maxBodyLen) (ephemeralSeed : Bytes 32)
    (nonce : Bytes 24) (messageId : Bytes 32) (padding : (length : Nat) → Bytes length) :
    ∃ tail ciphertext : List UInt8,
      primitives.encrypt
          (messageKey primitives
            (primitives.diffieHellman ephemeralSeed recipient.agreementPublic)
            (primitives.agreementPublic ephemeralSeed) recipient.agreementPublic)
          nonce (outerAad (primitives.agreementPublic ephemeralSeed) nonce)
          ((InternalRecord.signed primitives senderSecrets recipient messageId body
            bounded).layout tail) = some ciphertext ∧
      validBlobLen (32 + 24 + ciphertext.length) = true ∧
      «seal» primitives senderSecrets (senderSecrets.publicProfile primitives) recipient body
          (.drawn ephemeralSeed nonce messageId padding) =
        (rejectAllZero (primitives.diffieHellman ephemeralSeed recipient.agreementPublic) >>=
          fun _ => .ok ((primitives.agreementPublic ephemeralSeed).toList ++ nonce.toList ++
            ciphertext)) := by
  obtain ⟨bucket, tail, valid, length, request⟩ := sealRequest_drawn primitives
    senderSecrets recipient bounded ephemeralSeed nonce messageId padding
  have short : ((InternalRecord.signed primitives senderSecrets recipient messageId body
      bounded).layout tail).length ≤ maxBlobLen := by
    have largest := (validBlobLen_iff.1 valid).2.1
    omega
  obtain ⟨ciphertext, encrypted⟩ := Primitives.encrypt_of_length short
  have total : 32 + 24 + ciphertext.length = bucket := by
    rw [Primitives.length_encrypt encrypted, ← length]
    simp only [outerOverhead, ephemeralPublicLen, nonceLen, aeadTagLen]
    omega
  refine ⟨tail, ciphertext, encrypted, total ▸ valid, ?_⟩
  unfold «seal»
  rw [request]
  cases rejectAllZero (primitives.diffieHellman ephemeralSeed recipient.agreementPublic) with
  | error abort => rfl
  | ok value =>
      simp only [Checked.ok_bind, SealRequest.of]
      rw [encrypted, Checked.okOr_some, Checked.ok_bind, Checked.reject_of_not (by simp; omega)]
      rfl

/-- The raw ephemeral key and the nonce both stand in the associated data, and the
padding was computed for the bucket. -/
theorem sealRequest_shape {senderSecrets : IdentitySecrets}
    {senderProfile recipient : PublicProfile} {body : List UInt8} {draws : SealDraws}
    {request : SealRequest}
    (requested : sealRequest primitives senderSecrets senderProfile recipient body draws =
      .ok request) :
    request.aad = outerAad request.ephemeralPublic request.nonce ∧
      request.internal.length + outerOverhead = request.blobLen := by
  simp only [sealRequest, Checked.bind_eq_ok, Checked.reject_eq_ok_iff, not_not,
    Checked.pure_eq_ok, Except.ok.injEq, Checked.sub_eq_ok_iff] at requested
  obtain ⟨_, _, seed, _, nonce, _, messageId, _, bucket, _, plaintextLen, ⟨fits, rfl⟩, _, _, _, _,
    padding, _, internal, _, _, length, _, _, _, _, rfl⟩ := requested
  refine ⟨rfl, ?_⟩
  change internal.length + outerOverhead = bucket
  omega

/-- Once the cipher has answered, nothing can fail. -/
theorem seal_of_request {senderSecrets : IdentitySecrets}
    {senderProfile recipient : PublicProfile} {body ciphertext : List UInt8} {draws : SealDraws}
    {request : SealRequest}
    (requested : sealRequest primitives senderSecrets senderProfile recipient body draws =
      .ok request)
    (encrypted : primitives.encrypt request.cipher request.nonce request.aad request.internal =
      some ciphertext) :
    «seal» primitives senderSecrets senderProfile recipient body draws =
      .ok (request.ephemeralPublic.toList ++ request.nonce.toList ++ ciphertext) := by
  have length := (sealRequest_shape requested).2
  have total := Primitives.length_encrypt encrypted
  simp only [«seal», Checked.bind_eq_ok, Checked.okOr_eq_ok_iff, Checked.reject_eq_ok_iff, not_not,
    Checked.pure_eq_ok]
  refine ⟨request, requested, ciphertext, encrypted, (), ?_, rfl⟩
  rw [← length, List.length_append, List.length_append, Bytes.length_toList, Bytes.length_toList,
    total]
  simp only [outerOverhead, ephemeralPublicLen, nonceLen, aeadTagLen]
  omega

end Message

end Sealed
