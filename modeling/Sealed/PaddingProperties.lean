import Sealed.LetterProperties

/-! What anyone can see of a sealed blob: its length and its first 56 bytes. Neither depends
on the sender, the recipient, the body or the padding, only on the bucket and on two of the
draws. -/

set_option autoImplicit false

namespace Sealed

open Foundation InternalRecord

variable {primitives : Primitives}

/-- The parts of a sealed blob: the key of the ephemeral seed, the nonce, and a ciphertext
that fills the bucket of the body. -/
theorem SealCall.blob_shape {call : SealCall} {blob : List UInt8}
    (result : call.blob primitives = .ok blob) :
    ∃ ephemeralSeed nonce ciphertext, call.draws.ephemeralSeed = some ephemeralSeed ∧
      call.draws.nonce = some nonce ∧
      blob = (primitives.agreementPublic ephemeralSeed).toList ++ nonce.toList ++ ciphertext ∧
      paddedBlobLen call.body.length = some blob.length := by
  simp only [SealCall.blob, Message.seal, Checked.bind_eq_ok, Checked.okOr_eq_ok_iff,
    Checked.reject_eq_ok_iff, not_not, Checked.pure_eq_ok, Except.ok.injEq] at result
  obtain ⟨request, requested, ciphertext, _, _, filled, rfl⟩ := result
  simp only [Message.sealRequest, randomArray, Checked.bind_eq_ok, Checked.okOr_eq_ok_iff,
    Checked.pure_eq_ok, Except.ok.injEq] at requested
  obtain ⟨_, _, ephemeralSeed, drawnSeed, nonce, drawnNonce, _, _, bucket, padded, _, _, _, _, _, _,
    _, _, _, _, _, _, _, _, _, _, rfl⟩ := requested
  exact ⟨ephemeralSeed, nonce, ciphertext, drawnSeed, drawnNonce, rfl, filled ▸ padded⟩

/-! ## The padding computation -/

/-- The stops that the padding computation is not to end in: an underflow, and the two
checks of its result. -/
def Unpadded (abort : Abort Error) : Prop :=
  abort = .panic ∨ abort = .error (.invalidInput "internal padding calculation failed") ∨
    abort = .error (.invalidInput "outer padding calculation failed")

instance (abort : Abort Error) : Decidable (Unpadded abort) := by
  unfold Unpadded
  infer_instance

namespace Message

theorem serializeInternal_stops (senderSecrets : IdentitySecrets)
    (senderProfile recipient : PublicProfile) (messageId : Bytes 32)
    (body padding : List UInt8) :
    Checked.StopsOnlyBy (¬ Unpadded ·)
      (serializeInternal primitives senderSecrets senderProfile recipient messageId body
        padding) := by
  have signs : Checked.StopsOnlyBy (¬ Unpadded ·)
      (signMessage primitives senderSecrets senderProfile recipient.fingerprint messageId body) := by
    refine Checked.stopsOnlyBy_bind ?_ fun _ _ => Checked.stopsOnlyBy_ok _
    refine Checked.stopsOnlyBy_bind (Checked.stopsOnlyBy_reject (by decide)) fun _ _ => ?_
    refine Checked.stopsOnlyBy_bind (Checked.stopsOnlyBy_okOr (by decide)) fun _ _ => ?_
    exact Checked.stopsOnlyBy_ok _
  refine Checked.stopsOnlyBy_bind (Checked.stopsOnlyBy_reject (by decide)) fun _ _ => ?_
  refine Checked.stopsOnlyBy_bind (Checked.stopsOnlyBy_okOr (by decide)) fun _ _ => ?_
  refine Checked.stopsOnlyBy_bind signs fun _ _ => ?_
  refine Checked.stopsOnlyBy_bind (Checked.stopsOnlyBy_okOr (by decide)) fun _ _ => ?_
  exact Checked.stopsOnlyBy_ok _

/-- The bucket leaves room for the overhead, the fixed fields and the body, and the record
is as long as it was computed to be. -/
theorem sealRequest_stops (senderSecrets : IdentitySecrets)
    (senderProfile recipient : PublicProfile) (body : List UInt8) (draws : SealDraws) :
    Checked.StopsOnlyBy (¬ Unpadded ·)
      (sealRequest primitives senderSecrets senderProfile recipient body draws) := by
  refine Checked.stopsOnlyBy_bind (Checked.stopsOnlyBy_reject (by decide)) fun _ _ => ?_
  refine Checked.stopsOnlyBy_bind (Checked.stopsOnlyBy_okOr (by decide)) fun _ _ => ?_
  refine Checked.stopsOnlyBy_bind (Checked.stopsOnlyBy_okOr (by decide)) fun _ _ => ?_
  refine Checked.stopsOnlyBy_bind (Checked.stopsOnlyBy_okOr (by decide)) fun messageId _ => ?_
  refine Checked.stopsOnlyBy_bind (Checked.stopsOnlyBy_okOr (by decide)) fun bucket padded => ?_
  obtain ⟨_, _, room, _⟩ := paddedBlobLen_spec (Checked.okOr_eq_ok_iff.1 padded)
  rw [Checked.sub_of_le (by omega), Checked.ok_bind, Checked.sub_of_le (by omega), Checked.ok_bind,
    Checked.sub_of_le (by omega), Checked.ok_bind]
  refine Checked.stopsOnlyBy_bind (Checked.stopsOnlyBy_okOr (by decide)) fun padding _ => ?_
  refine Checked.stopsOnlyBy_bind (serializeInternal_stops _ _ _ _ _ _) fun internal serialized => ?_
  obtain ⟨_, _, bounded, rfl⟩ := serializeInternal_eq_ok_iff.1 serialized
  have filled : ¬ ((InternalRecord.signed primitives senderSecrets recipient messageId body
      bounded).layout padding.toList).length ≠ bucket - outerOverhead := by
    rw [length_layout, Bytes.length_toList, not_not]
    simp only [InternalRecord.signed]
    omega
  rw [Checked.reject_of_not filled, Checked.ok_bind, deriveMessageKeySender_eq]
  refine Checked.stopsOnlyBy_bind ?_ fun _ _ => ?_
  · refine Checked.stopsOnlyBy_bind (Checked.stopsOnlyBy_reject (by decide)) fun _ _ => ?_
    exact Checked.stopsOnlyBy_ok _
  · refine Checked.stopsOnlyBy_bind (Checked.stopsOnlyBy_okOr (by decide)) fun _ _ => ?_
    exact Checked.stopsOnlyBy_ok _

theorem seal_stops (senderSecrets : IdentitySecrets) (senderProfile recipient : PublicProfile)
    (body : List UInt8) (draws : SealDraws) :
    Checked.StopsOnlyBy (¬ Unpadded ·)
      («seal» primitives senderSecrets senderProfile recipient body draws) := by
  refine Checked.stopsOnlyBy_bind (sealRequest_stops _ _ _ _ _) fun request requested => ?_
  refine Checked.stopsOnlyBy_bind (Checked.stopsOnlyBy_okOr (by decide)) fun ciphertext answered => ?_
  have encrypted := Checked.okOr_eq_ok_iff.1 answered
  have length := (sealRequest_shape requested).2
  have total := Primitives.length_encrypt encrypted
  refine Checked.stopsOnlyBy_bind ?_ fun _ _ => Checked.stopsOnlyBy_ok _
  have filled : ¬ (request.ephemeralPublic.toList ++ request.nonce.toList ++ ciphertext).length ≠
      request.blobLen := by
    rw [not_not, List.length_append, List.length_append, Bytes.length_toList, Bytes.length_toList,
      total, ← length]
    simp only [outerOverhead, ephemeralPublicLen, nonceLen, aeadTagLen]
    omega
  rw [Checked.reject_of_not filled]
  exact Checked.stopsOnlyBy_ok _

/-- Two letters of one bucket that draw the same ephemeral seed and nonce look alike up to
their ciphertexts; and no letter fails in its padding computation. -/
theorem seal_visible_part (primitives : Primitives) :
    (∀ (left right : SealCall) (leftBlob rightBlob : List UInt8),
      left.blob primitives = .ok leftBlob → right.blob primitives = .ok rightBlob →
      paddedBlobLen left.body.length = paddedBlobLen right.body.length →
      left.draws.ephemeralSeed = right.draws.ephemeralSeed →
      left.draws.nonce = right.draws.nonce →
        leftBlob.length = rightBlob.length ∧
          paddedBlobLen left.body.length = some leftBlob.length ∧
          leftBlob.take 56 = rightBlob.take 56) ∧
    ∀ call : SealCall, call.body.length ≤ maxBodyLen →
      (∃ bucket, paddedBlobLen call.body.length = some bucket ∧ outerOverhead ≤ bucket ∧
        internalFixedLen + call.body.length ≤ bucket - outerOverhead) ∧
      call.blob primitives ≠ .error .panic ∧
      call.blob primitives ≠ Checked.err (.invalidInput "internal padding calculation failed") ∧
      call.blob primitives ≠ Checked.err (.invalidInput "outer padding calculation failed") := by
  constructor
  · intro left right leftBlob rightBlob leftSealed rightSealed sameBucket sameSeed sameNonce
    obtain ⟨seed, nonce, leftRest, drawnSeed, drawnNonce, rfl, bucket⟩ :=
      SealCall.blob_shape leftSealed
    obtain ⟨_, _, rightRest, drawnSeed', drawnNonce', rfl, bucket'⟩ :=
      SealCall.blob_shape rightSealed
    obtain rfl := Option.some.inj (drawnSeed.symm.trans (sameSeed.trans drawnSeed'))
    obtain rfl := Option.some.inj (drawnNonce.symm.trans (sameNonce.trans drawnNonce'))
    have header : ((primitives.agreementPublic seed).toList ++ nonce.toList).length = 56 := by
      simp
    refine ⟨Option.some.inj (bucket.symm.trans (sameBucket.trans bucket')), bucket, ?_⟩
    rw [List.take_left' header, List.take_left' header]
  · intro call within
    obtain ⟨_, bucket, padded, _, _⟩ := paddedBlobLen_eq_some within
    obtain ⟨_, _, room, _⟩ := paddedBlobLen_spec padded
    have stops := @seal_stops primitives call.senderSecrets call.senderProfile
      call.recipient call.body call.draws
    refine ⟨⟨bucket, padded, by omega, by omega⟩, ?_, ?_, ?_⟩
    · exact fun stopped => stops _ stopped (.inl rfl)
    · exact fun stopped => stops _ stopped (.inr (.inl rfl))
    · exact fun stopped => stops _ stopped (.inr (.inr rfl))

end Message

end Sealed
