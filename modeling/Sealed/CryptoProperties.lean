import Sealed.InternalRecord

/-! What the key derivations and the signature functions compute: the derived key as a
function of its transcript, and the byte string that is signed and verified. -/

set_option autoImplicit false

namespace Sealed

open Foundation

variable {primitives : Primitives}

/-! ## Derived keys -/

theorem rejectAllZero_eq_ok_iff {shared : Bytes 32} {value : Unit} :
    rejectAllZero shared = .ok value ↔ shared ≠ Bytes.replicate 32 0 := by
  rw [rejectAllZero, Checked.reject_eq_ok_iff, not_iff_not]
  constructor
  · intro zero
    apply Bytes.ext
    refine List.eq_replicate_iff.2 ⟨shared.length_eq, fun byte member => ?_⟩
    simpa using List.all_eq_true.1 zero byte member
  · rintro rfl
    decide

theorem hkdf32_eq (salt : Option (List UInt8)) (input info : List UInt8) :
    hkdf32 primitives salt input info = .ok (primitives.hkdfOutput salt input info 32) := rfl

/-- The message key of a shared secret and the public keys of its agreement. -/
def messageKey (primitives : Primitives)
    (shared ephemeralPublic recipientAgreementPublic : Bytes 32) : Bytes 32 :=
  primitives.hkdfOutput (some messageKeySalt) shared.toList
    (messageKeyInfo ++ ephemeralPublic.toList ++ recipientAgreementPublic.toList) 32

theorem deriveMessageKeySender_eq
    (ephemeralSecret ephemeralPublic recipientAgreementPublic : Bytes 32) :
    deriveMessageKeySender primitives ephemeralSecret ephemeralPublic recipientAgreementPublic =
      (rejectAllZero (primitives.diffieHellman ephemeralSecret recipientAgreementPublic) >>=
        fun _ => .ok (messageKey primitives
          (primitives.diffieHellman ephemeralSecret recipientAgreementPublic) ephemeralPublic
          recipientAgreementPublic)) := rfl

theorem deriveMessageKeyRecipient_eq_ok_iff
    {recipientAgreementSecret ephemeralPublic recipientAgreementPublic key : Bytes 32} :
    deriveMessageKeyRecipient primitives recipientAgreementSecret ephemeralPublic
        recipientAgreementPublic = .ok key ↔
      primitives.diffieHellman recipientAgreementSecret ephemeralPublic ≠ Bytes.replicate 32 0 ∧
        key = messageKey primitives
          (primitives.diffieHellman recipientAgreementSecret ephemeralPublic) ephemeralPublic
          recipientAgreementPublic := by
  simp only [deriveMessageKeyRecipient, deriveMessageKeyFromShared, hkdf32_eq, Checked.bind_eq_ok,
    rejectAllZero_eq_ok_iff, exists_const, Except.ok.injEq, messageKey]
  exact and_congr_right fun _ => eq_comm

theorem noPanic_rejectAllZero (shared : Bytes 32) : Checked.NoPanic (rejectAllZero shared) := by
  simp [rejectAllZero]

theorem noPanic_deriveMessageKeyRecipient
    (recipientAgreementSecret ephemeralPublic recipientAgreementPublic : Bytes 32) :
    Checked.NoPanic (deriveMessageKeyRecipient primitives recipientAgreementSecret ephemeralPublic
      recipientAgreementPublic) :=
  Checked.noPanic_bind (noPanic_rejectAllZero _) fun _ _ => by
    simp [deriveMessageKeyFromShared, hkdf32_eq]

/-! ## Signatures -/

/-- The byte string a message signature covers. -/
def signedBytes (identityPublic agreementPublic recipientFingerprint messageId : Bytes 32)
    (body : List UInt8) : List UInt8 :=
  signatureDomain ++ InternalRecord.head identityPublic agreementPublic recipientFingerprint
    messageId (UInt32.ofNat body.length) body

theorem signatureInput_eq_ok_iff {sender : PublicProfile}
    {recipientFingerprint messageId : Bytes 32} {body input : List UInt8} :
    signatureInput sender recipientFingerprint messageId body = .ok input ↔
      body.length < 2 ^ 32 ∧ input = signedBytes sender.identityPublic sender.agreementPublic
        recipientFingerprint messageId body := by
  have shape : signatureDomain ++ [protocolVersion] ++ [cryptoSuiteClassicalV1] ++
      sender.identityPublic.toList ++ sender.agreementPublic.toList ++
      recipientFingerprint.toList ++ messageId.toList ++
      (u32ToBe (UInt32.ofNat body.length)).toList ++ body =
        signedBytes sender.identityPublic sender.agreementPublic recipientFingerprint messageId
          body := by
    simp [signedBytes, InternalRecord.head, protocolVersion, cryptoSuiteClassicalV1]
  simp only [signatureInput, Checked.bind_eq_ok, Checked.okOr_eq_ok_iff, Checked.pure_eq_ok,
    Except.ok.injEq, u32TryFrom]
  constructor
  · rintro ⟨bodyLen, converted, rfl⟩
    split at converted
    · rename_i small
      cases converted
      exact ⟨small, shape⟩
    · cases converted
  · rintro ⟨small, rfl⟩
    exact ⟨_, if_pos small, shape⟩

/-- The signed transcript determines every field it covers: the widths in front of the
body are fixed. -/
theorem signedBytes_inj {identityPublic agreementPublic recipientFingerprint messageId
      otherIdentity otherAgreement otherFingerprint otherId : Bytes 32}
    {body otherBody : List UInt8}
    (same : signedBytes identityPublic agreementPublic recipientFingerprint messageId body =
      signedBytes otherIdentity otherAgreement otherFingerprint otherId otherBody) :
    identityPublic = otherIdentity ∧ agreementPublic = otherAgreement ∧
      recipientFingerprint = otherFingerprint ∧ messageId = otherId ∧ body = otherBody := by
  obtain ⟨identity, agreement, fingerprint, message, _, rest⟩ :=
    InternalRecord.head_inj (List.append_cancel_left same)
  exact ⟨identity, agreement, fingerprint, message, rest⟩

theorem signMessageInput_eq_ok_iff {secrets : IdentitySecrets} {sender : PublicProfile}
    {recipientFingerprint messageId : Bytes 32} {body input : List UInt8} :
    signMessageInput primitives secrets sender recipientFingerprint messageId body = .ok input ↔
      secrets.publicProfile primitives = sender ∧ body.length < 2 ^ 32 ∧
        input = signedBytes sender.identityPublic sender.agreementPublic recipientFingerprint
          messageId body := by
  simp only [signMessageInput, Checked.bind_eq_ok, Checked.reject_eq_ok_iff, not_not,
    signatureInput_eq_ok_iff, exists_const]

theorem signMessage_eq_ok_iff {secrets : IdentitySecrets} {sender : PublicProfile}
    {recipientFingerprint messageId : Bytes 32} {body : List UInt8} {signature : Bytes 64} :
    signMessage primitives secrets sender recipientFingerprint messageId body = .ok signature ↔
      secrets.publicProfile primitives = sender ∧ body.length < 2 ^ 32 ∧
        signature = primitives.sign secrets.identitySecret
          (signedBytes sender.identityPublic sender.agreementPublic recipientFingerprint messageId
            body) := by
  simp only [signMessage, Checked.bind_eq_ok, signMessageInput_eq_ok_iff, Checked.pure_eq_ok,
    Except.ok.injEq]
  constructor
  · rintro ⟨input, ⟨own, small, rfl⟩, rfl⟩
    exact ⟨own, small, rfl⟩
  · rintro ⟨own, small, rfl⟩
    exact ⟨_, ⟨own, small, rfl⟩, rfl⟩

theorem verifyMessageSignature_eq_ok_iff {sender : PublicProfile}
    {recipientFingerprint messageId : Bytes 32} {body : List UInt8} {signature : Bytes 64}
    {value : Unit} :
    verifyMessageSignature primitives sender recipientFingerprint messageId body signature =
        .ok value ↔
      primitives.isVerifyingKey sender.identityPublic = true ∧ body.length < 2 ^ 32 ∧
        primitives.verifyStrict sender.identityPublic
          (signedBytes sender.identityPublic sender.agreementPublic recipientFingerprint messageId
            body) signature = true := by
  simp only [verifyMessageSignature, Checked.bind_eq_ok, Checked.reject_eq_ok_iff, not_not,
    signatureInput_eq_ok_iff]
  constructor
  · rintro ⟨_, valid, input, ⟨small, rfl⟩, verified⟩
    exact ⟨valid, small, verified⟩
  · rintro ⟨valid, small, verified⟩
    exact ⟨(), valid, _, ⟨small, rfl⟩, verified⟩

theorem noPanic_signatureInput (sender : PublicProfile) (recipientFingerprint messageId : Bytes 32)
    (body : List UInt8) :
    Checked.NoPanic (signatureInput sender recipientFingerprint messageId body) :=
  Checked.noPanic_bind (by simp) fun _ _ => Checked.noPanic_ok _

theorem noPanic_verifyMessageSignature (sender : PublicProfile)
    (recipientFingerprint messageId : Bytes 32) (body : List UInt8) (signature : Bytes 64) :
    Checked.NoPanic (verifyMessageSignature primitives sender recipientFingerprint messageId body
      signature) := by
  refine Checked.noPanic_bind (by simp) fun _ _ => ?_
  exact Checked.noPanic_bind (noPanic_signatureInput _ _ _ _) fun _ _ => by simp

end Sealed
