import Sealed.Identity

/-! Key derivation and signatures. -/

set_option autoImplicit false

namespace Sealed

open Foundation

variable (primitives : Primitives)

def hkdf32 (salt : Option (List UInt8)) (input info : List UInt8) : Result (Bytes 32) :=
  .okOr (primitives.hkdfExpand salt input info 32)
    (.invalidInput "HKDF output length is invalid")

def rejectAllZero (shared : Bytes 32) : Result Unit :=
  .reject (shared.toList.all (· == 0) = true) .authentication

def deriveContactRoot (localSecrets : IdentitySecrets)
    (localProfile peerProfile : PublicProfile) : Result (Bytes 32) := do
  .reject (localSecrets.publicProfile primitives ≠ localProfile)
    (.invalidInput "local public profile does not match private identity")
  let shared := primitives.diffieHellman localSecrets.agreementSecret peerProfile.agreementPublic
  rejectAllZero shared
  let localMaterial := localProfile.canonicalKeyMaterial
  let peerMaterial := peerProfile.canonicalKeyMaterial
  let (first, second) :=
    if localMaterial.toList ≤ peerMaterial.toList then (localMaterial, peerMaterial)
    else (peerMaterial, localMaterial)
  hkdf32 primitives (some contactRootSalt) shared.toList
    (contactRootInfo ++ first.toList ++ second.toList)

def deriveStegoKey (contactRoot : Bytes 32) : Result (Bytes 32) :=
  hkdf32 primitives (some subkeySalt) contactRoot.toList stegoInfo

def deriveMessageKeyFromShared (shared ephemeralPublic recipientAgreementPublic : Bytes 32) :
    Result (Bytes 32) :=
  hkdf32 primitives (some messageKeySalt) shared.toList
    (messageKeyInfo ++ ephemeralPublic.toList ++ recipientAgreementPublic.toList)

def deriveMessageKeySender (ephemeralSecret ephemeralPublic recipientAgreementPublic : Bytes 32) :
    Result (Bytes 32) := do
  let shared := primitives.diffieHellman ephemeralSecret recipientAgreementPublic
  rejectAllZero shared
  deriveMessageKeyFromShared primitives shared ephemeralPublic recipientAgreementPublic

def deriveMessageKeyRecipient
    (recipientAgreementSecret ephemeralPublic recipientAgreementPublic : Bytes 32) :
    Result (Bytes 32) := do
  let shared := primitives.diffieHellman recipientAgreementSecret ephemeralPublic
  rejectAllZero shared
  deriveMessageKeyFromShared primitives shared ephemeralPublic recipientAgreementPublic

def signatureInput (sender : PublicProfile) (recipientFingerprint messageId : Bytes 32)
    (body : List UInt8) : Result (List UInt8) := do
  let bodyLen ← .okOr (u32TryFrom body.length) (.invalidInput "message body is too large")
  return signatureDomain ++ [protocolVersion] ++ [cryptoSuiteClassicalV1] ++
    sender.identityPublic.toList ++ sender.agreementPublic.toList ++
    recipientFingerprint.toList ++ messageId.toList ++ (u32ToBe bodyLen).toList ++ body

/-- `sign_message` up to its call of the signing key: the bytes it signs. -/
def signMessageInput (secrets : IdentitySecrets) (sender : PublicProfile)
    (recipientFingerprint messageId : Bytes 32) (body : List UInt8) : Result (List UInt8) := do
  .reject (secrets.publicProfile primitives ≠ sender)
    (.invalidInput "sender public profile does not match private identity")
  signatureInput sender recipientFingerprint messageId body

def signMessage (secrets : IdentitySecrets) (sender : PublicProfile)
    (recipientFingerprint messageId : Bytes 32) (body : List UInt8) : Result (Bytes 64) := do
  let input ← signMessageInput primitives secrets sender recipientFingerprint messageId body
  return primitives.sign secrets.identitySecret input

def verifyMessageSignature (sender : PublicProfile) (recipientFingerprint messageId : Bytes 32)
    (body : List UInt8) (signature : Bytes 64) : Result Unit := do
  .reject (¬ primitives.isVerifyingKey sender.identityPublic = true) .authentication
  let input ← signatureInput sender recipientFingerprint messageId body
  .reject (¬ primitives.verifyStrict sender.identityPublic input signature = true) .authentication

def outerAad (ephemeralPublic : Bytes 32) (nonce : Bytes 24) : List UInt8 :=
  outerAadDomain ++ ephemeralPublic.toList ++ nonce.toList

end Sealed
