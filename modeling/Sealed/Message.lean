import Sealed.Contact
import Sealed.Crypto

/-! Sealing and opening letters. -/

set_option autoImplicit false

namespace Sealed

open Foundation

inductive SenderTrust where
  | pinned (contactAlias : List UInt8)
  | mismatch (contactAlias : List UInt8)
  | unknown
deriving DecidableEq

structure OpenedLetter where
  body : List UInt8
  messageId : Bytes 32
  sender : PublicProfile
  senderTrust : SenderTrust
deriving DecidableEq

structure ParsedMessage where
  sender : PublicProfile
  recipientFingerprint : Bytes 32
  messageId : Bytes 32
  body : List UInt8
  signature : Bytes 64
deriving DecidableEq

/-- The random draws of one `seal` call, in the order it makes them. The padding is
drawn at the length that the call computes. -/
structure SealDraws where
  ephemeralSeed : Draw 32
  nonce : Draw 24
  messageId : Draw 32
  padding : (length : Nat) → Draw length

/-- What `seal` hands to the cipher, and what it assembles the blob from. -/
structure SealRequest where
  cipher : Bytes 32
  nonce : Bytes 24
  aad : List UInt8
  internal : List UInt8
  ephemeralPublic : Bytes 32
  blobLen : Nat

/-- `XChaCha20Poly1305::new_from_slice`. -/
def newCipher (key : List UInt8) : Option (Bytes 32) := Bytes.tryFrom 32 key

namespace Message

variable (primitives : Primitives)

def serializeInternal (senderSecrets : IdentitySecrets)
    (senderProfile recipient : PublicProfile) (messageId : Bytes 32)
    (body padding : List UInt8) : Result (List UInt8) := do
  .reject (body.length > maxBodyLen) (.invalidInput "message body exceeds the 1 MiB limit")
  let bodyLen ← .okOr (u32TryFrom body.length) (.invalidInput "message body is too large")
  let signature ←
    signMessage primitives senderSecrets senderProfile recipient.fingerprint messageId body
  let _capacity ← .okOr
    ((checkedAdd internalFixedLen body.length).bind fun length =>
      checkedAdd length padding.length)
    (.invalidInput "internal message length overflow")
  return [protocolVersion] ++ [cryptoSuiteClassicalV1] ++ senderProfile.identityPublic.toList ++
    senderProfile.agreementPublic.toList ++ recipient.fingerprint.toList ++ messageId.toList ++
    (u32ToBe bodyLen).toList ++ body ++ signature.toList ++ padding

/-- `seal` up to its call of the cipher. -/
def sealRequest (senderSecrets : IdentitySecrets) (senderProfile recipient : PublicProfile)
    (body : List UInt8) (draws : SealDraws) : Result SealRequest := do
  .reject (body.length > maxBodyLen) (.invalidInput "message body exceeds the 1 MiB limit")
  let ephemeralSeed ← randomArray draws.ephemeralSeed
  let ephemeralPublic := primitives.agreementPublic ephemeralSeed
  let nonce ← randomArray draws.nonce
  let messageId ← randomArray draws.messageId
  let blobLen ← .okOr (paddedBlobLen body.length)
    (.invalidInput "message cannot fit a supported padding bucket")
  let plaintextLen ← .sub blobLen outerOverhead
  let paddingLen ← .sub (← .sub plaintextLen internalFixedLen) body.length
  let padding ← randomArray (draws.padding paddingLen)
  let internal ←
    serializeInternal primitives senderSecrets senderProfile recipient messageId body padding.toList
  .reject (internal.length ≠ plaintextLen) (.invalidInput "internal padding calculation failed")
  let messageKey ←
    deriveMessageKeySender primitives ephemeralSeed ephemeralPublic recipient.agreementPublic
  let cipher ← .okOr (newCipher messageKey.toList) .authentication
  return {
    cipher
    nonce
    aad := outerAad ephemeralPublic nonce
    internal
    ephemeralPublic
    blobLen
  }

def «seal» (senderSecrets : IdentitySecrets) (senderProfile recipient : PublicProfile)
    (body : List UInt8) (draws : SealDraws) : Result (List UInt8) := do
  let request ← sealRequest primitives senderSecrets senderProfile recipient body draws
  let ciphertext ← .okOr
    (primitives.encrypt request.cipher request.nonce request.aad request.internal) .authentication
  let blob := request.ephemeralPublic.toList ++ request.nonce.toList ++ ciphertext
  .reject (blob.length ≠ request.blobLen) (.invalidInput "outer padding calculation failed")
  return blob

/-- The fields of a record up to the claimed body length. -/
structure ParsedHeader where
  sender : PublicProfile
  recipientFingerprint : Bytes 32
  messageId : Bytes 32
  bodyLen : Nat

/-- `parse_internal` through its check of the claimed body length. -/
def parseHeader : Reading ParsedHeader := do
  Reader.lift (.reject ((← Reader.byte) ≠ protocolVersion)
    (.invalidInput "unsupported protocol version"))
  Reader.lift (.reject ((← Reader.byte) ≠ cryptoSuiteClassicalV1)
    (.invalidInput "unsupported cryptographic suite"))
  let identityPublic ← Reader.array 32
  let agreementPublic ← Reader.array 32
  let sender := PublicProfile.new primitives identityPublic agreementPublic
  let recipientFingerprint ← Reader.array 32
  let messageId ← Reader.array 32
  let bodyLen ← Reader.lift (.okOr (usizeTryFrom (← Reader.u32Be).toNat)
    (.invalidInput "invalid body length"))
  let remaining ← Reader.remaining
  Reader.lift (.reject (bodyLen > maxBodyLen ∨ bodyLen > remaining - signatureLen)
    (.invalidInput "invalid body length"))
  return { sender, recipientFingerprint, messageId, bodyLen }

/-- The rest of `parse_internal`: the body, the signature and the padding. -/
def parseBody (header : ParsedHeader) : Reading ParsedMessage := do
  let body ← Reader.take header.bodyLen
  let signature ← Reader.array signatureLen
  let _authenticatedPadding ← Reader.take (← Reader.remaining)
  return {
    sender := header.sender
    recipientFingerprint := header.recipientFingerprint
    messageId := header.messageId
    body
    signature
  }

def parseInternal (plaintext : List UInt8) : Result ParsedMessage := do
  .reject (plaintext.length < internalFixedLen) (.invalidInput "internal message is truncated")
  Reading.parse (do parseBody (← parseHeader primitives)) plaintext

/-- The comparison of a letter's sender with the pinned contacts, at the end of
`open`. -/
def classifySender (contacts : List Contact) (sender : PublicProfile) : SenderTrust :=
  match contacts.find? fun contact => contact.profile == sender with
  | some contact => .pinned contact.alias
  | none =>
      match contacts.find? fun contact =>
          contact.profile.identityPublic == sender.identityPublic ||
            contact.profile.agreementPublic == sender.agreementPublic with
      | some contact => .mismatch contact.alias
      | none => .unknown

/-- `open` up to its signature check: the record inside the blob, addressed to the
recipient. -/
def openRecord (recipientSecrets : IdentitySecrets) (recipientProfile : PublicProfile)
    (blob : List UInt8) : Result ParsedMessage := do
  .reject (¬ validBlobLen blob.length = true ∨ blob.length < outerOverhead) .cannotOpen
  .reject (recipientSecrets.publicProfile primitives ≠ recipientProfile) .cannotOpen
  let ephemeralPublic ←
    .okOr (Bytes.tryFrom 32 (← .slice blob 0 ephemeralPublicLen)) .cannotOpen
  let nonce ← .okOr
    (Bytes.tryFrom 24 (← .slice blob ephemeralPublicLen (ephemeralPublicLen + nonceLen)))
    .cannotOpen
  let ciphertext ← .slice blob (ephemeralPublicLen + nonceLen) blob.length
  let messageKey ← .mapErr
    (deriveMessageKeyRecipient primitives recipientSecrets.agreementSecret ephemeralPublic
      recipientProfile.agreementPublic)
    fun _ => .cannotOpen
  let cipher ← .okOr (newCipher messageKey.toList) .cannotOpen
  let aad := outerAad ephemeralPublic nonce
  let plaintext ← .okOr (primitives.decrypt cipher nonce aad ciphertext) .cannotOpen
  let parsed ← .mapErr (parseInternal primitives plaintext) fun _ => .cannotOpen
  .reject (parsed.recipientFingerprint ≠ recipientProfile.fingerprint) .cannotOpen
  return parsed

def «open» (recipientSecrets : IdentitySecrets) (recipientProfile : PublicProfile)
    (contacts : List Contact) (blob : List UInt8) : Result OpenedLetter := do
  let parsed ← openRecord primitives recipientSecrets recipientProfile blob
  .mapErr
    (verifyMessageSignature primitives parsed.sender parsed.recipientFingerprint parsed.messageId
      parsed.body parsed.signature)
    fun _ => .cannotOpen
  return {
    body := parsed.body
    messageId := parsed.messageId
    sender := parsed.sender
    senderTrust := classifySender contacts parsed.sender
  }

end Message

end Sealed
