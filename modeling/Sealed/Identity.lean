import Sealed.Format
import Sealed.Foundation.Chunks
import Sealed.Primitives

/-! Public profiles, identity secrets, and their files. -/

set_option autoImplicit false

namespace Sealed

open Foundation

def privatePlaintextLen : Nat := 1 + ed25519SecretLen + x25519SecretLen
def privateFileMaxLen : Nat := nonceLen + privatePlaintextLen + 16

structure PublicProfile where
  version : UInt8
  identityPublic : Bytes 32
  agreementPublic : Bytes 32
  fingerprint : Bytes 32
deriving DecidableEq

structure IdentitySecrets where
  identitySecret : Bytes 32
  agreementSecret : Bytes 32
deriving DecidableEq

variable (primitives : Primitives)

def fingerprint (version : UInt8) (identityPublic agreementPublic : Bytes 32) : Bytes 32 :=
  primitives.sha256
    (fingerprintDomain ++ [version] ++ identityPublic.toList ++ agreementPublic.toList)

def formatFingerprint (fingerprint : Bytes 32) : List UInt8 :=
  let hex := toAsciiUppercase (hexEncode fingerprint.toList)
  (chunks 4 hex).zipIdx.foldl (fun output (chunk, index) =>
    (if index ≠ 0 then output ++ ascii "-" else output) ++ chunk.flatMap asChar) []

/-! ## Public profiles -/

namespace PublicProfile

def new (identityPublic agreementPublic : Bytes 32) : PublicProfile where
  version := profileVersion
  identityPublic := identityPublic
  agreementPublic := agreementPublic
  fingerprint := Sealed.fingerprint primitives profileVersion identityPublic agreementPublic

def encode (profile : PublicProfile) : List UInt8 :=
  profilePrefix ++ newline :: (ascii "ed25519=" ++ hexEncode profile.identityPublic.toList) ++
    newline :: (ascii "x25519=" ++ hexEncode profile.agreementPublic.toList) ++
    newline :: (ascii "fingerprint=" ++ hexEncode profile.fingerprint.toList) ++ [newline]

/-- `parse_field`: a missing line, a line with another name, or a value that is not
hexadecimal is refused. -/
def parseField (n : Nat) (line : Option (List UInt8)) (lead : List UInt8) :
    Result (Bytes n) := do
  let line ← .okOr line (.invalidInput "public profile field is missing")
  let encoded ← .okOr (stripPrefix lead line) (.invalidInput "invalid public profile field")
  hexDecode n encoded

def parse (bytes : List UInt8) : Result PublicProfile := do
  .reject (bytes.length > 512) (.invalidInput "public profile is too large")
  let text ← .okOr (fromUtf8 bytes) (.invalidInput "public profile is not UTF-8")
  let lines := lines text
  .reject (lines[0]? ≠ some profilePrefix) (.invalidInput "unsupported public profile")
  let identityPublic ← parseField 32 lines[1]? (ascii "ed25519=")
  let agreementPublic ← parseField 32 lines[2]? (ascii "x25519=")
  let suppliedFingerprint ← parseField 32 lines[3]? (ascii "fingerprint=")
  .reject (lines[4]?.isSome = true) (.invalidInput "unexpected public profile field")
  let profile := new primitives identityPublic agreementPublic
  .reject (profile.fingerprint ≠ suppliedFingerprint)
    (.invalidInput "public profile fingerprint is invalid")
  .reject (profile.encode ≠ bytes) (.invalidInput "public profile encoding is not canonical")
  return profile

def canonicalKeyMaterial (profile : PublicProfile) : Bytes 64 :=
  ⟨profile.identityPublic.toList ++ profile.agreementPublic.toList, by simp⟩

end PublicProfile

/-! ## Identity secrets -/

namespace IdentitySecrets

def publicProfile (secrets : IdentitySecrets) : PublicProfile :=
  .new primitives (primitives.verifyingKey secrets.identitySecret)
    (primitives.agreementPublic secrets.agreementSecret)

def generate (identityDraw agreementDraw : Draw 32) :
    Result (IdentitySecrets × PublicProfile) := do
  let identitySecret ← randomArray identityDraw
  let agreementSecret ← randomArray agreementDraw
  let secrets : IdentitySecrets := ⟨identitySecret, agreementSecret⟩
  return (secrets, secrets.publicProfile primitives)

end IdentitySecrets

/-! ## The unlock key -/

def encodeUnlockKey (unlockKey : Bytes 32) : List UInt8 :=
  unlockPrefix ++ newline :: hexEncode unlockKey.toList ++ [newline]

def parseUnlockKey (bytes : List UInt8) : Result (Bytes 32) := do
  .reject (bytes.length > 128) (.invalidInput "unlock key file is too large")
  let text ← .okOr (fromUtf8 bytes) (.invalidInput "unlock key file is not UTF-8")
  let lines := lines text
  .reject (lines[0]? ≠ some unlockPrefix) (.invalidInput "unsupported unlock key file")
  let encoded ← .okOr lines[1]? (.invalidInput "unlock key is missing")
  .reject (lines[2]?.isSome = true) (.invalidInput "unexpected unlock key field")
  let key ← hexDecode 32 encoded
  .reject (encodeUnlockKey key ≠ bytes) (.invalidInput "unlock key encoding is not canonical")
  return key

/-! ## The private identity at rest -/

/-- The plaintext of the encrypted identity file. -/
def privatePlaintext (secrets : IdentitySecrets) : List UInt8 :=
  profileVersion :: (secrets.identitySecret.toList ++ secrets.agreementSecret.toList)

def encryptPrivateIdentity (secrets : IdentitySecrets) (unlockKey : Bytes 32)
    (nonceDraw : Draw 24) : Result (List UInt8) := do
  let nonce ← randomArray nonceDraw
  let ciphertext ← .okOr
    (primitives.encrypt unlockKey nonce identityAadDomain (privatePlaintext secrets))
    .authentication
  return nonce.toList ++ ciphertext

/-- `GenericArray::from_slice`, which panics at any other length. -/
def fromSlice (n : Nat) (slice : List UInt8) : Result (Bytes n) :=
  match Bytes.tryFrom n slice with
  | some bytes => .ok bytes
  | none => .panicked

def decryptPrivateIdentity (encrypted : List UInt8) (unlockKey : Bytes 32) :
    Result IdentitySecrets := do
  .reject (encrypted.length ≠ privateFileMaxLen) .authentication
  let (nonce, ciphertext) ← .splitAt encrypted nonceLen
  let plaintext ← .okOr
    (primitives.decrypt unlockKey (← fromSlice 24 nonce) identityAadDomain ciphertext)
    .authentication
  .reject (plaintext.length ≠ privatePlaintextLen) .authentication
  .reject ((← .index plaintext 0) ≠ profileVersion) .authentication
  let identitySecret ← .okOr (Bytes.tryFrom 32 (← .slice plaintext 1 33)) .authentication
  let agreementSecret ← .okOr (Bytes.tryFrom 32 (← .slice plaintext 33 65)) .authentication
  return ⟨identitySecret, agreementSecret⟩

end Sealed
