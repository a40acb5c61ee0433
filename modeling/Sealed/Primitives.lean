import Sealed.Protocol

/-! The third-party cryptographic primitives, as one parameter of the model. Their
values are arbitrary; the length checks that the vendored crates make before they
compute anything are written out. -/

set_option autoImplicit false

namespace Sealed

open Foundation

structure Primitives where
  /-- `Sha256::digest` of the concatenated updates. -/
  sha256 : List UInt8 → Bytes 32
  /-- The verifying key of an Ed25519 secret. -/
  verifyingKey : Bytes 32 → Bytes 32
  /-- `SigningKey::sign`. -/
  sign : Bytes 32 → List UInt8 → Bytes 64
  /-- Whether `VerifyingKey::from_bytes` finds a curve point. -/
  isVerifyingKey : Bytes 32 → Bool
  /-- `VerifyingKey::verify_strict`. -/
  verifyStrict : Bytes 32 → List UInt8 → Bytes 64 → Bool
  /-- The public key of an X25519 secret. -/
  agreementPublic : Bytes 32 → Bytes 32
  /-- `StaticSecret::diffie_hellman`: a secret and a public key. -/
  diffieHellman : Bytes 32 → Bytes 32 → Bytes 32
  /-- The output bytes of HKDF-SHA-256 for a salt, an input key and an info string. -/
  hkdfOutput : Option (List UInt8) → List UInt8 → List UInt8 → (length : Nat) → Bytes length
  /-- `encrypt_in_place_detached` of XChaCha20-Poly1305: the buffer keeps its length, and
  the tag comes back apart from it. -/
  aeadSeal : Bytes 32 → Bytes 24 → List UInt8 → {n : Nat} → Bytes n → Bytes n × Bytes 16
  /-- `decrypt_in_place_detached`, which refuses what does not authenticate. -/
  aeadOpen : Bytes 32 → Bytes 24 → List UInt8 → {n : Nat} → Bytes n → Bytes 16 →
    Option (Bytes n)

namespace Primitives

variable (primitives : Primitives)

/-- `Hkdf::expand`, which refuses an output of more than 255 hash blocks. -/
def hkdfExpand (salt : Option (List UInt8)) (input info : List UInt8) (length : Nat) :
    Option (Bytes length) :=
  if length > 32 * 255 then none else some (primitives.hkdfOutput salt input info length)

/-- `Aead::encrypt`: a message that overflows the block counter is refused, any other
is followed by its tag. -/
def encrypt (key : Bytes 32) (nonce : Bytes 24) (aad message : List UInt8) :
    Option (List UInt8) :=
  if message.length / 64 ≥ 2 ^ 32 - 1 then none
  else
    let (buffer, tag) := primitives.aeadSeal key nonce aad (n := message.length) ⟨message, rfl⟩
    some (buffer.toList ++ tag.toList)

/-- `Aead::decrypt`: an input shorter than a tag is refused, any other is split before
its last sixteen bytes. -/
def decrypt (key : Bytes 32) (nonce : Bytes 24) (aad ciphertext : List UInt8) :
    Option (List UInt8) :=
  if room : ciphertext.length < aeadTagLen then none
  else if (ciphertext.length - aeadTagLen) / 64 ≥ 2 ^ 32 - 1 then none
  else
    let buffer : Bytes (ciphertext.length - aeadTagLen) :=
      ⟨ciphertext.take (ciphertext.length - aeadTagLen), by simp⟩
    let tag : Bytes 16 :=
      ⟨ciphertext.drop (ciphertext.length - aeadTagLen), by
        simp only [aeadTagLen] at room
        simp [aeadTagLen]
        omega⟩
    (primitives.aeadOpen key nonce aad buffer tag).map Bytes.toList

/-! ## What the code relies on -/

/-- Both ends of an X25519 agreement compute one shared secret. -/
def AgreementCommutes : Prop :=
  ∀ left right, primitives.diffieHellman left (primitives.agreementPublic right) =
    primitives.diffieHellman right (primitives.agreementPublic left)

/-- Decryption inverts encryption. -/
def AeadInverts : Prop :=
  ∀ key nonce aad message ciphertext,
    primitives.encrypt key nonce aad message = some ciphertext →
      primitives.decrypt key nonce aad ciphertext = some message

/-- Strict verification accepts what the matching secret signed. -/
def StrictAcceptsSigned : Prop :=
  ∀ secret message, primitives.isVerifyingKey (primitives.verifyingKey secret) = true ∧
    primitives.verifyStrict (primitives.verifyingKey secret) message
      (primitives.sign secret message) = true

variable {primitives}

theorem length_encrypt {key : Bytes 32} {nonce : Bytes 24} {aad message ciphertext : List UInt8}
    (encrypted : primitives.encrypt key nonce aad message = some ciphertext) :
    ciphertext.length = message.length + aeadTagLen := by
  unfold encrypt at encrypted
  split at encrypted
  · cases encrypted
  · cases encrypted
    simp [aeadTagLen]

theorem encrypt_of_length {key : Bytes 32} {nonce : Bytes 24} {aad message : List UInt8}
    (short : message.length ≤ maxBlobLen) :
    ∃ ciphertext, primitives.encrypt key nonce aad message = some ciphertext := by
  refine ⟨_, if_neg ?_⟩
  simp only [maxBlobLen] at short
  omega

theorem length_decrypt {key : Bytes 32} {nonce : Bytes 24} {aad ciphertext message : List UInt8}
    (decrypted : primitives.decrypt key nonce aad ciphertext = some message) :
    ciphertext.length = message.length + aeadTagLen := by
  unfold decrypt at decrypted
  split at decrypted
  · cases decrypted
  · rename_i room
    split at decrypted
    · cases decrypted
    · obtain ⟨plain, _, rfl⟩ := Option.map_eq_some_iff.1 decrypted
      rw [Bytes.length_toList]
      omega

/-! ## The assumptions can be met -/

/-- The leading bytes of a list, filled up with zeros. -/
def leading (n : Nat) (list : List UInt8) : Bytes n :=
  ⟨(list ++ List.replicate n 0).take n, by simp⟩

/-- Primitives that hide nothing: every secret is its own public key, an agreement is the
bytewise exclusive or, a signature shows its key and a digest, and a tag shows its key. -/
def transparent : Primitives where
  sha256 := fun input => leading 32 input.reverse
  verifyingKey := id
  sign := fun secret message =>
    ⟨secret.toList ++ (leading 32 message.reverse).toList, by simp⟩
  isVerifyingKey := fun _ => true
  verifyStrict := fun key message signature =>
    signature.toList == key.toList ++ (leading 32 message.reverse).toList
  agreementPublic := id
  diffieHellman := fun secret key => ⟨List.zipWith (· ^^^ ·) secret.toList key.toList, by simp⟩
  hkdfOutput := fun _ input info length => leading length (input ++ info)
  aeadSeal := fun key _ _ _ buffer => (buffer, leading 16 key.toList)
  aeadOpen := fun key _ _ _ buffer tag => if tag = leading 16 key.toList then some buffer else none

theorem transparent_agreementCommutes : transparent.AgreementCommutes := by
  intro left right
  apply Bytes.ext
  simp only [transparent, id]
  exact List.zipWith_comm_of_comm fun first second => UInt8.xor_comm first second

theorem transparent_aeadInverts : transparent.AeadInverts := by
  intro key nonce aad message ciphertext encrypted
  unfold encrypt at encrypted
  split at encrypted
  · cases encrypted
  · rename_i short
    cases encrypted
    have below : message.length / 64 < 2 ^ 32 - 1 := Nat.not_le.1 short
    simpa [decrypt, transparent, aeadTagLen] using below

theorem transparent_strictAcceptsSigned : transparent.StrictAcceptsSigned := by
  intro secret message
  simp [transparent]

end Primitives

end Sealed
