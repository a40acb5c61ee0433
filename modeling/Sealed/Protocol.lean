import Sealed.Foundation.Text
import Sealed.Error

/-! Protocol constants, domain strings and padding buckets. -/

set_option autoImplicit false

namespace Sealed

open Foundation

def protocolVersion : UInt8 := 1
def cryptoSuiteClassicalV1 : UInt8 := 1
def profileVersion : UInt8 := 1

def ed25519PublicLen : Nat := 32
def ed25519SecretLen : Nat := 32
def x25519PublicLen : Nat := 32
def x25519SecretLen : Nat := 32
def fingerprintLen : Nat := 32
def messageIdLen : Nat := 32
def signatureLen : Nat := 64
def nonceLen : Nat := 24
def ephemeralPublicLen : Nat := 32
def aeadTagLen : Nat := 16

def outerOverhead : Nat := ephemeralPublicLen + nonceLen + aeadTagLen

def internalFixedLen : Nat :=
  1 + 1 + ed25519PublicLen + x25519PublicLen + fingerprintLen + messageIdLen + 4 + signatureLen

def minBlobLen : Nat := 512
def maxBodyLen : Nat := 1024 * 1024
def maxBlobLen : Nat := 2 * 1024 * 1024

def profilePrefix : List UInt8 := ascii "sealed-profile-v1"
def unlockPrefix : List UInt8 := ascii "sealed-unlock-v1"

def fingerprintDomain : List UInt8 := ascii "sealed/fingerprint/v1"
def contactRootSalt : List UInt8 := ascii "sealed/contact-root/extract/v1"
def contactRootInfo : List UInt8 := ascii "sealed/contact-root/expand/v1"
def subkeySalt : List UInt8 := ascii "sealed/contact-subkey/extract/v1"
def stegoInfo : List UInt8 := ascii "sealed/steganography/v1"
def messageKeySalt : List UInt8 := ascii "sealed/message-key/extract/v1"
def messageKeyInfo : List UInt8 := ascii "sealed/message-key/expand/v1"
def signatureDomain : List UInt8 := ascii "sealed/message-signature/v1"
def outerAadDomain : List UInt8 := ascii "sealed/outer-aead/v1"
def identityAadDomain : List UInt8 := ascii "sealed/identity-at-rest/v1"

theorem checkedMul_two_lt {bucket next : Nat} (positive : 0 < bucket)
    (doubled : checkedMul bucket 2 = some next) : bucket < next := by
  unfold checkedMul at doubled
  split at doubled
  · cases doubled
    omega
  · cases doubled

/-- The doubling loop of `padded_blob_len`, from a bucket that is not empty. -/
def growBucket (required bucket : Nat) (positive : 0 < bucket) : Option Nat :=
  if bucket < required then
    match doubled : checkedMul bucket 2 with
    | none => none
    | some next =>
        growBucket required next (Nat.lt_trans positive (checkedMul_two_lt positive doubled))
  else some bucket
termination_by required - bucket
decreasing_by
  have grows := checkedMul_two_lt positive doubled
  omega

def paddedBlobLen (bodyLen : Nat) : Option Nat := do
  if bodyLen > maxBodyLen then none
  else
    let fixed ← checkedAdd internalFixedLen bodyLen
    let required ← checkedAdd fixed outerOverhead
    let bucket ← growBucket required minBlobLen (by decide)
    if bucket ≤ maxBlobLen then some bucket else none

/-- `usize::is_power_of_two`. -/
def isPowerOfTwo (length : Nat) : Bool := length == 2 ^ length.log2

def validBlobLen (length : Nat) : Bool :=
  minBlobLen ≤ length && length ≤ maxBlobLen && isPowerOfTwo length

end Sealed
