import Sealed.OpenProperties
import Sealed.SealProperties

/-! Letters from one end to the other: sealing and opening are inverse, and every byte
of a sealed blob is authenticated. -/

set_option autoImplicit false

namespace Sealed

open Foundation InternalRecord

/-- The arguments and the draws of one `seal` call. -/
structure SealCall where
  senderSecrets : IdentitySecrets
  senderProfile : PublicProfile
  recipient : PublicProfile
  body : List UInt8
  draws : SealDraws

namespace SealCall

variable (primitives : Primitives)

def request (call : SealCall) : Result SealRequest :=
  Message.sealRequest primitives call.senderSecrets call.senderProfile call.recipient call.body
    call.draws

def blob (call : SealCall) : Result (List UInt8) :=
  Message.seal primitives call.senderSecrets call.senderProfile call.recipient call.body call.draws

/-- The call of an identity that uses its own profile and whose draws all succeed. -/
def ofIdentity (senderSecrets : IdentitySecrets) (recipient : PublicProfile)
    (body : List UInt8) (ephemeralSeed : Bytes 32) (nonce : Bytes 24) (messageId : Bytes 32)
    (padding : (length : Nat) → Bytes length) : SealCall where
  senderSecrets := senderSecrets
  senderProfile := senderSecrets.publicProfile primitives
  recipient := recipient
  body := body
  draws := .drawn ephemeralSeed nonce messageId padding

end SealCall

namespace Message

variable {primitives : Primitives}

theorem authentic_signed (accepts : primitives.StrictAcceptsSigned)
    (senderSecrets : IdentitySecrets) (recipient : PublicProfile) (messageId : Bytes 32)
    {body : List UInt8} (bounded : body.length ≤ maxBodyLen) :
    Authentic primitives
      (InternalRecord.signed primitives senderSecrets recipient messageId body bounded) :=
  ⟨(accepts senderSecrets.identitySecret []).1, (accepts senderSecrets.identitySecret _).2⟩

/-- A blob carries the record that was encrypted into it: both ends derive one key from
the commuting agreement. -/
theorem carries_sealed (commutes : primitives.AgreementCommutes)
    (inverts : primitives.AeadInverts) {recipientSecrets : IdentitySecrets}
    {ephemeralSeed : Bytes 32} {nonce : Bytes 24} {record : InternalRecord}
    {padding ciphertext : List UInt8}
    (contributes : primitives.diffieHellman ephemeralSeed
      (recipientSecrets.publicProfile primitives).agreementPublic ≠ Bytes.replicate 32 0)
    (encrypted : primitives.encrypt
      (messageKey primitives
        (primitives.diffieHellman ephemeralSeed
          (recipientSecrets.publicProfile primitives).agreementPublic)
        (primitives.agreementPublic ephemeralSeed)
        (recipientSecrets.publicProfile primitives).agreementPublic)
      nonce (outerAad (primitives.agreementPublic ephemeralSeed) nonce) (record.layout padding) =
        some ciphertext)
    (valid : validBlobLen (32 + 24 + ciphertext.length) = true)
    (addressed : record.recipientFingerprint =
      (recipientSecrets.publicProfile primitives).fingerprint) :
    Carries primitives recipientSecrets (recipientSecrets.publicProfile primitives)
      ((primitives.agreementPublic ephemeralSeed).toList ++ nonce.toList ++ ciphertext)
      (primitives.agreementPublic ephemeralSeed) nonce record padding := by
  have agreed : primitives.diffieHellman recipientSecrets.agreementSecret
      (primitives.agreementPublic ephemeralSeed) =
        primitives.diffieHellman ephemeralSeed
          (recipientSecrets.publicProfile primitives).agreementPublic :=
    commutes recipientSecrets.agreementSecret ephemeralSeed
  have header : ((primitives.agreementPublic ephemeralSeed).toList ++ nonce.toList).length = 56 := by
    simp
  refine ⟨?_, rfl, ?_, ?_, agreed ▸ contributes, ?_, addressed⟩
  · have bounds := validBlobLen_iff.1 valid
    simp only [List.length_append, Bytes.length_toList]
    exact bounds
  · rw [List.append_assoc, List.take_left' (by simp)]
  · rw [List.append_assoc, List.drop_left' (by simp), List.take_left' (by simp)]
  · rw [List.take_left' header, List.drop_left' header, agreed, ← List.append_assoc]
    exact inverts _ _ _ _ _ encrypted

/-- Sealing then opening is the identity on every letter whose key agreement contributes.
Any other letter is refused, and no blob comes out. -/
theorem open_seal (commutes : primitives.AgreementCommutes) (inverts : primitives.AeadInverts)
    (accepts : primitives.StrictAcceptsSigned) (senderSecrets recipientSecrets : IdentitySecrets)
    (body : List UInt8) (bounded : body.length ≤ maxBodyLen) (ephemeralSeed : Bytes 32)
    (nonce : Bytes 24) (messageId : Bytes 32) (padding : (length : Nat) → Bytes length)
    (contacts : List Contact) :
    (primitives.diffieHellman ephemeralSeed
        (recipientSecrets.publicProfile primitives).agreementPublic ≠ Bytes.replicate 32 0 →
      ∃ blob,
        «seal» primitives senderSecrets (senderSecrets.publicProfile primitives)
            (recipientSecrets.publicProfile primitives) body
            (.drawn ephemeralSeed nonce messageId padding) = .ok blob ∧
          «open» primitives recipientSecrets (recipientSecrets.publicProfile primitives) contacts
              blob = .ok {
            body
            messageId
            sender := senderSecrets.publicProfile primitives
            senderTrust := classifySender contacts (senderSecrets.publicProfile primitives)
          }) ∧
    (primitives.diffieHellman ephemeralSeed
        (recipientSecrets.publicProfile primitives).agreementPublic = Bytes.replicate 32 0 →
      «seal» primitives senderSecrets (senderSecrets.publicProfile primitives)
          (recipientSecrets.publicProfile primitives) body
          (.drawn ephemeralSeed nonce messageId padding) = .error (.error .authentication)) := by
  obtain ⟨tail, ciphertext, encrypted, valid, result⟩ := seal_drawn primitives
    senderSecrets (recipientSecrets.publicProfile primitives) bounded ephemeralSeed nonce messageId
    padding
  constructor
  · intro contributes
    have agreed : rejectAllZero (primitives.diffieHellman ephemeralSeed
        (recipientSecrets.publicProfile primitives).agreementPublic) = .ok () :=
      rejectAllZero_eq_ok_iff.2 contributes
    rw [agreed, Checked.ok_bind] at result
    refine ⟨_, result, open_eq_ok_iff.2 ⟨_, nonce, _, tail,
      carries_sealed commutes inverts contributes encrypted valid rfl,
      authentic_signed accepts senderSecrets _ messageId bounded, rfl⟩⟩
  · intro zero
    rw [result, zero]
    rfl

end Message

/-! ### A letter of the transparent primitives -/

namespace Sample

def alice : IdentitySecrets := ⟨.replicate 32 1, .replicate 32 2⟩

def bob : IdentitySecrets := ⟨.replicate 32 3, .replicate 32 4⟩

def letter : SealCall :=
  .ofIdentity .transparent alice (bob.publicProfile .transparent) (ascii "hi") (.replicate 32 5)
    (.replicate 24 6) (.replicate 32 7) fun length => .replicate length 8

def blob : List UInt8 :=
  match letter.blob .transparent with
  | .ok blob => blob
  | .error _ => []

def opened : OpenedLetter where
  body := ascii "hi"
  messageId := .replicate 32 7
  sender := alice.publicProfile .transparent
  senderTrust := .unknown

end Sample

theorem Message.open_seal_sample :
    ∃ blob, Sample.letter.blob .transparent = .ok blob ∧
      Message.open .transparent Sample.bob (Sample.bob.publicProfile .transparent) [] blob =
        .ok Sample.opened :=
  (Message.open_seal Primitives.transparent_agreementCommutes Primitives.transparent_aeadInverts
    Primitives.transparent_strictAcceptsSigned Sample.alice Sample.bob (ascii "hi") (by decide)
    (.replicate 32 5) (.replicate 24 6) (.replicate 32 7) (fun length => .replicate length 8)
    []).1 (by decide)

/-! ## Every byte is authenticated -/

/-- The ideal cipher of a collection of `seal` calls: it decrypts only what one of them
encrypted, under the same key, nonce and associated data. -/
def IdealCipher (primitives : Primitives) (calls : List SealCall) : Prop :=
  ∀ key nonce aad ciphertext plaintext,
    primitives.decrypt key nonce aad ciphertext = some plaintext →
      ∃ call ∈ calls, ∃ request, call.request primitives = .ok request ∧
        request.cipher = key ∧ request.nonce = nonce ∧ request.aad = aad ∧
        primitives.encrypt request.cipher request.nonce request.aad request.internal =
          some ciphertext

namespace Message

variable {primitives : Primitives}

theorem outerAad_inj {ephemeralPublic otherPublic : Bytes 32} {nonce otherNonce : Bytes 24}
    (same : outerAad ephemeralPublic nonce = outerAad otherPublic otherNonce) :
    ephemeralPublic = otherPublic ∧ nonce = otherNonce := by
  simp only [outerAad, List.append_assoc] at same
  obtain ⟨key, rest⟩ := Bytes.append_inj (List.append_cancel_left same)
  exact ⟨key, Bytes.ext rest⟩

/-- Under the ideal cipher of a collection of calls, only the blobs of these calls open,
byte for byte; any other byte string is refused. -/
theorem open_only_sealed {calls : List SealCall} (ideal : IdealCipher primitives calls)
    (recipientSecrets : IdentitySecrets) (recipientProfile : PublicProfile)
    (contacts : List Contact) (blob : List UInt8) :
    (∀ letter, «open» primitives recipientSecrets recipientProfile contacts blob = .ok letter →
      ∃ call ∈ calls, call.blob primitives = .ok blob) ∧
    ((∀ call ∈ calls, call.blob primitives ≠ .ok blob) →
      «open» primitives recipientSecrets recipientProfile contacts blob =
        .error (.error .cannotOpen)) := by
  have sealed : ∀ letter,
      «open» primitives recipientSecrets recipientProfile contacts blob = .ok letter →
        ∃ call ∈ calls, call.blob primitives = .ok blob := by
    intro letter opened
    obtain ⟨ephemeralPublic, nonce, record, padding, carries, _, _⟩ := open_eq_ok_iff.1 opened
    have parts := carries.blob_eq
    obtain ⟨call, member, request, requested, _, rfl, aad, encrypted⟩ :=
      ideal _ _ _ _ _ carries.decrypted
    rw [carries.header, ← List.append_assoc] at aad
    obtain ⟨ephemeral, _⟩ := outerAad_inj ((sealRequest_shape requested).1.symm.trans aad)
    have produced := seal_of_request requested encrypted
    rw [ephemeral, ← parts] at produced
    exact ⟨call, member, produced⟩
  refine ⟨sealed, fun absent => ?_⟩
  cases result : «open» primitives recipientSecrets recipientProfile contacts blob with
  | ok letter =>
      obtain ⟨call, member, produced⟩ := sealed letter result
      exact absurd produced (absent call member)
  | error abort => rw [open_stops recipientSecrets recipientProfile contacts blob abort result]

end Message

/-- Primitives whose cipher answers only for what a collection of calls encrypted. -/
def Primitives.recording (primitives : Primitives) (calls : List SealCall) : Primitives :=
  { primitives with
    aeadOpen := fun key nonce aad _ buffer tag =>
      if calls.any (fun call =>
          match call.request primitives with
          | .error _ => false
          | .ok request =>
              request.cipher == key && request.nonce == nonce && request.aad == aad &&
                primitives.encrypt request.cipher request.nonce request.aad request.internal ==
                  some (buffer.toList ++ tag.toList)) then
        primitives.aeadOpen key nonce aad buffer tag
      else none }

theorem Primitives.recording_ideal (primitives : Primitives) (calls : List SealCall) :
    IdealCipher (primitives.recording calls) calls := by
  intro key nonce aad ciphertext plaintext decrypted
  unfold decrypt at decrypted
  split at decrypted
  · cases decrypted
  split at decrypted
  · cases decrypted
  obtain ⟨_, answered, _⟩ := Option.map_eq_some_iff.1 decrypted
  simp only [recording, Option.ite_none_right_eq_some, List.any_eq_true,
    List.take_append_drop] at answered
  obtain ⟨⟨call, member, found⟩, _⟩ := answered
  refine ⟨call, member, ?_⟩
  cases requested : call.request primitives with
  | error abort => simp [requested] at found
  | ok request =>
      simp only [requested, Bool.and_eq_true, beq_iff_eq] at found
      obtain ⟨⟨⟨cipher, sameNonce⟩, sameAad⟩, encrypted⟩ := found
      exact ⟨request, requested, cipher, sameNonce, sameAad, encrypted⟩

theorem Message.open_only_sealed_sample :
    (∃ call ∈ [Sample.letter],
      call.blob (Primitives.transparent.recording [Sample.letter]) = .ok Sample.blob) ∧
    Message.open (Primitives.transparent.recording [Sample.letter]) Sample.bob
        (Sample.bob.publicProfile .transparent) [] (0 :: Sample.blob.tail) =
      .error (.error .cannotOpen) :=
  ⟨(Message.open_only_sealed
      (Primitives.recording_ideal .transparent [Sample.letter]) Sample.bob
      (Sample.bob.publicProfile .transparent) [] Sample.blob).1 Sample.opened (by decide +kernel),
    (Message.open_only_sealed
      (Primitives.recording_ideal .transparent [Sample.letter]) Sample.bob
      (Sample.bob.publicProfile .transparent) [] (0 :: Sample.blob.tail)).2 (by decide +kernel)⟩

end Sealed
