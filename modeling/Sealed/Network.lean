import Sealed.IdentityProperties
import Sealed.LetterProperties

/-! Letters over a hostile transport. A run is any sequence of `seal` and `open` calls by
honest identities; the blobs that are opened are arbitrary, so whatever controls the
transport needs no description of its own. -/

set_option autoImplicit false

namespace Sealed

open Foundation InternalRecord

/-- The arguments of one `open` call. -/
structure OpenCall where
  recipientSecrets : IdentitySecrets
  recipientProfile : PublicProfile
  contacts : List Contact
  blob : List UInt8

inductive Event where
  | sealed (call : SealCall)
  | opened (call : OpenCall)

/-- A profile that `PublicProfile::new` or `PublicProfile::parse` returned. -/
def PublicProfile.Obtained (primitives : Primitives) (profile : PublicProfile) : Prop :=
  (∃ identityPublic agreementPublic, profile = .new primitives identityPublic agreementPublic) ∨
    ∃ bytes, PublicProfile.parse primitives bytes = .ok profile

/-- The calls of the honest identities, oldest first. -/
structure Run (primitives : Primitives) where
  honest : List IdentitySecrets
  events : List Event
  senders : ∀ call, .sealed call ∈ events → call.senderSecrets ∈ honest
  receivers : ∀ call, .opened call ∈ events → call.recipientSecrets ∈ honest
  recipients : ∀ call, .sealed call ∈ events → call.recipient.Obtained primitives

namespace SealCall

/-- The call signs this byte string. -/
def Signs (primitives : Primitives) (call : SealCall) (input : List UInt8) : Prop :=
  ∃ messageId, call.draws.messageId = some messageId ∧
    signMessageInput primitives call.senderSecrets call.senderProfile call.recipient.fingerprint
      messageId call.body = .ok input

/-- What a call hands to the signing key, where it comes to a record, is what it signs and no
other byte string. -/
theorem signs_of_request {primitives : Primitives} {call : SealCall} {request : SealRequest}
    (requested : call.request primitives = .ok request) :
    ∃ (record : InternalRecord) (padding input : List UInt8),
      request.internal = record.layout padding ∧
      record.signature = primitives.sign call.senderSecrets.identitySecret input ∧
      ∀ other, call.Signs primitives other ↔ other = input := by
  simp only [SealCall.request, Message.sealRequest, randomArray, Checked.bind_eq_ok,
    Checked.okOr_eq_ok_iff, Checked.pure_eq_ok, Except.ok.injEq] at requested
  obtain ⟨_, _, seed, _, nonce, _, messageId, drawn, bucket, _, plaintextLen, _, room, _,
    paddingLen, _, padding, _, internal, serialized, _, _, _, _, _, _, rfl⟩ := requested
  obtain ⟨own, _, bounded, same⟩ := Message.serializeInternal_eq_ok_iff.1 serialized
  have small : call.body.length < 2 ^ 32 := by
    simp only [maxBodyLen] at bounded
    omega
  refine ⟨_, padding.toList, _, same, rfl, fun other => ?_⟩
  rw [own]
  constructor
  · intro signed
    obtain ⟨id, drawn', input⟩ := signed
    cases drawn.symm.trans drawn'
    exact (signMessageInput_eq_ok_iff.1 input).2.2
  · intro input
    exact ⟨messageId, drawn, signMessageInput_eq_ok_iff.2 ⟨own, small, input⟩⟩

end SealCall

namespace OpenCall

def letter (primitives : Primitives) (call : OpenCall) : Result OpenedLetter :=
  Message.open primitives call.recipientSecrets call.recipientProfile call.contacts call.blob

/-- The call verifies a signature over this byte string under this key, and accepts it. -/
def Verifies (primitives : Primitives) (call : OpenCall) (key : Bytes 32)
    (input : List UInt8) : Prop :=
  ∃ parsed, Message.openRecord primitives call.recipientSecrets call.recipientProfile call.blob =
      .ok parsed ∧
    parsed.sender.identityPublic = key ∧
    signatureInput parsed.sender parsed.recipientFingerprint parsed.messageId parsed.body =
      .ok input ∧
    primitives.isVerifyingKey key = true ∧
    primitives.verifyStrict key input parsed.signature = true

end OpenCall

namespace Run

variable {primitives : Primitives}

/-- Strict verification under an honest identity key accepts only what that identity
signed in an earlier call (`SealCall.signs_of_request`). -/
def Unforgeable (run : Run primitives) : Prop :=
  ∀ before call after, run.events = before ++ .opened call :: after →
    ∀ identity ∈ run.honest, ∀ input,
      call.Verifies primitives (primitives.verifyingKey identity.identitySecret) input →
        ∃ earlier, .sealed earlier ∈ before ∧
          earlier.senderSecrets.identitySecret = identity.identitySecret ∧
          earlier.Signs primitives input

/-- No two profiles that meet in the run share a fingerprint without sharing their
keys. -/
def CollisionFree (run : Run primitives) : Prop :=
  ∀ sent received, .sealed sent ∈ run.events → .opened received ∈ run.events →
    fingerprint primitives profileVersion sent.recipient.identityPublic
        sent.recipient.agreementPublic =
      fingerprint primitives profileVersion
        (received.recipientSecrets.publicProfile primitives).identityPublic
        (received.recipientSecrets.publicProfile primitives).agreementPublic →
    sent.recipient.identityPublic =
        (received.recipientSecrets.publicProfile primitives).identityPublic ∧
      sent.recipient.agreementPublic =
        (received.recipientSecrets.publicProfile primitives).agreementPublic

end Run

variable {primitives : Primitives}

theorem PublicProfile.Obtained.eq_new {profile : PublicProfile}
    (obtained : profile.Obtained primitives) :
    profile = .new primitives profile.identityPublic profile.agreementPublic := by
  rcases obtained with ⟨identityPublic, agreementPublic, rfl⟩ | ⟨bytes, parsed⟩
  · rfl
  · obtain ⟨⟨identityPublic, agreementPublic, rfl⟩, _⟩ := PublicProfile.parse_eq_ok_iff.1 parsed
    rfl

/-- A letter comes out of a verification of its own fields and of the recipient's
fingerprint. -/
theorem OpenCall.verifies_of_letter {call : OpenCall} {letter : OpenedLetter}
    (opened : call.letter primitives = .ok letter) :
    letter.sender = .new primitives letter.sender.identityPublic letter.sender.agreementPublic ∧
      call.Verifies primitives letter.sender.identityPublic
        (signedBytes letter.sender.identityPublic letter.sender.agreementPublic
          (call.recipientSecrets.publicProfile primitives).fingerprint letter.messageId
          letter.body) := by
  obtain ⟨ephemeralPublic, nonce, record, padding, carries, authentic, rfl⟩ :=
    Message.open_eq_ok_iff.1 opened
  have small : record.body.length < 2 ^ 32 := by
    have bounded := record.bounded
    simp only [maxBodyLen] at bounded
    omega
  have addressed : record.recipientFingerprint =
      (call.recipientSecrets.publicProfile primitives).fingerprint := by
    rw [carries.own]
    exact carries.addressed
  refine ⟨rfl, record.parsed primitives,
    Message.openRecord_eq_ok_iff.2 ⟨ephemeralPublic, nonce, record, padding, carries, rfl⟩, rfl,
    signatureInput_eq_ok_iff.2 ⟨small, ?_⟩, authentic.curve, ?_⟩
  · rw [← addressed]
    rfl
  · rw [← addressed]
    exact authentic.verified

/-- The signed transcript determines the sender's profile, the recipient's fingerprint,
the message id and the body of the call that signed it. -/
theorem SealCall.eq_of_signs {call : SealCall}
    {identityPublic agreementPublic recipientFingerprint messageId : Bytes 32}
    {body : List UInt8}
    (signed : call.Signs primitives
      (signedBytes identityPublic agreementPublic recipientFingerprint messageId body)) :
    call.senderProfile = .new primitives identityPublic agreementPublic ∧
      call.recipient.fingerprint = recipientFingerprint ∧
      call.draws.messageId = some messageId ∧ call.body = body := by
  obtain ⟨drawnId, drawn, input⟩ := signed
  obtain ⟨own, _, same⟩ := signMessageInput_eq_ok_iff.1 input
  obtain ⟨identity, agreement, fingerprint, id, body⟩ := signedBytes_inj same
  refine ⟨?_, fingerprint.symm, id ▸ drawn, body.symm⟩
  rw [identity, agreement, ← own]
  rfl

/-- A letter that an honest recipient opens, and whose sender is an honest identity, was
sealed earlier by that identity for this very recipient, with this body and message id.
Identities are told apart by their identity secrets; where honest ones do not share any, the
caller is the sender itself. -/
theorem Run.letter_authentic (run : Run primitives) (unforgeable : run.Unforgeable)
    (collisionFree : run.CollisionFree) (before after : List Event) (call : OpenCall)
    (split : run.events = before ++ .opened call :: after) (letter : OpenedLetter)
    (opened : call.letter primitives = .ok letter) (sender : IdentitySecrets)
    (honest : sender ∈ run.honest)
    (signs : primitives.verifyingKey sender.identitySecret = letter.sender.identityPublic) :
    ∃ sent, .sealed sent ∈ before ∧
      sent.senderSecrets ∈ run.honest ∧
      sent.senderSecrets.identitySecret = sender.identitySecret ∧
      ((∀ other ∈ run.honest, other.identitySecret = sender.identitySecret → other = sender) →
        sent.senderSecrets = sender) ∧
      sent.body = letter.body ∧
      sent.draws.messageId = some letter.messageId ∧
      sent.senderProfile = letter.sender ∧
      sent.recipient.identityPublic =
        (call.recipientSecrets.publicProfile primitives).identityPublic ∧
      sent.recipient.agreementPublic =
        (call.recipientSecrets.publicProfile primitives).agreementPublic := by
  obtain ⟨shape, verifies⟩ := OpenCall.verifies_of_letter opened
  rw [← signs] at verifies
  obtain ⟨sent, earlier, same, signed⟩ :=
    unforgeable before call after split sender honest _ verifies
  obtain ⟨profile, fingerprint, messageId, body⟩ := SealCall.eq_of_signs signed
  have sentEvent : .sealed sent ∈ run.events := by
    rw [split]
    exact List.mem_append_left _ earlier
  have openEvent : .opened call ∈ run.events := by
    rw [split]
    exact List.mem_append_right _ List.mem_cons_self
  have recipient := (run.recipients sent sentEvent).eq_new
  have keys := collisionFree sent call sentEvent openEvent (by
    rw [recipient] at fingerprint
    exact fingerprint)
  have member := run.senders sent sentEvent
  refine ⟨sent, earlier, member, same, fun distinct => distinct _ member same, body, messageId, ?_,
    keys⟩
  rw [profile, signs]
  exact shape.symm

/-! ### A run of one letter -/

namespace Sample

def reception : OpenCall := ⟨bob, bob.publicProfile .transparent, [], blob⟩

def record : InternalRecord :=
  .signed .transparent alice (bob.publicProfile .transparent) (.replicate 32 7) (ascii "hi")
    (by decide)

def run : Run .transparent where
  honest := [alice, bob]
  events := [.sealed letter, .opened reception]
  senders := by
    intro call sealed
    simp only [List.mem_cons, Event.sealed.injEq, reduceCtorEq, List.not_mem_nil, or_false]
      at sealed
    simp [sealed, letter, SealCall.ofIdentity]
  receivers := by
    intro call opened
    simp only [List.mem_cons, Event.opened.injEq, reduceCtorEq, List.not_mem_nil, or_false,
      false_or] at opened
    simp [opened, reception]
  recipients := by
    intro call sealed
    simp only [List.mem_cons, Event.sealed.injEq, reduceCtorEq, List.not_mem_nil, or_false]
      at sealed
    exact sealed ▸ .inl ⟨_, _, rfl⟩

theorem openRecord_reception :
    Message.openRecord .transparent reception.recipientSecrets reception.recipientProfile
      reception.blob = .ok (record.parsed .transparent) := by
  decide +kernel

theorem run_unforgeable : run.Unforgeable := by
  intro before call after split identity honest input verifies
  obtain ⟨rfl, rfl⟩ : before = [.sealed letter] ∧ call = reception := by
    rcases before with _ | ⟨first, _ | ⟨second, rest⟩⟩ <;> simp_all [run]
  obtain ⟨parsed, accepted, key, covered, _, _⟩ := verifies
  rw [openRecord_reception] at accepted
  cases accepted
  have signed : signMessageInput .transparent letter.senderSecrets letter.senderProfile
      letter.recipient.fingerprint (.replicate 32 7) letter.body = .ok input :=
    covered ▸ by decide +kernel
  obtain rfl | rfl : identity = alice ∨ identity = bob := by simpa [run] using honest
  · exact ⟨letter, by simp, rfl, .replicate 32 7, rfl, signed⟩
  · exact absurd key (by decide +kernel)

theorem run_collisionFree : run.CollisionFree := by
  intro sent received sealed opened _
  simp only [run, List.mem_cons, Event.sealed.injEq, Event.opened.injEq, reduceCtorEq,
    List.not_mem_nil, or_false, false_or] at sealed opened
  subst sealed opened
  exact ⟨rfl, rfl⟩

end Sample

theorem Run.letter_authentic_sample :
    ∃ sent, .sealed sent ∈ [Event.sealed Sample.letter] ∧
      sent.senderSecrets ∈ Sample.run.honest ∧
      sent.senderSecrets.identitySecret = Sample.alice.identitySecret ∧
      ((∀ other ∈ Sample.run.honest,
        other.identitySecret = Sample.alice.identitySecret → other = Sample.alice) →
          sent.senderSecrets = Sample.alice) ∧
      sent.body = Sample.opened.body ∧
      sent.draws.messageId = some Sample.opened.messageId ∧
      sent.senderProfile = Sample.opened.sender ∧
      sent.recipient.identityPublic = (Sample.bob.publicProfile .transparent).identityPublic ∧
      sent.recipient.agreementPublic = (Sample.bob.publicProfile .transparent).agreementPublic :=
  Sample.run.letter_authentic Sample.run_unforgeable Sample.run_collisionFree
    [.sealed Sample.letter] [] Sample.reception rfl Sample.opened (by decide +kernel) Sample.alice
    (by decide) (by decide)

end Sealed
