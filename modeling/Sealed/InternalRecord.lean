import Sealed.FormatProperties
import Sealed.ProtocolProperties
import Sealed.Message

/-! The grammar of the internal record, and its agreement with the parser and the
serializer. The grammar is stated on its own; neither function is used to define it. -/

set_option autoImplicit false

namespace Sealed

open Foundation

/-- The fields of an internal record. The body is within the protocol's limit. -/
structure InternalRecord where
  identityPublic : Bytes 32
  agreementPublic : Bytes 32
  recipientFingerprint : Bytes 32
  messageId : Bytes 32
  body : List UInt8
  signature : Bytes 64
  bounded : body.length ≤ maxBodyLen

namespace InternalRecord

variable (primitives : Primitives)

/-- The claimed length in front of the body. -/
def bodyLen (record : InternalRecord) : UInt32 := UInt32.ofNat record.body.length

/-- The bytes in front of the body. -/
def head (identityPublic agreementPublic recipientFingerprint messageId : Bytes 32)
    (claimed : UInt32) (rest : List UInt8) : List UInt8 :=
  [1] ++ ([1] ++ (identityPublic.toList ++ (agreementPublic.toList ++
    (recipientFingerprint.toList ++ (messageId.toList ++ ((u32ToBe claimed).toList ++ rest))))))

/-- `0x01 0x01 ed x recipient_fp message_id u32be(n) body sig padding`. -/
def layout (record : InternalRecord) (padding : List UInt8) : List UInt8 :=
  head record.identityPublic record.agreementPublic record.recipientFingerprint record.messageId
    record.bodyLen (record.body ++ (record.signature.toList ++ padding))

/-- The parsed message a record stands for. -/
def parsed (record : InternalRecord) : ParsedMessage where
  sender := .new primitives record.identityPublic record.agreementPublic
  recipientFingerprint := record.recipientFingerprint
  messageId := record.messageId
  body := record.body
  signature := record.signature

theorem bodyLen_toNat (record : InternalRecord) : record.bodyLen.toNat = record.body.length := by
  have bounded := record.bounded
  simp only [maxBodyLen] at bounded
  rw [bodyLen, UInt32.toNat_ofNat']
  omega

theorem u32TryFrom_body (record : InternalRecord) :
    u32TryFrom record.body.length = some record.bodyLen := by
  have bounded := record.bounded
  simp only [maxBodyLen] at bounded
  rw [u32TryFrom, if_pos (by omega), bodyLen]

theorem length_head {identityPublic agreementPublic recipientFingerprint messageId : Bytes 32}
    {claimed : UInt32} {rest : List UInt8} :
    (head identityPublic agreementPublic recipientFingerprint messageId claimed rest).length =
      134 + rest.length := by
  simp only [head, List.length_append, Bytes.length_toList, List.length_singleton]
  omega

theorem drop_head {identityPublic agreementPublic recipientFingerprint messageId : Bytes 32}
    {claimed : UInt32} {rest : List UInt8} :
    (head identityPublic agreementPublic recipientFingerprint messageId claimed rest).drop 134 =
      rest := by
  have whole : head identityPublic agreementPublic recipientFingerprint messageId claimed rest =
      head identityPublic agreementPublic recipientFingerprint messageId claimed [] ++ rest := by
    simp [head]
  rw [whole]
  exact List.drop_left' (by rw [length_head]; rfl)

theorem length_layout (record : InternalRecord) (padding : List UInt8) :
    (record.layout padding).length =
      internalFixedLen + record.body.length + padding.length := by
  simp only [layout, length_head, List.length_append, Bytes.length_toList]
  simp only [internalFixedLen, ed25519PublicLen, x25519PublicLen, fingerprintLen, messageIdLen,
    signatureLen]
  omega

/-- Fixed-width fields in front of a byte string determine one another. -/
theorem head_inj {identityPublic agreementPublic recipientFingerprint messageId
      otherIdentity otherAgreement otherFingerprint otherId : Bytes 32}
    {claimed otherClaimed : UInt32} {rest otherRest : List UInt8}
    (same : head identityPublic agreementPublic recipientFingerprint messageId claimed rest =
      head otherIdentity otherAgreement otherFingerprint otherId otherClaimed otherRest) :
    identityPublic = otherIdentity ∧ agreementPublic = otherAgreement ∧
      recipientFingerprint = otherFingerprint ∧ messageId = otherId ∧ claimed = otherClaimed ∧
      rest = otherRest := by
  simp only [head, List.cons_append, List.nil_append, List.cons.injEq, true_and] at same
  obtain ⟨identity, same⟩ := Bytes.append_inj same
  obtain ⟨agreement, same⟩ := Bytes.append_inj same
  obtain ⟨fingerprint, same⟩ := Bytes.append_inj same
  obtain ⟨message, same⟩ := Bytes.append_inj same
  obtain ⟨length, same⟩ := Bytes.append_inj same
  refine ⟨identity, agreement, fingerprint, message, ?_, same⟩
  rw [← u32FromBe_toBe claimed, length, u32FromBe_toBe]

/-- The decomposition of a record is unique: the claimed length says where the body
ends. -/
theorem layout_injective {left right : InternalRecord} {leftPadding rightPadding : List UInt8}
    (same : left.layout leftPadding = right.layout rightPadding) :
    left = right ∧ leftPadding = rightPadding := by
  obtain ⟨identity, agreement, fingerprint, message, length, rest⟩ := head_inj same
  have lengths : left.body.length = right.body.length := by
    rw [← bodyLen_toNat, length, bodyLen_toNat]
  obtain ⟨body, rest⟩ := List.append_inj rest lengths
  obtain ⟨signature, padding⟩ := Bytes.append_inj rest
  refine ⟨?_, padding⟩
  cases left
  cases right
  simp_all

end InternalRecord

/-! ## Reading one field after another -/

namespace Reader

/-- Reading the next chunk of a slice that fits in memory cannot fail. -/
theorem take_chunk {reader : Reader} {chunk rest : List UInt8}
    (fits : reader.input.length < usizeLimit) (split : reader.pending = chunk ++ rest) :
    ∃ next, take chunk.length reader = .ok chunk next ∧ next.input = reader.input ∧
      next.pending = rest := by
  have room : chunk.length ≤ reader.pending.length := by simp [split]
  have inside := reader.within
  have reach : reader.offset + chunk.length < usizeLimit := by
    rw [length_pending] at room
    omega
  obtain ⟨output, next, taken⟩ := take_ok reach room
  obtain ⟨_, length, input, _, shape⟩ := take_eq_ok_iff.1 taken
  obtain ⟨rfl, rfl⟩ := List.append_inj (split.symm.trans shape) length.symm
  exact ⟨next, taken, input, rfl⟩

theorem array_chunk {n : Nat} {reader : Reader} {bytes : Bytes n} {rest : List UInt8}
    (fits : reader.input.length < usizeLimit) (split : reader.pending = bytes.toList ++ rest) :
    ∃ next, array n reader = .ok bytes next ∧ next.input = reader.input ∧
      next.pending = rest := by
  obtain ⟨next, taken, input, pending⟩ := take_chunk fits split
  rw [bytes.length_toList] at taken
  exact ⟨next, array_eq_ok_iff.2 taken, input, pending⟩

theorem pending_of_take {reader next : Reader} {length : Nat} {output : List UInt8}
    (taken : take length reader = .ok output next) :
    reader.pending = output ++ next.pending ∧ output.length = length ∧
      next.input = reader.input := by
  obtain ⟨_, size, input, _, split⟩ := take_eq_ok_iff.1 taken
  exact ⟨split, size, input⟩

end Reader

/-! ## The parser -/

namespace Message

open InternalRecord

variable {primitives : Primitives}

/-- The bounds a claimed body length has to meet. -/
theorem parseHeader_eq_ok_iff {reader next : Reader} {header : ParsedHeader}
    (fits : reader.input.length < usizeLimit) :
    parseHeader primitives reader = .ok header next ↔
      ∃ identityPublic agreementPublic claimed,
        header.sender = .new primitives identityPublic agreementPublic ∧
        header.bodyLen = claimed.toNat ∧
        reader.pending = head identityPublic agreementPublic header.recipientFingerprint
          header.messageId claimed next.pending ∧
        next.input = reader.input ∧ header.bodyLen ≤ maxBodyLen ∧
        header.bodyLen ≤ next.pending.length - signatureLen := by
  simp only [parseHeader, Reader.bind_eq_ok, Reader.lift_eq_ok_iff, Checked.reject_eq_ok_iff,
    Reader.pure_eq_ok_iff, Checked.okOr_eq_ok_iff]
  constructor
  · rintro ⟨version, afterVersion, readVersion, _, _, ⟨isVersion, rfl⟩, suite, afterSuite,
      readSuite, _, _, ⟨isSuite, rfl⟩, identity, afterIdentity, readIdentity, agreement,
      afterAgreement, readAgreement, fingerprint, afterFingerprint, readFingerprint, messageId,
      afterId, readId, claimed, afterClaimed, readClaimed, length, _, ⟨converted, rfl⟩, left, _,
      remaining, _, _, ⟨inRange, rfl⟩, rfl, rfl⟩
    obtain rfl := not_not.1 isVersion
    obtain rfl := not_not.1 isSuite
    obtain ⟨split₁, _, input₁⟩ := Reader.pending_of_take (Reader.byte_eq_ok_iff.1 readVersion)
    obtain ⟨split₂, _, input₂⟩ := Reader.pending_of_take (Reader.byte_eq_ok_iff.1 readSuite)
    obtain ⟨split₃, _, input₃⟩ := Reader.pending_of_take (Reader.array_eq_ok_iff.1 readIdentity)
    obtain ⟨split₄, _, input₄⟩ := Reader.pending_of_take (Reader.array_eq_ok_iff.1 readAgreement)
    obtain ⟨split₅, _, input₅⟩ :=
      Reader.pending_of_take (Reader.array_eq_ok_iff.1 readFingerprint)
    obtain ⟨split₆, _, input₆⟩ := Reader.pending_of_take (Reader.array_eq_ok_iff.1 readId)
    obtain ⟨split₇, _, input₇⟩ := Reader.pending_of_take (Reader.u32Be_eq_ok_iff.1 readClaimed)
    simp only [Reader.remaining_eq, EStateM.Result.ok.injEq] at remaining
    obtain ⟨rfl, rfl⟩ := remaining
    have sameLength : claimed.toNat = length := by
      unfold usizeTryFrom at converted
      split at converted <;> simp_all
    simp only [not_or, not_lt, gt_iff_lt] at inRange
    refine ⟨identity, agreement, claimed, rfl, sameLength.symm, ?_, ?_, inRange.1, inRange.2⟩
    · rw [split₁, split₂, split₃, split₄, split₅, split₆, split₇]
      rfl
    · rw [input₇, input₆, input₅, input₄, input₃, input₂, input₁]
  · rintro ⟨identity, agreement, claimed, sender, length, split, input, small, room⟩
    obtain ⟨next₁, take₁, input₁, split₁⟩ := Reader.take_chunk fits split
    obtain ⟨next₂, take₂, input₂, split₂⟩ := Reader.take_chunk (input₁ ▸ fits) split₁
    have fits₂ := input₂ ▸ input₁ ▸ fits
    obtain ⟨next₃, take₃, input₃, split₃⟩ := Reader.array_chunk fits₂ split₂
    have fits₃ := input₃ ▸ fits₂
    obtain ⟨next₄, take₄, input₄, split₄⟩ := Reader.array_chunk fits₃ split₃
    have fits₄ := input₄ ▸ fits₃
    obtain ⟨next₅, take₅, input₅, split₅⟩ := Reader.array_chunk fits₄ split₄
    have fits₅ := input₅ ▸ fits₄
    obtain ⟨next₆, take₆, input₆, split₆⟩ := Reader.array_chunk fits₅ split₅
    have fits₆ := input₆ ▸ fits₅
    obtain ⟨next₇, take₇, input₇, split₇⟩ := Reader.take_chunk fits₆ split₆
    have whole : next₇.input = next.input := by
      rw [input₇, input₆, input₅, input₄, input₃, input₂, input₁, input]
    obtain rfl : next₇ = next := Reader.eq_of_pending whole split₇
    have fitsWord : usizeTryFrom claimed.toNat = some header.bodyLen := by
      have below := claimed.toNat_lt
      rw [usizeTryFrom, length, if_pos]
      simp only [usizeLimit]
      omega
    refine ⟨_, _, Reader.byte_eq_ok_iff.2 take₁, (), _, ⟨by simp [protocolVersion], rfl⟩,
      _, _, Reader.byte_eq_ok_iff.2 take₂, (), _, ⟨by simp [cryptoSuiteClassicalV1], rfl⟩,
      _, _, take₃, _, _, take₄, _, _, take₅, _, _, take₆, _, _,
      Reader.u32Be_eq_ok_iff.2 take₇, _, _, ⟨fitsWord, rfl⟩, _, _, Reader.remaining_eq _,
      (), _, ⟨?_, rfl⟩, ?_, rfl⟩
    · simp only [not_or, not_lt, gt_iff_lt]
      exact ⟨small, room⟩
    · cases header
      simp_all

theorem parseBody_eq_ok_iff {reader final : Reader} {header : ParsedHeader}
    {parsed : ParsedMessage} (fits : reader.input.length < usizeLimit) :
    parseBody header reader = .ok parsed final ↔
      ∃ padding, reader.pending = parsed.body ++ (parsed.signature.toList ++ padding) ∧
        parsed.body.length = header.bodyLen ∧ final.input = reader.input ∧ final.pending = [] ∧
        parsed.sender = header.sender ∧
        parsed.recipientFingerprint = header.recipientFingerprint ∧
        parsed.messageId = header.messageId := by
  simp only [parseBody, Reader.bind_eq_ok, Reader.pure_eq_ok_iff, Reader.remaining_eq,
    EStateM.Result.ok.injEq]
  constructor
  · rintro ⟨body, afterBody, readBody, signature, afterSignature, readSignature, _, _, ⟨rfl, rfl⟩,
      padding, _, readPadding, rfl, rfl⟩
    obtain ⟨split₁, length, input₁⟩ := Reader.pending_of_take readBody
    obtain ⟨split₂, _, input₂⟩ := Reader.pending_of_take (Reader.array_eq_ok_iff.1 readSignature)
    obtain ⟨split₃, all, input₃⟩ := Reader.pending_of_take readPadding
    refine ⟨afterSignature.pending, ?_, length, ?_, ?_, rfl, rfl, rfl⟩
    · rw [split₁, split₂]
    · rw [input₃, input₂, input₁]
    · have lengths := congrArg List.length split₃
      rw [List.length_append, all] at lengths
      exact List.length_eq_zero_iff.1 (by omega)
  · rintro ⟨padding, split, length, input, consumed, sender, fingerprint, messageId⟩
    obtain ⟨next₁, take₁, input₁, split₁⟩ := Reader.take_chunk fits split
    have fits₁ := input₁ ▸ fits
    obtain ⟨next₂, take₂, input₂, split₂⟩ := Reader.array_chunk fits₁ split₁
    have fits₂ := input₂ ▸ fits₁
    obtain ⟨next₃, take₃, input₃, split₃⟩ :=
      Reader.take_chunk fits₂ (split₂.trans (List.append_nil padding).symm)
    obtain rfl : next₃ = final := by
      refine Reader.eq_of_pending ?_ (split₃.trans consumed.symm)
      rw [input₃, input₂, input₁, input]
    rw [length] at take₁
    rw [← split₂] at take₃
    refine ⟨_, _, take₁, _, _, take₂, _, _, ⟨rfl, rfl⟩, _, _, take₃, ?_, rfl⟩
    cases parsed
    simp_all

theorem parse_eq_ok_iff {α : Type} {reading : Reading α} {input : List UInt8} {value : α} :
    reading.parse input = .ok value ↔ ∃ final, reading (.new input) = .ok value final := by
  unfold Reading.parse EStateM.run
  cases reading (.new input) <;> simp

theorem parseInternal_eq_ok_iff {bytes : List UInt8} {parsed : ParsedMessage}
    (fits : bytes.length < usizeLimit) :
    parseInternal primitives bytes = .ok parsed ↔
      ∃ (record : InternalRecord) (padding : List UInt8),
        bytes = record.layout padding ∧ parsed = record.parsed primitives := by
  have fitsReader : (Reader.new bytes).input.length < usizeLimit := fits
  simp only [parseInternal, Checked.bind_eq_ok, Checked.reject_eq_ok_iff, parse_eq_ok_iff,
    Reader.bind_eq_ok]
  constructor
  · rintro ⟨_, _, final, header, next, readHeader, readBody⟩
    obtain ⟨identity, agreement, claimed, sender, length, split, input, small, _⟩ :=
      (parseHeader_eq_ok_iff fitsReader).1 readHeader
    obtain ⟨padding, rest, bodyLength, _, _, sameSender, sameFingerprint, sameId⟩ :=
      (parseBody_eq_ok_iff (input ▸ fitsReader)).1 readBody
    rw [Reader.pending_new] at split
    refine ⟨⟨identity, agreement, parsed.recipientFingerprint, parsed.messageId, parsed.body,
      parsed.signature, bodyLength ▸ small⟩, padding, ?_, ?_⟩
    · have sameLength : claimed = UInt32.ofNat parsed.body.length := by
        rw [bodyLength, length, UInt32.ofNat_toNat]
      rw [split, rest, layout, bodyLen, ← sameLength, sameFingerprint, sameId]
    · cases parsed
      simp_all [InternalRecord.parsed]
  · rintro ⟨record, padding, rfl, rfl⟩
    have enough : ¬ (record.layout padding).length < internalFixedLen := by
      rw [length_layout]
      omega
    let body : Reader := ⟨record.layout padding, 134, by
      rw [layout, length_head]
      omega⟩
    have bodyPending : body.pending = record.body ++ (record.signature.toList ++ padding) :=
      drop_head
    let final : Reader := ⟨record.layout padding, (record.layout padding).length, Nat.le_refl _⟩
    let header : ParsedHeader :=
      ⟨.new primitives record.identityPublic record.agreementPublic, record.recipientFingerprint,
        record.messageId, record.body.length⟩
    refine ⟨(), enough, final, header, body, ?_, ?_⟩
    · refine (parseHeader_eq_ok_iff fitsReader).2 ⟨record.identityPublic, record.agreementPublic,
        record.bodyLen, rfl, record.bodyLen_toNat.symm, ?_, rfl, record.bounded, ?_⟩
      · rw [bodyPending]
        rfl
      · rw [bodyPending]
        simp only [header, signatureLen, List.length_append, Bytes.length_toList]
        omega
    · have fitsBody : body.input.length < usizeLimit := fits
      exact (parseBody_eq_ok_iff fitsBody).2
        ⟨padding, bodyPending, rfl, rfl, by simp [final, Reader.pending], rfl, rfl, rfl⟩

/-- The fixed part in front of the body leaves room for the signature, so a claimed
length that passes its check is one that every later read can honour. -/
theorem parseBody_total {plaintext : Slice} {header : ParsedHeader} {next : Reader}
    (enough : internalFixedLen ≤ plaintext.bytes.length)
    (accepted : parseHeader primitives (.new plaintext.bytes) = .ok header next) :
    ∃ parsed final, parseBody header next = .ok parsed final := by
  have fits : (Reader.new plaintext.bytes).input.length < usizeLimit := plaintext.fits
  obtain ⟨_, _, _, _, _, split, input, _, room⟩ := (parseHeader_eq_ok_iff fits).1 accepted
  have total : plaintext.bytes.length = 134 + next.pending.length := by
    rw [← Reader.pending_new plaintext.bytes, split, length_head]
  have reserve : header.bodyLen + signatureLen ≤ next.pending.length := by
    have fixed : internalFixedLen = 134 + signatureLen := rfl
    omega
  have signatureLength : ((next.pending.drop header.bodyLen).take signatureLen).length =
      signatureLen := by
    simp
    omega
  refine ⟨⟨header.sender, header.recipientFingerprint, header.messageId,
    next.pending.take header.bodyLen, ⟨_, signatureLength⟩⟩,
    ⟨next.input, next.input.length, Nat.le_refl _⟩, ?_⟩
  refine (parseBody_eq_ok_iff (input ▸ fits)).2
    ⟨(next.pending.drop header.bodyLen).drop signatureLen, ?_, ?_, rfl, ?_, rfl, rfl, rfl⟩
  · rw [List.take_append_drop, List.take_append_drop]
  · simp
    omega
  · simp [Reader.pending]

theorem noPanic_parseHeader : Reader.NoPanic (parseHeader primitives) := by
  refine Reader.noPanic_bind Reader.noPanic_byte fun _ => ?_
  refine Reader.noPanic_bind (Reader.noPanic_lift (Checked.noPanic_reject _ _)) fun _ => ?_
  refine Reader.noPanic_bind Reader.noPanic_byte fun _ => ?_
  refine Reader.noPanic_bind (Reader.noPanic_lift (Checked.noPanic_reject _ _)) fun _ => ?_
  refine Reader.noPanic_bind (Reader.noPanic_array 32) fun _ => ?_
  refine Reader.noPanic_bind (Reader.noPanic_array 32) fun _ => ?_
  refine Reader.noPanic_bind (Reader.noPanic_array 32) fun _ => ?_
  refine Reader.noPanic_bind (Reader.noPanic_array 32) fun _ => ?_
  refine Reader.noPanic_bind Reader.noPanic_u32Be fun _ => ?_
  refine Reader.noPanic_bind (Reader.noPanic_lift (Checked.noPanic_okOr _ _)) fun _ => ?_
  refine Reader.noPanic_bind Reader.noPanic_remaining fun _ => ?_
  refine Reader.noPanic_bind (Reader.noPanic_lift (Checked.noPanic_reject _ _)) fun _ => ?_
  exact Reader.noPanic_pure _

theorem noPanic_parseBody (header : ParsedHeader) : Reader.NoPanic (parseBody header) := by
  refine Reader.noPanic_bind (Reader.noPanic_take _) fun _ => ?_
  refine Reader.noPanic_bind (Reader.noPanic_array _) fun _ => ?_
  refine Reader.noPanic_bind Reader.noPanic_remaining fun _ => ?_
  exact Reader.noPanic_bind (Reader.noPanic_take _) fun _ => Reader.noPanic_pure _

theorem noPanic_parseInternal (plaintext : List UInt8) :
    Checked.NoPanic (parseInternal primitives plaintext) :=
  Checked.noPanic_bind (Checked.noPanic_reject _ _) fun _ _ =>
    Reading.noPanic_parse (Reader.noPanic_bind noPanic_parseHeader noPanic_parseBody) plaintext

/-! ## The serializer -/

theorem serializeInternal_eq_ok {senderSecrets : IdentitySecrets}
    {senderProfile recipient : PublicProfile} {messageId : Bytes 32}
    {body padding output : List UInt8}
    (serialized : serializeInternal primitives senderSecrets senderProfile recipient messageId body
      padding = .ok output) :
    ∃ record : InternalRecord, output = record.layout padding ∧
      output.length < usizeLimit ∧
      signMessage primitives senderSecrets senderProfile recipient.fingerprint messageId body =
        .ok record.signature ∧
      record.identityPublic = senderProfile.identityPublic ∧
      record.agreementPublic = senderProfile.agreementPublic ∧
      record.recipientFingerprint = recipient.fingerprint ∧
      record.messageId = messageId ∧ record.body = body := by
  simp only [serializeInternal, Checked.bind_eq_ok, Checked.reject_eq_ok_iff,
    Checked.okOr_eq_ok_iff, Checked.pure_eq_ok, Except.ok.injEq] at serialized
  obtain ⟨_, small, bodyLen, converted, signature, signed, capacity, fits, rfl⟩ := serialized
  let record : InternalRecord :=
    ⟨senderProfile.identityPublic, senderProfile.agreementPublic, recipient.fingerprint, messageId,
      body, signature, by omega⟩
  have claimed : record.bodyLen = bodyLen :=
    Option.some.inj (record.u32TryFrom_body.symm.trans converted)
  have shape : [protocolVersion] ++ [cryptoSuiteClassicalV1] ++
      senderProfile.identityPublic.toList ++ senderProfile.agreementPublic.toList ++
      recipient.fingerprint.toList ++ messageId.toList ++ (u32ToBe bodyLen).toList ++ body ++
      signature.toList ++ padding = record.layout padding := by
    rw [layout, claimed]
    simp [head, protocolVersion, cryptoSuiteClassicalV1, record]
  refine ⟨record, shape, ?_, signed, rfl, rfl, rfl, rfl, rfl⟩
  rw [shape, length_layout]
  obtain ⟨length, first, second⟩ := Option.bind_eq_some_iff.1 fits
  unfold checkedAdd at first second
  split at first
  · cases first
    split at second
    · assumption
    · cases second
  · cases first

/-- The record parser accepts exactly its grammar, each record in one way only; it
returns the fields that stand in the input, it inverts the serializer, and after the
check of the claimed length no read can fail. -/
theorem parseInternal_grammar (primitives : Primitives) :
    (∀ (plaintext : Slice) (parsed : ParsedMessage),
      parseInternal primitives plaintext.bytes = .ok parsed ↔
        ∃ (record : InternalRecord) (padding : List UInt8),
          plaintext.bytes = record.layout padding ∧ parsed = record.parsed primitives) ∧
    (∀ (left right : InternalRecord) (leftPadding rightPadding : List UInt8),
      left.layout leftPadding = right.layout rightPadding →
        left = right ∧ leftPadding = rightPadding) ∧
    (∀ (plaintext : Slice) (parsed : ParsedMessage),
      parseInternal primitives plaintext.bytes = .ok parsed →
        ∃ padding, plaintext.bytes =
          [protocolVersion] ++ [cryptoSuiteClassicalV1] ++ parsed.sender.identityPublic.toList ++
            parsed.sender.agreementPublic.toList ++ parsed.recipientFingerprint.toList ++
            parsed.messageId.toList ++ (u32ToBe (UInt32.ofNat parsed.body.length)).toList ++
            parsed.body ++ parsed.signature.toList ++ padding) ∧
    (∀ (senderSecrets : IdentitySecrets) (senderProfile recipient : PublicProfile)
      (messageId : Bytes 32) (body padding output : List UInt8),
      serializeInternal primitives senderSecrets senderProfile recipient messageId body padding =
          .ok output →
        ∃ signature,
          signMessage primitives senderSecrets senderProfile recipient.fingerprint messageId body =
            .ok signature ∧
          parseInternal primitives output = .ok {
            sender := .new primitives senderProfile.identityPublic senderProfile.agreementPublic
            recipientFingerprint := recipient.fingerprint
            messageId
            body
            signature
          }) ∧
    (∀ (plaintext : Slice) (header : ParsedHeader) (next : Reader),
      internalFixedLen ≤ plaintext.bytes.length →
        parseHeader primitives (.new plaintext.bytes) = .ok header next →
          ∃ parsed final, parseBody header next = .ok parsed final) := by
  refine ⟨fun plaintext parsed => parseInternal_eq_ok_iff plaintext.fits,
    fun _ _ _ _ => layout_injective, ?_, ?_, fun _ _ _ => parseBody_total⟩
  · intro plaintext parsed accepted
    obtain ⟨record, padding, split, rfl⟩ := (parseInternal_eq_ok_iff plaintext.fits).1 accepted
    refine ⟨padding, ?_⟩
    rw [split]
    simp [layout, head, InternalRecord.parsed, PublicProfile.new, protocolVersion,
      cryptoSuiteClassicalV1, bodyLen]
  · intro senderSecrets senderProfile recipient messageId body padding output serialized
    obtain ⟨record, layout, fits, signed, identity, agreement, fingerprint, id, sameBody⟩ :=
      serializeInternal_eq_ok serialized
    refine ⟨record.signature, signed, (parseInternal_eq_ok_iff fits).2 ⟨record, padding, layout, ?_⟩⟩
    rw [InternalRecord.parsed, identity, agreement, fingerprint, id, sameBody]

end Message

end Sealed
