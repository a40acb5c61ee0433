import Sealed.FormatProperties
import Sealed.Identity

/-! Canonicity of the text files and of the encrypted identity file: each accepts
exactly the bytes its encoder writes. -/

set_option autoImplicit false

namespace Sealed

open Foundation

/-! ## Printable lines -/

/-- Printable ASCII: the bytes of every line the encoders write. -/
def Printable (line : List UInt8) : Prop := ∀ byte ∈ line, 0x20 ≤ byte ∧ byte < 0x80

instance (line : List UInt8) : Decidable (Printable line) :=
  List.decidableBAll (fun byte => 0x20 ≤ byte ∧ byte < 0x80) line

theorem printable_append {left right : List UInt8} :
    Printable (left ++ right) ↔ Printable left ∧ Printable right := by
  simp only [Printable, List.mem_append]
  constructor
  · intro all
    exact ⟨fun byte member => all byte (.inl member), fun byte member => all byte (.inr member)⟩
  · rintro ⟨first, second⟩ byte (member | member)
    · exact first byte member
    · exact second byte member

theorem printable_hexEncode (bytes : List UInt8) : Printable (hexEncode bytes) := by
  intro digit member
  obtain ⟨low, high⟩ := hexEncode_printable bytes digit member
  exact ⟨UInt8.le_trans (by decide) low, high⟩

theorem Printable.newline_notMem {line : List UInt8} (printable : Printable line) :
    newline ∉ line :=
  fun member => absurd (printable _ member).1 (by decide)

theorem Printable.carriageReturn_notMem {line : List UInt8} (printable : Printable line) :
    carriageReturn ∉ line :=
  fun member => absurd (printable _ member).1 (by decide)

theorem Printable.lines {line rest : List UInt8} (printable : Printable line) :
    lines (line ++ newline :: rest) = line :: Foundation.lines rest :=
  lines_line printable.newline_notMem printable.carriageReturn_notMem

/-- Text made of printable lines and newlines is well-formed UTF-8. -/
theorem fromUtf8_of_printable {text : List UInt8}
    (printable : ∀ byte ∈ text, byte = newline ∨ (0x20 ≤ byte ∧ byte < 0x80)) :
    fromUtf8 text = some text := by
  refine fromUtf8_eq_some_iff.2 ⟨utf8Valid_of_ascii fun byte member => ?_, rfl⟩
  rcases printable byte member with rfl | ⟨_, high⟩
  · decide
  · exact high

theorem printable_profilePrefix : Printable profilePrefix := by decide +kernel

theorem printable_unlockPrefix : Printable unlockPrefix := by decide +kernel

/-! ## Public profiles -/

namespace PublicProfile

variable {primitives : Primitives}

/-- A named field line, as `encode` writes it. -/
def fieldLine (lead : List UInt8) (value : Bytes 32) : List UInt8 :=
  lead ++ hexEncode value.toList

theorem printable_fieldLine {lead : List UInt8} (printable : Printable lead) (value : Bytes 32) :
    Printable (fieldLine lead value) :=
  printable_append.2 ⟨printable, printable_hexEncode _⟩

theorem encode_eq (profile : PublicProfile) :
    profile.encode =
      profilePrefix ++ newline :: (fieldLine (ascii "ed25519=") profile.identityPublic ++
        newline :: (fieldLine (ascii "x25519=") profile.agreementPublic ++
          newline :: (fieldLine (ascii "fingerprint=") profile.fingerprint ++ newline :: []))) := by
  simp [encode, fieldLine]

theorem length_encode (profile : PublicProfile) : profile.encode.length = 240 := by
  have leads : profilePrefix.length = 17 ∧ (ascii "ed25519=").length = 8 ∧
      (ascii "x25519=").length = 7 ∧ (ascii "fingerprint=").length = 12 := by decide
  simp [encode, length_hexEncode, leads]

theorem encode_printable (profile : PublicProfile) :
    ∀ byte ∈ profile.encode, byte = newline ∨ (0x20 ≤ byte ∧ byte < 0x80) := by
  have first : Printable (fieldLine (ascii "ed25519=") profile.identityPublic) :=
    printable_fieldLine (by decide +kernel) _
  have second : Printable (fieldLine (ascii "x25519=") profile.agreementPublic) :=
    printable_fieldLine (by decide +kernel) _
  have third : Printable (fieldLine (ascii "fingerprint=") profile.fingerprint) :=
    printable_fieldLine (by decide +kernel) _
  intro byte member
  rw [encode_eq] at member
  simp only [List.mem_append, List.mem_cons, List.not_mem_nil, or_false] at member
  rcases member with member | member | member | member | member | member | member | member
  · exact .inr (printable_profilePrefix byte member)
  · exact .inl member
  · exact .inr (first byte member)
  · exact .inl member
  · exact .inr (second byte member)
  · exact .inl member
  · exact .inr (third byte member)
  · exact .inl member

theorem lines_encode (profile : PublicProfile) :
    lines profile.encode =
      [profilePrefix, fieldLine (ascii "ed25519=") profile.identityPublic,
        fieldLine (ascii "x25519=") profile.agreementPublic,
        fieldLine (ascii "fingerprint=") profile.fingerprint] := by
  rw [encode_eq, printable_profilePrefix.lines,
    (printable_fieldLine (by decide +kernel) _).lines, (printable_fieldLine (by decide +kernel) _).lines,
    (printable_fieldLine (by decide +kernel) _).lines]
  rfl

theorem parseField_fieldLine (lead : List UInt8) (value : Bytes 32) :
    parseField 32 (some (fieldLine lead value)) lead = .ok value := by
  simp [parseField, fieldLine, stripPrefix_append, hexDecode_hexEncode]

theorem parse_encode (identityPublic agreementPublic : Bytes 32) :
    parse primitives (new primitives identityPublic agreementPublic).encode =
      .ok (new primitives identityPublic agreementPublic) := by
  unfold parse
  rw [fromUtf8_of_printable (encode_printable _), length_encode]
  simp only [Checked.okOr_some, Checked.ok_bind, lines_encode]
  simp [Checked.reject_of_not, parseField_fieldLine, new]

theorem parse_eq_ok_iff {bytes : List UInt8} {profile : PublicProfile} :
    parse primitives bytes = .ok profile ↔
      (∃ identityPublic agreementPublic, profile = new primitives identityPublic agreementPublic) ∧
        bytes = profile.encode := by
  constructor
  · intro accepted
    simp only [parse, Checked.bind_eq_ok, Checked.reject_eq_ok_iff, Checked.pure_eq_ok,
      Except.ok.injEq] at accepted
    obtain ⟨_, _, text, _, _, _, identityPublic, _, agreementPublic, _, supplied, _, _, _, _, _, _,
      canonical, rfl⟩ := accepted
    exact ⟨⟨identityPublic, agreementPublic, rfl⟩, (not_not.1 canonical).symm⟩
  · rintro ⟨⟨identityPublic, agreementPublic, rfl⟩, rfl⟩
    exact parse_encode identityPublic agreementPublic

/-- No proper prefix of an encoding is accepted: every accepted file has one length. -/
theorem parse_prefix {bytes extended : List UInt8} {profile : PublicProfile}
    {identityPublic agreementPublic : Bytes 32}
    (accepted : parse primitives bytes = .ok profile) (shorter : bytes <+: extended)
    (canonical : extended = (new primitives identityPublic agreementPublic).encode) :
    bytes = extended := by
  obtain ⟨_, rfl⟩ := parse_eq_ok_iff.1 accepted
  exact shorter.eq_of_length (by rw [canonical, length_encode, length_encode])

theorem noPanic_parseField (n : Nat) (line : Option (List UInt8)) (lead : List UInt8) :
    Checked.NoPanic (parseField n line lead) := by
  refine Checked.noPanic_bind (by simp) fun _ _ => ?_
  exact Checked.noPanic_bind (by simp) fun _ _ => noPanic_hexDecode n _

theorem noPanic_parse (bytes : List UInt8) : Checked.NoPanic (parse primitives bytes) := by
  refine Checked.noPanic_bind (by simp) fun _ _ => ?_
  refine Checked.noPanic_bind (by simp) fun _ _ => ?_
  refine Checked.noPanic_bind (by simp) fun _ _ => ?_
  refine Checked.noPanic_bind (noPanic_parseField _ _ _) fun _ _ => ?_
  refine Checked.noPanic_bind (noPanic_parseField _ _ _) fun _ _ => ?_
  refine Checked.noPanic_bind (noPanic_parseField _ _ _) fun _ _ => ?_
  refine Checked.noPanic_bind (by simp) fun _ _ => ?_
  refine Checked.noPanic_bind (by simp) fun _ _ => ?_
  exact Checked.noPanic_bind (by simp) fun _ _ => Checked.noPanic_ok _

/-- The profile format has exactly one spelling for each profile: the parser accepts the
encodings of profiles made of two keys, gives those profiles back, and reports an error on
every other byte string. -/
theorem parse_one_spelling (primitives : Primitives) :
    (∀ bytes profile, parse primitives bytes = .ok profile ↔
      ∃ identityPublic agreementPublic,
        bytes = (new primitives identityPublic agreementPublic).encode ∧
          profile = {
            version := 1
            identityPublic
            agreementPublic
            fingerprint := Sealed.fingerprint primitives 1 identityPublic agreementPublic
          }) ∧
    (∀ identityPublic agreementPublic,
      parse primitives (new primitives identityPublic agreementPublic).encode =
        .ok (new primitives identityPublic agreementPublic)) ∧
    (∀ bytes profile, parse primitives bytes = .ok profile → profile.encode = bytes) ∧
    (∀ left right profile, parse primitives left = .ok profile →
      parse primitives right = .ok profile → left = right) ∧
    (∀ shorter longer profile other, parse primitives shorter = .ok profile →
      parse primitives longer = .ok other → shorter <+: longer → shorter = longer) ∧
    (∀ bytes, (∀ identityPublic agreementPublic,
        bytes ≠ (new primitives identityPublic agreementPublic).encode) →
      ∃ reported, parse primitives bytes = .error (.error reported)) := by
  refine ⟨?_, parse_encode, ?_, ?_, ?_, ?_⟩
  · intro bytes profile
    rw [parse_eq_ok_iff]
    constructor
    · rintro ⟨⟨identityPublic, agreementPublic, rfl⟩, rfl⟩
      exact ⟨identityPublic, agreementPublic, rfl, rfl⟩
    · rintro ⟨identityPublic, agreementPublic, rfl, rfl⟩
      exact ⟨⟨identityPublic, agreementPublic, rfl⟩, rfl⟩
  · intro bytes profile accepted
    exact (parse_eq_ok_iff.1 accepted).2.symm
  · intro left right profile first second
    rw [(parse_eq_ok_iff.1 first).2, (parse_eq_ok_iff.1 second).2]
  · intro shorter longer profile other first second initial
    obtain ⟨⟨identityPublic, agreementPublic, rfl⟩, canonical⟩ := parse_eq_ok_iff.1 second
    exact parse_prefix first initial canonical
  · intro bytes foreign
    refine Checked.eq_error_of_noPanic (noPanic_parse bytes) fun profile accepted => ?_
    obtain ⟨⟨identityPublic, agreementPublic, rfl⟩, canonical⟩ := parse_eq_ok_iff.1 accepted
    exact foreign identityPublic agreementPublic canonical

end PublicProfile

/-! ## The unlock key -/

theorem encodeUnlockKey_eq (key : Bytes 32) :
    encodeUnlockKey key =
      unlockPrefix ++ newline :: (hexEncode key.toList ++ newline :: []) := by
  simp [encodeUnlockKey]

theorem length_encodeUnlockKey (key : Bytes 32) : (encodeUnlockKey key).length = 82 := by
  have lead : unlockPrefix.length = 16 := by decide
  simp [encodeUnlockKey, length_hexEncode, lead]

theorem lines_encodeUnlockKey (key : Bytes 32) :
    lines (encodeUnlockKey key) = [unlockPrefix, hexEncode key.toList] := by
  rw [encodeUnlockKey_eq, printable_unlockPrefix.lines, (printable_hexEncode _).lines]
  rfl

theorem parseUnlockKey_encode (key : Bytes 32) :
    parseUnlockKey (encodeUnlockKey key) = .ok key := by
  have printable : ∀ byte ∈ encodeUnlockKey key,
      byte = newline ∨ (0x20 ≤ byte ∧ byte < 0x80) := by
    intro byte member
    rw [encodeUnlockKey_eq] at member
    simp only [List.mem_append, List.mem_cons, List.not_mem_nil, or_false] at member
    rcases member with member | member | member | member
    · exact .inr (printable_unlockPrefix byte member)
    · exact .inl member
    · exact .inr (printable_hexEncode _ byte member)
    · exact .inl member
  unfold parseUnlockKey
  rw [fromUtf8_of_printable printable, length_encodeUnlockKey]
  simp only [Checked.okOr_some, Checked.ok_bind, lines_encodeUnlockKey]
  simp [Checked.reject_of_not, hexDecode_hexEncode]

theorem parseUnlockKey_eq_ok_iff {bytes : List UInt8} {key : Bytes 32} :
    parseUnlockKey bytes = .ok key ↔ bytes = encodeUnlockKey key := by
  constructor
  · intro accepted
    simp only [parseUnlockKey, Checked.bind_eq_ok, Checked.reject_eq_ok_iff, Checked.pure_eq_ok,
      Except.ok.injEq] at accepted
    obtain ⟨_, _, _, _, _, _, _, _, _, _, decoded, _, _, canonical, rfl⟩ := accepted
    exact (not_not.1 canonical).symm
  · rintro rfl
    exact parseUnlockKey_encode key

theorem noPanic_parseUnlockKey (bytes : List UInt8) :
    Checked.NoPanic (parseUnlockKey bytes) := by
  refine Checked.noPanic_bind (by simp) fun _ _ => ?_
  refine Checked.noPanic_bind (by simp) fun _ _ => ?_
  refine Checked.noPanic_bind (by simp) fun _ _ => ?_
  refine Checked.noPanic_bind (by simp) fun _ _ => ?_
  refine Checked.noPanic_bind (by simp) fun _ _ => ?_
  refine Checked.noPanic_bind (noPanic_hexDecode _ _) fun _ _ => ?_
  exact Checked.noPanic_bind (by simp) fun _ _ => Checked.noPanic_ok _

/-- The unlock-key file has exactly one spelling for each key, and every other byte string
is refused with a reported error. -/
theorem parseUnlockKey_one_spelling :
    (∀ bytes key, parseUnlockKey bytes = .ok key ↔ bytes = encodeUnlockKey key) ∧
    (∀ key, parseUnlockKey (encodeUnlockKey key) = .ok key) ∧
    (∀ left right key, parseUnlockKey left = .ok key → parseUnlockKey right = .ok key →
      left = right) ∧
    (∀ bytes, (∀ key, bytes ≠ encodeUnlockKey key) →
      ∃ reported, parseUnlockKey bytes = .error (.error reported)) := by
  refine ⟨fun _ _ => parseUnlockKey_eq_ok_iff, parseUnlockKey_encode, ?_, ?_⟩
  · intro left right key first second
    rw [parseUnlockKey_eq_ok_iff.1 first, parseUnlockKey_eq_ok_iff.1 second]
  · intro bytes foreign
    refine Checked.eq_error_of_noPanic (noPanic_parseUnlockKey bytes) fun key accepted => ?_
    exact foreign key (parseUnlockKey_eq_ok_iff.1 accepted)

/-! ## The private identity at rest -/

theorem length_privatePlaintext (secrets : IdentitySecrets) :
    (privatePlaintext secrets).length = privatePlaintextLen := by
  simp [privatePlaintext, privatePlaintextLen, ed25519SecretLen, x25519SecretLen]

theorem fromSlice_eq_ok_iff {n : Nat} {slice : List UInt8} {bytes : Bytes n} :
    fromSlice n slice = .ok bytes ↔ slice = bytes.toList := by
  rw [← Bytes.tryFrom_eq_some_iff]
  unfold fromSlice
  cases Bytes.tryFrom n slice <;> simp [Checked.panicked]

theorem splitAt_privateFile {encrypted : List UInt8}
    (length : encrypted.length = privateFileMaxLen) :
    ∃ (nonce : Bytes 24) (ciphertext : List UInt8),
      encrypted = nonce.toList ++ ciphertext ∧ ciphertext.length = 81 := by
  have front : (encrypted.take 24).length = 24 := by
    simp [length, privateFileMaxLen, nonceLen, Nat.add_assoc]
  refine ⟨⟨encrypted.take 24, front⟩, encrypted.drop 24, (List.take_append_drop _ _).symm, ?_⟩
  simp [length, privateFileMaxLen, privatePlaintextLen, nonceLen, ed25519SecretLen,
    x25519SecretLen]

/-- The offsets of `decrypt_private_identity` read back the plaintext layout. -/
theorem privatePlaintext_eq_iff {plaintext : List UInt8} {secrets : IdentitySecrets} :
    plaintext = privatePlaintext secrets ↔
      plaintext.length = privatePlaintextLen ∧ plaintext[0]? = some profileVersion ∧
        (plaintext.drop 1).take 32 = secrets.identitySecret.toList ∧
        (plaintext.drop 33).take 32 = secrets.agreementSecret.toList := by
  constructor
  · rintro rfl
    refine ⟨length_privatePlaintext secrets, rfl, ?_, ?_⟩
    · simp [privatePlaintext]
    · have tail : (privatePlaintext secrets).drop 33 = secrets.agreementSecret.toList := by
        rw [privatePlaintext, List.drop_succ_cons]
        exact List.drop_left' (by simp)
      rw [tail, List.take_of_length_le (by simp)]
  · rintro ⟨length, version, identity, agreement⟩
    cases plaintext with
    | nil => simp at version
    | cons first rest =>
        simp only [List.getElem?_cons_zero, Option.some.injEq] at version
        simp only [List.drop_succ_cons, List.drop_zero] at identity agreement
        have size : rest.length = 64 := by
          simpa [privatePlaintextLen, ed25519SecretLen, x25519SecretLen] using length
        have whole : (rest.drop 32).take 32 = rest.drop 32 := by
          rw [List.take_of_length_le (by simp [size])]
        rw [whole] at agreement
        rw [privatePlaintext, ← identity, ← agreement, List.take_append_drop, version]

theorem decryptPrivateIdentity_eq_ok_iff {primitives : Primitives} {encrypted : List UInt8}
    {unlockKey : Bytes 32} {secrets : IdentitySecrets} :
    decryptPrivateIdentity primitives encrypted unlockKey = .ok secrets ↔
      ∃ (nonce : Bytes 24) (ciphertext : List UInt8), encrypted = nonce.toList ++ ciphertext ∧
        ciphertext.length = 81 ∧
        primitives.decrypt unlockKey nonce identityAadDomain ciphertext =
          some (privatePlaintext secrets) := by
  have fileLen : privateFileMaxLen = 105 := rfl
  have secondSlice (list : List UInt8) : (list.drop 33).take (65 - 33) = (list.drop 33).take 32 :=
    rfl
  have firstSlice (list : List UInt8) : (list.drop 1).take (33 - 1) = (list.drop 1).take 32 := rfl
  constructor
  · intro accepted
    simp only [decryptPrivateIdentity, Checked.bind_eq_ok, Checked.reject_eq_ok_iff, not_not,
      Checked.okOr_eq_ok_iff, Checked.pure_eq_ok, Except.ok.injEq, Prod.exists] at accepted
    obtain ⟨_, length, front, ciphertext, split, nonce, sliced, plaintext, decrypted, _, size, _,
      version, _, isVersion, identityList, identitySlice, identity, isIdentity, agreementList,
      agreementSlice, agreement, isAgreement, rfl⟩ := accepted
    obtain ⟨rfl, frontLength⟩ := Checked.splitAt_eq_ok_iff.1 split
    obtain rfl := fromSlice_eq_ok_iff.1 sliced
    refine ⟨nonce, ciphertext, rfl, ?_, ?_⟩
    · simp only [List.length_append, Bytes.length_toList] at length
      omega
    · rw [decrypted, Option.some.injEq, privatePlaintext_eq_iff]
      obtain ⟨_, _, rfl⟩ := Checked.slice_eq_ok_iff.1 identitySlice
      obtain ⟨_, _, rfl⟩ := Checked.slice_eq_ok_iff.1 agreementSlice
      exact ⟨size, isVersion ▸ Checked.index_eq_ok_iff.1 version,
        Bytes.tryFrom_eq_some_iff.1 isIdentity, Bytes.tryFrom_eq_some_iff.1 isAgreement⟩
  · rintro ⟨nonce, ciphertext, rfl, length, decrypted⟩
    have shape : privatePlaintext secrets = privatePlaintext secrets := rfl
    obtain ⟨size, version, identity, agreement⟩ := privatePlaintext_eq_iff.1 shape
    have wide : 65 ≤ (privatePlaintext secrets).length := by
      rw [size]
      decide
    have total : (nonce.toList ++ ciphertext).length = privateFileMaxLen := by
      simp [length, fileLen]
    have split : (Checked.splitAt (nonce.toList ++ ciphertext) nonceLen : Result _) =
        .ok (nonce.toList, ciphertext) :=
      Checked.splitAt_eq_ok_iff.2 ⟨rfl, nonce.length_eq⟩
    unfold decryptPrivateIdentity
    rw [Checked.reject_of_not (not_not.2 total), split]
    simp only [Checked.ok_bind, fromSlice_eq_ok_iff.2 rfl, decrypted, Checked.okOr_some]
    rw [Checked.reject_of_not (not_not.2 size), Checked.index_of_getElem? version,
      Checked.slice_of_le (by decide) (Nat.le_trans (by decide) wide),
      Checked.slice_of_le (by decide) wide, firstSlice, secondSlice, identity, agreement]
    simp [Checked.reject_of_not]

theorem noPanic_decryptPrivateIdentity {primitives : Primitives} (encrypted : List UInt8)
    (unlockKey : Bytes 32) :
    Checked.NoPanic (decryptPrivateIdentity primitives encrypted unlockKey) := by
  refine Checked.noPanic_bind (by simp) fun _ length => ?_
  rw [Checked.reject_eq_ok_iff, not_not] at length
  obtain ⟨nonce, ciphertext, rfl, _⟩ := splitAt_privateFile length
  have split : (Checked.splitAt (nonce.toList ++ ciphertext) nonceLen : Result _) =
      .ok (nonce.toList, ciphertext) :=
    Checked.splitAt_eq_ok_iff.2 ⟨rfl, nonce.length_eq⟩
  rw [split]
  simp only [Checked.ok_bind, fromSlice_eq_ok_iff.2 rfl]
  refine Checked.noPanic_bind (by simp) fun plaintext _ => ?_
  refine Checked.noPanic_bind (by simp) fun _ size => ?_
  rw [Checked.reject_eq_ok_iff, not_not] at size
  have wide : 65 ≤ plaintext.length := by
    rw [size]
    decide
  rw [Checked.index_of_getElem? (List.getElem?_eq_getElem (by omega)),
    Checked.slice_of_le (by decide) (Nat.le_trans (by decide) wide),
    Checked.slice_of_le (by decide) wide]
  simp only [Checked.ok_bind]
  refine Checked.noPanic_bind (by simp) fun _ _ => ?_
  refine Checked.noPanic_bind (by simp) fun _ _ => ?_
  exact Checked.noPanic_bind (by simp) fun _ _ => Checked.noPanic_ok _

/-- What `encrypt_private_identity` writes: the drawn nonce, and the ciphertext of the
plaintext under it. -/
theorem encryptPrivateIdentity_eq_ok_iff {primitives : Primitives} {secrets : IdentitySecrets}
    {unlockKey : Bytes 32} {nonceDraw : Draw 24} {encoded : List UInt8} :
    encryptPrivateIdentity primitives secrets unlockKey nonceDraw = .ok encoded ↔
      ∃ nonce ciphertext, nonceDraw = some nonce ∧
        primitives.encrypt unlockKey nonce identityAadDomain (privatePlaintext secrets) =
          some ciphertext ∧
        encoded = nonce.toList ++ ciphertext := by
  simp only [encryptPrivateIdentity, randomArray, Checked.bind_eq_ok, Checked.okOr_eq_ok_iff,
    Checked.pure_eq_ok, Except.ok.injEq]
  constructor
  · rintro ⟨nonce, drawn, ciphertext, encrypted, rfl⟩
    exact ⟨nonce, ciphertext, drawn, encrypted, rfl⟩
  · rintro ⟨nonce, ciphertext, drawn, encrypted, rfl⟩
    exact ⟨nonce, drawn, ciphertext, encrypted, rfl⟩

end Sealed
