import SecureKit.Error

/-!
# The `SKT1` packet and its cipher context

`src/aead_internal.hpp`: the fixed parts of a packet, the tests on its prefix, and the set-up of
the AES-256-GCM context.  A packet is the magic and a version byte, a nonce, the ciphertext and the
tag; the first two, `makeHeader`, are authenticated in front of the caller's additional data.

Unlike the file code, `initialize_encrypt_context` makes all three of its calls whether or not the
ones before succeeded, and only then looks at the answers.
-/

namespace SecureKit.Packet

open ByteString Effect Evp

/-! ## Constants and errors -/

/-- `kVersion` -/
def kVersion : UInt8 := 0x01

/-- `kMagic`: `SKT1` -/
def kMagic : ByteArr 4 := ⟨[0x53, 0x4b, 0x54, 0x31], rfl⟩

/-- `kHeaderSize` -/
def kHeaderSize : ℕ := 4 + 1

/-- `kNonceSize` -/
def kNonceSize : ℕ := 12

/-- `kPrefixSize` -/
def kPrefixSize : ℕ := kHeaderSize + kNonceSize

/-- `kTagSize` -/
@[reducible] def kTagSize : ℕ := 16

/-- `kOverhead` -/
def kOverhead : ℕ := kPrefixSize + kTagSize

/-- The error of `throw_invalid_packet`. -/
def invalidPacket : Error := ⟨.invalid_packet, "Invalid AEAD packet"⟩

/-- The error of `throw_authentication_failed`. -/
def authenticationFailed : Error := ⟨.authentication_failed, "AEAD authentication failed"⟩

/-- The error of `throw_invalid_input`. -/
def invalidInput (message : String) : Error := ⟨.invalid_input, message⟩

/-! ## Prefix and header -/

/-- `make_header` -/
def makeHeader : ByteArr kHeaderSize :=
  ((ByteArr.zeros kHeaderSize).store 0 kMagic).store 4 (ByteArr.single kVersion)

/-- `make_packet_prefix`, for a nonce of the right size. -/
def makePacketPrefix (nonce : ByteArr kNonceSize) : ByteArr kPrefixSize :=
  ((ByteArr.zeros kPrefixSize).store 0 makeHeader).store 5 nonce

/-- `require_valid_prefix` -/
def requireValidPrefix {σ : Type} (packetPrefix : Bytes) : Eff σ Unit := do
  throwIf (packetPrefix.length ≠ kPrefixSize) invalidPacket
  throwIf (packetPrefix.take 4 ≠ kMagic) invalidPacket
  throwIf (packetPrefix[4]? ≠ some kVersion) invalidPacket

/-- `require_valid_packet` -/
def requireValidPacket {σ : Type} (packet : Bytes) : Eff σ Unit := do
  throwIf (packet.length < kOverhead) invalidPacket
  requireValidPrefix (packet.take kPrefixSize)

/-- The five bytes of the header. -/
lemma coe_makeHeader : (makeHeader : Bytes) = (kMagic : Bytes) ++ [kVersion] := by decide

/-- The prefix of a packet is the header and the nonce. -/
lemma coe_makePacketPrefix (nonce : ByteArr kNonceSize) :
    (makePacketPrefix nonce : Bytes) = (makeHeader : Bytes) ++ (nonce : Bytes) := by
  have h0 := ByteArr.coe_zeros kPrefixSize
  have h1 := ByteArr.store_fill makeHeader (show 0 + kHeaderSize ≤ kPrefixSize by decide) h0 rfl
  have h2 := ByteArr.store_fill nonce (show 5 + kNonceSize ≤ kPrefixSize by decide) h1
    (by simp [kHeaderSize])
  rw [makePacketPrefix, h2]
  simp [kPrefixSize, kHeaderSize, kNonceSize]

/-- The last twelve bytes of a valid prefix. -/
lemma drop_makePacketPrefix (nonce : ByteArr kNonceSize) :
    ByteArr.ofBytes kNonceSize ((makePacketPrefix nonce : Bytes).drop
      ((makePacketPrefix nonce : Bytes).length - kNonceSize)) = nonce := by
  have hdrop : (makePacketPrefix nonce : Bytes).drop
      ((makePacketPrefix nonce : Bytes).length - kNonceSize) = nonce := by
    rw [ByteArr.length_coe, coe_makePacketPrefix]
    exact List.drop_left' (ByteArr.length_coe _)
  rw [hdrop, ByteArr.ofBytes_coe]

/-- The first five bytes of a valid prefix. -/
lemma take_makePacketPrefix (nonce : ByteArr kNonceSize) :
    (makePacketPrefix nonce : Bytes).take kHeaderSize = makeHeader := by
  rw [coe_makePacketPrefix]
  exact List.take_left' (ByteArr.length_coe _)

/-- The valid prefixes are those that `makePacketPrefix` makes. -/
lemma valid_prefix_iff (packetPrefix : Bytes) :
    (packetPrefix.length = kPrefixSize ∧ packetPrefix.take 4 = kMagic ∧
        packetPrefix[4]? = some kVersion) ↔
      ∃ nonce : ByteArr kNonceSize, packetPrefix = makePacketPrefix nonce := by
  constructor
  · rintro ⟨hlen, hmagic, hversion⟩
    have hnonce : (packetPrefix.drop 5).length = kNonceSize := by
      rw [List.length_drop, hlen]
      decide
    refine ⟨⟨packetPrefix.drop 5, hnonce⟩, ?_⟩
    rw [coe_makePacketPrefix, coe_makeHeader, ← hmagic]
    have hbyte : packetPrefix.drop 4 = kVersion :: packetPrefix.drop 5 := by
      obtain ⟨h4, hget⟩ := List.getElem?_eq_some_iff.mp hversion
      rw [List.drop_eq_getElem_cons h4, hget]
    calc packetPrefix = packetPrefix.take 4 ++ packetPrefix.drop 4 :=
          (List.take_append_drop _ _).symm
      _ = packetPrefix.take 4 ++ [kVersion] ++ packetPrefix.drop 5 := by
          rw [hbyte, List.append_assoc, List.singleton_append]
  · rintro ⟨nonce, rfl⟩
    rw [coe_makePacketPrefix, coe_makeHeader]
    refine ⟨?_, ?_, ?_⟩
    · rw [List.length_append, ByteArr.length_coe]
      decide
    · rw [List.append_assoc]
      exact List.take_left' (ByteArr.length_coe _)
    · rw [List.append_assoc, List.getElem?_append_right (ByteArr.length_coe _).le]
      simp

/-- `require_valid_prefix` passes the valid prefixes and throws `invalid_packet` for the others. -/
lemma outcome_requireValidPrefix {σ : Type} {packetPrefix : Bytes} {s : σ}
    {Q : Unit → σ → Prop} {E : Error → σ → Prop}
    (hok : ∀ nonce : ByteArr kNonceSize, packetPrefix = makePacketPrefix nonce → Q () s)
    (hbad : (∀ nonce : ByteArr kNonceSize, packetPrefix ≠ makePacketPrefix nonce) →
      E invalidPacket s) :
    Outcome (requireValidPrefix packetPrefix) s Q E := by
  simp only [requireValidPrefix, outcome_bind, outcome_throwIf]
  have hiff := valid_prefix_iff packetPrefix
  by_cases hvalid : ∃ nonce : ByteArr kNonceSize, packetPrefix = makePacketPrefix nonce
  · obtain ⟨hlen, hmagic, hversion⟩ := hiff.mpr hvalid
    obtain ⟨nonce, hnonce⟩ := hvalid
    exact ⟨fun h => absurd hlen h, fun _ => ⟨fun h => absurd hmagic h, fun _ =>
      ⟨fun h => absurd hversion h, fun _ => hok nonce hnonce⟩⟩⟩
  · have hthrow := hbad fun nonce hnonce => hvalid ⟨nonce, hnonce⟩
    refine ⟨fun _ => hthrow, fun hlen => ⟨fun _ => hthrow, fun hmagic =>
      ⟨fun _ => hthrow, fun hversion => absurd ?_ hvalid⟩⟩⟩
    exact hiff.mp ⟨not_not.mp hlen, not_not.mp hmagic, not_not.mp hversion⟩

/-! ## The cipher context -/

section Context

variable (ssl : Openssl)

/-- `initialize_encrypt_context` and `initialize_decrypt_context`, which differ in the functions of
OpenSSL they call. -/
def initializeContext (dir : Direction) (key : key256) (nonce : ByteArr kNonceSize) :
    Eff CipherState Bool := do
  let cipherInitialized ← cipher ssl (.initCipher dir)
  let nonceSizeSet ← cipher ssl (.setIvLen kNonceSize)
  let keyAndNonceInitialized ← cipher ssl (.initKey dir key nonce)
  return cipherInitialized.isSome && nonceSizeSet.isSome && keyAndNonceInitialized.isSome

/-- `initialize_encrypt_context` -/
def initializeEncryptContext (key : key256) (nonce : ByteArr kNonceSize) : Eff CipherState Bool :=
  initializeContext ssl .encrypt key nonce

/-- `initialize_decrypt_context` -/
def initializeDecryptContext (key : key256) (nonce : ByteArr kNonceSize) : Eff CipherState Bool :=
  initializeContext ssl .decrypt key nonce

end Context

end SecureKit.Packet
