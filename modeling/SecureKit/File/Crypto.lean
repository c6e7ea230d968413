import SecureKit.Random
import SecureKit.Hash

/-!
# File headers, record headers and chunk encryption

`src/file_detail.hpp` and `src/file_crypto.cpp`: the serialized forms of the `SKF1` and `SKP1`
file headers and of the chunk record header, the derivation of the file key, the chunk nonce and
additional data, and the encryption and decryption of one chunk.

The second half has one specification per function: the headers as concatenations of their
fields (`makeHeader` writes them at offsets, `parseHeader` reads them at offsets), and the
outcomes of `encryptChunk` and `decryptChunk` in terms of the primitives.
-/

namespace SecureKit.File

open ByteString Effect Evp

/-! ## Constants -/

/-- `kChunkSize` -/
def kChunkSize : UInt32 := 1024 * 1024

/-- `kHeaderSize` -/
def kHeaderSize : ℕ := 4 + 1 + 1 + 4 + 32 + 8

/-- `kPasswordHeaderSize` -/
def kPasswordHeaderSize : ℕ := 4 + 1 + 1 + 1 + 1 + 4 + 32 + 8 + 4 + 4 + 4

/-- `kSaltSize` -/
def kSaltSize : ℕ := 32

/-- `kNoncePrefixSize` -/
def kNoncePrefixSize : ℕ := 8

/-- `kNonceSize` -/
def kNonceSize : ℕ := 12

/-- `kTagSize` -/
def kTagSize : ℕ := 16

/-- `kRecordHeaderSize` -/
def kRecordHeaderSize : ℕ := 4 + 4 + 1

/-- `kNotFinal` -/
def kNotFinal : UInt8 := 0x00

/-- `kFinal` -/
def kFinal : UInt8 := 0x01

/-- `kMagic`: `SKF1` -/
def kMagic : ByteArr 4 := ⟨[0x53, 0x4b, 0x46, 0x31], rfl⟩

/-- `kPasswordMagic`: `SKP1` -/
def kPasswordMagic : ByteArr 4 := ⟨[0x53, 0x4b, 0x50, 0x31], rfl⟩

/-- `kVersion` -/
def kVersion : UInt8 := 0x01

/-- `kAlgorithm` -/
def kAlgorithm : UInt8 := 0x01

/-- `kPasswordCipherAes256Gcm` -/
def kPasswordCipherAes256Gcm : UInt8 := 0x01

/-- `kPasswordKdfScrypt` -/
def kPasswordKdfScrypt : UInt8 := 0x01

/-- `kPasswordFlagsNone` -/
def kPasswordFlagsNone : UInt8 := 0x00

/-- `kScryptN` -/
def kScryptN : UInt32 := 32768

/-- `kScryptR` -/
def kScryptR : UInt32 := 8

/-- `kScryptP` -/
def kScryptP : UInt32 := 1

/-- `kScryptMaxMemory` -/
def kScryptMaxMemory : UInt64 := 64 * 1024 * 1024

/-! ## Headers and chunks -/

/-- `FileHeader` -/
structure FileHeader where
  serialized : ByteArr kHeaderSize
  salt : ByteArr kSaltSize
  noncePrefix : ByteArr kNoncePrefixSize
  deriving DecidableEq

/-- `PasswordFileHeader` -/
structure PasswordFileHeader where
  serialized : ByteArr kPasswordHeaderSize
  salt : ByteArr kSaltSize
  noncePrefix : ByteArr kNoncePrefixSize
  scryptN : UInt32 := 32768
  scryptR : UInt32 := 8
  scryptP : UInt32 := 1
  deriving DecidableEq

/-- `RecordHeader` -/
structure RecordHeader where
  serialized : ByteArr kRecordHeaderSize
  index : UInt32
  plaintextSize : UInt32
  finalFlag : UInt8
  deriving DecidableEq

/-- `EncryptedChunk` -/
structure EncryptedChunk where
  ciphertext : Bytes
  tag : ByteArr kTagSize
  deriving DecidableEq

/-- The error of `throw_invalid_packet`. -/
def invalidPacket : Error := ⟨.invalid_packet, "Invalid file sealing packet"⟩

/-- The error of `throw_authentication_failed`. -/
def authenticationFailed : Error := ⟨.authentication_failed, "File authentication failed"⟩

/-- The error of `require_non_empty_password`. -/
def emptyPassword : Error := ⟨.invalid_input, "password must not be empty"⟩

/-- The error of a failing `EVP_PBE_scrypt`. -/
def scryptFailure : Error := ⟨.backend_failure, "OpenSSL scrypt operation failed"⟩

/-! ## File headers -/

section Headers

variable (ssl : Openssl)

/-- `make_header`: the fixed fields, then a fresh salt and nonce prefix. -/
def makeHeader : Eff Lib FileHeader := do
  let serialized : ByteArr kHeaderSize := ByteArr.zeros kHeaderSize
  let serialized := serialized.store 0 kMagic
  let serialized := serialized.store 4 (ByteArr.single kVersion)
  let serialized := serialized.store 5 (ByteArr.single kAlgorithm)
  let serialized := serialized.store 6 (be32 kChunkSize)
  let salt ← randomBytes ssl kSaltSize
  let noncePrefix ← randomBytes ssl kNoncePrefixSize
  let serialized := serialized.store 10 salt
  let serialized := serialized.store 42 noncePrefix
  return { serialized, salt, noncePrefix }

/-- The stores of `make_header`, as a function of the fields. -/
def headerLayout (magic : ByteArr 4) (version algorithm : UInt8) (chunkSize : UInt32)
    (salt : ByteArr kSaltSize) (noncePrefix : ByteArr kNoncePrefixSize) : ByteArr kHeaderSize :=
  ((((((ByteArr.zeros kHeaderSize).store 0 magic).store 4 (ByteArr.single version)).store 5
    (ByteArr.single algorithm)).store 6 (be32 chunkSize)).store 10 salt).store 42 noncePrefix

/-- `parse_header` -/
def parseHeader (data : ByteArr kHeaderSize) : Except Error FileHeader :=
  if data.slice 0 4 ≠ kMagic ∨ data.byteAt 4 ≠ kVersion ∨ data.byteAt 5 ≠ kAlgorithm then
    .error invalidPacket
  else if ofBe32 (data.slice 6 4) ≠ kChunkSize then .error invalidPacket
  else
    .ok { serialized := data, salt := data.slice 10 kSaltSize,
          noncePrefix := data.slice 42 kNoncePrefixSize }

/-- `make_password_header` -/
def makePasswordHeader : Eff Lib PasswordFileHeader := do
  let serialized : ByteArr kPasswordHeaderSize := ByteArr.zeros kPasswordHeaderSize
  let serialized := serialized.store 0 kPasswordMagic
  let serialized := serialized.store 4 (ByteArr.single kVersion)
  let serialized := serialized.store 5 (ByteArr.single kPasswordCipherAes256Gcm)
  let serialized := serialized.store 6 (ByteArr.single kPasswordKdfScrypt)
  let serialized := serialized.store 7 (ByteArr.single kPasswordFlagsNone)
  let serialized := serialized.store 8 (be32 kChunkSize)
  let salt ← randomBytes ssl kSaltSize
  let noncePrefix ← randomBytes ssl kNoncePrefixSize
  let header : PasswordFileHeader := { serialized, salt, noncePrefix }
  let serialized := serialized.store 12 salt
  let serialized := serialized.store 44 noncePrefix
  let serialized := serialized.store 52 (be32 header.scryptN)
  let serialized := serialized.store 56 (be32 header.scryptR)
  let serialized := serialized.store 60 (be32 header.scryptP)
  return { header with serialized }

/-- The stores of `make_password_header`, as a function of the fields. -/
def passwordHeaderLayout (magic : ByteArr 4) (version cipher kdf flags : UInt8) (chunkSize : UInt32)
    (salt : ByteArr kSaltSize) (noncePrefix : ByteArr kNoncePrefixSize) (n r p : UInt32) :
    ByteArr kPasswordHeaderSize :=
  (((((((((((ByteArr.zeros kPasswordHeaderSize).store 0 magic).store 4
    (ByteArr.single version)).store 5 (ByteArr.single cipher)).store 6
    (ByteArr.single kdf)).store 7 (ByteArr.single flags)).store 8
    (be32 chunkSize)).store 12 salt).store 44 noncePrefix).store 52 (be32 n)).store 56
    (be32 r)).store 60 (be32 p)

/-- `parse_password_header` -/
def parsePasswordHeader (data : ByteArr kPasswordHeaderSize) : Except Error PasswordFileHeader :=
  if data.slice 0 4 ≠ kPasswordMagic ∨ data.byteAt 4 ≠ kVersion ∨
      data.byteAt 5 ≠ kPasswordCipherAes256Gcm ∨ data.byteAt 6 ≠ kPasswordKdfScrypt ∨
      data.byteAt 7 ≠ kPasswordFlagsNone then
    .error invalidPacket
  else if ofBe32 (data.slice 8 4) ≠ kChunkSize then .error invalidPacket
  else
    let header : PasswordFileHeader :=
      { serialized := data, salt := data.slice 12 kSaltSize, noncePrefix := data.slice 44 kNoncePrefixSize,
        scryptN := ofBe32 (data.slice 52 4), scryptR := ofBe32 (data.slice 56 4),
        scryptP := ofBe32 (data.slice 60 4) }
    if header.scryptN ≠ kScryptN ∨ header.scryptR ≠ kScryptR ∨ header.scryptP ≠ kScryptP then
      .error invalidPacket
    else .ok header

/-- `bytes_from_literal` -/
def bytesFromLiteral (text : String) : Bytes := text.toList.map fun c => UInt8.ofNat c.toNat

/-- `derive_file_key` -/
def deriveFileKey (masterKey : key256) (header : FileHeader) : Eff Lib key256 :=
  let info := bytesFromLiteral "securekit file sealing v1"
  hkdfSha256 ssl masterKey header.salt info 32

/-- `require_non_empty_password` -/
def requireNonEmptyPassword {σ : Type} (password : Bytes) : Eff σ Unit :=
  throwIf (password = []) emptyPassword

/-- `derive_password_file_key` -/
def derivePasswordFileKey (password : Bytes) (header : PasswordFileHeader) :
    Eff Lib key256 := do
  requireNonEmptyPassword password
  let fileKey ← call .scrypt fun t =>
    ssl.scrypt t password header.salt header.scryptN header.scryptR header.scryptP
      kScryptMaxMemory 32
  orThrow scryptFailure fileKey

end Headers

/-! ## Records -/

/-- `make_nonce` -/
def makeNonce (noncePrefix : ByteArr kNoncePrefixSize) (chunkIndex : UInt32) :
    ByteArr kNonceSize :=
  ((ByteArr.zeros kNonceSize).store 0 noncePrefix).store 8 (be32 chunkIndex)

/-- `make_record_header` -/
def makeRecordHeader (index plaintextSize : UInt32) (finalFlag : UInt8) : RecordHeader :=
  { serialized := (((ByteArr.zeros kRecordHeaderSize).store 0 (be32 index)).store 4
      (be32 plaintextSize)).store 8 (ByteArr.single finalFlag),
    index, plaintextSize, finalFlag }

/-- `parse_record_header` -/
def parseRecordHeader (data : ByteArr kRecordHeaderSize) : Except Error RecordHeader :=
  let record : RecordHeader :=
    { serialized := data, index := ofBe32 (data.slice 0 4),
      plaintextSize := ofBe32 (data.slice 4 4), finalFlag := data.byteAt 8 }
  if record.finalFlag ≠ kNotFinal ∧ record.finalFlag ≠ kFinal then .error invalidPacket
  else if record.plaintextSize > kChunkSize then .error invalidPacket
  else .ok record

/-- `make_chunk_aad` -/
def makeChunkAad (serializedHeader : Bytes) (record : RecordHeader) (callerAad : Bytes) : Bytes :=
  serializedHeader ++ record.serialized ++ callerAad

/-! ## Chunk encryption -/

section Chunks

variable (ssl : Openssl)

/-- The start both chunk functions share: `make_context` and the three calls of `initialized`,
of which each is made only if the one before succeeded. -/
def initializedContext (dir : Direction) (fileKey : key256) (nonce : Bytes) :
    Eff CipherState Unit := do
  makeContext ssl
  let _ ← require ssl (.initCipher dir)
  let _ ← require ssl (.setIvLen nonce.length)
  let _ ← require ssl (.initKey dir fileKey nonce)

/-- The text of a chunk, where an empty one is not passed on. -/
def updateText (dir : Direction) (data : Bytes) : Eff CipherState Bytes :=
  if data.length > 0 then require ssl (.update dir data) else pure []

/-- `encrypt_chunk` -/
def encryptChunk (plaintext : Bytes) (fileKey : key256) (nonce aad : Bytes) :
    Eff Lib EncryptedChunk := withContext do
  let plaintextSize ← intSize plaintext.length "plaintext"
  initializedContext ssl .encrypt fileKey nonce
  updateAad ssl aad "AAD"
  let ciphertext ← updateText ssl .encrypt plaintext
  let final ← require ssl (.final .encrypt)
  throwIf (ciphertext.length + final.length ≠ plaintextSize) cipherFailure
  let tag ← require ssl .getTag
  return { ciphertext := ciphertext ++ final, tag := ByteArr.ofBytes kTagSize tag }

/-- `decrypt_chunk` -/
def decryptChunk (ciphertext : Bytes) (tag : ByteArr kTagSize) (fileKey : key256)
    (nonce aad : Bytes) : Eff Lib Bytes := withContext do
  let ciphertextSize ← intSize ciphertext.length "ciphertext"
  initializedContext ssl .decrypt fileKey nonce
  updateAad ssl aad "AAD"
  let plaintext ← updateText ssl .decrypt ciphertext
  let _ ← require ssl (.setTag tag)
  let final ← orThrow authenticationFailed (← cipher ssl (.final .decrypt))
  throwIf (plaintext.length + final.length ≠ ciphertextSize) cipherFailure
  return plaintext ++ final

end Chunks

/-! ## Headers as concatenations of their fields -/

/-- The bytes of an `SKF1` header, field by field. -/
def headerBytes (salt : ByteArr kSaltSize) (noncePrefix : ByteArr kNoncePrefixSize) : Bytes :=
  (kMagic : Bytes) ++ [kVersion] ++ [kAlgorithm] ++ (be32 kChunkSize : Bytes) ++ (salt : Bytes) ++
    (noncePrefix : Bytes)

/-- The bytes of an `SKP1` header, field by field. -/
def passwordHeaderBytes (salt : ByteArr kSaltSize) (noncePrefix : ByteArr kNoncePrefixSize) :
    Bytes :=
  (kPasswordMagic : Bytes) ++ [kVersion] ++ [kPasswordCipherAes256Gcm] ++ [kPasswordKdfScrypt] ++
    [kPasswordFlagsNone] ++ (be32 kChunkSize : Bytes) ++ (salt : Bytes) ++ (noncePrefix : Bytes) ++
    (be32 kScryptN : Bytes) ++ (be32 kScryptR : Bytes) ++ (be32 kScryptP : Bytes)

/-- The `SKF1` header with the given salt and nonce prefix. -/
def fileHeader (salt : ByteArr kSaltSize) (noncePrefix : ByteArr kNoncePrefixSize) : FileHeader :=
  { serialized := ⟨headerBytes salt noncePrefix, by simp [headerBytes, kHeaderSize, kSaltSize,
      kNoncePrefixSize]⟩, salt, noncePrefix }

/-- The `SKP1` header with the given salt and nonce prefix. -/
def passwordFileHeader (salt : ByteArr kSaltSize) (noncePrefix : ByteArr kNoncePrefixSize) :
    PasswordFileHeader :=
  { serialized := ⟨passwordHeaderBytes salt noncePrefix, by simp [passwordHeaderBytes,
      kPasswordHeaderSize, kSaltSize, kNoncePrefixSize]⟩, salt, noncePrefix }

section HeaderSpec

variable {ssl : Openssl} {prim : Primitives} {cap : ℕ} {lib : Lib}

/-- The stores of `makeHeader` lie side by side from the start of the array to its end. -/
lemma makeHeader_layout (salt : ByteArr kSaltSize) (noncePrefix : ByteArr kNoncePrefixSize) :
    ((((((ByteArr.zeros kHeaderSize).store 0 kMagic).store 4 (ByteArr.single kVersion)).store 5
      (ByteArr.single kAlgorithm)).store 6 (be32 kChunkSize)).store 10 salt).store 42 noncePrefix =
      (fileHeader salt noncePrefix).serialized := by
  apply ByteArr.ext
  have h0 := ByteArr.coe_zeros kHeaderSize
  have h1 := ByteArr.store_fill kMagic (show 0 + 4 ≤ kHeaderSize by decide) h0 rfl
  have h2 := ByteArr.store_fill (ByteArr.single kVersion)
    (show 4 + 1 ≤ kHeaderSize by decide) h1 rfl
  have h3 := ByteArr.store_fill (ByteArr.single kAlgorithm)
    (show 5 + 1 ≤ kHeaderSize by decide) h2 rfl
  have h4 := ByteArr.store_fill (be32 kChunkSize) (show 6 + 4 ≤ kHeaderSize by decide) h3 rfl
  have h5 := ByteArr.store_fill salt (show 10 + kSaltSize ≤ kHeaderSize by decide) h4 rfl
  have h6 := ByteArr.store_fill noncePrefix
    (show 42 + kNoncePrefixSize ≤ kHeaderSize by decide) h5 (by simp [kSaltSize])
  rw [h6]
  simp [fileHeader, headerBytes, kHeaderSize, kSaltSize, kNoncePrefixSize]

/-- The stores of `makePasswordHeader` lie side by side from the start of the array to its end. -/
lemma makePasswordHeader_layout (salt : ByteArr kSaltSize)
    (noncePrefix : ByteArr kNoncePrefixSize) :
    (((((((((((ByteArr.zeros kPasswordHeaderSize).store 0 kPasswordMagic).store 4
      (ByteArr.single kVersion)).store 5 (ByteArr.single kPasswordCipherAes256Gcm)).store 6
      (ByteArr.single kPasswordKdfScrypt)).store 7 (ByteArr.single kPasswordFlagsNone)).store 8
      (be32 kChunkSize)).store 12 salt).store 44 noncePrefix).store 52 (be32 kScryptN)).store 56
      (be32 kScryptR)).store 60 (be32 kScryptP) =
      (passwordFileHeader salt noncePrefix).serialized := by
  apply ByteArr.ext
  have h0 := ByteArr.coe_zeros kPasswordHeaderSize
  have h1 := ByteArr.store_fill kPasswordMagic
    (show 0 + 4 ≤ kPasswordHeaderSize by decide) h0 rfl
  have h2 := ByteArr.store_fill (ByteArr.single kVersion)
    (show 4 + 1 ≤ kPasswordHeaderSize by decide) h1 rfl
  have h3 := ByteArr.store_fill (ByteArr.single kPasswordCipherAes256Gcm)
    (show 5 + 1 ≤ kPasswordHeaderSize by decide) h2 rfl
  have h4 := ByteArr.store_fill (ByteArr.single kPasswordKdfScrypt)
    (show 6 + 1 ≤ kPasswordHeaderSize by decide) h3 rfl
  have h5 := ByteArr.store_fill (ByteArr.single kPasswordFlagsNone)
    (show 7 + 1 ≤ kPasswordHeaderSize by decide) h4 rfl
  have h6 := ByteArr.store_fill (be32 kChunkSize)
    (show 8 + 4 ≤ kPasswordHeaderSize by decide) h5 rfl
  have h7 := ByteArr.store_fill salt
    (show 12 + kSaltSize ≤ kPasswordHeaderSize by decide) h6 rfl
  have h8 := ByteArr.store_fill noncePrefix
    (show 44 + kNoncePrefixSize ≤ kPasswordHeaderSize by decide) h7 (by simp [kSaltSize])
  have h9 := ByteArr.store_fill (be32 kScryptN)
    (show 52 + 4 ≤ kPasswordHeaderSize by decide) h8 (by simp [kSaltSize, kNoncePrefixSize])
  have h10 := ByteArr.store_fill (be32 kScryptR)
    (show 56 + 4 ≤ kPasswordHeaderSize by decide) h9 (by simp [kSaltSize, kNoncePrefixSize])
  have h11 := ByteArr.store_fill (be32 kScryptP)
    (show 60 + 4 ≤ kPasswordHeaderSize by decide) h10 (by simp [kSaltSize, kNoncePrefixSize])
  rw [h11]
  simp [passwordFileHeader, passwordHeaderBytes, kPasswordHeaderSize, kSaltSize, kNoncePrefixSize]

/-- `makeHeader` makes the header of a salt and a nonce prefix it has drawn. -/
lemma outcome_makeHeader {Q : FileHeader → Lib → Prop} {E : Error → Lib → Prop}
    (hok : ∀ salt noncePrefix lib', ssl.Draws salt → ssl.Draws noncePrefix →
      Q (fileHeader salt noncePrefix) lib')
    (hfail : ¬ ssl.Available prim cap → ∀ lib', E randFailure lib') :
    Outcome (makeHeader ssl) lib Q E := by
  simp only [makeHeader, outcome_bind, outcome_pure, makeHeader_layout]
  refine outcome_randomBytes_drawn (by decide) (by decide) (fun salt lib₁ hsalt => ?_) hfail
  refine outcome_randomBytes_drawn (by decide) (by decide) (fun noncePrefix lib₂ hnonce => ?_) hfail
  exact hok salt noncePrefix lib₂ hsalt hnonce

lemma outcome_makePasswordHeader {Q : PasswordFileHeader → Lib → Prop} {E : Error → Lib → Prop}
    (hok : ∀ salt noncePrefix lib', ssl.Draws salt → ssl.Draws noncePrefix →
      Q (passwordFileHeader salt noncePrefix) lib')
    (hfail : ¬ ssl.Available prim cap → ∀ lib', E randFailure lib') :
    Outcome (makePasswordHeader ssl) lib Q E := by
  simp only [makePasswordHeader, outcome_bind, outcome_pure]
  refine outcome_randomBytes_drawn (by decide) (by decide) (fun salt lib₁ hsalt => ?_) hfail
  refine outcome_randomBytes_drawn (by decide) (by decide) (fun noncePrefix lib₂ hnonce => ?_) hfail
  have hlayout := makePasswordHeader_layout salt noncePrefix
  simp only [kScryptN, kScryptR, kScryptP] at hlayout
  rw [hlayout]
  exact hok salt noncePrefix lib₂ hsalt hnonce

/-- An array is its first six fields, cut at the offsets of `parseHeader`. -/
lemma header_slices (data : ByteArr kHeaderSize) :
    (data : Bytes) = (data.slice 0 4 : Bytes) ++ [data.byteAt 4] ++ [data.byteAt 5] ++
      (data.slice 6 4 : Bytes) ++ (data.slice 10 kSaltSize : Bytes) ++
      (data.slice 42 kNoncePrefixSize : Bytes) := by
  have h4 : (data.slice 0 4 : Bytes) ++ data.slice 4 1 = data.slice 0 5 :=
    data.slice_append_slice 0 4 1 _ _ _
  have h5 : (data.slice 0 5 : Bytes) ++ data.slice 5 1 = data.slice 0 6 :=
    data.slice_append_slice 0 5 1 _ _ _
  have h6 : (data.slice 0 6 : Bytes) ++ data.slice 6 4 = data.slice 0 10 :=
    data.slice_append_slice 0 6 4 _ _ _
  have h10 : (data.slice 0 10 : Bytes) ++ data.slice 10 kSaltSize = data.slice 0 42 :=
    data.slice_append_slice 0 10 kSaltSize _ _ _
  have h42 : (data.slice 0 42 : Bytes) ++ data.slice 42 kNoncePrefixSize = data.slice 0 kHeaderSize :=
    data.slice_append_slice 0 42 kNoncePrefixSize _ _ _
  rw [data.byteAt_eq_slice 4, data.byteAt_eq_slice 5, h4, h5, h6, h10, h42, data.slice_all]

lemma passwordHeader_slices (data : ByteArr kPasswordHeaderSize) :
    (data : Bytes) = (data.slice 0 4 : Bytes) ++ [data.byteAt 4] ++ [data.byteAt 5] ++
      [data.byteAt 6] ++ [data.byteAt 7] ++ (data.slice 8 4 : Bytes) ++
      (data.slice 12 kSaltSize : Bytes) ++ (data.slice 44 kNoncePrefixSize : Bytes) ++
      (data.slice 52 4 : Bytes) ++ (data.slice 56 4 : Bytes) ++ (data.slice 60 4 : Bytes) := by
  have h4 : (data.slice 0 4 : Bytes) ++ data.slice 4 1 = data.slice 0 5 :=
    data.slice_append_slice 0 4 1 _ _ _
  have h5 : (data.slice 0 5 : Bytes) ++ data.slice 5 1 = data.slice 0 6 :=
    data.slice_append_slice 0 5 1 _ _ _
  have h6 : (data.slice 0 6 : Bytes) ++ data.slice 6 1 = data.slice 0 7 :=
    data.slice_append_slice 0 6 1 _ _ _
  have h7 : (data.slice 0 7 : Bytes) ++ data.slice 7 1 = data.slice 0 8 :=
    data.slice_append_slice 0 7 1 _ _ _
  have h8 : (data.slice 0 8 : Bytes) ++ data.slice 8 4 = data.slice 0 12 :=
    data.slice_append_slice 0 8 4 _ _ _
  have h12 : (data.slice 0 12 : Bytes) ++ data.slice 12 kSaltSize = data.slice 0 44 :=
    data.slice_append_slice 0 12 kSaltSize _ _ _
  have h44 : (data.slice 0 44 : Bytes) ++ data.slice 44 kNoncePrefixSize = data.slice 0 52 :=
    data.slice_append_slice 0 44 kNoncePrefixSize _ _ _
  have h52 : (data.slice 0 52 : Bytes) ++ data.slice 52 4 = data.slice 0 56 :=
    data.slice_append_slice 0 52 4 _ _ _
  have h56 : (data.slice 0 56 : Bytes) ++ data.slice 56 4 = data.slice 0 60 :=
    data.slice_append_slice 0 56 4 _ _ _
  have h60 : (data.slice 0 60 : Bytes) ++ data.slice 60 4 = data.slice 0 kPasswordHeaderSize :=
    data.slice_append_slice 0 60 4 _ _ _
  rw [data.byteAt_eq_slice 4, data.byteAt_eq_slice 5, data.byteAt_eq_slice 6,
    data.byteAt_eq_slice 7, h4, h5, h6, h7, h8, h12, h44, h52, h56, h60, data.slice_all]

/-- An array is a header exactly if `parseHeader` finds each field at its offset. -/
lemma header_fields (data : ByteArr kHeaderSize) (salt : ByteArr kSaltSize)
    (noncePrefix : ByteArr kNoncePrefixSize) :
    data = (fileHeader salt noncePrefix).serialized ↔
      data.slice 0 4 = kMagic ∧ data.byteAt 4 = kVersion ∧ data.byteAt 5 = kAlgorithm ∧
        data.slice 6 4 = be32 kChunkSize ∧ data.slice 10 kSaltSize = salt ∧
        data.slice 42 kNoncePrefixSize = noncePrefix := by
  have hbytes : ((fileHeader salt noncePrefix).serialized : Bytes) =
    headerBytes salt noncePrefix := rfl
  rw [ByteArr.ext_iff, hbytes, header_slices data, headerBytes]
  constructor
  · intro h
    obtain ⟨h, hnonce⟩ := List.append_inj' h (by simp [kNoncePrefixSize])
    obtain ⟨h, hsalt⟩ := List.append_inj' h (by simp [kSaltSize])
    obtain ⟨h, hsize⟩ := List.append_inj' h (by simp)
    obtain ⟨h, halgorithm⟩ := List.append_inj' h rfl
    obtain ⟨hmagic, hversion⟩ := List.append_inj' h rfl
    exact ⟨ByteArr.ext hmagic, List.singleton_inj.mp hversion, List.singleton_inj.mp halgorithm,
      ByteArr.ext hsize, ByteArr.ext hsalt, ByteArr.ext hnonce⟩
  · rintro ⟨hmagic, hversion, halgorithm, hsize, rfl, rfl⟩
    rw [hmagic, hversion, halgorithm, hsize]

lemma passwordHeader_fields (data : ByteArr kPasswordHeaderSize) (salt : ByteArr kSaltSize)
    (noncePrefix : ByteArr kNoncePrefixSize) :
    data = (passwordFileHeader salt noncePrefix).serialized ↔
      data.slice 0 4 = kPasswordMagic ∧ data.byteAt 4 = kVersion ∧
        data.byteAt 5 = kPasswordCipherAes256Gcm ∧ data.byteAt 6 = kPasswordKdfScrypt ∧
        data.byteAt 7 = kPasswordFlagsNone ∧ data.slice 8 4 = be32 kChunkSize ∧
        data.slice 12 kSaltSize = salt ∧ data.slice 44 kNoncePrefixSize = noncePrefix ∧
        data.slice 52 4 = be32 kScryptN ∧ data.slice 56 4 = be32 kScryptR ∧
        data.slice 60 4 = be32 kScryptP := by
  have hbytes : ((passwordFileHeader salt noncePrefix).serialized : Bytes) =
    passwordHeaderBytes salt noncePrefix := rfl
  rw [ByteArr.ext_iff, hbytes, passwordHeader_slices data, passwordHeaderBytes]
  constructor
  · intro h
    obtain ⟨h, hp⟩ := List.append_inj' h (by simp)
    obtain ⟨h, hr⟩ := List.append_inj' h (by simp)
    obtain ⟨h, hn⟩ := List.append_inj' h (by simp)
    obtain ⟨h, hnonce⟩ := List.append_inj' h (by simp [kNoncePrefixSize])
    obtain ⟨h, hsalt⟩ := List.append_inj' h (by simp [kSaltSize])
    obtain ⟨h, hsize⟩ := List.append_inj' h (by simp)
    obtain ⟨h, hflags⟩ := List.append_inj' h rfl
    obtain ⟨h, hkdf⟩ := List.append_inj' h rfl
    obtain ⟨h, hcipher⟩ := List.append_inj' h rfl
    obtain ⟨hmagic, hversion⟩ := List.append_inj' h rfl
    exact ⟨ByteArr.ext hmagic, List.singleton_inj.mp hversion, List.singleton_inj.mp hcipher,
      List.singleton_inj.mp hkdf, List.singleton_inj.mp hflags, ByteArr.ext hsize,
      ByteArr.ext hsalt, ByteArr.ext hnonce, ByteArr.ext hn, ByteArr.ext hr, ByteArr.ext hp⟩
  · rintro ⟨hmagic, hversion, hcipher, hkdf, hflags, hsize, rfl, rfl, hn, hr, hp⟩
    rw [hmagic, hversion, hcipher, hkdf, hflags, hsize, hn, hr, hp]

/-- `parseHeader` reads back the header of any salt and nonce prefix. -/
lemma parseHeader_fileHeader (salt : ByteArr kSaltSize) (noncePrefix : ByteArr kNoncePrefixSize) :
    parseHeader (fileHeader salt noncePrefix).serialized = .ok (fileHeader salt noncePrefix) := by
  obtain ⟨hmagic, hversion, halgorithm, hsize, hsalt, hnonce⟩ :=
    (header_fields _ salt noncePrefix).mp rfl
  rw [parseHeader, if_neg (by simp [hmagic, hversion, halgorithm]), if_neg (by simp [hsize]),
    hsalt, hnonce]
  rfl

lemma parsePasswordHeader_passwordFileHeader (salt : ByteArr kSaltSize)
    (noncePrefix : ByteArr kNoncePrefixSize) :
    parsePasswordHeader (passwordFileHeader salt noncePrefix).serialized =
      .ok (passwordFileHeader salt noncePrefix) := by
  obtain ⟨hmagic, hversion, hcipher, hkdf, hflags, hsize, hsalt, hnonce, hn, hr, hp⟩ :=
    (passwordHeader_fields _ salt noncePrefix).mp rfl
  rw [parsePasswordHeader, if_neg (by simp [hmagic, hversion, hcipher, hkdf, hflags]),
    if_neg (by simp [hsize])]
  simp only [hsalt, hnonce, hn, hr, hp, ofBe32_be32]
  rfl

/-- What `parseHeader` accepts is the header of some salt and nonce prefix. -/
lemma eq_fileHeader_of_parseHeader {data : ByteArr kHeaderSize} {header : FileHeader}
    (h : parseHeader data = .ok header) :
    ∃ salt noncePrefix, header = fileHeader salt noncePrefix ∧
      data = (fileHeader salt noncePrefix).serialized := by
  unfold parseHeader at h
  split at h
  · cases h
  · rename_i hfixed
    split at h
    · cases h
    · rename_i hsize
      push Not at hfixed hsize
      have hdata : data =
          (fileHeader (data.slice 10 kSaltSize) (data.slice 42 kNoncePrefixSize)).serialized := by
        refine (header_fields _ _ _).mpr ⟨hfixed.1, hfixed.2.1, hfixed.2.2, ?_, rfl, rfl⟩
        rw [← hsize, be32_ofBe32]
      refine ⟨data.slice 10 kSaltSize, data.slice 42 kNoncePrefixSize, ?_, hdata⟩
      cases h
      exact congrArg (FileHeader.mk · (data.slice 10 kSaltSize) (data.slice 42 kNoncePrefixSize))
        hdata

lemma eq_passwordFileHeader_of_parsePasswordHeader {data : ByteArr kPasswordHeaderSize}
    {header : PasswordFileHeader} (h : parsePasswordHeader data = .ok header) :
    ∃ salt noncePrefix, header = passwordFileHeader salt noncePrefix ∧
      data = (passwordFileHeader salt noncePrefix).serialized := by
  unfold parsePasswordHeader at h
  split at h
  · cases h
  · rename_i hfixed
    split at h
    · cases h
    · rename_i hsize
      simp only at h
      split at h
      · cases h
      · rename_i hscrypt
        push Not at hfixed hsize hscrypt
        obtain ⟨hmagic, hversion, hcipher, hkdf, hflags⟩ := hfixed
        obtain ⟨hn, hr, hp⟩ := hscrypt
        have hdata : data =
            (passwordFileHeader (data.slice 12 kSaltSize) (data.slice 44 kNoncePrefixSize)).serialized := by
          refine (passwordHeader_fields _ _ _).mpr
            ⟨hmagic, hversion, hcipher, hkdf, hflags, ?_, rfl, rfl, ?_, ?_, ?_⟩
          · rw [← hsize, be32_ofBe32]
          · rw [← hn, be32_ofBe32]
          · rw [← hr, be32_ofBe32]
          · rw [← hp, be32_ofBe32]
        refine ⟨data.slice 12 kSaltSize, data.slice 44 kNoncePrefixSize, ?_, hdata⟩
        cases h
        rw [hn, hr, hp]
        exact congrArg (PasswordFileHeader.mk · (data.slice 12 kSaltSize)
          (data.slice 44 kNoncePrefixSize) kScryptN kScryptR kScryptP) hdata

lemma parseHeader_error {data : ByteArr kHeaderSize} {e : Error}
    (h : parseHeader data = .error e) : e = invalidPacket := by
  unfold parseHeader at h
  split at h
  · cases h; rfl
  · split at h <;> cases h
    rfl

lemma parsePasswordHeader_error {data : ByteArr kPasswordHeaderSize} {e : Error}
    (h : parsePasswordHeader data = .error e) : e = invalidPacket := by
  unfold parsePasswordHeader at h
  split at h
  · cases h; rfl
  · split at h
    · cases h; rfl
    · simp only at h
      split at h <;> cases h
      rfl

/-! ## Key derivation -/

/-- The key of an `SKF1` file, from the master key and the salt of the header. -/
def fileKey (prim : Primitives) (masterKey : key256) (salt : ByteArr kSaltSize) : key256 :=
  prim.hkdf masterKey salt (bytesFromLiteral "securekit file sealing v1") 32

/-- The key of an `SKP1` file, from the password and the salt of the header. -/
def passwordFileKey (prim : Primitives) (password : Bytes) (salt : ByteArr kSaltSize) : key256 :=
  prim.scrypt password salt kScryptN kScryptR kScryptP kScryptMaxMemory 32

lemma outcome_deriveFileKey (hs : ssl.Sound prim) {masterKey : key256}
    {salt : ByteArr kSaltSize} {noncePrefix : ByteArr kNoncePrefixSize}
    {Q : key256 → Lib → Prop} {E : Error → Lib → Prop}
    (hok : ∀ lib', Q (fileKey prim masterKey salt) lib')
    (hfail : ¬ ssl.Available prim cap → ∀ lib', E hkdfFailure lib') :
    Outcome (deriveFileKey ssl masterKey (fileHeader salt noncePrefix)) lib Q E :=
  outcome_hkdfSha256 hs (by decide) (by decide) hok hfail

/-- The scrypt parameters of the format are within what OpenSSL accepts. -/
lemma scryptAdmissible : ScryptAdmissible kScryptN kScryptR kScryptP kScryptMaxMemory :=
  ⟨⟨15, by decide⟩, by decide, by decide, by decide⟩

lemma outcome_derivePasswordFileKey (hs : ssl.Sound prim) {password : Bytes}
    {salt : ByteArr kSaltSize} {noncePrefix : ByteArr kNoncePrefixSize}
    {Q : key256 → Lib → Prop} {E : Error → Lib → Prop} (hpassword : password ≠ [])
    (hok : ∀ lib', Q (passwordFileKey prim password salt) lib')
    (hfail : ¬ ssl.Available prim cap → ∀ lib', E scryptFailure lib') :
    Outcome (derivePasswordFileKey ssl password (passwordFileHeader salt noncePrefix)) lib Q E := by
  simp only [derivePasswordFileKey, requireNonEmptyPassword, outcome_bind, outcome_throwIf,
    outcome_call]
  refine ⟨fun h => absurd h hpassword, fun _ => ?_⟩
  generalize hanswer : ssl.scrypt lib.clock password _ _ _ _ _ _ = answer
  cases answer with
  | none => exact hfail (fun ha => ha.scrypt _ _ _ _ _ _ _ _ scryptAdmissible hanswer) _
  | some out =>
    rw [hs.scrypt _ _ _ _ _ _ _ _ _ hanswer]
    exact hok _

end HeaderSpec

/-! ## Records as concatenations -/

section RecordSpec

lemma coe_makeNonce (noncePrefix : ByteArr kNoncePrefixSize) (index : UInt32) :
    (makeNonce noncePrefix index : Bytes) = (noncePrefix : Bytes) ++ be32 index := by
  have h0 := ByteArr.coe_zeros kNonceSize
  have h1 := ByteArr.store_fill noncePrefix
    (show 0 + kNoncePrefixSize ≤ kNonceSize by decide) h0 rfl
  have h2 := ByteArr.store_fill (be32 index) (show 8 + 4 ≤ kNonceSize by decide) h1
    (by simp [kNoncePrefixSize])
  rw [makeNonce, h2]
  simp [kNonceSize, kNoncePrefixSize]

lemma makeNonce_injective {noncePrefix : ByteArr kNoncePrefixSize} {i j : UInt32}
    (h : makeNonce noncePrefix i = makeNonce noncePrefix j) : i = j := by
  have hbytes := congrArg ByteArr.toBytes h
  rw [coe_makeNonce, coe_makeNonce] at hbytes
  exact be32_injective (ByteArr.ext (List.append_cancel_left hbytes))

lemma coe_makeRecordHeader (index plaintextSize : UInt32) (finalFlag : UInt8) :
    ((makeRecordHeader index plaintextSize finalFlag).serialized : Bytes) =
      (be32 index : Bytes) ++ be32 plaintextSize ++ [finalFlag] := by
  have h0 := ByteArr.coe_zeros kRecordHeaderSize
  have h1 := ByteArr.store_fill (be32 index) (show 0 + 4 ≤ kRecordHeaderSize by decide) h0 rfl
  have h2 := ByteArr.store_fill (be32 plaintextSize)
    (show 4 + 4 ≤ kRecordHeaderSize by decide) h1 rfl
  have h3 := ByteArr.store_fill (ByteArr.single finalFlag)
    (show 8 + 1 ≤ kRecordHeaderSize by decide) h2 rfl
  rw [makeRecordHeader, h3]
  simp [kRecordHeaderSize]

@[simp] lemma makeRecordHeader_index (index size : UInt32) (flag : UInt8) :
    (makeRecordHeader index size flag).index = index := rfl

@[simp] lemma makeRecordHeader_plaintextSize (index size : UInt32) (flag : UInt8) :
    (makeRecordHeader index size flag).plaintextSize = size := rfl

@[simp] lemma makeRecordHeader_finalFlag (index size : UInt32) (flag : UInt8) :
    (makeRecordHeader index size flag).finalFlag = flag := rfl

/-- The nine bytes of a record header are its three fields. -/
lemma makeRecordHeader_serialized_eq_iff (data : ByteArr kRecordHeaderSize)
    (index plaintextSize : UInt32) (finalFlag : UInt8) :
    data = (makeRecordHeader index plaintextSize finalFlag).serialized ↔
      ofBe32 (data.slice 0 4) = index ∧ ofBe32 (data.slice 4 4) = plaintextSize ∧
        data.byteAt 8 = finalFlag := by
  have h4 : (data.slice 0 4 : Bytes) ++ data.slice 4 4 = data.slice 0 8 :=
    data.slice_append_slice 0 4 4 _ _ _
  have h8 : (data.slice 0 8 : Bytes) ++ data.slice 8 1 = data.slice 0 kRecordHeaderSize :=
    data.slice_append_slice 0 8 1 _ _ _
  have hdata : (data : Bytes) = (data.slice 0 4 : Bytes) ++ data.slice 4 4 ++ [data.byteAt 8] := by
    rw [data.byteAt_eq_slice 8, h4, h8, data.slice_all]
  rw [ByteArr.ext_iff, coe_makeRecordHeader, hdata]
  constructor
  · intro h
    obtain ⟨h, hflag⟩ := List.append_inj' h rfl
    obtain ⟨hindex, hsize⟩ := List.append_inj' h (by simp)
    refine ⟨?_, ?_, List.singleton_inj.mp hflag⟩
    · rw [ByteArr.ext hindex, ofBe32_be32]
    · rw [ByteArr.ext hsize, ofBe32_be32]
  · rintro ⟨rfl, rfl, rfl⟩
    rw [be32_ofBe32, be32_ofBe32]

/-- A record header `parseRecordHeader` lets through. -/
def AdmissibleRecord (plaintextSize : UInt32) (finalFlag : UInt8) : Prop :=
  (finalFlag = kNotFinal ∨ finalFlag = kFinal) ∧ plaintextSize ≤ kChunkSize

/-- `parseRecordHeader` reads back the admissible record headers. -/
lemma parseRecordHeader_makeRecordHeader {index plaintextSize : UInt32} {finalFlag : UInt8}
    (h : AdmissibleRecord plaintextSize finalFlag) :
    parseRecordHeader (makeRecordHeader index plaintextSize finalFlag).serialized =
      .ok (makeRecordHeader index plaintextSize finalFlag) := by
  obtain ⟨hindex, hsize, hflag⟩ :=
    (makeRecordHeader_serialized_eq_iff _ index plaintextSize finalFlag).mp rfl
  obtain ⟨hflags, hle⟩ := h
  simp only [parseRecordHeader, hindex, hsize, hflag]
  rw [if_neg (by tauto), if_neg (by simpa using hle)]
  rfl

/-- What `parseRecordHeader` accepts is an admissible record header. -/
lemma eq_makeRecordHeader_of_parseRecordHeader {data : ByteArr kRecordHeaderSize}
    {record : RecordHeader} (h : parseRecordHeader data = .ok record) :
    ∃ index plaintextSize finalFlag, AdmissibleRecord plaintextSize finalFlag ∧
      record = makeRecordHeader index plaintextSize finalFlag ∧ data = record.serialized := by
  simp only [parseRecordHeader] at h
  split at h
  · cases h
  · rename_i hflag
    split at h
    · cases h
    · rename_i hsize
      have hdata := (makeRecordHeader_serialized_eq_iff data _ _ _).mpr ⟨rfl, rfl, rfl⟩
      refine ⟨ofBe32 (data.slice 0 4), ofBe32 (data.slice 4 4), data.byteAt 8,
        ⟨by tauto, UInt32.not_lt.mp hsize⟩, ?_, ?_⟩
      · cases h
        exact congrArg (RecordHeader.mk · (ofBe32 (data.slice 0 4)) (ofBe32 (data.slice 4 4))
          (data.byteAt 8)) hdata
      · cases h
        rfl

lemma parseRecordHeader_error {data : ByteArr kRecordHeaderSize} {e : Error}
    (h : parseRecordHeader data = .error e) : e = invalidPacket := by
  simp only [parseRecordHeader] at h
  split at h
  · cases h; rfl
  · split at h <;> cases h
    rfl

lemma length_makeChunkAad (header aad : Bytes) (record : RecordHeader) :
    (makeChunkAad header record aad).length =
      header.length + kRecordHeaderSize + aad.length := by
  simp [makeChunkAad, Nat.add_assoc]

end RecordSpec

/-! ## Chunks in terms of the primitives -/

section ChunkSpec

variable {ssl : Openssl} {prim : Primitives} {cap : ℕ} {lib : Lib} {key : key256}
  {nonce : Bytes} {aad : Bytes}

/-- What encryption of a chunk yields. -/
def chunkOf (gcm : AesGcm) (key : key256) (nonce aad plaintext : Bytes) : EncryptedChunk :=
  { ciphertext := gcm.encText key nonce plaintext, tag := gcm.tag key nonce aad plaintext }

lemma outcome_initializedContext (hs : ssl.Sound prim) (dir : Direction) {s : CipherState}
    {Q : Unit → CipherState → Prop} {E : Error → CipherState → Prop}
    (hok : ∀ ctx lib', stageOf ctx = some (.keyed { dir, key, nonce }) →
      Q () { context := some ctx, lib := lib' })
    (hfail : ¬ ssl.Available prim cap → ∀ s', E cipherFailure s') :
    Outcome (initializedContext ssl dir key nonce) s Q E := by
  simp only [initializedContext, outcome_bind, outcome_pure]
  refine outcome_makeContext (fun lib₁ => ?_) hfail
  refine outcome_require hs rfl stageOf_nil rfl (Nat.zero_le _) (Nat.zero_le _) rfl
    (fun ctx₂ lib₂ h₂ => ?_) hfail
  refine outcome_require hs rfl h₂ rfl (Nat.zero_le _) (Nat.zero_le _) rfl
    (fun ctx₃ lib₃ h₃ => ?_) hfail
  have hnext : (Stage.sized dir nonce.length).next (.initKey dir key nonce) =
      some (.keyed { dir, key, nonce }) := by simp [Stage.next]
  exact outcome_require hs rfl h₃ hnext (Nat.zero_le _) (Nat.zero_le _) rfl
    (fun ctx₄ lib₄ h₄ => hok ctx₄ lib₄ h₄) hfail

/-- The text goes through the context in one call or, if empty, in none. -/
lemma outcome_updateText (hs : ssl.Sound prim) {s : CipherState} {ctx : CipherCtx}
    {session : Session} {data out : Bytes} {Q : Bytes → CipherState → Prop}
    {E : Error → CipherState → Prop} (hctx : s.context = some ctx)
    (hstage : stageOf ctx = some (.keyed session)) (htext : session.text = [])
    (hcap : data.length ≤ cap) (hsize : data.length ≤ intMax)
    (hexp : prim.gcm.expected (.keyed session) (.update session.dir data) = some out)
    (hlen : out.length = data.length)
    (hok : ∀ ctx' lib', stageOf ctx' = some (.keyed { session with text := data }) →
      Q out { context := some ctx', lib := lib' })
    (hfail : ¬ ssl.Available prim cap → ∀ s', E cipherFailure s') :
    Outcome (updateText ssl session.dir data) s Q E := by
  unfold updateText
  by_cases hnil : data = []
  · have hout : out = [] := List.length_eq_zero_iff.mp (by rw [hlen, hnil]; rfl)
    obtain ⟨context, lib⟩ := s
    obtain rfl : context = some ctx := hctx
    have hsame : ({ session with text := data } : Session) = session := by rw [hnil, ← htext]
    rw [if_neg (by simp [hnil]), outcome_pure, ← hout]
    exact hok ctx lib (by rw [hsame, hstage])
  · have hnext : (Stage.keyed session).next (.update session.dir data) =
        some (.keyed { session with text := data }) := by
      simp [Stage.next, htext]
    rw [if_pos (List.length_pos_iff.mpr hnil)]
    exact outcome_require hs hctx hstage hnext hcap hsize hexp hok hfail

/-- **`encryptChunk`** returns ciphertext and tag of the chunk.  It throws only where the
additional data is too long or the library is not available. -/
lemma outcome_encryptChunk (hs : ssl.Sound prim) (hl : prim.gcm.Lengths) {plaintext : Bytes}
    {Q : EncryptedChunk → Lib → Prop} {E : Error → Lib → Prop}
    (hsize : plaintext.length ≤ intMax) (hcap : plaintext.length ≤ cap)
    (hok : aad.length ≤ intMax → ∀ lib', Q (chunkOf prim.gcm key nonce aad plaintext) lib')
    (hlong : intMax < aad.length → ∀ lib', E (updateLimitError "AAD") lib')
    (hfail : ¬ ssl.Available prim cap → ∀ lib', E cipherFailure lib') :
    Outcome (encryptChunk ssl plaintext key nonce aad) lib Q E := by
  have hlen := hl.length_encText key nonce plaintext
  simp only [encryptChunk, outcome_withContext, outcome_bind, outcome_intSize, outcome_throwIf,
    outcome_pure]
  refine ⟨fun h => absurd hsize (by omega), fun _ => ?_⟩
  refine outcome_initializedContext hs .encrypt (fun ctx₁ lib₁ h₁ => ?_) fun h s' => hfail h s'.lib
  refine outcome_updateAad hs rfl h₁ rfl (fun haad ctx₂ lib₂ h₂ => ?_) (fun h => hlong h _)
    fun h s' => hfail h s'.lib
  refine outcome_updateText hs rfl h₂ rfl hcap hsize rfl (by simpa using hlen)
    (fun ctx₃ lib₃ h₃ => ?_) fun h s' => hfail h s'.lib
  refine outcome_require hs rfl h₃ rfl hcap (Nat.zero_le _) rfl (fun ctx₄ lib₄ h₄ => ?_)
    fun h s' => hfail h s'.lib
  refine ⟨fun h => absurd h (by simpa using hlen), fun _ => ?_⟩
  refine outcome_require hs rfl h₄ rfl hcap (Nat.zero_le _) rfl (fun ctx₅ lib₅ h₅ => ?_)
    fun h s' => hfail h s'.lib
  have htag : ByteArr.ofBytes kTagSize (prim.gcm.tag key nonce aad plaintext : Bytes) =
      prim.gcm.tag key nonce aad plaintext := ByteArr.ofBytes_coe _
  simpa [chunkOf, htag] using hok haad lib₅

/-- **`decryptChunk`** returns the decrypted chunk only if the tag verifies.  It reports a failed
authentication only if the tag does not verify or the library is not available, and throws
otherwise only where the additional data is too long or the library is not available. -/
lemma outcome_decryptChunk (hs : ssl.Sound prim) (hl : prim.gcm.Lengths) {ciphertext : Bytes}
    {tag : ByteArr kTagSize} {Q : Bytes → Lib → Prop} {E : Error → Lib → Prop}
    (hsize : ciphertext.length ≤ intMax) (hcap : ciphertext.length ≤ cap)
    (hok : aad.length ≤ intMax → prim.gcm.verify key nonce aad ciphertext tag = true →
      ∀ lib', Q (prim.gcm.decText key nonce ciphertext) lib')
    (hlong : intMax < aad.length → ∀ lib', E (updateLimitError "AAD") lib')
    (htag : aad.length ≤ intMax →
      prim.gcm.verify key nonce aad ciphertext tag = false ∨ ¬ ssl.Available prim cap →
      ∀ lib', E authenticationFailed lib')
    (hfail : ¬ ssl.Available prim cap → ∀ lib', E cipherFailure lib') :
    Outcome (decryptChunk ssl ciphertext tag key nonce aad) lib Q E := by
  have hlen := hl.length_decText key nonce ciphertext
  simp only [decryptChunk, outcome_withContext, outcome_bind, outcome_intSize, outcome_throwIf,
    outcome_pure]
  refine ⟨fun h => absurd hsize (by omega), fun _ => ?_⟩
  refine outcome_initializedContext hs .decrypt (fun ctx₁ lib₁ h₁ => ?_) fun h s' => hfail h s'.lib
  refine outcome_updateAad hs rfl h₁ rfl (fun haad ctx₂ lib₂ h₂ => ?_) (fun h => hlong h _)
    fun h s' => hfail h s'.lib
  refine outcome_updateText hs rfl h₂ rfl hcap hsize rfl (by simpa using hlen)
    (fun ctx₃ lib₃ h₃ => ?_) fun h s' => hfail h s'.lib
  refine outcome_require hs rfl h₃ rfl hcap (Nat.zero_le _) rfl (fun ctx₄ lib₄ h₄ => ?_)
    fun h s' => hfail h s'.lib
  -- The last call is the one that compares the tags.
  refine outcome_cipher hs rfl h₄ rfl hcap (Nat.zero_le _) (fun out ctx₅ lib₅ hexp h₅ => ?_)
    fun ctx₅ lib₅ hcause => ?_
  · have hverify : prim.gcm.verify key nonce aad ciphertext tag = true := by
      by_contra hcon
      simp [AesGcm.expected, hcon] at hexp
    have hout : out = [] := by simpa [AesGcm.expected, hverify] using hexp.symm
    subst hout
    rw [outcome_orThrow_some]
    exact ⟨fun h => absurd h (by simpa using hlen), fun _ => by
      simpa using hok haad hverify lib₅⟩
  · -- A failure there is reported as a bad tag, whatever its cause.
    rw [outcome_orThrow_none]
    refine htag haad (hcause.imp_left fun hnone => ?_) lib₅
    by_contra hcon
    simp [AesGcm.expected, hcon] at hnone

end ChunkSpec

end SecureKit.File
