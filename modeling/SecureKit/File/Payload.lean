import SecureKit.File.Stream

/-!
# Sealing and opening a file

`src/file.cpp`: `seal_stream_payload` and `open_file_payload`, which are templates over the
output, and the stream overloads of `seal_file`, `open_file`, `seal_file_with_password` and
`open_file_with_password`.

Each of the two loops is cut into the work of one round.  A round of sealing reads a chunk and
decides whether it is the last one (`readChunk`), then encrypts and writes it (`sealRecord`); a
round of opening reads and checks a record (`readRecord`), then decrypts it and writes the
plaintext (`openRecord`).  The flag a round returns is `wrote_final` or `saw_final`.  Wiping of
keys and plaintexts at the end of a scope is left out: nothing the model observes depends on it.

`FileFormat` has what distinguishes the two formats: the header with its codec and the derivation
of the file key from it.
-/

namespace SecureKit.File

open ByteString Effect Iostream Evp

/-- The error of `seal_stream_payload` behind the last index. -/
def tooLarge : Error := ⟨.invalid_input, "file is too large to seal"⟩

section Payload

variable (ssl : Openssl) {ω : Type} [Output ω]

/-! ## Sealing -/

/-- The reading half of a round of `seal_stream_payload`: the bytes that `in.read` put into the
buffer, and `is_final`.  As `gcount` is a length here, it is never negative. -/
def readChunk : Eff IStream (Bytes × Bool) := do
  let buffer ← IStream.readBytes kChunkSize.toNat
  let s ← IStream.flags
  throwIf (s.eofbit = false ∧ s.fail = true) readFailure
  let plaintextSize := UInt32.ofNat buffer.length
  if plaintextSize < kChunkSize then return (buffer, true)
  let next ← IStream.peekByte
  if next.isSome then return (buffer, false)
  let s ← IStream.flags
  throwIf (s.badbit = true) readFailure
  return (buffer, true)

/-- The writing half of a round of `seal_stream_payload`. -/
def sealRecord (serializedHeader : Bytes) (noncePrefix : ByteArr kNoncePrefixSize)
    (fileKey : key256) (aad : Bytes) (chunkIndex : UInt32) (plaintext : Bytes) (isFinal : Bool) :
    Eff (World ω) Unit := do
  let plaintextSize := UInt32.ofNat plaintext.length
  let record := makeRecordHeader chunkIndex plaintextSize (if isFinal then kFinal else kNotFinal)
  let nonce := makeNonce noncePrefix chunkIndex
  let chunkAad := makeChunkAad serializedHeader record aad
  let encrypted ← recordChunk ssl plaintext fileKey nonce chunkAad
  onOutput (writeAll record.serialized)
  onOutput (writeAll encrypted.ciphertext)
  onOutput (writeAll encrypted.tag)

/-- A round of `seal_stream_payload`. -/
def sealChunk (serializedHeader : Bytes) (noncePrefix : ByteArr kNoncePrefixSize)
    (fileKey : key256) (aad : Bytes) (chunkIndex : UInt32) : Eff (World ω) Bool := do
  let (plaintext, isFinal) ← onInput readChunk
  sealRecord ssl serializedHeader noncePrefix fileKey aad chunkIndex plaintext isFinal
  return isFinal

/-- The index behind a given one, which is not the last. -/
lemma toNat_add_one_of_ne {index : UInt32} (h : index ≠ uint32Max) :
    (index + 1).toNat = index.toNat + 1 := by
  have hlt := index.toNat_lt
  have hne : index.toNat ≠ 4294967295 := fun hcon => h (UInt32.toNat_inj.mp hcon)
  rw [UInt32.toNat_add, UInt32.toNat_one, Nat.mod_eq_of_lt (by omega)]

/-- The last index is the one that has no successor. -/
lemma ofNat_eq_uint32Max_iff {i : ℕ} (hi : i < 2 ^ 32) :
    UInt32.ofNat i = uint32Max ↔ ¬ i + 1 < 2 ^ 32 := by
  rw [← UInt32.toNat_inj, UInt32.toNat_ofNat_of_lt' hi]
  simp only [uint32Max, UInt32.reduceToNat]
  omega

/-- `while (!wrote_final)` of `seal_stream_payload`, from a given `chunk_index` on. -/
def sealLoop (serializedHeader : Bytes) (noncePrefix : ByteArr kNoncePrefixSize)
    (fileKey : key256) (aad : Bytes) (chunkIndex : UInt32) : Eff (World ω) Unit := do
  let wroteFinal ← sealChunk ssl serializedHeader noncePrefix fileKey aad chunkIndex
  if hlast : chunkIndex = uint32Max ∧ wroteFinal = false then throw tooLarge
  else if hfinal : wroteFinal = true then return
  else sealLoop serializedHeader noncePrefix fileKey aad (chunkIndex + 1)
termination_by 2 ^ 32 - chunkIndex.toNat
decreasing_by
  have hne : chunkIndex ≠ uint32Max := fun h => hlast ⟨h, by simpa using hfinal⟩
  have hlt := chunkIndex.toNat_lt
  rw [toNat_add_one_of_ne hne]
  omega

/-- `seal_stream_payload` -/
def sealStreamPayload (serializedHeader : Bytes) (noncePrefix : ByteArr kNoncePrefixSize)
    (fileKey : key256) (aad : Bytes) : Eff (World ω) Unit := do
  onOutput (writeAll serializedHeader)
  sealLoop ssl serializedHeader noncePrefix fileKey aad 0

/-! ## Opening -/

/-- `read_exact` where `false` means an invalid packet. -/
def readField (size : ℕ) : Eff IStream (ByteArr size) := do
  orThrow invalidPacket (← readExact size)

/-- The reading half of a round of `open_file_payload`: record header, ciphertext and tag, with
every check up to `reject_trailing_data`. -/
def readRecord (expectedIndex : UInt32) : Eff IStream (RecordHeader × Bytes × ByteArr kTagSize) := do
  let recordBytes ← readField kRecordHeaderSize
  let record ← exceptResult (parseRecordHeader recordBytes)
  throwIf (record.index ≠ expectedIndex) invalidPacket
  throwIf (record.finalFlag = kNotFinal ∧ record.plaintextSize ≠ kChunkSize) invalidPacket
  let ciphertext ← readField record.plaintextSize.toNat
  let tag ← readField kTagSize
  if record.finalFlag = kFinal then rejectTrailingData
  return (record, ciphertext, tag)

/-- A round of `open_file_payload`. -/
def openRecord (serializedHeader : Bytes) (noncePrefix : ByteArr kNoncePrefixSize)
    (fileKey : key256) (aad : Bytes) (expectedIndex : UInt32) : Eff (World ω) Bool := do
  let (record, ciphertext, tag) ← onInput (readRecord expectedIndex)
  let nonce := makeNonce noncePrefix record.index
  let chunkAad := makeChunkAad serializedHeader record aad
  let plaintext ← onLib (decryptChunk ssl ciphertext tag fileKey nonce chunkAad)
  onOutput (writeAll plaintext)
  return record.finalFlag = kFinal

/-- `while (!saw_final)` of `open_file_payload`, from a given `expected_index` on. -/
def openLoop (serializedHeader : Bytes) (noncePrefix : ByteArr kNoncePrefixSize)
    (fileKey : key256) (aad : Bytes) (expectedIndex : UInt32) : Eff (World ω) Unit := do
  let sawFinal ← openRecord ssl serializedHeader noncePrefix fileKey aad expectedIndex
  if hlast : expectedIndex = uint32Max ∧ sawFinal = false then throw invalidPacket
  else if hfinal : sawFinal = true then return
  else openLoop serializedHeader noncePrefix fileKey aad (expectedIndex + 1)
termination_by 2 ^ 32 - expectedIndex.toNat
decreasing_by
  have hne : expectedIndex ≠ uint32Max := fun h => hlast ⟨h, by simpa using hfinal⟩
  have hlt := expectedIndex.toNat_lt
  rw [toNat_add_one_of_ne hne]
  omega

/-- `open_file_payload` -/
def openFilePayload (serializedHeader : Bytes) (noncePrefix : ByteArr kNoncePrefixSize)
    (fileKey : key256) (aad : Bytes) : Eff (World ω) Unit :=
  openLoop ssl serializedHeader noncePrefix fileKey aad 0

end Payload

/-! ## The two formats -/

/-- A file format together with the secret it is used with: the header and its codec, and the
file key that belongs to a header. -/
structure FileFormat where
  Header : Type
  headerSize : ℕ
  make : Eff Lib Header
  parse : ByteArr headerSize → Except Error Header
  deriveKey : Header → Eff Lib key256
  serialized : Header → ByteArr headerSize
  noncePrefix : Header → ByteArr kNoncePrefixSize

section Overloads

variable (ssl : Openssl) {ω : Type} [Output ω]

/-- `SKF1` with a master key. -/
def keyFormat (key : key256) : FileFormat where
  Header := FileHeader
  headerSize := kHeaderSize
  make := makeHeader ssl
  parse := parseHeader
  deriveKey := deriveFileKey ssl key
  serialized := FileHeader.serialized
  noncePrefix := FileHeader.noncePrefix

/-- `SKP1` with a password. -/
def passwordFormat (password : Bytes) : FileFormat where
  Header := PasswordFileHeader
  headerSize := kPasswordHeaderSize
  make := makePasswordHeader ssl
  parse := parsePasswordHeader
  deriveKey := derivePasswordFileKey ssl password
  serialized := PasswordFileHeader.serialized
  noncePrefix := PasswordFileHeader.noncePrefix

/-- The body of the stream overloads that seal. -/
def sealStream (format : FileFormat) (aad : Bytes) : Eff (World ω) Unit := do
  let header ← onLib format.make
  let fileKey ← onLib (format.deriveKey header)
  sealStreamPayload ssl (format.serialized header) (format.noncePrefix header) fileKey aad

/-- The body of the stream overloads that open. -/
def openStream (format : FileFormat) (aad : Bytes) : Eff (World ω) Unit := do
  let headerBytes ← onInput (readField format.headerSize)
  let header ← exceptResult (format.parse headerBytes)
  let fileKey ← onLib (format.deriveKey header)
  openFilePayload ssl (format.serialized header) (format.noncePrefix header) fileKey aad

/-- `seal_file(std::istream &, std::ostream &, …)` -/
def sealFile (key : key256) (aad : Bytes) : Eff (World ω) Unit :=
  sealStream ssl (keyFormat ssl key) aad

/-- `open_file(std::istream &, std::ostream &, …)` -/
def openFile (key : key256) (aad : Bytes) : Eff (World ω) Unit :=
  openStream ssl (keyFormat ssl key) aad

/-- `seal_file_with_password(std::istream &, std::ostream &, …)` -/
def sealFileWithPassword (password aad : Bytes) : Eff (World ω) Unit := do
  requireNonEmptyPassword password
  sealStream ssl (passwordFormat ssl password) aad

/-- `open_file_with_password(std::istream &, std::ostream &, …)` -/
def openFileWithPassword (password aad : Bytes) : Eff (World ω) Unit := do
  requireNonEmptyPassword password
  openStream ssl (passwordFormat ssl password) aad

end Overloads

end SecureKit.File
