import SecureKit.Base.Kdf
import SecureKit.File.Crypto

/-!
# The codecs of headers and records

`src/file_crypto.cpp` writes a header by stores at offsets and reads it by slices at offsets, in
four functions for the two formats, and the same for a record.  This file says that readers and
writers are inverse to each other, and which bytes the readers accept: those that the tables of
`docs/FORMAT.md` prescribe, here `skf1Front` and `skp1Front`.

Each format has two directions.  A parser returns exactly for data with the prescribed bytes in
front, and behind for `SKP1`, and what it returns serializes to the data again.  What a maker writes
is parsed as what it was made of.  For a record header the parser checks the final flag and the
bound on the size; the index is any number of 32 bits, as it is compared by the caller.

`codec_exact` has all of this for the three codecs.  Headers are arrays of their fixed size, so
reading at an offset needs no case for data that are too short; that a file is long enough is
checked by `read_exact` before.
-/

namespace SecureKit.File

open ByteString Effect Evp

/-! ## The prescribed bytes -/

/-- `SKF1`, version 1, AES-256-GCM with HKDF-SHA-256, chunks of 0x00100000 bytes. -/
def skf1Front : Bytes := [0x53, 0x4b, 0x46, 0x31, 0x01, 0x01, 0x00, 0x10, 0x00, 0x00]

/-- `SKP1`, version 1, AES-256-GCM, scrypt, no flags, chunks of 0x00100000 bytes. -/
def skp1Front : Bytes :=
  [0x53, 0x4b, 0x50, 0x31, 0x01, 0x01, 0x01, 0x00, 0x00, 0x10, 0x00, 0x00]

/-- The scrypt parameters `N = 32768`, `r = 8`, `p = 1`. -/
def skp1Back : Bytes := [0x00, 0x00, 0x80, 0x00, 0x00, 0x00, 0x00, 0x08, 0x00, 0x00, 0x00, 0x01]

/-- The number that bytes spell, most significant first. -/
def ofBytesBe (bytes : Bytes) : ℕ := bytes.foldl (fun v b => 256 * v + b.toNat) 0

/-! ## Headers -/

/-- The constant fields are the prescribed bytes. -/
lemma headerBytes_eq (salt : ByteArr kSaltSize) (noncePrefix : ByteArr kNoncePrefixSize) :
    headerBytes salt noncePrefix = skf1Front ++ ((salt : Bytes) ++ (noncePrefix : Bytes)) := by
  have hfront : (kMagic : Bytes) ++ [kVersion] ++ [kAlgorithm] ++ (be32 kChunkSize : Bytes) =
      skf1Front := by decide
  rw [headerBytes, hfront, List.append_assoc]

lemma passwordHeaderBytes_eq (salt : ByteArr kSaltSize) (noncePrefix : ByteArr kNoncePrefixSize) :
    passwordHeaderBytes salt noncePrefix =
      skp1Front ++ ((salt : Bytes) ++ (noncePrefix : Bytes)) ++ skp1Back := by
  have hfront : (kPasswordMagic : Bytes) ++ [kVersion] ++ [kPasswordCipherAes256Gcm] ++
      [kPasswordKdfScrypt] ++ [kPasswordFlagsNone] ++ (be32 kChunkSize : Bytes) = skp1Front := by
    decide
  have hback : (be32 kScryptN : Bytes) ++ ((be32 kScryptR : Bytes) ++ (be32 kScryptP : Bytes)) =
      skp1Back := by decide
  rw [passwordHeaderBytes, hfront]
  simp only [List.append_assoc, hback]

/-- A reader accepts exactly the prescribed bytes. -/
lemma parseHeader_isOk_iff (data : ByteArr kHeaderSize) :
    (∃ header, parseHeader data = .ok header) ↔ (data : Bytes).take 10 = skf1Front := by
  constructor
  · rintro ⟨header, hparse⟩
    obtain ⟨salt, noncePrefix, -, rfl⟩ := eq_fileHeader_of_parseHeader hparse
    show (headerBytes salt noncePrefix).take 10 = skf1Front
    rw [headerBytes_eq]
    exact List.take_left' rfl
  · intro hfront
    have hsalt : (data.slice 10 kSaltSize : Bytes) ++ data.slice 42 kNoncePrefixSize =
        data.slice 10 (kSaltSize + kNoncePrefixSize) :=
      data.slice_append_slice 10 kSaltSize kNoncePrefixSize _ _ _
    have hrest : (data : Bytes).drop 10 = data.slice 10 (kSaltSize + kNoncePrefixSize) := by
      rw [ByteArr.coe_slice, List.take_of_length_le]
      rw [List.length_drop, ByteArr.length_coe]
      rfl
    have hdata : data =
        (fileHeader (data.slice 10 kSaltSize) (data.slice 42 kNoncePrefixSize)).serialized := by
      apply ByteArr.ext
      show (data : Bytes) = headerBytes _ _
      rw [headerBytes_eq, hsalt, ← hrest, ← hfront, List.take_append_drop]
    rw [hdata]
    exact ⟨_, parseHeader_fileHeader _ _⟩

lemma parsePasswordHeader_isOk_iff (data : ByteArr kPasswordHeaderSize) :
    (∃ header, parsePasswordHeader data = .ok header) ↔
      (data : Bytes).take 12 = skp1Front ∧ (data : Bytes).drop 52 = skp1Back := by
  constructor
  · rintro ⟨header, hparse⟩
    obtain ⟨salt, noncePrefix, -, rfl⟩ := eq_passwordFileHeader_of_parsePasswordHeader hparse
    show (passwordHeaderBytes salt noncePrefix).take 12 = skp1Front ∧
      (passwordHeaderBytes salt noncePrefix).drop 52 = skp1Back
    rw [passwordHeaderBytes_eq]
    refine ⟨?_, List.drop_left' ?_⟩
    · rw [List.append_assoc]
      exact List.take_left' rfl
    · simp [skp1Front, kSaltSize, kNoncePrefixSize]
  · rintro ⟨hfront, hback⟩
    have hsalt : (data.slice 12 kSaltSize : Bytes) ++ data.slice 44 kNoncePrefixSize =
        data.slice 12 (kSaltSize + kNoncePrefixSize) :=
      data.slice_append_slice 12 kSaltSize kNoncePrefixSize _ _ _
    have hrest : (data.slice 12 (kSaltSize + kNoncePrefixSize) : Bytes) ++ (data : Bytes).drop 52 =
        (data : Bytes).drop 12 := by
      rw [ByteArr.coe_slice, show 52 = 12 + (kSaltSize + kNoncePrefixSize) from rfl,
        ← List.drop_drop, List.take_append_drop]
    have hdata : data = (passwordFileHeader (data.slice 12 kSaltSize)
        (data.slice 44 kNoncePrefixSize)).serialized := by
      apply ByteArr.ext
      show (data : Bytes) = passwordHeaderBytes _ _
      rw [passwordHeaderBytes_eq, hsalt, ← hfront, ← hback, List.append_assoc, hrest,
        List.take_append_drop]
    rw [hdata]
    exact ⟨_, parsePasswordHeader_passwordFileHeader _ _⟩

/-- Writing back the fields that were read. -/
lemma headerLayout_of_parseHeader {data : ByteArr kHeaderSize} {header : FileHeader}
    (h : parseHeader data = .ok header) : header.serialized = data ∧
      headerLayout kMagic kVersion kAlgorithm kChunkSize header.salt header.noncePrefix = data := by
  obtain ⟨salt, noncePrefix, rfl, rfl⟩ := eq_fileHeader_of_parseHeader h
  exact ⟨rfl, makeHeader_layout salt noncePrefix⟩

lemma passwordHeaderLayout_of_parsePasswordHeader {data : ByteArr kPasswordHeaderSize}
    {header : PasswordFileHeader} (h : parsePasswordHeader data = .ok header) :
    header.serialized = data ∧
      (header.scryptN = kScryptN ∧ header.scryptR = kScryptR ∧ header.scryptP = kScryptP) ∧
      passwordHeaderLayout kPasswordMagic kVersion kPasswordCipherAes256Gcm kPasswordKdfScrypt
        kPasswordFlagsNone kChunkSize header.salt header.noncePrefix header.scryptN header.scryptR
        header.scryptP = data := by
  obtain ⟨salt, noncePrefix, rfl, rfl⟩ := eq_passwordFileHeader_of_parsePasswordHeader h
  exact ⟨rfl, ⟨rfl, rfl, rfl⟩, makePasswordHeader_layout salt noncePrefix⟩

/-! ## Records -/

lemma ofBytesBe_eq_ofBe32 (input : ByteArr 4) : ofBytesBe input = (ofBe32 input).toNat := by
  obtain ⟨bytes, h⟩ := input
  obtain ⟨a, b, c, d, rfl⟩ := List.length_eq_four.mp h
  rw [toNat_ofBe32]
  simp only [ofBytesBe, List.foldl_cons, List.foldl_nil]
  ring

lemma le_kFinal_iff (flag : UInt8) : flag ≤ 1 ↔ flag = kNotFinal ∨ flag = kFinal := by
  simp only [kNotFinal, kFinal, UInt8.le_iff_toNat_le, ← UInt8.toNat_inj, UInt8.reduceToNat]
  omega

lemma le_kChunkSize_iff (size : UInt32) : size ≤ kChunkSize ↔ size.toNat ≤ 2 ^ 20 := by
  rw [UInt32.le_iff_toNat_le]
  exact Iff.rfl

lemma parseRecordHeader_isOk_iff (data : ByteArr kRecordHeaderSize) :
    (∃ record, parseRecordHeader data = .ok record) ↔
      data.byteAt 8 ≤ 1 ∧ ofBytesBe (data.slice 4 4 : Bytes) ≤ 2 ^ 20 := by
  rw [le_kFinal_iff, ofBytesBe_eq_ofBe32, ← le_kChunkSize_iff]
  unfold parseRecordHeader
  simp only
  split
  · simp_all
  · split
    · rename_i hflag hsize
      simp [UInt32.not_le.mpr hsize]
    · rename_i hflag hsize
      simp only [exists_eq', true_iff, Except.ok.injEq]
      exact ⟨by tauto, UInt32.not_lt.mp hsize⟩

/-- Writing back the fields that were read. -/
lemma makeRecordHeader_of_parseRecordHeader {data : ByteArr kRecordHeaderSize}
    {record : RecordHeader} (h : parseRecordHeader data = .ok record) :
    (makeRecordHeader record.index record.plaintextSize record.finalFlag).serialized = data := by
  obtain ⟨index, size, flag, -, rfl, rfl⟩ := eq_makeRecordHeader_of_parseRecordHeader h
  rfl

/-! ## What the writers write -/

/-- A header that was made has the layout of its fields, and is read back. -/
lemma parseHeader_of_makeHeader {ssl : Openssl} {lib lib' : Lib} {header : FileHeader}
    (h : makeHeader ssl lib = .ok header lib') :
    headerLayout kMagic kVersion kAlgorithm kChunkSize header.salt header.noncePrefix =
        header.serialized ∧
      parseHeader header.serialized = .ok header := by
  have hmade : Outcome (makeHeader ssl) lib
      (fun header _ => ∃ salt noncePrefix, header = fileHeader salt noncePrefix)
      fun _ _ => True :=
    @outcome_makeHeader ssl standard 0 lib _ _
      (fun salt noncePrefix _ _ _ => ⟨salt, noncePrefix, rfl⟩) fun _ _ => trivial
  obtain ⟨salt, noncePrefix, rfl⟩ := hmade.of_ok h
  exact ⟨makeHeader_layout salt noncePrefix, parseHeader_fileHeader salt noncePrefix⟩

lemma parsePasswordHeader_of_makePasswordHeader {ssl : Openssl} {lib lib' : Lib}
    {header : PasswordFileHeader} (h : makePasswordHeader ssl lib = .ok header lib') :
    passwordHeaderLayout kPasswordMagic kVersion kPasswordCipherAes256Gcm kPasswordKdfScrypt
        kPasswordFlagsNone kChunkSize header.salt header.noncePrefix header.scryptN header.scryptR
        header.scryptP = header.serialized ∧
      parsePasswordHeader header.serialized = .ok header := by
  have hmade : Outcome (makePasswordHeader ssl) lib
      (fun header _ => ∃ salt noncePrefix, header = passwordFileHeader salt noncePrefix)
      fun _ _ => True :=
    @outcome_makePasswordHeader ssl standard 0 lib _ _
      (fun salt noncePrefix _ _ _ => ⟨salt, noncePrefix, rfl⟩) fun _ _ => trivial
  obtain ⟨salt, noncePrefix, rfl⟩ := hmade.of_ok h
  exact ⟨makePasswordHeader_layout salt noncePrefix,
    parsePasswordHeader_passwordFileHeader salt noncePrefix⟩

/-! ## The codecs -/

/-- **The codecs of headers and records** are bijective between the fields they carry and the bytes
they accept. -/
theorem codec_exact :
    (∀ data : ByteArr kHeaderSize,
      ((∃ header, parseHeader data = .ok header) ↔ (data : Bytes).take 10 = skf1Front) ∧
      ∀ header, parseHeader data = .ok header → header.serialized = data ∧
        headerLayout kMagic kVersion kAlgorithm kChunkSize header.salt header.noncePrefix = data) ∧
    (∀ ssl lib header lib', makeHeader ssl lib = .ok header lib' →
      headerLayout kMagic kVersion kAlgorithm kChunkSize header.salt header.noncePrefix =
          header.serialized ∧
        parseHeader header.serialized = .ok header) ∧
    (∀ data : ByteArr kPasswordHeaderSize,
      ((∃ header, parsePasswordHeader data = .ok header) ↔
        (data : Bytes).take 12 = skp1Front ∧ (data : Bytes).drop 52 = skp1Back) ∧
      ∀ header, parsePasswordHeader data = .ok header → header.serialized = data ∧
        (header.scryptN = kScryptN ∧ header.scryptR = kScryptR ∧ header.scryptP = kScryptP) ∧
        passwordHeaderLayout kPasswordMagic kVersion kPasswordCipherAes256Gcm kPasswordKdfScrypt
          kPasswordFlagsNone kChunkSize header.salt header.noncePrefix header.scryptN
          header.scryptR header.scryptP = data) ∧
    (∀ ssl lib header lib', makePasswordHeader ssl lib = .ok header lib' →
      passwordHeaderLayout kPasswordMagic kVersion kPasswordCipherAes256Gcm kPasswordKdfScrypt
          kPasswordFlagsNone kChunkSize header.salt header.noncePrefix header.scryptN
          header.scryptR header.scryptP = header.serialized ∧
        parsePasswordHeader header.serialized = .ok header) ∧
    (∀ data : ByteArr kRecordHeaderSize,
      ((∃ record, parseRecordHeader data = .ok record) ↔
        data.byteAt 8 ≤ 1 ∧ ofBytesBe (data.slice 4 4 : Bytes) ≤ 2 ^ 20) ∧
      ∀ record, parseRecordHeader data = .ok record →
        (makeRecordHeader record.index record.plaintextSize record.finalFlag).serialized = data) ∧
    ∀ index plaintextSize : UInt32, ∀ finalFlag : UInt8, plaintextSize.toNat ≤ 2 ^ 20 →
      finalFlag ≤ 1 → ∃ record,
        parseRecordHeader (makeRecordHeader index plaintextSize finalFlag).serialized =
          .ok record ∧
        record.index = index ∧ record.plaintextSize = plaintextSize ∧
        record.finalFlag = finalFlag := by
  refine ⟨fun data => ⟨parseHeader_isOk_iff data, fun header => headerLayout_of_parseHeader⟩,
    fun ssl lib header lib' => parseHeader_of_makeHeader,
    fun data => ⟨parsePasswordHeader_isOk_iff data,
      fun header => passwordHeaderLayout_of_parsePasswordHeader⟩,
    fun ssl lib header lib' => parsePasswordHeader_of_makePasswordHeader,
    fun data => ⟨parseRecordHeader_isOk_iff data,
      fun record => makeRecordHeader_of_parseRecordHeader⟩, ?_⟩
  -- The bounds are those that `parse_record_header` checks.
  intro index plaintextSize finalFlag hsize hflag
  have hadmissible : AdmissibleRecord plaintextSize finalFlag :=
    ⟨(le_kFinal_iff finalFlag).mp hflag, (le_kChunkSize_iff plaintextSize).mpr hsize⟩
  exact ⟨_, parseRecordHeader_makeRecordHeader hadmissible, rfl, rfl, rfl⟩

end SecureKit.File
