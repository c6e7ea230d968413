import SecureKit.File.Crypto
import SecureKit.Base.Iostream

/-!
# The format of a sealed file

What a sealed file is, independently of the two loops that write and read it.  A file is a
header and a run of records; a record is a chunk under its index and its final flag.

* `Envelope` is what all chunks of a file share: the serialized header, the nonce prefix, the
  file key and the caller's additional data.  It determines the nonce and the additional data of
  every chunk, hence what sealing makes of a plaintext (`Envelope.sealed`) and whether a chunk
  found at an index is authentic (`Envelope.Verifies`).
* `recordBytes` and `fullRecords` are the byte strings of one record and of a run of full ones.
* `RecordAt s i flag chunk` says that the next thing in a source is a well-formed record with
  index `i`.
* `Envelope.Reads` is the meaning of a body: a big-step relation between what a source still
  holds, the plaintext that comes out, and the verdict on it.

## Main facts

* `recordAt_unique`: a source has at most one record in front.
* `Envelope.Reads.deterministic`: the verdict and the plaintext of a body are determined.
* `Envelope.reads_accepted_iff`, `Envelope.reads_badTag_iff`: the bodies that are accepted, and
  those whose first defect is a tag, as concatenations of records.
* `Envelope.Reads.released`: whatever the verdict, what comes out before it is the plaintext of
  verified full records.
-/

namespace SecureKit.File

open ByteString Iostream Evp

/-! ## Records -/

/-- The plaintext bytes of a chunk that is not the last. -/
lemma toNat_kChunkSize : kChunkSize.toNat = 2 ^ 20 := by decide

/-- The header of a record with the given index, flag and text size. -/
def recordHeader (index : ℕ) (finalFlag : UInt8) (size : ℕ) : RecordHeader :=
  makeRecordHeader (UInt32.ofNat index) (UInt32.ofNat size) finalFlag

/-- The bytes of a record. -/
def recordBytes (index : ℕ) (finalFlag : UInt8) (chunk : EncryptedChunk) : Bytes :=
  ((recordHeader index finalFlag chunk.ciphertext.length).serialized : Bytes) ++
    (chunk.ciphertext ++ (chunk.tag : Bytes))

/-- The bytes of a run of records that are not final, from a given index on. -/
def fullRecords : ℕ → List EncryptedChunk → Bytes
  | _, [] => []
  | first, chunk :: chunks => recordBytes first kNotFinal chunk ++ fullRecords (first + 1) chunks

/-- A record that is not final is full, and a final one is not larger. -/
def WellFormed (finalFlag : UInt8) (chunk : EncryptedChunk) : Prop :=
  (finalFlag = kNotFinal ∧ chunk.ciphertext.length = 2 ^ 20) ∨
    (finalFlag = kFinal ∧ chunk.ciphertext.length ≤ 2 ^ 20)

/-- The next thing in the source is a well-formed record, and if it is final, nothing follows. -/
structure RecordAt (s : Source) (index : ℕ) (finalFlag : UInt8) (chunk : EncryptedChunk) :
    Prop where
  wellFormed : WellFormed finalFlag chunk
  startsWith : s.StartsWith (recordBytes index finalFlag chunk)
  ends : finalFlag = kFinal →
    s.skip (recordBytes index finalFlag chunk).length = .finite [] .eof

lemma WellFormed.length_le {finalFlag : UInt8} {chunk : EncryptedChunk}
    (h : WellFormed finalFlag chunk) : chunk.ciphertext.length ≤ 2 ^ 20 := by
  rcases h with ⟨_, h⟩ | ⟨_, h⟩ <;> omega

lemma coe_recordHeader (index : ℕ) (finalFlag : UInt8) (size : ℕ) :
    ((recordHeader index finalFlag size).serialized : Bytes) =
      (be32 (UInt32.ofNat index) : Bytes) ++ be32 (UInt32.ofNat size) ++ [finalFlag] :=
  coe_makeRecordHeader _ _ _

@[simp] lemma length_recordBytes (index : ℕ) (finalFlag : UInt8) (chunk : EncryptedChunk) :
    (recordBytes index finalFlag chunk).length = chunk.ciphertext.length + 25 := by
  simp only [recordBytes, List.length_append, ByteArr.length_coe, kRecordHeaderSize, kTagSize]
  omega

lemma length_fullRecords {first : ℕ} {chunks : List EncryptedChunk}
    (h : ∀ chunk ∈ chunks, chunk.ciphertext.length = 2 ^ 20) :
    (fullRecords first chunks).length = chunks.length * (2 ^ 20 + 25) := by
  induction chunks generalizing first with
  | nil => simp [fullRecords]
  | cons chunk chunks ih =>
    rw [fullRecords, List.length_append, length_recordBytes, h chunk (by simp),
      ih fun c hc => h c (by simp [hc]), List.length_cons]
    ring

/-- Sizes up to that of a full chunk survive the 32-bit size field. -/
lemma ofNat_size_injective {m n : ℕ} (hm : m ≤ 2 ^ 20) (hn : n ≤ 2 ^ 20)
    (h : UInt32.ofNat m = UInt32.ofNat n) : m = n := by
  have hnat := congrArg UInt32.toNat h
  rwa [UInt32.toNat_ofNat_of_lt' (by rw [UInt32.size]; omega),
    UInt32.toNat_ofNat_of_lt' (by rw [UInt32.size]; omega)] at hnat

/-- The fields of a record header can be read off its bytes. -/
lemma recordHeader_injective {i j : ℕ} {f g : UInt8} {m n : ℕ} (hm : m ≤ 2 ^ 20)
    (hn : n ≤ 2 ^ 20)
    (h : ((recordHeader i f m).serialized : Bytes) = (recordHeader j g n).serialized) :
    UInt32.ofNat i = UInt32.ofNat j ∧ f = g ∧ m = n := by
  rw [coe_recordHeader, coe_recordHeader] at h
  obtain ⟨h, hflag⟩ := List.append_inj' h rfl
  obtain ⟨hindex, hsize⟩ := List.append_inj' h (by simp)
  refine ⟨be32_injective (ByteArr.ext hindex), List.singleton_inj.mp hflag, ?_⟩
  exact ofNat_size_injective hm hn (be32_injective (ByteArr.ext hsize))

lemma kNotFinal_ne_kFinal : kNotFinal ≠ kFinal := by decide

lemma RecordAt.length_eq {s : Source} {i : ℕ} {chunk : EncryptedChunk}
    (h : RecordAt s i kNotFinal chunk) : chunk.ciphertext.length = 2 ^ 20 := by
  rcases h.wellFormed with ⟨-, hlen⟩ | ⟨hflag, -⟩
  · exact hlen
  · exact absurd hflag kNotFinal_ne_kFinal

/-- A source starts with at most one well-formed record. -/
lemma WellFormed.unique {s : Source} {i : ℕ} {f g : UInt8} {c d : EncryptedChunk}
    (hc : WellFormed f c) (hd : WellFormed g d) (hcs : s.StartsWith (recordBytes i f c))
    (hds : s.StartsWith (recordBytes i g d)) : f = g ∧ c = d := by
  rw [recordBytes, Source.startsWith_append] at hcs hds
  have hheader := hcs.1.unique hds.1 (by simp)
  obtain ⟨-, hflag, hlen⟩ := recordHeader_injective hc.length_le hd.length_le hheader
  have hrest : c.ciphertext ++ (c.tag : Bytes) = d.ciphertext ++ (d.tag : Bytes) := by
    have hback := hcs.2
    rw [hheader] at hback
    exact hback.unique hds.2 (by simp [hlen])
  obtain ⟨hciphertext, htag⟩ := List.append_inj hrest hlen
  refine ⟨hflag, ?_⟩
  obtain ⟨ciphertext, tag⟩ := c
  obtain ⟨ciphertext', tag'⟩ := d
  obtain rfl : ciphertext = ciphertext' := hciphertext
  obtain rfl : tag = tag' := ByteArr.ext htag
  rfl

/-- **A source has at most one record in front.** -/
lemma recordAt_unique {s : Source} {i : ℕ} {f g : UInt8} {c d : EncryptedChunk}
    (hc : RecordAt s i f c) (hd : RecordAt s i g d) : f = g ∧ c = d :=
  hc.wellFormed.unique hd.wellFormed hc.startsWith hd.startsWith

/-! ## Envelopes -/

/-- What the chunks of a file share. -/
structure Envelope where
  serialized : Bytes
  noncePrefix : ByteArr kNoncePrefixSize
  fileKey : key256
  aad : Bytes

namespace Envelope

variable (gcm : AesGcm) (e : Envelope)

/-- The nonce of a chunk. -/
def nonce (index : ℕ) : Bytes := makeNonce e.noncePrefix (UInt32.ofNat index)

/-- The additional data of a chunk. -/
def chunkAad (index : ℕ) (finalFlag : UInt8) (size : ℕ) : Bytes :=
  makeChunkAad e.serialized (recordHeader index finalFlag size) e.aad

/-- The chunk that sealing makes of a plaintext. -/
def sealed (index : ℕ) (finalFlag : UInt8) (plaintext : Bytes) : EncryptedChunk :=
  chunkOf gcm e.fileKey (e.nonce index) (e.chunkAad index finalFlag plaintext.length) plaintext

/-- The tag of a chunk found in a file verifies. -/
def Verifies (index : ℕ) (finalFlag : UInt8) (chunk : EncryptedChunk) : Prop :=
  gcm.verify e.fileKey (e.nonce index) (e.chunkAad index finalFlag chunk.ciphertext.length)
    chunk.ciphertext chunk.tag = true

/-- The decrypted text of a chunk found in a file. -/
def plaintext (index : ℕ) (chunk : EncryptedChunk) : Bytes :=
  gcm.decText e.fileKey (e.nonce index) chunk.ciphertext

/-- The chunks sealing makes of full plaintexts, from a given index on. -/
def sealFull : ℕ → List Bytes → List EncryptedChunk
  | _, [] => []
  | first, part :: parts => e.sealed gcm first kNotFinal part :: sealFull (first + 1) parts

/-- What sealing makes of full parts and a last one, from a given index on. -/
def sealedBody (i : ℕ) (parts : List Bytes) (last : Bytes) : Bytes :=
  fullRecords i (e.sealFull gcm i parts) ++
    recordBytes (i + parts.length) kFinal (e.sealed gcm (i + parts.length) kFinal last)

/-- The decrypted text of a run of chunks, from a given index on. -/
def plaintexts : ℕ → List EncryptedChunk → Bytes
  | _, [] => []
  | first, chunk :: chunks => e.plaintext gcm first chunk ++ plaintexts (first + 1) chunks

/-- A run of full, authentic chunks that are not final, from a given index on. -/
def VerifiedFull : ℕ → List EncryptedChunk → Prop
  | _, [] => True
  | first, chunk :: chunks => chunk.ciphertext.length = 2 ^ 20 ∧
      e.Verifies gcm first kNotFinal chunk ∧ VerifiedFull (first + 1) chunks

variable {gcm} {e}

lemma VerifiedFull.length_eq {first : ℕ} {chunks : List EncryptedChunk}
    (h : e.VerifiedFull gcm first chunks) :
    ∀ chunk ∈ chunks, chunk.ciphertext.length = 2 ^ 20 := by
  induction chunks generalizing first with
  | nil => simp
  | cons chunk chunks ih =>
    intro c hc
    rcases List.mem_cons.mp hc with rfl | hc
    · exact h.1
    · exact ih h.2.2 c hc

/-- What is released of full chunks is a multiple of the chunk size. -/
lemma length_plaintexts (hl : gcm.Lengths) {first : ℕ} {chunks : List EncryptedChunk}
    (h : ∀ chunk ∈ chunks, chunk.ciphertext.length = 2 ^ 20) :
    (e.plaintexts gcm first chunks).length = 2 ^ 20 * chunks.length := by
  induction chunks generalizing first with
  | nil => simp [plaintexts]
  | cons chunk chunks ih =>
    rw [plaintexts, List.length_append, plaintext, hl.length_decText, h chunk (by simp),
      ih fun c hc => h c (by simp [hc]), List.length_cons]
    ring

@[simp] lemma length_sealFull (first : ℕ) (parts : List Bytes) :
    (e.sealFull gcm first parts).length = parts.length := by
  induction parts generalizing first with
  | nil => rfl
  | cons part parts ih => simp [sealFull, ih]

/-- Full parts are sealed as full chunks. -/
lemma length_of_mem_sealFull (hl : gcm.Lengths) {first : ℕ} {parts : List Bytes}
    (h : ∀ part ∈ parts, part.length = 2 ^ 20) :
    ∀ chunk ∈ e.sealFull gcm first parts, chunk.ciphertext.length = 2 ^ 20 := by
  induction parts generalizing first with
  | nil => simp [sealFull]
  | cons part parts ih =>
    intro chunk hchunk
    rcases List.mem_cons.mp hchunk with rfl | hchunk
    · exact (hl.length_encText _ _ _).trans (h part (by simp))
    · exact ih (fun p hp => h p (by simp [hp])) chunk hchunk

end Envelope

/-! ## The meaning of a body -/

/-- The verdict on a body. -/
inductive Verdict
  /-- A file under this envelope. -/
  | accepted
  /-- The first defect is a tag that does not verify. -/
  | badTag
  /-- The first defect is one of structure. -/
  | malformed
  /-- Something other than the contents of the file ended the reading. -/
  | interrupted
  deriving DecidableEq

namespace Envelope

/-- `e.Reads gcm i s out verdict`: read from index `i` on, the source `s` gives the plaintext
`out` and then the verdict. -/
inductive Reads (gcm : AesGcm) (e : Envelope) : ℕ → Source → Bytes → Verdict → Prop
  | malformed {i s} (h : ∀ flag chunk, ¬ RecordAt s i flag chunk) : Reads gcm e i s [] .malformed
  | badTag {i s flag chunk} (h : RecordAt s i flag chunk) (hv : ¬ e.Verifies gcm i flag chunk) :
      Reads gcm e i s [] .badTag
  | accepted {i s chunk} (h : RecordAt s i kFinal chunk) (hv : e.Verifies gcm i kFinal chunk) :
      Reads gcm e i s (e.plaintext gcm i chunk) .accepted
  | exhausted {i s chunk} (h : RecordAt s i kNotFinal chunk)
      (hv : e.Verifies gcm i kNotFinal chunk) (hi : ¬ i + 1 < 2 ^ 32) :
      Reads gcm e i s (e.plaintext gcm i chunk) .malformed
  | next {i s chunk out verdict} (h : RecordAt s i kNotFinal chunk)
      (hv : e.Verifies gcm i kNotFinal chunk) (hi : i + 1 < 2 ^ 32)
      (hrest : Reads gcm e (i + 1) (s.skip (recordBytes i kNotFinal chunk).length) out verdict) :
      Reads gcm e i s (e.plaintext gcm i chunk ++ out) verdict
  | interrupted {i s} : Reads gcm e i s [] .interrupted

variable {gcm : AesGcm} {e : Envelope}

/-- If the tag of the record in front of a source does not verify, it does not in whichever way the
record is read. -/
lemma not_verifies_of_recordAt {i : ℕ} {s : Source} {flag flag' : UInt8} {chunk chunk' : EncryptedChunk}
    (h : RecordAt s i flag chunk) (h' : RecordAt s i flag' chunk')
    (hnot : ¬ e.Verifies gcm i flag' chunk') : ¬ e.Verifies gcm i flag chunk := by
  obtain ⟨rfl, rfl⟩ := recordAt_unique h h'
  exact hnot

/-- **The verdict on a body and the plaintext before it are determined**, unless something else
ends the reading. -/
theorem Reads.deterministic {i : ℕ} {s : Source} {out out' : Bytes} {v v' : Verdict}
    (h : e.Reads gcm i s out v) (h' : e.Reads gcm i s out' v') (hv : v ≠ .interrupted)
    (hv' : v' ≠ .interrupted) : out = out' ∧ v = v' := by
  induction h generalizing out' v' with
  | interrupted => exact absurd rfl hv
  -- Where there is no record, no other rule applies.
  | malformed hnone =>
    cases h' with
    | malformed => exact ⟨rfl, rfl⟩
    | interrupted => exact absurd rfl hv'
    | badTag h => exact absurd h (hnone _ _)
    | accepted h => exact absurd h (hnone _ _)
    | exhausted h => exact absurd h (hnone _ _)
    | next h => exact absurd h (hnone _ _)
  -- The record at an index is unique, so its tag verifies for both derivations or for neither.
  | badTag h hnot =>
    cases h' with
    | malformed hnone => exact absurd h (hnone _ _)
    | interrupted => exact absurd rfl hv'
    | badTag => exact ⟨rfl, rfl⟩
    | accepted h₂ hyes => exact absurd hyes (not_verifies_of_recordAt h₂ h hnot)
    | exhausted h₂ hyes => exact absurd hyes (not_verifies_of_recordAt h₂ h hnot)
    | next h₂ hyes => exact absurd hyes (not_verifies_of_recordAt h₂ h hnot)
  | accepted h hyes =>
    cases h' with
    | malformed hnone => exact absurd h (hnone _ _)
    | interrupted => exact absurd rfl hv'
    | badTag h₂ hnot => exact absurd hyes (not_verifies_of_recordAt h h₂ hnot)
    | accepted h₂ =>
      obtain ⟨-, rfl⟩ := recordAt_unique h h₂
      exact ⟨rfl, rfl⟩
    | exhausted h₂ => exact absurd (recordAt_unique h₂ h).1 kNotFinal_ne_kFinal
    | next h₂ => exact absurd (recordAt_unique h₂ h).1 kNotFinal_ne_kFinal
  -- The last index has no next one.
  | exhausted h hyes hi =>
    cases h' with
    | malformed hnone => exact absurd h (hnone _ _)
    | interrupted => exact absurd rfl hv'
    | badTag h₂ hnot => exact absurd hyes (not_verifies_of_recordAt h h₂ hnot)
    | accepted h₂ => exact absurd (recordAt_unique h h₂).1 kNotFinal_ne_kFinal
    | exhausted h₂ =>
      obtain ⟨-, rfl⟩ := recordAt_unique h h₂
      exact ⟨rfl, rfl⟩
    | next h₂ hyes₂ hi₂ => exact absurd hi₂ hi
  | next h hyes hi hrest ih =>
    cases h' with
    | malformed hnone => exact absurd h (hnone _ _)
    | interrupted => exact absurd rfl hv'
    | badTag h₂ hnot => exact absurd hyes (not_verifies_of_recordAt h h₂ hnot)
    | accepted h₂ => exact absurd (recordAt_unique h h₂).1 kNotFinal_ne_kFinal
    | exhausted h₂ hyes₂ hi₂ => exact absurd hi hi₂
    | next h₂ hyes₂ hi₂ hrest₂ =>
      obtain ⟨-, rfl⟩ := recordAt_unique h h₂
      -- Behind a full record both derivations go on at the same place.
      obtain ⟨rfl, rfl⟩ := ih hrest₂ hv hv'
      exact ⟨rfl, rfl⟩

/-- The records that lead to a verdict: verified full ones, and then one more, well-formed. -/
structure ReadsTo (gcm : AesGcm) (e : Envelope) (i : ℕ) (s : Source)
    (full : List EncryptedChunk) (flag : UInt8) (last : EncryptedChunk) : Prop where
  verified : e.VerifiedFull gcm i full
  startsWith : s.StartsWith (fullRecords i full)
  recordAt : RecordAt (s.skip (fullRecords i full).length) (i + full.length) flag last
  index_lt : i + full.length < 2 ^ 32

lemma ReadsTo.cons {i : ℕ} {s : Source} {chunk last : EncryptedChunk}
    {full : List EncryptedChunk} {flag : UInt8} (h : RecordAt s i kNotFinal chunk)
    (hv : e.Verifies gcm i kNotFinal chunk)
    (hrest : e.ReadsTo gcm (i + 1) (s.skip (recordBytes i kNotFinal chunk).length) full flag last) :
    e.ReadsTo gcm i s (chunk :: full) flag last where
  verified := ⟨h.length_eq, hv, hrest.verified⟩
  startsWith := Source.startsWith_append.mpr ⟨h.startsWith, hrest.startsWith⟩
  recordAt := by
    have hr := hrest.recordAt
    rw [Source.skip_skip] at hr
    rw [fullRecords, List.length_append, List.length_cons, Nat.add_comm full.length,
      ← Nat.add_assoc]
    exact hr
  index_lt := by
    have := hrest.index_lt
    rw [List.length_cons]
    omega

/-- The records that lead to a verdict, as a concatenation. -/
lemma readsTo_finite_iff {i : ℕ} {body : Bytes} {full : List EncryptedChunk} {flag : UInt8}
    {last : EncryptedChunk} :
    e.ReadsTo gcm i (.finite body .eof) full flag last ↔
      e.VerifiedFull gcm i full ∧ WellFormed flag last ∧ i + full.length < 2 ^ 32 ∧
        ∃ rest, body = fullRecords i full ++ (recordBytes (i + full.length) flag last ++ rest) ∧
          (flag = kFinal → rest = []) := by
  constructor
  · rintro ⟨hverified, hstarts, hrecord, hindex⟩
    obtain ⟨back, rfl⟩ := Source.startsWith_finite.mp hstarts
    rw [Source.skip_finite_append] at hrecord
    obtain ⟨rest, rfl⟩ := Source.startsWith_finite.mp hrecord.startsWith
    refine ⟨hverified, hrecord.wellFormed, hindex, rest, rfl, fun hflag => ?_⟩
    have hends := hrecord.ends hflag
    rw [Source.skip_finite_append] at hends
    exact (Source.finite.inj hends).1
  · rintro ⟨hverified, hwell, hindex, rest, rfl, hrest⟩
    refine ⟨hverified, ?_, ?_, hindex⟩
    · exact Source.startsWith_finite.mpr (List.prefix_append _ _)
    · rw [Source.skip_finite_append]
      refine ⟨hwell, Source.startsWith_finite.mpr (List.prefix_append _ _), fun hflag => ?_⟩
      rw [Source.skip_finite_append, hrest hflag]

/-- Reading passes over verified full records. -/
lemma Reads.of_full {i : ℕ} {s : Source} {full : List EncryptedChunk} {out : Bytes} {v : Verdict}
    (hfull : e.VerifiedFull gcm i full) (hstarts : s.StartsWith (fullRecords i full))
    (hi : i + full.length < 2 ^ 32)
    (h : e.Reads gcm (i + full.length) (s.skip (fullRecords i full).length) out v) :
    e.Reads gcm i s (e.plaintexts gcm i full ++ out) v := by
  induction full generalizing i s with
  | nil => simpa [plaintexts, fullRecords] using h
  | cons chunk full ih =>
    obtain ⟨hlen, hv, hfull⟩ := hfull
    rw [fullRecords, Source.startsWith_append] at hstarts
    rw [List.length_cons] at hi
    have hrecord : RecordAt s i kNotFinal chunk :=
      ⟨.inl ⟨rfl, hlen⟩, hstarts.1, fun h => absurd h kNotFinal_ne_kFinal⟩
    rw [plaintexts, List.append_assoc]
    refine .next hrecord hv (by omega) (ih hfull hstarts.2 (by omega) ?_)
    rw [Source.skip_skip, ← List.length_append]
    rw [List.length_cons, Nat.add_comm full.length, ← Nat.add_assoc] at h
    exact h

/-- A body is accepted exactly if it is verified full records and a verified final one. -/
theorem reads_accepted_iff {i : ℕ} {s : Source} {out : Bytes} (hi : i < 2 ^ 32) :
    e.Reads gcm i s out .accepted ↔
      ∃ full last, e.ReadsTo gcm i s full kFinal last ∧
        e.Verifies gcm (i + full.length) kFinal last ∧
        out = e.plaintexts gcm i full ++ e.plaintext gcm (i + full.length) last := by
  constructor
  · intro h
    generalize hverdict : Verdict.accepted = v at h
    induction h with
    | malformed | badTag | exhausted | interrupted => cases hverdict
    | accepted h hv =>
      refine ⟨[], _, ⟨trivial, Source.startsWith_nil _, ?_, hi⟩, hv, ?_⟩
      · simpa [fullRecords] using h
      · simp [plaintexts]
    | @next index _ chunk _ _ h hv hi' hrest ih =>
      obtain ⟨full, last, hto, hlast, rfl⟩ := ih hi' hverdict
      have hindex : index + (chunk :: full).length = index + 1 + full.length := by
        rw [List.length_cons]
        omega
      refine ⟨chunk :: full, last, hto.cons h hv, ?_, ?_⟩
      · rwa [hindex]
      · rw [hindex, plaintexts, List.append_assoc]
  · rintro ⟨full, last, hto, hlast, rfl⟩
    exact .of_full hto.verified hto.startsWith hto.index_lt (.accepted hto.recordAt hlast)

/-- The first defect of a body is a tag exactly if verified full records are followed by a
well-formed record that does not verify. -/
theorem reads_badTag_iff {i : ℕ} {s : Source} {out : Bytes} (hi : i < 2 ^ 32) :
    e.Reads gcm i s out .badTag ↔
      ∃ full flag last, e.ReadsTo gcm i s full flag last ∧
        ¬ e.Verifies gcm (i + full.length) flag last ∧ out = e.plaintexts gcm i full := by
  constructor
  · intro h
    generalize hverdict : Verdict.badTag = v at h
    induction h with
    | malformed | accepted | exhausted | interrupted => cases hverdict
    | badTag h hv =>
      refine ⟨[], _, _, ⟨trivial, Source.startsWith_nil _, ?_, hi⟩, hv, rfl⟩
      simpa [fullRecords] using h
    | @next index _ chunk _ _ h hv hi' hrest ih =>
      obtain ⟨full, flag, last, hto, hlast, rfl⟩ := ih hi' hverdict
      have hindex : index + (chunk :: full).length = index + 1 + full.length := by
        rw [List.length_cons]
        omega
      refine ⟨chunk :: full, flag, last, hto.cons h hv, ?_, ?_⟩
      · rwa [hindex]
      · rw [plaintexts]
  · rintro ⟨full, flag, last, hto, hlast, rfl⟩
    have hread := Reads.of_full hto.verified hto.startsWith hto.index_lt (.badTag hto.recordAt hlast)
    simpa using hread

/-- **What comes out before a verdict other than acceptance** is the plaintext of verified full
records from the start of the body. -/
theorem Reads.released {i : ℕ} {s : Source} {out : Bytes} {v : Verdict}
    (h : e.Reads gcm i s out v) (hv : v ≠ .accepted) (hi : i < 2 ^ 32) :
    ∃ full, e.VerifiedFull gcm i full ∧ s.StartsWith (fullRecords i full) ∧
      i + full.length ≤ 2 ^ 32 ∧ out = e.plaintexts gcm i full := by
  induction h with
  | malformed | badTag | interrupted =>
    exact ⟨[], trivial, Source.startsWith_nil _, by simpa using hi.le, rfl⟩
  | accepted => exact absurd rfl hv
  | @exhausted _ _ chunk h hyes hlast =>
    refine ⟨[chunk], ⟨h.length_eq, hyes, trivial⟩, ?_, ?_, by simp [plaintexts]⟩
    · simpa [fullRecords] using h.startsWith
    · rw [List.length_singleton]
      omega
  | @next _ _ chunk _ _ h hyes hi' hrest ih =>
    obtain ⟨full, hfull, hstarts, hle, rfl⟩ := ih hv hi'
    refine ⟨chunk :: full, ⟨h.length_eq, hyes, hfull⟩, ?_, by rw [List.length_cons]; omega, rfl⟩
    exact Source.startsWith_append.mpr ⟨h.startsWith, hstarts⟩

end Envelope

end SecureKit.File
