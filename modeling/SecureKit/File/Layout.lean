import SecureKit.File.Limits

/-!
# The layout of a sealed file

Where every byte of a plaintext ends up.  The sealing loop finds the end of its input in two ways,
by a short read and by a peek behind a full one; `returns_sealStreamPayload_cut` says that both
come to the canonical cut of the plaintext into chunks, and `Envelope.layout` is the file that
belongs to this cut, given by the length of the plaintext alone.

## The layout

`recordCount`, `flagAt` and `chunkAt` depend on the plaintext only.  There is one record for the
empty plaintext and else one for every 2^20 bytes begun; all are full but the last one, and the
last one is the only final one.  `Envelope.recordOf` is a record field by field, as the format is
documented, and `Envelope.sealedBody_eq_layout` compares it with the records that the loop makes.
`IsLayout` adds what a reader counts on: the length of the file, indices that fit their fields, and
that the chunks one behind the other are the plaintext.

`seal_layout` is about `seal_stream_payload`, which both formats use behind their headers.  The
input may have been read up to any point, and one at its end is sealed as the empty plaintext; it
must not have failed, as a failed stream looks like an empty one.  `Openssl.Available` and a
`Reliable` output exclude that something else stops the run, and the bound on the additional data
is the one that `update_aad` checks.
-/

namespace SecureKit.File

open ByteString Effect Iostream Evp Chunks

/-! ## The layout of a plaintext -/

/-- The number of records of a file. -/
def recordCount (plaintext : Bytes) : ℕ := chunkCount (2 ^ 20) plaintext.length

/-- The final flag of the record at an index. -/
def flagAt (plaintext : Bytes) (i : ℕ) : UInt8 :=
  if i + 1 = recordCount plaintext then kFinal else kNotFinal

namespace Envelope

variable {gcm : AesGcm} {e : Envelope}

/-- The record at an index of the file of a plaintext, field by field. -/
def recordOf (gcm : AesGcm) (e : Envelope) (plaintext : Bytes) (i : ℕ) : Bytes :=
  let chunk := chunkAt (2 ^ 20) plaintext i
  let flag := flagAt plaintext i
  (be32 (UInt32.ofNat i) : Bytes) ++ (be32 (UInt32.ofNat chunk.length) : Bytes) ++ [flag] ++
    gcm.encText e.fileKey (e.nonce i) chunk ++
    (gcm.tag e.fileKey (e.nonce i) (e.chunkAad i flag chunk.length) chunk : Bytes)

/-- The file of a plaintext: the header and its records in order. -/
def layout (gcm : AesGcm) (e : Envelope) (plaintext : Bytes) : Bytes :=
  e.serialized ++ (List.range (recordCount plaintext)).flatMap (e.recordOf gcm plaintext)

/-- The records of a layout are those of sealed chunks. -/
lemma recordOf_eq (hl : gcm.Lengths) (plaintext : Bytes) (i : ℕ) :
    e.recordOf gcm plaintext i = recordBytes i (flagAt plaintext i)
      (e.sealed gcm i (flagAt plaintext i) (chunkAt (2 ^ 20) plaintext i)) := by
  have hlen : (e.sealed gcm i (flagAt plaintext i)
      (chunkAt (2 ^ 20) plaintext i)).ciphertext.length = (chunkAt (2 ^ 20) plaintext i).length :=
    hl.length_encText _ _ _
  rw [recordBytes, coe_recordHeader, hlen, recordOf, List.append_assoc _ (gcm.encText _ _ _)]
  rfl

/-- Full parts are sealed one record behind the other. -/
lemma fullRecords_sealFull (first : ℕ) (parts : List Bytes) :
    fullRecords first (e.sealFull gcm first parts) =
      (List.range parts.length).flatMap fun i => recordBytes (first + i) kNotFinal
        (e.sealed gcm (first + i) kNotFinal (parts.getD i [])) := by
  induction parts generalizing first with
  | nil => rfl
  | cons part parts ih =>
    rw [List.length_cons, List.range_succ_eq_map, List.flatMap_cons, List.flatMap_map, sealFull,
      fullRecords, ih]
    refine congrArg₂ _ rfl (List.flatMap_congr fun i _ => ?_)
    rw [List.getD_cons_succ, Nat.succ_eq_add_one, Nat.add_right_comm, Nat.add_assoc]

/-- The body of a canonical cut is that of the layout. -/
lemma sealedBody_eq_layout (hl : gcm.Lengths) {parts : List Bytes} {last plaintext : Bytes}
    (h : IsCut (2 ^ 20) parts last plaintext) (hc : h.Canonical) :
    e.serialized ++ e.sealedBody gcm 0 parts last = e.layout gcm plaintext := by
  have hcount : recordCount plaintext = parts.length + 1 := h.count hc (by decide)
  have hfull : ∀ i ∈ List.range parts.length,
      recordBytes (0 + i) kNotFinal (e.sealed gcm (0 + i) kNotFinal (parts.getD i [])) =
        e.recordOf gcm plaintext i := by
    intro i hi
    have hlt := List.mem_range.mp hi
    have hflag : flagAt plaintext i = kNotFinal := by
      unfold flagAt
      rw [hcount, if_neg (by omega)]
    rw [recordOf_eq hl, hflag, h.chunkAt_eq i hlt, Nat.zero_add, List.getD_eq_getElem?_getD,
      List.getElem?_eq_getElem hlt, Option.getD_some]
  have hlast : e.recordOf gcm plaintext parts.length =
      recordBytes parts.length kFinal (e.sealed gcm parts.length kFinal last) := by
    have hflag : flagAt plaintext parts.length = kFinal := by
      unfold flagAt
      rw [hcount, if_pos rfl]
    rw [recordOf_eq hl, hflag, h.chunkAt_last]
  rw [layout, sealedBody, hcount, List.range_succ, List.flatMap_append, List.flatMap_singleton,
    fullRecords_sealFull, Nat.zero_add, List.flatMap_congr hfull, hlast]

end Envelope

/-- The file is the header and one record for each chunk of the plaintext, and the chunks cover the
plaintext. -/
structure IsLayout (gcm : AesGcm) (e : Envelope) (plaintext file : Bytes) : Prop where
  bytes : file = e.serialized ++
    (List.range (recordCount plaintext)).flatMap (e.recordOf gcm plaintext)
  /-- Every index fits its field. -/
  count_le : recordCount plaintext ≤ 2 ^ 32
  /-- Every record but the last is full. -/
  full : ∀ i, i + 1 < recordCount plaintext → (chunkAt (2 ^ 20) plaintext i).length = 2 ^ 20
  /-- The last one is empty only where the plaintext is. -/
  last_empty : chunkAt (2 ^ 20) plaintext (recordCount plaintext - 1) = [] ↔ plaintext = []
  /-- No byte is lost or repeated. -/
  joined : (List.range (recordCount plaintext)).flatMap (chunkAt (2 ^ 20) plaintext) = plaintext
  length : file.length = e.serialized.length + plaintext.length + 25 * recordCount plaintext

section Layout

variable {ssl : Openssl} {prim : Primitives} {ω : Type} [Output ω] [LawfulOutput ω]
  {e : Envelope} {w : World ω} {plaintext : Bytes}

/-- The canonical cut of a plaintext has the layout. -/
lemma isLayout_of_cut {gcm : AesGcm} (hl : gcm.Lengths) {parts : List Bytes} {last : Bytes}
    (h : IsCut (2 ^ 20) parts last plaintext) (hc : h.Canonical) (hindex : parts.length < 2 ^ 32) :
    IsLayout gcm e plaintext (e.layout gcm plaintext) := by
  have hcount : recordCount plaintext = parts.length + 1 := h.count hc (by decide)
  have hlast : recordCount plaintext - 1 = parts.length := by omega
  constructor
  · rfl
  · omega
  · intro i hi
    have hlt : i < parts.length := by omega
    rw [h.chunkAt_eq i hlt]
    exact h.full _ (List.getElem_mem hlt)
  · rw [hlast, h.chunkAt_last]
    constructor
    · intro hnil
      -- The last part is empty only if it is the only one.
      have hparts : parts = [] := by
        by_contra hne
        exact hc hne hnil
      rw [h.eq_flatten, hparts, hnil]
      rfl
    · intro hnil
      have heq := h.eq_flatten
      rw [hnil] at heq
      exact (List.append_eq_nil_iff.mp heq.symm).2
  · rw [hcount, List.range_succ, List.flatMap_append, List.flatMap_singleton, h.chunkAt_last,
      List.flatMap_def, h.map_chunkAt]
    exact h.eq_flatten.symm
  · -- Each record has its header, its tag and as many bytes as its part.
    have hrecords : (fullRecords 0 (e.sealFull gcm 0 parts)).length = _ :=
      length_fullRecords (Envelope.length_of_mem_sealFull hl h.full)
    have hlen : (e.sealed gcm (0 + parts.length) kFinal last).ciphertext.length = last.length :=
      hl.length_encText _ _ _
    rw [← Envelope.sealedBody_eq_layout hl h hc, Envelope.sealedBody, List.length_append,
      List.length_append, hrecords, length_recordBytes, hlen, Envelope.length_sealFull, h.length_eq,
      hcount]
    ring

/-- **Sealing cuts its input canonically**, however it finds the end of it. -/
lemma returns_sealStreamPayload_cut (hs : ssl.Sound prim) (ha : ssl.Available prim (2 ^ 20))
    (hl : prim.gcm.Lengths) (hfail : w.input.state.fail = false)
    (hinput : remaining w.input = .finite plaintext .eof) (hlen : plaintext.length ≤ 2 ^ 52)
    (hrel : Reliable w.output)
    (haad : e.serialized.length + kRecordHeaderSize + e.aad.length ≤ intMax) :
    Returns (sealStreamPayload ssl e.serialized e.noncePrefix e.fileKey e.aad) w
      (fun _ w' => ∃ parts last, ∃ h : IsCut (2 ^ 20) parts last plaintext, h.Canonical ∧
        parts.length < 2 ^ 32 ∧
        written w'.output = written w.output ++
          (e.serialized ++ e.sealedBody prim.gcm 0 parts last)) := by
  have hrecord : ∀ {error : Error}, ¬ RecordFailure ssl prim (2 ^ 20) e w.output error := by
    rintro error (⟨-, hlong⟩ | ⟨-, hnot⟩ | ⟨-, hnot⟩)
    · omega
    · exact hnot ha
    · exact hnot hrel
  cases heof : w.input.state.eofbit with
  -- A stream at its end is sealed as an empty file.
  | true =>
    have hnil : plaintext = [] := by
      rw [remaining, heof, if_pos rfl] at hinput
      exact (Source.finite.inj hinput).1.symm
    refine (outcome_sealStreamPayload_of_ended hs hl heof).mono ?_ ?_
    · rintro ⟨⟩ w' ⟨-, hhanded, hrel'⟩
      refine ⟨[], [], ⟨hnil, by simp, by simp⟩, fun hne => absurd rfl hne, by simp, ?_⟩
      exact hhanded.written_eq (LawfulOutput.intact_of_reliable _ (hrel' hrel))
    · exact fun error w' hcause => hrecord hcause
  | false =>
    have hgood : w.input.state.good = true := by
      simp only [IoState.fail, Bool.or_eq_false_iff] at hfail
      simp [IoState.good, heof, hfail]
    have hsource : w.input.source = .finite plaintext .eof := by
      rw [remaining, heof] at hinput
      simpa using hinput
    refine (outcome_sealStreamPayload hs hl le_rfl hgood).mono ?_ ?_
    · rintro ⟨⟩ w' ⟨parts, last, h⟩
      have hsame := h.source
      rw [hsource] at hsame
      refine ⟨parts, last, ⟨(Source.finite.inj hsame).1, h.full, h.last_le⟩, h.last_ne,
        by simpa using h.index_lt, ?_⟩
      exact h.handed.written_eq (LawfulOutput.intact_of_reliable _ (h.reliable hrel))
    · rintro error w' ⟨parts, h⟩
      -- None of the causes can be: the input ends, it is short enough, and nothing else fails.
      rcases h.cause with ⟨-, hf, -⟩ | ⟨-, hcount, -, hhas, -⟩ | ⟨hcause, -⟩
      · rw [hsource] at hf
        cases hf
      · rw [hsource, Source.has_finite] at hhas
        omega
      · exact hrecord hcause

/-- **The sealed layout.** -/
theorem seal_layout (hs : ssl.Sound prim) (ha : ssl.Available prim (2 ^ 20))
    (hl : prim.gcm.Lengths) (hfail : w.input.state.fail = false)
    (hinput : remaining w.input = .finite plaintext .eof) (hlen : plaintext.length ≤ 2 ^ 52)
    (hrel : Reliable w.output)
    (haad : e.serialized.length + kRecordHeaderSize + e.aad.length ≤ intMax) :
    ∃ w' file, sealStreamPayload ssl e.serialized e.noncePrefix e.fileKey e.aad w = .ok () w' ∧
      written w'.output = written w.output ++ file ∧ IsLayout prim.gcm e plaintext file := by
  obtain ⟨⟨⟩, w', hrun, parts, last, h, hc, hindex, hwritten⟩ :=
    (returns_sealStreamPayload_cut hs ha hl hfail hinput hlen hrel haad).exists_ok
  rw [Envelope.sealedBody_eq_layout hl h hc] at hwritten
  exact ⟨w', _, hrun, hwritten, isLayout_of_cut hl h hc hindex⟩

end Layout

/-- The layout of the file of one byte. -/
theorem seal_layout_byte : ∃ w' file,
    sealStreamPayload standardLibrary [0x48] (ByteArr.zeros 8) (ByteArr.zeros 32) [0x41]
        ({ input := .ofBytes [0x61], output := {} } : World OStream) = .ok () w' ∧
      w'.output.written = [] ++ file ∧
      IsLayout standard.gcm ⟨[0x48], ByteArr.zeros 8, ByteArr.zeros 32, [0x41]⟩ [0x61] file :=
  seal_layout (e := ⟨[0x48], ByteArr.zeros 8, ByteArr.zeros 32, [0x41]⟩) standardLibrary_sound
    (standardLibrary_available _) standard_lengths rfl rfl (by decide) ⟨rfl, rfl⟩ (by decide)

end SecureKit.File
