import SecureKit.File.Formats

/-!
# What sealing does

The code of `seal_stream_payload` against the format of a sealed file.

* `outcome_readChunk`: the reading half of a round, on a good stream.  It returns a full chunk
  with more behind it, or the last bytes before the end of the file.
* `outcome_sealRecord`: the writing half hands one record to the output.
* `outcome_sealLoop` is the invariant of the loop.  A run that returns has cut a finite input
  into chunks and handed their records over, each under its own index; one that throws has done
  this for full chunks only, and the reason is named.
* `outcome_sealStream` adds the header.

The output is any output: `Handed` says what was handed to it, which is what it has accepted as
long as it is intact.

## The two ways to end

`seal_stream_payload` reads a chunk and looks ahead if it was full.  A round is therefore of one of
two kinds, and `outcome_readChunk` says so on the source: a full chunk with at least one more byte
behind it, or the rest of the source in at most one chunk.  The first kind is written with
`kNotFinal` and the loop goes on (`FullRound`), the second with `kFinal` and it ends.

`StopCause` lists why a run throws: the input fails, the last index is reached with something left,
or a record was not written.  `RecordFailure` has the reasons for that: additional data that are
too long, a library that fails although it was called within its limits, or an output that does.

`Openssl.Sound` and the sizes in `Lengths` are all that is assumed here.  A premise such as
`Openssl.Available` is used by those who want to exclude one of the causes.
-/

namespace SecureKit.File

open ByteString Effect Iostream Evp

/-! ## Reading a chunk -/

section ReadChunk

variable {s : IStream}

/-- **Reading a chunk** of a good stream. -/
lemma outcome_readChunk {Q : Bytes × Bool → IStream → Prop} {E : Error → IStream → Prop}
    (hgood : s.state.good = true)
    (hmore : s.source.Has (2 ^ 20 + 1) →
      Q (s.source.ahead (2 ^ 20), false) { s with source := s.source.skip (2 ^ 20) })
    (hlast : ∀ bytes s', s.source = .finite bytes .eof → bytes.length ≤ 2 ^ 20 →
      s'.state.badbit = false → Q (bytes, true) s')
    (hfault : s.source.faults = true → ∀ s', s'.state.badbit = true → E readFailure s') :
    Outcome readChunk s Q E := by
  have hstate := IoState.eq_of_good hgood
  simp only [readChunk, outcome_bind, outcome_readBytes, outcome_flags, outcome_throwIf,
    outcome_ite, outcome_peekByte, outcome_pure, toNat_kChunkSize]
  by_cases hfull : s.source.Has (2 ^ 20)
  · have hsize : ¬ UInt32.ofNat (s.source.ahead (2 ^ 20)).length < kChunkSize := by
      rw [hfull]
      decide
    rw [IStream.read_of_has hgood hfull]
    refine ⟨fun h => by simp [hstate, IoState.fail] at h, fun _ =>
      ⟨fun h => absurd h hsize, fun _ => ?_⟩⟩
    by_cases hnext : (s.source.skip (2 ^ 20)).Has 1
    · obtain ⟨b, hpeek⟩ := IStream.peek_of_has
        (s := { s with source := s.source.skip (2 ^ 20) }) hgood hnext
      rw [hpeek]
      exact ⟨fun _ => hmore (hfull.add hnext), fun h => absurd rfl h⟩
    · have hends : ¬ s.source.Has (2 ^ 20 + 1) := fun h => hnext (Source.has_skip h)
      rw [IStream.peek_of_not_has (s := { s with source := s.source.skip (2 ^ 20) }) hgood hnext]
      refine ⟨fun h => absurd h (by simp), fun _ => ?_⟩
      cases hf : s.source.faults with
      | true => simpa [hf] using hfault hf _ (by simp)
      | false =>
        obtain ⟨bytes, hsource, hlen⟩ := Source.exists_eof_of_not_has hends hf
        have hbytes : s.source.ahead (2 ^ 20) = bytes := by
          rw [hsource, Source.ahead]
          exact List.take_of_length_le (by omega)
        rw [hbytes]
        refine ⟨fun h => by simp [hf] at h, fun _ => hlast bytes _ hsource (by omega) ?_⟩
        simp [hf]
  · cases hf : s.source.faults with
    | true =>
      rw [IStream.read_of_faults hgood hfull hf]
      exact ⟨fun _ => hfault hf _ rfl, fun h => absurd ⟨rfl, rfl⟩ h⟩
    | false =>
      obtain ⟨bytes, hsource, hlen⟩ := Source.exists_eof_of_not_has hfull hf
      have hbytes : s.source.ahead (2 ^ 20) = bytes := by
        rw [hsource, Source.ahead]
        exact List.take_of_length_le hlen.le
      have hsize : UInt32.ofNat bytes.length < kChunkSize := by
        rw [UInt32.lt_iff_toNat_lt, toNat_kChunkSize,
          UInt32.toNat_ofNat_of_lt' (by rw [UInt32.size]; omega)]
        exact hlen
      rw [IStream.read_of_ends hgood hfull hf, hbytes]
      refine ⟨fun h => by simp at h, fun _ => ⟨fun _ => ?_, fun h => absurd hsize h⟩⟩
      exact hlast bytes _ hsource hlen.le rfl

/-- A stream that is not good yields no chunk: it is taken for an empty file if its end-of-file
flag is set, and for a failed one otherwise. -/
lemma outcome_readChunk_of_not_good {Q : Bytes × Bool → IStream → Prop}
    {E : Error → IStream → Prop} (hgood : s.state.good = false)
    (heof : s.state.eofbit = true →
      Q ([], true) { s with state := { s.state with failbit := true } })
    (hfail : s.state.eofbit = false →
      E readFailure { s with state := { s.state with failbit := true } }) :
    Outcome readChunk s Q E := by
  simp only [readChunk, outcome_bind, outcome_readBytes, outcome_flags, outcome_throwIf,
    outcome_ite, outcome_pure, IStream.read_of_not_good hgood]
  refine ⟨fun h => hfail h.1, fun h => ⟨fun _ => heof ?_, fun hsize => absurd ?_ hsize⟩⟩
  · by_contra hcon
    exact h ⟨by simpa using hcon, rfl⟩
  · exact (by decide : UInt32.ofNat ([] : Bytes).length < kChunkSize)

end ReadChunk

/-! ## Writing a record -/

section SealRecord

variable {ssl : Openssl} {prim : Primitives} {cap : ℕ} {ω : Type} [Output ω] [LawfulOutput ω]
  {e : Envelope} {w : World ω}

/-- The record of a call of `encrypt_chunk`. -/
def Envelope.call (e : Envelope) (index : ℕ) (finalFlag : UInt8) (plaintext : Bytes)
    (result : Option EncryptedChunk) : ChunkCall where
  fileKey := e.fileKey
  nonce := e.nonce index
  aad := e.chunkAad index finalFlag plaintext.length
  plaintext := plaintext
  result := result

/-- Why a record was not written, for an output as it was before. -/
def RecordFailure (ssl : Openssl) (prim : Primitives) (cap : ℕ) (e : Envelope) (o : ω)
    (error : Error) : Prop :=
  (error = updateLimitError "AAD" ∧
      intMax < e.serialized.length + kRecordHeaderSize + e.aad.length) ∨
    (error = cipherFailure ∧ ¬ ssl.Available prim cap) ∨ (error = writeFailure ∧ ¬ Reliable o)

/-- **Writing a record** encrypts the chunk and hands its record over, or fails for a reason that
is named, with only a part of the record handed over. -/
lemma outcome_sealRecord (hs : ssl.Sound prim) (hl : prim.gcm.Lengths) (hcap : 2 ^ 20 ≤ cap)
    {i : ℕ} {plaintext : Bytes} {isFinal : Bool} {o₀ : ω} {bytes : Bytes}
    {Q : Unit → World ω → Prop} {E : Error → World ω → Prop}
    (hsize : plaintext.length ≤ 2 ^ 20) (hhanded : Handed o₀ bytes w.output)
    (hok : ∀ o' lib', e.serialized.length + kRecordHeaderSize + e.aad.length ≤ intMax →
      Handed o₀ (bytes ++ recordBytes i (if isFinal then kFinal else kNotFinal)
        (e.sealed prim.gcm i (if isFinal then kFinal else kNotFinal) plaintext)) o' →
      (Reliable w.output → Reliable o') →
      Q () { w with output := o', lib := lib', chunks := w.chunks ++
        [e.call i (if isFinal then kFinal else kNotFinal) plaintext
          (some (e.sealed prim.gcm i (if isFinal then kFinal else kNotFinal) plaintext))] })
    (hfail : ∀ error o' lib' part result, Handed o₀ (bytes ++ part) o' →
      RecordFailure ssl prim cap e w.output error →
      E error { w with output := o', lib := lib', chunks := w.chunks ++
        [e.call i (if isFinal then kFinal else kNotFinal) plaintext result] }) :
    Outcome (sealRecord ssl e.serialized e.noncePrefix e.fileKey e.aad (UInt32.ofNat i) plaintext
      isFinal) w Q E := by
  generalize hflag : (if isFinal then kFinal else kNotFinal) = flag at hok hfail
  simp only [sealRecord, outcome_bind, outcome_recordChunk, outcome_onOutput, hflag]
  refine outcome_encryptChunk hs hl (hsize.trans (by decide)) (hsize.trans hcap)
    (fun haad lib' => ?_) (fun hlong lib' => ?_) fun havail lib' => ?_
  · have hlen : (e.sealed prim.gcm i flag plaintext).ciphertext.length = plaintext.length :=
      hl.length_encText _ _ _
    have hrecord : recordBytes i flag (e.sealed prim.gcm i flag plaintext) =
        ((recordHeader i flag plaintext.length).serialized : Bytes) ++
          ((e.sealed prim.gcm i flag plaintext).ciphertext ++
            ((e.sealed prim.gcm i flag plaintext).tag : Bytes)) := by
      rw [recordBytes, hlen]
    refine outcome_writeAll hhanded (fun o₁ h₁ hrel₁ => ?_) fun hnot o₁ h₁ => ?_
    · refine outcome_writeAll h₁ (fun o₂ h₂ hrel₂ => ?_) fun hnot o₂ h₂ => ?_
      · refine outcome_writeAll h₂ (fun o₃ h₃ hrel₃ => ?_) fun hnot o₃ h₃ => ?_
        · rw [length_makeChunkAad] at haad
          refine hok o₃ lib' haad ?_ fun hrel => hrel₃ (hrel₂ (hrel₁ hrel))
          rw [List.append_assoc, List.append_assoc] at h₃
          rw [hrecord]
          exact h₃
        · rw [List.append_assoc, List.append_assoc] at h₃
          exact hfail _ o₃ lib' _ _ h₃ (.inr (.inr ⟨rfl, fun hrel => hnot (hrel₂ (hrel₁ hrel))⟩))
      · rw [List.append_assoc] at h₂
        exact hfail _ o₂ lib' _ _ h₂ (.inr (.inr ⟨rfl, fun hrel => hnot (hrel₁ hrel)⟩))
    · exact hfail _ o₁ lib' _ _ h₁ (.inr (.inr ⟨rfl, hnot⟩))
  · rw [length_makeChunkAad] at hlong
    exact hfail _ _ lib' [] none (by rwa [List.append_nil]) (.inl ⟨rfl, hlong⟩)
  · exact hfail _ _ lib' [] none (by rwa [List.append_nil]) (.inr (.inl ⟨rfl, havail⟩))

end SealRecord

/-! ## The loop -/

/-- The calls of `encrypt_chunk` of a completed run over full parts and a last one. -/
def Envelope.calls (gcm : AesGcm) (e : Envelope) : ℕ → List Bytes → Bytes → List ChunkCall
  | i, [], last => [e.call i kFinal last (some (e.sealed gcm i kFinal last))]
  | i, part :: parts, last =>
    e.call i kNotFinal part (some (e.sealed gcm i kNotFinal part)) :: e.calls gcm (i + 1) parts last

/-- Calls numbered from a given index on, up to the last possible one. -/
structure Numbered (e : Envelope) (i : ℕ) (calls : List ChunkCall) : Prop where
  nonces : calls.map ChunkCall.nonce = (List.range' i calls.length).map e.nonce
  le : i + calls.length ≤ 2 ^ 32

lemma Numbered.cons {e : Envelope} {i : ℕ} {call : ChunkCall} {calls : List ChunkCall}
    (hcall : call.nonce = e.nonce i) (h : Numbered e (i + 1) calls) :
    Numbered e i (call :: calls) where
  nonces := by
    rw [List.map_cons, h.nonces, hcall, List.length_cons, List.range'_succ, List.map_cons]
  le := by
    have := h.le
    rw [List.length_cons]
    omega

lemma Numbered.single {e : Envelope} {i : ℕ} {call : ChunkCall} (hcall : call.nonce = e.nonce i)
    (hi : i < 2 ^ 32) : Numbered e i [call] :=
  .cons hcall ⟨rfl, by simpa using hi⟩

section SealLoop

variable {ssl : Openssl} {prim : Primitives} {cap : ℕ} {ω : Type} [Output ω] [LawfulOutput ω]

/-- A run of the loop from index `i` that returned: the input is cut into full parts and a last
one, and all records were handed over. -/
structure SealedAs (gcm : AesGcm) (e : Envelope) (i : ℕ) (w : World ω) (o₀ : ω) (bytes : Bytes)
    (parts : List Bytes) (last : Bytes) (w' : World ω) : Prop where
  source : w.input.source = .finite (parts.flatten ++ last) .eof
  full : ∀ part ∈ parts, part.length = 2 ^ 20
  last_le : last.length ≤ 2 ^ 20
  last_ne : parts ≠ [] → last ≠ []
  index_lt : i + parts.length < 2 ^ 32
  aad_le : e.serialized.length + kRecordHeaderSize + e.aad.length ≤ intMax
  handed : Handed o₀ (bytes ++ e.sealedBody gcm i parts last) w'.output
  reliable : Reliable w.output → Reliable w'.output
  chunks : w'.chunks = w.chunks ++ e.calls gcm i parts last
  not_bad : w'.input.state.badbit = false

/-- Why a run of the loop stopped after some full parts. -/
def StopCause (ssl : Openssl) (prim : Primitives) (cap : ℕ) (e : Envelope) (i : ℕ) (w : World ω)
    (o₀ : ω) (bytes : Bytes) (parts : List Bytes) (error : Error) (w' : World ω) : Prop :=
  (error = readFailure ∧ w.input.source.faults = true ∧ w'.input.state.badbit = true ∧
      Handed o₀ (bytes ++ fullRecords i (e.sealFull prim.gcm i parts)) w'.output) ∨
    (error = tooLarge ∧ i + parts.length = 2 ^ 32 ∧ w'.input.state.badbit = false ∧
      w.input.source.Has (2 ^ 20 * parts.length + 1) ∧
      e.serialized.length + kRecordHeaderSize + e.aad.length ≤ intMax ∧
      (Reliable w.output → Reliable w'.output) ∧
      Handed o₀ (bytes ++ fullRecords i (e.sealFull prim.gcm i parts)) w'.output) ∨
    (RecordFailure ssl prim cap e w.output error ∧ w'.input.state.badbit = false)

/-- A run of the loop from index `i` that threw. -/
structure StoppedAt (ssl : Openssl) (prim : Primitives) (cap : ℕ) (e : Envelope) (i : ℕ)
    (w : World ω) (o₀ : ω) (bytes : Bytes) (parts : List Bytes) (error : Error) (w' : World ω) :
    Prop where
  full : ∀ part ∈ parts, part.length = 2 ^ 20
  startsWith : w.input.source.StartsWith parts.flatten
  cause : StopCause ssl prim cap e i w o₀ bytes parts error w'
  chunks : ∃ calls, w'.chunks = w.chunks ++ calls ∧ Numbered e i calls

variable {e : Envelope} {w w₁ w' : World ω} {i : ℕ} {o₀ : ω} {bytes part last : Bytes}
  {parts : List Bytes} {error : Error}

/-- What a round in the middle does: the state `w₁` behind a full part `part`. -/
structure FullRound (gcm : AesGcm) (e : Envelope) (i : ℕ) (w : World ω) (o₀ : ω) (bytes : Bytes)
    (part : Bytes) (w₁ : World ω) : Prop where
  length_part : part.length = 2 ^ 20
  startsWith : w.input.source.StartsWith part
  has : w.input.source.Has (2 ^ 20 + 1)
  input : w₁.input = { w.input with source := w.input.source.skip (2 ^ 20) }
  aad_le : e.serialized.length + kRecordHeaderSize + e.aad.length ≤ intMax
  handed : Handed o₀ (bytes ++ recordBytes i kNotFinal (e.sealed gcm i kNotFinal part)) w₁.output
  reliable : Reliable w.output → Reliable w₁.output
  chunks : w₁.chunks = w.chunks ++ [e.call i kNotFinal part (some (e.sealed gcm i kNotFinal part))]

lemma SealedAs.cons {gcm : AesGcm} (hround : FullRound gcm e i w o₀ bytes part w₁)
    (h : SealedAs gcm e (i + 1) w₁ o₀
      (bytes ++ recordBytes i kNotFinal (e.sealed gcm i kNotFinal part)) parts last w') :
    SealedAs gcm e i w o₀ bytes (part :: parts) last w' := by
  have hrest : w.input.source.skip (2 ^ 20) = .finite (parts.flatten ++ last) .eof := by
    rw [← h.source, hround.input]
  have hlength : i + (part :: parts).length = i + 1 + parts.length := by
    rw [List.length_cons]
    omega
  refine ⟨?_, ?_, h.last_le, fun _ => ?_, by rw [hlength]; exact h.index_lt, h.aad_le, ?_,
    h.reliable ∘ hround.reliable, ?_, h.not_bad⟩
  · -- The input is the part read in this round and what the later rounds read.
    obtain ⟨all, hall⟩ := Source.eq_finite_of_skip hrest
    have hstarts := hround.startsWith
    rw [hall, Source.startsWith_finite] at hstarts
    obtain ⟨back, rfl⟩ := hstarts
    rw [hall, ← hround.length_part, Source.skip_finite_append] at hrest
    cases hrest
    rw [hall, List.flatten_cons, List.append_assoc]
  · intro p hp
    rcases List.mem_cons.mp hp with rfl | hp
    · exact hround.length_part
    · exact h.full p hp
  · rintro rfl
    by_cases hnil : parts = []
    · subst hnil
      have hone := Source.has_skip hround.has
      rw [hrest] at hone
      simp at hone
    · exact h.last_ne hnil rfl
  · have hhanded := h.handed
    rw [Envelope.sealedBody] at hhanded ⊢
    rw [hlength]
    simpa only [Envelope.sealFull, fullRecords, List.append_assoc] using hhanded
  · rw [h.chunks, hround.chunks, Envelope.calls, List.append_assoc, List.singleton_append]

lemma StoppedAt.cons (hround : FullRound prim.gcm e i w o₀ bytes part w₁)
    (h : StoppedAt ssl prim cap e (i + 1) w₁ o₀
      (bytes ++ recordBytes i kNotFinal (e.sealed prim.gcm i kNotFinal part)) parts error w') :
    StoppedAt ssl prim cap e i w o₀ bytes (part :: parts) error w' := by
  have hlength : i + (part :: parts).length = i + 1 + parts.length := by
    rw [List.length_cons]
    omega
  have hrecords : ∀ {o : ω}, Handed o₀ (bytes ++
      recordBytes i kNotFinal (e.sealed prim.gcm i kNotFinal part) ++
        fullRecords (i + 1) (e.sealFull prim.gcm (i + 1) parts)) o →
      Handed o₀ (bytes ++ fullRecords i (e.sealFull prim.gcm i (part :: parts))) o := by
    intro o ho
    simpa only [Envelope.sealFull, fullRecords, List.append_assoc] using ho
  have hsource : w₁.input.source = w.input.source.skip (2 ^ 20) := by rw [hround.input]
  refine ⟨?_, ?_, ?_, ?_⟩
  · intro p hp
    rcases List.mem_cons.mp hp with rfl | hp
    · exact hround.length_part
    · exact h.full p hp
  · rw [List.flatten_cons, Source.startsWith_append, hround.length_part, ← hsource]
    exact ⟨hround.startsWith, h.startsWith⟩
  · rcases h.cause with ⟨rfl, hf, hbad, hhanded⟩ | ⟨rfl, hindex, hbad, hhas, haad, hrel, hhanded⟩ |
      hother
    · rw [hsource, Source.faults_skip] at hf
      exact .inl ⟨rfl, hf, hbad, hrecords hhanded⟩
    · refine .inr (.inl ⟨rfl, by omega, hbad, ?_, haad, hrel ∘ hround.reliable, hrecords hhanded⟩)
      rw [hsource] at hhas
      have hall := (hround.has.mono (Nat.le_succ _)).add hhas
      have hcount : 2 ^ 20 * (part :: parts).length + 1 =
          2 ^ 20 + (2 ^ 20 * parts.length + 1) := by
        rw [List.length_cons]
        ring
      rwa [hcount]
    · refine .inr (.inr ⟨hother.1.imp_right (Or.imp_right ?_), hother.2⟩)
      rintro ⟨herror, hnot⟩
      exact ⟨herror, fun hrel => hnot (hround.reliable hrel)⟩
  · obtain ⟨calls, hchunks, hnumbered⟩ := h.chunks
    refine ⟨e.call i kNotFinal part (some (e.sealed prim.gcm i kNotFinal part)) :: calls, ?_,
      hnumbered.cons rfl⟩
    rw [hchunks, hround.chunks, List.append_assoc, List.singleton_append]

/-- **A round** of the loop. -/
lemma outcome_sealChunk (hs : ssl.Sound prim) (hl : prim.gcm.Lengths) (hcap : 2 ^ 20 ≤ cap)
    (hi : i < 2 ^ 32) (hgood : w.input.state.good = true) (hhanded : Handed o₀ bytes w.output)
    {Q : Bool → World ω → Prop} {E : Error → World ω → Prop}
    (hmore : ∀ part w₁, FullRound prim.gcm e i w o₀ bytes part w₁ → Q false w₁)
    (hlast : ∀ last w₁, SealedAs prim.gcm e i w o₀ bytes [] last w₁ → Q true w₁)
    (hfail : ∀ error w₁, StoppedAt ssl prim cap e i w o₀ bytes [] error w₁ → E error w₁) :
    Outcome (sealChunk ssl e.serialized e.noncePrefix e.fileKey e.aad (UInt32.ofNat i)) w Q E := by
  simp only [sealChunk, outcome_bind, outcome_onInput, outcome_pure]
  refine outcome_readChunk hgood (fun hhas => ?_) (fun tail s' hsource hlen hbad => ?_)
    fun hf s' hbad => ?_
  · have hfull := hhas.mono (Nat.le_succ (2 ^ 20))
    have hnot_bad : w.input.state.badbit = false := by rw [IoState.eq_of_good hgood]
    refine outcome_sealRecord hs hl hcap hfull.le hhanded (fun o' lib' haad ho' hrel => ?_)
      fun error o' lib' part result ho' hcause => ?_
    · exact hmore _ _ ⟨hfull, Source.startsWith_ahead hfull, hhas, rfl, haad, ho', hrel, rfl⟩
    · refine hfail _ _ ⟨by simp, by simp, .inr (.inr ⟨hcause, hnot_bad⟩), _, rfl, ?_⟩
      exact .single rfl hi
  · refine outcome_sealRecord hs hl hcap hlen hhanded (fun o' lib' haad ho' hrel => ?_)
      fun error o' lib' part result ho' hcause => ?_
    · exact hlast _ _ ⟨by simpa using hsource, by simp, hlen, by simp, by simpa using hi, haad,
        by simpa [fullRecords, Envelope.sealFull, Envelope.sealedBody] using ho', hrel, rfl, hbad⟩
    · refine hfail _ _ ⟨by simp, by simp, .inr (.inr ⟨hcause, hbad⟩), _, rfl, ?_⟩
      exact .single rfl hi
  · refine hfail _ _ ⟨by simp, by simp, .inl ⟨rfl, hf, hbad, ?_⟩, [], by simp, ?_⟩
    · simpa [fullRecords, Envelope.sealFull] using hhanded
    · exact ⟨rfl, by simpa using hi.le⟩

/-- **The loop** seals its input, or stops for a reason that is named. -/
theorem outcome_sealLoop (hs : ssl.Sound prim) (hl : prim.gcm.Lengths) (hcap : 2 ^ 20 ≤ cap)
    (hi : i < 2 ^ 32) (hgood : w.input.state.good = true) (hhanded : Handed o₀ bytes w.output) :
    Outcome (sealLoop ssl e.serialized e.noncePrefix e.fileKey e.aad (UInt32.ofNat i)) w
      (fun _ w' => ∃ parts last, SealedAs prim.gcm e i w o₀ bytes parts last w')
      (fun error w' => ∃ parts, StoppedAt ssl prim cap e i w o₀ bytes parts error w') := by
  -- The loop ends because the index grows up to its bound.
  induction hleft : 2 ^ 32 - i using Nat.strong_induction_on generalizing i w bytes with
  | _ left ih =>
    rw [sealLoop, outcome_bind]
    refine outcome_sealChunk hs hl hcap hi hgood hhanded (fun part w₁ hround => ?_)
      (fun last w₁ hsealed => ?_) fun error w₁ hstopped => ⟨[], hstopped⟩
    · simp only [Bool.false_eq_true, and_true, dite_false]
      by_cases hlast : UInt32.ofNat i = uint32Max
      · -- A full part under the last index leaves no index for the final one.
        rw [dif_pos hlast, outcome_throw]
        have hnot := (ofNat_eq_uint32Max_iff hi).mp hlast
        have hbad : w₁.input.state.badbit = false := by
          rw [hround.input, IoState.eq_of_good hgood]
        refine ⟨[part], by simpa using hround.length_part, by simpa using hround.startsWith,
          .inr (.inl ⟨rfl, by rw [List.length_singleton]; omega, hbad, hround.has, hround.aad_le,
            hround.reliable, ?_⟩), _, hround.chunks, .single rfl hi⟩
        simpa [fullRecords, Envelope.sealFull] using hround.handed
      · rw [dif_neg hlast]
        have hi₁ : i + 1 < 2 ^ 32 := not_not.mp fun h => hlast ((ofNat_eq_uint32Max_iff hi).mpr h)
        have hgood₁ : w₁.input.state.good = true := by rw [hround.input]; exact hgood
        have hstep : UInt32.ofNat i + 1 = UInt32.ofNat (i + 1) := (UInt32.ofNat_add i 1).symm
        rw [hstep]
        refine (ih (2 ^ 32 - (i + 1)) (by omega) hi₁ hgood₁ hround.handed rfl).mono ?_ ?_
        · rintro ⟨⟩ w' ⟨parts, last, hsealed⟩
          exact ⟨part :: parts, last, hsealed.cons hround⟩
        · rintro error w' ⟨parts, hstopped⟩
          exact ⟨part :: parts, hstopped.cons hround⟩
    · simp only [Bool.true_eq_false, and_false, dite_false, dite_true, outcome_pure]
      exact ⟨[], last, hsealed⟩

end SealLoop

/-! ## The stream overloads -/

section SealStream

variable {ssl : Openssl} {prim : Primitives} {cap : ℕ} {ω : Type} [Output ω] [LawfulOutput ω]
  {format : FileFormat} {e : Envelope} {w : World ω} {aad : Bytes}

/-- **Sealing a payload** behind its header. -/
theorem outcome_sealStreamPayload (hs : ssl.Sound prim) (hl : prim.gcm.Lengths)
    (hcap : 2 ^ 20 ≤ cap) (hgood : w.input.state.good = true) :
    Outcome (sealStreamPayload ssl e.serialized e.noncePrefix e.fileKey e.aad) w
      (fun _ w' => ∃ parts last, SealedAs prim.gcm e 0 w w.output e.serialized parts last w')
      (fun error w' => ∃ parts,
        StoppedAt ssl prim cap e 0 w w.output e.serialized parts error w') := by
  simp only [sealStreamPayload, outcome_bind, outcome_onOutput]
  refine outcome_writeAll (Handed.refl _) (fun o₁ h₁ hrel₁ => ?_) fun hnot o₁ h₁ => ?_
  · rw [List.nil_append] at h₁
    have hloop := outcome_sealLoop (e := e) (i := 0) (w := { w with output := o₁ }) hs hl hcap (by decide)
      hgood h₁
    refine hloop.mono ?_ ?_
    · rintro ⟨⟩ w' ⟨parts, last, h⟩
      exact ⟨parts, last, h.source, h.full, h.last_le, h.last_ne, h.index_lt, h.aad_le, h.handed,
        h.reliable ∘ hrel₁, h.chunks, h.not_bad⟩
    · rintro error w' ⟨parts, h⟩
      refine ⟨parts, h.full, h.startsWith, ?_, h.chunks⟩
      refine h.cause.imp_right (Or.imp ?_ fun hother => ⟨?_, hother.2⟩)
      · rintro ⟨herror, hindex, hbad, hhas, haad, hrel, hhanded⟩
        exact ⟨herror, hindex, hbad, hhas, haad, hrel ∘ hrel₁, hhanded⟩
      · refine hother.1.imp_right (Or.imp_right ?_)
        rintro ⟨herror, hnot⟩
        exact ⟨herror, fun hrel => hnot (hrel₁ hrel)⟩
  · have hbad : w.input.state.badbit = false := by rw [IoState.eq_of_good hgood]
    exact ⟨[], by simp, by simp, .inr (.inr ⟨.inr (.inr ⟨rfl, hnot⟩), hbad⟩), [], by simp,
      rfl, by simp⟩

/-- **Sealing a stream** makes a header and seals the payload behind it. -/
theorem outcome_sealStream (law : format.Lawful ssl prim cap) (hs : ssl.Sound prim)
    (hl : prim.gcm.Lengths) (hcap : 2 ^ 20 ≤ cap) (hgood : w.input.state.good = true) :
    Outcome (sealStream ssl format aad) w
      (fun _ w' => ∃ salt noncePrefix parts last, ssl.Draws salt ∧ ssl.Draws noncePrefix ∧
        SealedAs prim.gcm (law.envelope salt noncePrefix aad) 0 w w.output
          (law.envelope salt noncePrefix aad).serialized parts last w')
      (fun error w' =>
        (error.code = .backend_failure ∧ ¬ ssl.Available prim cap ∧ w'.input = w.input ∧
          w'.output = w.output ∧ w'.chunks = w.chunks) ∨
        ∃ salt noncePrefix parts,
          StoppedAt ssl prim cap (law.envelope salt noncePrefix aad) 0 w w.output
            (law.envelope salt noncePrefix aad).serialized parts error w') := by
  rw [sealStream, outcome_bind, outcome_onLib]
  refine law.outcome_make (fun salt noncePrefix lib₁ hsalt hnonce => ?_) fun havail error lib₁ hcode =>
    .inl ⟨hcode, havail, rfl, rfl, rfl⟩
  rw [outcome_bind, outcome_onLib]
  refine law.outcome_deriveKey (fun lib₂ => ?_) fun havail error lib₂ hcode =>
    .inl ⟨hcode, havail, rfl, rfl, rfl⟩
  rw [law.noncePrefix_header]
  have hpayload := outcome_sealStreamPayload (e := law.envelope salt noncePrefix aad)
    (w := { w with lib := lib₂ }) hs hl hcap hgood
  refine hpayload.mono ?_ ?_
  · rintro ⟨⟩ w' ⟨parts, last, h⟩
    exact ⟨salt, noncePrefix, parts, last, hsalt, hnonce, h.source, h.full, h.last_le, h.last_ne,
      h.index_lt, h.aad_le, h.handed, h.reliable, h.chunks, h.not_bad⟩
  · rintro error w' ⟨parts, h⟩
    exact .inr ⟨salt, noncePrefix, parts, h.full, h.startsWith, h.cause, h.chunks⟩

end SealStream

end SecureKit.File
