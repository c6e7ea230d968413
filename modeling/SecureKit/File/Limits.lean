import SecureKit.Base.Chunks
import SecureKit.Base.Kdf
import SecureKit.File.Seal
import SecureKit.File.Open

/-!
# Nonces and the largest file

A chunk index has 32 bits and is part of the nonce, so a run that used an index twice would use a
nonce twice.  The loops stop before this happens.

* `outcome_sealStreamPayload_chunks` is about any run whatsoever: no matter what the input, the
  output and the library do, the calls of `encrypt_chunk` are numbered from zero on, up to the
  last index.
* `outcome_sealStreamPayload_limit` says which inputs are sealed when nothing fails: those of at
  most 2^52 bytes, an endless one is cut off behind 2^32 records that are not final.
* `outcome_openFilePayload_limit` is the same for opening.

`seal_open_limits` puts them together.

## The calls of a run

`recordChunk` keeps the arguments and the result of every call of `encrypt_chunk` that it makes, and
`World.chunks` is the list of these.  `NumberedNonces` says of a run that the `k`-th call has the
nonce of index `k` behind the nonce prefix, that there are at most 2^32 of them, and that no nonce
is used twice.  A round makes at most one call, with its own index (`outcome_sealChunk_chunks`),
and the index grows from round to round; that is the induction of `outcome_sealLoop_chunks`.

## The limit

The last index is 2^32 - 1.  A full part with something behind it uses up an index, so 2^52 bytes
can be sealed and one byte more cannot.  `SealsUpToLimit` says so for every input, an endless one
included, and `OpensUpToLimit` says that opening accepts no index behind the last one.

The nonces are those of every run.  The limits assume that the output loses nothing; for sealing the
input must be readable to its end as well, and the library `Available`, since any failure would end
the run before the limit is met.
-/

namespace SecureKit.File

open ByteString Effect Iostream Evp

/-! ## Numbered calls -/

/-- The calls of `encrypt_chunk` of a run: the `k`-th one uses the nonce of index `k`, and no nonce
is used twice. -/
structure NumberedNonces (noncePrefix : ByteArr kNoncePrefixSize) (calls : List ChunkCall) :
    Prop where
  length_le : calls.length ≤ 2 ^ 32
  nonce_eq : ∀ k (hk : k < calls.length),
    calls[k].nonce = (noncePrefix : Bytes) ++ (be32 (UInt32.ofNat k) : Bytes)
  nodup : (calls.map ChunkCall.nonce).Nodup

lemma Envelope.nonce_eq (e : Envelope) (i : ℕ) :
    e.nonce i = (e.noncePrefix : Bytes) ++ (be32 (UInt32.ofNat i) : Bytes) :=
  coe_makeNonce _ _

/-- Different indices have different nonces. -/
lemma Envelope.nonce_injective {e : Envelope} {i j : ℕ} (hi : i < 2 ^ 32) (hj : j < 2 ^ 32)
    (h : e.nonce i = e.nonce j) : i = j := by
  have hnat := congrArg UInt32.toNat (makeNonce_injective (ByteArr.ext h))
  rwa [UInt32.toNat_ofNat_of_lt' hi, UInt32.toNat_ofNat_of_lt' hj] at hnat

lemma Numbered.numberedNonces {e : Envelope} {calls : List ChunkCall} (h : Numbered e 0 calls) :
    NumberedNonces e.noncePrefix calls where
  length_le := by simpa using h.le
  nonce_eq k hk := by
    have hmap := congrArg (·[k]?) h.nonces
    simp only [List.getElem?_map, List.getElem?_eq_getElem hk, Option.map_some] at hmap
    rw [List.getElem?_range' hk] at hmap
    rw [← e.nonce_eq k]
    simpa using hmap
  nodup := by
    rw [h.nonces]
    refine List.Nodup.map_on ?_ List.nodup_range'
    intro i hi j hj hij
    have hle := h.le
    rw [List.mem_range'_1] at hi hj
    exact Envelope.nonce_injective (by omega) (by omega) hij

section Calls

variable (ssl : Openssl) {ω : Type} [Output ω] (e : Envelope)

/-- A round makes at most one call of `encrypt_chunk`, under its index; one that returns has made
it. -/
lemma outcome_sealChunk_chunks (i : ℕ) (w : World ω) :
    Outcome (sealChunk ssl e.serialized e.noncePrefix e.fileKey e.aad (UInt32.ofNat i)) w
      (fun _ w' => ∃ call, w'.chunks = w.chunks ++ [call] ∧ call.nonce = e.nonce i)
      (fun _ w' => w'.chunks = w.chunks ∨
        ∃ call, w'.chunks = w.chunks ++ [call] ∧ call.nonce = e.nonce i) := by
  simp only [sealChunk, sealRecord, outcome_bind, outcome_onInput, outcome_recordChunk,
    outcome_onOutput, outcome_pure]
  refine outcome_intro (fun chunk s' _ => ?_) fun _ _ _ => .inl trivial
  refine outcome_intro (fun encrypted lib' _ => ?_) fun _ _ _ => .inr ⟨_, rfl, rfl⟩
  refine outcome_intro (fun _ o₁ _ => ?_) fun _ _ _ => .inr ⟨_, rfl, rfl⟩
  refine outcome_intro (fun _ o₂ _ => ?_) fun _ _ _ => .inr ⟨_, rfl, rfl⟩
  exact outcome_intro (fun _ o₃ _ => ⟨_, rfl, rfl⟩) fun _ _ _ => .inr ⟨_, rfl, rfl⟩

/-- The calls of the loop are numbered from its index on. -/
lemma outcome_sealLoop_chunks {i : ℕ} (hi : i < 2 ^ 32) (w : World ω) :
    Outcome (sealLoop ssl e.serialized e.noncePrefix e.fileKey e.aad (UInt32.ofNat i)) w
      (fun _ w' => ∃ calls, w'.chunks = w.chunks ++ calls ∧ Numbered e i calls)
      (fun _ w' => ∃ calls, w'.chunks = w.chunks ++ calls ∧ Numbered e i calls) := by
  -- The loop ends because the index grows up to its bound.
  induction hleft : 2 ^ 32 - i using Nat.strong_induction_on generalizing i w with
  | _ left ih =>
    rw [sealLoop, outcome_bind]
    refine (outcome_sealChunk_chunks ssl e i w).mono ?_ ?_
    · rintro wroteFinal w₁ ⟨call, hchunks, hnonce⟩
      have hone : ∃ calls, w₁.chunks = w.chunks ++ calls ∧ Numbered e i calls :=
        ⟨[call], hchunks, .single hnonce hi⟩
      cases wroteFinal with
      | true => simpa using hone
      | false =>
        simp only [Bool.false_eq_true, and_true, dite_false]
        by_cases hlast : UInt32.ofNat i = uint32Max
        · rw [dif_pos hlast, outcome_throw]
          exact hone
        · rw [dif_neg hlast]
          have hi₁ : i + 1 < 2 ^ 32 :=
            not_not.mp fun h => hlast ((ofNat_eq_uint32Max_iff hi).mpr h)
          have hstep : UInt32.ofNat i + 1 = UInt32.ofNat (i + 1) := (UInt32.ofNat_add i 1).symm
          have hcons : ∀ w' : World ω,
              (∃ calls, w'.chunks = w₁.chunks ++ calls ∧ Numbered e (i + 1) calls) →
              ∃ calls, w'.chunks = w.chunks ++ calls ∧ Numbered e i calls := by
            rintro w' ⟨calls, hcalls, hnumbered⟩
            refine ⟨call :: calls, ?_, hnumbered.cons hnonce⟩
            rw [hcalls, hchunks, List.append_assoc, List.singleton_append]
          rw [hstep]
          exact (ih (2 ^ 32 - (i + 1)) (by omega) hi₁ w₁ rfl).mono (fun _ => hcons) fun _ => hcons
    · rintro error w₁ (hsame | ⟨call, hchunks, hnonce⟩)
      · exact ⟨[], by simpa using hsame, rfl, by simpa using hi.le⟩
      · exact ⟨[call], hchunks, .single hnonce hi⟩

/-- **The calls of a run** are numbered, however it ends. -/
theorem outcome_sealStreamPayload_chunks (w : World ω) :
    Outcome (sealStreamPayload ssl e.serialized e.noncePrefix e.fileKey e.aad) w
      (fun _ w' => ∃ calls, w'.chunks = w.chunks ++ calls ∧ NumberedNonces e.noncePrefix calls)
      (fun _ w' => ∃ calls, w'.chunks = w.chunks ++ calls ∧
        NumberedNonces e.noncePrefix calls) := by
  rw [sealStreamPayload, outcome_bind, outcome_onOutput]
  refine outcome_intro (fun _ o _ => ?_) fun _ o _ => ⟨[], by simp, by simp, by simp, by simp⟩
  refine (outcome_sealLoop_chunks ssl e (i := 0) (by decide) { w with output := o }).mono ?_ ?_
  · rintro _ w' ⟨calls, hcalls, hnumbered⟩
    exact ⟨calls, hcalls, hnumbered.numberedNonces⟩
  · rintro _ w' ⟨calls, hcalls, hnumbered⟩
    exact ⟨calls, hcalls, hnumbered.numberedNonces⟩

end Calls

/-! ## The size limit -/

/-- What is left of an input: nothing, once its end has been met. -/
def remaining (s : IStream) : Source :=
  if s.state.eofbit then .finite [] .eof else s.source

section Limit

variable {ssl : Openssl} {prim : Primitives} {ω : Type} [Output ω] [LawfulOutput ω]
  {e : Envelope} {w : World ω}

/-- An input that has met its end is sealed as an empty file. -/
lemma outcome_sealStreamPayload_of_ended (hs : ssl.Sound prim) (hl : prim.gcm.Lengths)
    (heof : w.input.state.eofbit = true) :
    Outcome (sealStreamPayload ssl e.serialized e.noncePrefix e.fileKey e.aad) w
      (fun _ w' => e.serialized.length + kRecordHeaderSize + e.aad.length ≤ intMax ∧
        Handed w.output (e.serialized ++ e.sealedBody prim.gcm 0 [] []) w'.output ∧
        (Reliable w.output → Reliable w'.output))
      (fun error _ => RecordFailure ssl prim (2 ^ 20) e w.output error) := by
  have hgood : w.input.state.good = false := by simp [IoState.good, heof]
  rw [sealStreamPayload, outcome_bind, outcome_onOutput]
  refine outcome_writeAll (Handed.refl _) (fun o₁ h₁ hrel₁ => ?_) fun hnot o₁ h₁ =>
    .inr (.inr ⟨rfl, hnot⟩)
  rw [sealLoop, outcome_bind, sealChunk, outcome_bind, outcome_onInput]
  refine outcome_readChunk_of_not_good hgood (fun _ => ?_) fun h => ?_
  · rw [outcome_bind]
    refine outcome_sealRecord (i := 0) hs hl le_rfl (Nat.zero_le _) h₁
      (fun o' lib' haad ho' hrel' => ?_) fun error o' lib' part result _ hcause => ?_
    · simpa [Envelope.sealedBody, Envelope.sealFull, fullRecords] using
        And.intro haad ⟨ho', fun hrel => hrel' (hrel₁ hrel)⟩
    · refine hcause.imp_right (Or.imp_right ?_)
      rintro ⟨herror, hnot⟩
      exact ⟨herror, fun hrel => hnot (hrel₁ hrel)⟩
  · rw [heof] at h
    cases h

/-- A run of `seal_stream_payload` seals inputs up to the limit: those of at most 2^52 bytes are
sealed, and of all others 2^32 records are written, none of which is final. -/
structure SealsUpToLimit (e : Envelope) (sealing : Eff (World ω) Unit) (w : World ω) : Prop where
  returns_iff : (∃ w', sealing w = .ok () w') ↔
    ∃ bytes, remaining w.input = .finite bytes .eof ∧ bytes.length ≤ 2 ^ 52
  throws : ∀ error w', sealing w = .error error w' → error.code = .invalid_input ∧
    ∃ full : List EncryptedChunk, full.length = 2 ^ 32 ∧
      (∀ chunk ∈ full, chunk.ciphertext.length = 2 ^ 20) ∧
      written w'.output = written w.output ++ (e.serialized ++ fullRecords 0 full)

/-- How a run ends when neither the streams nor the library fail. -/
lemma outcome_sealStreamPayload_limit (hs : ssl.Sound prim) (ha : ssl.Available prim (2 ^ 20))
    (hl : prim.gcm.Lengths) (hfail : w.input.state.fail = false)
    (hfaults : w.input.source.faults = false) (hrel : Reliable w.output) :
    Outcome (sealStreamPayload ssl e.serialized e.noncePrefix e.fileKey e.aad) w
      (fun _ _ => e.serialized.length + kRecordHeaderSize + e.aad.length ≤ intMax ∧
        ∃ bytes, remaining w.input = .finite bytes .eof ∧ bytes.length ≤ 2 ^ 52)
      (fun error w' =>
        (error = updateLimitError "AAD" ∧
          intMax < e.serialized.length + kRecordHeaderSize + e.aad.length) ∨
        (error = tooLarge ∧
          (¬ ∃ bytes, remaining w.input = .finite bytes .eof ∧ bytes.length ≤ 2 ^ 52) ∧
          ∃ full : List EncryptedChunk, full.length = 2 ^ 32 ∧
            (∀ chunk ∈ full, chunk.ciphertext.length = 2 ^ 20) ∧
            written w'.output = written w.output ++ (e.serialized ++ fullRecords 0 full))) := by
  have hrecord : ∀ {error : Error}, RecordFailure ssl prim (2 ^ 20) e w.output error →
      error = updateLimitError "AAD" ∧
        intMax < e.serialized.length + kRecordHeaderSize + e.aad.length := by
    rintro error (hlong | ⟨-, hnot⟩ | ⟨-, hnot⟩)
    · exact hlong
    · exact absurd ha hnot
    · exact absurd hrel hnot
  cases heof : w.input.state.eofbit with
  -- A stream at its end is sealed as an empty file, which is within the limit.
  | true =>
    refine (outcome_sealStreamPayload_of_ended hs hl heof).mono ?_ ?_
    · rintro ⟨⟩ w' ⟨haad, -, -⟩
      exact ⟨haad, [], by simp [remaining, heof], by simp⟩
    · exact fun error w' hcause => .inl (hrecord hcause)
  | false =>
    have hgood : w.input.state.good = true := by
      simp only [IoState.fail, Bool.or_eq_false_iff] at hfail
      simp [IoState.good, heof, hfail]
    have hremaining : remaining w.input = w.input.source := by simp [remaining, heof]
    rw [hremaining]
    refine (outcome_sealStreamPayload hs hl le_rfl hgood).mono ?_ ?_
    · rintro ⟨⟩ w' ⟨parts, last, h⟩
      -- A run that returns has numbered its parts with 32 bits.
      have hcount := h.index_lt
      have hlast := h.last_le
      refine ⟨h.aad_le, _, h.source, ?_⟩
      rw [List.length_append, Chunks.length_flatten_of_full h.full]
      omega
    · rintro error w' ⟨parts, h⟩
      rcases h.cause with ⟨-, hf, -⟩ | ⟨rfl, hcount, -, hhas, -, hrel', hhanded⟩ | ⟨hcause, -⟩
      · rw [hfaults] at hf
        cases hf
      · refine .inr ⟨rfl, ?_, e.sealFull prim.gcm 0 parts, ?_, ?_, ?_⟩
        · -- `2 ^ 32` full parts and one more byte are more than the limit.
          rintro ⟨bytes, hsource, hlen⟩
          rw [hsource, Source.has_finite] at hhas
          omega
        · rw [Envelope.length_sealFull]
          omega
        · exact Envelope.length_of_mem_sealFull hl h.full
        · exact hhanded.written_eq (LawfulOutput.intact_of_reliable _ (hrel' hrel))
      · exact .inl (hrecord hcause)

omit [LawfulOutput ω] in
variable (ssl e) in
/-- On a stream that is not good no record is read. -/
lemma outcome_openFilePayload_of_not_good (hgood : w.input.state.good = false) :
    Outcome (openFilePayload ssl e.serialized e.noncePrefix e.fileKey e.aad) w (fun _ _ => False)
      (fun _ w' => w'.output = w.output) := by
  rw [openFilePayload, openLoop]
  simp only [openRecord, readRecord, readField, readExact, outcome_bind, outcome_onInput,
    outcome_readBytes, outcome_ite, outcome_flags, outcome_throwIf, outcome_pure,
    IStream.read_of_not_good hgood]
  exact ⟨fun h => absurd h (by decide), fun _ => ⟨fun _ => trivial, fun _ => trivial⟩⟩

/-- A run of `open_file_payload` accepts records under the indices from zero up to the last one,
and writes the plaintext of no other. -/
structure OpensUpToLimit (gcm : AesGcm) (e : Envelope) (opening : Eff (World ω) Unit)
    (w : World ω) : Prop where
  returns : ∀ w', opening w = .ok () w' → ∃ full last, full.length + 1 ≤ 2 ^ 32 ∧
    e.VerifiedFull gcm 0 full ∧ e.Verifies gcm full.length kFinal last ∧
    w.input.source.StartsWith (fullRecords 0 full ++ recordBytes full.length kFinal last) ∧
    written w'.output =
      written w.output ++ (e.plaintexts gcm 0 full ++ e.plaintext gcm full.length last)
  throws : ∀ error w', opening w = .error error w' → ∃ full, full.length ≤ 2 ^ 32 ∧
    e.VerifiedFull gcm 0 full ∧ w.input.source.StartsWith (fullRecords 0 full) ∧
    written w'.output = written w.output ++ e.plaintexts gcm 0 full

lemma opensUpToLimit (hs : ssl.Sound prim) (hl : prim.gcm.Lengths) (hrel : Reliable w.output) :
    OpensUpToLimit prim.gcm e
      (openFilePayload ssl e.serialized e.noncePrefix e.fileKey e.aad) w := by
  cases hgood : w.input.state.good with
  | false =>
    have houtcome := outcome_openFilePayload_of_not_good ssl e hgood
    refine ⟨fun w' hrun => (houtcome.of_ok hrun).elim, fun error w' hrun => ?_⟩
    refine ⟨[], by simp, trivial, Source.startsWith_nil _, ?_⟩
    rw [houtcome.of_error hrun, Envelope.plaintexts, List.append_nil]
  | true =>
    have houtcome := outcome_openLoop (e := e) (i := 0) hs hl le_rfl (by decide) hgood hrel
    refine ⟨fun w' hrun => ?_, fun error w' hrun => ?_⟩
    · obtain ⟨-, out, hreads, hwritten⟩ := houtcome.of_ok hrun
      obtain ⟨full, last, hto, hlast, rfl⟩ :=
        (Envelope.reads_accepted_iff (by decide)).mp hreads
      have hindex := hto.index_lt
      have hrecord := hto.recordAt.startsWith
      rw [Nat.zero_add] at hindex hlast hrecord hwritten
      exact ⟨full, last, hindex, hto.verified, hlast,
        Source.startsWith_append.mpr ⟨hto.startsWith, hrecord⟩, hwritten⟩
    · obtain ⟨verdict, out, hreads, hwritten, hreported⟩ := houtcome.of_error hrun
      have hverdict : verdict ≠ .accepted := by
        rintro rfl
        exact hreported
      obtain ⟨full, hfull, hstarts, hle, rfl⟩ := hreads.released hverdict (by decide)
      exact ⟨full, by omega, hfull, hstarts, hwritten⟩

end Limit

/-! ## Nonces and limits together -/

section Together

variable {ω : Type} [Output ω] [LawfulOutput ω]

/-- **Nonce uniqueness and the size limit.**  The calls of a run of sealing are numbered, however
it ends.  Where neither the streams nor the library fail, inputs are sealed up to the limit, and
none are where the additional data of a chunk is larger than an `int`.  Opening stops at the same
limit. -/
theorem seal_open_limits (ssl : Openssl) (e : Envelope) (w : World ω) :
    (∀ w', (sealStreamPayload ssl e.serialized e.noncePrefix e.fileKey e.aad w = .ok () w' ∨
        ∃ error, sealStreamPayload ssl e.serialized e.noncePrefix e.fileKey e.aad w =
          .error error w') →
      ∃ calls, w'.chunks = w.chunks ++ calls ∧ NumberedNonces e.noncePrefix calls) ∧
    ∀ prim : Primitives, ssl.Sound prim → prim.gcm.Lengths → Reliable w.output →
      (ssl.Available prim (2 ^ 20) → w.input.state.fail = false →
        w.input.source.faults = false →
        (e.serialized.length + kRecordHeaderSize + e.aad.length ≤ intMax →
          SealsUpToLimit e
            (sealStreamPayload ssl e.serialized e.noncePrefix e.fileKey e.aad) w) ∧
        (intMax < e.serialized.length + kRecordHeaderSize + e.aad.length →
          ∃ error w', sealStreamPayload ssl e.serialized e.noncePrefix e.fileKey e.aad w =
            .error error w' ∧ error.code = .invalid_input)) ∧
      OpensUpToLimit prim.gcm e
        (openFilePayload ssl e.serialized e.noncePrefix e.fileKey e.aad) w := by
  constructor
  · -- The nonces, however the run ends and whatever the library does.
    have hcalls := outcome_sealStreamPayload_chunks ssl e w
    rintro w' (hrun | ⟨error, hrun⟩)
    · exact hcalls.of_ok hrun
    · exact hcalls.of_error hrun
  · intro prim hs hl hrel
    refine ⟨fun ha hfail hfaults => ?_, opensUpToLimit hs hl hrel⟩
    have hlimit := outcome_sealStreamPayload_limit (e := e) hs ha hl hfail hfaults hrel
    refine ⟨fun haad => ⟨⟨?_, ?_⟩, ?_⟩, fun hlong => ?_⟩
    · -- A run returns exactly if its input is within the limit.
      rintro ⟨w', hrun⟩
      exact (hlimit.of_ok hrun).2
    · intro hsmall
      cases hrun : sealStreamPayload ssl e.serialized e.noncePrefix e.fileKey e.aad w with
      | ok _ w' => exact ⟨w', rfl⟩
      | error error w' =>
        rcases hlimit.of_error hrun with ⟨-, hlong⟩ | ⟨-, hnot, -⟩
        · omega
        · exact absurd hsmall hnot
    · intro error w' hrun
      rcases hlimit.of_error hrun with ⟨-, hlong⟩ | ⟨rfl, -, hfull⟩
      · omega
      · exact ⟨rfl, hfull⟩
    · cases hrun : sealStreamPayload ssl e.serialized e.noncePrefix e.fileKey e.aad w with
      | ok _ w' =>
        have haad := (hlimit.of_ok hrun).1
        omega
      | error error w' =>
        refine ⟨error, w', rfl, ?_⟩
        rcases hlimit.of_error hrun with ⟨rfl, -⟩ | ⟨rfl, -⟩ <;> rfl

end Together

/-- A byte is sealed under the standard primitives, and a file that is cut off is not opened. -/
theorem seal_open_limits_standard :
    (∃ w', sealStreamPayload standardLibrary [0x48] (ByteArr.zeros 8) (ByteArr.zeros 32) [0x41]
      ({ input := .ofBytes [0x61], output := {} } : World OStream) = .ok () w') ∧
    OpensUpToLimit standard.gcm ⟨[0x48], ByteArr.zeros 8, ByteArr.zeros 32, [0x41]⟩
      (openFilePayload standardLibrary [0x48] (ByteArr.zeros 8) (ByteArr.zeros 32) [0x41])
      ({ input := .ofBytes [0x61], output := {} } : World OStream) := by
  have h := (seal_open_limits standardLibrary ⟨[0x48], ByteArr.zeros 8, ByteArr.zeros 32, [0x41]⟩
    ({ input := .ofBytes [0x61], output := {} } : World OStream)).2 standard standardLibrary_sound
    standard_lengths ⟨rfl, rfl⟩
  refine ⟨?_, h.2⟩
  have hseals := (h.1 (standardLibrary_available _) rfl rfl).1 (by decide)
  exact hseals.returns_iff.mpr ⟨[0x61], rfl, by decide⟩

end SecureKit.File
