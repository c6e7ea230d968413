import SecureKit.File.RoundTrip

/-!
# What can be opened was sealed

Integrity of sealed files under an ideal AEAD: where tags verify only for what some call of
`encrypt_chunk` returned, the only files that open are the sealed ones.

The argument is about one record at a time.  The additional data of a chunk is an unframed
concatenation of the file header, the record header and the caller's data, but the first two have
fixed widths, so it can be taken apart (`Envelope.chunkAad_injective`).  A record that verifies
therefore carries the header of one sealed file, and its index and final flag are those of the
chunk it was made as.  As the headers of the files differ, all records of an opened file come from
the same one (`SealRun.eq_of_header`), in order and up to the final one
(`Envelope.eq_sealed_of_unforgeable`).

## What is assumed

`Unforgeable gcm log` is the ideal AEAD: a tag verifies only for arguments and a result that are in
`log`, the `encrypt_chunk` calls of the runs.  `Decrypts gcm log` is what decryption owes to the
same calls.  Nothing is said about tags that verify by chance, so the theorem says what an attacker
has to do to the cipher in order to make a file that opens and was not sealed.

`SealRun` is a completed call of sealing with what it wrote and what it asked of `encrypt_chunk`.
Its arguments are free: the runs may have any inputs, any additional data and any library that
computes the primitives.  Different headers are demanded of them; salt and nonce prefix are drawn,
and two runs with the same ones would encrypt under the same nonces.

## The two formats

`openStream_sealed_of_unforgeable` is about one format, given by a `FileFormat` that is `Lawful`.
`open_sealed_of_unforgeable` uses it for both, and tells the runs of one secret by it: a key for
`seal_file`, a password for `seal_file_with_password`.  An empty password is rejected before the
file is read, so there it holds of no file.

`open_sealed_of_unforgeable_twins` is a case of two runs under one key with different headers and
different texts, both of which open under a cipher that verifies their two tags and no others.
-/

namespace SecureKit.File

open ByteString Effect Iostream Evp

/-! ## An ideal AEAD -/

/-- Tags verify only for what a call of the log returned. -/
def Unforgeable (gcm : AesGcm) (log : List ChunkCall) : Prop :=
  ∀ key nonce aad ciphertext tag, gcm.verify key nonce aad ciphertext tag = true →
    ∃ call ∈ log, call.fileKey = key ∧ call.nonce = nonce ∧ call.aad = aad ∧
      call.result = some ⟨ciphertext, tag⟩

/-- What a call of the log returned decrypts to its plaintext. -/
def Decrypts (gcm : AesGcm) (log : List ChunkCall) : Prop :=
  ∀ call ∈ log, ∀ chunk, call.result = some chunk →
    gcm.decText call.fileKey call.nonce chunk.ciphertext = call.plaintext

/-! ## Additional data -/

namespace Envelope

variable {gcm : AesGcm} {e e' : Envelope}

/-- Header, record header and caller's data can be read off the additional data of a chunk. -/
lemma chunkAad_injective (hlen : e.serialized.length = e'.serialized.length) {i j : ℕ}
    {f g : UInt8} {m n : ℕ} (hm : m ≤ 2 ^ 20) (hn : n ≤ 2 ^ 20)
    (h : e.chunkAad i f m = e'.chunkAad j g n) :
    e.serialized = e'.serialized ∧ UInt32.ofNat i = UInt32.ofNat j ∧ f = g ∧ m = n ∧
      e.aad = e'.aad := by
  rw [chunkAad, chunkAad, makeChunkAad, makeChunkAad, List.append_assoc, List.append_assoc] at h
  obtain ⟨hserialized, hrest⟩ := List.append_inj h hlen
  obtain ⟨hrecord, haad⟩ := List.append_inj hrest (by simp)
  obtain ⟨hindex, hflag, hsize⟩ := recordHeader_injective hm hn hrecord
  exact ⟨hserialized, hindex, hflag, hsize, haad⟩

/-! ## The calls of a run -/

/-- The calls of a run are those of its chunks under their indices. -/
lemma mem_calls {i : ℕ} {parts : List Bytes} {last : Bytes} {call : ChunkCall}
    (h : call ∈ e.calls gcm i parts last) :
    (∃ k, ∃ hk : k < parts.length, call = e.call (i + k) kNotFinal parts[k]
      (some (e.sealed gcm (i + k) kNotFinal parts[k]))) ∨
    call = e.call (i + parts.length) kFinal last
      (some (e.sealed gcm (i + parts.length) kFinal last)) := by
  induction parts generalizing i with
  | nil => exact .inr (by simpa [calls] using h)
  | cons part parts ih =>
    rcases List.mem_cons.mp h with rfl | h
    · exact .inl ⟨0, by simp, rfl⟩
    · rcases ih h with ⟨k, hk, rfl⟩ | rfl
      · refine .inl ⟨k + 1, by simpa using hk, ?_⟩
        rw [List.getElem_cons_succ, Nat.add_right_comm, Nat.add_assoc]
      · refine .inr ?_
        rw [List.length_cons, Nat.add_right_comm, Nat.add_assoc]

lemma VerifiedFull.getElem {i : ℕ} {chunks : List EncryptedChunk}
    (h : e.VerifiedFull gcm i chunks) (k : ℕ) (hk : k < chunks.length) :
    chunks[k].ciphertext.length = 2 ^ 20 ∧ e.Verifies gcm (i + k) kNotFinal chunks[k] := by
  induction chunks generalizing i k with
  | nil => simp at hk
  | cons chunk chunks ih =>
    cases k with
    | zero => exact ⟨h.1, h.2.1⟩
    | succ k =>
      have hnext := ih h.2.2 k (by simpa using hk)
      rwa [Nat.add_right_comm, Nat.add_assoc] at hnext

lemma getElem_sealFull {i : ℕ} {parts : List Bytes} (k : ℕ) (hk : k < parts.length)
    (hk' : k < (e.sealFull gcm i parts).length) :
    (e.sealFull gcm i parts)[k] = e.sealed gcm (i + k) kNotFinal parts[k] := by
  induction parts generalizing i k with
  | nil => simp at hk
  | cons part parts ih =>
    cases k with
    | zero => rfl
    | succ k =>
      have hnext := ih (i := i + 1) k (by simpa using hk) (by simpa using hk)
      simpa only [sealFull, List.getElem_cons_succ, Nat.add_right_comm i 1 k, Nat.add_assoc]
        using hnext

/-- Texts that agree chunk by chunk agree as a whole. -/
lemma plaintexts_eq_flatten {i : ℕ} {chunks : List EncryptedChunk} {parts : List Bytes}
    (hlen : chunks.length = parts.length)
    (h : ∀ k (hk : k < chunks.length) (hk' : k < parts.length),
      e.plaintext gcm (i + k) chunks[k] = parts[k]) :
    e.plaintexts gcm i chunks = parts.flatten := by
  induction chunks generalizing i parts with
  | nil =>
    obtain rfl : parts = [] := List.length_eq_zero_iff.mp hlen.symm
    rfl
  | cons chunk chunks ih =>
    cases parts with
    | nil => simp at hlen
    | cons part parts =>
      have hfirst := h 0 (by simp) (by simp)
      rw [plaintexts, List.flatten_cons]
      refine congrArg₂ (· ++ ·) hfirst (ih (by simpa using hlen) fun k hk hk' => ?_)
      have hnext := h (k + 1) (by simpa using hk) (by simpa using hk')
      simpa only [List.getElem_cons_succ, Nat.add_right_comm i 1 k, Nat.add_assoc] using hnext

/-- The additional data of a call of a run. -/
lemma exists_chunkAad_of_mem_calls {i : ℕ} {parts : List Bytes} {last : Bytes}
    {call : ChunkCall} (hfull : ∀ part ∈ parts, part.length = 2 ^ 20)
    (hlast : last.length ≤ 2 ^ 20) (h : call ∈ e.calls gcm i parts last) :
    ∃ j flag n, n ≤ 2 ^ 20 ∧ call.aad = e.chunkAad j flag n := by
  rcases mem_calls h with ⟨k, hk, rfl⟩ | rfl
  · exact ⟨_, _, _, (hfull _ (List.getElem_mem hk)).le, rfl⟩
  · exact ⟨_, _, _, hlast, rfl⟩

/-! ## Records that verify -/

/-- A record that is known to come from a run is one of its records, under the same index, and
decrypts to the part it was made of. -/
lemma record_of_call {parts : List Bytes} {last : Bytes}
    (hlen : e.serialized.length = e'.serialized.length)
    (hfull : ∀ part ∈ parts, part.length = 2 ^ 20) (hlast : last.length ≤ 2 ^ 20)
    (hindex : parts.length < 2 ^ 32) {i : ℕ} {flag : UInt8} {chunk : EncryptedChunk}
    (hi : i < 2 ^ 32) (hchunk : chunk.ciphertext.length ≤ 2 ^ 20) {call : ChunkCall}
    (hcall : call ∈ e'.calls gcm 0 parts last)
    (haad : call.aad = e.chunkAad i flag chunk.ciphertext.length)
    (hresult : call.result = some chunk) :
    (flag = kNotFinal ∧ ∃ hk : i < parts.length, chunk = e'.sealed gcm i kNotFinal parts[i] ∧
      call.plaintext = parts[i]) ∨
    (flag = kFinal ∧ i = parts.length ∧ chunk = e'.sealed gcm i kFinal last ∧
      call.plaintext = last) := by
  have hsame : ∀ {j : ℕ}, j < 2 ^ 32 → UInt32.ofNat j = UInt32.ofNat i → j = i := by
    intro j hj h
    have hnat := congrArg UInt32.toNat h
    rwa [UInt32.toNat_ofNat_of_lt' hj, UInt32.toNat_ofNat_of_lt' hi] at hnat
  rcases mem_calls hcall with ⟨k, hk, rfl⟩ | rfl
  · -- A call for a part in the middle, which is not final.
    have hpart : parts[k].length ≤ 2 ^ 20 := (hfull _ (List.getElem_mem hk)).le
    obtain ⟨-, hk', hflag, -, -⟩ := chunkAad_injective hlen.symm hpart hchunk haad
    rw [Nat.zero_add] at hk' hresult
    obtain rfl := hsame (by omega) hk'
    exact .inl ⟨hflag.symm, hk, (Option.some.inj hresult).symm, rfl⟩
  · -- The call for the last part.
    obtain ⟨-, hk', hflag, -, -⟩ := chunkAad_injective hlen.symm hlast hchunk haad
    rw [Nat.zero_add] at hk' hresult
    obtain rfl := hsame hindex hk'
    exact .inr ⟨hflag.symm, rfl, (Option.some.inj hresult).symm, rfl⟩

/-- **Records that all come from one run are the body of that run.** -/
lemma eq_sealed_of_calls {parts : List Bytes} {last : Bytes} {full : List EncryptedChunk}
    {final : EncryptedChunk} (hlen : e.serialized.length = e'.serialized.length)
    (hparts : ∀ part ∈ parts, part.length = 2 ^ 20) (hlast : last.length ≤ 2 ^ 20)
    (hindex : parts.length < 2 ^ 32) (hverified : e.VerifiedFull gcm 0 full)
    (hfinal : e.Verifies gcm full.length kFinal final) (hcount : full.length < 2 ^ 32)
    (hsize : final.ciphertext.length ≤ 2 ^ 20)
    (hcalls : ∀ i flag chunk, e.Verifies gcm i flag chunk → chunk.ciphertext.length ≤ 2 ^ 20 →
      ∃ call ∈ e'.calls gcm 0 parts last, call.aad = e.chunkAad i flag chunk.ciphertext.length ∧
        call.result = some chunk ∧ e.plaintext gcm i chunk = call.plaintext) :
    full = e'.sealFull gcm 0 parts ∧ final = e'.sealed gcm parts.length kFinal last ∧
      e.plaintexts gcm 0 full = parts.flatten ∧ e.plaintext gcm full.length final = last := by
  -- The final record is the last one of the run, so the two runs have the same length.
  obtain ⟨call, hcall, haad, hresult, htext⟩ := hcalls _ _ _ hfinal hsize
  rcases record_of_call hlen hparts hlast hindex hcount hsize hcall haad hresult with
    ⟨hflag, -⟩ | ⟨-, hlength, hchunk, hplain⟩
  · exact absurd hflag.symm kNotFinal_ne_kFinal
  have hrecords : ∀ k (hk : k < full.length), ∃ hk' : k < parts.length,
      full[k] = e'.sealed gcm k kNotFinal parts[k] ∧ e.plaintext gcm k full[k] = parts[k] := by
    intro k hk
    obtain ⟨hsize, hverifies⟩ := hverified.getElem k hk
    rw [Nat.zero_add] at hverifies
    obtain ⟨call, hcall, haad, hresult, htext⟩ := hcalls _ _ _ hverifies hsize.le
    rcases record_of_call hlen hparts hlast hindex (by omega) hsize.le hcall haad hresult with
      ⟨-, hk', hchunk, hplain⟩ | ⟨hflag, -⟩
    · exact ⟨hk', hchunk, htext.trans hplain⟩
    · exact absurd hflag kNotFinal_ne_kFinal
  refine ⟨?_, ?_, ?_, htext.trans hplain⟩
  · refine List.ext_getElem (by simpa using hlength) fun k hk hk' => ?_
    obtain ⟨hk'', hchunk, -⟩ := hrecords k hk
    rw [getElem_sealFull k hk'', Nat.zero_add]
    exact hchunk
  · rw [hchunk, hlength]
  · exact plaintexts_eq_flatten hlength fun k hk hk' => by
      rw [Nat.zero_add]
      exact (hrecords k hk).2.2

end Envelope

/-! ## Files sealed under one secret -/

/-- A completed call of sealing, of which nothing written was lost. -/
structure SealRun (prim : Primitives) (sealing : Openssl → Bytes → Eff (World OStream) Unit) where
  ssl : Openssl
  sound : ssl.Sound prim
  aad : Bytes
  plaintext : Bytes
  output : OStream
  lib : Lib
  final : World OStream
  returned : sealing ssl aad { input := .ofBytes plaintext, output, lib } = .ok () final
  intact : final.output.state.good = true

/-- The bytes the call wrote. -/
def SealRun.file {prim : Primitives} {sealing : Openssl → Bytes → Eff (World OStream) Unit}
    (run : SealRun prim sealing) : Bytes :=
  run.final.output.written.drop run.output.written.length

section Integrity

variable {ssl : Openssl} {prim : Primitives} {cap : ℕ} {format : FileFormat}
  {sealing : Openssl → Bytes → Eff (World OStream) Unit} {aad : Bytes}

/-- What is known of a run: its file is a sealed body behind a header, and its calls of
`encrypt_chunk` are those of that body. -/
structure SealRun.SealedBy (run : SealRun prim sealing) (e : Envelope) (parts : List Bytes)
    (last : Bytes) : Prop where
  full : ∀ part ∈ parts, part.length = 2 ^ 20
  last_le : last.length ≤ 2 ^ 20
  index_lt : parts.length < 2 ^ 32
  plaintext_eq : run.plaintext = parts.flatten ++ last
  file_eq : run.file = e.serialized ++ e.sealedBody prim.gcm 0 parts last
  chunks_eq : run.final.chunks = e.calls prim.gcm 0 parts last

lemma SealRun.exists_sealedBy (run : SealRun prim sealing)
    (law : format.Lawful run.ssl prim (2 ^ 20)) (hl : prim.gcm.Lengths)
    (hsealing : sealing run.ssl run.aad = sealStream run.ssl format run.aad) :
    ∃ salt noncePrefix parts last, run.ssl.Draws salt ∧ run.ssl.Draws noncePrefix ∧
      run.SealedBy (law.envelope salt noncePrefix run.aad) parts last := by
  have hreturned := run.returned
  rw [hsealing] at hreturned
  obtain ⟨salt, noncePrefix, parts, last, hsalt, hnonce, h⟩ :=
    (outcome_sealStream law run.sound hl le_rfl rfl).of_ok hreturned
  refine ⟨salt, noncePrefix, parts, last, hsalt, hnonce, h.full, h.last_le,
    by simpa using h.index_lt, ?_, ?_, ?_⟩
  · exact (Source.finite.inj h.source).1
  · rw [SealRun.file]
    have hwritten : run.final.output.written = _ := h.handed.written_eq run.intact
    rw [hwritten]
    exact List.drop_left
  · simpa using h.chunks

/-- Runs with different headers are told apart by them. -/
lemma SealRun.eq_of_header {runs : List (SealRun prim sealing)} {size : ℕ}
    (hdistinct : runs.Pairwise fun r r' => r.file.take size ≠ r'.file.take size)
    {r r' : SealRun prim sealing} (hr : r ∈ runs) (hr' : r' ∈ runs)
    (h : r.file.take size = r'.file.take size) : r = r' := by
  have hsymm : Std.Symm fun r r' : SealRun prim sealing =>
    r.file.take size ≠ r'.file.take size := ⟨fun _ _ hxy => hxy.symm⟩
  by_contra hne
  exact hdistinct.forall hr hr' hne h

/-- A record that verifies comes from a run with the same header and additional data. -/
lemma SealRun.exists_of_verifies {runs : List (SealRun prim sealing)}
    {envelopes : SealRun prim sealing → Envelope} {e : Envelope}
    (hruns : ∀ run : SealRun prim sealing, ∃ parts last, run.SealedBy (envelopes run) parts last)
    (hsize : ∀ run, e.serialized.length = (envelopes run).serialized.length)
    (hideal : Unforgeable prim.gcm (runs.flatMap fun run => run.final.chunks))
    (hdecrypts : Decrypts prim.gcm (runs.flatMap fun run => run.final.chunks))
    {i : ℕ} {flag : UInt8} {chunk : EncryptedChunk} (h : e.Verifies prim.gcm i flag chunk)
    (hchunk : chunk.ciphertext.length ≤ 2 ^ 20) :
    ∃ run ∈ runs, e.serialized = (envelopes run).serialized ∧ e.aad = (envelopes run).aad ∧
      ∃ call ∈ run.final.chunks, call.aad = e.chunkAad i flag chunk.ciphertext.length ∧
        call.result = some chunk ∧ e.plaintext prim.gcm i chunk = call.plaintext := by
  obtain ⟨call, hlog, hkey, hnonce, haad, hresult⟩ := hideal _ _ _ _ _ h
  obtain ⟨run, hrun, hcall⟩ := List.mem_flatMap.mp hlog
  obtain ⟨parts, last, hsealed⟩ := hruns run
  have hplain := hdecrypts call hlog chunk hresult
  rw [hkey, hnonce] at hplain
  have hmem := hcall
  rw [hsealed.chunks_eq] at hmem
  obtain ⟨j, flag', n, hn, haad'⟩ :=
    Envelope.exists_chunkAad_of_mem_calls hsealed.full hsealed.last_le hmem
  obtain ⟨hserialized, -, -, -, haads⟩ :=
    Envelope.chunkAad_injective (hsize run) hchunk hn (haad.symm.trans haad')
  exact ⟨run, hrun, hserialized, haads, call, hcall, haad, hresult, hplain⟩

/-- **Integrity of one format.** -/
theorem openStream_sealed_of_unforgeable (law : format.Lawful ssl prim (2 ^ 20))
    (hs : ssl.Sound prim) (hl : prim.gcm.Lengths) {runs : List (SealRun prim sealing)}
    {envelope : ByteArr kSaltSize → ByteArr kNoncePrefixSize → Bytes → Envelope}
    (henvelope : ∀ salt noncePrefix aad,
      law.envelope salt noncePrefix aad = envelope salt noncePrefix aad)
    (hruns : ∀ run : SealRun prim sealing, ∃ salt noncePrefix parts last,
      run.SealedBy (envelope salt noncePrefix run.aad) parts last)
    (hdistinct : runs.Pairwise fun r r' =>
      r.file.take format.headerSize ≠ r'.file.take format.headerSize)
    (hideal : Unforgeable prim.gcm (runs.flatMap fun run => run.final.chunks))
    (hdecrypts : Decrypts prim.gcm (runs.flatMap fun run => run.final.chunks))
    {file : Bytes} {out : OStream} {lib : Lib} (hout : out.Reliable) {w' : World OStream}
    (hopen : openStream ssl format aad { input := .ofBytes file, output := out, lib } = .ok () w') :
    ∃ run ∈ runs, file = run.file ∧ aad = run.aad ∧
      w'.output.written = out.written ++ run.plaintext := by
  simp only [← henvelope] at hruns
  obtain ⟨-, salt, noncePrefix, text, hstarts, hreads, hwritten⟩ :=
    (outcome_openStream law hs hl le_rfl rfl hout).of_ok hopen
  obtain ⟨full, final, hto, hfinal, rfl⟩ := (Envelope.reads_accepted_iff (by decide)).mp hreads
  obtain ⟨body, rfl⟩ := Source.startsWith_finite.mp hstarts
  have hsize : ∀ salt noncePrefix aad,
      (law.envelope salt noncePrefix aad).serialized.length = format.headerSize :=
    fun _ _ _ => ByteArr.length_coe _
  rw [← hsize salt noncePrefix aad, IStream.ofBytes, Source.skip_finite_append,
    Envelope.readsTo_finite_iff] at hto
  obtain ⟨hverified, hwell, hindex, rest, rfl, hrest⟩ := hto
  obtain rfl := hrest rfl
  rw [Nat.zero_add] at hindex hfinal
  -- Each run has its envelope, and the header of its file is that of the envelope.
  choose salts prefixes hsealed using hruns
  have htake : ∀ run : SealRun prim sealing, run.file.take format.headerSize =
      (law.envelope (salts run) (prefixes run) run.aad).serialized := by
    intro run
    obtain ⟨parts, last, hrun⟩ := hsealed run
    rw [hrun.file_eq, ← hsize (salts run) (prefixes run) run.aad]
    exact List.take_left
  have hsizes := fun run : SealRun prim sealing =>
    (hsize salt noncePrefix aad).trans (hsize (salts run) (prefixes run) run.aad).symm
  obtain ⟨run, hrun, hheader, haad, -⟩ :=
    SealRun.exists_of_verifies hsealed hsizes hideal hdecrypts hfinal hwell.length_le
  obtain ⟨parts, last, hsealedBy⟩ := hsealed run
  -- All records have the same header, so they all come from this run.
  have hcalls : ∀ i flag chunk,
      (law.envelope salt noncePrefix aad).Verifies prim.gcm i flag chunk →
      chunk.ciphertext.length ≤ 2 ^ 20 →
      ∃ call ∈ (law.envelope (salts run) (prefixes run) run.aad).calls prim.gcm 0 parts last,
        call.aad = (law.envelope salt noncePrefix aad).chunkAad i flag chunk.ciphertext.length ∧
        call.result = some chunk ∧
        (law.envelope salt noncePrefix aad).plaintext prim.gcm i chunk = call.plaintext := by
    intro i flag chunk hverifies hchunk
    obtain ⟨run', hrun', hheader', -, call, hcall, hrest⟩ :=
      SealRun.exists_of_verifies hsealed hsizes hideal hdecrypts hverifies hchunk
    have hsame : run' = run := by
      refine SealRun.eq_of_header hdistinct hrun' hrun ?_
      rw [htake, htake, ← hheader', ← hheader]
    rw [hsame, hsealedBy.chunks_eq] at hcall
    exact ⟨call, hcall, hrest⟩
  obtain ⟨hsalt, hbefore⟩ := law.serialized_injective (ByteArr.ext hheader)
  obtain ⟨hfull, hlast, htext, hlasttext⟩ := Envelope.eq_sealed_of_calls
    ((hsize salt noncePrefix aad).trans (hsize _ _ _).symm) hsealedBy.full hsealedBy.last_le
    hsealedBy.index_lt hverified hfinal hindex hwell.length_le hcalls
  refine ⟨run, hrun, ?_, haad, ?_⟩
  · rw [hsealedBy.file_eq, Envelope.sealedBody, hheader, List.append_nil, Nat.zero_add,
      Nat.zero_add, hfull, hlast, Envelope.length_sealFull]
  · refine hwritten.trans (congrArg (out.written ++ ·) ?_)
    rw [Nat.zero_add, htext, hlasttext, hsealedBy.plaintext_eq]

/-- A run with a master key sealed under a key envelope. -/
lemma SealRun.exists_keyEnvelope {key : key256} (hl : prim.gcm.Lengths)
    (run : SealRun prim fun ssl aad => sealFile ssl key aad) :
    ∃ salt noncePrefix parts last,
      run.SealedBy (keyEnvelope prim key salt noncePrefix run.aad) parts last := by
  obtain ⟨salt, noncePrefix, parts, last, -, -, h⟩ :=
    run.exists_sealedBy (keyFormatLawful run.sound _ key) hl rfl
  rw [keyFormatLawful_envelope] at h
  exact ⟨salt, noncePrefix, parts, last, h⟩

/-- A run with a password sealed under a password envelope. -/
lemma SealRun.exists_passwordEnvelope {password : Bytes} (hl : prim.gcm.Lengths)
    (hpassword : password ≠ [])
    (run : SealRun prim fun ssl aad => sealFileWithPassword ssl password aad) :
    ∃ salt noncePrefix parts last,
      run.SealedBy (passwordEnvelope prim password salt noncePrefix run.aad) parts last := by
  obtain ⟨salt, noncePrefix, parts, last, -, -, h⟩ :=
    run.exists_sealedBy (passwordFormatLawful run.sound _ hpassword) hl
      (sealFileWithPassword_eq run.aad hpassword)
  rw [passwordFormatLawful_envelope] at h
  exact ⟨salt, noncePrefix, parts, last, h⟩

/-- An empty password opens nothing. -/
lemma ne_nil_of_openFileWithPassword {password : Bytes} {w w' : World OStream}
    (h : openFileWithPassword ssl password aad w = .ok () w') : password ≠ [] := by
  rintro rfl
  have hthrows : Outcome (openFileWithPassword ssl [] aad) w (fun _ _ => False) fun _ _ => True := by
    simp only [openFileWithPassword, requireNonEmptyPassword, outcome_bind, outcome_throwIf]
    exact ⟨fun _ => trivial, fun hne => absurd trivial hne⟩
  exact hthrows.of_ok h

/-- **Integrity of sealed files.** -/
theorem open_sealed_of_unforgeable (hs : ssl.Sound prim) (hl : prim.gcm.Lengths) {file : Bytes}
    {out : OStream} (hout : out.Reliable) (lib : Lib) :
    (∀ (key : key256) (runs : List (SealRun prim fun ssl aad => sealFile ssl key aad)),
      (runs.Pairwise fun r r' => r.file.take kHeaderSize ≠ r'.file.take kHeaderSize) →
      Unforgeable prim.gcm (runs.flatMap fun run => run.final.chunks) →
      Decrypts prim.gcm (runs.flatMap fun run => run.final.chunks) →
      ∀ w', openFile ssl key aad { input := .ofBytes file, output := out, lib } = .ok () w' →
        ∃ run ∈ runs, file = run.file ∧ aad = run.aad ∧
          w'.output.written = out.written ++ run.plaintext) ∧
    ∀ (password : Bytes)
      (runs : List (SealRun prim fun ssl aad => sealFileWithPassword ssl password aad)),
      (runs.Pairwise fun r r' =>
        r.file.take kPasswordHeaderSize ≠ r'.file.take kPasswordHeaderSize) →
      Unforgeable prim.gcm (runs.flatMap fun run => run.final.chunks) →
      Decrypts prim.gcm (runs.flatMap fun run => run.final.chunks) →
      ∀ w', openFileWithPassword ssl password aad
          { input := .ofBytes file, output := out, lib } = .ok () w' →
        ∃ run ∈ runs, file = run.file ∧ aad = run.aad ∧
          w'.output.written = out.written ++ run.plaintext := by
  constructor
  · intro key runs hdistinct hideal hdecrypts w' hopen
    exact openStream_sealed_of_unforgeable (keyFormatLawful hs _ key) hs hl
      (keyFormatLawful_envelope hs _ key) (fun run => run.exists_keyEnvelope hl) hdistinct hideal
      hdecrypts hout hopen
  · intro password runs hdistinct hideal hdecrypts w' hopen
    have hpassword := ne_nil_of_openFileWithPassword hopen
    rw [openFileWithPassword_eq aad hpassword] at hopen
    exact openStream_sealed_of_unforgeable (passwordFormatLawful hs _ hpassword) hs hl
      (passwordFormatLawful_envelope hs _ hpassword)
      (fun run => run.exists_passwordEnvelope hl hpassword) hdistinct hideal hdecrypts hout hopen

end Integrity

/-! ## Two sealed files -/

section Twins

/-- The master key of both files. -/
def twinKey : key256 := ByteArr.ofBytes 32 [0x6b]

/-- A file of one byte, sealed under a salt and a nonce prefix that start with this byte. -/
def twinEnvelope (byte : UInt8) : Envelope :=
  keyEnvelope standard twinKey (ByteArr.ofBytes kSaltSize [byte]) (ByteArr.ofBytes kNoncePrefixSize [byte])
    [byte, 0x61]

/-- What was encrypted for the files of two bytes. -/
def twinLog : List ChunkCall :=
  (twinEnvelope 1).calls aes256Gcm 0 [] [1] ++ (twinEnvelope 2).calls aes256Gcm 0 [] [2]

/-- The standard primitives, except that the tags of these two chunks are the only ones that verify. -/
def twinPrimitives : Primitives where
  gcm :=
    { aes256Gcm with
      verify := fun key nonce aad ciphertext tag => twinLog.any fun call => call.fileKey = key ∧
        call.nonce = nonce ∧ call.aad = aad ∧ call.result = some ⟨ciphertext, tag⟩ }
  hkdf := standard.hkdf
  scrypt := standard.scrypt

/-- A library that computes these and draws the byte, followed by zeros. -/
def twinLibrary (byte : UInt8) : Openssl :=
  .reference twinPrimitives fun _ size => ByteArr.ofBytes size [byte]

/-- A run with the key of both files. -/
abbrev TwinRun := SealRun twinPrimitives fun ssl aad => sealFile ssl twinKey aad

lemma twinLibrary_sound (byte : UInt8) : (twinLibrary byte).Sound twinPrimitives :=
  Openssl.reference_sound _ _

lemma twinPrimitives_lengths : twinPrimitives.gcm.Lengths where
  length_encText := standard_lengths.length_encText
  length_decText := standard_lengths.length_decText

lemma twinPrimitives_verify {key : Key256} {nonce aad ciphertext : Bytes} {tag : ByteArr 16} :
    twinPrimitives.gcm.verify key nonce aad ciphertext tag = true ↔
      ∃ call ∈ twinLog, call.fileKey = key ∧ call.nonce = nonce ∧ call.aad = aad ∧
        call.result = some ⟨ciphertext, tag⟩ := by
  simp only [twinPrimitives, List.any_eq_true, decide_eq_true_eq]

lemma keyEnvelope_twinPrimitives (byte : UInt8) : keyEnvelope twinPrimitives twinKey
    (ByteArr.ofBytes kSaltSize [byte]) (ByteArr.ofBytes kNoncePrefixSize [byte]) [byte, 0x61] =
      twinEnvelope byte := rfl

lemma twinAad_le (byte byte' : UInt8) : (keyFormat (twinLibrary byte') twinKey).headerSize +
    kRecordHeaderSize + ([byte, 0x61] : Bytes).length ≤ intMax :=
  (by decide : kHeaderSize + kRecordHeaderSize + 2 ≤ intMax)

/-- The run that seals a file of one byte. -/
lemma exists_twinRun (byte : UInt8) : ∃ run : TwinRun, run.aad = [byte, 0x61] ∧ run.plaintext = [byte] ∧
    run.file = (twinEnvelope byte).serialized ++
      (twinEnvelope byte).sealedBody twinPrimitives.gcm 0 [] [byte] ∧
    run.final.chunks = (twinEnvelope byte).calls twinPrimitives.gcm 0 [] [byte] := by
  have hdraws : ∀ {n : ℕ} {bytes : ByteArr n}, (twinLibrary byte).Draws bytes →
      bytes = ByteArr.ofBytes n [byte] := by
    rintro n bytes ⟨t, ht⟩
    exact (Option.some.inj ht).symm
  let law := keyFormatLawful (twinLibrary_sound byte) (2 ^ 20) twinKey
  let start : World OStream := { input := .ofBytes [byte], output := {} }
  have hshort : ([byte] : Bytes).length ≤ 2 ^ 52 := by
    rw [List.length_singleton]
    decide
  have hreturns : Returns (sealStream (twinLibrary byte) (keyFormat (twinLibrary byte) twinKey)
      [byte, 0x61]) start _ :=
    sealStream_sealed law (twinLibrary_sound byte) (Openssl.reference_available _ _ _)
      twinPrimitives_lengths le_rfl (twinAad_le byte byte) hshort rfl ⟨rfl, rfl⟩
  obtain ⟨⟨⟩, final, hrun, -⟩ := hreturns.exists_ok
  obtain ⟨_, _, _, _, -, -, hsealed⟩ := (outcome_sealStream law (twinLibrary_sound byte)
    twinPrimitives_lengths le_rfl (w := start) rfl).of_ok hrun
  let run : TwinRun :=
    { ssl := twinLibrary byte, sound := twinLibrary_sound byte, aad := [byte, 0x61],
      plaintext := [byte], output := {}, lib := {}, final, returned := hrun,
      intact := (hsealed.reliable ⟨rfl, rfl⟩).1 }
  obtain ⟨salt, noncePrefix, parts, last, hsalt, hnonce, h⟩ :=
    run.exists_sealedBy law twinPrimitives_lengths rfl
  obtain rfl := hdraws hsalt
  obtain rfl := hdraws hnonce
  have hparts : parts = [] := by
    cases parts with
    | nil => rfl
    | cons part parts =>
      have hlen := congrArg List.length h.plaintext_eq
      rw [List.flatten_cons, List.length_append, List.length_append, h.full part (by simp)] at hlen
      change 1 = _ at hlen
      omega
  subst hparts
  have hlast : last = [byte] := h.plaintext_eq.symm
  subst hlast
  have henvelope : law.envelope (ByteArr.ofBytes kSaltSize [byte])
      (ByteArr.ofBytes kNoncePrefixSize [byte]) run.aad = twinEnvelope byte :=
    (keyFormatLawful_envelope _ _ _ _ _ _).trans (keyEnvelope_twinPrimitives byte)
  rw [henvelope] at h
  exact ⟨run, rfl, rfl, h.file_eq, h.chunks_eq⟩

/-- The file of a byte whose chunk is in the log opens. -/
lemma exists_openTwin {byte : UInt8} {file : Bytes} (hfile : file = (twinEnvelope byte).serialized ++
      (twinEnvelope byte).sealedBody twinPrimitives.gcm 0 [] [byte])
    (hlog : (twinEnvelope byte).call 0 kFinal [byte]
      (some ((twinEnvelope byte).sealed aes256Gcm 0 kFinal [byte])) ∈ twinLog) :
    ∃ w' : World OStream, openFile (twinLibrary 0) twinKey [byte, 0x61]
      { input := .ofBytes file, output := {} } = .ok () w' := by
  have hlength : ((twinEnvelope byte).sealed twinPrimitives.gcm 0 kFinal [byte]).ciphertext.length = 1 :=
    twinPrimitives_lengths.length_encText _ _ _
  have hrecovers : (twinEnvelope byte).RecoversAll twinPrimitives.gcm 0 [] [byte] := by
    refine ⟨twinPrimitives_verify.mpr ⟨_, hlog, rfl, rfl, ?_, rfl⟩,
      standard_exact.correct.decText_encText _ _ _⟩
    rw [hlength]
    rfl
  have hreturns : Returns (openStream (twinLibrary 0) (keyFormat (twinLibrary 0) twinKey) [byte, 0x61])
      ({ input := .ofBytes file, output := {} } : World OStream) _ :=
    openStream_sealed (keyFormatLawful (twinLibrary_sound 0) (2 ^ 20) twinKey) (twinLibrary_sound 0)
      (Openssl.reference_available _ _ _) twinPrimitives_lengths le_rfl (twinAad_le byte 0)
      ((keyFormatLawful_envelope _ _ _ _ _ _).trans (keyEnvelope_twinPrimitives byte))
      (congrArg IStream.ofBytes hfile) ⟨rfl, rfl⟩ (by simp) (by decide : 1 ≤ 2 ^ 20) (by decide) hrecovers
  obtain ⟨⟨⟩, w', hopen, -⟩ := hreturns.exists_ok
  exact ⟨w', hopen⟩

lemma length_twinHeader (byte : UInt8) : (twinEnvelope byte).serialized.length = kHeaderSize :=
  ByteArr.length_coe (fileHeader (ByteArr.ofBytes kSaltSize [byte])
    (ByteArr.ofBytes kNoncePrefixSize [byte])).serialized

/-- The headers of the two files differ. -/
lemma twinHeader_ne : (twinEnvelope 1).serialized ≠ (twinEnvelope 2).serialized := by
  intro hsame
  have hsalts : ByteArr.ofBytes kSaltSize [1] = ByteArr.ofBytes kSaltSize [2] :=
    ((keyFormatLawful (twinLibrary_sound 0) (2 ^ 20) twinKey).serialized_injective
      (ByteArr.ext hsame)).1
  exact absurd hsalts (by decide)

/-- Two files sealed under one key with different headers: both open, and what opens is one of them. -/
theorem open_sealed_of_unforgeable_twins : ∃ run run' : TwinRun,
    run.plaintext = [1] ∧ run'.plaintext = [2] ∧
      run.file.take kHeaderSize ≠ run'.file.take kHeaderSize ∧
      ∀ r ∈ [run, run'], ∃ w' : World OStream,
        openFile (twinLibrary 0) twinKey r.aad { input := .ofBytes r.file, output := {} } = .ok () w' ∧
        ∃ r' ∈ [run, run'], r.file = r'.file ∧ r.aad = r'.aad ∧ w'.output.written = r'.plaintext := by
  obtain ⟨run, haad, hplaintext, hfile, hchunks⟩ := exists_twinRun 1
  obtain ⟨run', haad', hplaintext', hfile', hchunks'⟩ := exists_twinRun 2
  have hlog : [run, run'].flatMap (fun run => run.final.chunks) = twinLog := by
    rw [List.flatMap_cons, List.flatMap_singleton, hchunks, hchunks']
    rfl
  -- The tags that verify are those of the two runs, and nothing else is asked of the library.
  have hideal : Unforgeable twinPrimitives.gcm ([run, run'].flatMap fun run => run.final.chunks) := by
    intro key nonce aad ciphertext tag hverify
    rw [hlog]
    exact twinPrimitives_verify.mp hverify
  have hdecrypts : Decrypts twinPrimitives.gcm ([run, run'].flatMap fun run => run.final.chunks) := by
    intro call hcall chunk hresult
    rw [hlog] at hcall
    rcases List.mem_pair.mp hcall with rfl | rfl
    · obtain rfl := Option.some.inj hresult
      exact standard_exact.correct.decText_encText _ _ _
    · obtain rfl := Option.some.inj hresult
      exact standard_exact.correct.decText_encText _ _ _
  have hheaders : run.file.take kHeaderSize ≠ run'.file.take kHeaderSize := by
    rw [hfile, hfile', List.take_left' (length_twinHeader 1), List.take_left' (length_twinHeader 2)]
    exact twinHeader_ne
  -- Both files open, each with the additional data of its own run.
  have hopens : ∀ r ∈ [run, run'], ∃ w' : World OStream, openFile (twinLibrary 0) twinKey r.aad
      { input := .ofBytes r.file, output := {} } = .ok () w' := by
    intro r hr
    rcases List.mem_pair.mp hr with rfl | rfl
    · rw [haad]
      exact exists_openTwin hfile (List.mem_cons_self ..)
    · rw [haad']
      exact exists_openTwin hfile' (List.mem_cons_of_mem _ (List.mem_cons_self ..))
  refine ⟨run, run', hplaintext, hplaintext', hheaders, fun r hr => ?_⟩
  obtain ⟨w', hopen⟩ := hopens r hr
  obtain ⟨r', hr', hsame, haads, hwritten⟩ := (open_sealed_of_unforgeable (twinLibrary_sound 0)
    twinPrimitives_lengths ⟨rfl, rfl⟩ {}).1 twinKey [run, run'] (by simpa using hheaders) hideal
    hdecrypts w' hopen
  exact ⟨w', hopen, r', hr', hsame, haads, hwritten⟩

end Twins

end SecureKit.File
