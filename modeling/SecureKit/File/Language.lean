import SecureKit.File.RoundTrip

/-!
# The files that open, and the error of those that do not

The language of the stream overloads that open, as a grammar of byte strings:

* `Envelope.IsFile` describes an accepted file: a header, verified full records under the indices
  from zero on, and a verified final record at the very end.
* `Envelope.HasBadTag` describes a file whose first defect is a tag: what follows the verified
  full records is a well-formed record that does not verify.

`open_language` says that a call returns for the first and reports a failed authentication for
the second, and that everything else is an invalid packet.  `open_released` is about the calls
that throw for whatever reason, failures of the input and of the library included: what they have
written is the plaintext of verified full records from the front of the file.

## The grammar and the loop

`open_file_payload` reads a record, decides about it, and goes on; the grammar talks about the whole
file.  `Envelope.Reads` stands between them.  It is the derivation that the loop follows record by
record, and it ends in a verdict.  A file of the grammar is a derivation that accepts
(`exists_isFile_of_reads`), `HasBadTag` is one that ends at a tag, and a derivation has one text
only, so the three cases exclude each other.

## What is assumed

`Openssl.Sound` says that an answer of the library is what the primitives compute, and
`Openssl.Available` that there is one for additional data within the limits of the code.
`Lengths` is about the sizes of ciphertexts and tags.  `open_released` does without availability:
it is about every run, however the library and the input fail.

`open_language_standard` has files of two records, with the right tag and with another one in the
second record, for keys and for passwords.  `open_released_standard` is a file with a full record
in front of a bad tag: the call throws, and what it has written is the text of this record.
-/

namespace SecureKit.File

open ByteString Effect Iostream Evp

/-! ## The grammar -/

namespace Envelope

/-- The bytes `b` are a file under the envelope, with the given chunks. -/
structure IsFile (gcm : AesGcm) (e : Envelope) (b : Bytes) (full : List EncryptedChunk)
    (last : EncryptedChunk) : Prop where
  bytes : b = e.serialized ++ (fullRecords 0 full ++ recordBytes full.length kFinal last)
  index_le : full.length ≤ 2 ^ 32 - 1
  verified : e.VerifiedFull gcm 0 full
  last_le : last.ciphertext.length ≤ 2 ^ 20
  last_verifies : e.Verifies gcm full.length kFinal last

/-- The plaintext of a file with the given chunks. -/
def text (gcm : AesGcm) (e : Envelope) (full : List EncryptedChunk) (last : EncryptedChunk) :
    Bytes :=
  e.plaintexts gcm 0 full ++ e.plaintext gcm full.length last

/-- The bytes `b` are a file up to the tag of the chunk `last`, which does not verify. -/
structure HasBadTag (gcm : AesGcm) (e : Envelope) (b : Bytes) (full : List EncryptedChunk)
    (flag : UInt8) (last : EncryptedChunk) (rest : Bytes) : Prop where
  bytes : b = e.serialized ++ (fullRecords 0 full ++ (recordBytes full.length flag last ++ rest))
  index_le : full.length ≤ 2 ^ 32 - 1
  verified : e.VerifiedFull gcm 0 full
  wellFormed : WellFormed flag last
  ends : flag = kFinal → rest = []
  not_verifies : ¬ e.Verifies gcm full.length flag last

variable {gcm : AesGcm} {e : Envelope} {body : Bytes}

/-- An accepted body is that of a file. -/
lemma exists_isFile_of_reads {out : Bytes}
    (h : e.Reads gcm 0 (.finite body .eof) out .accepted) :
    ∃ full last, e.IsFile gcm (e.serialized ++ body) full last ∧ out = e.text gcm full last := by
  obtain ⟨full, last, hto, hlast, rfl⟩ := (reads_accepted_iff (by decide)).mp h
  obtain ⟨hverified, hwell, hindex, rest, rfl, hrest⟩ := readsTo_finite_iff.mp hto
  rw [Nat.zero_add] at hindex hlast
  refine ⟨full, last, ⟨?_, by omega, hverified, hwell.length_le, hlast⟩, ?_⟩
  · rw [hrest rfl, List.append_nil, Nat.zero_add]
  · rw [text, Nat.zero_add]

/-- A body whose first defect is a tag is that of a file with a bad tag. -/
lemma exists_hasBadTag_of_reads {out : Bytes}
    (h : e.Reads gcm 0 (.finite body .eof) out .badTag) :
    ∃ full flag last rest, e.HasBadTag gcm (e.serialized ++ body) full flag last rest := by
  obtain ⟨full, flag, last, hto, hlast, -⟩ := (reads_badTag_iff (by decide)).mp h
  obtain ⟨hverified, hwell, hindex, rest, rfl, hrest⟩ := readsTo_finite_iff.mp hto
  rw [Nat.zero_add] at hindex hlast
  refine ⟨full, flag, last, rest, ?_, by omega, hverified, hwell, hrest, hlast⟩
  rw [Nat.zero_add]

variable {b : Bytes} {full : List EncryptedChunk} {last : EncryptedChunk}

/-- A file is its header and an accepted body. -/
lemma IsFile.reads (h : e.IsFile gcm b full last) :
    ∃ body, b = e.serialized ++ body ∧
      e.Reads gcm 0 (.finite body .eof) (e.text gcm full last) .accepted := by
  have hindex := h.index_le
  refine ⟨_, h.bytes, (reads_accepted_iff (by decide)).mpr ⟨full, last, ?_, ?_, ?_⟩⟩
  · refine readsTo_finite_iff.mpr ⟨h.verified, .inr ⟨rfl, h.last_le⟩, by omega, [], ?_, fun _ => rfl⟩
    rw [List.append_nil, Nat.zero_add]
  · rw [Nat.zero_add]
    exact h.last_verifies
  · rw [text, Nat.zero_add]

/-- A file with a bad tag is its header and a body whose first defect is a tag. -/
lemma HasBadTag.reads {flag : UInt8} {rest : Bytes} (h : e.HasBadTag gcm b full flag last rest) :
    ∃ body, b = e.serialized ++ body ∧
      e.Reads gcm 0 (.finite body .eof) (e.plaintexts gcm 0 full) .badTag := by
  have hindex := h.index_le
  refine ⟨_, h.bytes, (reads_badTag_iff (by decide)).mpr ⟨full, flag, last, ?_, ?_, rfl⟩⟩
  · refine readsTo_finite_iff.mpr ⟨h.verified, h.wellFormed, by omega, rest, ?_, h.ends⟩
    rw [Nat.zero_add]
  · rw [Nat.zero_add]
    exact h.not_verifies

/-! ### Sealed files -/

section Sealed

variable {parts : List Bytes} {text : Bytes}

/-- What sealing writes is a file. -/
lemma isFile_sealed (hl : gcm.Lengths) (hc : gcm.Correct)
    (hfull : ∀ part ∈ parts, part.length = 2 ^ 20) (htext : text.length ≤ 2 ^ 20)
    (hindex : parts.length < 2 ^ 32) :
    e.IsFile gcm (e.serialized ++ e.sealedBody gcm 0 parts text) (e.sealFull gcm 0 parts)
      (e.sealed gcm parts.length kFinal text) := by
  obtain ⟨hverified, -, hlast⟩ :=
    recoversAll_full hl hfull (recoversAll_of_correct (e := e) hl hc 0 parts text)
  rw [Nat.zero_add] at hlast
  refine ⟨?_, ?_, hverified, (hl.length_encText _ _ _).trans_le htext, ?_⟩
  · rw [sealedBody, length_sealFull, Nat.zero_add]
  · rw [length_sealFull]
    omega
  · rw [length_sealFull]
    exact hlast.1

/-- With another tag in the final record it is a file with a bad tag. -/
lemma exists_hasBadTag (hl : gcm.Lengths) (hx : gcm.Exact)
    (hfull : ∀ part ∈ parts, part.length = 2 ^ 20) (htext : text.length ≤ 2 ^ 20)
    (hindex : parts.length < 2 ^ 32) :
    ∃ b last, e.HasBadTag gcm b (e.sealFull gcm 0 parts) kFinal last [] := by
  let ciphertext := (e.sealed gcm parts.length kFinal text).ciphertext
  obtain ⟨tag, hunverified, -⟩ := hx.exists_unverified e.fileKey e.fileKey (e.nonce parts.length)
    (e.nonce parts.length) (e.chunkAad parts.length kFinal ciphertext.length)
    (e.chunkAad parts.length kFinal ciphertext.length) ciphertext
  have hsealed := isFile_sealed (e := e) hl hx.correct hfull htext hindex
  refine ⟨_, ⟨ciphertext, tag⟩, rfl, hsealed.index_le, hsealed.verified,
    .inr ⟨rfl, hsealed.last_le⟩, fun _ => rfl, ?_⟩
  rw [length_sealFull, Verifies]
  exact Bool.eq_false_iff.mp hunverified

end Sealed

end Envelope

/-! ## Opening a byte string -/

section Language

variable {ssl : Openssl} {prim : Primitives} {cap : ℕ} {format : FileFormat} {aad b : Bytes}
  {w : World OStream}

/-- An envelope for each header a format has. -/
abbrev Envelopes := ByteArr kSaltSize → ByteArr kNoncePrefixSize → Envelope

/-- Opening decides the grammar of the envelopes: it returns for the files, with their plaintext
written, and throws for all other byte strings, with the error that the grammar says. -/
def Decides (opening : Eff (World OStream) Unit) (gcm : AesGcm) (envelope : Envelopes)
    (b : Bytes) : Prop :=
  ∀ (lib : Lib) (out : OStream), out.Reliable →
    let start : World OStream := { input := .ofBytes b, output := out, lib }
    ((∃ w', opening start = .ok () w') ↔
      ∃ salt noncePrefix full last, (envelope salt noncePrefix).IsFile gcm b full last) ∧
    (∀ w' salt noncePrefix full last, opening start = .ok () w' →
      (envelope salt noncePrefix).IsFile gcm b full last →
      w'.output.written = out.written ++ (envelope salt noncePrefix).text gcm full last) ∧
    ∀ error w', opening start = .error error w' →
      (error.code = .authentication_failed ↔ ∃ salt noncePrefix full flag last rest,
        (envelope salt noncePrefix).HasBadTag gcm b full flag last rest) ∧
      (error.code = .authentication_failed ∨ error.code = .invalid_packet)

/-- The header a byte string starts with determines the envelope, hence the verdict. -/
lemma FileFormat.Lawful.verdict_unique (law : format.Lawful ssl prim cap)
    {salt salt' : ByteArr kSaltSize} {noncePrefix noncePrefix' : ByteArr kNoncePrefixSize}
    {body body' out out' : Bytes} {v v' : Verdict}
    (hbytes : (law.envelope salt noncePrefix aad).serialized ++ body =
      (law.envelope salt' noncePrefix' aad).serialized ++ body')
    (h : (law.envelope salt noncePrefix aad).Reads prim.gcm 0 (.finite body .eof) out v)
    (h' : (law.envelope salt' noncePrefix' aad).Reads prim.gcm 0 (.finite body' .eof) out' v')
    (hv : v ≠ .interrupted) (hv' : v' ≠ .interrupted) : out = out' ∧ v = v' := by
  obtain ⟨hserialized, rfl⟩ := List.append_inj hbytes (by simp [FileFormat.Lawful.envelope])
  obtain ⟨rfl, rfl⟩ := law.serialized_injective (ByteArr.ext hserialized)
  exact h.deterministic h' hv hv'

/-- The header in front of a byte string, and the body behind it. -/
lemma FileFormat.Lawful.exists_body (law : format.Lawful ssl prim cap) {salt : ByteArr kSaltSize}
    {noncePrefix : ByteArr kNoncePrefixSize}
    (h : (Source.finite b .eof).StartsWith (law.envelope salt noncePrefix aad).serialized) :
    ∃ body, b = (law.envelope salt noncePrefix aad).serialized ++ body ∧
      (Source.finite b .eof).skip format.headerSize = .finite body .eof := by
  have hsize : (law.envelope salt noncePrefix aad).serialized.length = format.headerSize :=
    ByteArr.length_coe _
  obtain ⟨body, rfl⟩ := Source.startsWith_finite.mp h
  refine ⟨body, rfl, ?_⟩
  rw [← hsize, Source.skip_finite_append]

/-- **Opening a byte string**, in terms of the grammar. -/
theorem outcome_openStream_bytes (law : format.Lawful ssl prim cap) (hs : ssl.Sound prim)
    (ha : ssl.Available prim cap) (hl : prim.gcm.Lengths) (hcap : 2 ^ 20 ≤ cap)
    (haad : format.headerSize + kRecordHeaderSize + aad.length ≤ intMax)
    (hb : w.input = .ofBytes b) (hrel : w.output.Reliable) :
    Outcome (openStream ssl format aad) w
      (fun _ w' =>
        (∃ salt noncePrefix full last,
          (law.envelope salt noncePrefix aad).IsFile prim.gcm b full last) ∧
        ∀ salt noncePrefix full last,
          (law.envelope salt noncePrefix aad).IsFile prim.gcm b full last →
          w'.output.written =
            w.output.written ++ (law.envelope salt noncePrefix aad).text prim.gcm full last)
      (fun error _ =>
        (∀ salt noncePrefix full last,
          ¬ (law.envelope salt noncePrefix aad).IsFile prim.gcm b full last) ∧
        ((error = authenticationFailed ∧ ∃ salt noncePrefix full flag last rest,
            (law.envelope salt noncePrefix aad).HasBadTag prim.gcm b full flag last rest) ∨
          (error = invalidPacket ∧ ∀ salt noncePrefix full flag last rest,
            ¬ (law.envelope salt noncePrefix aad).HasBadTag prim.gcm b full flag last rest))) := by
  have hsource : w.input.source = .finite b .eof := by rw [hb]; rfl
  refine (outcome_openStream law hs hl hcap (by rw [hb]; rfl) hrel).mono ?_ ?_
  · rintro ⟨⟩ w' ⟨-, salt, noncePrefix, out, hstarts, hreads, hwritten⟩
    rw [hsource] at hstarts hreads
    obtain ⟨body, rfl, hbody⟩ := law.exists_body hstarts
    rw [hbody] at hreads
    obtain ⟨full, last, hfile, rfl⟩ := Envelope.exists_isFile_of_reads hreads
    refine ⟨⟨salt, noncePrefix, full, last, hfile⟩, fun salt' noncePrefix' full' last' hfile' => ?_⟩
    -- Whatever other derivation there is, it has the same text.
    obtain ⟨body', hbytes, hreads'⟩ := hfile'.reads
    have hsame := law.verdict_unique hbytes hreads hreads' (by simp) (by simp)
    rw [← hsame.1]
    exact hwritten
  · rintro error w' (⟨-, ⟨rfl, hnone⟩ | ⟨-, hfault⟩⟩ |
      ⟨salt, noncePrefix, verdict, out, hstarts, hreads, -, hreported⟩)
    · -- No header is in front of the bytes, so they are in neither part of the grammar.
      have hno : ∀ salt noncePrefix body,
          b ≠ (law.envelope salt noncePrefix aad).serialized ++ body := by
        rintro salt noncePrefix body rfl
        refine hnone salt noncePrefix ?_
        rw [hsource, Source.startsWith_finite]
        exact List.prefix_append _ _
      refine ⟨fun _ _ _ _ hfile => hno _ _ _ hfile.bytes, .inr ⟨rfl, ?_⟩⟩
      exact fun _ _ _ _ _ _ hbad => hno _ _ _ hbad.bytes
    · rw [hsource] at hfault
      cases hfault
    · rw [hsource] at hstarts hreads
      obtain ⟨body, rfl, hbody⟩ := law.exists_body hstarts
      rw [hbody] at hreads
      have hfile_accepted : ∀ salt' noncePrefix' full' last',
          (law.envelope salt' noncePrefix' aad).IsFile prim.gcm
            ((law.envelope salt noncePrefix aad).serialized ++ body) full' last' →
          verdict ≠ .interrupted → verdict = .accepted := by
        intro salt' noncePrefix' full' last' hfile hverdict
        obtain ⟨body', hbytes, hreads'⟩ := hfile.reads
        exact (law.verdict_unique hbytes hreads hreads' hverdict (by simp)).2
      -- Bytes that are in the grammar could only be accepted.
      cases verdict with
      | accepted => exact hreported.elim
      | badTag =>
        refine ⟨fun _ _ _ _ hfile => ?_, .inl ⟨hreported, salt, noncePrefix, ?_⟩⟩
        · cases hfile_accepted _ _ _ _ hfile (by simp)
        · exact Envelope.exists_hasBadTag_of_reads hreads
      | malformed =>
        refine ⟨fun _ _ _ _ hfile => ?_, .inr ⟨hreported, fun _ _ _ _ _ _ hbad => ?_⟩⟩
        · cases hfile_accepted _ _ _ _ hfile (by simp)
        · obtain ⟨body', hbytes, hreads'⟩ := hbad.reads
          cases (law.verdict_unique hbytes hreads hreads' (by simp) (by simp)).2
      | interrupted =>
        -- Nothing interrupts the reading of bytes under a library that is available.
        rcases hreported with ⟨-, hfault⟩ | ⟨-, hlong⟩ | ⟨-, hnot⟩
        · rw [hsource] at hfault
          cases hfault
        · omega
        · exact absurd ha hnot

lemma decides_of_lawful (law : format.Lawful ssl prim cap) (hs : ssl.Sound prim)
    (ha : ssl.Available prim cap) (hl : prim.gcm.Lengths) (hcap : 2 ^ 20 ≤ cap)
    (haad : format.headerSize + kRecordHeaderSize + aad.length ≤ intMax) {envelope : Envelopes}
    (henvelope : ∀ salt noncePrefix, law.envelope salt noncePrefix aad = envelope salt noncePrefix) :
    Decides (openStream ssl format aad) prim.gcm envelope b := by
  intro lib out hrel start
  have houtcome := outcome_openStream_bytes (w := start) law hs ha hl hcap haad rfl hrel
  simp only [henvelope] at houtcome
  refine ⟨⟨?_, ?_⟩, ?_, ?_⟩
  · rintro ⟨w', hrun⟩
    exact (houtcome.of_ok hrun).1
  · rintro ⟨salt, noncePrefix, full, last, hfile⟩
    cases hrun : openStream ssl format aad start with
    | ok _ w' => exact ⟨w', rfl⟩
    | error error w' => exact absurd hfile ((houtcome.of_error hrun).1 _ _ _ _)
  · intro w' salt noncePrefix full last hrun hfile
    exact (houtcome.of_ok hrun).2 _ _ _ _ hfile
  · intro error w' hrun
    rcases (houtcome.of_error hrun).2 with ⟨rfl, hbad⟩ | ⟨rfl, hnone⟩
    · exact ⟨⟨fun _ => hbad, fun _ => rfl⟩, .inl rfl⟩
    · refine ⟨⟨fun hcode => absurd hcode (by decide), ?_⟩, .inr rfl⟩
      rintro ⟨salt, noncePrefix, full, flag, last, rest, hbad⟩
      exact absurd hbad (hnone _ _ _ _ _ _)

/-- **The accepted language and the classification of errors.** -/
theorem open_language (hs : ssl.Sound prim) (ha : ssl.Available prim (2 ^ 20))
    (hl : prim.gcm.Lengths) (b aad : Bytes) :
    (∀ key : key256, kHeaderSize + kRecordHeaderSize + aad.length ≤ intMax →
      Decides (openFile ssl key aad) prim.gcm
        (fun salt noncePrefix => keyEnvelope prim key salt noncePrefix aad) b) ∧
    ∀ password : Bytes, password ≠ [] →
      kPasswordHeaderSize + kRecordHeaderSize + aad.length ≤ intMax →
      Decides (openFileWithPassword ssl password aad) prim.gcm
        (fun salt noncePrefix => passwordEnvelope prim password salt noncePrefix aad) b := by
  constructor
  · intro key haad
    exact decides_of_lawful (keyFormatLawful hs _ key) hs ha hl le_rfl haad fun _ _ => by simp
  · intro password hpassword haad
    rw [openFileWithPassword_eq aad hpassword]
    exact decides_of_lawful (passwordFormatLawful hs _ hpassword) hs ha hl le_rfl haad
      fun _ _ => by simp

end Language

/-- A full part. -/
def samplePart : Bytes := List.replicate (2 ^ 20) 0x62

lemma length_samplePart : ∀ part ∈ [samplePart], part.length = 2 ^ 20 := by
  intro part hpart
  rw [List.mem_singleton.mp hpart, samplePart, List.length_replicate]

/-- The envelope of a file sealed with a key of zeros. -/
def sampleKeyEnvelope (salt : ByteArr kSaltSize) (noncePrefix : ByteArr kNoncePrefixSize) : Envelope :=
  keyEnvelope standard (ByteArr.zeros 32) salt noncePrefix [0x61]

/-- The envelope of a file sealed with a password. -/
def samplePasswordEnvelope (salt : ByteArr kSaltSize) (noncePrefix : ByteArr kNoncePrefixSize) :
    Envelope :=
  passwordEnvelope standard [0x70] salt noncePrefix [0x61]

/-- The language with the standard primitives, at sealed files of two records, and at such files with
another tag in the second one. -/
theorem open_language_standard :
    (∀ salt noncePrefix, ∃ b full last,
      (sampleKeyEnvelope salt noncePrefix).IsFile standard.gcm b full last ∧ full.length = 1 ∧
        Decides (openFile standardLibrary (ByteArr.zeros 32) [0x61]) standard.gcm sampleKeyEnvelope b) ∧
    (∀ salt noncePrefix, ∃ b full last,
      (sampleKeyEnvelope salt noncePrefix).HasBadTag standard.gcm b full kFinal last [] ∧
        full.length = 1 ∧
        Decides (openFile standardLibrary (ByteArr.zeros 32) [0x61]) standard.gcm sampleKeyEnvelope b) ∧
    ∀ salt noncePrefix, ∃ b full last,
      (samplePasswordEnvelope salt noncePrefix).IsFile standard.gcm b full last ∧ full.length = 1 ∧
        Decides (openFileWithPassword standardLibrary [0x70] [0x61]) standard.gcm
          samplePasswordEnvelope b := by
  have hdecides := fun b => open_language standardLibrary_sound (standardLibrary_available _)
    standard_lengths b [0x61]
  have hfile := fun e : Envelope => e.isFile_sealed standard_lengths standard_exact.correct
    length_samplePart (by decide : ([0x63] : Bytes).length ≤ 2 ^ 20) (by decide)
  refine ⟨fun salt noncePrefix => ?_, fun salt noncePrefix => ?_, fun salt noncePrefix => ?_⟩
  · exact ⟨_, _, _, hfile _, Envelope.length_sealFull _ _, (hdecides _).1 (ByteArr.zeros 32) (by decide)⟩
  · obtain ⟨b, last, hbad⟩ := (sampleKeyEnvelope salt noncePrefix).exists_hasBadTag standard_lengths
      standard_exact length_samplePart (by decide : ([0x63] : Bytes).length ≤ 2 ^ 20) (by decide)
    exact ⟨b, _, last, hbad, Envelope.length_sealFull _ _,
      (hdecides b).1 (ByteArr.zeros 32) (by decide)⟩
  · exact ⟨_, _, _, hfile _, Envelope.length_sealFull _ _, (hdecides _).2 [0x70] (by simp) (by decide)⟩

/-! ## What a call that throws has released -/

section Released

variable {ssl : Openssl} {prim : Primitives} {format : FileFormat} {aad : Bytes}

/-- A run from `w` to `w'` has written the plaintext of the full records `full`, which verify,
each under its own position as index, and stand behind the header at the front of the file. -/
structure Envelope.Releases (gcm : AesGcm) (e : Envelope) (w w' : World OStream)
    (full : List EncryptedChunk) : Prop where
  verified : e.VerifiedFull gcm 0 full
  index_le : full.length ≤ 2 ^ 32
  startsWith : full ≠ [] → w.input.source.StartsWith (e.serialized ++ fullRecords 0 full)
  written : w'.output.written = w.output.written ++ e.plaintexts gcm 0 full
  length_released : (e.plaintexts gcm 0 full).length = 2 ^ 20 * full.length

/-- Whenever opening throws, what it has written is the plaintext of verified full records from
the front of the file. -/
def ReleasesVerified (opening : Eff (World OStream) Unit) (gcm : AesGcm) (envelope : Envelopes) :
    Prop :=
  ∀ (w w' : World OStream) (error : Error), w.output.Reliable → opening w = .error error w' →
    ∃ salt noncePrefix full, (envelope salt noncePrefix).Releases gcm w w' full

/-- Nothing written is the plaintext of no records. -/
lemma Envelope.Releases.nothing {gcm : AesGcm} {e : Envelope} {w w' : World OStream}
    (h : w'.output.written = w.output.written) : e.Releases gcm w w' [] where
  verified := trivial
  index_le := by simp
  startsWith hne := absurd rfl hne
  written := by rw [h, Envelope.plaintexts, List.append_nil]
  length_released := rfl

lemma releasesVerified_of_lawful (law : format.Lawful ssl prim (2 ^ 20)) (hs : ssl.Sound prim)
    (hl : prim.gcm.Lengths) (hsize : format.headerSize ≠ 0) {envelope : Envelopes}
    (henvelope : ∀ salt noncePrefix, law.envelope salt noncePrefix aad = envelope salt noncePrefix) :
    ReleasesVerified (openStream ssl format aad) prim.gcm envelope := by
  intro w w' error hrel hrun
  by_cases hgood : w.input.state.good = true
  · rcases (outcome_openStream law hs hl le_rfl hgood hrel).of_error hrun with ⟨hwritten, -⟩ |
      ⟨salt, noncePrefix, verdict, out, hstarts, hreads, hwritten, hreported⟩
    · exact ⟨ByteArr.zeros _, ByteArr.zeros _, [], .nothing hwritten⟩
    · have hverdict : verdict ≠ .accepted := by
        rintro rfl
        exact hreported
      obtain ⟨full, hfull, hrecords, hle, rfl⟩ := hreads.released hverdict (by decide)
      have hheader : (law.envelope salt noncePrefix aad).serialized.length = format.headerSize :=
        ByteArr.length_coe _
      refine ⟨salt, noncePrefix, full, ?_⟩
      rw [← henvelope]
      refine ⟨hfull, by omega, fun _ => ?_, hwritten, ?_⟩
      · rw [Source.startsWith_append, hheader]
        exact ⟨hstarts, hrecords⟩
      · exact Envelope.length_plaintexts hl hfull.length_eq
  · have houtput := (outcome_openStream_of_not_good hsize (by simpa using hgood)).of_error hrun
    exact ⟨ByteArr.zeros _, ByteArr.zeros _, [], .nothing (by rw [houtput])⟩

/-- **No unauthenticated plaintext.** -/
theorem open_released (hs : ssl.Sound prim) (hl : prim.gcm.Lengths) (aad : Bytes) :
    (∀ key : key256, ReleasesVerified (openFile ssl key aad) prim.gcm
      fun salt noncePrefix => keyEnvelope prim key salt noncePrefix aad) ∧
    ∀ password : Bytes, ReleasesVerified (openFileWithPassword ssl password aad) prim.gcm
      fun salt noncePrefix => passwordEnvelope prim password salt noncePrefix aad := by
  constructor
  · intro key
    exact releasesVerified_of_lawful (keyFormatLawful hs _ key) hs hl
      (by decide : kHeaderSize ≠ 0) fun _ _ => by simp
  · intro password
    by_cases hpassword : password = []
    · subst hpassword
      intro w w' error hrel hrun
      cases hrun
      exact ⟨ByteArr.zeros _, ByteArr.zeros _, [], .nothing rfl⟩
    · rw [openFileWithPassword_eq aad hpassword]
      exact releasesVerified_of_lawful (passwordFormatLawful hs _ hpassword) hs hl
        (by decide : kPasswordHeaderSize ≠ 0) fun _ _ => by simp

end Released

/-- A file with a bad tag, when it is opened: the parts in front of it are written. -/
lemma Envelope.HasBadTag.exists_run {ssl : Openssl} {prim : Primitives} {format : FileFormat}
    {aad b rest : Bytes} {flag : UInt8} {full : List EncryptedChunk} {last : EncryptedChunk}
    {salt : ByteArr kSaltSize} {noncePrefix : ByteArr kNoncePrefixSize}
    (law : format.Lawful ssl prim (2 ^ 20))
    (h : (law.envelope salt noncePrefix aad).HasBadTag prim.gcm b full flag last rest)
    (hs : ssl.Sound prim) (ha : ssl.Available prim (2 ^ 20)) (hl : prim.gcm.Lengths)
    (haad : format.headerSize + kRecordHeaderSize + aad.length ≤ intMax) :
    ∃ w', openStream ssl format aad ({ input := .ofBytes b, output := {} } : World OStream) =
        .error authenticationFailed w' ∧
      w'.output.written = (law.envelope salt noncePrefix aad).plaintexts prim.gcm 0 full := by
  obtain ⟨body, rfl, hreads⟩ := h.reads
  have hstarts : (Source.finite ((law.envelope salt noncePrefix aad).serialized ++ body) .eof).StartsWith
      (law.envelope salt noncePrefix aad).serialized :=
    Source.startsWith_finite.mpr (List.prefix_append _ _)
  obtain ⟨body', hbytes, hskip⟩ := law.exists_body hstarts
  rw [← List.append_cancel_left hbytes] at hskip
  rw [← hskip] at hreads
  let start : World OStream :=
    { input := .ofBytes ((law.envelope salt noncePrefix aad).serialized ++ body), output := {} }
  have hrel : start.output.Reliable := ⟨rfl, rfl⟩
  have hthrows : Outcome (openStream ssl format aad) start (fun _ _ => False) _ :=
    (openStream_settled law hs ha hl le_rfl rfl rfl hrel haad hstarts hreads (by simp)).mono
      (fun _ _ hok => absurd hok.1 (by simp)) fun _ _ herror => herror
  obtain ⟨error, w', hrun, rfl, hwritten⟩ := hthrows.exists_error
  exact ⟨w', hrun, hwritten⟩

/-- A full record and behind it a bad tag: the part of the full record is written. -/
lemma exists_sampleRun {format : FileFormat} (law : format.Lawful standardLibrary standard (2 ^ 20))
    (haad : format.headerSize + kRecordHeaderSize + ([0x61] : Bytes).length ≤ intMax) :
    ∃ b w', openStream standardLibrary format [0x61]
        ({ input := .ofBytes b, output := {} } : World OStream) = .error authenticationFailed w' ∧
      w'.output.written = samplePart := by
  let e := law.envelope (ByteArr.zeros kSaltSize) (ByteArr.zeros kNoncePrefixSize) [0x61]
  obtain ⟨b, last, hbad⟩ := e.exists_hasBadTag standard_lengths standard_exact length_samplePart
    (by decide : ([] : Bytes).length ≤ 2 ^ 20) (by decide)
  obtain ⟨w', hrun, hwritten⟩ :=
    hbad.exists_run law standardLibrary_sound (standardLibrary_available _) standard_lengths haad
  have hfull := Envelope.recoversAll_full (e := e) standard_lengths length_samplePart
    (Envelope.recoversAll_of_correct standard_lengths standard_exact.correct 0 [samplePart] [])
  rw [hfull.2.1, List.flatten_singleton] at hwritten
  exact ⟨b, w', hrun, hwritten⟩

/-- What is as long as a full part came out of one record. -/
lemma Envelope.Releases.length_eq_one {e : Envelope} {w w' : World OStream} {full : List EncryptedChunk}
    (h : e.Releases standard.gcm w w' full) (hempty : w.output.written = [])
    (hwritten : w'.output.written = samplePart) : full.length = 1 := by
  have hplain := h.written
  rw [hempty, List.nil_append, hwritten] at hplain
  have hlength := h.length_released
  rw [← hplain, length_samplePart samplePart (by simp)] at hlength
  omega

/-- The standard primitives release the full record in front of a bad tag, and no more. -/
theorem open_released_standard :
    (∃ b w' salt noncePrefix full,
      openFile standardLibrary (ByteArr.zeros 32) [0x61] { input := .ofBytes b, output := {} } =
          .error authenticationFailed w' ∧
        w'.output.written = samplePart ∧ full.length = 1 ∧
        (sampleKeyEnvelope salt noncePrefix).Releases standard.gcm
          { input := .ofBytes b, output := {} } w' full) ∧
    ∃ b w' salt noncePrefix full,
      openFileWithPassword standardLibrary [0x70] [0x61] { input := .ofBytes b, output := {} } =
          .error authenticationFailed w' ∧
        w'.output.written = samplePart ∧ full.length = 1 ∧
        (samplePasswordEnvelope salt noncePrefix).Releases standard.gcm
          { input := .ofBytes b, output := {} } w' full := by
  obtain ⟨hkey, hpassword⟩ := open_released standardLibrary_sound standard_lengths [0x61]
  constructor
  · obtain ⟨b, w', hrun, hwritten⟩ :=
      exists_sampleRun (keyFormatLawful standardLibrary_sound _ (ByteArr.zeros 32))
        (by decide : kHeaderSize + kRecordHeaderSize + 1 ≤ intMax)
    obtain ⟨salt, noncePrefix, full, h⟩ := hkey (ByteArr.zeros 32) _ w' _ ⟨rfl, rfl⟩ hrun
    exact ⟨b, w', salt, noncePrefix, full, hrun, hwritten, h.length_eq_one rfl hwritten, h⟩
  · have hne : ([0x70] : Bytes) ≠ [] := by simp
    obtain ⟨b, w', hrun, hwritten⟩ :=
      exists_sampleRun (passwordFormatLawful standardLibrary_sound _ hne)
        (by decide : kPasswordHeaderSize + kRecordHeaderSize + 1 ≤ intMax)
    rw [← openFileWithPassword_eq [0x61] hne] at hrun
    obtain ⟨salt, noncePrefix, full, h⟩ := hpassword [0x70] _ w' _ ⟨rfl, rfl⟩ hrun
    exact ⟨b, w', salt, noncePrefix, full, hrun, hwritten, h.length_eq_one rfl hwritten, h⟩

end SecureKit.File
