import SecureKit.File.RoundTrip
import SecureKit.File.Language

/-!
# Truncated and extended files

What happens to an accepted file when bytes are cut off its end or appended to it.  The first
difference a reader meets is one of structure: a record that is cut off is not there
(`not_recordAt_of_cut`), and a final record with something behind it is not there either
(`not_recordAt_of_trailing`).  Up to that point the records are those of the accepted file, so
they verify, and no tag is ever in question.

`open_extensionFree` puts this together.  A file that was accepted has additional data that fits
the limits of the code (`outcome_openStream_of_long`), so nothing else is assumed of them.

## Why both directions hold

A record says how long it is and whether it is the last one.  A proper prefix of a file ends within
its header, within a record, or behind a record that is not final, and in each case the reader asks
for bytes that are not there.  A proper extension has the accepted file in front, so the reader
comes to the final record and then to `reject_trailing_data`.

`ExtensionFree` gives the error and what was written.  The error is an invalid packet in both
directions.  What was written is the plaintext of the full records that are still whole; with an
extension these are all of them, and the final one is not written, as the check for trailing data
comes before.

`Openssl.Available` is needed for the error: a library that fails at an earlier record would be
reported in its place.
-/

namespace SecureKit.File

open ByteString Effect Iostream Evp

/-! ## Records that are not there -/

section NotThere

variable {i m : ℕ} {flag : UInt8} {chunk : EncryptedChunk} {rest : Bytes}

/-- A source that goes on with the header of a well-formed record holds no record of another
length. -/
lemma length_eq_of_recordAt {s : Source} (hwell : WellFormed flag chunk)
    (hstarts : s.StartsWith (recordHeader i flag chunk.ciphertext.length).serialized)
    {flag' : UInt8} {chunk' : EncryptedChunk} (h : RecordAt s i flag' chunk') :
    flag' = flag ∧ (recordBytes i flag' chunk').length = (recordBytes i flag chunk).length := by
  have hfront := h.startsWith
  rw [recordBytes, Source.startsWith_append] at hfront
  have hheader := hfront.1.unique hstarts (by simp)
  obtain ⟨-, hflag, hlen⟩ :=
    recordHeader_injective h.wellFormed.length_le hwell.length_le hheader
  rw [length_recordBytes, length_recordBytes, hlen]
  exact ⟨hflag, rfl⟩

/-- A record that is cut off is not there. -/
lemma not_recordAt_of_cut (hwell : WellFormed flag chunk)
    (hm : m < (recordBytes i flag chunk).length) (flag' : UInt8) (chunk' : EncryptedChunk) :
    ¬ RecordAt (.finite ((recordBytes i flag chunk ++ rest).take m) .eof) i flag' chunk' := by
  intro h
  have hhas := h.startsWith.has
  rw [Source.has_finite, List.length_take] at hhas
  by_cases hheader : kRecordHeaderSize ≤ m
  · have hstarts : (Source.finite ((recordBytes i flag chunk ++ rest).take m) .eof).StartsWith
        (recordHeader i flag chunk.ciphertext.length).serialized := by
      rw [Source.startsWith_finite, recordBytes, List.append_assoc, List.take_append,
        List.take_of_length_le (by rw [ByteArr.length_coe]; exact hheader)]
      exact List.prefix_append _ _
    have hlen := (length_eq_of_recordAt hwell hstarts h).2
    omega
  · rw [length_recordBytes] at hhas
    rw [kRecordHeaderSize] at hheader
    omega

/-- A final record with something behind it is not there. -/
lemma not_recordAt_of_trailing (hwell : WellFormed kFinal chunk) (hrest : rest ≠ [])
    (flag' : UInt8) (chunk' : EncryptedChunk) :
    ¬ RecordAt (.finite (recordBytes i kFinal chunk ++ rest) .eof) i flag' chunk' := by
  intro h
  have hstarts : (Source.finite (recordBytes i kFinal chunk ++ rest) .eof).StartsWith
      (recordHeader i kFinal chunk.ciphertext.length).serialized := by
    rw [Source.startsWith_finite, recordBytes, List.append_assoc]
    exact List.prefix_append _ _
  obtain ⟨hflag, hlen⟩ := length_eq_of_recordAt hwell hstarts h
  have hends := h.ends hflag
  rw [hlen, Source.skip_finite_append] at hends
  exact hrest (Source.finite.inj hends).1

end NotThere

/-! ## Cut and extended bodies -/

/-- The full records that lie within the first `n` bytes of a run of full records, which starts at
the given index. -/
def wholeRecords : ℕ → (n : ℕ) → List EncryptedChunk → List EncryptedChunk
  | _, _, [] => []
  | first, n, chunk :: chunks =>
    let size := (recordBytes first kNotFinal chunk).length
    if size ≤ n then chunk :: wholeRecords (first + 1) (n - size) chunks else []

namespace Envelope

variable {gcm : AesGcm} {e : Envelope} {full : List EncryptedChunk} {last : EncryptedChunk}

/-- An accepted body that is cut off gives the plaintext of its whole records and is malformed. -/
lemma reads_of_cut {first m : ℕ} (hverified : e.VerifiedFull gcm first full)
    (hlast : last.ciphertext.length ≤ 2 ^ 20) (hindex : first + full.length < 2 ^ 32)
    (hm : m < (fullRecords first full ++ recordBytes (first + full.length) kFinal last).length) :
    e.Reads gcm first
      (.finite ((fullRecords first full ++
        recordBytes (first + full.length) kFinal last).take m) .eof)
      (e.plaintexts gcm first (wholeRecords first m full)) .malformed := by
  induction full generalizing first m with
  | nil =>
    apply Reads.malformed
    intro flag chunk
    rw [fullRecords, List.nil_append, List.length_nil, Nat.add_zero] at hm ⊢
    rw [← List.append_nil (recordBytes first kFinal last)]
    exact not_recordAt_of_cut (.inr ⟨rfl, hlast⟩) hm flag chunk
  | cons chunk full ih =>
    obtain ⟨hlen, hv, hverified⟩ := hverified
    have hwell : WellFormed kNotFinal chunk := .inl ⟨rfl, hlen⟩
    rw [List.length_cons] at hindex
    have hnext : first + (full.length + 1) = first + 1 + full.length := by omega
    rw [List.length_cons, hnext, fullRecords, List.append_assoc] at hm ⊢
    rw [wholeRecords]
    -- The cut is behind the first record, or within it.
    by_cases hwhole : (recordBytes first kNotFinal chunk).length ≤ m
    · rw [List.length_append] at hm
      have hrest := ih (m := m - (recordBytes first kNotFinal chunk).length) hverified
        (by omega) (by omega)
      simp only [if_pos hwhole, plaintexts]
      rw [List.take_append, List.take_of_length_le hwhole]
      refine .next ⟨hwell, ?_, fun h => absurd h kNotFinal_ne_kFinal⟩ hv (by omega) ?_
      · exact Source.startsWith_finite.mpr (List.prefix_append _ _)
      · rw [Source.skip_finite_append]
        exact hrest
    · simp only [if_neg hwhole, plaintexts]
      apply Reads.malformed
      intro flag' chunk'
      exact not_recordAt_of_cut hwell (by omega) flag' chunk'

/-- An accepted body with something behind it gives the plaintext of all records but the final one
and is malformed. -/
lemma reads_of_trailing {first : ℕ} {rest : Bytes} (hverified : e.VerifiedFull gcm first full)
    (hlast : last.ciphertext.length ≤ 2 ^ 20) (hindex : first + full.length < 2 ^ 32)
    (hrest : rest ≠ []) :
    e.Reads gcm first
      (.finite (fullRecords first full ++
        (recordBytes (first + full.length) kFinal last ++ rest)) .eof)
      (e.plaintexts gcm first full) .malformed := by
  have hstarts : (Source.finite (fullRecords first full ++
      (recordBytes (first + full.length) kFinal last ++ rest)) .eof).StartsWith
      (fullRecords first full) := Source.startsWith_finite.mpr (List.prefix_append _ _)
  rw [← List.append_nil (e.plaintexts gcm first full)]
  apply Reads.of_full hverified hstarts hindex
  rw [Source.skip_finite_append]
  apply Reads.malformed
  intro flag chunk
  exact not_recordAt_of_trailing (.inr ⟨rfl, hlast⟩) hrest flag chunk

end Envelope

/-! ## Additional data that is too long -/

section TooLong

variable {ssl : Openssl} {prim : Primitives} {cap : ℕ} {format : FileFormat} {aad : Bytes}
  {w : World OStream}

/-- Under additional data that is too long no round returns. -/
lemma outcome_openRecord_of_long (hs : ssl.Sound prim) (hl : prim.gcm.Lengths)
    (hcap : 2 ^ 20 ≤ cap) {e : Envelope} {i : ℕ} {E : Error → World OStream → Prop}
    (hgood : w.input.state.good = true)
    (hlong : intMax < e.serialized.length + kRecordHeaderSize + e.aad.length)
    (hrecord : (∃ flag chunk, RecordAt w.input.source i flag chunk) →
      ∀ w', E (updateLimitError "AAD") w')
    (hnone : (∀ flag chunk, ¬ RecordAt w.input.source i flag chunk) → ∀ w', E invalidPacket w')
    (hfail : w.input.source.faults = true ∨ ¬ ssl.Available prim cap → ∀ error w', E error w') :
    Outcome (openRecord ssl e.serialized e.noncePrefix e.fileKey e.aad (UInt32.ofNat i)) w
      (fun _ _ => False) E := by
  rw [openRecord, outcome_bind, outcome_onInput]
  refine outcome_readRecord hgood (fun flag chunk s' hfound _ => ?_) (fun hno _ => hnone hno _)
    fun hfault _ => hfail (.inl hfault) _ _
  have hsize := hfound.wellFormed.length_le
  rw [outcome_bind, outcome_onLib]
  refine outcome_decryptChunk hs hl (hsize.trans (by decide)) (hsize.trans hcap)
    (fun haad _ _ => ?_) (fun _ _ => hrecord ⟨flag, chunk, hfound⟩ _) (fun haad _ _ => ?_)
    fun havail _ => hfail (.inr havail) _ _
  · rw [length_makeChunkAad] at haad
    omega
  · rw [length_makeChunkAad] at haad
    omega

/-- Under additional data that is too long no file is accepted.  The error is one of the length only
behind a header and a record. -/
lemma outcome_openStream_of_long (law : format.Lawful ssl prim cap) (hs : ssl.Sound prim)
    (hl : prim.gcm.Lengths) (hcap : 2 ^ 20 ≤ cap) {E : Error → World OStream → Prop}
    (hgood : w.input.state.good = true)
    (hlong : intMax < format.headerSize + kRecordHeaderSize + aad.length)
    (hrecord : (∃ salt noncePrefix flag chunk,
      w.input.source.StartsWith (law.envelope salt noncePrefix aad).serialized ∧
        RecordAt (w.input.source.skip format.headerSize) 0 flag chunk) →
      ∀ w', E (updateLimitError "AAD") w')
    (hnone : (∀ salt noncePrefix flag chunk,
      w.input.source.StartsWith (law.envelope salt noncePrefix aad).serialized →
        ¬ RecordAt (w.input.source.skip format.headerSize) 0 flag chunk) → ∀ w', E invalidPacket w')
    (hfail : w.input.source.faults = true ∨ ¬ ssl.Available prim cap → ∀ error w', E error w') :
    Outcome (openStream ssl format aad) w (fun _ _ => False) E := by
  have hlen : ∀ salt noncePrefix,
      (law.envelope salt noncePrefix aad).serialized.length = format.headerSize :=
    fun _ _ => ByteArr.length_coe _
  refine outcome_openStream_header law hgood (fun salt noncePrefix lib' hstarts => ?_)
    (fun hno _ _ => hnone (fun salt noncePrefix _ _ hstarts => absurd hstarts (hno salt noncePrefix)) _)
    (fun hfault _ _ => hfail (.inl hfault) _ _) fun havail _ _ _ _ _ _ _ => hfail (.inr havail) _ _
  rw [openFilePayload, openLoop, outcome_bind]
  have hround := outcome_openRecord_of_long (e := law.envelope salt noncePrefix aad) (i := 0)
    (E := E) (w := { w with input := { w.input with source := w.input.source.skip format.headerSize },
                            lib := lib' }) hs hl hcap hgood (by rwa [hlen])
  have houtcome := hround ?_ ?_ ?_
  · exact houtcome.mono (fun _ _ hfalse => hfalse.elim) fun _ _ herror => herror
  · intro hfound
    obtain ⟨flag, chunk, hfound⟩ := hfound
    exact hrecord ⟨salt, noncePrefix, flag, chunk, hstarts, hfound⟩
  · intro hno
    apply hnone
    intro _ _ flag chunk _
    exact hno flag chunk
  · intro hcause
    rw [Source.faults_skip] at hcause
    exact hfail hcause

end TooLong

/-! ## Opening what is left of a file -/

section Opening

variable {ssl : Openssl} {prim : Primitives} {cap : ℕ} {format : FileFormat} {aad b : Bytes}

/-- Opening `b` throws the error and has then written `released`. -/
def RejectsAfter (opening : Eff (World OStream) Unit) (b : Bytes) (error : Error)
    (released : Bytes) : Prop :=
  ∀ (lib : Lib) (out : OStream), out.Reliable → ∃ w',
    opening { input := .ofBytes b, output := out, lib } = .error error w' ∧
      w'.output.written = out.written ++ released

/-- A file that is accepted is rejected when something is appended to it or cut off it, and what
is written before is the plaintext of the full records that are left. -/
def ExtensionFree (opening : Eff (World OStream) Unit) (gcm : AesGcm) (envelope : Envelopes)
    (b : Bytes) : Prop :=
  ∀ (lib : Lib) (out : OStream) (w' : World OStream), out.Reliable →
    opening { input := .ofBytes b, output := out, lib } = .ok () w' →
    ∃ salt noncePrefix full last, let e := envelope salt noncePrefix
      e.IsFile gcm b full last ∧
      w'.output.written = out.written ++ e.text gcm full last ∧
      (∀ rest, rest ≠ [] →
        RejectsAfter opening (b ++ rest) invalidPacket (e.plaintexts gcm 0 full)) ∧
      ∀ n < b.length, RejectsAfter opening (b.take n) invalidPacket
        (e.plaintexts gcm 0 (wholeRecords 0 (n - e.serialized.length) full))

/-- A body that is not accepted is rejected behind its header, with the error of its verdict. -/
lemma rejectsAfter_of_reads (law : format.Lawful ssl prim cap) (hs : ssl.Sound prim)
    (ha : ssl.Available prim cap) (hl : prim.gcm.Lengths) (hcap : 2 ^ 20 ≤ cap)
    (haad : format.headerSize + kRecordHeaderSize + aad.length ≤ intMax)
    {salt : ByteArr kSaltSize} {noncePrefix : ByteArr kNoncePrefixSize} {body released : Bytes}
    {verdict : Verdict} {error : Error}
    (h : (law.envelope salt noncePrefix aad).Reads prim.gcm 0 (.finite body .eof) released verdict)
    (herror : Reported verdict error False) :
    RejectsAfter (openStream ssl format aad)
      ((law.envelope salt noncePrefix aad).serialized ++ body) error released := by
  intro lib out hrel
  have hlen : (law.envelope salt noncePrefix aad).serialized.length = format.headerSize :=
    ByteArr.length_coe _
  have hstarts : (Source.finite ((law.envelope salt noncePrefix aad).serialized ++ body)
      .eof).StartsWith (law.envelope salt noncePrefix aad).serialized :=
    Source.startsWith_finite.mpr (List.prefix_append _ _)
  have hreads : (law.envelope salt noncePrefix aad).Reads prim.gcm 0
      ((Source.finite ((law.envelope salt noncePrefix aad).serialized ++ body) .eof).skip
        format.headerSize) released verdict := by
    rw [← hlen, Source.skip_finite_append]
    exact h
  have hverdict : verdict ≠ .interrupted ∧ verdict ≠ .accepted := by
    cases verdict <;> simp [Reported] at herror ⊢
  have houtcome := openStream_settled law hs ha hl hcap (w := { input := .ofBytes _, output := out, lib })
    rfl rfl hrel haad hstarts hreads hverdict.1
  obtain ⟨error', w', hrun, hreported, hwritten⟩ :=
    (houtcome.mono (fun _ _ h => absurd h.1 hverdict.2) fun _ _ h => h).exists_error
  have hsame : error' = error := by
    cases verdict with
    | accepted => exact absurd rfl hverdict.2
    | badTag => exact hreported.trans herror.symm
    | malformed => exact hreported.trans herror.symm
    | interrupted => exact absurd rfl hverdict.1
  rw [hsame] at hrun
  exact ⟨w', hrun, hwritten⟩

/-- What does not start with a header is rejected. -/
lemma rejectsAfter_of_no_header (law : format.Lawful ssl prim cap) (hs : ssl.Sound prim)
    (hl : prim.gcm.Lengths) (hcap : 2 ^ 20 ≤ cap)
    (hno : ∀ salt noncePrefix, ¬ (law.envelope salt noncePrefix aad).serialized <+: b) :
    RejectsAfter (openStream ssl format aad) b invalidPacket [] := by
  intro lib out hrel
  have hnone : ∀ salt noncePrefix, ¬ (Source.finite b .eof).StartsWith
      (law.envelope salt noncePrefix aad).serialized :=
    fun salt noncePrefix hstarts => hno salt noncePrefix (Source.startsWith_finite.mp hstarts)
  have houtcome : Outcome (openStream ssl format aad) _ _ _ := outcome_openStream law hs hl hcap
    (w := { input := .ofBytes b, output := out, lib }) rfl hrel
  obtain ⟨error, w', hrun, hcause⟩ := (houtcome.mono
    (fun _ _ ⟨_, salt, noncePrefix, _, hstarts, _⟩ => absurd hstarts (hnone salt noncePrefix))
    fun _ _ h => h).exists_error
  rcases hcause with ⟨hwritten, ⟨rfl, -⟩ | ⟨-, hfault⟩⟩ | ⟨salt, noncePrefix, _, _, hstarts, -⟩
  · exact ⟨w', hrun, hwritten.trans (List.append_nil _).symm⟩
  · cases hfault
  · exact absurd hstarts (hnone salt noncePrefix)

lemma extensionFree_of_lawful (law : format.Lawful ssl prim cap) (hs : ssl.Sound prim)
    (ha : ssl.Available prim cap) (hl : prim.gcm.Lengths) (hcap : 2 ^ 20 ≤ cap)
    {envelope : Envelopes}
    (henvelope : ∀ salt noncePrefix, law.envelope salt noncePrefix aad = envelope salt noncePrefix) :
    ExtensionFree (openStream ssl format aad) prim.gcm envelope b := by
  intro lib out w' hrel hrun
  have haad : format.headerSize + kRecordHeaderSize + aad.length ≤ intMax := by
    by_contra hlong
    exact (outcome_openStream_of_long (E := fun _ _ => True) law hs hl hcap rfl (not_le.mp hlong)
      (fun _ _ => trivial) (fun _ _ => trivial) fun _ _ _ => trivial).of_ok hrun
  obtain ⟨⟨salt, noncePrefix, full, last, hfile⟩, hwritten⟩ :=
    (outcome_openStream_bytes law hs ha hl hcap haad rfl hrel).of_ok hrun
  refine ⟨salt, noncePrefix, full, last, ?_⟩
  rw [← henvelope]
  have hbytes := hfile.bytes
  have hindex := hfile.index_le
  have hheader : (law.envelope salt noncePrefix aad).serialized.length = format.headerSize :=
    ByteArr.length_coe _
  refine ⟨hfile, hwritten _ _ _ _ hfile, ?_, ?_⟩
  · -- An extension: the records up to the final one are released, and then there is too much.
    intro rest hrest
    have hreads := Envelope.reads_of_trailing hfile.verified hfile.last_le (by omega) hrest
    rw [Nat.zero_add] at hreads
    rw [hbytes, List.append_assoc, List.append_assoc]
    exact rejectsAfter_of_reads law hs ha hl hcap haad hreads rfl
  · -- A prefix: it ends within the header, or within some record.
    intro n hn
    by_cases hshort : n < format.headerSize
    · -- No record is that short, so none lies within no bytes.
      have hnone : ∀ chunks, wholeRecords 0 0 chunks = [] := by
        intro chunks
        cases chunks with
        | nil => rfl
        | cons chunk chunks =>
          rw [wholeRecords]
          exact if_neg (by rw [length_recordBytes]; omega)
      rw [hheader, Nat.sub_eq_zero_of_le hshort.le, hnone]
      apply rejectsAfter_of_no_header law hs hl hcap
      intro salt' noncePrefix' hfront
      have hle := hfront.length_le
      have hheader' : (law.envelope salt' noncePrefix' aad).serialized.length =
        format.headerSize := ByteArr.length_coe _
      rw [List.length_take] at hle
      omega
    · have hcut := Envelope.reads_of_cut (m := n - format.headerSize) hfile.verified
        hfile.last_le (by omega) (by
          rw [hbytes, List.length_append, hheader] at hn
          rw [Nat.zero_add]
          omega)
      rw [Nat.zero_add] at hcut
      rw [hbytes, List.take_append, List.take_of_length_le (by omega), hheader]
      exact rejectsAfter_of_reads law hs ha hl hcap haad hcut rfl

/-- **Accepted files are prefix-free and extension-free.** -/
theorem open_extensionFree (hs : ssl.Sound prim) (ha : ssl.Available prim (2 ^ 20))
    (hl : prim.gcm.Lengths) (b aad : Bytes) :
    (∀ key : key256, ExtensionFree (openFile ssl key aad) prim.gcm
      (fun salt noncePrefix => keyEnvelope prim key salt noncePrefix aad) b) ∧
    ∀ password : Bytes, ExtensionFree (openFileWithPassword ssl password aad) prim.gcm
      (fun salt noncePrefix => passwordEnvelope prim password salt noncePrefix aad) b := by
  constructor
  · intro key
    exact extensionFree_of_lawful (keyFormatLawful hs _ key) hs ha hl le_rfl fun _ _ => by simp
  · intro password
    by_cases hpassword : password = []
    · subst hpassword
      intro lib out w' hrel hrun
      cases hrun
    · rw [openFileWithPassword_eq aad hpassword]
      exact extensionFree_of_lawful (passwordFormatLawful hs _ hpassword) hs ha hl le_rfl
        fun _ _ => by simp

end Opening

/-- With the standard primitives, the file of one byte is accepted, and no file extends it or is
extended by it. -/
theorem open_extensionFree_standard : ∃ b w',
    openFile standardLibrary (ByteArr.zeros 32) [0x61]
      ({ input := .ofBytes b, output := {} } : World OStream) = .ok () w' ∧
    ExtensionFree (openFile standardLibrary (ByteArr.zeros 32) [0x61]) standard.gcm
      (fun salt noncePrefix => keyEnvelope standard (ByteArr.zeros 32) salt noncePrefix [0x61])
      b := by
  let law := keyFormatLawful standardLibrary_sound (2 ^ 20) (ByteArr.zeros 32)
  have hround : RoundTrips (sealFile standardLibrary (ByteArr.zeros 32) [0x61])
      (openFile standardLibrary (ByteArr.zeros 32) [0x61]) [0x62] := roundTrips_of_lawful law law
    standardLibrary_sound standardLibrary_sound (standardLibrary_available _)
    (standardLibrary_available _) standard_lengths standard_exact.correct le_rfl (by decide) rfl
    (fun _ _ => rfl) (by decide)
  obtain ⟨b, -, w', -, -, hopen, -⟩ := hround {} {} {} {} ⟨rfl, rfl⟩ ⟨rfl, rfl⟩
  have h := open_extensionFree standardLibrary_sound (standardLibrary_available _) standard_lengths
    b [0x61]
  exact ⟨b, w', hopen, h.1 (ByteArr.zeros 32)⟩

end SecureKit.File
