import SecureKit.File.Formats

/-!
# What opening does

The code of `open_file_payload` against the meaning of a body in `SecureKit.File.Format`.

* `outcome_readRecord`: the reading half of a round returns the record in front of the source,
  and throws `invalid_packet` only if there is none.
* `outcome_openLoop` is the invariant of the loop: what it has written and how it ends is a
  verdict of `Envelope.Reads`.
* `outcome_openStream` adds the header.

All of this is for an output that accepts what is written; the input may fail and so may
OpenSSL, and then the verdict is `interrupted`.

## The verdict

`Envelope.Reads` describes a body record by record, and ends in a verdict: accepted, malformed, a tag
that does not verify, or interrupted.  The loop follows it.  A round finds the record in front of
the source or none; the record verifies or does not; and if it was final, the source must end
there.  The cases of `outcome_openLoop` are these, and the induction is on the indices left.

`Reported` relates verdicts to errors.  The cause of an interruption is kept apart
(`Interruption`): a stream that fails, additional data that are too long, or a library that is not
available.  `openStream_settled` excludes all of them, and then the bytes decide.

What was written is part of the verdict as well, so what a call has released when it throws is read
off in the same way (`File.Language`).
-/

namespace SecureKit.File

open ByteString Effect Iostream Evp

/-! ## Reading a record -/

section ReadRecord

variable {s : IStream}

lemma outcome_readField {n : ℕ} {Q : ByteArr n → IStream → Prop} {E : Error → IStream → Prop}
    (hgood : s.state.good = true)
    (hok : ∀ data : ByteArr n, s.source.StartsWith data →
      Q data { s with source := s.source.skip n })
    (hends : ¬ s.source.Has n → ∀ s', E invalidPacket s')
    (hfault : s.source.faults = true → ∀ s', E readFailure s') :
    Outcome (readField n) s Q E := by
  rw [readField, outcome_bind]
  refine outcome_readExact hgood (fun data hdata => ?_) (fun hhas _ s' => ?_)
    (fun _ hf s' => hfault hf s')
  · exact hok data hdata
  · exact hends hhas s'

/-- The nine bytes in front of a record are its header. -/
lemma RecordAt.header_eq {s : Source} {i : ℕ} {flag : UInt8} {chunk : EncryptedChunk}
    (h : RecordAt s i flag chunk) {data : ByteArr kRecordHeaderSize} (hdata : s.StartsWith data) :
    data = (recordHeader i flag chunk.ciphertext.length).serialized := by
  have hstarts := h.startsWith
  rw [recordBytes, Source.startsWith_append] at hstarts
  exact ByteArr.ext (hdata.unique hstarts.1 (by simp))

/-- A well-formed chunk has a header that `parseRecordHeader` lets through. -/
lemma WellFormed.admissible {flag : UInt8} {chunk : EncryptedChunk} (h : WellFormed flag chunk) :
    AdmissibleRecord (UInt32.ofNat chunk.ciphertext.length) flag := by
  have hle := h.length_le
  refine ⟨h.imp And.left And.left, ?_⟩
  rw [UInt32.le_iff_toNat_le, toNat_kChunkSize,
    UInt32.toNat_ofNat_of_lt' (by rw [UInt32.size]; omega)]
  exact hle

/-- `makeRecordHeader` is determined by the bytes it makes. -/
lemma makeRecordHeader_injective {i j m n : UInt32} {f g : UInt8}
    (h : (makeRecordHeader i m f).serialized = (makeRecordHeader j n g).serialized) :
    i = j ∧ m = n ∧ f = g := by
  obtain ⟨hi, hm, hf⟩ := (makeRecordHeader_serialized_eq_iff _ i m f).mp rfl
  obtain ⟨hj, hn, hg⟩ := (makeRecordHeader_serialized_eq_iff _ j n g).mp rfl
  rw [h] at hi hm hf
  exact ⟨hi.symm.trans hj, hm.symm.trans hn, hf.symm.trans hg⟩

section Fields

variable {size : UInt32} {flag : UInt8} {ciphertext : ByteArr size.toNat} {tag : ByteArr kTagSize}

/-- The size that was read is the length of the ciphertext that was read behind it. -/
lemma recordHeader_eq_fields (i : ℕ) :
    recordHeader i flag (ciphertext : Bytes).length = makeRecordHeader (UInt32.ofNat i) size flag := by
  rw [recordHeader, ciphertext.length_coe, UInt32.ofNat_toNat]

lemma recordBytes_eq_fields (i : ℕ) :
    recordBytes i flag ⟨ciphertext, tag⟩ =
      ((makeRecordHeader (UInt32.ofNat i) size flag).serialized : Bytes) ++
        ((ciphertext : Bytes) ++ (tag : Bytes)) := by
  rw [recordBytes, recordHeader_eq_fields]

/-- The two checks of the size leave well-formed records. -/
lemma wellFormed_of_fields (hadm : AdmissibleRecord size flag)
    (hsize : ¬ (flag = kNotFinal ∧ size ≠ kChunkSize)) : WellFormed flag ⟨ciphertext, tag⟩ := by
  have hlen : (ciphertext : Bytes).length = size.toNat := ciphertext.length_coe
  have hle := UInt32.le_iff_toNat_le.mp hadm.2
  rcases hadm.1 with hflag | hflag
  · refine .inl ⟨hflag, ?_⟩
    rw [hlen, not_not.mp (not_and.mp hsize hflag), toNat_kChunkSize]
  · exact .inr ⟨hflag, by rw [hlen, ← toNat_kChunkSize]; exact hle⟩

end Fields

/-- **Reading a record** returns the record in front of the source.  It reports an invalid packet
only if there is none, and fails otherwise only on a source that faults. -/
lemma outcome_readRecord {i : ℕ} {Q : RecordHeader × Bytes × ByteArr kTagSize → IStream → Prop}
    {E : Error → IStream → Prop} (hgood : s.state.good = true)
    (hok : ∀ flag chunk s', RecordAt s.source i flag chunk →
      (flag = kNotFinal →
        s' = { s with source := s.source.skip (recordBytes i flag chunk).length }) →
      Q (recordHeader i flag chunk.ciphertext.length, chunk.ciphertext, chunk.tag) s')
    (hnone : (∀ flag chunk, ¬ RecordAt s.source i flag chunk) → ∀ s', E invalidPacket s')
    (hfault : s.source.faults = true → ∀ s', E readFailure s') :
    Outcome (readRecord (UInt32.ofNat i)) s Q E := by
  simp only [readRecord, outcome_bind, outcome_throwIf, outcome_ite, outcome_pure]
  refine outcome_readField hgood (fun data hdata => ?_) (fun hhas s' => ?_) hfault
  swap
  · refine hnone (fun flag chunk hrecord => hhas ?_) s'
    refine hrecord.startsWith.has.mono ?_
    rw [length_recordBytes, kRecordHeaderSize]
    omega
  cases hparse : parseRecordHeader data with
  | error e =>
    obtain rfl := parseRecordHeader_error hparse
    refine hnone (fun flag chunk hrecord => ?_) _
    rw [hrecord.header_eq hdata, recordHeader,
      parseRecordHeader_makeRecordHeader hrecord.wellFormed.admissible] at hparse
    cases hparse
  | ok record =>
    obtain ⟨index, size, flag, hadm, rfl, hserialized⟩ := eq_makeRecordHeader_of_parseRecordHeader hparse
    -- Whatever record there is in front of the source has the fields just parsed.
    have hfields : ∀ {flag' chunk}, RecordAt s.source i flag' chunk →
        index = UInt32.ofNat i ∧ size = UInt32.ofNat chunk.ciphertext.length ∧ flag = flag' :=
      fun hrecord => makeRecordHeader_injective (hserialized.symm.trans (hrecord.header_eq hdata))
    rw [outcome_exceptResult_ok]
    dsimp only [makeRecordHeader_index, makeRecordHeader_plaintextSize, makeRecordHeader_finalFlag]
    refine ⟨fun hindex => hnone (fun _ _ hrecord => hindex (hfields hrecord).1) _, fun hindex => ?_⟩
    obtain rfl : index = UInt32.ofNat i := not_not.mp hindex
    refine ⟨fun hshort => hnone (fun flag' chunk hrecord => hshort.2 ?_) _, fun hsize => ?_⟩
    · obtain ⟨-, hlen, rfl⟩ := hfields hrecord
      obtain ⟨rfl, -⟩ := hshort
      rw [hlen, hrecord.length_eq]
      rfl
    have hrest : ∀ {flag' chunk}, RecordAt s.source i flag' chunk →
        chunk.ciphertext.length = size.toNat ∧
          (s.source.skip kRecordHeaderSize).StartsWith (chunk.ciphertext ++ (chunk.tag : Bytes)) := by
      intro flag' chunk hrecord
      have hle := hrecord.wellFormed.length_le
      have hstarts := hrecord.startsWith
      rw [recordBytes, Source.startsWith_append, ByteArr.length_coe] at hstarts
      refine ⟨?_, hstarts.2⟩
      rw [(hfields hrecord).2.1, UInt32.toNat_ofNat_of_lt' (by rw [UInt32.size]; omega)]
    refine outcome_readField hgood (fun ciphertext hciphertext => ?_) (fun hhas s' => ?_) ?_
    · refine outcome_readField (by exact hgood) (fun tag htag => ?_) (fun hhas s' => ?_)
        (by simpa using hfault)
      · -- All three pieces are there: they make up a record.
        have hlen : (ciphertext : Bytes).length = size.toNat := ciphertext.length_coe
        have hbytes : recordBytes i flag ⟨ciphertext, tag⟩ =
            (data : Bytes) ++ ((ciphertext : Bytes) ++ (tag : Bytes)) := by
          rw [recordBytes_eq_fields, ← hserialized]
        have hwell : WellFormed flag ⟨ciphertext, tag⟩ := wellFormed_of_fields hadm hsize
        have hstarts : s.source.StartsWith (recordBytes i flag ⟨ciphertext, tag⟩) := by
          rw [hbytes, Source.startsWith_append, Source.startsWith_append]
          simpa using ⟨hdata, hciphertext, htag⟩
        have hskip : ((s.source.skip kRecordHeaderSize).skip size.toNat).skip kTagSize =
            s.source.skip (recordBytes i flag ⟨ciphertext, tag⟩).length := by
          rw [hbytes, Source.skip_skip, Source.skip_skip]
          simp [hlen]
        have hresult : ((makeRecordHeader (UInt32.ofNat i) size flag, (ciphertext : Bytes), tag) :
            RecordHeader × Bytes × ByteArr kTagSize) =
            (recordHeader i flag (ciphertext : Bytes).length, (ciphertext : Bytes), tag) := by
          rw [recordHeader_eq_fields]
        rw [hresult, hskip]
        refine ⟨fun hflag => ?_, fun hflag => ?_⟩
        · refine outcome_rejectTrailingData (by exact hgood) (fun s' hs' => ?_)
            (fun htrailing s' => ?_) fun _ hf s' => hfault (by simpa using hf) s'
          · exact hok flag ⟨ciphertext, tag⟩ s' ⟨hwell, hstarts, fun _ => hs'⟩ fun hnot =>
              absurd (hnot.symm.trans hflag) kNotFinal_ne_kFinal
          · refine hnone (fun flag' chunk hrecord => ?_) s'
            have hends := hrecord.ends ((hfields hrecord).2.2.symm.trans hflag)
            rw [length_recordBytes, (hrest hrecord).1] at hends
            rw [length_recordBytes, hlen, hends] at htrailing
            simp at htrailing
        · exact hok flag ⟨ciphertext, tag⟩ _ ⟨hwell, hstarts, fun h => absurd h hflag⟩ fun _ => rfl
      · refine hnone (fun flag' chunk hrecord => hhas ?_) s'
        obtain ⟨hlen, hstarts⟩ := hrest hrecord
        rw [← hlen]
        simpa using (Source.startsWith_append.mp hstarts).2.has
    · refine hnone (fun flag' chunk hrecord => hhas ?_) s'
      obtain ⟨hlen, hstarts⟩ := hrest hrecord
      rw [← hlen]
      exact (Source.startsWith_append.mp hstarts).1.has
    · rw [Source.faults_skip]
      exact hfault

end ReadRecord

/-! ## The loop -/

section OpenLoop

variable {ssl : Openssl} {prim : Primitives} {cap : ℕ} {ω : Type} [Output ω] [LawfulOutput ω]
  {e : Envelope} {w : World ω}

/-- What else than the contents of the file can end the reading of a body. -/
def Interruption (ssl : Openssl) (prim : Primitives) (cap headerSize : ℕ) (aad : Bytes)
    (s : Source) (error : Error) : Prop :=
  (error = readFailure ∧ s.faults = true) ∨
    (error = updateLimitError "AAD" ∧ intMax < headerSize + kRecordHeaderSize + aad.length) ∨
    ((error.code = .backend_failure ∨ error = authenticationFailed) ∧ ¬ ssl.Available prim cap)

/-- A verdict with the error it is reported by. -/
def Reported (verdict : Verdict) (error : Error) (interruption : Prop) : Prop :=
  match verdict with
  | .accepted => False
  | .badTag => error = authenticationFailed
  | .malformed => error = invalidPacket
  | .interrupted => interruption

/-- **A round** that returns has written the plaintext of a verified record.  Only there the output has
to take what is written. -/
lemma outcome_openRecord (hs : ssl.Sound prim) (hl : prim.gcm.Lengths) (hcap : 2 ^ 20 ≤ cap)
    {i : ℕ} {Q : Bool → World ω → Prop} {E : Error → World ω → Prop}
    (hgood : w.input.state.good = true)
    (hrel : ∀ flag chunk, RecordAt w.input.source i flag chunk → e.Verifies prim.gcm i flag chunk →
      Reliable w.output)
    (hok : ∀ flag chunk w', RecordAt w.input.source i flag chunk →
      e.Verifies prim.gcm i flag chunk → Reliable w'.output →
      written w'.output = written w.output ++ e.plaintext prim.gcm i chunk →
      (flag = kNotFinal → w'.input = { w.input with
        source := w.input.source.skip (recordBytes i flag chunk).length }) →
      Q (flag = kFinal) w')
    (hfail : ∀ verdict error w', e.Reads prim.gcm i w.input.source [] verdict →
      written w'.output = written w.output →
      Reported verdict error
        (Interruption ssl prim cap e.serialized.length e.aad w.input.source error) → E error w') :
    Outcome (openRecord ssl e.serialized e.noncePrefix e.fileKey e.aad (UInt32.ofNat i)) w Q E := by
  simp only [openRecord, outcome_bind, outcome_onInput, outcome_onLib, outcome_onOutput,
    outcome_pure]
  refine outcome_readRecord hgood (fun flag chunk s' hrecord hnext => ?_) (fun hnone s' => ?_)
    fun hf s' => ?_
  · have hsize := hrecord.wellFormed.length_le
    refine outcome_decryptChunk hs hl (hsize.trans (by decide)) (hsize.trans hcap)
      (fun haad hverify lib' => ?_) (fun hlong lib' => ?_) (fun _ hcause lib' => ?_)
      fun hcause lib' => ?_
    · -- The tag has verified, and only then the text is written.
      have hreliable := hrel flag chunk hrecord hverify
      refine outcome_writeAll (Handed.refl _) (fun o' hhanded hrel' => ?_) fun hnot =>
        absurd hreliable hnot
      refine hok flag chunk _ hrecord hverify (hrel' hreliable) ?_ hnext
      exact hhanded.written_eq (LawfulOutput.intact_of_reliable _ (hrel' hreliable))
    · refine hfail .interrupted _ _ .interrupted rfl (.inr (.inl ⟨rfl, ?_⟩))
      rwa [length_makeChunkAad] at hlong
    · -- A bad tag and a failing library are reported alike.
      by_cases havail : ssl.Available prim cap
      · refine hfail .badTag _ _ (.badTag hrecord fun hverify => ?_) rfl rfl
        have hfalse := hcause.resolve_right (not_not.mpr havail)
        exact Bool.false_ne_true (hfalse.symm.trans hverify)
      · exact hfail .interrupted _ _ .interrupted rfl (.inr (.inr ⟨.inr rfl, havail⟩))
    · exact hfail .interrupted _ _ .interrupted rfl (.inr (.inr ⟨.inl rfl, hcause⟩))
  · -- There is no record, or the input has failed.
    exact hfail .malformed _ _ (.malformed hnone) rfl rfl
  · exact hfail .interrupted _ _ .interrupted rfl (.inl ⟨rfl, hf⟩)

/-- **The loop** ends as the meaning of the body says, with its plaintext written. -/
theorem outcome_openLoop (hs : ssl.Sound prim) (hl : prim.gcm.Lengths) (hcap : 2 ^ 20 ≤ cap)
    {i : ℕ} (hi : i < 2 ^ 32) (hgood : w.input.state.good = true) (hrel : Reliable w.output) :
    Outcome (openLoop ssl e.serialized e.noncePrefix e.fileKey e.aad (UInt32.ofNat i)) w
      (fun _ w' => Reliable w'.output ∧ ∃ out, e.Reads prim.gcm i w.input.source out .accepted ∧
        written w'.output = written w.output ++ out)
      (fun error w' => ∃ verdict out, e.Reads prim.gcm i w.input.source out verdict ∧
        written w'.output = written w.output ++ out ∧ Reported verdict error
          (Interruption ssl prim cap e.serialized.length e.aad w.input.source error)) := by
  -- The loop ends because the index grows up to its bound.
  induction hleft : 2 ^ 32 - i using Nat.strong_induction_on generalizing i w with
  | _ left ih =>
    rw [openLoop, outcome_bind]
    refine outcome_openRecord hs hl hcap hgood (fun _ _ _ _ => hrel)
      (fun flag chunk w₁ hrecord hverify hrel₁ hwritten₁ hnext => ?_)
      fun verdict error w₁ hreads hwritten₁ hreported =>
        ⟨verdict, [], hreads, by rw [hwritten₁, List.append_nil], hreported⟩
    rcases hrecord.wellFormed with ⟨hflag, -⟩ | ⟨hflag, -⟩
    · subst hflag
      have hw₁ := hnext rfl
      have hfalse : decide (kNotFinal = kFinal) = false := by decide
      simp only [hfalse, and_true, Bool.false_eq_true, dite_false]
      by_cases hlast : UInt32.ofNat i = uint32Max
      · -- A full record under the last index leaves no index for the final one.
        rw [dif_pos hlast, outcome_throw]
        exact ⟨.malformed, _, .exhausted hrecord hverify ((ofNat_eq_uint32Max_iff hi).mp hlast),
          hwritten₁, rfl⟩
      · rw [dif_neg hlast]
        have hi₁ : i + 1 < 2 ^ 32 := not_not.mp fun h => hlast ((ofNat_eq_uint32Max_iff hi).mpr h)
        have hgood₁ : w₁.input.state.good = true := by rw [hw₁]; exact hgood
        have hstep : UInt32.ofNat i + 1 = UInt32.ofNat (i + 1) := (UInt32.ofNat_add i 1).symm
        rw [hstep]
        refine (ih (2 ^ 32 - (i + 1)) (by omega) hi₁ hgood₁ hrel₁ rfl).mono ?_ ?_
        · rintro ⟨⟩ w' ⟨hrel', out, hreads, hwritten'⟩
          rw [hw₁] at hreads
          refine ⟨hrel', _, .next hrecord hverify hi₁ hreads, ?_⟩
          rw [hwritten', hwritten₁, List.append_assoc]
        · rintro error w' ⟨verdict, out, hreads, hwritten', hreported⟩
          rw [hw₁] at hreads hreported
          refine ⟨verdict, _, .next hrecord hverify hi₁ hreads, ?_, ?_⟩
          · rw [hwritten', hwritten₁, List.append_assoc]
          · simpa [Interruption] using hreported
    · subst hflag
      simp only [decide_true, Bool.true_eq_false, and_false, dite_false, dite_true, outcome_pure]
      exact ⟨hrel₁, _, .accepted hrecord hverify, hwritten₁⟩

/-- A body whose first record does not verify is refused, whatever the output is, and nothing is
written. -/
lemma outcome_openFilePayload_of_fails (hs : ssl.Sound prim) (hl : prim.gcm.Lengths)
    (hcap : 2 ^ 20 ≤ cap) (hgood : w.input.state.good = true)
    (hfails : ∀ flag chunk, RecordAt w.input.source 0 flag chunk → ¬ e.Verifies prim.gcm 0 flag chunk) :
    Outcome (openFilePayload ssl e.serialized e.noncePrefix e.fileKey e.aad) w (fun _ _ => False)
      (fun error w' => written w'.output = written w.output ∧
        ∃ verdict, e.Reads prim.gcm 0 w.input.source [] verdict ∧ Reported verdict error
          (Interruption ssl prim cap e.serialized.length e.aad w.input.source error)) := by
  rw [openFilePayload, openLoop, outcome_bind]
  refine outcome_openRecord hs hl hcap (i := 0) hgood
    (fun flag chunk hrecord hverify => absurd hverify (hfails flag chunk hrecord))
    (fun flag chunk _ hrecord hverify => absurd hverify (hfails flag chunk hrecord)) ?_
  intro verdict error w' hreads hwritten hreported
  exact ⟨hwritten, verdict, hreads, hreported⟩

end OpenLoop

/-! ## The stream overloads -/

section OpenStream

variable {ssl : Openssl} {prim : Primitives} {cap : ℕ} {ω : Type} [Output ω] [LawfulOutput ω]
  {format : FileFormat} {w : World ω} {aad : Bytes}

omit [LawfulOutput ω] in
/-- The header is read and the file key derived from it.  What comes then is up to the payload. -/
lemma outcome_openStream_header (law : format.Lawful ssl prim cap) (hgood : w.input.state.good = true)
    {Q : Unit → World ω → Prop} {E : Error → World ω → Prop}
    (hpayload : ∀ salt noncePrefix lib', let e := law.envelope salt noncePrefix aad
      w.input.source.StartsWith e.serialized →
      Outcome (openFilePayload ssl e.serialized e.noncePrefix e.fileKey e.aad)
        { w with input := { w.input with source := w.input.source.skip format.headerSize },
                 lib := lib' } Q E)
    (hnone : (∀ salt noncePrefix,
        ¬ w.input.source.StartsWith (law.envelope salt noncePrefix aad).serialized) →
      ∀ w', w'.output = w.output → E invalidPacket w')
    (hfault : w.input.source.faults = true → ∀ w', w'.output = w.output → E readFailure w')
    (hbackend : ¬ ssl.Available prim cap → ∀ salt noncePrefix error w',
      w.input.source.StartsWith (law.envelope salt noncePrefix aad).serialized →
        error.code = .backend_failure → w'.output = w.output → E error w') :
    Outcome (openStream ssl format aad) w Q E := by
  simp only [openStream, outcome_bind, outcome_onInput, outcome_onLib]
  refine outcome_readField hgood (fun data hdata => ?_) (fun hhas s' => ?_)
    fun hf s' => hfault hf _ rfl
  · cases hparse : format.parse data with
    | error error =>
      -- What `parse` rejects is no header, as every header is parsed.
      obtain rfl := law.parse_error hparse
      refine hnone (fun salt noncePrefix hstarts => ?_) _ rfl
      obtain rfl : data = format.serialized (law.header salt noncePrefix) :=
        ByteArr.ext (hdata.unique hstarts (by simp))
      rw [law.parse_header] at hparse
      cases hparse
    | ok header =>
      obtain ⟨salt, noncePrefix, rfl, rfl⟩ := law.header_of_parse hparse
      rw [outcome_exceptResult_ok]
      refine law.outcome_deriveKey (fun lib' => ?_) fun havail error lib' hcode =>
        hbackend havail salt noncePrefix error _ hdata hcode rfl
      rw [law.noncePrefix_header]
      exact hpayload salt noncePrefix lib' hdata
  · -- There are too few bytes for a header.
    refine hnone (fun salt noncePrefix hstarts => hhas ?_) _ rfl
    simpa [FileFormat.Lawful.envelope] using hstarts.has

/-- **Opening a stream.**  A call that returns has found a header and behind it a body that is
accepted.  One that throws has found no header, and written nothing, or has found one and written
what comes out of the body before its verdict. -/
theorem outcome_openStream (law : format.Lawful ssl prim cap) (hs : ssl.Sound prim)
    (hl : prim.gcm.Lengths) (hcap : 2 ^ 20 ≤ cap) (hgood : w.input.state.good = true)
    (hrel : Reliable w.output) :
    Outcome (openStream ssl format aad) w
      (fun _ w' => Reliable w'.output ∧ ∃ salt noncePrefix out,
        w.input.source.StartsWith (law.envelope salt noncePrefix aad).serialized ∧
        (law.envelope salt noncePrefix aad).Reads prim.gcm 0
          (w.input.source.skip format.headerSize) out .accepted ∧
        written w'.output = written w.output ++ out)
      (fun error w' =>
        (written w'.output = written w.output ∧
          ((error = invalidPacket ∧ ∀ salt noncePrefix,
              ¬ w.input.source.StartsWith (law.envelope salt noncePrefix aad).serialized) ∨
            (error = readFailure ∧ w.input.source.faults = true))) ∨
        ∃ salt noncePrefix verdict out,
          w.input.source.StartsWith (law.envelope salt noncePrefix aad).serialized ∧
          (law.envelope salt noncePrefix aad).Reads prim.gcm 0
            (w.input.source.skip format.headerSize) out verdict ∧
          written w'.output = written w.output ++ out ∧
          Reported verdict error (Interruption ssl prim cap format.headerSize aad
            w.input.source error)) := by
  refine outcome_openStream_header law hgood (fun salt noncePrefix lib' hstarts => ?_)
    (fun hnone w' houtput => .inl ⟨by rw [houtput], .inl ⟨rfl, hnone⟩⟩)
    (fun hf w' houtput => .inl ⟨by rw [houtput], .inr ⟨rfl, hf⟩⟩)
    fun havail salt noncePrefix error w' hstarts hcode houtput => .inr ⟨salt, noncePrefix,
      .interrupted, [], hstarts, .interrupted, by rw [houtput, List.append_nil],
      .inr (.inr ⟨.inl hcode, havail⟩)⟩
  have hloop := outcome_openLoop (e := law.envelope salt noncePrefix aad) (i := 0)
    (w := { w with input := { w.input with source := w.input.source.skip format.headerSize },
                   lib := lib' }) hs hl hcap (by decide) hgood hrel
  refine hloop.mono ?_ ?_
  · rintro ⟨⟩ w' ⟨hrel', out, hreads, hwritten⟩
    exact ⟨hrel', salt, noncePrefix, out, hstarts, hreads, hwritten⟩
  · rintro error w' ⟨verdict, out, hreads, hwritten, hreported⟩
    refine .inr ⟨salt, noncePrefix, verdict, out, hstarts, hreads, hwritten, ?_⟩
    simpa [Interruption, FileFormat.Lawful.envelope] using hreported

/-- **Opening without interruption.**  Where neither the input nor OpenSSL fails, the meaning of the
body settles how the call ends and what it has written. -/
theorem openStream_settled (law : format.Lawful ssl prim cap) (hs : ssl.Sound prim)
    (ha : ssl.Available prim cap) (hl : prim.gcm.Lengths) (hcap : 2 ^ 20 ≤ cap)
    (hgood : w.input.state.good = true) (hf : w.input.source.faults = false)
    (hrel : Reliable w.output) (haad : format.headerSize + kRecordHeaderSize + aad.length ≤ intMax)
    {salt : ByteArr kSaltSize} {noncePrefix : ByteArr kNoncePrefixSize} {out : Bytes}
    {verdict : Verdict}
    (hstarts : w.input.source.StartsWith (law.envelope salt noncePrefix aad).serialized)
    (hreads : (law.envelope salt noncePrefix aad).Reads prim.gcm 0
      (w.input.source.skip format.headerSize) out verdict) (hverdict : verdict ≠ .interrupted) :
    Outcome (openStream ssl format aad) w
      (fun _ w' => verdict = .accepted ∧ Reliable w'.output ∧
        written w'.output = written w.output ++ out)
      (fun error w' => Reported verdict error False ∧
        written w'.output = written w.output ++ out) := by
  -- There is one header in front of the source.
  have hunique : ∀ {salt' noncePrefix'},
      w.input.source.StartsWith (law.envelope salt' noncePrefix' aad).serialized →
        law.envelope salt' noncePrefix' aad = law.envelope salt noncePrefix aad := by
    intro salt' noncePrefix' hstarts'
    have hbytes := hstarts'.unique hstarts (by simp [FileFormat.Lawful.envelope])
    obtain ⟨rfl, rfl⟩ := law.serialized_injective (ByteArr.ext hbytes)
    rfl
  refine (outcome_openStream law hs hl hcap hgood hrel).mono ?_ ?_
  · rintro ⟨⟩ w' ⟨hrel', salt', noncePrefix', out', hstarts', hreads', hwritten⟩
    rw [hunique hstarts'] at hreads'
    obtain ⟨rfl, rfl⟩ := hreads'.deterministic hreads (by simp) hverdict
    exact ⟨rfl, hrel', hwritten⟩
  · rintro error w' (⟨-, ⟨-, hnone⟩ | ⟨-, hfault⟩⟩ | ⟨salt', noncePrefix', verdict', out', hstarts',
      hreads', hwritten, hreported⟩)
    · exact absurd hstarts (hnone _ _)
    · rw [hf] at hfault
      cases hfault
    · rw [hunique hstarts'] at hreads'
      -- Nothing interrupts this run, so its verdict is the one that was given.
      have hverdict' : verdict' ≠ .interrupted := by
        rintro rfl
        rcases hreported with ⟨-, hfault⟩ | ⟨-, hlong⟩ | ⟨-, hnot⟩
        · rw [hf] at hfault
          cases hfault
        · omega
        · exact hnot ha
      obtain ⟨rfl, rfl⟩ := hreads'.deterministic hreads hverdict' hverdict
      refine ⟨?_, hwritten⟩
      cases verdict' with
      | interrupted => exact absurd rfl hverdict
      | accepted | badTag | malformed => exact hreported

omit [LawfulOutput ω] in
/-- On a stream that is not good the header is not read. -/
lemma outcome_openStream_of_not_good (hsize : format.headerSize ≠ 0)
    (hgood : w.input.state.good = false) :
    Outcome (openStream ssl format aad) w (fun _ _ => False)
      (fun _ w' => w'.output = w.output) := by
  simp only [openStream, readField, readExact, outcome_bind, outcome_onInput, outcome_readBytes,
    outcome_ite, outcome_flags, outcome_throwIf, outcome_pure, IStream.read_of_not_good hgood]
  refine ⟨fun h => absurd h.symm hsize, fun _ => ⟨fun _ => trivial, fun _ => trivial⟩⟩

end OpenStream

end SecureKit.File
