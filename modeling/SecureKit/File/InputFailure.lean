import SecureKit.Base.Kdf
import SecureKit.File.Seal

/-!
# Sealing from a stream that has failed

A stream whose buffer fails while it is read has `badbit` set and no other flag, and
`seal_stream_payload` reports it.  A stream that is handed over with flags already set is another
matter: `!in.eof() && in.fail()` does not hold where the end-of-file flag is set as well, so a
stream that has both met its end and gone bad is taken for an empty one.

`seal_failsOnBadInput_iff` draws the line: the stream overloads report every bad stream except one
with both flags set, and that one only where the output refuses the first bytes.

## The condition

`ReportsBadInput` is a condition on the two streams before the call.  Either not both flags are set,
or the output has no room for the file header, or it has none for the header of the first record
and the additional data are short enough for the call to come that far.  In the last two cases it
is the output that is reported, with the same code, and no final record is complete.

`FailsOnBadInput` is what the source promises for a bad input: it is reported as
`backend_failure`, and behind the file header nothing is marked final.  It covers streams that are
bad at the call and streams that go bad while they are read.

That the condition is enough holds for every library, since a failure of OpenSSL ends the call as
well.  For the other direction the library must be `Available`: a library that fails at the only
record of `endedAndBad` would keep the call from returning.

`seal_endedAndBad_not_reported` is a stream with both flags set, sealed as an empty file.
-/

namespace SecureKit.File

open ByteString Effect Iostream Evp

/-! ## What a run on a bad stream must not do -/

/-- Behind a file header, the flag of some record is the final one, where all records before it
are full. -/
def MarksFinal (file : Bytes) : Prop :=
  ∃ k : ℕ, file[k * (2 ^ 20 + 25) + 8]? = some kFinal

/-- The error is that of a failed stream, and what was written since `before` contains no record
marked final. -/
def FailsCleanly (headerSize : ℕ) (before after : Bytes) (error : Error) : Prop :=
  error.code = .backend_failure ∧ ¬ MarksFinal (after.drop (before.length + headerSize))

/-- A run whose input is bad at its start or its end throws `backend_failure`, and has not
written a record marked final. -/
def FailsOnBadInput (sealing : Eff (World OStream) Unit) (headerSize : ℕ) (w : World OStream) :
    Prop :=
  Outcome sealing w
    (fun _ w' => ¬ (w.input.state.badbit = true ∨ w'.input.state.badbit = true))
    (fun error w' => w.input.state.badbit = true ∨ w'.input.state.badbit = true →
      FailsCleanly headerSize w.output.written w'.output.written error)

/-- The input does not have its bad and its end-of-file flag set at the call, or the output
refuses the file header, or the header of the first record that is about to be written. -/
def ReportsBadInput (headerSize : ℕ) (aad : Bytes) (w : World OStream) : Prop :=
  ¬ (w.input.state.badbit = true ∧ w.input.state.eofbit = true) ∨ w.output.Refuses headerSize ∨
    (headerSize + kRecordHeaderSize + aad.length ≤ intMax ∧
      w.output.Refuses (headerSize + kRecordHeaderSize))

/-! ## Flags in full records -/

lemma recordBytes_flag (i : ℕ) (flag : UInt8) (chunk : EncryptedChunk) (rest : Bytes) :
    (recordBytes i flag chunk ++ rest)[8]? = some flag := by
  rw [recordBytes, coe_recordHeader]
  simp [List.getElem?_append]

/-- No record of a run of full ones is marked final. -/
lemma not_marksFinal_fullRecords {first : ℕ} {chunks : List EncryptedChunk}
    (h : ∀ chunk ∈ chunks, chunk.ciphertext.length = 2 ^ 20) :
    ¬ MarksFinal (fullRecords first chunks) := by
  rintro ⟨k, hk⟩
  induction chunks generalizing first k with
  | nil => simp [fullRecords] at hk
  | cons chunk chunks ih =>
    rw [fullRecords] at hk
    cases k with
    | zero =>
      rw [Nat.zero_mul, Nat.zero_add, recordBytes_flag] at hk
      exact kNotFinal_ne_kFinal (Option.some.inj hk)
    | succ k =>
      have hlen : (recordBytes first kNotFinal chunk).length = 2 ^ 20 + 25 := by
        rw [length_recordBytes, h chunk (by simp)]
      rw [List.getElem?_append_right (by rw [hlen]; omega), hlen] at hk
      have hindex : (k + 1) * (2 ^ 20 + 25) + 8 - (2 ^ 20 + 25) = k * (2 ^ 20 + 25) + 8 := by omega
      rw [hindex] at hk
      exact ih (fun c hc => h c (by simp [hc])) k hk

lemma MarksFinal.mono {a b : Bytes} (h : a <+: b) (ha : MarksFinal a) : MarksFinal b := by
  obtain ⟨k, hk⟩ := ha
  obtain ⟨rest, rfl⟩ := h
  obtain ⟨hlt, -⟩ := List.getElem?_eq_some_iff.mp hk
  exact ⟨k, by rwa [List.getElem?_append_left hlt]⟩

/-- Less than a record header is no record that is marked final. -/
lemma not_marksFinal_of_length_le {file : Bytes} (h : file.length ≤ 8) : ¬ MarksFinal file := by
  rintro ⟨k, hk⟩
  obtain ⟨hlt, -⟩ := List.getElem?_eq_some_iff.mp hk
  omega

/-- A header and records that are not final are written cleanly. -/
lemma failsCleanly_of_prefix {headerSize : ℕ} {before after : Bytes} (header records : Bytes)
    {error : Error} (hcode : error.code = .backend_failure) (hheader : header.length = headerSize)
    (hfront : after <+: before ++ (header ++ records)) (hrecords : ¬ MarksFinal records) :
    FailsCleanly headerSize before after error := by
  refine ⟨hcode, fun hmarks => hrecords (hmarks.mono ?_)⟩
  have hdrop := hfront.drop (before.length + headerSize)
  rwa [← hheader, ← List.length_append, ← List.append_assoc, List.drop_left, List.length_append,
    hheader] at hdrop

/-- The header of the record that an empty input is sealed as. -/
def emptyRecord : Bytes := (recordHeader 0 kFinal 0).serialized

section HeaderWritten

variable {headerSize : ℕ} {output output' : OStream} {header : Bytes} {error : Error}

/-- A run that writes nothing fails cleanly. -/
lemma failsCleanly_of_eq (hcode : error.code = .backend_failure) (houtput : output' = output) :
    FailsCleanly headerSize output.written output'.written error := by
  refine failsCleanly_of_prefix (ByteArr.zeros headerSize) [] hcode (ByteArr.length_coe _) ?_
    (not_marksFinal_of_length_le (by simp))
  rw [houtput]
  exact List.prefix_append _ _

/-- A run that writes nothing but the file header fails cleanly. -/
lemma failsCleanly_of_write (hcode : error.code = .backend_failure)
    (hheader : header.length = headerSize) (houtput : output' = output.write header) :
    FailsCleanly headerSize output.written output'.written error := by
  refine failsCleanly_of_prefix header [] hcode hheader ?_ (not_marksFinal_of_length_le (by simp))
  rw [houtput, List.append_nil]
  exact (OStream.written_write _ _).1

/-- So does one whose record header is refused, behind a file header that was not. -/
lemma failsCleanly_of_refused (hcode : error.code = .backend_failure)
    (hheader : header.length = headerSize) (htaken : ¬ output.Refuses headerSize)
    (hrefused : (output.write header).Refuses kRecordHeaderSize)
    (houtput : output' = (output.write header).write emptyRecord) :
    FailsCleanly headerSize output.written output'.written error := by
  have hlen : emptyRecord.length = kRecordHeaderSize := ByteArr.length_coe _
  have hfail : (output.write header).state.fail ≠ true :=
    fun h => htaken (hheader ▸ OStream.fail_write.mp h)
  have hgood := (hrefused.resolve_left hfail).1
  obtain ⟨n, hn, hwritten⟩ := (hlen ▸ hrefused).written_write (by decide)
  refine failsCleanly_of_prefix header (emptyRecord.take n) hcode hheader ?_
    (not_marksFinal_of_length_le ?_)
  · rw [houtput, hwritten, ((OStream.written_write _ _).2.1 hgood).2, List.append_assoc]
  · rw [List.length_take, hlen, kRecordHeaderSize]
    rw [hlen, kRecordHeaderSize] at hn
    omega

/-- The header of an empty record, written behind the file header, marks a final record. -/
lemma marksFinal_of_emptyRecord {after : Bytes} (hheader : header.length = headerSize)
    (hgood : (output.write header).state.good = true)
    (hwritten : (output.write header).written ++ emptyRecord <+: after) :
    MarksFinal (after.drop (output.written.length + headerSize)) := by
  rw [((OStream.written_write _ _).2.1 hgood).2, List.append_assoc] at hwritten
  have hdrop := hwritten.drop (output.written.length + headerSize)
  rw [← hheader, ← List.length_append, ← List.append_assoc, List.drop_left] at hdrop
  rw [← hheader, ← List.length_append]
  refine MarksFinal.mono hdrop ⟨0, ?_⟩
  decide

end HeaderWritten

/-! ## Sealing with flags set at the call -/

section NotGood

variable {ssl : Openssl} {prim : Primitives} {cap : ℕ} {e : Envelope} {w : World OStream}

variable (cap) in
/-- Sealing an empty chunk as the final record: the run stops at what the output refuses first,
and has written the record header before anything that is refused later. -/
lemma outcome_sealRecord_empty (hs : ssl.Sound prim) (hl : prim.gcm.Lengths)
    {Q : Unit → World OStream → Prop} {E : Error → World OStream → Prop}
    (hok : ∀ w', w'.input = w.input →
      e.serialized.length + kRecordHeaderSize + e.aad.length ≤ intMax →
      ¬ w.output.Refuses kRecordHeaderSize → Q () w')
    (hlong : ∀ w', w'.input = w.input →
      intMax < e.serialized.length + kRecordHeaderSize + e.aad.length →
      E (updateLimitError "AAD") w')
    (hcipher : ¬ ssl.Available prim cap → ∀ w', w'.input = w.input → w'.output = w.output →
      E cipherFailure w')
    (hrefused : ∀ w', w'.input = w.input →
      e.serialized.length + kRecordHeaderSize + e.aad.length ≤ intMax →
      w.output.Refuses kRecordHeaderSize → w'.output = w.output.write emptyRecord →
      E writeFailure w')
    (hlate : ∀ w', w'.input = w.input →
      e.serialized.length + kRecordHeaderSize + e.aad.length ≤ intMax →
      w.output.state.good = true → ¬ w.output.Refuses kRecordHeaderSize →
      w.output.written ++ emptyRecord <+: w'.output.written → E writeFailure w') :
    Outcome (sealRecord ssl e.serialized e.noncePrefix e.fileKey e.aad (UInt32.ofNat 0) [] true) w
      Q E := by
  simp only [sealRecord, outcome_bind, outcome_recordChunk, outcome_onOutput,
    outcome_writeAllStream, if_true]
  have hrecord : ((makeRecordHeader (UInt32.ofNat 0) (UInt32.ofNat ([] : Bytes).length)
      kFinal).serialized : Bytes) = emptyRecord := rfl
  have hsize : emptyRecord.length = kRecordHeaderSize := ByteArr.length_coe _
  rw [hrecord]
  refine outcome_encryptChunk hs hl (by simp) (by simp) (fun haad lib' => ?_)
    (fun hlarge lib' => ?_) fun havail lib' => hcipher havail _ rfl rfl
  · rw [length_makeChunkAad] at haad
    rw [hsize]
    refine ⟨fun href => hrefused _ rfl haad href rfl, fun href => ?_⟩
    -- What is refused from here on is refused by an output that took the record header.
    have hgood : ∀ n, (w.output.write emptyRecord).Refuses n → w.output.state.good = true := by
      intro n hn
      by_contra hidle
      have hfail : w.output.state.fail = false := by
        simpa using fun hf => href (.inl hf)
      rw [OStream.write_of_idle (by simpa using hidle) hfail] at hn
      exact OStream.not_refuses_of_idle (by simpa using hidle) hfail n hn
    have hwritten : w.output.state.good = true →
        (w.output.write emptyRecord).written = w.output.written ++ emptyRecord := by
      intro hg
      have hfits : w.output.Fits emptyRecord.length := by
        rw [hsize]
        exact not_not.mp fun hf => href (.inr ⟨hg, hf⟩)
      rw [OStream.write_of_fits hg hfits]
    refine ⟨fun hn => ?_, fun hct => ⟨fun hn => ?_, fun _ => hok _ rfl haad href⟩⟩
    · refine hlate _ rfl haad (hgood _ hn) href ?_
      rw [← hwritten (hgood _ hn)]
      exact OStream.written_prefix_write _ _
    · rw [OStream.refuses_write_iff hct] at hn
      refine hlate _ rfl haad (hgood _ hn) href ?_
      rw [← hwritten (hgood _ hn)]
      exact (OStream.written_prefix_write _ _).trans (OStream.written_prefix_write _ _)
  · rw [length_makeChunkAad] at hlarge
    exact hlong _ rfl hlarge

/-- On a stream that is not good, sealing writes the header, and then takes the stream for an
empty one if its end-of-file flag is set. -/
lemma outcome_sealStreamPayload_of_not_good (hgood : w.input.state.good = false)
    {Q : Unit → World OStream → Prop} {E : Error → World OStream → Prop}
    (hrefused : w.output.Refuses e.serialized.length → ∀ w',
      w'.input.state.badbit = w.input.state.badbit → w'.output = w.output.write e.serialized →
      E writeFailure w')
    (hfail : w.input.state.eofbit = false → ∀ w',
      w'.input.state.badbit = w.input.state.badbit → w'.output = w.output.write e.serialized →
      E readFailure w')
    (hempty : w.input.state.eofbit = true → ¬ w.output.Refuses e.serialized.length → ∀ w',
      w'.input.state.badbit = w.input.state.badbit → w'.output = w.output.write e.serialized →
      Outcome (sealRecord ssl e.serialized e.noncePrefix e.fileKey e.aad (UInt32.ofNat 0) [] true)
        w' Q E) :
    Outcome (sealStreamPayload ssl e.serialized e.noncePrefix e.fileKey e.aad) w Q E := by
  rw [sealStreamPayload, outcome_bind, outcome_onOutput, outcome_writeAllStream]
  refine ⟨fun href => hrefused href _ rfl rfl, fun href => ?_⟩
  rw [sealLoop, outcome_bind, sealChunk, outcome_bind, outcome_onInput]
  refine outcome_readChunk_of_not_good hgood (fun heof => ?_) fun heof => ?_
  · rw [outcome_bind]
    refine (hempty heof href _ ?_ ?_).mono (fun _ w' h => ?_) fun _ _ h => h
    · rfl
    · rfl
    · simpa using h
  · exact hfail heof _ rfl rfl

end NotGood

/-! ## The stream overloads -/

section BadInput

variable {ssl : Openssl} {prim : Primitives} {format : FileFormat} {aad : Bytes}
  {w : World OStream}

/-- A stream that is good at the call is reported when it goes bad. -/
lemma failsOnBadInput_of_good (law : format.Lawful ssl prim (2 ^ 20)) (hs : ssl.Sound prim)
    (hl : prim.gcm.Lengths) (hgood : w.input.state.good = true) :
    FailsOnBadInput (sealStream ssl format aad) format.headerSize w := by
  have hnot : w.input.state.badbit = false := by rw [IoState.eq_of_good hgood]
  have hbad : ∀ {w' : World OStream}, w'.input.state.badbit = false →
      ¬ (w.input.state.badbit = true ∨ w'.input.state.badbit = true) := by
    intro w' h
    simp [hnot, h]
  refine (outcome_sealStream law hs hl le_rfl hgood).mono ?_ ?_
  · rintro ⟨⟩ w' ⟨salt, noncePrefix, parts, last, -, -, h⟩
    exact hbad h.not_bad
  · rintro error w' (⟨-, -, hinput, -, -⟩ | ⟨salt, noncePrefix, parts, h⟩) hcon
    · exact absurd hcon (hbad (by rw [hinput]; exact hnot))
    · rcases h.cause with ⟨rfl, -, -, hhanded⟩ | ⟨-, -, hclean, -⟩ | ⟨-, hclean⟩
      · exact failsCleanly_of_prefix _ _ rfl (ByteArr.length_coe _) hhanded.written_prefix
          (not_marksFinal_fullRecords (Envelope.length_of_mem_sealFull hl h.full))
      · exact absurd hcon (hbad hclean)
      · exact absurd hcon (hbad hclean)

variable (aad) in
/-- How a run ends that was handed a stream with flags set: if the input is bad, it is reported
where `ReportsBadInput` says so and, unless the library fails, nowhere else. -/
lemma outcome_sealStream_of_not_good (law : format.Lawful ssl prim (2 ^ 20)) (hs : ssl.Sound prim)
    (hl : prim.gcm.Lengths) (hgood : w.input.state.good = false) :
    Outcome (sealStream ssl format aad) w
      (fun _ w' => w'.input.state.badbit = w.input.state.badbit ∧
        (w.input.state.badbit = true → ¬ ReportsBadInput format.headerSize aad w))
      (fun error w' => w'.input.state.badbit = w.input.state.badbit ∧
        (w.input.state.badbit = true →
          (ReportsBadInput format.headerSize aad w →
            FailsCleanly format.headerSize w.output.written w'.output.written error) ∧
          (ssl.Available prim (2 ^ 20) →
            FailsCleanly format.headerSize w.output.written w'.output.written error →
            ReportsBadInput format.headerSize aad w))) := by
  rw [sealStream, outcome_bind, outcome_onLib]
  refine law.outcome_make (fun salt noncePrefix lib₁ _ _ => ?_) fun havail error lib₁ hcode =>
    ⟨rfl, fun _ => ⟨fun _ => failsCleanly_of_eq hcode rfl, fun h => absurd h havail⟩⟩
  rw [outcome_bind, outcome_onLib]
  refine law.outcome_deriveKey (fun lib₂ => ?_) fun havail error lib₂ hcode =>
    ⟨rfl, fun _ => ⟨fun _ => failsCleanly_of_eq hcode rfl, fun h => absurd h havail⟩⟩
  rw [law.noncePrefix_header]
  have hsize : (law.envelope salt noncePrefix aad).serialized.length = format.headerSize :=
    ByteArr.length_coe _
  refine outcome_sealStreamPayload_of_not_good (e := law.envelope salt noncePrefix aad)
    (w := { w with lib := lib₂ }) hgood (fun href w' hbad houtput => ?_)
    (fun heof w' hbad houtput => ?_) fun heof href w₁ hbad houtput₁ => ?_
  · rw [hsize] at href
    exact ⟨hbad, fun _ =>
      ⟨fun _ => failsCleanly_of_write rfl hsize houtput, fun _ _ => .inr (.inl href)⟩⟩
  · refine ⟨hbad, fun _ =>
      ⟨fun _ => failsCleanly_of_write rfl hsize houtput, fun _ _ => .inl fun hboth => ?_⟩⟩
    rw [heof] at hboth
    exact absurd hboth.2 (by simp)
  · have hrefuses : w₁.output.Refuses kRecordHeaderSize ↔
        w.output.Refuses (format.headerSize + kRecordHeaderSize) := by
      rw [houtput₁, OStream.refuses_write_iff href, hsize]
    rw [hsize] at href
    -- The input is bad and at its end, so what is left of the condition is about the first record.
    have hreports : w.input.state.badbit = true → (ReportsBadInput format.headerSize aad w ↔
        format.headerSize + kRecordHeaderSize + aad.length ≤ intMax ∧
          w₁.output.Refuses kRecordHeaderSize) := by
      intro hbad₀
      rw [hrefuses, ReportsBadInput, or_iff_right (not_not.mpr ⟨hbad₀, heof⟩), or_iff_right href]
    have haad_eq : (law.envelope salt noncePrefix aad).serialized.length + kRecordHeaderSize +
        (law.envelope salt noncePrefix aad).aad.length =
          format.headerSize + kRecordHeaderSize + aad.length := by
      rw [hsize]
      rfl
    refine outcome_sealRecord_empty (2 ^ 20) (e := law.envelope salt noncePrefix aad) hs hl
      (fun w' hinput haad hnot => ?_) (fun w' hinput hlong => ?_)
      (fun havail w' hinput houtput => ?_) (fun w' hinput haad href₁ houtput => ?_)
      fun w' hinput haad hgood₁ hnot hwritten => ?_
    · refine ⟨by rw [hinput, hbad], fun hbad₀ => ?_⟩
      rw [hreports hbad₀]
      exact fun h => hnot h.2
    · rw [haad_eq] at hlong
      refine ⟨by rw [hinput, hbad], fun hbad₀ => ?_⟩
      rw [hreports hbad₀]
      refine ⟨fun h => by omega, fun _ hclean => ?_⟩
      cases hclean.1
    · refine ⟨by rw [hinput, hbad], fun _ => ⟨fun _ => ?_, fun h => absurd h havail⟩⟩
      exact failsCleanly_of_write rfl hsize (houtput.trans houtput₁)
    · rw [haad_eq] at haad
      refine ⟨by rw [hinput, hbad], fun hbad₀ => ?_⟩
      rw [hreports hbad₀]
      refine ⟨fun _ => ?_, fun _ _ => ⟨haad, href₁⟩⟩
      rw [houtput₁] at href₁ houtput
      exact failsCleanly_of_refused rfl hsize href href₁ houtput
    · refine ⟨by rw [hinput, hbad], fun hbad₀ => ?_⟩
      rw [hreports hbad₀]
      refine ⟨fun h => absurd h.2 hnot, fun _ hclean => absurd ?_ hclean.2⟩
      rw [houtput₁] at hgood₁ hwritten
      exact marksFinal_of_emptyRecord hsize hgood₁ hwritten

variable (aad w) in
/-- **Which bad streams are reported.** -/
theorem failsOnBadInput_iff_of_lawful (law : format.Lawful ssl prim (2 ^ 20)) (hs : ssl.Sound prim)
    (hl : prim.gcm.Lengths) :
    (ReportsBadInput format.headerSize aad w →
      FailsOnBadInput (sealStream ssl format aad) format.headerSize w) ∧
    (ssl.Available prim (2 ^ 20) →
      FailsOnBadInput (sealStream ssl format aad) format.headerSize w →
      ReportsBadInput format.headerSize aad w) := by
  cases hgood : w.input.state.good with
  | true =>
    refine ⟨fun _ => failsOnBadInput_of_good law hs hl hgood, fun _ _ => .inl ?_⟩
    rw [IoState.eq_of_good hgood]
    simp
  | false =>
    have houtcome := outcome_sealStream_of_not_good aad law hs hl hgood
    constructor
    · intro hreports
      refine houtcome.mono ?_ ?_
      · rintro ⟨⟩ w' ⟨hsame, hnot⟩ hbad
        rw [hsame, or_self] at hbad
        exact hnot hbad hreports
      · rintro error w' ⟨hsame, hcases⟩ hbad
        rw [hsame, or_self] at hbad
        exact (hcases hbad).1 hreports
    · intro havail hfails
      by_cases hbad : w.input.state.badbit = true
      · cases hrun : sealStream ssl format aad w with
        | ok _ w' => exact absurd (.inl hbad) (hfails.of_ok hrun)
        | error error w' =>
          exact ((houtcome.of_error hrun).2 hbad).2 havail (hfails.of_error hrun (.inl hbad))
      · exact .inl fun hboth => hbad hboth.1

/-- **Which failing inputs are reported**, by the overloads for a key and for a password.  That the
condition is enough does not depend on the library, which reports its own failures instead. -/
theorem seal_failsOnBadInput_iff (hs : ssl.Sound prim) (hl : prim.gcm.Lengths) (aad : Bytes)
    (w : World OStream) :
    (∀ key : key256,
      (ssl.Available prim (2 ^ 20) →
        (FailsOnBadInput (sealFile ssl key aad) kHeaderSize w ↔ ReportsBadInput kHeaderSize aad w)) ∧
      (ReportsBadInput kHeaderSize aad w → FailsOnBadInput (sealFile ssl key aad) kHeaderSize w)) ∧
    ∀ password : Bytes, password ≠ [] →
      (ssl.Available prim (2 ^ 20) →
        (FailsOnBadInput (sealFileWithPassword ssl password aad) kPasswordHeaderSize w ↔
          ReportsBadInput kPasswordHeaderSize aad w)) ∧
      (ReportsBadInput kPasswordHeaderSize aad w →
        FailsOnBadInput (sealFileWithPassword ssl password aad) kPasswordHeaderSize w) := by
  constructor
  · intro key
    obtain ⟨henough, honly⟩ := failsOnBadInput_iff_of_lawful aad w
      (keyFormatLawful hs (2 ^ 20) key) hs hl
    exact ⟨fun ha => ⟨honly ha, henough⟩, henough⟩
  · intro password hpassword
    rw [sealFileWithPassword_eq aad hpassword]
    obtain ⟨henough, honly⟩ := failsOnBadInput_iff_of_lawful aad w
      (passwordFormatLawful hs (2 ^ 20) hpassword) hs hl
    exact ⟨fun ha => ⟨honly ha, henough⟩, henough⟩

end BadInput

/-- A stream that has met its end and gone bad, with a byte left in it, and an output that accepts
everything. -/
def endedAndBad : World OStream where
  input := { source := .finite [0x61] .eof, state := { eofbit := true, badbit := true } }
  output := {}

/-- A byte left in a stream with both flags set is lost, and nothing is reported. -/
theorem seal_endedAndBad_not_reported :
    ¬ FailsOnBadInput (sealFile standardLibrary (ByteArr.zeros 32) []) kHeaderSize endedAndBad := by
  intro hfails
  have hreports := (failsOnBadInput_iff_of_lawful [] endedAndBad
    (keyFormatLawful standardLibrary_sound (2 ^ 20) (ByteArr.zeros 32)) standardLibrary_sound
    standard_lengths).2 (standardLibrary_available _) hfails
  rcases hreports with hflags | hrefuses | ⟨-, hrefuses⟩
  · exact hflags ⟨rfl, rfl⟩
  · exact absurd hrefuses (by decide : ¬ endedAndBad.output.Refuses kHeaderSize)
  · exact absurd hrefuses
      (by decide : ¬ endedAndBad.output.Refuses (kHeaderSize + kRecordHeaderSize))

/-- Where only the bad flag is set, the stream is reported. -/
theorem seal_failsOnBadInput_iff_bad :
    FailsOnBadInput (sealFile standardLibrary (ByteArr.zeros 32) []) kHeaderSize
      { input := { source := .finite [0x61] .eof, state := { badbit := true } }, output := {} } ∧
    FailsOnBadInput (sealFileWithPassword standardLibrary [0x70] []) kPasswordHeaderSize
      { input := { source := .finite [0x61] .eof, state := { badbit := true } }, output := {} } := by
  obtain ⟨hkey, hpassword⟩ := seal_failsOnBadInput_iff standardLibrary_sound standard_lengths []
    { input := { source := .finite [0x61] .eof, state := { badbit := true } }, output := {} }
  have havail := standardLibrary_available (2 ^ 20)
  exact ⟨((hkey (ByteArr.zeros 32)).1 havail).mpr (.inl (by simp)),
    ((hpassword [0x70] (by simp)).1 havail).mpr (.inl (by simp))⟩

end SecureKit.File
