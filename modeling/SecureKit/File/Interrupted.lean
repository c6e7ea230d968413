import SecureKit.File.Truncation

/-!
# Sealing that is interrupted

A stream overload writes to its output as it goes, so a call that throws leaves a part of a file
behind.  `Unfinished` says what this part can be: full records, and at most a part of another one.
There is no complete final record in it, so whatever it was that interrupted the call, what it has
written does not open under the same secret and additional data (`seal_interrupted`).

The output is an `std::ostream` that may fail at any byte.  Nothing is assumed of the input, nor of
the state in which either stream comes to the call.

## The argument

What a run has written when it throws is determined round by round.  A write to an `std::ostream`
takes all of its data or a proper beginning (`Wrote`, `IsCutOf`), and behind the first write that
was cut the stream is bad and takes no more.  `Unfinished` is closed under putting a full record in
front, so the induction over the rounds is one case for a round that returns and one for each of
the writes that can be cut.

Opening such bytes finds the full records verified (`AesGcm.Correct`), and behind them a record that
is cut off or none at all.  So it ends with the error of a malformed file.  `NeverOpens` says that no
call returns for whatever library computes the primitives, and it names the error where the library
is `Available` and the additional data fit the limits; otherwise another failure may come first.

At `shortOfRoom` the call throws in the middle of the first record.
-/

namespace SecureKit.File

open ByteString Effect Iostream Evp

/-! ## What an interrupted run writes -/

/-- What a run of the loop from index `i` on can have written when it throws. -/
inductive Unfinished (gcm : AesGcm) (e : Envelope) : ℕ → Bytes → Prop
  /-- A part of a record, or nothing. -/
  | cut {i flag plaintext n} (hwell : WellFormed flag (e.sealed gcm i flag plaintext))
    (hn : n < (recordBytes i flag (e.sealed gcm i flag plaintext)).length) :
    Unfinished gcm e i ((recordBytes i flag (e.sealed gcm i flag plaintext)).take n)
  | next {i part b} (hwell : WellFormed kNotFinal (e.sealed gcm i kNotFinal part))
    (hi : i + 1 < 2 ^ 32) (h : Unfinished gcm e (i + 1) b) :
    Unfinished gcm e i (recordBytes i kNotFinal (e.sealed gcm i kNotFinal part) ++ b)
  /-- The record under the last index, which is not final. -/
  | full {i part} (hwell : WellFormed kNotFinal (e.sealed gcm i kNotFinal part))
    (hi : ¬ i + 1 < 2 ^ 32) :
    Unfinished gcm e i (recordBytes i kNotFinal (e.sealed gcm i kNotFinal part))

section Unfinished

variable {gcm : AesGcm} {e : Envelope} {i : ℕ} {b : Bytes}

lemma Unfinished.nil (hl : gcm.Lengths) : Unfinished gcm e i [] := by
  have hwell : WellFormed kFinal (e.sealed gcm i kFinal []) := by
    refine .inr ⟨rfl, ?_⟩
    have hlen : (e.sealed gcm i kFinal []).ciphertext.length = 0 := hl.length_encText _ _ _
    omega
  have hcut := Unfinished.cut (n := 0) hwell (by rw [length_recordBytes]; omega)
  rwa [List.take_zero] at hcut

/-- **It is malformed** wherever it ends. -/
lemma Unfinished.reads (hl : gcm.Lengths) (hc : gcm.Correct) (h : Unfinished gcm e i b) :
    ∃ text, e.Reads gcm i (.finite b .eof) text .malformed := by
  have hverifies : ∀ {i flag plaintext}, e.Verifies gcm i flag (e.sealed gcm i flag plaintext) :=
    fun {i flag plaintext} => (Envelope.recovers_of_correct hl hc i flag plaintext).1
  induction h with
  | @cut i flag plaintext n hwell hn =>
    refine ⟨[], .malformed fun flag' chunk' => ?_⟩
    have hnone : ¬ RecordAt (.finite ((recordBytes i flag (e.sealed gcm i flag plaintext) ++ []).take n)
        .eof) i flag' chunk' := not_recordAt_of_cut hwell hn flag' chunk'
    rwa [List.append_nil] at hnone
  | @next i part b hwell hi h ih =>
    obtain ⟨text, hreads⟩ := ih
    have hrecord : RecordAt (.finite (recordBytes i kNotFinal (e.sealed gcm i kNotFinal part) ++ b)
        .eof) i kNotFinal (e.sealed gcm i kNotFinal part) :=
      ⟨hwell, Source.startsWith_finite.mpr (List.prefix_append _ _),
        fun hfinal => absurd hfinal kNotFinal_ne_kFinal⟩
    rw [← Source.skip_finite_append (recordBytes i kNotFinal (e.sealed gcm i kNotFinal part)) b .eof]
      at hreads
    exact ⟨_, .next hrecord hverifies hi hreads⟩
  | @full i part hwell hi =>
    refine ⟨_, .exhausted ⟨hwell, ?_, fun hfinal => absurd hfinal kNotFinal_ne_kFinal⟩ hverifies hi⟩
    exact Source.startsWith_finite.mpr List.prefix_rfl

end Unfinished

/-! ## Writing to a stream that may fail -/

/-- A proper beginning. -/
def IsCutOf (data b : Bytes) : Prop := ∃ n < data.length, b = data.take n

/-- A write of `data` returned. -/
inductive Wrote (data : Bytes) (o o' : OStream) : Prop
  | all (hgood : o.state.good = true) (hgood' : o'.state.good = true)
    (h : o'.written = o.written ++ data)
  /-- A stream that is not good is not written to. -/
  | nothing (hgood : o.state.good = false) (hgood' : o'.state.good = false)
    (h : o'.written = o.written)

/-- A write of something that `unfinished` describes a part of was interrupted. -/
inductive Tore (unfinished : Bytes → Prop) (o o' : OStream) : Prop
  | part {b} (hgood : o.state.good = true) (hb : unfinished b) (h : o'.written = o.written ++ b)
  | nothing (hgood : o.state.good = false) (h : o'.written = o.written)

section Writes

variable {o o' o'' : OStream} {data data' : Bytes} {unfinished : Bytes → Prop}

lemma outcome_writeAll_torn {Q : Unit → OStream → Prop} {E : Error → OStream → Prop}
    (hok : ∀ o', Wrote data o o' → Q () o')
    (hfail : ∀ o', Tore (IsCutOf data) o o' → E writeFailure o') :
    Outcome (writeAll data) o Q E := by
  rw [outcome_writeAllStream]
  refine ⟨fun hrefuses => hfail _ ?_, fun hnot => hok _ ?_⟩
  · cases hgood : o.state.good with
    | false =>
      refine .nothing hgood ?_
      rw [OStream.write_of_not_good hgood]
    | true =>
      rcases hrefuses with hbad | ⟨-, hfits⟩
      · rw [IoState.eq_of_good hgood] at hbad
        cases hbad
      · refine .part hgood ⟨o.room.getD 0, ?_, rfl⟩ ?_
        · cases hroom : o.room with
          | none => exact absurd (fun r hr => by rw [hroom] at hr; cases hr) hfits
          | some r =>
            by_contra hcon
            refine hfits fun r' hr' => ?_
            rw [hroom] at hr'
            cases hr'
            exact not_lt.mp hcon
        · rw [OStream.write_of_not_fits hgood hfits]
  · cases hgood : o.state.good with
    | false =>
      refine .nothing hgood ?_ ?_
      · rw [OStream.write_of_not_good hgood]
        simp only [IoState.good] at hgood ⊢
        grind
      · rw [OStream.write_of_not_good hgood]
    | true =>
      have hfits : o.Fits data.length := by
        by_contra hcon
        exact hnot (.inr ⟨hgood, hcon⟩)
      refine .all hgood ?_ ?_
      · rw [OStream.write_of_fits hgood hfits]
        exact hgood
      · rw [OStream.write_of_fits hgood hfits]

lemma Wrote.append (h : Wrote data o o') (h' : Wrote data' o' o'') : Wrote (data ++ data') o o'' := by
  cases h with
  | all hgood hgood' h =>
    cases h' with
    | all _ hgood'' h'' => exact .all hgood hgood'' (by rw [h'', h, List.append_assoc])
    | nothing hbad => rw [hgood'] at hbad; cases hbad
  | nothing hgood hgood' h =>
    cases h' with
    | all hgood'' => rw [hgood'] at hgood''; cases hgood''
    | nothing _ hgood'' h'' => exact .nothing hgood hgood'' (h''.trans h)

/-- What is torn behind something that was written. -/
lemma Wrote.tore {unfinished' : Bytes → Prop} (h : Wrote data o o') (h' : Tore unfinished o' o'')
    (hmono : ∀ b, unfinished b → unfinished' (data ++ b)) : Tore unfinished' o o'' := by
  cases h with
  | all hgood hgood' h =>
    cases h' with
    | part _ hb h'' => exact .part hgood (hmono _ hb) (by rw [h'', h, List.append_assoc])
    | nothing hbad => rw [hgood'] at hbad; cases hbad
  | nothing hgood hgood' h =>
    cases h' with
    | part hgood'' => rw [hgood'] at hgood''; cases hgood''
    | nothing _ h'' => exact .nothing hgood (h''.trans h)

lemma Tore.refl (h : unfinished []) : Tore unfinished o o := by
  cases hgood : o.state.good with
  | false => exact .nothing hgood rfl
  | true => exact .part hgood h (List.append_nil _).symm

/-- What was written is all there is. -/
lemma Wrote.tore_of_all (h : Wrote data o o') (hdata : unfinished data) : Tore unfinished o o' := by
  cases h with
  | all hgood _ h => exact .part hgood hdata h
  | nothing hgood _ h => exact .nothing hgood h

lemma Tore.mono {unfinished' : Bytes → Prop} (h : Tore unfinished o o')
    (hmono : ∀ b, unfinished b → unfinished' b) : Tore unfinished' o o' := by
  cases h with
  | part hgood hb h => exact .part hgood (hmono _ hb) h
  | nothing hgood h => exact .nothing hgood h

lemma IsCutOf.append {b : Bytes} (h : IsCutOf data b) (back : Bytes) : IsCutOf (data ++ back) b := by
  obtain ⟨n, hn, rfl⟩ := h
  refine ⟨n, by rw [List.length_append]; omega, ?_⟩
  rw [List.take_append_of_le_length hn.le]

lemma IsCutOf.behind {b : Bytes} (h : IsCutOf data b) (front : Bytes) :
    IsCutOf (front ++ data) (front ++ b) := by
  obtain ⟨n, hn, rfl⟩ := h
  refine ⟨front.length + n, by rw [List.length_append]; omega, ?_⟩
  rw [List.take_length_add_append]

end Writes

/-! ## The rounds -/

section Rounds

variable {ssl : Openssl} {prim : Primitives} {e : Envelope} {w : World OStream} {i : ℕ}

/-- What is read in a round fits a record, and fills it if it is not the last. -/
lemma outcome_readChunk_wellFormed {s : IStream} :
    Outcome readChunk s
      (fun r _ => r.1.length ≤ 2 ^ 20 ∧ (r.2 = false → r.1.length = 2 ^ 20)) fun _ _ => True := by
  cases hgood : s.state.good with
  | false =>
    exact outcome_readChunk_of_not_good hgood (fun _ => ⟨Nat.zero_le _, by simp⟩) fun _ => trivial
  | true =>
    refine outcome_readChunk hgood (fun hmore => ?_) (fun bytes s' _ hlen _ => ⟨hlen, by simp⟩)
      fun _ _ _ => trivial
    have hfull : (s.source.ahead (2 ^ 20)).length = 2 ^ 20 := hmore.mono (Nat.le_succ (2 ^ 20))
    exact ⟨hfull.le, fun _ => hfull⟩

/-- A record is written as a whole, or torn. -/
lemma outcome_sealRecord_torn (hs : ssl.Sound prim) (hl : prim.gcm.Lengths) {plaintext : Bytes}
    {isFinal : Bool} {flag : UInt8} (hflag : (if isFinal then kFinal else kNotFinal) = flag)
    (hsize : plaintext.length ≤ 2 ^ 20) :
    Outcome (sealRecord ssl e.serialized e.noncePrefix e.fileKey e.aad (UInt32.ofNat i) plaintext
      isFinal) w
      (fun _ w' => Wrote (recordBytes i flag (e.sealed prim.gcm i flag plaintext)) w.output w'.output)
      (fun _ w' => Tore (IsCutOf (recordBytes i flag (e.sealed prim.gcm i flag plaintext))) w.output
        w'.output) := by
  have hlen : (e.sealed prim.gcm i flag plaintext).ciphertext.length = plaintext.length :=
    hl.length_encText _ _ _
  have hnothing : Tore (IsCutOf (recordBytes i flag (e.sealed prim.gcm i flag plaintext))) w.output
      w.output :=
    .refl ⟨0, by rw [length_recordBytes]; omega, rfl⟩
  have hrecord : recordBytes i flag (e.sealed prim.gcm i flag plaintext) =
      ((recordHeader i flag plaintext.length).serialized : Bytes) ++
        ((e.sealed prim.gcm i flag plaintext).ciphertext ++
          ((e.sealed prim.gcm i flag plaintext).tag : Bytes)) := by
    rw [recordBytes, hlen]
  simp only [sealRecord, outcome_bind, outcome_recordChunk, outcome_onOutput, hflag]
  refine outcome_encryptChunk hs hl (hsize.trans (by decide)) hsize (fun haad lib' => ?_)
    (fun hlong lib' => hnothing) fun havail lib' => hnothing
  rw [hrecord]
  refine outcome_writeAll_torn (fun o₁ h₁ => ?_) fun o₁ h₁ => h₁.mono fun b hb => hb.append _
  refine outcome_writeAll_torn (fun o₂ h₂ => ?_) fun o₂ h₂ =>
    h₁.tore h₂ fun b hb => (hb.append _).behind _
  refine outcome_writeAll_torn (fun o₃ h₃ => h₁.append (h₂.append h₃)) fun o₃ h₃ => ?_
  rw [← List.append_assoc]
  exact (h₁.append h₂).tore h₃ fun b hb => hb.behind _

/-- **A round** that does not throw and is not the last writes a full record. -/
lemma outcome_sealChunk_torn (hs : ssl.Sound prim) (hl : prim.gcm.Lengths) :
    Outcome (sealChunk ssl e.serialized e.noncePrefix e.fileKey e.aad (UInt32.ofNat i)) w
      (fun isFinal w' => isFinal = false → ∃ part,
        WellFormed kNotFinal (e.sealed prim.gcm i kNotFinal part) ∧
        Wrote (recordBytes i kNotFinal (e.sealed prim.gcm i kNotFinal part)) w.output w'.output)
      (fun _ w' => Tore (Unfinished prim.gcm e i) w.output w'.output) := by
  simp only [sealChunk, outcome_bind, outcome_onInput, outcome_pure]
  refine outcome_readChunk_wellFormed.mono ?_ fun _ _ _ => .refl (Unfinished.nil hl)
  rintro ⟨part, isFinal⟩ s' ⟨hsize, hfull⟩
  have hlen : ∀ flag, (e.sealed prim.gcm i flag part).ciphertext.length = part.length :=
    fun flag => hl.length_encText _ _ _
  refine (outcome_sealRecord_torn hs hl rfl hsize).mono ?_ ?_
  · rintro ⟨⟩ w' hwrote rfl
    exact ⟨part, .inl ⟨rfl, (hlen _).trans (hfull rfl)⟩, hwrote⟩
  · intro _ w' htore
    refine htore.mono ?_
    rintro b ⟨n, hn, rfl⟩
    refine .cut ?_ hn
    cases isFinal with
    | false => exact .inl ⟨rfl, (hlen _).trans (hfull rfl)⟩
    | true => exact .inr ⟨rfl, (hlen _).trans_le hsize⟩

/-- **The loop** leaves something unfinished when it throws. -/
lemma outcome_sealLoop_torn (hs : ssl.Sound prim) (hl : prim.gcm.Lengths) (hi : i < 2 ^ 32) :
    Outcome (sealLoop ssl e.serialized e.noncePrefix e.fileKey e.aad (UInt32.ofNat i)) w
      (fun _ _ => True) (fun _ w' => Tore (Unfinished prim.gcm e i) w.output w'.output) := by
  induction hleft : 2 ^ 32 - i using Nat.strong_induction_on generalizing i w with
  | _ left ih =>
    rw [sealLoop, outcome_bind]
    refine (outcome_sealChunk_torn hs hl).mono (fun isFinal w₁ hround => ?_) fun _ _ htore => htore
    cases isFinal with
    | true => simp only [Bool.true_eq_false, and_false, dite_false, dite_true, outcome_pure]
    | false =>
      obtain ⟨part, hwell, hwrote⟩ := hround rfl
      simp only [Bool.false_eq_true, and_true, dite_false]
      by_cases hlast : UInt32.ofNat i = uint32Max
      · rw [dif_pos hlast, outcome_throw]
        exact hwrote.tore_of_all (.full hwell ((ofNat_eq_uint32Max_iff hi).mp hlast))
      · rw [dif_neg hlast]
        have hi₁ : i + 1 < 2 ^ 32 := not_not.mp fun h => hlast ((ofNat_eq_uint32Max_iff hi).mpr h)
        have hstep : UInt32.ofNat i + 1 = UInt32.ofNat (i + 1) := (UInt32.ofNat_add i 1).symm
        rw [hstep]
        refine (ih (2 ^ 32 - (i + 1)) (by omega) hi₁ rfl).mono (fun _ _ _ => trivial) ?_
        exact fun _ w' htore => hwrote.tore htore fun b hb => .next hwell hi₁ hb

end Rounds

/-! ## The stream overloads -/

/-- What an interrupted call leaves behind: not even a header, or an unfinished body behind one. -/
def Leftover (gcm : AesGcm) (envelope : Envelopes) (b : Bytes) : Prop :=
  (∀ salt noncePrefix, ¬ (envelope salt noncePrefix).serialized <+: b) ∨
    ∃ salt noncePrefix body, b = (envelope salt noncePrefix).serialized ++ body ∧
      Unfinished gcm (envelope salt noncePrefix) 0 body

/-- No call of opening returns on `b`, whatever the library does; and the error is that of a malformed
file unless the library is not available or the additional data are too long. -/
def NeverOpens (opening : Openssl → Eff (World OStream) Unit) (prim : Primitives) (headerSize : ℕ)
    (aad b : Bytes) : Prop :=
  ∀ ssl, ssl.Sound prim → ∀ (lib : Lib) (out : OStream), out.Reliable →
    Outcome (opening ssl) { input := .ofBytes b, output := out, lib } (fun _ _ => False)
      fun error _ => ssl.Available prim (2 ^ 20) →
        headerSize + kRecordHeaderSize + aad.length ≤ intMax → error = invalidPacket

section Streams

variable {ssl : Openssl} {prim : Primitives} {format : FileFormat} {aad b : Bytes}
  {w : World OStream}

lemma outcome_sealStreamPayload_torn (hs : ssl.Sound prim) (hl : prim.gcm.Lengths) {e : Envelope} :
    Outcome (sealStreamPayload ssl e.serialized e.noncePrefix e.fileKey e.aad) w (fun _ _ => True)
      fun _ w' => Tore (fun b => IsCutOf e.serialized b ∨
        ∃ body, b = e.serialized ++ body ∧ Unfinished prim.gcm e 0 body) w.output w'.output := by
  simp only [sealStreamPayload, outcome_bind, outcome_onOutput]
  refine outcome_writeAll_torn (fun o₁ h₁ => ?_) fun o₁ h₁ => h₁.mono fun _ => .inl
  refine (outcome_sealLoop_torn (i := 0) hs hl (by decide)).mono (fun _ _ _ => trivial) ?_
  exact fun _ w' htore => h₁.tore htore fun b hb => .inr ⟨b, rfl, hb⟩

/-- **What a call of sealing that throws has written.** -/
lemma outcome_sealStream_leftover (law : format.Lawful ssl prim (2 ^ 20)) (hs : ssl.Sound prim)
    (hl : prim.gcm.Lengths) (hsize : format.headerSize ≠ 0) :
    Outcome (sealStream ssl format aad) w (fun _ _ => True) fun _ w' => ∃ b,
      w'.output.written = w.output.written ++ b ∧
        Leftover prim.gcm (fun salt noncePrefix => law.envelope salt noncePrefix aad) b := by
  have hheader : ∀ salt noncePrefix,
      (law.envelope salt noncePrefix aad).serialized.length = format.headerSize :=
    fun _ _ => ByteArr.length_coe _
  have hshort : ∀ b : Bytes, b.length < format.headerSize →
      Leftover prim.gcm (fun salt noncePrefix => law.envelope salt noncePrefix aad) b := by
    refine fun b hb => .inl fun salt noncePrefix hfront => ?_
    have hle := hfront.length_le
    rw [hheader] at hle
    omega
  have hnothing : ∃ b, w.output.written = w.output.written ++ b ∧
      Leftover prim.gcm (fun salt noncePrefix => law.envelope salt noncePrefix aad) b :=
    ⟨[], (List.append_nil _).symm, hshort [] (Nat.pos_of_ne_zero hsize)⟩
  simp only [sealStream, outcome_bind, outcome_onLib]
  refine law.outcome_make (fun salt noncePrefix lib₁ _ _ => ?_) fun _ _ _ _ => hnothing
  refine law.outcome_deriveKey (fun lib₂ => ?_) fun _ _ _ _ => hnothing
  rw [law.noncePrefix_header]
  refine (outcome_sealStreamPayload_torn (e := law.envelope salt noncePrefix aad)
    (w := { w with lib := lib₂ }) hs hl).mono (fun _ _ _ => trivial) fun _ w' htore => ?_
  cases htore with
  | @part b _ hb h =>
    refine ⟨b, h, ?_⟩
    rcases hb with ⟨n, hn, rfl⟩ | ⟨body, rfl, hbody⟩
    · refine hshort _ ?_
      rw [hheader] at hn
      exact (List.length_take_le _ _).trans_lt hn
    · exact .inr ⟨salt, noncePrefix, body, rfl, hbody⟩
  | nothing _ h =>
    obtain ⟨b, hb, hleftover⟩ := hnothing
    exact ⟨b, h.trans hb, hleftover⟩

/-- **It does not open.** -/
lemma outcome_openStream_of_leftover (law : format.Lawful ssl prim (2 ^ 20)) (hs : ssl.Sound prim)
    (hl : prim.gcm.Lengths) (hc : prim.gcm.Correct) {envelope : Envelopes}
    (henvelope : ∀ salt noncePrefix, law.envelope salt noncePrefix aad = envelope salt noncePrefix)
    (h : Leftover prim.gcm envelope b) {out : OStream} (hrel : out.Reliable) {lib : Lib} :
    Outcome (openStream ssl format aad) { input := .ofBytes b, output := out, lib }
      (fun _ _ => False) fun error _ => ssl.Available prim (2 ^ 20) →
        format.headerSize + kRecordHeaderSize + aad.length ≤ intMax → error = invalidPacket := by
  -- Behind a header the body is malformed.
  have hmalformed : ∀ {salt noncePrefix text verdict},
      (Source.finite b .eof).StartsWith (law.envelope salt noncePrefix aad).serialized →
      (law.envelope salt noncePrefix aad).Reads prim.gcm 0
        ((Source.finite b .eof).skip format.headerSize) text verdict →
      verdict ≠ .interrupted → verdict = .malformed := by
    intro salt noncePrefix text verdict hstarts hreads hverdict
    obtain ⟨body, hbytes, hbody⟩ := law.exists_body hstarts
    rw [hbody] at hreads
    rcases h with hno | ⟨salt', noncePrefix', body', rfl, hunfinished⟩
    · rw [Source.startsWith_finite, henvelope] at hstarts
      exact absurd hstarts (hno salt noncePrefix)
    · rw [← henvelope] at hbytes hunfinished
      obtain ⟨text', hreads'⟩ := hunfinished.reads hl hc
      exact (law.verdict_unique hbytes.symm hreads hreads' hverdict (by simp)).2
  refine (outcome_openStream law hs hl le_rfl rfl hrel).mono ?_ ?_
  · rintro ⟨⟩ w' ⟨-, salt, noncePrefix, text, hstarts, hreads, -⟩
    cases hmalformed hstarts hreads (by simp)
  · rintro error w' (⟨-, ⟨herror, -⟩ | ⟨-, hfault⟩⟩ |
      ⟨salt, noncePrefix, verdict, text, hstarts, hreads, -, hreported⟩) havail haad
    · exact herror
    · cases hfault
    · cases verdict with
      | accepted => exact hreported.elim
      | badTag => cases hmalformed hstarts hreads (by simp)
      | malformed => exact hreported
      | interrupted =>
        rcases hreported with ⟨-, hfault⟩ | ⟨-, hlong⟩ | ⟨-, hnot⟩
        · cases hfault
        · omega
        · exact absurd havail hnot

end Streams

lemma kHeaderSize_ne_zero : kHeaderSize ≠ 0 := by decide

lemma kPasswordHeaderSize_ne_zero : kPasswordHeaderSize ≠ 0 := by decide

/-- **What an interrupted sealing has written never opens.** -/
theorem seal_interrupted {ssl : Openssl} {prim : Primitives} (hs : ssl.Sound prim)
    (hl : prim.gcm.Lengths) (hc : prim.gcm.Correct) (aad : Bytes) (w : World OStream) :
    (∀ key error w', sealFile ssl key aad w = .error error w' → ∃ b,
      w'.output.written = w.output.written ++ b ∧
        NeverOpens (fun ssl => openFile ssl key aad) prim kHeaderSize aad b) ∧
    ∀ password error w', password ≠ [] → sealFileWithPassword ssl password aad w = .error error w' →
      ∃ b, w'.output.written = w.output.written ++ b ∧
        NeverOpens (fun ssl => openFileWithPassword ssl password aad) prim kPasswordHeaderSize aad b := by
  constructor
  · intro key error w' hrun
    obtain ⟨b, hwritten, hleft⟩ :=
      (outcome_sealStream_leftover (keyFormatLawful hs _ key) hs hl kHeaderSize_ne_zero).of_error hrun
    refine ⟨b, hwritten, fun ssl' hs' lib out hrel => ?_⟩
    refine outcome_openStream_of_leftover (keyFormatLawful hs' _ key) hs' hl hc (fun _ _ => ?_) hleft hrel
    simp
  · intro password error w' hpassword hrun
    rw [sealFileWithPassword_eq aad hpassword] at hrun
    obtain ⟨b, hwritten, hleft⟩ := (outcome_sealStream_leftover (passwordFormatLawful hs _ hpassword)
      hs hl kPasswordHeaderSize_ne_zero).of_error hrun
    refine ⟨b, hwritten, fun ssl' hs' lib out hrel => ?_⟩
    simp only [openFileWithPassword_eq aad hpassword]
    refine outcome_openStream_of_leftover (passwordFormatLawful hs' _ hpassword) hs' hl hc
      (fun _ _ => ?_) hleft hrel
    simp

/-! ## An output that is too small -/

section NoRoom

variable {ssl : Openssl} {prim : Primitives} {e : Envelope} {w : World OStream}

lemma outcome_sealRecord_noRoom (hs : ssl.Sound prim) (hl : prim.gcm.Lengths)
    (hgood : w.output.state.good = true) {plaintext : Bytes} (hsize : plaintext.length ≤ 2 ^ 20)
    (hnot : ¬ w.output.Fits (kRecordHeaderSize + kTagSize)) {i : UInt32} {isFinal : Bool} :
    Outcome (sealRecord ssl e.serialized e.noncePrefix e.fileKey e.aad i plaintext isFinal) w
      (fun _ _ => False) fun _ _ => True := by
  simp only [sealRecord, outcome_bind, outcome_recordChunk, outcome_onOutput, outcome_writeAllStream]
  refine outcome_encryptChunk hs hl (hsize.trans (by decide)) hsize (fun haad lib' => ?_)
    (fun _ _ => trivial) fun _ _ => trivial
  refine ⟨fun _ => trivial, fun h₁ => ⟨fun _ => trivial, fun h₂ => ⟨fun _ => trivial, fun h₃ => ?_⟩⟩⟩
  rw [OStream.refuses_write_iff h₂, OStream.refuses_write_iff h₁, ByteArr.length_coe,
    ByteArr.length_coe] at h₃
  have hfits := not_not.mp fun h => h₃ (.inr ⟨hgood, h⟩)
  exact hnot (hfits.mono (by simp only [kTagSize]; omega))

/-- **An output with no room for a header and a record** makes sealing throw, whatever the input is. -/
lemma outcome_sealStream_noRoom {format : FileFormat} {aad : Bytes}
    (law : format.Lawful ssl prim (2 ^ 20)) (hs : ssl.Sound prim) (hl : prim.gcm.Lengths)
    (hgood : w.output.state.good = true)
    (hnot : ¬ w.output.Fits (format.headerSize + (kRecordHeaderSize + kTagSize))) :
    Outcome (sealStream ssl format aad) w (fun _ _ => False) fun _ _ => True := by
  simp only [sealStream, outcome_bind, outcome_onLib]
  refine law.outcome_make (fun salt noncePrefix lib₁ _ _ => ?_) fun _ _ _ _ => trivial
  refine law.outcome_deriveKey (fun lib₂ => ?_) fun _ _ _ _ => trivial
  rw [law.noncePrefix_header]
  let e := law.envelope salt noncePrefix aad
  have hheader : e.serialized.length = format.headerSize := ByteArr.length_coe _
  have hpayload : Outcome (sealStreamPayload ssl e.serialized e.noncePrefix e.fileKey e.aad)
      ({ w with lib := lib₂ } : World OStream) (fun _ _ => False) fun _ _ => True := by
    simp only [sealStreamPayload, outcome_bind, outcome_onOutput, outcome_writeAllStream]
    refine ⟨fun _ => trivial, fun h₁ => ?_⟩
    have hfits : w.output.Fits e.serialized.length := not_not.mp fun h => h₁ (.inr ⟨hgood, h⟩)
    rw [sealLoop, outcome_bind, sealChunk, outcome_bind, outcome_onInput]
    refine outcome_readChunk_wellFormed.mono ?_ fun _ _ _ => trivial
    rintro ⟨part, isFinal⟩ s' ⟨hsize, -⟩
    rw [outcome_bind]
    refine (outcome_sealRecord_noRoom (e := e) hs hl ?_ hsize fun hroom => hnot ?_).mono
      (fun _ _ h => h.elim) fun _ _ _ => trivial
    · rw [OStream.write_of_fits hgood hfits]
      exact hgood
    · rwa [OStream.fits_write_iff hgood hfits, hheader] at hroom
  exact hpayload

end NoRoom

/-- Sealing the byte `a` to a stream that takes only 60 bytes. -/
def shortOfRoom : World OStream where
  input := .ofBytes [0x61]
  output := { room := some 60 }

/-- The call throws, and what it has written never opens. -/
theorem seal_interrupted_shortOfRoom :
    (∀ key, ∃ error w', sealFile standardLibrary key [] shortOfRoom = .error error w' ∧ ∃ b,
      w'.output.written = shortOfRoom.output.written ++ b ∧
        NeverOpens (fun ssl => openFile ssl key []) standard kHeaderSize [] b) ∧
    ∀ password, password ≠ [] → ∃ error w',
      sealFileWithPassword standardLibrary password [] shortOfRoom = .error error w' ∧ ∃ b,
        w'.output.written = shortOfRoom.output.written ++ b ∧ NeverOpens
          (fun ssl => openFileWithPassword ssl password []) standard kPasswordHeaderSize [] b := by
  obtain ⟨hkey, hpassword⟩ :=
    seal_interrupted standardLibrary_sound standard_lengths standard_exact.correct [] shortOfRoom
  have hthrows : ∀ {format : FileFormat}, format.Lawful standardLibrary standard (2 ^ 20) →
      kHeaderSize ≤ format.headerSize →
      ∃ error w', sealStream standardLibrary format [] shortOfRoom = .error error w' := by
    intro format law hsize
    have hnot : ¬ shortOfRoom.output.Fits (format.headerSize + (kRecordHeaderSize + kTagSize)) := by
      intro hfits
      have hleast : ¬ shortOfRoom.output.Fits (kHeaderSize + (kRecordHeaderSize + kTagSize)) := by decide
      exact hleast (hfits.mono (Nat.add_le_add_right hsize _))
    obtain ⟨error, w', hrun, -⟩ := (outcome_sealStream_noRoom law standardLibrary_sound
      standard_lengths rfl hnot).exists_error
    exact ⟨error, w', hrun⟩
  refine ⟨fun key => ?_, fun password hne => ?_⟩
  · obtain ⟨error, w', hrun⟩ := hthrows (keyFormatLawful standardLibrary_sound _ key) le_rfl
    exact ⟨error, w', hrun, hkey key error w' hrun⟩
  · have hsize : kHeaderSize ≤ kPasswordHeaderSize := by decide
    obtain ⟨error, w', hrun⟩ := hthrows (passwordFormatLawful standardLibrary_sound _ hne) hsize
    rw [← sealFileWithPassword_eq [] hne] at hrun
    exact ⟨error, w', hrun, hpassword password error w' hne hrun⟩

end SecureKit.File
