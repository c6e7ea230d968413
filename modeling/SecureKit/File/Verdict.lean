import SecureKit.File.Layout
import SecureKit.File.Path
import SecureKit.File.Truncation

/-!
# The verdict on an input

Run on a complete input and an output that accepts everything, a stream overload ends in a way that
its arguments determine: it returns with certain bytes written, or it throws a certain error
(`Gives`).  The library may be in any state, as long as it is available; only the header that sealing
draws depends on it.

`Operation.PayloadGives` is this verdict for the part an overload has in common with the one that
takes paths: everything between the opening of the input and the last write.

## The verdicts

Opening has one verdict for every byte string: the plaintext, or the error of a malformed file, of a
failed authentication or of additional data that are too long (`exists_gives_openStream`).  Sealing
has the layout, unless the additional data or the input is too long.
`Operation.exists_payloadGives` collects this for the four overloads.

`Gives` is stated for every `Reliable` output.  Where an output loses bytes, what is written is a
beginning of this, and `File.Parametric` is used for such outputs.

What is taken from the library is that it computes the primitives (`Openssl.Sound`) and that it is
`Available`.  A library that fails now and then has no verdict, as its answers depend on what it
was asked before.
-/

namespace SecureKit.File

open ByteString Effect Iostream Evp Chunks

/-- The call ends with the verdict `v` on the input `b`: the bytes that are written, or the error. -/
def Gives (m : Eff (World OStream) Unit) (b : Bytes) (lib : Lib) (v : Except Error Bytes) : Prop :=
  ∀ out : OStream, out.Reliable → Outcome m { input := .ofBytes b, output := out, lib }
    (fun _ w' => ∃ text, v = .ok text ∧ w'.output.written = out.written ++ text)
    (fun error _ => v = .error error)

/-- A run that returns tells the verdict. -/
lemma Gives.eq_ok {m : Eff (World OStream) Unit} {b text : Bytes} {lib : Lib} {v : Except Error Bytes}
    (h : Gives m b lib v) {out : OStream} (hrel : out.Reliable) {w' : World OStream}
    (hrun : m { input := .ofBytes b, output := out, lib } = .ok () w')
    (hwritten : w'.output.written = out.written ++ text) : v = .ok text := by
  obtain ⟨text', rfl, hwritten'⟩ := (h out hrel).of_ok hrun
  rw [List.append_cancel_left (hwritten.symm.trans hwritten')]

section Payload

variable {ssl : Openssl} {prim : Primitives} {format : FileFormat} {b aad : Bytes}

/-! ## Opening -/

/-- Additional data that fits. -/
lemma exists_gives_openStream_of_fits (law : format.Lawful ssl prim (2 ^ 20)) (hs : ssl.Sound prim)
    (ha : ssl.Available prim (2 ^ 20)) (hl : prim.gcm.Lengths)
    (haad : format.headerSize + kRecordHeaderSize + aad.length ≤ intMax) :
    ∃ v, ∀ lib, Gives (openStream ssl format aad) b lib v := by
  by_cases hfile : ∃ salt noncePrefix full last,
      (law.envelope salt noncePrefix aad).IsFile prim.gcm b full last
  · -- The bytes are a file.
    obtain ⟨salt, noncePrefix, full, last, hfile⟩ := hfile
    refine ⟨.ok ((law.envelope salt noncePrefix aad).text prim.gcm full last), fun lib out hrel => ?_⟩
    apply (outcome_openStream_bytes law hs ha hl le_rfl haad rfl hrel).mono
    · intro _ w' hok
      exact ⟨_, rfl, hok.2 salt noncePrefix full last hfile⟩
    · intro error w' herror
      exact absurd hfile (herror.1 salt noncePrefix full last)
  · by_cases hbad : ∃ salt noncePrefix full flag last rest,
        (law.envelope salt noncePrefix aad).HasBadTag prim.gcm b full flag last rest
    · -- They are well-formed up to a record with a bad tag.
      refine ⟨.error authenticationFailed, fun lib out hrel => ?_⟩
      apply (outcome_openStream_bytes law hs ha hl le_rfl haad rfl hrel).mono
      · intro _ w' hok
        exact absurd hok.1 hfile
      · intro error w' herror
        rcases herror.2 with ⟨rfl, -⟩ | ⟨-, hnone⟩
        · rfl
        · obtain ⟨salt, noncePrefix, full, flag, last, rest, hbad⟩ := hbad
          exact absurd hbad (hnone salt noncePrefix full flag last rest)
    · -- They are neither.
      refine ⟨.error invalidPacket, fun lib out hrel => ?_⟩
      apply (outcome_openStream_bytes law hs ha hl le_rfl haad rfl hrel).mono
      · intro _ w' hok
        exact absurd hok.1 hfile
      · intro error w' herror
        rcases herror.2 with ⟨-, hfound⟩ | ⟨rfl, -⟩
        · exact absurd hfound hbad
        · rfl

/-- Additional data that is too long. -/
lemma exists_gives_openStream_of_long (law : format.Lawful ssl prim (2 ^ 20)) (hs : ssl.Sound prim)
    (ha : ssl.Available prim (2 ^ 20)) (hl : prim.gcm.Lengths)
    (hlong : intMax < format.headerSize + kRecordHeaderSize + aad.length) :
    ∃ v, ∀ lib, Gives (openStream ssl format aad) b lib v := by
  have hnever : ¬ ((Source.finite b .eof).faults = true ∨ ¬ ssl.Available prim (2 ^ 20)) := by
    rintro (hfault | hunavailable)
    · cases hfault
    · exact hunavailable ha
  by_cases hrecord : ∃ salt noncePrefix flag chunk,
      (Source.finite b .eof).StartsWith (law.envelope salt noncePrefix aad).serialized ∧
        RecordAt ((Source.finite b .eof).skip format.headerSize) 0 flag chunk
  · refine ⟨.error (updateLimitError "AAD"), fun lib out hrel => ?_⟩
    apply (outcome_openStream_of_long (E := fun error _ => error = updateLimitError "AAD") law hs hl le_rfl
      rfl hlong (fun _ _ => rfl) (fun hno => ?_) fun hcause => absurd hcause hnever).mono
    · intro _ _ hfalse
      exact hfalse.elim
    · intro error _ herror
      rw [herror]
    · obtain ⟨salt, noncePrefix, flag, chunk, hstarts, hfound⟩ := hrecord
      exact absurd hfound (hno salt noncePrefix flag chunk hstarts)
  · refine ⟨.error invalidPacket, fun lib out hrel => ?_⟩
    apply (outcome_openStream_of_long (E := fun error _ => error = invalidPacket) law hs hl le_rfl
      rfl hlong (fun hfound => ?_) (fun _ _ => rfl) fun hcause => absurd hcause hnever).mono
    · intro _ _ hfalse
      exact hfalse.elim
    · intro error _ herror
      rw [herror]
    · exact absurd hfound hrecord

/-- **Opening has a verdict.** -/
theorem exists_gives_openStream (law : format.Lawful ssl prim (2 ^ 20)) (hs : ssl.Sound prim)
    (ha : ssl.Available prim (2 ^ 20)) (hl : prim.gcm.Lengths) (b aad : Bytes) :
    ∃ v, ∀ lib, Gives (openStream ssl format aad) b lib v := by
  by_cases haad : format.headerSize + kRecordHeaderSize + aad.length ≤ intMax
  · exact exists_gives_openStream_of_fits law hs ha hl haad
  · exact exists_gives_openStream_of_long law hs ha hl (not_le.mp haad)

/-! ## Sealing -/

/-- **Sealing a payload has a verdict**: the layout, unless the additional data or the input is too
long. -/
theorem exists_gives_sealStreamPayload (hs : ssl.Sound prim) (ha : ssl.Available prim (2 ^ 20))
    (hl : prim.gcm.Lengths) (e : Envelope) (b : Bytes) :
    ∃ v, ∀ lib,
      Gives (sealStreamPayload ssl e.serialized e.noncePrefix e.fileKey e.aad) b lib v := by
  have hfailure : ∀ {out : OStream} {error : Error}, out.Reliable →
      RecordFailure ssl prim (2 ^ 20) e out error → error = updateLimitError "AAD" ∧
        intMax < e.serialized.length + kRecordHeaderSize + e.aad.length := by
    intro out error hrel hfailure
    rcases hfailure with hlong | ⟨-, hunavailable⟩ | ⟨-, hunreliable⟩
    · exact hlong
    · exact absurd ha hunavailable
    · exact absurd hrel hunreliable
  by_cases haad : e.serialized.length + kRecordHeaderSize + e.aad.length ≤ intMax
  · by_cases hlen : b.length ≤ 2 ^ 52
    · -- Within both limits the result is the layout of the plaintext.
      refine ⟨.ok (e.layout prim.gcm b), fun lib out hrel => ?_⟩
      have hremaining : remaining (.ofBytes b) = .finite b .eof := rfl
      have hcut := returns_sealStreamPayload_cut (e := e)
        (w := { input := .ofBytes b, output := out, lib }) hs ha hl rfl hremaining hlen hrel haad
      apply hcut.mono
      · intro _ w' hok
        obtain ⟨parts, last, hcut, hcanonical, -, hwritten⟩ := hok
        rw [Envelope.sealedBody_eq_layout hl hcut hcanonical] at hwritten
        exact ⟨_, rfl, hwritten⟩
      · intro _ _ hfalse
        exact hfalse.elim
    · -- The plaintext has more parts than there are indices.
      refine ⟨.error tooLarge, fun lib out hrel => ?_⟩
      apply (outcome_sealStreamPayload hs hl le_rfl rfl).mono
      · intro _ w' hok
        obtain ⟨parts, last, hsealed⟩ := hok
        have hcut : IsCut (2 ^ 20) parts last b :=
          ⟨(Source.finite.inj hsealed.source).1, hsealed.full, hsealed.last_le⟩
        have hlength := hcut.length_eq
        have hlast := hsealed.last_le
        have hindex := hsealed.index_lt
        omega
      · intro error w' herror
        obtain ⟨parts, hstopped⟩ := herror
        rcases hstopped.cause with ⟨-, hfault, -⟩ | ⟨rfl, -⟩ | ⟨hcause, -⟩
        · cases hfault
        · rfl
        · have hlong := (hfailure hrel hcause).2
          omega
  · -- The additional data are too long, which is noticed at the first record.
    refine ⟨.error (updateLimitError "AAD"), fun lib out hrel => ?_⟩
    apply (outcome_sealStreamPayload hs hl le_rfl rfl).mono
    · intro _ w' hok
      obtain ⟨parts, last, hsealed⟩ := hok
      exact absurd hsealed.aad_le haad
    · intro error w' herror
      obtain ⟨parts, hstopped⟩ := herror
      rcases hstopped.cause with ⟨-, hfault, -⟩ | ⟨-, -, -, -, hfits, -⟩ | ⟨hcause, -⟩
      · cases hfault
      · exact absurd hfits haad
      · rw [(hfailure hrel hcause).1]

end Payload

/-! ## The overloads -/

/-- The header a format draws. -/
def FileFormat.drawn (format : FileFormat) (lib : Lib) : Option Bytes :=
  match format.make lib with
  | .ok header _ => some (format.serialized header)
  | .error _ _ => none

/-- The header an overload draws.  Those that open draw none. -/
def Operation.drawn (ssl : Openssl) (operation : Operation) (lib : Lib) : Option Bytes :=
  match operation with
  | .seal_file key => (keyFormat ssl key).drawn lib
  | .seal_file_with_password password => (passwordFormat ssl password).drawn lib
  | .open_file _ | .open_file_with_password _ => none

/-- The verdict on the payload behind the header that is drawn. -/
def SealGives (ssl : Openssl) (format : FileFormat) (aad b : Bytes) (lib : Lib)
    (v : Except Error Bytes) : Prop :=
  Returns format.make lib fun header lib₁ => Returns (format.deriveKey header) lib₁ fun fileKey _ =>
    ∀ lib', Gives (sealStreamPayload ssl (format.serialized header) (format.noncePrefix header) fileKey
      aad) b lib' v

/-- The verdict of an overload, or of a part of it that may begin in another state of the library. -/
def Operation.PayloadGives (ssl : Openssl) (operation : Operation) (aad b : Bytes) (lib : Lib)
    (v : Except Error Bytes) : Prop :=
  match operation with
  | .seal_file key => SealGives ssl (keyFormat ssl key) aad b lib v
  | .open_file key => ∀ lib', Gives (openStream ssl (keyFormat ssl key) aad) b lib' v
  | .seal_file_with_password password =>
    (password = [] → v = .error emptyPassword) ∧
      (password ≠ [] → SealGives ssl (passwordFormat ssl password) aad b lib v)
  | .open_file_with_password password =>
    (password = [] → v = .error emptyPassword) ∧
      (password ≠ [] → ∀ lib', Gives (openStream ssl (passwordFormat ssl password) aad) b lib' v)

section Overloads

variable {ssl : Openssl} {prim : Primitives} {format : FileFormat} {b aad : Bytes} {lib lib' : Lib}
  {v : Except Error Bytes}

/-- A header is drawn, and it determines the salt and the nonce prefix. -/
lemma FileFormat.Lawful.exists_make (law : format.Lawful ssl prim (2 ^ 20))
    (ha : ssl.Available prim (2 ^ 20)) (lib : Lib) : ∃ salt noncePrefix lib₁,
      format.make lib = .ok (law.header salt noncePrefix) lib₁ ∧
        format.drawn lib = some (format.serialized (law.header salt noncePrefix) : Bytes) := by
  have hmake : Returns format.make lib fun header _ =>
      ∃ salt noncePrefix, header = law.header salt noncePrefix := by
    refine law.outcome_make (fun salt noncePrefix _ _ _ => ?_) fun hunavailable _ _ _ =>
      hunavailable ha
    exact ⟨salt, noncePrefix, rfl⟩
  obtain ⟨header, lib₁, hrun, salt, noncePrefix, rfl⟩ := hmake.exists_ok
  refine ⟨salt, noncePrefix, lib₁, hrun, ?_⟩
  simp only [FileFormat.drawn, hrun]

/-- **The header determines the verdict.** -/
lemma exists_sealGives (law : format.Lawful ssl prim (2 ^ 20)) (hs : ssl.Sound prim)
    (ha : ssl.Available prim (2 ^ 20)) (hl : prim.gcm.Lengths) (b aad : Bytes) (lib : Lib) :
    ∃ v, ∀ lib', format.drawn lib' = format.drawn lib → SealGives ssl format aad b lib' v := by
  obtain ⟨salt, noncePrefix, -, -, hdrawn⟩ := law.exists_make ha lib
  obtain ⟨v, hv⟩ := exists_gives_sealStreamPayload hs ha hl (law.envelope salt noncePrefix aad) b
  refine ⟨v, fun lib' hsame => ?_⟩
  obtain ⟨salt', noncePrefix', lib₁, hmake, hdrawn'⟩ := law.exists_make ha lib'
  have hheader : format.serialized (law.header salt' noncePrefix') =
      format.serialized (law.header salt noncePrefix) := by
    rw [hdrawn, hdrawn'] at hsame
    exact ByteArr.ext (Option.some.inj hsame)
  obtain ⟨rfl, rfl⟩ := law.serialized_injective hheader
  unfold SealGives Returns
  apply outcome_intro
  · intro header lib₂ hrun
    rw [hmake] at hrun
    obtain ⟨rfl, rfl⟩ := EStateM.Result.ok.inj hrun
    refine law.outcome_deriveKey (fun _ => ?_) fun hunavailable _ _ _ => hunavailable ha
    rw [law.noncePrefix_header]
    exact hv
  · intro error lib₂ hrun
    rw [hmake] at hrun
    cases hrun

/-- **Every overload has a verdict**, which the library influences through the header only. -/
theorem Operation.exists_payloadGives (hs : ssl.Sound prim) (ha : ssl.Available prim (2 ^ 20))
    (hl : prim.gcm.Lengths) (operation : Operation) (b aad : Bytes) (lib : Lib) :
    ∃ v, ∀ lib', operation.drawn ssl lib' = operation.drawn ssl lib →
      operation.PayloadGives ssl aad b lib' v := by
  cases operation with
  | seal_file key => exact exists_sealGives (keyFormatLawful hs _ key) hs ha hl b aad lib
  | open_file key =>
    obtain ⟨v, hv⟩ := exists_gives_openStream (keyFormatLawful hs _ key) hs ha hl b aad
    exact ⟨v, fun _ _ => hv⟩
  | seal_file_with_password password =>
    by_cases hpassword : password = []
    · exact ⟨.error emptyPassword, fun _ _ => ⟨fun _ => rfl, fun hne => absurd hpassword hne⟩⟩
    · obtain ⟨v, hv⟩ := exists_sealGives (passwordFormatLawful hs _ hpassword) hs ha hl b aad lib
      exact ⟨v, fun lib' hsame => ⟨fun hempty => absurd hempty hpassword, fun _ => hv lib' hsame⟩⟩
  | open_file_with_password password =>
    by_cases hpassword : password = []
    · exact ⟨.error emptyPassword, fun _ _ => ⟨fun _ => rfl, fun hne => absurd hpassword hne⟩⟩
    · obtain ⟨v, hv⟩ := exists_gives_openStream (passwordFormatLawful hs _ hpassword) hs ha hl b aad
      exact ⟨v, fun _ _ => ⟨fun hempty => absurd hempty hpassword, fun _ => hv⟩⟩

lemma SealGives.sealStream (h : SealGives ssl format aad b lib v) :
    Gives (File.sealStream ssl format aad) b lib v := by
  intro out hrel
  rw [File.sealStream, outcome_bind, outcome_onLib]
  apply h.mono
  · intro header lib₁ hmade
    rw [outcome_bind, outcome_onLib]
    apply hmade.mono
    · intro fileKey lib₂ hgives
      exact hgives lib₂ out hrel
    · intro _ _ hfalse
      exact hfalse.elim
  · intro _ _ hfalse
    exact hfalse.elim

/-- **The stream overloads** end with the verdict. -/
theorem Operation.PayloadGives.onStreams {operation : Operation}
    (h : operation.PayloadGives ssl aad b lib v) : Gives (operation.onStreams ssl aad) b lib v := by
  unfold Operation.onStreams
  cases operation with
  | seal_file key => exact SealGives.sealStream h
  | open_file key => exact h lib
  | seal_file_with_password password =>
    intro out hrel
    simp only [sealFileWithPassword, requireNonEmptyPassword, outcome_bind, outcome_throwIf]
    exact ⟨h.1, fun hpassword => (h.2 hpassword).sealStream out hrel⟩
  | open_file_with_password password =>
    intro out hrel
    simp only [openFileWithPassword, requireNonEmptyPassword, outcome_bind, outcome_throwIf]
    exact ⟨h.1, fun hpassword => h.2 hpassword lib out hrel⟩

end Overloads

end SecureKit.File
