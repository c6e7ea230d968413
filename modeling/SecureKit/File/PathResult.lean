import SecureKit.File.Language
import SecureKit.File.Layout
import SecureKit.File.Protocol

/-!
# What the path overloads leave behind

`PathCall.Yields` is the result of a call that succeeds: the whole file that belongs to the input as
a plaintext, or the whole plaintext of the input as a file.  `outcome_body` says that the calls
follow the automaton of `SecureKit.File.Protocol` and that a file which is linked to the output holds
this result.

Nothing is assumed about the answers of the system, and no call of the library has to succeed; that
the calls follow the automaton does not depend on what the library computes either
(`bodyFills_any`).

## The two halves

A path overload prepares a temporary file, fills it, and commits it.  The preparation and the commit
are the same for all four; the part that fills the file is `BodyFills`, with a parameter `P` for what
is known of the file when it is complete.  With `P` trivial it is about the order of the system
calls only, with `PathCall.Yields` about the contents too.

`WrittenAlike` is how the payload functions are used a second time.  They are known on a stream that
takes everything, and the file has been written what that stream has, up to the first write that
fails (`Broken`); the transfer is by `File.Parametric`.

`EndsIn` lists how a call can end, as phases together with what was thrown.  A call that returns is
committed and durable; one that throws has committed nothing, or has failed on the directory
behind the link.
-/

namespace SecureKit.File

open ByteString Effect Iostream Evp Posix Chunks

/-! ## Results -/

/-- The file that belongs to the input as a plaintext. -/
def SealsInput (gcm : AesGcm) (envelope : Envelopes) (source : Source) (bytes : Bytes) : Prop :=
  ∃ plaintext salt noncePrefix, source = .finite plaintext .eof ∧
    IsLayout gcm (envelope salt noncePrefix) plaintext bytes

/-- The plaintext of the input as a file. -/
def OpensInput (gcm : AesGcm) (envelope : Envelopes) (source : Source) (bytes : Bytes) : Prop :=
  ∃ content salt noncePrefix full last, source = .finite content .eof ∧
    (envelope salt noncePrefix).IsFile gcm content full last ∧
    bytes = (envelope salt noncePrefix).text gcm full last

/-- The result of a call on an input. -/
def PathCall.Yields (call : PathCall) (prim : Primitives) (source : Source) (bytes : Bytes) : Prop :=
  match call.operation with
  | .seal_file key =>
    SealsInput prim.gcm (fun salt noncePrefix => keyEnvelope prim key salt noncePrefix call.aad)
      source bytes
  | .open_file key =>
    OpensInput prim.gcm (fun salt noncePrefix => keyEnvelope prim key salt noncePrefix call.aad)
      source bytes
  | .seal_file_with_password password =>
    SealsInput prim.gcm
      (fun salt noncePrefix => passwordEnvelope prim password salt noncePrefix call.aad) source bytes
  | .open_file_with_password password =>
    OpensInput prim.gcm
      (fun salt noncePrefix => passwordEnvelope prim password salt noncePrefix call.aad) source bytes

/-- A body that is accepted ends with the input. -/
lemma Envelope.Reads.exists_finite {gcm : AesGcm} {e : Envelope} {i : ℕ} {s : Source} {out : Bytes}
    (h : e.Reads gcm i s out .accepted) : ∃ body, s = .finite body .eof := by
  generalize hverdict : Verdict.accepted = v at h
  induction h with
  | malformed | badTag | exhausted | interrupted => cases hverdict
  | accepted h hv => exact Source.eq_finite_of_skip (h.ends rfl)
  | next h hv hi hrest ih =>
    obtain ⟨body, hbody⟩ := ih hverdict
    exact Source.eq_finite_of_skip hbody

/-! ## Writing to the file -/

section Payload

variable {kernel : Kernel} {ssl : Openssl} {prim : Primitives} {cap : ℕ} {call : PathCall}
  {temp : Path} {file : ℕ} {source : Option Source}

/-- The file has been written what the stream has. -/
def WrittenAlike (call : PathCall) (temp : Path) (file : ℕ) (source : Option Source)
    (p : Process kernel) (out : OStream) : Prop :=
  out.Reliable ∧ p.In call (.owning temp file (.writing { source, bytes := out.written }))

/-- A write to the file has failed. -/
def Broken (call : PathCall) (temp : Path) (file : ℕ) (error : Error) (p : Process kernel) : Prop :=
  error = writeFailure ∧ p.In call (.owning temp file .broken)

/-- A reliable stream takes whatever is written to it. -/
lemma writeAll_of_reliable {out : OStream} (h : out.Reliable) (data : Bytes) :
    (writeAll data : Eff OStream Unit) out = .ok () { out with written := out.written ++ data } := by
  have hreturns : Returns (writeAll data : Eff OStream Unit) out
      (fun _ out' => out' = { out with written := out.written ++ data }) := by
    unfold Returns
    rw [outcome_writeAllStream]
    refine ⟨fun hrefuses => ?_, fun _ => h.write data⟩
    rcases hrefuses with hfail | ⟨-, hfits⟩
    · simp [IoState.eq_of_good h.1, IoState.fail] at hfail
    · exact hfits (h.fits _)
  obtain ⟨⟨⟩, out', hrun, rfl⟩ := hreturns.exists_ok
  exact hrun

/-- **A write to the file** goes like one to a stream, until one fails. -/
lemma writesAlike_process :
    WritesAlike (WrittenAlike call temp file source : Process kernel → OStream → Prop)
      (Broken call temp file) := by
  intro data p out h
  obtain ⟨hreliable, hwriting⟩ := h
  have hfile : p.out.file = some file := congrArg OutputFile.file hwriting.out
  have hstream := writeAll_of_reliable hreliable data
  unfold writeAll instOutputProcess writeFile
  simp only [outcome_ite, outcome_pure, outcome_bind, outcome_get, hfile, outcome_orThrow_some,
    outcome_sys, outcome_throwIf]
  refine ⟨fun hnil => ?_, fun hne => ⟨fun hshort => ?_, fun hall => ?_⟩⟩
  · -- Nothing is written, to the stream neither.
    rw [hnil, List.append_nil] at hstream
    rw [hnil]
    exact ⟨out, hstream, hreliable, hwriting⟩
  · left
    exact ⟨rfl, hwriting.step (by simp [Phase.next, Stage.next, hshort]) rfl⟩
  · rw [not_not] at hall
    refine ⟨_, hstream, hreliable, ?_⟩
    exact hwriting.step (by simp [Phase.next, Stage.next, hall]) rfl

/-! ## The payload functions -/

/-- What is accepted behind a header is a file. -/
lemma opensInput_of_reads {format : FileFormat} {aad out : Bytes} {envelope : Envelopes}
    {s : Source} {salt : ByteArr kSaltSize} {noncePrefix : ByteArr kNoncePrefixSize}
    (law : format.Lawful ssl prim cap)
    (henvelope : ∀ salt noncePrefix, law.envelope salt noncePrefix aad = envelope salt noncePrefix)
    (hstarts : s.StartsWith (law.envelope salt noncePrefix aad).serialized)
    (hreads : (law.envelope salt noncePrefix aad).Reads prim.gcm 0 (s.skip format.headerSize) out
      .accepted) : OpensInput prim.gcm envelope s out := by
  obtain ⟨body, hbody⟩ := hreads.exists_finite
  obtain ⟨content, rfl⟩ := Source.eq_finite_of_skip hbody
  obtain ⟨rest, rfl, hrest⟩ := law.exists_body hstarts
  rw [hrest] at hreads
  obtain ⟨full, last, hfile, htext⟩ := Envelope.exists_isFile_of_reads hreads
  rw [henvelope] at hfile htext
  exact ⟨_, salt, noncePrefix, full, last, by rw [henvelope], hfile, htext⟩

/-- **Opening** fills the file with the plaintext of the input. -/
theorem fills_openStream {format : FileFormat} {aad : Bytes} {envelope : Envelopes}
    (law : format.Lawful ssl prim cap) (hs : ssl.Sound prim) (hl : prim.gcm.Lengths)
    (hcap : 2 ^ 20 ≤ cap)
    (henvelope : ∀ salt noncePrefix, law.envelope salt noncePrefix aad = envelope salt noncePrefix) :
    Fills call (OpensInput prim.gcm envelope)
      (openStream ssl format aad : Eff (World (Process kernel)) Unit) := by
  intro w temp file source hinput hwriting
  let stream : World OStream := { input := { source }, output := {}, lib := w.lib }
  have hside : SideBySide (WrittenAlike call temp file (some source)) w stream :=
    ⟨hinput, rfl, ⟨rfl, rfl⟩, hwriting⟩
  have hreliable : stream.output.Reliable := ⟨rfl, rfl⟩
  apply ((simulates_openStream writesAlike_process).outcome hside
    (outcome_openStream law hs hl hcap rfl hreliable)).mono
  · intro _ w' hok
    obtain ⟨w₂, -, hside', -, salt, noncePrefix, out, hstarts, hreads, hwritten⟩ := hok
    refine ⟨w₂.output.written, ?_, hside'.output.2⟩
    rw [show w₂.output.written = out from hwritten]
    exact opensInput_of_reads law henvelope hstarts hreads
  · intro error w' hthrow
    rcases hthrow with ⟨-, hbroken⟩ | ⟨w₂, -, hside', -⟩
    · exact .inl hbroken
    · exact .inr ⟨_, hside'.output.2⟩

/-- **Sealing** fills the file with the layout of the input. -/
theorem fills_sealStreamPayload {e : Envelope} {envelope : Envelopes} {salt : ByteArr kSaltSize}
    {noncePrefix : ByteArr kNoncePrefixSize} (hs : ssl.Sound prim) (hl : prim.gcm.Lengths)
    (henvelope : e = envelope salt noncePrefix) :
    Fills call (SealsInput prim.gcm envelope)
      (sealStreamPayload ssl e.serialized e.noncePrefix e.fileKey e.aad :
        Eff (World (Process kernel)) Unit) := by
  intro w temp file source hinput hwriting
  let stream : World OStream := { input := { source }, output := {}, lib := w.lib }
  have hseal := outcome_sealStreamPayload (e := e) (w := stream) hs hl le_rfl rfl
  have hside : SideBySide (WrittenAlike call temp file (some source)) w stream :=
    ⟨hinput, rfl, ⟨rfl, rfl⟩, hwriting⟩
  apply ((simulates_sealStreamPayload writesAlike_process).outcome hside hseal).mono
  · intro _ w' hok
    obtain ⟨w₂, -, hside', parts, last, hsealed⟩ := hok
    refine ⟨w₂.output.written, ?_, hside'.output.2⟩
    have hcut : IsCut (2 ^ 20) parts last (parts.flatten ++ last) :=
      ⟨rfl, hsealed.full, hsealed.last_le⟩
    have hwritten : w₂.output.written = [] ++ (e.serialized ++ e.sealedBody prim.gcm 0 parts last) :=
      hsealed.handed.written_eq (hsealed.reliable ⟨rfl, rfl⟩).1
    rw [List.nil_append, Envelope.sealedBody_eq_layout hl hcut hsealed.last_ne] at hwritten
    refine ⟨_, salt, noncePrefix, hsealed.source, ?_⟩
    rw [hwritten, ← henvelope]
    exact isLayout_of_cut hl hcut hsealed.last_ne (by simpa using hsealed.index_lt)
  · intro error w' hthrow
    rcases hthrow with ⟨-, hbroken⟩ | ⟨w₂, -, hside', -⟩
    · exact .inl hbroken
    · exact .inr ⟨_, hside'.output.2⟩

/-! ## The calls -/

/-- How a call that threw has come to an end. -/
def AbortedCall (call : PathCall) (P : Source → Bytes → Prop) (error : Error) (p : Process kernel) :
    Prop :=
  p.In call .checking ∨ p.In call .ended ∨ Aborted call P error p

variable {P : Source → Bytes → Prop} {w : World (Process kernel)}

lemma outcome_openPath {format : FileFormat} (h : w.output.In call .checking)
    (hfills : Fills call P (openStream ssl format call.aad : Eff (World (Process kernel)) Unit)) :
    Outcome (openPath ssl format call.input call.output call.aad) w
      (fun _ w' => Committed call P w'.output)
      (fun error w' => AbortedCall call P error w'.output) := by
  rw [openPath, outcome_bind, outcome_onOutput]
  refine (outcome_ensureOutputDoesNotExist h).mono ?_ fun _ _ hended => .inr (.inl hended)
  intro _ p' hsearching
  apply (outcome_throughTempFile hsearching hfills).mono
  · intro _ w' hcommitted
    exact hcommitted
  · intro error w' haborted
    exact .inr (.inr haborted)

/-- Whatever header is made, the payload behind it fills the file. -/
def SealFills (kernel : Kernel) (ssl : Openssl) (call : PathCall) (P : Source → Bytes → Prop)
    (format : FileFormat) : Prop :=
  ∀ lib, Outcome format.make lib
    (fun header lib' => Outcome (format.deriveKey header) lib'
      (fun fileKey _ => Fills call P (sealStreamPayload ssl (format.serialized header)
        (format.noncePrefix header) fileKey call.aad : Eff (World (Process kernel)) Unit))
      fun _ _ => True)
    fun _ _ => True

lemma outcome_sealPath {format : FileFormat} (h : w.output.In call .checking)
    (hfills : SealFills kernel ssl call P format) :
    Outcome (sealPath ssl format call.input call.output call.aad) w
      (fun _ w' => Committed call P w'.output)
      (fun error w' => AbortedCall call P error w'.output) := by
  rw [sealPath, outcome_bind, outcome_onOutput]
  refine (outcome_ensureOutputDoesNotExist h).mono ?_ fun _ _ hended => .inr (.inl hended)
  intro _ p' hsearching
  have hfail : ∀ {error : Error}, AbortedCall call P error p' :=
    .inr (.inr (.inl (.inl hsearching)))
  rw [outcome_bind, outcome_onLib]
  refine (hfills w.lib).mono ?_ fun _ _ _ => hfail
  intro header lib₁ hmade
  rw [outcome_bind, outcome_onLib]
  refine hmade.mono ?_ fun _ _ _ => hfail
  intro fileKey lib₂ hkey
  apply (outcome_throughTempFile hsearching hkey).mono
  · intro _ w' hcommitted
    exact hcommitted
  · intro error w' haborted
    exact .inr (.inr haborted)

/-- The payload of the call fills the file with what is known as `P`. -/
def BodyFills (kernel : Kernel) (ssl : Openssl) (call : PathCall) (P : Source → Bytes → Prop) : Prop :=
  match call.operation with
  | .seal_file key => SealFills kernel ssl call P (keyFormat ssl key)
  | .open_file key => Fills call P
    (openStream ssl (keyFormat ssl key) call.aad : Eff (World (Process kernel)) Unit)
  | .seal_file_with_password password =>
    password ≠ [] → SealFills kernel ssl call P (passwordFormat ssl password)
  | .open_file_with_password password => password ≠ [] → Fills call P
    (openStream ssl (passwordFormat ssl password) call.aad : Eff (World (Process kernel)) Unit)

/-- **A path overload** follows the automaton.  If it returns, it has committed its result; if it
throws, it has committed nothing, or its result and a call on the directory failed. -/
theorem outcome_body (hfills : BodyFills kernel ssl call P) (h : w.output.In call .checking) :
    Outcome (call.body ssl kernel) w (fun _ w' => Committed call P w'.output)
      (fun error w' => AbortedCall call P error w'.output) := by
  obtain ⟨operation, input, output, aad⟩ := call
  unfold PathCall.body
  cases operation with
  | seal_file key => exact outcome_sealPath h hfills
  | open_file key => exact outcome_openPath h hfills
  | seal_file_with_password password =>
    simp only [sealFileWithPasswordAt, requireNonEmptyPassword, outcome_bind, outcome_throwIf]
    exact ⟨fun _ => .inl h, fun hpassword => outcome_sealPath h (hfills hpassword)⟩
  | open_file_with_password password =>
    simp only [openFileWithPasswordAt, requireNonEmptyPassword, outcome_bind, outcome_throwIf]
    exact ⟨fun _ => .inl h, fun hpassword => outcome_openPath h (hfills hpassword)⟩

lemma sealFills_of_lawful {format : FileFormat} {envelope : Envelopes}
    (law : format.Lawful ssl prim (2 ^ 20)) (hs : ssl.Sound prim) (hl : prim.gcm.Lengths)
    (henvelope : ∀ salt noncePrefix,
      law.envelope salt noncePrefix call.aad = envelope salt noncePrefix) :
    SealFills kernel ssl call (SealsInput prim.gcm envelope) format := by
  intro lib
  refine law.outcome_make (fun salt noncePrefix lib₁ _ _ => ?_) fun _ _ _ _ => trivial
  refine law.outcome_deriveKey (fun lib₂ => ?_) fun _ _ _ _ => trivial
  rw [law.noncePrefix_header]
  exact fills_sealStreamPayload hs hl (henvelope salt noncePrefix)

/-- **The file is filled with the result** of the call. -/
theorem bodyFills_yields (hs : ssl.Sound prim) (hl : prim.gcm.Lengths) :
    BodyFills kernel ssl call (call.Yields prim) := by
  obtain ⟨operation, input, output, aad⟩ := call
  unfold BodyFills PathCall.Yields
  cases operation with
  | seal_file key => exact sealFills_of_lawful (keyFormatLawful hs _ key) hs hl fun _ _ => rfl
  | open_file key =>
    exact fills_openStream (keyFormatLawful hs (2 ^ 20) key) hs hl le_rfl fun _ _ => rfl
  | seal_file_with_password password =>
    intro hpassword
    exact sealFills_of_lawful (passwordFormatLawful hs _ hpassword) hs hl fun _ _ => rfl
  | open_file_with_password password =>
    intro hpassword
    exact fills_openStream (passwordFormatLawful hs (2 ^ 20) hpassword) hs hl le_rfl fun _ _ => rfl

/-- A run that goes as one into a stream fills the file with what that writes. -/
lemma fills_of_simulates {P : Source → Bytes → Prop} {body : Eff (World (Process kernel)) Unit}
    {m : Eff (World OStream) Unit}
    (h : ∀ {temp file} {source : Option Source},
      Simulates (SideBySide (WrittenAlike call temp file source))
        (fun e w => Broken call temp file e w.output) body m)
    (hP : ∀ source lib w, m { input := { source }, output := {}, lib } = .ok () w →
      P source w.output.written) :
    Fills call P body := by
  intro w temp file source hinput hwriting
  have hside : SideBySide (WrittenAlike call temp file (some source)) w
      ({ input := { source }, output := {}, lib := w.lib } : World OStream) :=
    ⟨hinput, rfl, ⟨rfl, rfl⟩, hwriting⟩
  apply (h _ _ hside).mono
  · intro _ w' hok
    obtain ⟨w₂, hrun, hside'⟩ := hok
    exact ⟨_, hP _ _ _ hrun, hside'.output.2⟩
  · intro error w' hthrow
    rcases hthrow with ⟨-, hbroken⟩ | ⟨w₂, -, hside'⟩
    · exact .inl hbroken
    · exact .inr ⟨_, hside'.output.2⟩

lemma sealFills_any (format : FileFormat) : SealFills kernel ssl call (fun _ _ => True) format := by
  intro lib
  apply outcome_intro
  · intro header lib' _
    apply outcome_intro
    · intro fileKey _ _
      exact fills_of_simulates (simulates_sealStreamPayload writesAlike_process) fun _ _ _ _ => trivial
    · intro _ _ _
      trivial
  · intro _ _ _
    trivial

/-- **The calls follow the automaton** whatever the library answers. -/
theorem bodyFills_any : BodyFills kernel ssl call fun _ _ => True := by
  obtain ⟨operation, input, output, aad⟩ := call
  unfold BodyFills
  cases operation with
  | seal_file key => exact sealFills_any _
  | open_file key =>
    exact fills_of_simulates (simulates_openStream writesAlike_process) fun _ _ _ _ => trivial
  | seal_file_with_password password =>
    intro _
    exact sealFills_any _
  | open_file_with_password password =>
    intro _
    exact fills_of_simulates (simulates_openStream writesAlike_process) fun _ _ _ _ => trivial

end Payload

/-! ## How a call has ended -/

namespace PathCall

variable (call : PathCall) (ssl : Openssl) (kernel : Kernel) (lib : Lib)

/-- How a call ends: the phase it comes to, and what it throws, if it does. -/
inductive EndsIn (call : PathCall) (P : Source → Bytes → Prop) : Phase → Option Error → Prop
  | checking (error : Error) : EndsIn call P .checking (some error)
  | searching (error : Error) : EndsIn call P .searching (some error)
  | ended (error : Error) : EndsIn call P .ended (some error)
  | orphaned (temp : Path) (file : ℕ) (error : Error) :
    EndsIn call P (.owning temp file .orphaned) (some error)
  | discarded (temp : Path) (file : ℕ) (refused : Bool) (name : TempName) (hname : name ≠ .pending)
    (error : Error) (hrefused : refused = true → error = outputExists) :
    EndsIn call P (.owning temp file (.discarded refused name)) (some error)
  | linked (temp : Path) (file : ℕ) (draft : Draft) (hdraft : draft.Complete P) (name : TempName)
    (hname : name ≠ .pending) (durable : Bool) (thrown : Option Error)
    (hthrown : thrown = none ↔ durable = true) :
    EndsIn call P (.owning temp file (.linked draft name durable)) thrown

/-- **The end of a call.** -/
theorem exists_endsIn {P : Source → Bytes → Prop} (hfills : BodyFills kernel ssl call P) :
    ∃ φ, phaseAfter call (call.trace ssl kernel lib) = some φ ∧
      EndsIn call P φ (call.thrown ssl kernel lib) := by
  have hstart : (initial kernel lib).output.In call .checking := ⟨rfl, rfl⟩
  have hbody : Outcome (call.body ssl kernel) (initial kernel lib) _ _ := outcome_body hfills hstart
  cases hresult : call.body ssl kernel (initial kernel lib) with
  | ok a w =>
    rw [trace, thrown, result, hresult]
    obtain ⟨temp, file, draft, name, hname, hdraft, hlinked⟩ := hbody.of_ok hresult
    exact ⟨_, hlinked.trace, .linked temp file draft hdraft name hname true none (by simp)⟩
  | error error w =>
    rw [trace, thrown, result, hresult]
    rcases hbody.of_error hresult with h | h | (h | h | ⟨temp, file, h⟩) | ⟨temp, file, hfailed⟩
    · exact ⟨_, h.trace, .checking error⟩
    · exact ⟨_, h.trace, .ended error⟩
    · exact ⟨_, h.trace, .searching error⟩
    · exact ⟨_, h.trace, .ended error⟩
    · exact ⟨_, h.trace, .orphaned temp file error⟩
    · cases hfailed with
      | discarded refused name hname h hrefused =>
        exact ⟨_, h.trace, .discarded temp file refused name hname error hrefused⟩
      | linked draft name hname hdraft h =>
        exact ⟨_, h.trace, .linked temp file draft hdraft name hname false (some error) (by simp)⟩

end PathCall

end SecureKit.File
