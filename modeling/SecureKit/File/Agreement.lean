import SecureKit.File.Answers
import SecureKit.File.Runs
import SecureKit.File.Verdict

/-!
# Paths and streams agree

If nothing fails in the file system, an overload that takes paths ends with the verdict of the one
that takes streams: it returns and leaves the bytes under the output path, or throws the error and
leaves the output path alone (`paths_give`).

That nothing fails is a property of the answers the system gives (`Faultless`).  Temporary names may
be taken, but not all that are tried.  If nothing fails before the link (`Preparing`), a call whose
verdict is a result asks for the link (`Preparing.exists_link`), whatever the system answers to that.

## The argument

The path overload and the stream overload call the same payload function.  What is known of that is
its verdict (`Operation.PayloadGives`), which is one of the input and the arguments.  So it is enough
to follow the calls around it: the output does not exist, a temporary name is found, the input is
opened, and behind the payload the file is flushed, synced, closed and linked.  The lemmas in the
section on `src/file_io.cpp` say of each of these functions that it does not throw.

`Preparing` is what is asked of the kernel before the link and `Faultless` adds the link and what
follows.  An answer may depend on the trace so far, so these are conditions on every trace that
asks.  `Preparing.outcome_body` keeps the three ways apart in which a call can end: it has delivered
the bytes, has thrown the error of the verdict, or has come to a link that did not succeed.
-/

namespace SecureKit.File

open ByteString Effect Iostream Evp Posix

/-- The output does not exist, the input holds `b`, and no call before the link fails.  The search
for a temporary name makes the calls from number one to number thirty-two; one of them finds a free
name. -/
structure Preparing (kernel : Kernel) (input output : Path) (b : Bytes) : Prop where
  status : ∀ t, kernel.status t output = some false
  openInput : ∀ t, kernel.openInput t input = some (.finite b .eof)
  openExclusive : ∀ t path, kernel.openExclusive t path ≠ .failed
  free : ∃ t, 1 ≤ t ∧ t < 1 + 32 ∧ ∀ path, kernel.openExclusive t path ≠ .already_exists
  fdopen : ∀ t n, kernel.fdopen t n = true
  fwrite : ∀ t n data, (kernel.fwrite t n data).1 = data.length
  fflush : ∀ t n, (kernel.fflush t n).1 = true
  fsync : ∀ t n, kernel.fsync t n = true
  fclose : ∀ t n, (kernel.fclose t n).1 = true

/-- No call fails. -/
structure Faultless (kernel : Kernel) (input output : Path) (b : Bytes) : Prop
    extends Preparing kernel input output b where
  link : ∀ t temp, kernel.link t temp output = .linked
  openDirectory : ∀ t path, kernel.openDirectory t path = true
  syncDirectory : ∀ t, kernel.syncDirectory t = true
  closeDirectory : ∀ t, kernel.closeDirectory t = true

/-! ## The functions of `src/file_io.cpp` do not throw -/

section Functions

variable {kernel : Kernel} {ssl : Openssl} {prim : Primitives} {call : PathCall} {b : Bytes}
  {p : Process kernel} {temp : Path} {file : ℕ}

lemma Preparing.returns_ensureOutputDoesNotExist (hk : Preparing kernel call.input call.output b) :
    Returns (ensureOutputDoesNotExist call.output) p
      fun _ p' => p'.trace.length = p.trace.length + 1 := by
  unfold Returns
  simp [ensureOutputDoesNotExist, hk.status, Process.record]

/-- A name that is taken costs one call. -/
lemma Preparing.returns_tryOpenOutputExclusive (hk : Preparing kernel call.input call.output b)
    (temp : Path) (hnone : p.out.file = none) : Returns (tryOpenOutputExclusive temp) p fun result p' =>
      result = .opened ∨ result = .already_exists ∧
        kernel.openExclusive p.trace.length temp = .already_exists ∧
        p'.trace.length = p.trace.length + 1 := by
  unfold Returns
  simp only [tryOpenOutputExclusive, outcome_bind, outcome_sys]
  cases hanswer : kernel.openExclusive p.trace.length temp with
  | already_exists => exact .inr ⟨rfl, rfl, by simp [Process.record]⟩
  | failed => exact absurd hanswer (hk.openExclusive _ _)
  | created fd =>
    simp only [outcome_bind, outcome_sys, outcome_ite, hk.fdopen, outcome_pure]
    refine ⟨fun hempty => absurd hempty (by simp), fun _ => ?_⟩
    rw [assign, outcome_bind, outcome_closeQuietly_none (by exact hnone), outcome_modify]
    exact .inl trivial

lemma Preparing.returns_openUniqueTempLoop (hk : Preparing kernel call.input call.output b)
    (ha : ssl.Available prim (2 ^ 20)) (attempts : ℕ) {w : World (Process kernel)}
    (h : w.output.In call .searching)
    (hfree : ∃ t, w.output.trace.length ≤ t ∧ t < w.output.trace.length + attempts ∧
      ∀ path, kernel.openExclusive t path ≠ .already_exists) :
    Returns (openUniqueTempLoop ssl call.output attempts) w fun _ _ => True := by
  obtain ⟨t, hle, hlt, hfree⟩ := hfree
  -- The induction is on the attempts that are left; the free name is tried in one of them.
  induction attempts generalizing w with
  | zero => omega
  | succ attempts ih =>
    unfold Returns at ih ⊢
    rw [openUniqueTempLoop, outcome_bind, outcome_onLib, makeUniqueTempPath, outcome_bind]
    apply outcome_randomBytes
    · intro token lib'
      rw [outcome_pure, outcome_bind, outcome_onOutput]
      have htemp := isTempPath_tempSuffix call.output token
      have hreturns := hk.returns_tryOpenOutputExclusive (call.output ++ tempSuffix token)
        (congrArg OutputFile.file h.out)
      apply ((outcome_tryOpenOutputExclusive h htemp).and hreturns).mono
      · intro result p' hboth
        obtain ⟨hattempted, rfl | ⟨rfl, htaken, hlength⟩⟩ := hboth
        · trivial
        · have hne : w.output.trace.length ≠ t := by
            rintro rfl
            exact hfree _ htaken
          exact ih hattempted (by simp only [hlength]; omega) (by simp only [hlength]; omega)
      · intro _ _ hfalse
        exact hfalse.2
    · intro hunavailable
      exact absurd ha hunavailable

lemma Preparing.returns_writeFile (hk : Preparing kernel call.input call.output b)
    (hfile : p.out.file = some file) (data : Bytes) :
    Returns (writeAll data : Eff (Process kernel) Unit) p fun _ _ => True := by
  unfold Returns writeAll instOutputProcess writeFile
  simp [hfile, hk.fwrite]

lemma Preparing.returns_flushFile (hk : Preparing kernel call.input call.output b)
    (hfile : p.out.file = some file) : Returns flushFile p fun _ _ => True := by
  unfold Returns flushFile
  simp [hfile, hk.fflush, hk.fsync]

lemma Preparing.returns_closeFile (hk : Preparing kernel call.input call.output b)
    (hfile : p.out.file = some file) : Returns closeFile p fun _ _ => True := by
  unfold Returns closeFile
  simp [hfile, hk.fclose]

lemma outcome_commitTempFile_link {output : Path} :
    Outcome (commitTempFile temp output) p (fun _ _ => True)
      fun _ p' => ∃ answer, .link temp output answer ∈ p'.trace := by
  simp only [commitTempFile, outcome_bind, outcome_sys]
  generalize kernel.link p.trace.length temp output = answer
  have hmem : .link temp output answer ∈ (p.record (.link temp output answer)).trace := by
    simp [Process.record]
  cases answer with
  | already_exists | failed => exact ⟨_, hmem⟩
  | linked =>
    have hkept : KeptByCalls fun p : Process kernel => .link temp output .linked ∈ p.trace :=
      keptByCalls_mem _
    apply ((hkept.removeQuietly temp).bind (fun _ => hkept.flushParentDirectory output) _ hmem).mono
    · intro _ _ _
      trivial
    · intro _ p' h
      exact ⟨_, h⟩

/-- What was written is flushed and closed, and the link is asked for. -/
lemma Preparing.outcome_commit (hk : Preparing kernel call.input call.output b) {draft : Draft}
    {P : Source → Bytes → Prop} (hdraft : draft.Complete P)
    (h : p.In call (.owning temp file (.writing draft))) :
    Outcome (do
      flushFile
      closeFile
      commitTempFile temp call.output) p (fun _ p' => Committed call P p')
      (fun error p' => Uncommitted call temp file P error p' ∧
        ∃ answer, .link temp call.output answer ∈ p'.trace) := by
  simp only [outcome_bind]
  have hfile : p.out.file = some file := congrArg OutputFile.file h.out
  apply ((outcome_flushFile h).and (hk.returns_flushFile hfile)).mono
  · intro _ p₁ hflushed
    have hsynced := hflushed.1
    have hfile₁ : p₁.out.file = some file := congrArg OutputFile.file hsynced.out
    apply ((outcome_closeFile hsynced).and (hk.returns_closeFile hfile₁)).mono
    · intro _ p₂ hclosed
      apply ((outcome_commitTempFile hdraft hclosed.1).and outcome_commitTempFile_link).mono
      · intro _ p₃ hlinked
        obtain ⟨⟨name, hname, hlinked⟩, -⟩ := hlinked
        exact ⟨temp, file, draft, name, hname, hdraft, hlinked⟩
      · intro error p₃ hthrown
        exact hthrown
    · intro _ _ hfalse
      exact hfalse.2.elim
  · intro _ _ hfalse
    exact hfalse.2.elim

/-- No write breaks the file. -/
lemma Preparing.writesAlike (hk : Preparing kernel call.input call.output b) {source : Option Source} :
    WritesAlike (WrittenAlike call temp file source : Process kernel → OStream → Prop)
      (fun _ _ => False) := by
  intro data p out h
  have hfile : p.out.file = some file := congrArg OutputFile.file h.2.out
  apply ((writesAlike_process data p out h).and (hk.returns_writeFile hfile data)).mono
  · intro _ p' hboth
    exact hboth.1
  · intro _ _ hfalse
    exact hfalse.2.elim

end Functions

/-! ## The overloads -/

/-- The bytes of the verdict were committed. -/
def Delivered {kernel : Kernel} (call : PathCall) (v : Except Error Bytes) (p : Process kernel) : Prop :=
  ∃ text, v = .ok text ∧ Committed call (fun _ bytes => bytes = text) p

/-- The error of the verdict was thrown, and nothing was committed. -/
def Refused {kernel : Kernel} (call : PathCall) (v : Except Error Bytes) (error : Error)
    (p : Process kernel) : Prop :=
  v = .error error ∧ AbortedCall call (fun _ _ => False) error p

/-- The bytes of the verdict were ready, and the link was asked for. -/
def CameToLink {kernel : Kernel} (call : PathCall) (v : Except Error Bytes) (p : Process kernel) :
    Prop :=
  (∃ text, v = .ok text) ∧ ∃ temp answer, .link temp call.output answer ∈ p.trace

section Overloads

variable {kernel : Kernel} {ssl : Openssl} {prim : Primitives} {call : PathCall} {b : Bytes}
  {v : Except Error Bytes} {w : World (Process kernel)}

/-- Before the clean-up: the call has thrown the error of the verdict while it was writing its file, or
has asked for the link. -/
def BrokenOff {kernel : Kernel} (call : PathCall) (v : Except Error Bytes) (temp : Path) (file : ℕ)
    (error : Error) (p : Process kernel) : Prop :=
  (v = .error error ∧ ∃ draft, p.In call (.owning temp file (.writing draft))) ∨
    ∃ P, Uncommitted call temp file P error p ∧ CameToLink call v p

/-- Behind a body that has written the text of the verdict. -/
lemma Preparing.outcome_deliver {p : Process kernel} {temp : Path} {file : ℕ} {text : Bytes}
    (hk : Preparing kernel call.input call.output b)
    (h : p.In call (.owning temp file (.writing { source := some (.finite b .eof), bytes := text }))) :
    Outcome (do
      flushFile
      closeFile
      commitTempFile temp call.output) p (fun _ p' => Delivered call (.ok text) p')
      (fun error p' => BrokenOff call (.ok text) temp file error p') := by
  apply (hk.outcome_commit (P := fun _ bytes => bytes = text) ⟨_, rfl, rfl⟩ h).mono
  · intro _ p' hcommitted
    exact ⟨text, rfl, hcommitted⟩
  · intro error p' hthrown
    obtain ⟨huncommitted, answer, hlink⟩ := hthrown
    exact .inr ⟨_, huncommitted, ⟨text, rfl⟩, temp, answer, hlink⟩

/-- The part under `try`, whose failures go to the clean-up. -/
lemma Preparing.outcome_try (hk : Preparing kernel call.input call.output b) {temp : Path} {file : ℕ}
    {body : Eff (World (Process kernel)) Unit} {m : Eff (World OStream) Unit}
    (hsimulates : ∀ {temp file source}, Simulates (SideBySide (WrittenAlike call temp file source))
      (fun _ _ => False) body m)
    (hgives : ∀ lib, Gives m b lib v) (h : w.output.In call (.owning temp file (.writing {}))) :
    Outcome (do
      File.openInput call.input
      body
      onOutput flushFile
      onOutput closeFile
      onOutput (commitTempFile temp call.output)) w
      (fun _ w' => Delivered call v w'.output)
      (fun error w' => BrokenOff call v temp file error w'.output) := by
  simp only [File.openInput, outcome_bind, outcome_onOutput, outcome_sys, outcome_modify, hk.openInput,
    outcome_orThrow_some]
  have hopened : (w.output.record (.openInput call.input (some (.finite b .eof)))).In call
      (.owning temp file (.writing { source := some (.finite b .eof) })) :=
    h.step (by simp [Phase.next, Stage.next]) rfl
  have hside : SideBySide (WrittenAlike call temp file (some (.finite b .eof)))
      { input := .ofBytes b, lib := w.lib, chunks := w.chunks,
        output := w.output.record (.openInput call.input (some (.finite b .eof))) }
      ({ input := .ofBytes b, output := {}, lib := w.lib } : World OStream) :=
    ⟨rfl, rfl, ⟨rfl, rfl⟩, hopened⟩
  -- Up to the flush the path overload does what the stream overload does on the same bytes.
  apply (hsimulates.outcome hside (hgives w.lib {} ⟨rfl, rfl⟩)).mono
  · intro _ w₂ hok
    obtain ⟨w₃, -, hside', text, rfl, htext⟩ := hok
    have hwritten := hside'.output.2
    rw [show w₃.output.written = text from htext] at hwritten
    have hdelivers := hk.outcome_deliver hwritten
    simpa only [outcome_bind] using hdelivers
  · -- The body has thrown the error of the verdict, and the file is still being written.
    intro error w₂ hthrow
    obtain ⟨w₃, -, hside', hv⟩ := hthrow.resolve_left id
    exact .inl ⟨hv, _, hside'.output.2⟩

/-- The clean-up throws the same error, and leaves the link in the trace. -/
lemma BrokenOff.outcome_cleanUp {p : Process kernel} {temp : Path} {file : ℕ} {error : Error}
    (h : BrokenOff call v temp file error p) :
    Outcome (cleanUp temp error) p (fun _ _ => False)
      (fun e p' => Refused call v e p' ∨ CameToLink call v p') := by
  rcases h with ⟨hv, draft, hdraft⟩ | ⟨P, huncommitted, hready, temp', answer, hlink⟩
  · apply (File.outcome_cleanUp (.writing draft hdraft)).mono
    · intro _ _ hfalse
      exact hfalse.elim
    · intro e p' hfailed
      obtain ⟨rfl, hfailed⟩ := hfailed
      exact .inl ⟨hv, .inr (.inr (.inr ⟨temp, file, hfailed⟩))⟩
  · have hkeeps := (keptByCalls_mem (.link temp' call.output answer)).cleanUp temp error _ hlink
    apply ((File.outcome_cleanUp huncommitted).and hkeeps).mono
    · intro _ _ hfalse
      exact hfalse.1.elim
    · intro e p' hmem
      exact .inr ⟨hready, temp', answer, hmem.2⟩

/-- **Writing through a temporary file** ends with the verdict of the body, or with a failure behind
the request for the link. -/
theorem Preparing.outcome_throughTempFile (hk : Preparing kernel call.input call.output b)
    (ha : ssl.Available prim (2 ^ 20)) {body : Eff (World (Process kernel)) Unit}
    {m : Eff (World OStream) Unit}
    (hsimulates : ∀ {temp file source}, Simulates (SideBySide (WrittenAlike call temp file source))
      (fun _ _ => False) body m)
    (hgives : ∀ lib, Gives m b lib v) (h : w.output.In call .searching)
    (hlength : w.output.trace.length = 1) :
    Outcome (throughTempFile ssl call.input call.output body) w
      (fun _ w' => Delivered call v w'.output)
      (fun error w' => Refused call v error w'.output ∨ CameToLink call v w'.output) := by
  rw [throughTempFile, outcome_bind]
  -- A temporary file is found within the 32 attempts, since its first name is free.
  have hreturns : Returns (openUniqueTempOutput ssl call.output) w fun _ _ => True := by
    apply hk.returns_openUniqueTempLoop ha 32 h
    rw [hlength]
    exact hk.free
  refine ((outcome_openUniqueTempOutput h).and hreturns).mono ?_ fun _ _ hfalse => hfalse.2.elim
  intro _ w₁ hfound
  obtain ⟨⟨temp, file, hwriting⟩, -⟩ := hfound
  have hpath : w₁.output.out.path = temp := congrArg OutputFile.path hwriting.out
  rw [outcome_bind, outcome_get, hpath, outcome_tryCatch]
  simp only [outcome_onOutput]
  apply (hk.outcome_try hsimulates hgives hwriting).mono
  · intro _ w' hdelivered
    exact hdelivered
  · intro error w' hbroken
    apply hbroken.outcome_cleanUp.mono
    · intro _ _ hfalse
      exact hfalse.elim
    · intro _ _ hended
      exact hended

lemma Preparing.outcome_openPath {format : FileFormat}
    (hk : Preparing kernel call.input call.output b) (ha : ssl.Available prim (2 ^ 20))
    (hgives : ∀ lib, Gives (openStream ssl format call.aad) b lib v) (h : w.output.In call .checking)
    (hlength : w.output.trace.length = 0) :
    Outcome (openPath ssl format call.input call.output call.aad) w
      (fun _ w' => Delivered call v w'.output)
      (fun error w' => Refused call v error w'.output ∨ CameToLink call v w'.output) := by
  rw [openPath, outcome_bind, outcome_onOutput]
  apply ((outcome_ensureOutputDoesNotExist h).and hk.returns_ensureOutputDoesNotExist).mono
  · intro _ p' hchecked
    obtain ⟨hsearching, hone⟩ := hchecked
    rw [hlength] at hone
    exact hk.outcome_throughTempFile ha (simulates_openStream hk.writesAlike) hgives hsearching hone
  · intro _ _ hfalse
    exact hfalse.2.elim

lemma Preparing.outcome_sealPath {format : FileFormat}
    (hk : Preparing kernel call.input call.output b) (ha : ssl.Available prim (2 ^ 20))
    (hgives : SealGives ssl format call.aad b w.lib v) (h : w.output.In call .checking)
    (hlength : w.output.trace.length = 0) :
    Outcome (sealPath ssl format call.input call.output call.aad) w
      (fun _ w' => Delivered call v w'.output)
      (fun error w' => Refused call v error w'.output ∨ CameToLink call v w'.output) := by
  rw [sealPath, outcome_bind, outcome_onOutput]
  apply ((outcome_ensureOutputDoesNotExist h).and hk.returns_ensureOutputDoesNotExist).mono
  · intro _ p' hchecked
    obtain ⟨hsearching, hone⟩ := hchecked
    rw [hlength] at hone
    rw [outcome_bind, outcome_onLib]
    apply hgives.mono
    · intro header lib₁ hmade
      rw [outcome_bind, outcome_onLib]
      apply hmade.mono
      · intro fileKey lib₂ hpayload
        exact hk.outcome_throughTempFile ha (simulates_sealStreamPayload hk.writesAlike) hpayload
          hsearching hone
      · intro _ _ hfalse
        exact hfalse.elim
    · intro _ _ hfalse
      exact hfalse.elim
  · intro _ _ hfalse
    exact hfalse.2.elim

/-- **The path overloads** end with the verdict, or with a failure behind the request for the link. -/
theorem Preparing.outcome_body (hk : Preparing kernel call.input call.output b)
    (ha : ssl.Available prim (2 ^ 20)) (hgives : call.operation.PayloadGives ssl call.aad b w.lib v)
    (h : w.output.In call .checking) (hlength : w.output.trace.length = 0) :
    Outcome (call.body ssl kernel) w (fun _ w' => Delivered call v w'.output)
      (fun error w' => Refused call v error w'.output ∨ CameToLink call v w'.output) := by
  obtain ⟨operation, input, output, aad⟩ := call
  unfold PathCall.body
  cases operation with
  | seal_file key => exact hk.outcome_sealPath ha hgives h hlength
  | open_file key => exact hk.outcome_openPath ha hgives h hlength
  | seal_file_with_password password =>
    simp only [sealFileWithPasswordAt, requireNonEmptyPassword, outcome_bind, outcome_throwIf]
    exact ⟨fun hempty => .inl ⟨hgives.1 hempty, .inl h⟩,
      fun hpassword => hk.outcome_sealPath ha (hgives.2 hpassword) h hlength⟩
  | open_file_with_password password =>
    simp only [openFileWithPasswordAt, requireNonEmptyPassword, outcome_bind, outcome_throwIf]
    exact ⟨fun hempty => .inl ⟨hgives.1 hempty, .inl h⟩,
      fun hpassword => hk.outcome_openPath ha (hgives.2 hpassword) h hlength⟩

/-- The call ends with the verdict: it returns and leaves the bytes under the output path, or it
throws the error and does nothing to the output. -/
structure PathGives (call : PathCall) (ssl : Openssl) (kernel : Kernel) (lib : Lib)
    (fs₀ : FileSystem) (v : Except Error Bytes) : Prop where
  returns : ∀ text, v = .ok text → call.thrown ssl kernel lib = none ∧
    ∀ fs, Running (fun _ _ => True) (call.trace ssl kernel lib) fs₀ fs (call.trace ssl kernel lib) →
      ∃ file, fs.entry call.output = some file ∧ fs.contents file = some text
  throws : ∀ error, v = .error error → call.thrown ssl kernel lib = some error ∧
    LeavesOutput call (call.trace ssl kernel lib) fs₀

/-- What was thrown away is not committed. -/
lemma AbortedCall.exists_phase {P : Source → Bytes → Prop} {error : Error} {p : Process kernel}
    (h : AbortedCall call P error p) (hP : ∀ source bytes, ¬ P source bytes) :
    ∃ φ, phaseAfter call p.trace = some φ ∧ ¬ φ.Committed := by
  rcases h with h | h | (h | h | ⟨temp, file, h⟩) | ⟨temp, file, hfailed⟩
  · exact ⟨_, h.trace, id⟩
  · exact ⟨_, h.trace, id⟩
  · exact ⟨_, h.trace, id⟩
  · exact ⟨_, h.trace, id⟩
  · exact ⟨_, h.trace, id⟩
  · cases hfailed with
    | discarded refused name hname h => exact ⟨_, h.trace, id⟩
    | linked draft name hname hdraft h =>
      obtain ⟨source, -, hresult⟩ := hdraft
      exact absurd hresult (hP source draft.bytes)

/-- A call on the directory that fails is one of the kernel. -/
lemma Faultless.eq_true_of_directory {input output : Path} (hk : Faultless kernel input output b)
    {e : Event} {ok : Bool} (hanswered : AnsweredBy kernel e) (hcall : IsDirectoryCall ok e) :
    ok = true := by
  cases hcall with
  | opened path =>
    cases hanswered with
    | openDirectory t => exact hk.openDirectory t path
  | synced =>
    cases hanswered with
    | syncDirectory t => exact hk.syncDirectory t
  | closed =>
    cases hanswered with
    | closeDirectory t => exact hk.closeDirectory t

/-- **Behind the request for the link** nothing is thrown, if nothing fails. -/
lemma Faultless.thrown_eq_none (hk : Faultless kernel call.input call.output b) {lib : Lib}
    {answer : Linking} (hmem : .link temp call.output answer ∈ call.trace ssl kernel lib) :
    call.thrown ssl kernel lib = none := by
  obtain ⟨ψ, haccepts, hend⟩ := call.exists_endsIn ssl kernel lib bodyFills_any
  have hanswered := call.answered ssl kernel lib
  have hlinked : answer = .linked := by
    cases hanswered _ hmem with
    | link t => exact hk.link t temp
  subst hlinked
  by_contra hthrown
  have hcommitted : ψ.Committed := (committed_iff_link haccepts).mpr ⟨temp, hmem⟩
  obtain ⟨before, temp', after, e, htrace, hlater, hcall⟩ :=
    (hend.undurable hthrown hcommitted).directoryFailed haccepts
  have hin : e ∈ call.trace ssl kernel lib := by
    rw [htrace]
    simp [hlater]
  exact absurd (hk.eq_true_of_directory (hanswered e hin) hcall) (by simp)

/-- **Paths agree with streams**, if nothing fails. -/
theorem Faultless.pathGives (hk : Faultless kernel call.input call.output b)
    (ha : ssl.Available prim (2 ^ 20)) {lib : Lib} {fs₀ : FileSystem}
    (hgives : call.operation.PayloadGives ssl call.aad b lib v) :
    PathGives call ssl kernel lib fs₀ v := by
  have hbody : Outcome (call.body ssl kernel) (PathCall.initial kernel lib) _ _ :=
    hk.outcome_body ha hgives ⟨rfl, rfl⟩ rfl
  constructor
  · intro text hv
    cases hresult : call.body ssl kernel (PathCall.initial kernel lib) with
    | error error w' =>
      rcases hbody.of_error hresult with hrefused | ⟨-, temp, answer, hlink⟩
      · have hne := hrefused.1
        rw [hv] at hne
        cases hne
      · -- The link was asked for, and nothing fails from there on.
        have htrace : call.trace ssl kernel lib = w'.output.trace := by
          rw [PathCall.trace, PathCall.result, hresult]
        have hthrown : call.thrown ssl kernel lib = some error := by
          rw [PathCall.thrown, PathCall.result, hresult]
        rw [← htrace] at hlink
        rw [hk.thrown_eq_none hlink] at hthrown
        cases hthrown
    | ok a w' =>
      -- A call that returns has linked the file it has written the text to.
      obtain ⟨text', hv', temp, file, draft, name, hname, hdraft, hlinked⟩ := hbody.of_ok hresult
      obtain rfl : text' = text := Except.ok.inj (hv'.symm.trans hv)
      rw [PathCall.thrown, PathCall.trace, PathCall.result, hresult]
      refine ⟨rfl, fun fs hrun => ?_⟩
      have hend : call.EndsIn (fun _ bytes => bytes = text')
          (.owning temp file (.linked draft name true)) none :=
        .linked temp file draft hdraft name hname true none (by simp)
      obtain ⟨φ, hφ, hholds⟩ := exists_holds hlinked.trace hrun
      obtain rfl := Option.some.inj (hφ.symm.trans hlinked.trace)
      obtain ⟨n, source, bytes, hentry, hcontents, -, rfl⟩ :=
        committed_complete hlinked.trace hend List.prefix_rfl hφ trivial hholds
      exact ⟨n, hentry, hcontents⟩
  · intro error hv
    cases hresult : call.body ssl kernel (PathCall.initial kernel lib) with
    | ok a w' =>
      -- The body returns with the text of the verdict only.
      obtain ⟨text, hv', -⟩ := hbody.of_ok hresult
      rw [hv] at hv'
      cases hv'
    | error error' w' =>
      rcases hbody.of_error hresult with ⟨hv', haborted⟩ | ⟨⟨text, hready⟩, -⟩
      · obtain rfl : error' = error := Except.error.inj (hv'.symm.trans hv)
        rw [PathCall.thrown, PathCall.trace, PathCall.result, hresult]
        obtain ⟨φ, hφ, hnot⟩ := haborted.exists_phase fun _ _ => id
        exact ⟨rfl, leavesOutput_of_not_committed hφ hnot⟩
      · rw [hv] at hready
        cases hready

/-- A call that has its result and is not linked has asked for the link. -/
theorem Preparing.exists_link (hk : Preparing kernel call.input call.output b)
    (ha : ssl.Available prim (2 ^ 20)) {lib : Lib} {text : Bytes}
    (hgives : call.operation.PayloadGives ssl call.aad b lib (.ok text)) :
    ∃ temp answer, .link temp call.output answer ∈ call.trace ssl kernel lib := by
  have hbody : Outcome (call.body ssl kernel) (PathCall.initial kernel lib) _ _ :=
    hk.outcome_body ha hgives ⟨rfl, rfl⟩ rfl
  rw [PathCall.trace, PathCall.result]
  cases hresult : call.body ssl kernel (PathCall.initial kernel lib) with
  | ok a w' =>
    obtain ⟨text', -, temp, file, draft, name, -, -, hlinked⟩ := hbody.of_ok hresult
    obtain ⟨temp', hlink⟩ := (committed_iff_link hlinked.trace).mp trivial
    exact ⟨temp', .linked, hlink⟩
  | error error w' =>
    rcases hbody.of_error hresult with ⟨hne, -⟩ | ⟨-, hlink⟩
    · cases hne
    · exact hlink

end Overloads

end SecureKit.File
