import SecureKit.File.Parametric

/-!
# The answers in a trace

The system calls of a call are answered by its kernel, and its trace holds the answers.  What is
known of the kernel is therefore known of every event of the trace (`PathCall.answered`).

The functions of `src/file_io.cpp` work on a `Process` by system calls and by changing the
`OutputFile`.  What a single system call keeps of a process is kept by all of them (`KeptByCalls`),
and by the overloads, whose payload functions do nothing to a process but write.
-/

namespace SecureKit.File

open ByteString Effect Iostream Evp Posix

/-- The answer is one of the kernel. -/
inductive AnsweredBy (kernel : Kernel) : Event → Prop
  | status (t : ℕ) (path : Path) : AnsweredBy kernel (.status path (kernel.status t path))
  | openExclusive (t : ℕ) (path : Path) :
    AnsweredBy kernel (.openExclusive path (kernel.openExclusive t path))
  | fdopen (t n : ℕ) : AnsweredBy kernel (.fdopen n (kernel.fdopen t n))
  | closeDescriptor (n : ℕ) : AnsweredBy kernel (.closeDescriptor n)
  | openInput (t : ℕ) (path : Path) : AnsweredBy kernel (.openInput path (kernel.openInput t path))
  | fwrite (t n : ℕ) (data : Bytes) :
    AnsweredBy kernel (.fwrite n data (kernel.fwrite t n data).1 (kernel.fwrite t n data).2)
  | fflush (t n : ℕ) : AnsweredBy kernel (.fflush n (kernel.fflush t n).1 (kernel.fflush t n).2)
  | fsync (t n : ℕ) : AnsweredBy kernel (.fsync n (kernel.fsync t n))
  | fclose (t n : ℕ) : AnsweredBy kernel (.fclose n (kernel.fclose t n).1 (kernel.fclose t n).2)
  | link (t : ℕ) (source target : Path) :
    AnsweredBy kernel (.link source target (kernel.link t source target))
  | unlink (t : ℕ) (path : Path) : AnsweredBy kernel (.unlink path (kernel.unlink t path))
  | openDirectory (t : ℕ) (path : Path) :
    AnsweredBy kernel (.openDirectory path (kernel.openDirectory t path))
  | syncDirectory (t : ℕ) : AnsweredBy kernel (.syncDirectory (kernel.syncDirectory t))
  | closeDirectory (t : ℕ) : AnsweredBy kernel (.closeDirectory (kernel.closeDirectory t))

lemma AnsweredBy.openInput_eq {kernel : Kernel} {path : Path} {answer : Option Source}
    (h : AnsweredBy kernel (.openInput path answer)) : ∃ t, answer = kernel.openInput t path := by
  cases h with
  | openInput t => exact ⟨t, rfl⟩

/-- A system call keeps `I`, whatever the `OutputFile` is. -/
structure KeptByCalls {kernel : Kernel} (I : Process kernel → Prop) : Prop where
  record : ∀ {p e}, I p → AnsweredBy kernel e → I (p.record e)
  holding : ∀ {p}, I p → ∀ out, I (p.holding out)

namespace KeptByCalls

variable {kernel : Kernel} {I : Process kernel → Prop} {α : Type}

lemma sys (hI : KeptByCalls I) {answer : Kernel → ℕ → α} {event : α → Event}
    (h : ∀ t, AnsweredBy kernel (event (answer kernel t))) : Keeps I (sys answer event) :=
  .modifyGet fun _ hp => hI.record hp (h _)

lemma replace (hI : KeptByCalls I) (out : Process kernel → OutputFile) :
    Keeps I (modify fun p : Process kernel => p.holding (out p) : Eff (Process kernel) Unit) :=
  .modify fun p hp => hI.holding hp (out p)

/-! ## `OutputFile` -/

lemma closeQuietly (hI : KeptByCalls I) : Keeps I (closeQuietly : Eff (Process kernel) Unit) := by
  refine Keeps.get.bind fun p => ?_
  cases p.out.file with
  | none => exact .pure _
  | some file => exact (hI.sys fun t => .fclose t file).bind fun _ => hI.replace _

lemma assign (hI : KeptByCalls I) (other : OutputFile) :
    Keeps I (assign other : Eff (Process kernel) Unit) :=
  hI.closeQuietly.bind fun _ => hI.replace fun _ => other

lemma writeFile (hI : KeptByCalls I) (data : Bytes) :
    Keeps I (writeFile data : Eff (Process kernel) Unit) := by
  refine .ite (fun _ => .pure _) fun _ => ?_
  refine Keeps.get.bind fun p => (Keeps.orThrow _ _).bind fun file => ?_
  exact (hI.sys fun t => .fwrite t file data).bind fun _ => .throwIf _

lemma closeFile (hI : KeptByCalls I) : Keeps I (closeFile : Eff (Process kernel) Unit) := by
  refine Keeps.get.bind fun p => ?_
  cases p.out.file with
  | none => exact .pure _
  | some file =>
    exact (hI.replace _).bind fun _ => (hI.sys fun t => .fclose t file).bind fun _ => .throwIf _

lemma flushFile (hI : KeptByCalls I) : Keeps I (flushFile : Eff (Process kernel) Unit) := by
  refine Keeps.get.bind fun p => ?_
  cases p.out.file with
  | none => exact .pure _
  | some file =>
    refine (hI.sys fun t => .fflush t file).bind fun _ => (Keeps.throwIf _).bind fun _ => ?_
    exact (hI.sys fun t => .fsync t file).bind fun _ => .throwIf _

/-! ## Opening, committing, removing -/

lemma tryOpenOutputExclusive (hI : KeptByCalls I) (path : Path) :
    Keeps I (tryOpenOutputExclusive path : Eff (Process kernel) ExclusiveOpenResult) := by
  refine (hI.sys fun t => .openExclusive t path).bind fun answer => ?_
  cases answer with
  | already_exists | failed => exact .pure _
  | created fd =>
    refine (hI.sys fun t => .fdopen t fd).bind fun file => .ite (fun _ => ?_) fun _ => ?_
    · exact (hI.sys fun _ => .closeDescriptor fd).bind fun _ => .pure _
    · exact (hI.assign _).bind fun _ => .pure _

lemma ensureOutputDoesNotExist (hI : KeptByCalls I) (output : Path) :
    Keeps I (ensureOutputDoesNotExist output : Eff (Process kernel) Unit) :=
  (hI.sys fun t => .status t output).bind fun _ => (Keeps.orThrow _ _).bind fun _ => .throwIf _

lemma removeQuietly (hI : KeptByCalls I) (path : Path) :
    Keeps I (removeQuietly path : Eff (Process kernel) Unit) :=
  (hI.sys fun t => .unlink t path).bind fun _ => .pure _

lemma flushParentDirectory (hI : KeptByCalls I) (path : Path) :
    Keeps I (flushParentDirectory path : Eff (Process kernel) Unit) := by
  refine (hI.sys fun t => .openDirectory t _).bind fun _ => (Keeps.throwIf _).bind fun _ => ?_
  refine (hI.sys fun t => .syncDirectory t).bind fun _ => .ite (fun _ => ?_) fun _ => ?_
  · exact (hI.sys fun t => .closeDirectory t).bind fun _ => .throw _
  · exact (hI.sys fun t => .closeDirectory t).bind fun _ => .throwIf _

lemma commitTempFile (hI : KeptByCalls I) (temp output : Path) :
    Keeps I (commitTempFile temp output : Eff (Process kernel) Unit) := by
  refine (hI.sys fun t => .link t temp output).bind fun answer => ?_
  cases answer with
  | linked => exact (hI.removeQuietly temp).bind fun _ => hI.flushParentDirectory output
  | already_exists | failed => exact .throw _

lemma cleanUp (hI : KeptByCalls I) (temp : Path) (error : Error) :
    Keeps I (cleanUp temp error : Eff (Process kernel) Unit) :=
  hI.closeQuietly.bind fun _ => (hI.removeQuietly temp).bind fun _ => .throw error

/-! ## The overloads -/

variable {ssl : Openssl}

/-- The rest of the state does not show. -/
abbrev Overall (I : Process kernel → Prop) (w : World (Process kernel)) : Prop := I w.output

lemma onOutput {m : Eff (Process kernel) α} (hm : Keeps I m) : Keeps (Overall I) (onOutput m) :=
  hm.zoom (fun _ h => h) fun _ _ _ h => h

lemma onLib (m : Eff Lib α) : Keeps (Overall I) (onLib m) := .zoom_of_forall _ fun _ _ h => h

lemma openUniqueTempLoop (hI : KeptByCalls I) (output : Path) (attempts : ℕ) :
    Keeps (Overall I) (openUniqueTempLoop ssl output attempts) := by
  induction attempts with
  | zero => exact .throw _
  | succ attempts ih =>
    refine (onLib _).bind fun temp => (onOutput (hI.tryOpenOutputExclusive temp)).bind fun result => ?_
    cases result with
    | opened => exact .pure _
    | failed => exact .throw _
    | already_exists => exact ih

lemma openInput (hI : KeptByCalls I) (path : Path) : Keeps (Overall I) (openInput path) :=
  (onOutput (hI.sys fun t => .openInput t path)).bind fun _ => (Keeps.orThrow _ _).bind fun _ =>
    .modify fun _ h => h

lemma throughTempFile (hI : KeptByCalls I) {input output : Path}
    {body : Eff (World (Process kernel)) Unit} (hbody : Keeps (Overall I) body) :
    Keeps (Overall I) (throughTempFile ssl input output body) := by
  refine (hI.openUniqueTempLoop output 32).bind fun _ => Keeps.get.bind fun w => ?_
  refine .tryCatch ?_ fun error => onOutput (hI.cleanUp _ error)
  refine (hI.openInput input).bind fun _ => hbody.bind fun _ => ?_
  refine (onOutput hI.flushFile).bind fun _ => (onOutput hI.closeFile).bind fun _ => ?_
  exact onOutput (hI.commitTempFile _ output)

lemma sealPath (hI : KeptByCalls I) (format : FileFormat) (input output : Path) (aad : Bytes) :
    Keeps (Overall I) (sealPath ssl format input output aad) := by
  refine (onOutput (hI.ensureOutputDoesNotExist output)).bind fun _ => ?_
  refine (onLib _).bind fun header => (onLib _).bind fun fileKey => hI.throughTempFile ?_
  exact keeps_output_of_simulates hI.writeFile fun halike => simulates_sealStreamPayload halike

lemma openPath (hI : KeptByCalls I) (format : FileFormat) (input output : Path) (aad : Bytes) :
    Keeps (Overall I) (openPath ssl format input output aad) := by
  refine (onOutput (hI.ensureOutputDoesNotExist output)).bind fun _ => hI.throughTempFile ?_
  exact keeps_output_of_simulates hI.writeFile fun halike => simulates_openStream halike

/-- **A path overload keeps what its system calls keep.** -/
theorem body (hI : KeptByCalls I) (call : PathCall) : Keeps (Overall I) (call.body ssl kernel) := by
  obtain ⟨operation, input, output, aad⟩ := call
  cases operation with
  | seal_file key => exact hI.sealPath _ input output aad
  | open_file key => exact hI.openPath _ input output aad
  | seal_file_with_password password =>
    exact (Keeps.throwIf _).bind fun _ => hI.sealPath _ input output aad
  | open_file_with_password password =>
    exact (Keeps.throwIf _).bind fun _ => hI.openPath _ input output aad

end KeptByCalls

section Answers

variable {kernel : Kernel} {ssl : Openssl} {lib : Lib} {call : PathCall} {e : Event}

lemma keptByCalls_answered :
    KeptByCalls fun p : Process kernel => ∀ e ∈ p.trace, AnsweredBy kernel e where
  record := by
    intro p e h he e' hmem
    rcases List.mem_append.mp hmem with hbefore | hlast
    · exact h e' hbefore
    · rw [List.mem_singleton.mp hlast]
      exact he
  holding h _ := h

/-- What was called stays in the trace. -/
lemma keptByCalls_mem (e : Event) : KeptByCalls fun p : Process kernel => e ∈ p.trace where
  record h _ := List.mem_append_left _ h
  holding h _ := h

/-- **The trace holds the answers of the kernel.** -/
theorem PathCall.answered (call : PathCall) (ssl : Openssl) (kernel : Kernel) (lib : Lib) :
    ∀ e ∈ call.trace ssl kernel lib, AnsweredBy kernel e := by
  have hkeeps : Keeps _ (call.body ssl kernel) := keptByCalls_answered.body call
  have hbody := hkeeps (PathCall.initial kernel lib) fun e hmem => absurd hmem List.not_mem_nil
  unfold PathCall.trace PathCall.result
  cases hresult : call.body ssl kernel (PathCall.initial kernel lib) with
  | ok _ w => exact hbody.of_ok hresult
  | error _ w => exact hbody.of_error hresult

end Answers

end SecureKit.File
