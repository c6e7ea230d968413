import SecureKit.Cli.Commands
import SecureKit.File.PathResult

/-!
# What a command that writes does, step by step

A command checks whether its output exists, tries temporary names until one opens, writes to the
file, closes it, links it to the output, and removes the temporary name.  `Phase` is how far it has
come; as for the path overloads, this automaton over the system calls is all that the results about
file systems need to know of the code (`WriteCommand.exists_phaseAfter`).

In contrast to the path overloads, a command without a file may remove a name as well: in
`write_new_output_file` the `catch` block removes the name that was tried last.

## The phases

A command is searching as long as it has no file.  It then writes, closes, links and removes, in this
order, and a failure leads from any of these to the clean-up.  `Phase.Step` has one constructor for
each system call in each phase, which is what `Cli.Ownership` goes through.

`WriteCommand` are the functions with an output file: `write_binary_file`, `write_key_file` and
`run_streaming_file_command`.  Their writers differ, and `Writes` is all that is asked of one: it
writes to the open file and keeps the phase.  For the streaming command it is proved by
`File.Parametric`, from the same run into a stream in memory.
-/

namespace SecureKit.Cli

open ByteString Effect Iostream Evp Posix File

/-! ## The automaton -/

/-- How far a command has come. -/
inductive Phase
  /-- It has no file. -/
  | searching
  | writing (temp : Path) (file : ℕ)
  | closed (temp : Path) (file : ℕ)
  /-- The temporary name has been removed. -/
  | finished

/-- What a command does next. -/
def Phase.next : Phase → Event → Option Phase
  | searching, .status _ _ | searching, .openInput _ _ | searching, .openTruncated _ none =>
    some searching
  | searching, .openTruncated temp (some file) => some (writing temp file)
  | searching, .unlink _ _ => some finished
  | writing temp file, .fwrite n _ _ _ => if n = file then some (writing temp file) else none
  | writing temp file, .fclose n _ _ => if n = file then some (closed temp file) else none
  | closed temp file, .link source _ _ => if source = temp then some (closed temp file) else none
  | closed temp file, .status _ _ => some (closed temp file)
  | closed temp _, .unlink path _ => if path = temp then some finished else none
  | _, _ => none

/-- The phase a trace leads to. -/
def phaseAfter (trace : List Event) : Option Phase := trace.foldlM Phase.next .searching

/-- The steps of the automaton, one constructor for each system call. -/
inductive Phase.Step : Phase → Event → Phase → Prop
  | checked (path : Path) (answer : Option Bool) : Step .searching (.status path answer) .searching
  | input (path : Path) (answer : Option Source) :
    Step .searching (.openInput path answer) .searching
  | unopened (temp : Path) : Step .searching (.openTruncated temp none) .searching
  | opened (temp : Path) (file : ℕ) :
    Step .searching (.openTruncated temp (some file)) (.writing temp file)
  | abandon (path : Path) (ok : Bool) : Step .searching (.unlink path ok) .finished
  | write (temp : Path) (file : ℕ) (data : Bytes) (accepted moved : ℕ) :
    Step (.writing temp file) (.fwrite file data accepted moved) (.writing temp file)
  | close (temp : Path) (file : ℕ) (ok : Bool) (moved : ℕ) :
    Step (.writing temp file) (.fclose file ok moved) (.closed temp file)
  | link (temp : Path) (file : ℕ) (output : Path) (answer : Linking) :
    Step (.closed temp file) (.link temp output answer) (.closed temp file)
  | rechecked (temp : Path) (file : ℕ) (path : Path) (answer : Option Bool) :
    Step (.closed temp file) (.status path answer) (.closed temp file)
  | remove (temp : Path) (file : ℕ) (ok : Bool) :
    Step (.closed temp file) (.unlink temp ok) .finished

lemma Phase.step_of_next {φ ψ : Phase} {e : Event} (h : φ.next e = some ψ) : Phase.Step φ e ψ := by
  unfold Phase.next at h
  split at h <;> simp only [Option.ite_none_right_eq_some, Option.some.injEq, reduceCtorEq] at h
  · subst h
    exact .checked _ _
  · subst h
    exact .input _ _
  · subst h
    exact .unopened _
  · subst h
    exact .opened _ _
  · subst h
    exact .abandon _ _
  · obtain ⟨rfl, rfl⟩ := h
    exact .write _ _ _ _ _
  · obtain ⟨rfl, rfl⟩ := h
    exact .close _ _ _ _
  · obtain ⟨rfl, rfl⟩ := h
    exact .link _ _ _ _
  · subst h
    exact .rechecked _ _ _ _
  · obtain ⟨rfl, rfl⟩ := h
    exact .remove _ _ _

/-! ## The functions of `src/cli/commands.cpp` follow it -/

/-- The command has come to a phase. -/
structure Command.In {kernel : Kernel} (c : Command kernel) (φ : Phase) : Prop where
  trace : phaseAfter c.trace = some φ
  file : ∀ file, c.out.file = some file ↔ ∃ temp, φ = .writing temp file
  tempPath : ∀ temp file, φ = .writing temp file ∨ φ = .closed temp file → c.tempPath = temp

section Functions

variable {kernel : Kernel} {ε α : Type} {c : Command kernel} {φ ψ : Phase} {temp : Path} {file : ℕ}

@[simp] lemma outcome_sys {answer : Kernel → ℕ → α} {event : α → Event}
    {Q : α → Command kernel → Prop} {E : ε → Command kernel → Prop} :
    Outcome (sys answer event) c Q E ↔
      Q (answer kernel c.trace.length) (c.record (event (answer kernel c.trace.length))) := Iff.rfl

@[simp] lemma outcome_setState {state : IoState} {Q : Unit → Command kernel → Prop}
    {E : ε → Command kernel → Prop} :
    Outcome (setState state) c Q E ↔ Q () { c with out := { c.out with state } } := Iff.rfl

/-- A system call that opens and closes nothing. -/
lemma Command.In.step (h : c.In φ) {e : Event} (hnext : φ.next e = some φ) : (c.record e).In φ :=
  ⟨(foldlM_concat h.trace e).trans hnext, h.file, h.tempPath⟩

/-- The flags of the streams and the local variables do not matter. -/
lemma Command.In.of_eq (h : c.In φ) {c' : Command kernel} (htrace : c'.trace = c.trace)
    (hfile : c'.out.file = c.out.file) (htemp : c'.tempPath = c.tempPath) : c'.In φ :=
  ⟨htrace ▸ h.trace, hfile ▸ h.file, htemp ▸ h.tempPath⟩

/-- Before a file is opened. -/
lemma in_searching (htrace : phaseAfter c.trace = some .searching) (hfile : c.out.file = none) :
    c.In .searching := by
  refine ⟨htrace, ?_, ?_⟩
  · simp [hfile]
  · simp

lemma Command.In.file_none (h : c.In φ) (hφ : ∀ temp file, φ ≠ .writing temp file) :
    c.out.file = none := by
  cases hfile : c.out.file with
  | none => rfl
  | some file =>
    obtain ⟨temp, rfl⟩ := (h.file file).mp hfile
    exact absurd rfl (hφ temp file)

lemma outcome_ofstreamWrite {data : Bytes} (h : c.In (.writing temp file)) :
    Outcome (ofstreamWrite data : EStateM ε (Command kernel) Unit) c
      (fun _ c' => c'.In (.writing temp file)) (fun _ _ => False) := by
  have hfile : c.out.file = some file := (h.file file).mpr ⟨temp, rfl⟩
  have hwritten : ∀ accepted moved, (c.record (.fwrite file data accepted moved)).In
      (.writing temp file) := by
    intro accepted moved
    exact h.step (by simp [Phase.next])
  simp only [ofstreamWrite, outcome_bind, outcome_get, outcome_ite, hfile, outcome_sys,
    outcome_setState, outcome_pure]
  refine ⟨fun _ => ⟨fun _ => ?_, fun _ => ?_⟩, fun _ => h.of_eq rfl hfile.symm rfl⟩
  · exact (hwritten _ _).of_eq rfl rfl rfl
  · exact hwritten _ _

lemma outcome_ofstreamClose (h : c.In (.writing temp file)) :
    Outcome (ofstreamClose : EStateM ε (Command kernel) Unit) c
      (fun _ c' => c'.In (.closed temp file)) (fun _ _ => False) := by
  have hfile : c.out.file = some file := (h.file file).mpr ⟨temp, rfl⟩
  have htemp : c.tempPath = temp := h.tempPath temp file (.inl rfl)
  have hclosed : ∀ ok moved state, ({ c with
      trace := c.trace ++ [.fclose file ok moved], out := { state } } : Command kernel).In
      (.closed temp file) := by
    intro ok moved state
    refine ⟨(foldlM_concat h.trace _).trans (by simp [Phase.next]), ?_, ?_⟩
    · simp
    · simp [htemp]
  simp only [ofstreamClose, outcome_bind, outcome_get, hfile, outcome_sys, outcome_modify,
    outcome_ite, outcome_setState, outcome_pure]
  exact ⟨fun _ => hclosed _ _ _, fun _ => hclosed _ _ _⟩

lemma outcome_closeOutput (h : c.In (.writing temp file)) :
    Outcome closeOutput c (fun _ c' => c'.In (.closed temp file))
      (fun _ c' => c'.In (.closed temp file)) := by
  rw [closeOutput, outcome_bind]
  apply (outcome_ofstreamClose h).mono
  · intro _ c' hclosed
    simp only [outcome_bind, outcome_get, outcome_throwIf]
    exact ⟨fun _ => hclosed, fun _ => hclosed⟩
  · intro _ _ hfalse
    exact hfalse.elim

lemma outcome_commitOutputFile {output : Path} (h : c.In (.closed temp file)) :
    Outcome (commitOutputFile temp output) c (fun _ c' => phaseAfter c'.trace = some .finished)
      (fun _ c' => c'.In (.closed temp file)) := by
  simp only [commitOutputFile, outcome_bind, outcome_sys]
  have hlinked := h.step (e := .link temp output (kernel.link c.trace.length temp output))
    (by simp [Phase.next])
  have hrefused : ∀ answer, ((c.record (.link temp output (kernel.link c.trace.length temp output))).record
      (.status output answer)).In (.closed temp file) := by
    intro answer
    exact hlinked.step (by simp [Phase.next])
  cases hanswer : kernel.link c.trace.length temp output with
  | linked =>
    simp only [removeFileQuietly, outcome_bind, outcome_sys, outcome_pure]
    rw [hanswer] at hlinked
    exact (foldlM_concat hlinked.trace _).trans (by simp [Phase.next])
  | already_exists | failed =>
    simp only [outcome_bind, outcome_sys, outcome_throw]
    rw [hanswer] at hrefused
    exact hrefused _

lemma outcome_ensureOutputFileDoesNotExist {path : Path} (h : c.In .searching) :
    Outcome (ensureOutputFileDoesNotExist path) c (fun _ c' => c'.In .searching)
      (fun _ c' => c'.In .searching) := by
  simp only [ensureOutputFileDoesNotExist, outcome_bind, outcome_sys]
  have hchecked : (c.record (.status path (kernel.status c.trace.length path))).In .searching :=
    h.step rfl
  cases hanswer : kernel.status c.trace.length path with
  | none =>
    rw [hanswer] at hchecked
    exact hchecked
  | some found =>
    rw [hanswer] at hchecked
    simp only [outcome_orThrow_some, outcome_throwIf]
    exact ⟨fun _ => hchecked, fun _ => hchecked⟩

/-- The stream is open after an `open` that succeeds, and has failed after another one. -/
lemma outcome_ofstreamOpen {path : Path} (h : c.In .searching) (htemp : c.tempPath = path) :
    Outcome (ofstreamOpen path : EStateM ε (Command kernel) Unit) c
      (fun _ c' => c'.In .searching ∧ c'.out.state.fail = true ∨
        c'.out.state.fail = false ∧ ∃ file, c'.In (.writing path file))
      (fun _ _ => False) := by
  simp only [ofstreamOpen, outcome_bind, outcome_sys]
  cases hanswer : kernel.openTruncated c.trace.length path with
  | none =>
    simp only [outcome_bind, outcome_get, outcome_setState]
    left
    refine ⟨?_, by simp [IoState.fail]⟩
    exact in_searching ((foldlM_concat h.trace _).trans rfl) (h.file_none (by simp))
  | some file =>
    simp only [outcome_modify]
    right
    refine ⟨rfl, file, (foldlM_concat h.trace _).trans rfl, ?_, ?_⟩
    · simp
    · simp [Command.record, htemp]

/-- A failed `open` or a file that was closed is all there is to remove. -/
lemma outcome_closeIfOpen {E : Failure → Command kernel → Prop} (h : c.In φ) (hφ : φ ≠ .finished) :
    Outcome closeIfOpen c
      (fun _ c' => c'.In .searching ∨ ∃ temp file, c'.In (.closed temp file)) E := by
  simp only [closeIfOpen, outcome_bind, outcome_get, outcome_ite, outcome_pure]
  refine ⟨fun hopen => ?_, fun hnone => ?_⟩
  · obtain ⟨file, hfile⟩ := Option.ne_none_iff_exists'.mp hopen
    obtain ⟨temp, rfl⟩ := (h.file file).mp hfile
    apply (outcome_ofstreamClose h).mono
    · intro _ c' hclosed
      exact .inr ⟨temp, file, hclosed⟩
    · intro _ _ hfalse
      exact hfalse.elim
  · rw [not_not] at hnone
    cases φ with
    | searching => exact .inl h
    | writing temp file =>
      have hfile := (h.file file).mpr ⟨temp, rfl⟩
      rw [hnone] at hfile
      cases hfile
    | closed temp file => exact .inr ⟨temp, file, h⟩
    | finished => exact absurd rfl hφ

/-- The temporary name that is removed is the one of the file, or, without a file, any. -/
lemma outcome_removeIf {owned : Command kernel → Bool} {E : Failure → Command kernel → Prop}
    (h : c.In .searching ∨ ∃ temp file, c.In (.closed temp file)) :
    Outcome (removeIf owned) c (fun _ c' => ∃ ψ, phaseAfter c'.trace = some ψ) E := by
  simp only [removeIf, removeFileQuietly, outcome_bind, outcome_get, outcome_ite, outcome_sys,
    outcome_pure]
  rcases h with h | ⟨temp, file, h⟩
  · exact ⟨fun _ => ⟨_, (foldlM_concat h.trace _).trans rfl⟩, fun _ => ⟨_, h.trace⟩⟩
  · have htemp : c.tempPath = temp := h.tempPath temp file (.inr rfl)
    refine ⟨fun _ => ⟨.finished, (foldlM_concat h.trace _).trans ?_⟩, fun _ => ⟨_, h.trace⟩⟩
    simp [Phase.next, htemp]

/-- **The `catch` block** closes the file, and removes its name or the last one that was tried. -/
lemma outcome_cleanUp {owned : Command kernel → Bool} {failure : Failure} (h : c.In φ)
    (hφ : φ ≠ .finished) :
    Outcome (cleanUp owned failure) c (fun _ _ => False)
      (fun _ c' => ∃ ψ, phaseAfter c'.trace = some ψ) := by
  rw [cleanUp, outcome_bind]
  apply (outcome_closeIfOpen (E := fun _ _ => False) h hφ).mono
  · intro _ c₁ hclosed
    rw [outcome_bind]
    apply (outcome_removeIf (E := fun _ _ => False) hclosed).mono
    · intro _ c₂ haccepted
      exact haccepted
    · intro _ _ hfalse
      exact hfalse.elim
  · intro _ _ hfalse
    exact hfalse.elim

end Functions

section Commands

variable {kernel : Kernel} {ssl : Openssl} {w : World (Command kernel)} {output temp : Path} {file : ℕ}

/-- The search ends with a file, or without one. -/
lemma outcome_openCliOutputLoop (attempts : ℕ) (h : w.output.In .searching) :
    Outcome (openCliOutputLoop ssl output attempts) w
      (fun _ w' => ∃ temp file, w'.output.In (.writing temp file))
      (fun _ w' => w'.output.In .searching) := by
  induction attempts generalizing w with
  | zero => exact h
  | succ attempts ih =>
    simp only [openCliOutputLoop, temporaryOutputPathFor, outcome_bind, outcome_securekit,
      outcome_onLib, outcome_onCommand, outcome_pure, outcome_modify, outcome_sys, outcome_ite]
    apply outcome_intro
    · intro token lib _
      have hnamed : ({ w.output with tempPath := output ++ tempSuffix token } : Command kernel).In
          .searching := in_searching h.trace (h.file_none (by simp))
      refine ⟨fun _ => ih (hnamed.step rfl), fun _ => ?_⟩
      apply (outcome_ofstreamOpen (hnamed.step rfl) rfl).mono
      · intro _ c' hopened
        rw [outcome_get]
        rcases hopened with ⟨hsearching, hfail⟩ | ⟨hgood, file, hwriting⟩
        · refine ⟨fun hgood => ?_, fun _ => ih hsearching⟩
          rw [hfail] at hgood
          cases hgood
        · exact ⟨fun _ => ⟨_, file, hwriting⟩, fun hbad => absurd hgood hbad⟩
      · intro _ _ hfalse
        exact hfalse.elim
    · intro _ _ _
      exact h

/-- The writer of a command writes to the file. -/
def Writes (writer : EStateM Failure (Command kernel) Unit) : Prop :=
  ∀ (c : Command kernel) temp file, c.In (.writing temp file) →
    Outcome writer c (fun _ c' => c'.In (.writing temp file)) (fun _ c' => c'.In (.writing temp file))

/-- The system calls of the command are accepted. -/
def Accepted (c : Command kernel) : Prop := ∃ ψ, phaseAfter c.trace = some ψ

/-- The `try` block is left before the temporary name is removed. -/
def Unfinished (c : Command kernel) : Prop := ∃ φ, φ ≠ .finished ∧ c.In φ

lemma Command.In.unfinished {c : Command kernel} {φ : Phase} (h : c.In φ) (hφ : φ ≠ .finished) :
    Unfinished c := ⟨φ, hφ, h⟩

/-- Behind the `catch` block. -/
lemma outcome_tryCatch_cleanUp {m : Action kernel Unit} {owned : Command kernel → Bool}
    (h : Outcome m w (fun _ w' => Accepted w'.output) (fun _ w' => Unfinished w'.output)) :
    Outcome (tryCatch m fun failure => onCommand (cleanUp owned failure)) w (fun _ w' => Accepted w'.output)
      (fun _ w' => Accepted w'.output) := by
  rw [outcome_tryCatch]
  apply h.mono
  · intro _ w' haccepted
    exact haccepted
  · intro failure w' hunfinished
    obtain ⟨φ, hφ, hin⟩ := hunfinished
    rw [outcome_onCommand]
    apply (outcome_cleanUp hin hφ).mono
    · intro _ _ hfalse
      exact hfalse.elim
    · intro _ c' haccepted
      exact haccepted

/-- What follows when the file is written. -/
lemma outcome_commit (h : w.output.In (.writing temp file)) :
    Outcome (do
      onCommand closeOutput
      onCommand (commitOutputFile (← get).output.tempPath output) : Action kernel Unit) w
      (fun _ w' => phaseAfter w'.output.trace = some .finished) (fun _ w' => Unfinished w'.output) := by
  rw [outcome_bind, outcome_onCommand]
  apply (outcome_closeOutput h).mono
  · intro _ c₁ hclosed
    have htemp : c₁.tempPath = temp := hclosed.tempPath temp file (.inr rfl)
    simp only [outcome_bind, outcome_get, outcome_onCommand, htemp]
    apply (outcome_commitOutputFile hclosed).mono
    · intro _ c₂ hfinished
      exact hfinished
    · intro _ c₂ hrefused
      exact hrefused.unfinished (by simp)
  · intro _ c₁ hclosed
    exact hclosed.unfinished (by simp)

lemma outcome_writeNewOutputFile {writer : EStateM Failure (Command kernel) Unit}
    (h : w.output.In .searching) (hwriter : Writes writer) :
    Outcome (writeNewOutputFile ssl output writer) w (fun _ w' => Accepted w'.output)
      (fun _ w' => Accepted w'.output) := by
  rw [writeNewOutputFile, outcome_bind, outcome_onCommand]
  apply (outcome_ensureOutputFileDoesNotExist h).mono
  · intro _ c₁ hsearching
    apply outcome_tryCatch_cleanUp
    rw [openCliOutputFile, outcome_bind]
    apply (outcome_openCliOutputLoop 32 hsearching).mono
    · intro _ w₂ hfound
      obtain ⟨temp, file, hwriting⟩ := hfound
      rw [outcome_bind, outcome_onCommand]
      apply (hwriter _ temp file hwriting).mono
      · intro _ c₃ hwritten
        rw [outcome_bind, outcome_get, outcome_bind, outcome_throwIf]
        refine ⟨fun _ => hwritten.unfinished (by simp), fun _ => ?_⟩
        apply (outcome_commit hwritten).mono
        · intro _ w' hfinished
          exact ⟨_, hfinished⟩
        · intro _ w' hunfinished
          exact hunfinished
      · intro _ c₃ hwritten
        exact hwritten.unfinished (by simp)
    · intro _ w₂ hsearching
      exact hsearching.unfinished (by simp)
  · intro _ c₁ hsearching
    exact ⟨_, hsearching.trace⟩

lemma outcome_openCliInputFile {path : Path} (h : w.output.In .searching) :
    Outcome (openCliInputFile path) w (fun _ w' => w'.output.In .searching)
      (fun _ w' => w'.output.In .searching) := by
  simp only [openCliInputFile, outcome_bind, outcome_onCommand, outcome_sys]
  have hopened : (w.output.record (.openInput path (kernel.openInput w.output.trace.length path))).In
      .searching := h.step rfl
  cases hanswer : kernel.openInput w.output.trace.length path with
  | none =>
    rw [hanswer] at hopened
    exact hopened
  | some source =>
    rw [hanswer] at hopened
    exact hopened

/-- A stream overload writes to the file. -/
lemma outcome_onStreams {operation : Operation} {aad : Bytes} (h : w.output.In (.writing temp file)) :
    Outcome (operation.onStreams ssl aad : Eff (World (Command kernel)) Unit) w
      (fun _ w' => w'.output.In (.writing temp file))
      (fun _ w' => w'.output.In (.writing temp file)) := by
  have hwrites : WritesAlike
      (fun (c : Command kernel) (out : OStream) => out.Reliable ∧ c.In (.writing temp file))
      (fun _ c => c.In (.writing temp file)) := by
    intro data c out hboth
    obtain ⟨hreliable, hwriting⟩ := hboth
    unfold writeAll instOutputCommand
    rw [outcome_bind]
    apply (outcome_ofstreamWrite hwriting).mono
    · intro _ c' hwritten
      simp only [outcome_bind, outcome_get, outcome_throwIf]
      exact ⟨fun _ => .inl hwritten, fun _ => ⟨_, writeAll_of_reliable hreliable data, hreliable, hwritten⟩⟩
    · intro _ _ hfalse
      exact hfalse.elim
  have hside : SideBySide (fun (c : Command kernel) (out : OStream) =>
      out.Reliable ∧ c.In (.writing temp file)) w
      ({ input := w.input, output := {}, lib := w.lib } : World OStream) :=
    ⟨rfl, rfl, ⟨rfl, rfl⟩, h⟩
  apply (simulates_onStreams hwrites operation aad _ _ hside).mono
  · intro _ w' hok
    obtain ⟨w₂, -, hside'⟩ := hok
    exact hside'.output.2
  · intro _ w' hthrow
    rcases hthrow with hbroken | ⟨w₂, -, hside'⟩
    · exact hbroken
    · exact hside'.output.2

/-- Whatever is written to `std::cout`, no system call is made. -/
lemma outcome_withOutput {out : World (Command kernel) → OStream}
    {put : OStream → Command kernel → Command kernel} {operation : StreamOperation}
    (hput : ∀ o, (put o w.output).In .searching) :
    Outcome (withOutput out put operation) w (fun _ w' => w'.output.In .searching)
      (fun _ w' => w'.output.In .searching) := by
  rw [withOutput, outcome_zoom]
  apply outcome_intro
  · intro _ w' _
    exact hput w'.output
  · intro _ w' _
    exact hput w'.output

lemma outcome_streamToFile {operation : Operation} {aad : Bytes} (h : w.output.In .searching) :
    Outcome (streamToFile ssl output (operation.onStreams ssl aad)) w
      (fun _ w' => Accepted w'.output) (fun _ w' => Unfinished w'.output) := by
  rw [streamToFile, outcome_bind, outcome_onCommand]
  apply (outcome_ensureOutputFileDoesNotExist h).mono
  · intro _ c₁ hsearching
    rw [openCliOutputFile, outcome_bind]
    apply (outcome_openCliOutputLoop 32 hsearching).mono
    · intro _ w₂ hfound
      obtain ⟨temp, file, hwriting⟩ := hfound
      -- From here on `catch` removes the temporary file.
      have howned : ({ w₂.output with usesTempOutput := true } : Command kernel).In
          (.writing temp file) := hwriting.of_eq rfl rfl rfl
      rw [outcome_bind, outcome_onCommand, outcome_modify, outcome_bind, outcome_securekit]
      apply (outcome_onStreams howned).mono
      · intro _ w₃ hwritten
        have hcommit : Outcome (do
            onCommand closeOutput
            onCommand (commitOutputFile (← get).output.tempPath output)) w₃ _ _ :=
          outcome_commit hwritten
        rw [outcome_bind] at hcommit ⊢
        apply hcommit.mono
        · intro _ w₄ hrest
          rw [outcome_bind, outcome_get] at hrest ⊢
          rw [outcome_bind]
          apply hrest.mono
          · -- The file was committed, and `uses_temp_output` is reset.
            intro _ w₅ hfinished
            rw [outcome_onCommand, outcome_modify]
            exact ⟨_, hfinished⟩
          · intro _ w₅ hunfinished
            exact hunfinished
        · intro _ w₄ hunfinished
          exact hunfinished
      · intro _ w₃ hwritten
        exact hwritten.unfinished (by simp)
    · intro _ w₂ hsearching
      exact hsearching.unfinished (by simp)
  · intro _ c₁ hsearching
    exact hsearching.unfinished (by simp)

lemma outcome_streamingCommand {options : FileCommandOptions} {operation : Operation}
    (h : w.output.In .searching) :
    Outcome (streamingCommand ssl options operation) w (fun _ w' => Accepted w'.output)
      (fun _ w' => Accepted w'.output) := by
  apply outcome_tryCatch_cleanUp
  have hopen : Outcome (openCommandInput options) w (fun _ w' => w'.output.In .searching)
      (fun _ w' => w'.output.In .searching) := by
    rw [openCommandInput, outcome_ite, outcome_pure]
    exact ⟨fun _ => outcome_openCliInputFile h, fun _ => h⟩
  rw [outcome_bind]
  apply hopen.mono
  · intro _ w₁ hsearching
    rw [outcome_ite]
    refine ⟨fun _ => ?_, fun _ => outcome_streamToFile hsearching⟩
    rw [streamToStdout, outcome_bind]
    apply (outcome_withOutput fun o => in_searching hsearching.trace
      (hsearching.file_none (by simp))).mono
    · intro _ w₂ hwritten
      rw [outcome_bind, outcome_get, outcome_throwIf]
      exact ⟨fun _ => hwritten.unfinished (by simp), fun _ => ⟨_, hwritten.trace⟩⟩
    · intro _ w₂ hwritten
      exact hwritten.unfinished (by simp)
  · intro _ w₁ hsearching
    exact hsearching.unfinished (by simp)

/-- What is written without a throw. -/
lemma writes_ofstreamWrite (data : Bytes) :
    Writes (ofstreamWrite data : EStateM Failure (Command kernel) Unit) := by
  intro c temp file h
  apply (outcome_ofstreamWrite h).mono
  · intro _ c' hwritten
    exact hwritten
  · intro _ _ hfalse
    exact hfalse.elim

lemma Writes.bind {first second : EStateM Failure (Command kernel) Unit} (hfirst : Writes first)
    (hsecond : Writes second) : Writes (do first; second) := by
  intro c temp file h
  rw [outcome_bind]
  apply (hfirst c temp file h).mono
  · intro _ c' h'
    exact hsecond c' temp file h'
  · intro _ c' h'
    exact h'

end Commands

/-- **The commands that write** follow the automaton. -/
theorem WriteCommand.exists_phaseAfter (command : WriteCommand) (ssl : Openssl) (kernel : Kernel)
    (cin : IStream) (lib : Lib) : ∃ ψ, phaseAfter (command.trace ssl kernel cin lib) = some ψ := by
  have hstart : ({} : Command kernel).In .searching := in_searching rfl rfl
  have hbody : Outcome (command.body ssl) ({ input := cin, output := {}, lib } : World (Command kernel))
      (fun _ w' => Accepted w'.output) (fun _ w' => Accepted w'.output) := by
    unfold WriteCommand.body
    cases command with
    | write_binary_file path bytes =>
      exact outcome_writeNewOutputFile hstart (writes_ofstreamWrite bytes)
    | write_key_file path key =>
      exact outcome_writeNewOutputFile hstart ((writes_ofstreamWrite _).bind (writes_ofstreamWrite _))
    | run_streaming_file_command options operation => exact outcome_streamingCommand hstart
  unfold WriteCommand.trace
  cases hresult : command.body ssl ({ input := cin, output := {}, lib } : World (Command kernel)) with
  | ok _ w => exact hbody.of_ok hresult
  | error _ w => exact hbody.of_error hresult

end SecureKit.Cli
