import SecureKit.Cli.Delivery
import SecureKit.Cli.Silence
import SecureKit.File.Ownership
import SecureKit.File.Written

/-!
# The results of the file commands

A file command that returns has delivered a result of its operation: a path overload and
`run_streaming_file_command` to a new file, the latter also to `std::cout`, where it asks for a flush.

For the path overloads this is read off the automaton their system calls follow: what the trace of a
call in a phase says of its file is `Phase.Told`.

## Two ways to a result

A path overload returns in a phase that has linked the output, and `PhaseTold` gives from the trace
alone what was opened, written, closed and linked on the way.  It is kept by every step, so a call
that returns has all of it.

`run_streaming_file_command` runs the stream overload into the stream of a temporary file or into
`std::cout`.  Such a stream may refuse bytes, while the results of the overloads are known for
streams that take everything; `File.Parametric` compares the two runs, and the test of the stream
behind the call excludes that something was refused.

`OperationDelivered` has the two cases by the options.  With `--out -` the text is on standard output
and was flushed; otherwise it is in a file that was linked to the output.  The result is the file
that sealing makes of the input, or the plaintext that the input opens to.
-/

namespace SecureKit.Cli

open ByteString Effect Iostream Evp Posix File

/-! ## The traces of the path overloads -/

section Traces

variable {call : PathCall} {temp : Path} {file : ℕ} {trace : List Event} {e : Event}

/-- The file has taken what the draft says, of an input that was opened. -/
structure DraftTold (call : PathCall) (file : ℕ) (trace : List Event) (draft : Draft) : Prop where
  holds : taken file trace = draft.bytes
  opened : ∀ source, draft.source = some source → .openInput call.input (some source) ∈ trace

/-- What the trace says of the file of a call. -/
def StageTold (call : PathCall) (temp : Path) (file : ℕ) (trace : List Event) :
    File.Stage → Prop
  | .created | .orphaned => taken file trace = []
  | .writing draft | .flushed draft | .synced draft => DraftTold call file trace draft
  | .closed draft => DraftTold call file trace draft ∧ ∃ moved, .fclose file true moved ∈ trace
  | .linked draft _ _ => DraftTold call file trace draft ∧
    (∃ moved, .fclose file true moved ∈ trace) ∧ .link temp call.output .linked ∈ trace
  | .broken | .discarded _ _ => True

/-- What the trace says in a phase. -/
def PhaseTold (call : PathCall) (trace : List Event) : File.Phase → Prop
  | .owning temp file stage => OpenedAs trace temp file ∧ StageTold call temp file trace stage
  | _ => ∀ file, taken file trace = []

/-- An event that writes nothing to the file leaves the draft alone. -/
lemma DraftTold.concat {draft : Draft} (h : DraftTold call file trace draft)
    (he : takenOf file e = []) : DraftTold call file (trace ++ [e]) draft where
  holds := by rw [taken_concat, he, List.append_nil, h.holds]
  opened source hsource := List.mem_append_left _ (h.opened source hsource)

lemma mem_concat_self (trace : List Event) (e : Event) : e ∈ trace ++ [e] :=
  List.mem_append_right _ (List.mem_singleton_self e)

lemma StageTold.step {stage stage' : File.Stage} (h : StageTold call temp file trace stage)
    (hstep : File.Stage.Step call temp file stage e stage') :
    StageTold call temp file (trace ++ [e]) stage' := by
  have hkeeps : ∀ {d : Event}, d ∈ trace → d ∈ trace ++ [e] := fun hd => List.mem_append_left _ hd
  cases hstep with
  -- The steps before the input is opened tell nothing yet.
  | opened =>
    refine ⟨?_, fun source hsource => by cases hsource⟩
    rw [taken_concat, show taken file trace = [] from h]
    rfl
  | orphaned | closeDescriptor =>
    show taken file (trace ++ [_]) = []
    rw [taken_concat, show taken file trace = [] from h]
    rfl
  | openInput draft answer =>
    have h : DraftTold call file trace draft := h
    refine ⟨?_, fun source hsource => ?_⟩
    · rw [taken_concat, h.holds]
      exact List.append_nil _
    · obtain rfl : answer = some source := hsource
      exact mem_concat_self _ _
  -- A write adds to what was told, and the later steps keep it.
  | written draft data moved =>
    have h : DraftTold call file trace draft := h
    refine ⟨?_, fun source hsource => hkeeps (h.opened source hsource)⟩
    rw [taken_concat, h.holds]
    simp [takenOf]
  | flushed draft moved | synced draft => exact DraftTold.concat h rfl
  | closed draft moved => exact ⟨DraftTold.concat h rfl, moved, mem_concat_self _ _⟩
  | linked draft =>
    obtain ⟨hdraft, moved, hclosed⟩ := h
    exact ⟨hdraft.concat rfl, ⟨moved, hkeeps hclosed⟩, mem_concat_self _ _⟩
  | remove draft name durable ok hname =>
    obtain ⟨hdraft, ⟨moved, hclosed⟩, hlinked⟩ := h
    exact ⟨hdraft.concat rfl, ⟨moved, hkeeps hclosed⟩, hkeeps hlinked⟩
  | directory draft name durable ok e hdirectory =>
    obtain ⟨hdraft, ⟨moved, hclosed⟩, hlinked⟩ := h
    have hnone : takenOf file e = [] := by cases hdirectory <;> rfl
    exact ⟨hdraft.concat hnone, ⟨moved, hkeeps hclosed⟩, hkeeps hlinked⟩
  -- Behind a failure nothing is told.
  | unwritten | unflushed | unsynced | unclosed | abandon | giveUp | refused | unlinkable | drop =>
    trivial

lemma PhaseTold.step {φ ψ : File.Phase} (h : PhaseTold call trace φ)
    (hstep : File.Phase.Step call φ e ψ) : PhaseTold call (trace ++ [e]) ψ := by
  have hnothing : (∀ file, taken file trace = []) → (∀ file, takenOf file e = []) →
      ∀ file, taken file (trace ++ [e]) = [] := by
    intro htrace he file
    rw [taken_concat, htrace, he, List.append_nil]
  cases hstep with
  | checked | unchecked | taken | failed => exact hnothing h fun _ => rfl
  | created temp n htemp => exact ⟨.inr (mem_concat_self _ _), hnothing h (fun _ => rfl) n⟩
  | owning temp file hstage => exact ⟨h.1.concat e, h.2.step hstage⟩

/-- **What the trace says** of a call that has come to a phase. -/
lemma phaseTold_of_phaseAfter {φ : File.Phase} (h : File.phaseAfter call trace = some φ) :
    PhaseTold call trace φ := by
  induction trace using List.reverseRecOn generalizing φ with
  | nil =>
    cases h
    exact fun _ => rfl
  | append_singleton trace e ih =>
    rw [File.phaseAfter, List.foldlM_append] at h
    obtain ⟨ψ, hψ, hnext⟩ := Option.bind_eq_some_iff.mp h
    rw [List.foldlM_cons] at hnext
    obtain ⟨χ, hχ, hend⟩ := Option.bind_eq_some_iff.mp hnext
    cases hend
    exact (ih hψ).step (File.Phase.step_of_next hχ)

/-- **What is committed is delivered.** -/
lemma delivered_of_committed {kernel : Kernel} {P : Source → Bytes → Prop} {p : Process kernel}
    (h : File.Committed call P p) : ∃ source bytes, .openInput call.input (some source) ∈ p.trace ∧
      P source bytes ∧ Delivered p.trace call.output bytes := by
  obtain ⟨temp, file, draft, name, -, ⟨source, hsource, hP⟩, hphase⟩ := h
  obtain ⟨hopened, hdraft, ⟨moved, hclosed⟩, hlinked⟩ := phaseTold_of_phaseAfter hphase.trace
  exact ⟨source, draft.bytes, hdraft.opened source hsource, hP,
    temp, file, moved, hopened, hdraft.holds, hclosed, hlinked⟩

end Traces

/-! ## Inputs -/

/-- The input of a command: `std::cin`, or a file that was opened under the name. -/
def InputOf (options : FileCommandOptions) (cin : IStream) (trace : List Event) (input : IStream) :
    Prop :=
  if options.input_is_stdin = true then input = cin
  else ∃ source, .openInput options.input (some source) ∈ trace ∧ input = { source }

lemma InputOf.mono {options : FileCommandOptions} {cin input : IStream} {trace trace' : List Event}
    (h : InputOf options cin trace input) (htrace : trace <+: trace') :
    InputOf options cin trace' input := by
  unfold InputOf at *
  by_cases hstdin : options.input_is_stdin = true
  · rwa [if_pos hstdin] at h ⊢
  · rw [if_neg hstdin] at h ⊢
    obtain ⟨source, hmem, hinput⟩ := h
    exact ⟨source, htrace.subset hmem, hinput⟩

section Commands

variable {kernel : Kernel} {ssl : Openssl} {w : World (Command kernel)} {temp : Path} {file : ℕ}

/-- Opening the input is all that is recorded. -/
lemma outcome_openCommandInput_inputOf (options : FileCommandOptions) (h : w.output.Untouched) :
    Outcome (openCommandInput options : Action kernel Unit) w
      (fun _ w' => InputOf options w.input w'.output.trace w'.input ∧ w'.output.Untouched ∧
        w'.output.cout = w.output.cout) (fun _ _ => True) := by
  rw [openCommandInput, outcome_ite]
  constructor
  · intro hfile
    have hneg : ¬ options.input_is_stdin = true := by rw [hfile]; decide
    simp only [openCliInputFile, outcome_bind, outcome_onCommand, outcome_sys, outcome_modify]
    cases hanswer : kernel.openInput w.output.trace.length options.input with
    | none => trivial
    | some source =>
      rw [outcome_orThrow_some]
      refine ⟨?_, h.record fun _ => rfl, rfl⟩
      rw [InputOf, if_neg hneg]
      exact ⟨source, mem_concat_self _ _, rfl⟩
  · intro hstdin
    rw [outcome_pure]
    refine ⟨?_, h, rfl⟩
    rw [InputOf, if_pos (by simpa using hstdin)]

/-! ## Streaming to a file -/

/-- The file has taken what the stream has. -/
def FilledAlike (temp : Path) (file : ℕ) (c : Command kernel) (out : OStream) : Prop :=
  out.Reliable ∧ c.Filled temp file out.written ∧ c.out.state.fail = false

/-- A write to the file goes like one to a stream, or throws. -/
lemma writesAlike_command : WritesAlike
    (FilledAlike temp file : Command kernel → OStream → Prop) (fun _ _ => True) := by
  intro data c out h
  obtain ⟨hreliable, hfilled, -⟩ := h
  show Outcome (do
    ofstreamWrite data
    throwIf ((← get).out.state.fail = true) writeFailure) c _ _
  rw [outcome_bind]
  apply (outcome_ofstreamWrite_filled hfilled data).mono
  · intro _ c' hfilled'
    rw [outcome_bind, outcome_get, outcome_throwIf]
    refine ⟨fun _ => .inl trivial, fun hgood => ?_⟩
    rw [Bool.not_eq_true] at hgood
    exact ⟨_, writeAll_of_reliable hreliable data, hreliable, hfilled', hgood⟩
  · intro _ _ hfalse
    exact hfalse.elim

/-- The operation fills the file with one of its results. -/
lemma outcome_operation_filled (operation : Operation) (aad : Bytes)
    (h : w.output.Filled temp file []) (hgood : w.output.out.state.fail = false) :
    Outcome (securekit (operation.onStreams ssl aad) : Action kernel Unit) w
      (fun _ w' => ∃ bytes, operation.Writes ssl aad w.input bytes ∧
        w'.output.Filled temp file bytes ∧ w'.output.out.state.fail = false)
      (fun _ _ => True) := by
  have hside : SideBySide (FilledAlike temp file) w
      ({ input := w.input, output := {}, lib := w.lib } : World OStream) :=
    ⟨rfl, rfl, ⟨rfl, rfl⟩, h, hgood⟩
  rw [outcome_securekit]
  apply ((simulates_onStreams writesAlike_command operation aad).outcome hside
    operation.outcome_onStreams_writes).mono
  · intro _ w' hok
    obtain ⟨w₂, -, hside', hwrites⟩ := hok
    exact ⟨_, hwrites, hside'.output.2⟩
  · intro _ _ _
    trivial

/-- A temporary file is opened without a look at the input. -/
lemma keeps_input_openCliOutputLoop (input : IStream) (output : Path) (attempts : ℕ) :
    Keeps (fun w => w.input = input) (openCliOutputLoop ssl output attempts : Action kernel Unit) := by
  have hcommand : ∀ {β : Type} (m : EStateM Failure (Command kernel) β),
      Keeps (fun w : World (Command kernel) => w.input = input) (onCommand m) :=
    fun m => .zoom_of_forall m fun _ _ h => h
  induction attempts with
  | zero => exact .throw _
  | succ attempts ih =>
    refine Keeps.bind (Dispatch.keeps_securekit (.zoom_of_forall _ fun _ _ h => h)) fun temp => ?_
    refine (hcommand _).bind fun _ => (hcommand _).bind fun answer => .ite (fun _ => ih) fun _ => ?_
    refine (hcommand _).bind fun _ => Keeps.get.bind fun w => ?_
    exact .ite (fun _ => .pure _) fun _ => ih

lemma outcome_streamToFile_delivered (operation : Operation) (aad : Bytes) (output : Path)
    (h : w.output.Untouched) :
    Outcome (streamToFile ssl output (operation.onStreams ssl aad)) w
      (fun _ w' => ∃ bytes, operation.Writes ssl aad w.input bytes ∧
        Delivered w'.output.trace output bytes) (fun _ _ => True) := by
  rw [streamToFile, outcome_bind, outcome_onCommand]
  refine (outcome_ensureOutputFileDoesNotExist_untouched h).mono ?_ fun _ _ _ => trivial
  intro _ c₁ huntouched
  rw [openCliOutputFile, outcome_bind]
  have hopen : Outcome (openCliOutputLoop ssl output 32) { w with output := c₁ } _ _ :=
    (outcome_openCliOutputLoop_filled 32 huntouched).and
      (keeps_input_openCliOutputLoop w.input output 32 _ rfl)
  refine hopen.mono ?_ fun _ _ _ => trivial
  rintro _ w₂ ⟨⟨temp, file, hempty, hgood⟩, hinput⟩
  rw [outcome_bind, outcome_onCommand, outcome_modify, outcome_bind, ← hinput]
  have hflagged : ({ w₂.output with usesTempOutput := true } : Command kernel).Filled temp file [] :=
    ⟨hempty.isOpen, hempty.tempPath, hempty.opened, hempty.eofbit, hempty.holds⟩
  refine Outcome.mono (outcome_operation_filled operation aad hflagged hgood) ?_ fun _ _ _ => trivial
  rintro _ w₃ ⟨bytes, hwrites, hfilled, hgood₃⟩
  rw [outcome_bind, outcome_onCommand]
  refine (outcome_closeOutput_complete hfilled hgood₃).mono ?_ fun _ _ _ => trivial
  intro _ c₄ hcomplete
  rw [outcome_bind, outcome_get, outcome_bind, outcome_onCommand, hcomplete.tempPath]
  refine (outcome_commitOutputFile_delivered hcomplete).mono ?_ fun _ _ _ => trivial
  intro _ c₅ hdelivered
  exact ⟨bytes, hwrites, hdelivered⟩

/-! ## Streaming to standard output -/

/-- A stream that is good has taken what the other has. -/
def AcceptedAlike (cout out : OStream) : Prop :=
  out.Reliable ∧ cout.state.good = true ∧ cout.written = out.written

lemma writesAlike_cout : WritesAlike AcceptedAlike fun _ _ => True := by
  intro data cout out h
  obtain ⟨hreliable, hgood, hwritten⟩ := h
  rw [outcome_writeAllStream]
  refine ⟨fun _ => .inl trivial, fun haccepts => ?_⟩
  have hfits : cout.Fits data.length := not_not.mp fun hshort => haccepts (.inr ⟨hgood, hshort⟩)
  refine ⟨_, writeAll_of_reliable hreliable data, hreliable, ?_⟩
  rw [OStream.write_of_fits hgood hfits]
  exact ⟨hgood, congrArg (· ++ data) hwritten⟩

/-- Standard output has taken a result of the operation. -/
lemma outcome_streamToStdout_accepted (operation : Operation) (aad : Bytes)
    (hgood : w.output.cout.state.good = true) (hempty : w.output.cout.written = []) :
    Outcome (streamToStdout (operation.onStreams ssl aad)) w
      (fun _ w' => ∃ bytes, operation.Writes ssl aad w.input bytes ∧
        w'.output.cout.state.good = true ∧ w'.output.cout.written = bytes ∧
        w'.output.trace = w.output.trace) (fun _ _ => True) := by
  have hside : SideBySide AcceptedAlike
      ({ input := w.input, output := w.output.cout, lib := w.lib, chunks := w.chunks } : World OStream)
      ({ input := w.input, output := {}, lib := w.lib } : World OStream) :=
    ⟨rfl, rfl, ⟨rfl, rfl⟩, hgood, hempty⟩
  rw [streamToStdout, outcome_bind, withOutput, outcome_zoom, outcome_securekit]
  refine ((simulates_onStreams writesAlike_cout operation aad).outcome hside
    operation.outcome_onStreams_writes).mono ?_ fun _ _ _ => trivial
  rintro _ w₁ ⟨w₂, -, hside', hwrites⟩
  rw [outcome_bind, outcome_get, outcome_throwIf]
  exact ⟨fun _ => trivial, fun _ => ⟨_, hwrites, hside'.output.2.1, hside'.output.2.2, rfl⟩⟩

/-! ## Results -/

/-- The text is on standard output, and what was in the buffer has been written. -/
def OnStdout (host : Dispatch.Host) (text : Bytes) (w : World (Command kernel)) : Prop :=
  w.output.cout.written = text ∧ host.flushes = true

/-- A result of the operation, for the input of the command, is where the options say. -/
def OperationDelivered (host : Dispatch.Host) (options : FileCommandOptions) (operation : Operation)
    (cin : IStream) (w : World (Command kernel)) : Prop :=
  ∃ input bytes, InputOf options cin w.output.trace input ∧
    operation.Writes host.ssl options.aad input bytes ∧
    if options.output_is_stdout = true then OnStdout host bytes w
    else Delivered w.output.trace options.output bytes

variable {host : Dispatch.Host}

/-- Behind the flush and the test, what was in the buffer has been written. -/
lemma outcome_flush_tested (hgood : w.output.cout.state.good = true) :
    Outcome (do
      Dispatch.flushStdout host.flushes
      throwIf ((← get).output.cout.state.fail = true) outputFailure : Action kernel Unit) w
      (fun _ w' => host.flushes = true ∧ w' = w) (fun _ _ => True) := by
  rw [outcome_bind, Dispatch.flushStdout, outcome_onCommand, outcome_modify, outcome_bind,
    outcome_get, outcome_throwIf]
  refine ⟨fun _ => trivial, fun haccepted => ?_⟩
  cases hflushes : host.flushes with
  | false =>
    refine absurd ?_ haccepted
    simp [hgood, hflushes, IoState.fail]
  | true =>
    refine ⟨rfl, ?_⟩
    rw [if_neg (by simp)]

/-- **`run_streaming_file_command`** returns only if the result was delivered. -/
theorem outcome_runStreaming_delivered (options : FileCommandOptions) (operation : Operation)
    (h : w.output.Untouched) (hgood : w.output.cout.state.good = true)
    (hempty : w.output.cout.written = []) :
    Outcome (Dispatch.runStreaming host options operation) w
      (fun _ w' => OperationDelivered host options operation w.input w') (fun _ _ => True) := by
  have hopen := outcome_openCommandInput_inputOf options h
  rw [Dispatch.runStreaming, outcome_bind, streamingCommand, runStreamingFileCommand]
  cases hstdout : options.output_is_stdout with
  -- `--out -`: the overload writes to standard output, which is flushed and tested.
  | true =>
    apply outcome_tryCatch_rethrow
    rw [outcome_bind]
    refine hopen.mono ?_ fun _ _ _ => trivial
    rintro _ w₁ ⟨hinput, -, hcout⟩
    rw [if_pos rfl]
    refine (outcome_streamToStdout_accepted operation options.aad (hcout ▸ hgood)
      (hcout ▸ hempty)).mono ?_ fun _ _ _ => trivial
    rintro _ w₂ ⟨bytes, hwrites, hgood₂, hwritten, htrace⟩
    rw [if_pos rfl]
    refine (outcome_flush_tested hgood₂).mono ?_ fun _ _ _ => trivial
    rintro _ _ ⟨hflushes, rfl⟩
    refine ⟨_, bytes, htrace ▸ hinput, hwrites, ?_⟩
    rw [if_pos hstdout]
    exact ⟨hwritten, hflushes⟩
  -- A path: the overload writes to a temporary file, which is linked to the output.
  | false =>
    apply outcome_tryCatch_rethrow
    rw [outcome_bind]
    refine hopen.mono ?_ fun _ _ _ => trivial
    rintro _ w₁ ⟨hinput, huntouched, -⟩
    rw [if_neg (by decide)]
    refine ((outcome_streamToFile_delivered operation options.aad options.output huntouched).and
      (Dispatch.quiet_streamToFile options.output operation options.aad w₁.output w₁
        ⟨rfl, List.prefix_rfl⟩)).mono ?_ fun _ _ _ => trivial
    rintro _ w₂ ⟨⟨bytes, hwrites, hdelivered⟩, hextends⟩
    refine ⟨_, bytes, hinput.mono hextends.trace, hwrites, ?_⟩
    rw [if_neg (by rw [hstdout]; decide)]
    exact hdelivered

/-- **A path overload** returns only if the result was delivered. -/
theorem outcome_runPath_delivered (options : FileCommandOptions) (operation : Operation)
    (hstreams : (options.input_is_stdin || options.output_is_stdout) = false)
    (h : w.output.trace = []) :
    Outcome (Dispatch.runPath host ⟨operation, options.input, options.output, options.aad⟩) w
      (fun _ w' => OperationDelivered host options operation w.input w') (fun _ _ => True) := by
  obtain ⟨hstdin, hstdout⟩ := Bool.or_eq_false_iff.mp hstreams
  rw [Dispatch.runPath, outcome_zoom, outcome_securekit, h]
  refine (outcome_body bodyFills_writes ⟨rfl, rfl⟩).mono ?_ fun _ _ _ => trivial
  intro _ w' hcommitted
  obtain ⟨source, bytes, hopened, hwrites, hdelivered⟩ := delivered_of_committed hcommitted
  refine ⟨{ source }, bytes, ?_, hwrites, ?_⟩
  · rw [InputOf, if_neg (by rw [hstdin]; decide)]
    exact ⟨source, hopened, rfl⟩
  · rw [if_neg (by rw [hstdout]; decide)]
    exact hdelivered

end Commands

end SecureKit.Cli
