import SecureKit.Cli.Protocol

/-!
# What a command has delivered to its output file

A command that writes a new file leaves its result under a temporary name first.  The result is
delivered when a file that was opened under such a name has taken all of it, has been closed without
an error, and has got the name of the output: `Delivered`, which is about the system calls that were
made and their answers.

`outcome_writeNewOutputFile_delivered` says that `write_new_output_file` does not return otherwise.

## The stages

The stages follow `write_new_output_file`: nothing was written to any file yet (`Untouched`), the
stream has passed the bytes on to a file under a temporary name (`Filled`), and the file is closed
without an error (`Complete`).  `Appends` is what is asked of the writer: it writes the bytes to its
stream and does nothing else.

What a file has taken is read off the answers of the system, so a write that was cut short counts
with what was taken only.  A stream that could not pass on everything is bad, and the test behind
the writer throws.

That the file is linked to the output and not copied is the reason why `Delivered` speaks of one file
throughout.
-/

namespace SecureKit.Cli

open ByteString Effect Iostream Evp Posix File

/-! ## System calls that deliver -/

/-- What a write passes on to a file. -/
def takenOf (file : ℕ) : Event → Bytes
  | .fwrite n data accepted _ => if n = file then data.take accepted else []
  | _ => []

/-- What a file has taken of all that was written to it. -/
def taken (file : ℕ) (trace : List Event) : Bytes := trace.flatMap (takenOf file)

/-- A file was opened under a name. -/
def OpenedAs (trace : List Event) (temp : Path) (file : ℕ) : Prop :=
  .openTruncated temp (some file) ∈ trace ∨ .openExclusive temp (.created file) ∈ trace

/-- The bytes have come to the file of this name. -/
def Delivered (trace : List Event) (output : Path) (bytes : Bytes) : Prop :=
  ∃ temp file moved, OpenedAs trace temp file ∧ taken file trace = bytes ∧
    .fclose file true moved ∈ trace ∧ .link temp output .linked ∈ trace

@[simp] lemma taken_concat (file : ℕ) (trace : List Event) (e : Event) :
    taken file (trace ++ [e]) = taken file trace ++ takenOf file e := by
  simp [taken]

lemma OpenedAs.concat {trace : List Event} {temp : Path} {file : ℕ} (h : OpenedAs trace temp file)
    (e : Event) : OpenedAs (trace ++ [e]) temp file :=
  h.imp (List.mem_append_left _) (List.mem_append_left _)

/-! ## On the way -/

section Stages

variable {kernel : Kernel} {ε : Type} {c : Command kernel} {temp output : Path} {file : ℕ}
  {front bytes : Bytes}

/-- No file has taken anything. -/
def Command.Untouched (c : Command kernel) : Prop := ∀ file, taken file c.trace = []

/-- The stream is open on a file, which has taken the bytes unless the stream has failed. -/
structure Command.Filled (c : Command kernel) (temp : Path) (file : ℕ) (bytes : Bytes) : Prop where
  isOpen : c.out.file = some file
  tempPath : c.tempPath = temp
  opened : OpenedAs c.trace temp file
  eofbit : c.out.state.eofbit = false
  holds : c.out.state.fail = false → taken file c.trace = bytes

/-- The file has taken the bytes, and was closed without an error. -/
structure Command.Complete (c : Command kernel) (temp : Path) (file : ℕ) (bytes : Bytes) :
    Prop where
  tempPath : c.tempPath = temp
  opened : OpenedAs c.trace temp file
  holds : taken file c.trace = bytes
  closed : ∃ moved, .fclose file true moved ∈ c.trace

lemma Command.Untouched.record (h : c.Untouched) {e : Event} (he : ∀ n, takenOf n e = []) :
    (c.record e).Untouched := by
  intro n
  show taken n (c.trace ++ [e]) = []
  rw [taken_concat, h n, he, List.nil_append]

/-- Of a stream that has failed, nothing is said. -/
lemma Command.Filled.fail (h : c.Filled temp file front) {c' : Command kernel}
    (hopen : c'.out.file = c.out.file) (htemp : c'.tempPath = c.tempPath)
    (htrace : c'.trace = c.trace ∨ ∃ e, c'.trace = c.trace ++ [e])
    (heof : c'.out.state.eofbit = false) (hfail : c'.out.state.fail = true) :
    c'.Filled temp file bytes where
  isOpen := hopen ▸ h.isOpen
  tempPath := htemp ▸ h.tempPath
  opened := by
    rcases htrace with htrace | ⟨e, htrace⟩
    · rw [htrace]
      exact h.opened
    · rw [htrace]
      exact h.opened.concat e
  eofbit := heof
  holds hgood := by
    rw [hfail] at hgood
    cases hgood

/-- A write that is not taken whole makes the stream fail. -/
lemma outcome_ofstreamWrite_filled (h : c.Filled temp file front) (data : Bytes) :
    Outcome (ofstreamWrite data : EStateM ε (Command kernel) Unit) c
      (fun _ c' => c'.Filled temp file (front ++ data)) (fun _ _ => False) := by
  simp only [ofstreamWrite, outcome_bind, outcome_get, outcome_ite, h.isOpen, outcome_sys,
    outcome_setState, outcome_pure]
  refine ⟨fun hgood => ⟨fun hshort => ?_, fun hwhole => ?_⟩, fun hbad => ?_⟩
  · exact h.fail rfl rfl (.inr ⟨_, rfl⟩) h.eofbit (by simp [IoState.fail])
  · have hgoodState := IoState.eq_of_good hgood
    refine ⟨h.isOpen, h.tempPath, h.opened.concat _, h.eofbit, fun _ => ?_⟩
    show taken file (c.trace ++ [_]) = _
    rw [taken_concat, h.holds (by rw [hgoodState]; rfl)]
    simp only [ne_eq, not_not] at hwhole
    simp [takenOf, hwhole]
  · refine h.fail h.isOpen.symm rfl (.inl rfl) h.eofbit ?_
    have heof := h.eofbit
    simp only [IoState.good, heof, Bool.not_false, Bool.true_and, Bool.and_eq_true,
      Bool.not_eq_true', not_and, Bool.not_eq_false] at hbad
    simp only [IoState.fail, Bool.or_eq_true]
    by_cases hfail : c.out.state.failbit = true
    · exact .inl (.inl hfail)
    · exact .inr (hbad (by simpa using hfail))

lemma outcome_ensureOutputFileDoesNotExist_untouched (h : c.Untouched) :
    Outcome (ensureOutputFileDoesNotExist output) c (fun _ c' => c'.Untouched)
      (fun _ _ => True) := by
  simp only [ensureOutputFileDoesNotExist, outcome_bind, outcome_sys]
  cases hanswer : kernel.status c.trace.length output with
  | none => trivial
  | some found =>
    rw [outcome_orThrow_some, outcome_throwIf]
    exact ⟨fun _ => trivial, fun _ => h.record fun _ => rfl⟩

/-- A stream that opens is open on a file that has taken nothing. -/
lemma outcome_ofstreamOpen_filled (h : c.Untouched) :
    Outcome (ofstreamOpen c.tempPath : EStateM ε (Command kernel) Unit) c
      (fun _ c' => c'.out.state.fail = true ∧ c'.Untouched ∨
        c'.out.state.fail = false ∧ ∃ file, c'.Filled c.tempPath file [])
      (fun _ _ => False) := by
  simp only [ofstreamOpen, outcome_bind, outcome_sys]
  cases hanswer : kernel.openTruncated c.trace.length c.tempPath with
  | none =>
    simp only [outcome_bind, outcome_get, outcome_setState]
    exact .inl ⟨by simp [IoState.fail], h.record fun _ => rfl⟩
  | some file =>
    simp only [outcome_modify]
    refine .inr ⟨rfl, file, rfl, rfl, .inl ?_, rfl, fun _ => ?_⟩
    · exact List.mem_append_right _ (List.mem_singleton.mpr rfl)
    · exact h.record (fun _ => rfl) file

lemma outcome_closeOutput_complete (h : c.Filled temp file bytes)
    (hgood : c.out.state.fail = false) :
    Outcome closeOutput c (fun _ c' => c'.Complete temp file bytes) (fun _ _ => True) := by
  simp only [closeOutput, ofstreamClose, outcome_bind, outcome_get, h.isOpen, outcome_sys,
    outcome_modify, outcome_ite, outcome_setState, outcome_pure, outcome_throwIf]
  refine ⟨fun _ => ⟨fun _ => trivial, fun hok => ?_⟩, fun hok => ⟨fun _ => trivial, fun _ => ?_⟩⟩
  · simp [IoState.fail] at hok
  · refine ⟨h.tempPath, h.opened.concat _, ?_, ?_⟩
    · show taken file (c.trace ++ [_]) = bytes
      rw [taken_concat, h.holds hgood]
      simp [takenOf]
    · rw [Bool.not_eq_false] at hok
      refine ⟨(kernel.fclose c.trace.length file).2, List.mem_append_right _ ?_⟩
      rw [← hok]
      exact List.mem_singleton.mpr rfl

lemma outcome_commitOutputFile_delivered (h : c.Complete temp file bytes) :
    Outcome (commitOutputFile temp output) c (fun _ c' => Delivered c'.trace output bytes)
      (fun _ _ => True) := by
  simp only [commitOutputFile, outcome_bind, outcome_sys]
  obtain ⟨moved, hclosed⟩ := h.closed
  cases hanswer : kernel.link c.trace.length temp output with
  | linked =>
    simp only [removeFileQuietly, outcome_bind, outcome_sys, outcome_pure]
    refine ⟨temp, file, moved, (h.opened.concat _).concat _, ?_, ?_, ?_⟩
    · show taken file ((c.trace ++ [_]) ++ [_]) = bytes
      rw [taken_concat, taken_concat, h.holds]
      simp [takenOf]
    · exact List.mem_append_left _ (List.mem_append_left _ hclosed)
    · exact List.mem_append_left _ (List.mem_append_right _ (List.mem_singleton.mpr rfl))
  | already_exists | failed =>
    simp only [outcome_bind, outcome_sys, outcome_throw]

end Stages

section Functions

variable {kernel : Kernel} {ssl : Openssl} {w : World (Command kernel)} {output : Path}
  {bytes : Bytes}

/-- The stream is open on a file that has taken nothing. -/
lemma outcome_openCliOutputLoop_filled (attempts : ℕ) (h : w.output.Untouched) :
    Outcome (openCliOutputLoop ssl output attempts) w
      (fun _ w' => ∃ temp file, w'.output.Filled temp file [] ∧ w'.output.out.state.fail = false)
      (fun _ _ => True) := by
  induction attempts generalizing w with
  | zero => trivial
  | succ attempts ih =>
    simp only [openCliOutputLoop, temporaryOutputPathFor, outcome_bind, outcome_securekit,
      outcome_onLib, outcome_onCommand, outcome_pure, outcome_modify, outcome_sys, outcome_ite]
    apply outcome_intro
    · intro token lib _
      have hnamed : ({ w.output with tempPath := output ++ tempSuffix token } :
          Command kernel).Untouched := h
      -- A name that exists is passed over.
      refine ⟨fun _ => ih (hnamed.record fun _ => rfl), fun _ => ?_⟩
      have hchecked := hnamed.record (e := .status (output ++ tempSuffix token) (kernel.status
        w.output.trace.length (output ++ tempSuffix token))) fun _ => rfl
      apply (outcome_ofstreamOpen_filled hchecked).mono
      · intro _ c' hopened
        rw [outcome_get]
        -- The stream may not open, and then the next name is tried.
        rcases hopened with ⟨hfail, huntouched⟩ | ⟨hgood, file, hfilled⟩
        · refine ⟨fun hgood => ?_, fun _ => ih huntouched⟩
          rw [hfail] at hgood
          cases hgood
        · exact ⟨fun _ => ⟨_, file, hfilled, hgood⟩, fun hbad => absurd hgood hbad⟩
      · intro _ _ hfalse
        exact hfalse.elim
    · intro _ _ _
      trivial

/-- The writer writes the bytes to its stream. -/
def Appends (writer : EStateM Failure (Command kernel) Unit) (bytes : Bytes) : Prop :=
  ∀ (c : Command kernel) temp file front, c.Filled temp file front →
    Outcome writer c (fun _ c' => c'.Filled temp file (front ++ bytes)) (fun _ _ => True)

lemma appends_ofstreamWrite (data : Bytes) :
    Appends (ofstreamWrite data : EStateM Failure (Command kernel) Unit) data := by
  intro c temp file front h
  apply (outcome_ofstreamWrite_filled h data).mono
  · intro _ c' hfilled
    exact hfilled
  · intro _ _ hfalse
    exact hfalse.elim

lemma Appends.bind {first second : EStateM Failure (Command kernel) Unit} {more : Bytes}
    (hfirst : Appends first bytes) (hsecond : Appends second more) :
    Appends (do first; second) (bytes ++ more) := by
  intro c temp file front h
  rw [outcome_bind, ← List.append_assoc]
  apply (hfirst c temp file front h).mono
  · intro _ c' hfilled
    exact hsecond c' temp file _ hfilled
  · intro _ _ _
    trivial

/-- When the file is written, what is left is to close and to name it. -/
lemma outcome_commit_delivered {temp : Path} {file : ℕ} (h : w.output.Filled temp file bytes)
    (hgood : w.output.out.state.fail = false) :
    Outcome (do
      onCommand closeOutput
      onCommand (commitOutputFile (← get).output.tempPath output) : Action kernel Unit) w
      (fun _ w' => Delivered w'.output.trace output bytes) (fun _ _ => True) := by
  rw [outcome_bind, outcome_onCommand]
  apply (outcome_closeOutput_complete h hgood).mono
  · intro _ c₁ hcomplete
    simp only [outcome_bind, outcome_get, outcome_onCommand, hcomplete.tempPath]
    exact outcome_commitOutputFile_delivered hcomplete
  · intro _ _ _
    trivial

/-- The handler of a `try` block throws again. -/
lemma outcome_tryCatch_rethrow {m : Action kernel Unit} {owned : Command kernel → Bool}
    {Q : Unit → World (Command kernel) → Prop} (h : Outcome m w Q fun _ _ => True) :
    Outcome (tryCatch m fun failure => onCommand (cleanUp owned failure)) w Q
      (fun _ _ => True) := by
  rw [outcome_tryCatch]
  apply h.mono
  · intro _ w' hq
    exact hq
  · intro failure w' _
    rw [outcome_onCommand, cleanUp, outcome_bind]
    apply outcome_intro
    · intro _ c₁ _
      rw [outcome_bind]
      apply outcome_intro
      · intro _ c₂ _
        trivial
      · intro _ c₂ _
        trivial
    · intro _ c₁ _
      trivial

/-- **`write_new_output_file`** returns only if what the writer wrote was delivered. -/
lemma outcome_writeNewOutputFile_delivered {writer : EStateM Failure (Command kernel) Unit}
    (h : w.output.Untouched) (hwriter : Appends writer bytes) :
    Outcome (writeNewOutputFile ssl output writer) w
      (fun _ w' => Delivered w'.output.trace output bytes) (fun _ _ => True) := by
  rw [writeNewOutputFile, outcome_bind, outcome_onCommand]
  apply (outcome_ensureOutputFileDoesNotExist_untouched h).mono
  · intro _ c₁ huntouched
    apply outcome_tryCatch_rethrow
    rw [openCliOutputFile, outcome_bind]
    apply (outcome_openCliOutputLoop_filled 32 huntouched).mono
    · intro _ w₂ hopened
      obtain ⟨temp, file, hempty, -⟩ := hopened
      rw [outcome_bind, outcome_onCommand]
      apply (hwriter _ temp file [] hempty).mono
      · intro _ c₃ hfilled
        rw [outcome_bind, outcome_get, outcome_bind, outcome_throwIf]
        refine ⟨fun _ => trivial, fun hgood => ?_⟩
        rw [Bool.not_eq_true] at hgood
        exact outcome_commit_delivered hfilled hgood
      · intro _ _ _
        trivial
    · intro _ _ _
      trivial
  · intro _ _ _
    trivial

end Functions

end SecureKit.Cli
