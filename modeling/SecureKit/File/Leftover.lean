import SecureKit.File.AllOrNothing

/-!
# Temporary files that are left

When a call of a path overload has ended, is the temporary file it created gone?  The removal of the
file is assumed to succeed whenever it is tried (`UnlinksOwn`).

It is tried wherever the call holds the file through its `OutputFile`.  But
`try_open_output_exclusive` creates the file first and then calls `fdopen`; where that fails, it
closes the descriptor and reports a failure, which leaves its caller without the name of the file.
So a file is left exactly if `fdopen` failed (`leavesNothing_iff`).

## The argument

The phase of a call knows the difference.  It is orphaned from a failing `fdopen` on
(`orphaned_iff_fdopen`), and in no other phase is a file of the call out of reach of its
`OutputFile`.  Where the call holds the file, its clean-up has asked for the removal of the name,
and under `UnlinksOwn` that has succeeded, so the name refers to another file or to none.

The assumption is about the files the call has created and no others, so a removal may well fail
for a name that another process has taken.  The theorem is about a call that has run to its end
beside processes that create files.  It is an equivalence over all answers of the kernel:
`leavesNothing_iff_sample` is a call that cannot open its input and cleans up, and
`temporaryFile_left` is the same call with a failing `fdopen`, which leaves its file behind.
-/

namespace SecureKit.File

open ByteString Effect Evp Posix

section Phases

variable {call : PathCall} {trace : List Event} {φ ψ : Phase} {e : Event} {n : ℕ}

/-- The file was created, but there is no `FILE *` for it. -/
def Phase.Orphaned (n : ℕ) : Phase → Prop
  | .owning _ file .orphaned => file = n
  | _ => False

lemma Phase.Orphaned.step (h : φ.Orphaned n) (hstep : Phase.Step call φ e ψ) : ψ.Orphaned n := by
  cases hstep with
  | checked | unchecked | created | taken | failed => exact h.elim
  | owning temp file hstage =>
    cases hstage with
    | closeDescriptor => exact h
    | opened | orphaned | openInput | written | unwritten | flushed | unflushed | synced | unsynced
    | closed | unclosed | abandon | giveUp | linked | refused | unlinkable | drop | remove
    | directory => exact h.elim

lemma Phase.Orphaned.of_step (h : ψ.Orphaned n) (hstep : Phase.Step call φ e ψ) :
    φ.Orphaned n ∨ e = .fdopen n false := by
  cases hstep with
  | checked | unchecked | created | taken | failed => exact h.elim
  | owning temp file hstage =>
    cases hstage with
    | closeDescriptor => exact .inl h
    | orphaned =>
      obtain rfl : file = n := h
      exact .inr rfl
    | opened | openInput | written | unwritten | flushed | unflushed | synced | unsynced | closed
    | unclosed | abandon | giveUp | linked | refused | unlinkable | drop | remove | directory =>
      exact h.elim

/-- A failed `fdopen` is what makes an orphan. -/
theorem orphaned_iff_fdopen (h : phaseAfter call trace = some φ) :
    φ.Orphaned n ↔ .fdopen n false ∈ trace := by
  induction trace using List.reverseRecOn generalizing φ with
  | nil =>
    obtain rfl : Phase.checking = φ := Option.some.inj h
    simp [Phase.Orphaned]
  | append_singleton trace e ih =>
    obtain ⟨χ, hχ, hnext⟩ := foldlM_concat_iff.mp h
    have hstep := Phase.step_of_next hnext
    rw [List.mem_append, List.mem_singleton, ← ih hχ]
    constructor
    · intro horphaned
      apply (horphaned.of_step hstep).imp_right
      exact Eq.symm
    · intro h
      rcases h with hbefore | rfl
      · exact hbefore.step hstep
      · cases hstep with
        | owning temp file hstage =>
          cases hstage with
          | orphaned => rfl
          | directory _ _ _ _ _ hcall => cases hcall

/-- No removal of the temporary name has failed. -/
def Phase.Unstuck : Phase → Prop
  | .owning _ _ (.discarded _ name) | .owning _ _ (.linked _ name _) => name ≠ .stuck
  | _ => True

/-- The name of a created file is removed if that is tried. -/
lemma Phase.Unstuck.step (h : φ.Unstuck) (hstep : Phase.Step call φ e ψ)
    (hunlink : ∀ temp file stage, φ = .owning temp file stage → stage.named →
      e ≠ .unlink temp false) : ψ.Unstuck := by
  cases hstep with
  | checked | unchecked | created | taken | failed => trivial
  | owning temp file hstage =>
    cases hstage with
    | opened | orphaned | closeDescriptor | openInput | written | unwritten | flushed | unflushed
    | synced | unsynced | closed => trivial
    | unclosed | abandon | giveUp | linked | refused | unlinkable => simp [Phase.Unstuck]
    | drop refused ok =>
      cases ok with
      | true => simp [Phase.Unstuck, TempName.attempt]
      | false => exact absurd rfl (hunlink _ _ _ rfl (by simp [Stage.named]))
    | remove draft name durable ok hname =>
      have hname' : name ≠ .stuck := h
      cases name with
      | stuck => exact absurd rfl hname'
      | removed => simp [Phase.Unstuck, TempName.attempt]
      | pending =>
        cases ok with
        | true => simp [Phase.Unstuck, TempName.attempt]
        | false => exact absurd rfl (hunlink _ _ _ rfl (by simp [Stage.named]))
    | directory => exact h

end Phases

/-- The removal of a file the call has created succeeds when it is attempted. -/
def UnlinksOwn (trace : List Event) (fs : FileSystem) (e : Event) : Prop :=
  ∀ path n, .openExclusive path (.created n) ∈ trace → fs.entry path = some n → e ≠ .unlink path false

/-- No file the call has created is left under its temporary name. -/
def LeavesNothing (trace : List Event) (fs : FileSystem) : Prop :=
  ∀ temp n, .openExclusive temp (.created n) ∈ trace → fs.entry temp ≠ some n

section Runs

variable {call : PathCall} {trace done : List Event} {fs₀ fs : FileSystem} {ψ : Phase}

/-- As long as removals succeed, no name is stuck. -/
lemma exists_unstuck (haccepts : phaseAfter call trace = some ψ)
    (h : Running (UnlinksOwn trace) trace fs₀ fs done) :
    ∃ φ, phaseAfter call done = some φ ∧ φ.Holds call fs ∧ φ.Unstuck := by
  -- That the file was created is what makes it the call's own.
  have hinv : ∃ φ, phaseAfter call done = some φ ∧ φ.Holds call fs ∧ φ.Unstuck ∧
      ∀ temp file stage, φ = .owning temp file stage → .openExclusive temp (.created file) ∈ trace := by
    apply exists_phase_of_running (I := fun fs φ => φ.Holds call fs ∧ φ.Unstuck ∧
      ∀ temp file stage, φ = .owning temp file stage →
        .openExclusive temp (.created file) ∈ trace) _ haccepts _ _ h
    · refine ⟨trivial, trivial, fun temp file stage hφ => ?_⟩
      cases hφ
    · intro fs φ e χ hinv hpossible hadmits hmem hstep
      obtain ⟨hholds, hunstuck, hcreated⟩ := hinv
      refine ⟨hholds.step hpossible hstep, hunstuck.step hstep ?_, ?_⟩
      · intro temp file stage hφ hnamed
        subst hφ
        exact hadmits temp file (hcreated temp file stage rfl) (hholds.named.mpr hnamed)
      · intro temp file stage hχ
        cases hstep with
        | created temp' n htemp =>
          cases hχ
          exact hmem
        | checked | unchecked | taken | failed => cases hχ
        | owning temp' file' hstage =>
          cases hχ
          exact hcreated temp file _ rfl
    · intro fs fs' φ hinv hcreates
      exact ⟨hinv.1.of_creates hcreates, hinv.2⟩
  obtain ⟨φ, hφ, hholds, hunstuck, -⟩ := hinv
  exact ⟨φ, hφ, hholds, hunstuck⟩

end Runs

/-- A name that is neither to be removed nor stuck is removed. -/
lemma eq_removed {name : TempName} (hpending : name ≠ .pending) (hstuck : name ≠ .stuck) :
    name = .removed := by
  cases name with
  | pending => exact absurd rfl hpending
  | stuck => exact absurd rfl hstuck
  | removed => rfl

/-- **Which calls leave a temporary file**: when a call has ended, the file it created is gone if and
only if no `fdopen` failed. -/
theorem leavesNothing_iff (call : PathCall) (ssl : Openssl) (kernel : Kernel) (lib : Lib)
    (fs₀ fs : FileSystem)
    (hrun : Running (UnlinksOwn (call.trace ssl kernel lib)) (call.trace ssl kernel lib) fs₀ fs
      (call.trace ssl kernel lib)) :
    LeavesNothing (call.trace ssl kernel lib) fs ↔
      ∀ n, .fdopen n false ∉ call.trace ssl kernel lib := by
  obtain ⟨φ, haccepts, hend⟩ := call.exists_endsIn ssl kernel lib bodyFills_any
  obtain ⟨φ', hφ', hholds, hunstuck⟩ := exists_unstuck haccepts hrun
  obtain rfl : φ' = φ := Option.some.inj (hφ'.symm.trans haccepts)
  generalize call.thrown ssl kernel lib = thrown at hend
  simp only [LeavesNothing, created_mem_iff haccepts, ← orphaned_iff_fdopen haccepts]
  cases hend with
  -- No file was created.
  | checking | searching | ended => simp [Phase.Orphaned]
  -- `fdopen` has failed, and nobody removes the name.
  | orphaned temp file =>
    have howns : Owns call temp file .orphaned fs := hholds
    have hnamed : fs.entry temp = some file := howns.named.mpr trivial
    simp [Phase.Orphaned, hnamed]
  -- The clean-up has tried to remove the name, and it could.
  | discarded temp file refused name hname =>
    have howns : Owns call temp file (.discarded refused name) fs := hholds
    have hentry : fs.entry temp ≠ some file := by
      rw [Ne, howns.named]
      exact not_not.mpr (eq_removed hname hunstuck)
    simpa [Phase.Orphaned] using hentry
  | linked temp file draft hdraft name hname durable =>
    have howns : Owns call temp file (.linked draft name durable) fs := hholds
    have hentry : fs.entry temp ≠ some file := by
      rw [Ne, howns.named]
      exact not_not.mpr (eq_removed hname hunstuck)
    simpa [Phase.Orphaned] using hentry

/-! ## A call that cannot open its input -/

/-- What the call does, after `fdopen` succeeded or failed. -/
def sampleTrace (temp : Path) : Bool → List Event
  | true => [.status [0x6f] (some false), .openExclusive temp (.created 0), .fdopen 0 true,
    .openInput [0x69] none, .fclose 0 true 0, .unlink temp true]
  | false => [.status [0x6f] (some false), .openExclusive temp (.created 0), .fdopen 0 false,
    .closeDescriptor 0]

lemma outcome_openSample (ok : Bool) : Outcome (openSample.body standardLibrary (withoutInput ok))
    (PathCall.initial (withoutInput ok) {}) (fun _ _ => False)
    (fun _ w => ∃ temp, IsTempPath [0x6f] temp ∧ w.output.trace = sampleTrace temp ok) := by
  have hstatus : ∀ t path, (withoutInput ok).status t path = some false := fun _ _ => rfl
  have hcreate : ∀ t path, (withoutInput ok).openExclusive t path = .created 0 := fun _ _ => rfl
  have hfdopen : ∀ t n, (withoutInput ok).fdopen t n = ok := fun _ _ => rfl
  have hinput : ∀ t path, (withoutInput ok).openInput t path = none := fun _ _ => rfl
  unfold PathCall.body openSample openFileAt openPath ensureOutputDoesNotExist
  simp only [outcome_bind, outcome_onOutput, outcome_sys, outcome_throwIf, hstatus,
    outcome_orThrow_some]
  refine ⟨fun hexists => absurd hexists Bool.false_ne_true, fun _ => ?_⟩
  rw [throughTempFile, outcome_bind, openUniqueTempOutput, openUniqueTempLoop, outcome_bind,
    outcome_onLib, makeUniqueTempPath, outcome_bind]
  apply outcome_randomBytes
  · intro token lib'
    have htemp := isTempPath_tempSuffix [0x6f] token
    simp only [outcome_pure, outcome_bind, outcome_onOutput, tryOpenOutputExclusive, outcome_sys,
      hcreate, hfdopen, outcome_ite, outcome_throw]
    refine ⟨fun hfailed => ?_, fun hopened => ?_⟩
    · rw [hfailed]
      exact ⟨_, htemp, rfl⟩
    · rw [Bool.not_eq_false] at hopened
      subst hopened
      simp only [assign, closeQuietly, openInput, cleanUp, removeQuietly, outcome_bind, outcome_get,
        outcome_pure, outcome_modify, outcome_tryCatch, outcome_onOutput, outcome_sys, hinput,
        outcome_orThrow_none, outcome_throw]
      exact ⟨_, htemp, rfl⟩
  · intro hunavailable
    exact absurd (standardLibrary_available 0) hunavailable

lemma exists_trace_openSample (ok : Bool) : ∃ temp, IsTempPath [0x6f] temp ∧
    openSample.trace standardLibrary (withoutInput ok) {} = sampleTrace temp ok := by
  unfold PathCall.trace PathCall.result
  cases hresult : openSample.body standardLibrary (withoutInput ok)
      (PathCall.initial (withoutInput ok) {}) with
  | ok a w => exact ((outcome_openSample ok).of_ok hresult).elim
  | error error w => exact (outcome_openSample ok).of_error hresult

/-- The call runs to its end on a file system without files. -/
lemma running_sample {trace : List Event} {temp : Path} {ok : Bool}
    (htrace : trace = sampleTrace temp ok) :
    Running (UnlinksOwn trace) trace noFiles
      (trace.foldl FileSystem.after noFiles) trace := by
  have hadmits : ∀ fs {e : Event}, (∀ path, e ≠ .unlink path false) → UnlinksOwn trace fs e := by
    intro fs e hne path _ _ _
    exact hne path
  have hstart : Running (UnlinksOwn trace) trace noFiles noFiles [] := running_start
  have hfresh : noFiles.Fresh 0 := ⟨rfl, rfl, fun _ => (Option.some_ne_none 0).symm⟩
  cases ok with
  | true =>
    subst htrace
    exact (((((hstart.step ⟨_, rfl⟩ rfl (hadmits _ (by simp))).step ⟨_, rfl⟩ ⟨rfl, hfresh⟩
      (hadmits _ (by simp))).step ⟨_, rfl⟩ trivial (hadmits _ (by simp))).step ⟨_, rfl⟩ trivial
      (hadmits _ (by simp))).step ⟨_, rfl⟩ trivial (hadmits _ (by simp))).step ⟨[], rfl⟩ trivial
      (hadmits _ (by simp))
  | false =>
    subst htrace
    exact (((hstart.step ⟨_, rfl⟩ rfl (hadmits _ (by simp))).step ⟨_, rfl⟩ ⟨rfl, hfresh⟩
      (hadmits _ (by simp))).step ⟨_, rfl⟩ trivial (hadmits _ (by simp))).step ⟨[], rfl⟩ trivial
      (hadmits _ (by simp))

/-- Where `fdopen` succeeds, nothing is left. -/
theorem leavesNothing_iff_sample :
    LeavesNothing (openSample.trace standardLibrary (withoutInput true) {})
      ((openSample.trace standardLibrary (withoutInput true) {}).foldl FileSystem.after noFiles) := by
  obtain ⟨temp, -, htrace⟩ := exists_trace_openSample true
  rw [leavesNothing_iff openSample standardLibrary (withoutInput true) {} noFiles _
    (running_sample htrace), htrace]
  simp [sampleTrace]

/-- Where it fails, the temporary file is left. -/
theorem temporaryFile_left :
    ∃ temp fs, IsTempPath [0x6f] temp ∧ fs.entry temp = some 0 ∧
      Running (UnlinksOwn (openSample.trace standardLibrary (withoutInput false) {}))
        (openSample.trace standardLibrary (withoutInput false) {}) noFiles fs
        (openSample.trace standardLibrary (withoutInput false) {}) ∧
      ¬ LeavesNothing (openSample.trace standardLibrary (withoutInput false) {}) fs := by
  obtain ⟨temp, htemp, htrace⟩ := exists_trace_openSample false
  have hcreated : .openExclusive temp (.created 0) ∈
      openSample.trace standardLibrary (withoutInput false) {} := by
    rw [htrace]
    simp [sampleTrace]
  have hleft : ((openSample.trace standardLibrary (withoutInput false) {}).foldl FileSystem.after
      noFiles).entry temp = some 0 := by
    rw [htrace]
    simp [sampleTrace, FileSystem.after, FileSystem.create, FileSystem.attach]
  refine ⟨temp, _, htemp, hleft, running_sample htrace, fun hnothing => ?_⟩
  exact hnothing temp 0 hcreated hleft

end SecureKit.File
