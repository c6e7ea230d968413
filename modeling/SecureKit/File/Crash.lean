import SecureKit.Base.Durability
import SecureKit.File.Concurrent

/-!
# The output after a crash

`flush_parent_directory` and the `fsync` in `OutputFile::flush` are there for the case that the
system goes down.  This file says what they achieve, on the promise of POSIX alone
(`SecureKit.Base.Durability`), for calls that run beside each other and beside processes that create
files.

A crash can come at any time.  Whatever it leaves under the output path of a call is never a part of
the result of that call (`CrashSafe.complete`): the file is synced before it is linked, and nobody
touches it from then on.  A call that has returned is not undone (`CrashSafe.durable`), as the
directory is synced behind the link.

`Separated` is what is needed to know of the other calls.  It holds of a single call in every run
(`separated_single`) and of any number of calls when the calls on the directories succeed
(`separated_together`).

## The disk

A `Disk` is what the system may find when it comes up again.  A write takes the contents of a file
off the disk until the next `fsync` of the file, and a name may refer to any of its older values
until its directory is synced.

## The argument

`OnDisk` says what the phase of a call means for the disk: from its `fsync` on the file is there,
and from the sync of the directory on the output refers to the file and the temporary name does
not.  `OnDisk.step` keeps it along the steps of the call itself.  The steps of the others come in
by `exists_onDisk`, and what they have to respect is listed in `Separated`.

`paths_keepDurable` looks at the files that were there before.  What has one durable entry under a
name (`Durably`) keeps it, as no call writes to a file that it did not create or unlinks a name
that is not its own.

The witnesses run calls that return: `path_crashSafe_sample` runs one to its end, and in
`paths_crashSafe_sample` and `paths_keepDurable_sample` a second call is refused at its link by the
first one.
-/

namespace SecureKit.File

open ByteString Effect Iostream Evp Posix

/-! ## The directory of the output -/

/-- The temporary file lies in the directory of the output. -/
lemma IsTempPath.parentPath_eq {output path : Path} (h : IsTempPath output path) :
    parentPath path = parentPath output := by
  obtain ⟨hpath, -, hhex⟩ := h
  generalize (path.drop (output.length + 11)).take 32 = hex at hpath hhex
  let inName : UInt8 → Bool := fun b => decide (b ≠ 0x2f)
  have hfront : (bytesFromLiteral ".securekit.").all inName = true := by decide
  have hback : (bytesFromLiteral ".tmp").all inName = true := by decide
  have hdigits : hexDigits.all inName = true := by decide
  have hslash : ∀ b ∈ (bytesFromLiteral ".securekit." ++ hex ++ bytesFromLiteral ".tmp").reverse,
      inName b = true := by
    intro b hb
    rw [List.mem_reverse, List.mem_append, List.mem_append] at hb
    rcases hb with (hmem | hmem) | hmem
    · exact List.all_eq_true.mp hfront b hmem
    · exact List.all_eq_true.mp hdigits b (hhex b hmem)
    · exact List.all_eq_true.mp hback b hmem
  have hdrop : path.reverse.dropWhile inName = output.reverse.dropWhile inName := by
    rw [hpath, List.reverse_append, List.dropWhile_append_of_pos hslash]
  unfold parentPath
  simp only [inName] at hdrop
  simp only [hdrop]

/-! ## The end of a call that returns -/

/-- What `commit_temp_file` does when nothing fails. -/
def commitEvents (temp output : Path) (ok : Bool) : List Event :=
  [.link temp output .linked, .unlink temp ok, .openDirectory (parentPath output) true,
    .syncDirectory true, .closeDirectory true]

/-- The trace ends with a commit. -/
def EndsWithCommit (output : Path) (trace : List Event) : Prop :=
  ∃ before temp ok, trace = before ++ commitEvents temp output ok

section Returns

variable {kernel : Kernel} {ssl : Openssl} {input output temp : Path} {p : Process kernel}
  {w : World (Process kernel)} {call : PathCall}

lemma outcome_commitTempFile_trace :
    Outcome (commitTempFile temp output) p (fun _ p' => EndsWithCommit output p'.trace)
      fun _ _ => True := by
  simp only [commitTempFile, outcome_bind, outcome_sys]
  cases kernel.link p.trace.length temp output with
  | already_exists | failed => trivial
  | linked =>
    simp only [removeQuietly, flushParentDirectory, outcome_bind, outcome_sys, outcome_pure,
      outcome_throwIf, outcome_ite, outcome_throw, implies_true, true_and, Bool.not_eq_false]
    intro hopened hsynced hclosed
    refine ⟨p.trace, temp, kernel.unlink (p.record (.link temp output .linked)).trace.length temp, ?_⟩
    rw [hclosed, hsynced, hopened]
    simp [Process.record, commitEvents]

lemma outcome_throughTempFile_trace {body : Eff (World (Process kernel)) Unit} :
    Outcome (throughTempFile ssl input output body) w
      (fun _ w' => EndsWithCommit output w'.output.trace) (fun _ _ => True) := by
  apply outcome_bind_of_forall
  intro _ w₁
  rw [outcome_bind, outcome_get, outcome_tryCatch]
  have htry : Outcome (do
      openInput input
      body
      onOutput flushFile
      onOutput closeFile
      onOutput (commitTempFile w₁.output.out.path output)) w₁
      (fun _ w' => EndsWithCommit output w'.output.trace) fun _ _ => True := by
    apply outcome_bind_of_forall; intro _ w₂
    apply outcome_bind_of_forall; intro _ w₃
    apply outcome_bind_of_forall; intro _ w₄
    apply outcome_bind_of_forall; intro _ w₅
    rw [outcome_onOutput]
    exact outcome_commitTempFile_trace
  apply htry.mono
  · intro _ w' hends
    exact hends
  · intro error w' _
    simp only [cleanUp, outcome_onOutput, outcome_bind, outcome_throw]
    apply outcome_intro
    · intro _ _ _
      apply outcome_intro
      · intro _ _ _
        trivial
      · intro _ _ _
        trivial
    · intro _ _ _
      trivial

lemma outcome_body_trace :
    Outcome (call.body ssl kernel) w (fun _ w' => EndsWithCommit call.output w'.output.trace)
      fun _ _ => True := by
  obtain ⟨operation, input, output, aad⟩ := call
  -- Whatever comes before the temporary file, the trace ends with that of `commit`.
  have hseal : ∀ (format : FileFormat) (w : World (Process kernel)),
      Outcome (sealPath ssl format input output aad) w
        (fun _ w' => EndsWithCommit output w'.output.trace) fun _ _ => True := by
    intro format w
    apply outcome_bind_of_forall; intro _ w₁
    apply outcome_bind_of_forall; intro header w₂
    apply outcome_bind_of_forall; intro fileKey w₃
    exact outcome_throughTempFile_trace
  have hopen : ∀ (format : FileFormat) (w : World (Process kernel)),
      Outcome (openPath ssl format input output aad) w
        (fun _ w' => EndsWithCommit output w'.output.trace) fun _ _ => True := by
    intro format w
    apply outcome_bind_of_forall; intro _ w₁
    exact outcome_throughTempFile_trace
  unfold PathCall.body
  cases operation with
  | seal_file key => exact hseal _ w
  | open_file key => exact hopen _ w
  | seal_file_with_password password =>
    apply outcome_bind_of_forall
    intro _ w₁
    exact hseal _ w₁
  | open_file_with_password password =>
    apply outcome_bind_of_forall
    intro _ w₁
    exact hopen _ w₁

/-- **A call that returns has synced the directory** behind its link. -/
theorem PathCall.endsWithCommit (call : PathCall) (ssl : Openssl) (kernel : Kernel) (lib : Lib)
    (h : call.thrown ssl kernel lib = none) :
    EndsWithCommit call.output (call.trace ssl kernel lib) := by
  unfold PathCall.thrown at h
  unfold PathCall.trace
  cases hresult : call.result ssl kernel lib with
  | ok a w => exact outcome_body_trace.of_ok hresult
  | error error w =>
    rw [hresult] at h
    cases h

end Returns

/-! ## What a phase says about the disk -/

/-- The file is written and synced. -/
def Phase.Finished : Phase → Prop
  | .owning _ _ (.synced _) | .owning _ _ (.closed _) | .owning _ _ (.linked _ _ _) => True
  | _ => False

/-- The temporary name was removed. -/
def Phase.Removed : Phase → Prop
  | .owning _ _ (.discarded _ name) | .owning _ _ (.linked _ name _) => name = .removed
  | _ => False

/-- What is known of the disk when a call has made the system calls `done`. -/
structure OnDisk (call : PathCall) (disk : Disk) (done : List Event) (φ : Phase) : Prop where
  /-- The file is synced before it is linked. -/
  synced : ∀ n, φ.Owning n → φ.Finished → n ∈ disk.synced
  /-- No crash brings back a link that was not made. -/
  output : ∀ n, φ.Owning n → some n ∈ disk.entries call.output → φ.Committed
  /-- Once the directory is synced behind the link, no crash takes the output away. -/
  settled : ∀ n temp x, φ.Owning n →
    SyncedBehind (parentPath call.output) (.link temp call.output .linked) done →
    x ∈ disk.entries call.output → x = some n
  /-- Nor does one bring back a temporary name that was removed before. -/
  removed : ∀ n temp, φ.Owning n → .openExclusive temp (.created n) ∈ done →
    SyncedBehind (parentPath call.output) (.unlink temp true) done → some n ∉ disk.entries temp

section OnDisk

variable {call : PathCall} {disk disk' : Disk} {done : List Event} {φ ψ : Phase}
  {fs fs' : FileSystem} {e : Event} {n : ℕ} {temp : Path}

lemma Phase.Removed.step (h : φ.Removed) (hstep : Phase.Step call φ e ψ) : ψ.Removed := by
  cases hstep with
  | checked | unchecked | created | taken | failed => exact h.elim
  | owning temp file hstage =>
    cases hstage with
    | drop refused ok =>
      have hfalse : TempName.pending = .removed := h
      cases hfalse
    | remove draft name durable ok hname =>
      obtain rfl : name = .removed := h
      exact rfl
    | directory => exact h
    | opened | orphaned | closeDescriptor | openInput | written | unwritten | flushed | unflushed
    | synced | unsynced | closed | unclosed | abandon | giveUp | linked | refused | unlinkable =>
      exact h.elim

/-- A removal that succeeds. -/
lemma removed_of_unlink (h : phaseAfter call done = some φ) (hmem : .unlink temp true ∈ done) :
    φ.Removed := by
  induction done using List.reverseRecOn generalizing φ with
  | nil => cases hmem
  | append_singleton done e ih =>
    obtain ⟨χ, hχ, hnext⟩ := foldlM_concat_iff.mp h
    have hstep := Phase.step_of_next hnext
    rcases List.mem_append.mp hmem with hbefore | hlast
    · exact (ih hχ hbefore).step hstep
    · obtain rfl := List.mem_singleton.mp hlast
      cases hstep with
      | owning temp' file hstage =>
        cases hstage with
        | drop refused _ => exact rfl
        | remove draft name durable _ hname =>
          cases name <;> exact rfl
        | directory _ _ _ _ _ hcall => cases hcall

/-- The temporary name does not refer to the file any more. -/
lemma Phase.Holds.entry_ne_of_removed (h : φ.Holds call fs) (hφ : phaseAfter call done = some φ)
    (hcreated : .openExclusive temp (.created n) ∈ done) (hremoved : φ.Removed) :
    fs.entry temp ≠ some n := by
  obtain ⟨stage, rfl⟩ := (created_mem_iff hφ temp n).mp hcreated
  have howns : Owns call temp n stage fs := h
  intro hentry
  have hnamed := howns.named.mp hentry
  cases stage with
  | created | orphaned | writing | broken | flushed | synced | closed => exact hremoved
  | discarded refused name => exact hnamed hremoved
  | linked draft name durable => exact hnamed hremoved

/-- A file that is not just created is the same before a step. -/
lemma Phase.Owning.of_step_of_ne (h : ψ.Owning n) (hstep : Phase.Step call φ e ψ)
    (hne : φ ≠ .searching) : φ.Owning n := by
  cases hstep with
  | checked | unchecked | failed => exact h.elim
  | created | taken => exact absurd rfl hne
  | owning temp file hstage => exact h

/-- A finished file keeps its contents. -/
lemma Phase.Finished.of_step (h : ψ.Finished) (howning : ψ.Owning n)
    (hstep : Phase.Step call φ e ψ) (hholds : φ.Holds call fs)
    (hholds' : ψ.Holds call (fs.after e)) :
    φ.Finished ∧ (fs.after e).contents n = fs.contents n ∨
      e = .fsync n true ∧ ∃ buffered, fs.stream n = some ⟨n, buffered⟩ := by
  cases hstep with
  | checked | unchecked | created | taken | failed => exact h.elim
  | owning temp file hstage =>
    obtain rfl : file = n := howning
    have hdata := Owns.data hholds
    have hdata' := Owns.data hholds'
    cases hstage with
    | synced draft => exact .inr ⟨rfl, [], hdata.2⟩
    | closed draft | linked draft => exact .inl ⟨trivial, hdata'.1.trans hdata.1.symm⟩
    | remove draft | directory draft => exact .inl ⟨trivial, hdata'.1.trans hdata.1.symm⟩
    | opened | orphaned | closeDescriptor | openInput | written | unwritten | flushed | unflushed
    | unsynced | unclosed | abandon | giveUp | refused | unlinkable | drop => exact h.elim

lemma onDisk_checking (call : PathCall) (disk : Disk) : OnDisk call disk [] .checking := by
  constructor
  · intro n hfalse
    exact hfalse.elim
  · intro n hfalse
    exact hfalse.elim
  · intro n temp x hfalse
    exact hfalse.elim
  · intro n temp hfalse
    exact hfalse.elim

/-- Whoever does not touch the file takes nothing from the disk. -/
lemma OnDisk.of_same (h : OnDisk call disk done φ) (hφ : phaseAfter call done = some φ)
    (hholds : φ.Holds call fs) (hfollows : Disk.Follows disk fs disk' fs')
    (hsame : ∀ n, φ.Owning n → FileSystem.Same n fs fs') : OnDisk call disk' done φ := by
  constructor
  · intro n howning hfinished
    exact hfollows.synced n (h.synced n howning hfinished) (hsame n howning).contents
  · intro n howning hmem
    rcases hfollows.entries _ _ hmem with hbefore | hnow
    · exact h.output n howning hbefore
    · exact (hholds.committed_iff howning).mp (((hsame n howning).entry_iff _).mp hnow)
  · intro n temp x howning hsynced hmem
    rcases hfollows.entries _ _ hmem with hbefore | hnow
    · exact h.settled n temp x howning hsynced hbefore
    · have hcommitted := (committed_iff_link hφ).mpr ⟨temp, hsynced.mem⟩
      have hentry := ((hsame n howning).entry_iff _).mpr ((hholds.committed_iff howning).mpr hcommitted)
      exact hnow.symm.trans hentry
  · intro n temp howning hcreated hsynced hmem
    rcases hfollows.entries _ _ hmem with hbefore | hnow
    · exact h.removed n temp howning hcreated hsynced hbefore
    · have hremoved := removed_of_unlink hφ hsynced.mem
      exact hholds.entry_ne_of_removed hφ hcreated hremoved (((hsame n howning).entry_iff _).mp hnow)

/-- What a name in the directory of the output can refer to behind a step of the call. -/
lemma entry_of_syncedBehind {x : Option ℕ} {path : Path}
    (hsynced : SyncedBehind (parentPath call.output) event (done ++ [e]))
    (hparent : parentPath path = parentPath call.output)
    (hfollows : Disk.Follows disk fs (disk.after parentPath (openedDirectory done) fs e) (fs.after e))
    (hmem : x ∈ (disk.after parentPath (openedDirectory done) fs e).entries path) :
    SyncedBehind (parentPath call.output) event done ∧ x ∈ disk.entries path ∨
      (fs.after e).entry path = x := by
  rcases hsynced.of_concat with hbefore | ⟨rfl, -, hdirectory⟩
  · exact (hfollows.entries path x hmem).imp_left fun hx => ⟨hbefore, hx⟩
  · right
    exact Disk.entry_of_mem_sync (hdirectory.trans (congrArg some hparent.symm)) hmem

/-- **The steps of a call** keep what its phase says about the disk. -/
theorem OnDisk.step (h : OnDisk call disk done φ) (hφ : phaseAfter call done = some φ)
    (hψ : phaseAfter call (done ++ [e]) = some ψ) (hholds : φ.Holds call fs)
    (hpossible : fs.Possible e) (hstep : Phase.Step call φ e ψ) (hknows : disk.Knows fs) :
    OnDisk call (disk.after parentPath (openedDirectory done) fs e) (done ++ [e]) ψ := by
  have hfollows := Disk.follows_after hknows parentPath (openedDirectory done) e
  have hholds' := hholds.step hpossible hstep
  -- What has just been created was not known to the disk.
  have howner : ∀ {n path}, ψ.Owning n → some n ∈ disk.entries path → φ.Owning n := by
    intro n path howning hmem
    rcases howning.of_step hstep with hbefore | ⟨temp, rfl⟩
    · exact hbefore
    · exact absurd hpossible.2.contents (hknows.contents_ne_none path n hmem)
  constructor
  · intro n howning hfinished
    rcases hfinished.of_step howning hstep hholds hholds' with ⟨hbefore, hcontents⟩ | ⟨rfl, b, hstream⟩
    · have hne : φ ≠ .searching := by
        rintro rfl
        exact hbefore
      exact hfollows.synced n (h.synced n (howning.of_step_of_ne hstep hne) hbefore) hcontents
    · exact Disk.mem_synced_fsync hstream rfl
  · intro n howning hmem
    rcases hfollows.entries _ _ hmem with hbefore | hnow
    · exact (h.output n (howner howning hbefore) hbefore).step hstep
    · exact (hholds'.committed_iff howning).mp hnow
  · intro n temp x howning hsynced hmem
    rcases entry_of_syncedBehind hsynced rfl hfollows hmem with ⟨hbefore, hx⟩ | hnow
    · have hcommitted : φ.Committed := (committed_iff_link hφ).mpr ⟨temp, hbefore.mem⟩
      have hne : φ ≠ .searching := by
        rintro rfl
        exact hcommitted
      exact h.settled n temp x (howning.of_step_of_ne hstep hne) hbefore hx
    · have hcommitted : ψ.Committed := (committed_iff_link hψ).mpr ⟨temp, hsynced.mem⟩
      exact hnow.symm.trans ((hholds'.committed_iff howning).mpr hcommitted)
  · intro n temp howning hcreated hsynced hmem
    have hparent := (isTempPath_of_created hψ hcreated).parentPath_eq
    rcases entry_of_syncedBehind hsynced hparent hfollows hmem with ⟨hbefore, hx⟩ | hnow
    · have hremoved := removed_of_unlink hφ hbefore.mem
      have hcreated' : .openExclusive temp (.created n) ∈ done := by
        rcases List.mem_append.mp hcreated with hmem' | hlast
        · exact hmem'
        · obtain rfl := List.mem_singleton.mp hlast
          exact absurd hpossible.2.contents (hknows.contents_ne_none temp n hx)
      have hne : φ ≠ .searching := by
        rintro rfl
        exact hremoved
      exact h.removed n temp (howning.of_step_of_ne hstep hne) hcreated' hbefore hx
    · have hremoved := removed_of_unlink hψ hsynced.mem
      exact hholds'.entry_ne_of_removed hψ hcreated hremoved hnow

end OnDisk

/-! ## Calls beside each other -/

/-- What the callers know of each other is kept by every step, and none touches the file of another
one. -/
structure Separated {ι : Type} [DecidableEq ι] (callers : ι → Caller)
    (admits : FileSystem → Event → Prop) (T : FileSystem → (ι → Phase) → Prop) : Prop where
  start : ∀ fs, T fs fun _ => .checking
  step : ∀ {fs s i e ψ}, T fs s → fs.Possible e → admits fs e →
    Phase.Step (callers i).call (s i) e ψ → T (fs.after e) (Function.update s i ψ)
  creates : ∀ {fs fs' s}, T fs s → fs.Creates fs' → T fs' s
  holds : ∀ {fs s}, T fs s → ∀ i, (s i).Holds (callers i).call fs
  untouched : ∀ {fs s i j e ψ n}, T fs s → Phase.Step (callers i).call (s i) e ψ → j ≠ i →
    (s j).Owning n → ¬ fs.Touches e n

section Callers

variable {ι : Type} [DecidableEq ι] {callers : ι → Caller} {fs₀ fs : FileSystem} {disk₀ disk : Disk}
  {done : ι → List Event} {admits : FileSystem → Event → Prop} {T : FileSystem → (ι → Phase) → Prop}

/-- A single call has nobody to be separated from. -/
lemma separated_single [Subsingleton ι] (callers : ι → Caller) :
    Separated callers (fun _ _ => True) fun fs s => ∀ i, (s i).Holds (callers i).call fs := by
  constructor
  · intro fs i
    trivial
  · intro fs s i e ψ hholds hpossible _ hstep j
    obtain rfl := Subsingleton.elim j i
    rw [Function.update_self]
    exact (hholds j).step hpossible hstep
  · intro fs fs' s hholds hcreates i
    exact (hholds i).of_creates hcreates
  · intro fs s hholds
    exact hholds
  · intro fs s i j e ψ n _ _ hne
    exact absurd (Subsingleton.elim j i) hne

/-- Any number of calls are separated where the calls on the directories succeed. -/
lemma separated_together (callers : ι → Caller) :
    Separated callers Dependable (Together callers) := by
  constructor
  · intro fs
    exact ⟨fun _ => trivial, fun _ => id, fun _ _ _ hfalse => hfalse.elim⟩
  · intro fs s i e ψ htogether hpossible hdependable hstep
    exact htogether.step hpossible hdependable hstep
  · intro fs fs' s htogether hcreates
    exact ⟨fun i => (htogether.holds i).of_creates hcreates, htogether.durable, htogether.distinct⟩
  · intro fs s htogether
    exact htogether.holds
  · intro fs s i j e ψ n htogether hstep hne howning htouches
    exact hne (htogether.distinct j i n howning
      ((htogether.holds i).touches hstep (htogether.durable i) htouches))

/-- **In every execution** the phases say what is known of the disk. -/
theorem exists_onDisk (hT : Separated callers admits T) (hknows : disk₀.Knows fs₀)
    (h : DiskExecution parentPath admits (fun i => (callers i).trace) fs₀ disk₀ fs disk done) :
    ∃ s, T fs s ∧ ∀ i, phaseAfter (callers i).call (done i) = some (s i) ∧
      OnDisk (callers i).call disk (done i) (s i) := by
  induction h with
  | start => exact ⟨_, hT.start fs₀, fun i => ⟨rfl, onDisk_checking (callers i).call disk₀⟩⟩
  | @call fs disk done i e hrun hnext hpossible hadmits ih =>
    obtain ⟨s, hs, hphases⟩ := ih
    have hknown := hrun.knows hknows
    obtain ⟨final, haccepts, -⟩ := (callers i).call.exists_endsIn (callers i).ssl (callers i).kernel
      (callers i).lib bodyFills_any
    obtain ⟨ψ, hψ, hstep⟩ := exists_next_phase haccepts (hphases i).1 hnext
    refine ⟨Function.update s i ψ, hT.step hs hpossible hadmits hstep, fun j => ?_⟩
    by_cases hj : j = i
    · -- The caller that has made the step.
      subst hj
      rw [Function.update_self, Function.update_self]
      exact ⟨hψ, (hphases j).2.step (hphases j).1 hψ (hT.holds hs j) hpossible hstep hknown⟩
    · -- The others, whose files the step has not touched.
      rw [Function.update_of_ne hj, Function.update_of_ne hj]
      refine ⟨(hphases j).1, (hphases j).2.of_same (hphases j).1 (hT.holds hs j)
        (Disk.follows_after hknown _ _ e) ?_⟩
      intro n howning
      exact FileSystem.frame hpossible (hT.untouched hs hstep hj howning)
        ((hT.holds hs j).contents_ne_none howning)
  -- A file created by another process is none of the callers'.
  | @other fs fs' disk done hrun hcreates ih =>
    obtain ⟨s, hs, hphases⟩ := ih
    refine ⟨s, hT.creates hs hcreates, fun i => ⟨(hphases i).1, ?_⟩⟩
    apply (hphases i).2.of_same (hphases i).1 (hT.holds hs i) (Disk.follows_follow disk fs fs')
    intro n howning
    exact hcreates.same ((hT.holds hs i).contents_ne_none howning)

end Callers

/-! ## Crashes -/

/-- What a crash can do to the results of the calls, at any time in any execution. -/
structure CrashSafe {ι : Type} [DecidableEq ι] (callers : ι → Caller)
    (admits : FileSystem → Event → Prop) (prim : Primitives) (fs₀ : FileSystem) (disk₀ : Disk) :
    Prop where
  /-- If the output of a call refers to the file of that call, this holds the complete result. -/
  complete : ∀ {fs disk done crashed i temp n},
    DiskExecution parentPath admits (fun i => (callers i).trace) fs₀ disk₀ fs disk done →
    disk.Survives fs crashed → .openExclusive temp (.created n) ∈ done i →
    crashed.entry (callers i).call.output = some n → ∃ input bytes,
      crashed.contents n = some bytes ∧
      .openInput (callers i).call.input (some input) ∈ done i ∧
      (callers i).call.Yields prim input bytes
  /-- A call that has returned is not undone: its output is there, and its temporary name is not, if
  that could be removed. -/
  durable : ∀ {fs disk done crashed i},
    DiskExecution parentPath admits (fun i => (callers i).trace) fs₀ disk₀ fs disk done →
    disk.Survives fs crashed → done i = (callers i).trace → (callers i).thrown = none →
    ∃ temp n input bytes, .openExclusive temp (.created n) ∈ (callers i).trace ∧
      crashed.entry (callers i).call.output = some n ∧ crashed.contents n = some bytes ∧
      .openInput (callers i).call.input (some input) ∈ (callers i).trace ∧
      (callers i).call.Yields prim input bytes ∧
      (.unlink temp true ∈ (callers i).trace → crashed.entry temp ≠ some n)

lemma Phase.Committed.finished {φ : Phase} (h : φ.Committed) : φ.Finished := by
  cases φ with
  | checking | searching | ended => exact h
  | owning temp file stage =>
    cases stage with
    | linked => trivial
    | created | orphaned | writing | broken | flushed | synced | closed | discarded => exact h.elim

/-- Behind a commit the directory is synced. -/
lemma EndsWithCommit.syncedBehind {output : Path} {trace : List Event} {e : Event}
    (h : EndsWithCommit output trace) (hmem : e ∈ trace) (hsync : e ≠ .syncDirectory true)
    (hclose : e ≠ .closeDirectory true) : SyncedBehind (parentPath output) e trace := by
  obtain ⟨before, temp, ok, rfl⟩ := h
  refine ⟨before ++ [.link temp output .linked, .unlink temp ok, .openDirectory (parentPath output) true],
    [.closeDirectory true], by simp [commitEvents], ?_, by simp [openedDirectory]⟩
  simpa [commitEvents, hsync, hclose] using hmem

/-- What is left of a committed result is all of it. -/
lemma exists_crashed {prim : Primitives} {c : Caller} {front : List Event} {φ : Phase}
    {fs crashed : FileSystem} {disk : Disk} {n : ℕ} (hs : c.ssl.Sound prim) (hl : prim.gcm.Lengths)
    (hfront : front <+: c.trace) (hφ : phaseAfter c.call front = some φ) (hholds : φ.Holds c.call fs)
    (hdisk : OnDisk c.call disk front φ) (hsurvives : disk.Survives fs crashed)
    (howning : φ.Owning n) (hcommitted : φ.Committed) :
    ∃ input bytes, crashed.contents n = some bytes ∧ .openInput c.call.input (some input) ∈ front ∧
      c.call.Yields prim input bytes := by
  obtain ⟨ψ, haccepts, hend⟩ := c.call.exists_endsIn c.ssl c.kernel c.lib (bodyFills_yields hs hl)
  obtain ⟨file, input, bytes, hentry, hcontents, hinput, hyields⟩ := committed_complete haccepts hend
    hfront hφ hcommitted hholds
  obtain rfl : file = n := by
    rw [(hholds.committed_iff howning).mpr hcommitted] at hentry
    exact (Option.some.inj hentry).symm
  refine ⟨input, bytes, ?_, hinput, hyields⟩
  rw [hsurvives.contents file (hdisk.synced file howning hcommitted.finished), hcontents]

section Crashes

variable {ι : Type} [DecidableEq ι] {callers : ι → Caller} {fs₀ fs : FileSystem} {disk₀ disk : Disk}
  {done : ι → List Event} {admits : FileSystem → Event → Prop} {T : FileSystem → (ι → Phase) → Prop}

theorem crashSafe_of_separated {prim : Primitives} (hT : Separated callers admits T)
    (hs : ∀ i, (callers i).ssl.Sound prim) (hl : prim.gcm.Lengths) (hknows : disk₀.Knows fs₀) :
    CrashSafe callers admits prim fs₀ disk₀ := by
  constructor
  · -- The output refers to the file only if it was linked, and it was synced before.
    intro fs disk done crashed i temp n hrun hsurvives hcreated hentry
    obtain ⟨s, hs', hphases⟩ := exists_onDisk hT hknows hrun
    obtain ⟨hφ, hdisk⟩ := hphases i
    have howning : (s i).Owning n := by
      obtain ⟨stage, hstage⟩ := (created_mem_iff hφ temp n).mp hcreated
      rw [hstage]
      exact rfl
    have hcommitted := hdisk.output n howning (hentry ▸ hsurvives.entry _)
    exact exists_crashed (hs i) hl (hrun.execution.done_prefix i) hφ (hT.holds hs' i) hdisk hsurvives
      howning hcommitted
  · -- The directory was synced behind the link, so the disk has only the new entry.
    intro fs disk done crashed i hrun hsurvives hdone hreturns
    obtain ⟨s, hs', hphases⟩ := exists_onDisk hT hknows hrun
    obtain ⟨hφ, hdisk⟩ := hphases i
    have hcommit := (callers i).call.endsWithCommit (callers i).ssl (callers i).kernel (callers i).lib
      hreturns
    obtain ⟨temp', hlink⟩ : ∃ temp, .link temp (callers i).call.output .linked ∈ (callers i).trace := by
      obtain ⟨before, temp, ok, htrace⟩ := hcommit
      refine ⟨temp, ?_⟩
      rw [Caller.trace, htrace]
      simp [commitEvents]
    have hcommitted : (s i).Committed := (committed_iff_link hφ).mpr ⟨temp', hdone ▸ hlink⟩
    obtain ⟨n, howning, -⟩ := (hT.holds hs' i).exists_output hcommitted
    obtain ⟨temp, hcreated⟩ := howning.exists_created hφ
    obtain ⟨input, bytes, hcontents, hinput, hyields⟩ := exists_crashed (hs i) hl
      (hrun.execution.done_prefix i) hφ (hT.holds hs' i) hdisk hsurvives howning hcommitted
    rw [hdone] at hdisk hcreated hinput
    refine ⟨temp, n, input, bytes, hcreated, ?_, hcontents, hinput, hyields, fun hunlink hentry => ?_⟩
    · exact hdisk.settled n temp' _ howning (hcommit.syncedBehind hlink (by simp) (by simp))
        (hsurvives.entry _)
    · exact hdisk.removed n temp howning hcreated (hcommit.syncedBehind hunlink (by simp) (by simp))
        (hentry ▸ hsurvives.entry _)

/-- **A single call survives every crash**, whatever fails before it. -/
theorem path_crashSafe {prim : Primitives} (c : Caller) (hs : c.ssl.Sound prim)
    (hl : prim.gcm.Lengths) (fs₀ : FileSystem) (disk₀ : Disk) (hknows : disk₀.Knows fs₀) :
    CrashSafe (fun _ : Unit => c) (fun _ _ => True) prim fs₀ disk₀ :=
  crashSafe_of_separated (separated_single _) (fun _ => hs) hl hknows

/-- The disk of a system without files. -/
def emptyDisk : Disk := ⟨∅, fun _ => {none}⟩

lemma emptyDisk_knows : emptyDisk.Knows noFiles := by
  constructor
  · intro path
    exact rfl
  · intro path n hmem
    cases hmem

/-- A call that returns, and what is left of its result. -/
theorem path_crashSafe_sample : ∃ fs disk,
    DiskExecution parentPath (fun _ _ => True) (fun _ : Unit => (rival 0).trace) noFiles emptyDisk fs
      disk (fun _ => (rival 0).trace) ∧
    (∃ crashed, disk.Survives fs crashed) ∧
    ∀ crashed, disk.Survives fs crashed → ∃ n input bytes, crashed.entry [0x6f] = some n ∧
      crashed.contents n = some bytes ∧ sealSample.Yields standard input bytes := by
  obtain ⟨text, hdelivers⟩ := exists_rival_delivers
  have hadmits : ∀ fs e, e ∈ (rival 0).trace → Beside (rival 0).call 1 noFiles fs → Dependable fs e →
      (fun _ _ => True) fs e := by
    intro _ _ _ _ _
    trivial
  obtain ⟨fs, hrun, -, -⟩ := (hdelivers 0).exists_complete (noFiles_fresh 1) (unused_noFiles _) hadmits
  obtain ⟨disk, hdisk⟩ := hrun.running.exists_disk parentPath emptyDisk
  have hsafe := path_crashSafe (rival 0) standardLibrary_sound standard_lengths noFiles emptyDisk
    emptyDisk_knows
  refine ⟨fs, disk, hdisk, ⟨_, (hdisk.knows emptyDisk_knows).survives⟩, fun crashed hsurvives => ?_⟩
  obtain ⟨temp, n, input, bytes, -, hentry, hcontents, -, hyields, -⟩ :=
    hsafe.durable (i := ()) hdisk hsurvives rfl (hdelivers 0).exists_linked.1
  exact ⟨n, input, bytes, hentry, hcontents, hyields⟩

/-- **Calls that run at the same time survive every crash.** -/
theorem paths_crashSafe {prim : Primitives} (callers : ι → Caller)
    (hs : ∀ i, (callers i).ssl.Sound prim) (hl : prim.gcm.Lengths) (fs₀ : FileSystem) (disk₀ : Disk)
    (hknows : disk₀.Knows fs₀) : CrashSafe callers Dependable prim fs₀ disk₀ :=
  crashSafe_of_separated (separated_together callers) hs hl hknows

/-- Two calls with the same output, and what is left of the result of the first. -/
theorem paths_crashSafe_sample : ∃ fs disk done,
    DiskExecution parentPath Dependable (fun i => (rival i).trace) noFiles emptyDisk fs disk done ∧
    done 0 = (rival 0).trace ∧ done 1 = (rival 1).trace ∧
    (∃ crashed, disk.Survives fs crashed) ∧
    ∀ crashed, disk.Survives fs crashed → ∃ n input bytes, crashed.entry [0x6f] = some n ∧
      crashed.contents n = some bytes ∧ sealSample.Yields standard input bytes := by
  obtain ⟨text, hdelivers⟩ := exists_rival_delivers
  have hconflict := exists_conflict (i := 0) (j := 1) zero_ne_one (by decide) rfl (hdelivers 0)
    (hdelivers 1) (unused_noFiles _) (noFiles_fresh 1) (noFiles_fresh 2)
  obtain ⟨fs, done, -, hrun, hfirst, hsecond, -⟩ := hconflict
  obtain ⟨disk, hdisk⟩ := hrun.exists_disk parentPath emptyDisk
  have hsafe := paths_crashSafe rival (fun _ => standardLibrary_sound) standard_lengths noFiles
    emptyDisk emptyDisk_knows
  refine ⟨fs, disk, done, hdisk, hfirst, hsecond, ⟨_, (hdisk.knows emptyDisk_knows).survives⟩,
    fun crashed hsurvives => ?_⟩
  obtain ⟨temp, n, input, bytes, -, hentry, hcontents, -, hyields, -⟩ :=
    hsafe.durable hdisk hsurvives hfirst (hdelivers 0).exists_linked.1
  exact ⟨n, input, bytes, hentry, hcontents, hyields⟩

/-- A name that durably refers to one file: no caller owns the file, and the disk has no other entry for
the name. -/
structure Durably {ι : Type} (callers : ι → Caller) (path : Path) (file : ℕ) (fs₀ fs : FileSystem)
    (disk : Disk) (done : ι → List Event) (s : ι → Phase) : Prop where
  together : Together callers fs s
  phase : ∀ i, phaseAfter (callers i).call (done i) = some (s i)
  unowned : ∀ i, ¬ (s i).Owning file
  entry : fs.entry path = some file
  subset : disk.entries path ⊆ {some file}
  synced : file ∈ disk.synced
  contents : fs.contents file = fs₀.contents file

section Durably

variable {ι : Type} [DecidableEq ι] {callers : ι → Caller} {path : Path} {file : ℕ}
  {fs₀ fs fs' : FileSystem} {disk disk₀ : Disk} {done : ι → List Event} {s : ι → Phase}

/-- **A call leaves it so**: it touches the files of its caller only, and a link needs a free name. -/
lemma Durably.call (h : Durably callers path file fs₀ fs disk done s) (hknows : disk.Knows fs)
    {i : ι} {e : Event} (hnext : done i ++ [e] <+: (callers i).trace) (hpossible : fs.Possible e)
    (hadmits : Dependable fs e) :
    ∃ s', Durably callers path file fs₀ (fs.after e)
      (disk.after parentPath (openedDirectory (done i)) fs e)
      (Function.update done i (done i ++ [e])) s' := by
  have hexists := hknows.contents_ne_none path file (h.entry ▸ hknows.entry path)
  obtain ⟨final, haccepts, -⟩ := (callers i).call.exists_endsIn (callers i).ssl
    (callers i).kernel (callers i).lib bodyFills_any
  obtain ⟨ψ, hψ, hstep⟩ := exists_next_phase haccepts (h.phase i) hnext
  have huntouched : ¬ fs.Touches e file := by
    intro htouches
    exact h.unowned i ((h.together.holds i).touches hstep (h.together.durable i) htouches)
  have hsame := FileSystem.frame hpossible huntouched hexists
  have hfollows := Disk.follows_after hknows parentPath (openedDirectory (done i)) e
  have hentry := (hsame.entry_iff path).mpr h.entry
  refine ⟨_, h.together.step hpossible hadmits hstep, fun j => ?_, fun j => ?_, hentry, fun x hx => ?_,
    hfollows.synced file h.synced hsame.contents, hsame.contents.trans h.contents⟩
  · by_cases hj : j = i
    · subst hj
      rw [Function.update_self, Function.update_self]
      exact hψ
    · rw [Function.update_of_ne hj, Function.update_of_ne hj]
      exact h.phase j
  · by_cases hj : j = i
    · subst hj
      rw [Function.update_self]
      intro howning
      -- The file would have to be created by this step, but it exists.
      rcases howning.of_step hstep with hbefore | ⟨temp, rfl⟩
      · exact h.unowned j hbefore
      · exact hexists hpossible.2.contents
    · rw [Function.update_of_ne hj]
      exact h.unowned j
  · rcases hfollows.entries path x hx with hbefore | hnow
    · exact h.subset hbefore
    · exact hnow.symm.trans hentry

/-- So does a process that creates a file. -/
lemma Durably.creates (h : Durably callers path file fs₀ fs disk done s) (hknows : disk.Knows fs)
    (hcreates : fs.Creates fs') : Durably callers path file fs₀ fs' (disk.follow fs fs') done s := by
  have hsame := hcreates.same (hknows.contents_ne_none path file (h.entry ▸ hknows.entry path))
  have hentry := (hsame.entry_iff path).mpr h.entry
  refine ⟨(separated_together callers).creates h.together hcreates, h.phase, h.unowned, hentry,
    fun x hx => ?_, ⟨h.synced, hsame.contents⟩, hsame.contents.trans h.contents⟩
  rcases Set.mem_insert_iff.mp hx with rfl | hbefore
  · exact hentry
  · exact h.subset hbefore

lemma exists_durably (hknows : disk₀.Knows fs₀) (hentries : disk₀.entries path = {some file})
    (hsynced : file ∈ disk₀.synced)
    (hrun : DiskExecution parentPath Dependable (fun i => (callers i).trace) fs₀ disk₀ fs disk done) :
    ∃ s, Durably callers path file fs₀ fs disk done s := by
  induction hrun with
  | start =>
    have hentry : fs₀.entry path ∈ ({some file} : Set (Option ℕ)) := hentries ▸ hknows.entry path
    exact ⟨_, (separated_together callers).start fs₀, fun _ => rfl, fun _ => id, hentry,
      hentries.subset, hsynced, rfl⟩
  | call i e hrun hnext hpossible hadmits ih =>
    obtain ⟨s, h⟩ := ih
    exact h.call (hrun.knows hknows) hnext hpossible hadmits
  | other hrun hcreates ih =>
    obtain ⟨s, h⟩ := ih
    exact ⟨s, h.creates (hrun.knows hknows) hcreates⟩

end Durably

/-- **What was on the disk before the calls stays there**: every name that referred to one synced
file and to nothing else. -/
theorem paths_keepDurable (callers : ι → Caller) {path : Path} {file : ℕ} {crashed : FileSystem}
    (hknows : disk₀.Knows fs₀) (hentries : disk₀.entries path = {some file})
    (hsynced : file ∈ disk₀.synced)
    (hrun : DiskExecution parentPath Dependable (fun i => (callers i).trace) fs₀ disk₀ fs disk done)
    (hsurvives : disk.Survives fs crashed) :
    crashed.entry path = some file ∧ crashed.contents file = fs₀.contents file := by
  obtain ⟨s, h⟩ := exists_durably hknows hentries hsynced hrun
  exact ⟨Set.mem_singleton_iff.mp (h.subset (hsurvives.entry path)),
    (hsurvives.contents file h.synced).trans h.contents⟩

/-- A file system with one file, `x`. -/
def onlyFile : FileSystem := noFiles.create [0x78] 0 [1]

/-- Everything is on the disk. -/
def onlyDisk : Disk := ⟨{0}, fun path => {onlyFile.entry path}⟩

lemma onlyDisk_knows : onlyDisk.Knows onlyFile := by
  constructor
  · intro path
    exact rfl
  · intro path n hmem
    have hentry : some n = Function.update (fun _ => none) [0x78] (some 0) path := hmem
    by_cases hpath : path = [0x78]
    · subst hpath
      rw [Function.update_self, Option.some.injEq] at hentry
      subst hentry
      simp [onlyFile, FileSystem.create]
    · rw [Function.update_of_ne hpath] at hentry
      cases hentry

lemma onlyFile_fresh {n : ℕ} (h : n ≠ 0) : onlyFile.Fresh n :=
  (noFiles_fresh n).create [0x78] h.symm [1]

lemma unused_onlyFile : Unused [0x6f] onlyFile := by
  have hother : ∀ path, path ≠ [0x78] → onlyFile.entry path = none := by
    intro path hpath
    exact Function.update_of_ne hpath _ _
  refine ⟨hother _ (by decide), fun path htemp => hother path ?_⟩
  rintro rfl
  exact absurd htemp (by decide)

/-- Two calls run beside a file, and it survives every crash. -/
theorem paths_keepDurable_sample : ∃ fs disk done,
    DiskExecution parentPath Dependable (fun i => (rival i).trace) onlyFile onlyDisk fs disk done ∧
    done 0 = (rival 0).trace ∧ done 1 = (rival 1).trace ∧
    (∃ crashed, disk.Survives fs crashed) ∧
    ∀ crashed, disk.Survives fs crashed →
      crashed.entry [0x78] = some 0 ∧ crashed.contents 0 = some [1] := by
  obtain ⟨text, hdelivers⟩ := exists_rival_delivers
  have hconflict := exists_conflict (i := 0) (j := 1) zero_ne_one (by decide) rfl (hdelivers 0)
    (hdelivers 1) unused_onlyFile (onlyFile_fresh (by decide)) (onlyFile_fresh (by decide))
  obtain ⟨fs, done, -, hrun, hfirst, hsecond, -⟩ := hconflict
  obtain ⟨disk, hdisk⟩ := hrun.exists_disk parentPath onlyDisk
  refine ⟨fs, disk, done, hdisk, hfirst, hsecond, ⟨_, (hdisk.knows onlyDisk_knows).survives⟩,
    fun crashed hsurvives => ?_⟩
  have hentries : onlyDisk.entries [0x78] = {some 0} := by
    simp [onlyDisk, onlyFile, FileSystem.create]
  have hkept := paths_keepDurable rival onlyDisk_knows hentries rfl hdisk hsurvives
  exact ⟨hkept.1, hkept.2.trans (by simp [onlyFile, FileSystem.create])⟩

end Crashes

end SecureKit.File
