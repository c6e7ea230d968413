import SecureKit.File.Ownership

/-!
# Traces and runs of a call

The results on file systems are read off the phase a call has come to, and the phase is read off the
trace.  This file has what they share.

## What the trace says

`committed_iff_link` and `Phase.Undurable.directoryFailed` say how a call has ended: it has committed
if its link succeeded, and it has thrown in spite of that if one of the calls on the directory failed
behind it (`DirectoryFailed`).  A result that is given up stays so (`exists_discarded_of_link`), and
one that is committed stays the same; so the end of a trace tells what was committed before
(`committed_complete`).

## Runs

`exists_phase_of_running` is the invariant rule for the automaton of `SecureKit.File.Protocol`, and
`exists_holds` says that the phase tells the truth about the file system.  A call that does not
commit leaves its output as it is (`leavesOutput_of_not_committed`).

## Owners

The call owns the file it has created (`Phase.Owning`).  It touches this file only
(`Phase.Holds.touches`), and whoever touches another file takes nothing from it.  That fails behind a
failed call on the directory, where the temporary name is removed a second time.
-/

namespace SecureKit.File

open ByteString Iostream Evp Posix

section Trace

variable {call : PathCall} {trace before after : List Event} {φ χ ψ : Phase} {e : Event}

/-! ## Reading a trace -/

/-- A call has committed exactly if its link succeeded. -/
theorem committed_iff_link (h : phaseAfter call trace = some φ) :
    φ.Committed ↔ ∃ temp, .link temp call.output .linked ∈ trace := by
  induction trace using List.reverseRecOn generalizing φ with
  | nil =>
    obtain rfl : Phase.checking = φ := Option.some.inj h
    simp [Phase.Committed]
  | append_singleton trace e ih =>
    obtain ⟨χ, hχ, hnext⟩ := foldlM_concat_iff.mp h
    have hstep := Phase.step_of_next hnext
    simp only [List.mem_append, List.mem_singleton, exists_or, ← ih hχ]
    constructor
    · intro hcommitted
      apply (hcommitted.of_step hstep).imp_right
      intro hlink
      obtain ⟨temp, rfl⟩ := hlink
      exact ⟨temp, rfl⟩
    · intro h
      rcases h with hbefore | ⟨temp, rfl⟩
      · exact hbefore.step hstep
      · exact Phase.committed_of_link hstep

/-- Behind the link a call on the directory failed: it could not be opened, synced or closed. -/
def DirectoryFailed (call : PathCall) (trace : List Event) : Prop :=
  ∃ before temp after e, trace = before ++ .link temp call.output .linked :: after ∧
    e ∈ after ∧ IsDirectoryCall false e

/-- The result is committed, and a call on the directory has failed. -/
def Phase.Undurable : Phase → Prop
  | .owning _ _ (.linked _ _ durable) => durable = false
  | _ => False

lemma Phase.Undurable.of_step (h : ψ.Undurable) (hstep : Phase.Step call φ e ψ) :
    φ.Undurable ∨ φ.Committed ∧ IsDirectoryCall false e := by
  cases hstep with
  | checked | unchecked | created | taken | failed => exact h.elim
  | owning temp file hstage =>
    cases hstage with
    | remove draft name durable ok hname => exact .inl h
    | directory draft name durable ok e hcall =>
      cases durable with
      | false => exact .inl rfl
      | true =>
        have hok : ok = false := h
        subst hok
        exact .inr ⟨trivial, hcall⟩
    | linked draft => cases h
    | opened | orphaned | closeDescriptor | openInput | written | unwritten | flushed | unflushed
    | synced | unsynced | closed | unclosed | abandon | giveUp | refused | unlinkable | drop =>
      exact h.elim

/-- A result that is given up stays so, for the same reason. -/
lemma exists_discarded_of_foldlM {temp : Path} {file : ℕ} {refused : Bool} {name : TempName}
    (h : trace.foldlM (Phase.next call) (.owning temp file (.discarded refused name)) = some ψ) :
    ∃ name', ψ = .owning temp file (.discarded refused name') := by
  induction trace generalizing name with
  | nil =>
    obtain rfl := Option.some.inj h
    exact ⟨name, rfl⟩
  | cons e trace ih =>
    obtain ⟨χ, hnext, hrest⟩ := Option.bind_eq_some_iff.mp h
    cases Phase.step_of_next hnext with
    | owning _ _ hstage =>
      cases hstage with
      | drop _ ok => exact ih hrest

/-- A result that is committed stays the same. -/
lemma exists_linked_of_foldlM {temp : Path} {file : ℕ} {draft : Draft} {name : TempName}
    {durable : Bool}
    (h : trace.foldlM (Phase.next call) (.owning temp file (.linked draft name durable)) = some ψ) :
    ∃ name' durable', ψ = .owning temp file (.linked draft name' durable') := by
  induction trace generalizing name durable with
  | nil =>
    obtain rfl := Option.some.inj h
    exact ⟨name, durable, rfl⟩
  | cons e trace ih =>
    obtain ⟨χ, hnext, hrest⟩ := Option.bind_eq_some_iff.mp h
    cases Phase.step_of_next hnext with
    | owning _ _ hstage =>
      cases hstage with
      | remove => exact ih hrest
      | directory => exact ih hrest

/-- A call whose link does not succeed gives its result up. -/
theorem exists_discarded_of_link {temp : Path} {answer : Linking}
    (h : phaseAfter call trace = some ψ) (hmem : .link temp call.output answer ∈ trace)
    (hanswer : answer ≠ .linked) :
    ∃ file name, ψ = .owning temp file (.discarded (answer = .already_exists) name) := by
  obtain ⟨before, after, rfl⟩ := List.append_of_mem hmem
  obtain ⟨φ, -, hlink⟩ := foldlM_append_iff.mp h
  obtain ⟨χ, hnext, hrest⟩ := Option.bind_eq_some_iff.mp hlink
  cases Phase.step_of_next hnext with
  | owning _ file hstage =>
    cases hstage with
    | linked => exact absurd rfl hanswer
    | refused => exact ⟨file, exists_discarded_of_foldlM hrest⟩
    | unlinkable => exact ⟨file, exists_discarded_of_foldlM hrest⟩
    | directory _ _ _ _ _ hcall => cases hcall

/-- A result that is not durable: a call on the directory failed behind the link. -/
theorem Phase.Undurable.directoryFailed (hundurable : φ.Undurable)
    (h : phaseAfter call trace = some φ) : DirectoryFailed call trace := by
  induction trace using List.reverseRecOn generalizing φ with
  | nil =>
    obtain rfl : Phase.checking = φ := Option.some.inj h
    exact hundurable.elim
  | append_singleton trace e ih =>
    obtain ⟨χ, hχ, hnext⟩ := foldlM_concat_iff.mp h
    rcases hundurable.of_step (Phase.step_of_next hnext) with hbefore | ⟨hcommitted, hcall⟩
    · obtain ⟨before, temp, after, e', rfl, hmem, hcall⟩ := ih hbefore hχ
      exact ⟨before, temp, after ++ [e], e', by simp, List.mem_append_left _ hmem, hcall⟩
    · obtain ⟨temp, hlink⟩ := (committed_iff_link hχ).mp hcommitted
      obtain ⟨before, after, rfl⟩ := List.append_of_mem hlink
      exact ⟨before, temp, after ++ [e], e, by simp, by simp, hcall⟩

/-- The input a call has read. -/
def Phase.source : Phase → Option Source
  | .owning _ _ (.writing draft) | .owning _ _ (.flushed draft) | .owning _ _ (.synced draft)
  | .owning _ _ (.closed draft) | .owning _ _ (.linked draft _ _) => draft.source
  | _ => none

lemma Phase.source_of_step {source : Source} (h : ψ.source = some source)
    (hstep : Phase.Step call φ e ψ) :
    φ.source = some source ∨ e = .openInput call.input (some source) := by
  cases hstep with
  | checked | unchecked | created | taken | failed => cases h
  | owning temp file hstage =>
    cases hstage with
    | openInput draft answer =>
      obtain rfl : answer = some source := h
      exact .inr rfl
    | written | flushed | synced | closed | linked | remove | directory => exact .inl h
    | opened | orphaned | closeDescriptor | unwritten | unflushed | unsynced | unclosed | abandon
    | giveUp | refused | unlinkable | drop => cases h

/-- The input a call has read is the one it opened. -/
theorem Phase.openInput_mem {source : Source} (hsource : φ.source = some source)
    (h : phaseAfter call trace = some φ) : .openInput call.input (some source) ∈ trace := by
  induction trace using List.reverseRecOn generalizing φ with
  | nil =>
    obtain rfl : Phase.checking = φ := Option.some.inj h
    cases hsource
  | append_singleton trace e ih =>
    obtain ⟨χ, hχ, hnext⟩ := foldlM_concat_iff.mp h
    rcases Phase.source_of_step hsource (Phase.step_of_next hnext) with hbefore | rfl
    · exact List.mem_append_left _ (ih hbefore hχ)
    · simp

/-- A call opens nothing to read but its input. -/
lemma openInput_path {path : Path} {answer : Option Source} (h : phaseAfter call trace = some φ)
    (hmem : .openInput path answer ∈ trace) : path = call.input := by
  obtain ⟨before, after, rfl⟩ := List.append_of_mem hmem
  obtain ⟨χ, -, hlast⟩ := foldlM_append_iff.mp h
  obtain ⟨χ', hnext, -⟩ := Option.bind_eq_some_iff.mp hlast
  cases Phase.step_of_next hnext with
  | owning _ _ hstage =>
    cases hstage with
    | openInput => rfl
    | directory _ _ _ _ _ hcall => cases hcall

/-- The next system call of a trace leads to the next phase. -/
lemma exists_next_phase {done : List Event} (haccepts : phaseAfter call trace = some ψ)
    (hφ : phaseAfter call done = some φ) (hnext : done ++ [e] <+: trace) :
    ∃ χ, phaseAfter call (done ++ [e]) = some χ ∧ Phase.Step call φ e χ := by
  obtain ⟨rest, rfl⟩ := hnext
  obtain ⟨χ, hχ, -⟩ := foldlM_append_iff.mp haccepts
  obtain ⟨φ', hφ', hstep⟩ := foldlM_concat_iff.mp hχ
  obtain rfl : φ = φ' := Option.some.inj (hφ.symm.trans hφ')
  exact ⟨χ, hχ, Phase.step_of_next hstep⟩

end Trace

/-! ## Runs -/

section Runs

variable {admits : FileSystem → Event → Prop} {trace done : List Event} {fs₀ fs fs' : FileSystem}
  {e : Event} {call : PathCall} {φ ψ : Phase}

/-- The invariant rule for a call. -/
lemma exists_phase_of_running {I : FileSystem → Phase → Prop} (hstart : I fs₀ .checking)
    (haccepts : phaseAfter call trace = some ψ)
    (hstep : ∀ {fs φ e χ}, I fs φ → fs.Possible e → admits fs e → e ∈ trace →
      Phase.Step call φ e χ → I (fs.after e) χ)
    (hother : ∀ {fs fs' φ}, I fs φ → fs.Creates fs' → I fs' φ)
    (h : Running admits trace fs₀ fs done) : ∃ φ, phaseAfter call done = some φ ∧ I fs φ := by
  apply Running.invariant hstart haccepts _ hother h
  intro fs φ e χ hinv hpossible hadmits hmem hnext
  exact hstep hinv hpossible hadmits hmem (Phase.step_of_next hnext)

/-- Where a call has come, its phase says how the file system is. -/
theorem exists_holds (haccepts : phaseAfter call trace = some ψ)
    (h : Running admits trace fs₀ fs done) :
    ∃ φ, phaseAfter call done = some φ ∧ φ.Holds call fs := by
  apply exists_phase_of_running (I := fun fs φ => φ.Holds call fs) trivial haccepts _ _ h
  · intro fs φ e χ hholds hpossible _ _ hstep
    exact hholds.step hpossible hstep
  · intro fs fs' φ hholds hcreates
    exact hholds.of_creates hcreates

/-- The steps of a call lead from one phase to the next. -/
lemma exists_step_of_takes (haccepts : phaseAfter call trace = some ψ)
    (h : Takes admits trace fs₀ fs done e) :
    ∃ φ χ, phaseAfter call done = some φ ∧ φ.Holds call fs ∧ Phase.Step call φ e χ ∧
      ∃ rest : List Event, rest.foldlM (Phase.next call) χ = some ψ := by
  obtain ⟨φ, hφ, hholds⟩ := exists_holds haccepts h.run
  obtain ⟨rest, rfl⟩ := h.next
  obtain ⟨χ, hχ, hrest⟩ := foldlM_append_iff.mp haccepts
  obtain ⟨φ', hφ', hnext⟩ := foldlM_concat_iff.mp hχ
  obtain rfl : φ = φ' := Option.some.inj (hφ.symm.trans hφ')
  exact ⟨φ, χ, hφ, hholds, Phase.step_of_next hnext, rest, hrest⟩

/-- In no run does the call change its output, and neither does it create it. -/
def LeavesOutput (call : PathCall) (trace : List Event) (fs₀ : FileSystem) : Prop :=
  ∀ fs done e, Takes (fun _ _ => True) trace fs₀ fs done e → Unchanged call.output fs (fs.after e)

/-- A call that does not commit leaves its output as it is. -/
theorem leavesOutput_of_not_committed (haccepts : phaseAfter call trace = some ψ)
    (hend : ¬ ψ.Committed) : LeavesOutput call trace fs₀ := by
  intro fs done e htakes
  obtain ⟨φ, χ, -, hholds, hstep, rest, hrest⟩ := exists_step_of_takes haccepts htakes
  rcases hholds.unchanged htakes.possible hstep with hsame | ⟨-, hcommitted, -⟩
  · exact hsame
  · exact absurd (hcommitted.foldlM hrest) hend

/-- Whoever finds the output does not commit. -/
lemma not_committed_of_existing (haccepts : phaseAfter call trace = some ψ)
    (hexists : fs₀.entry call.output ≠ none) (h : Running admits trace fs₀ fs trace) :
    ¬ ψ.Committed := by
  have hinv : ∃ φ, phaseAfter call trace = some φ ∧
      φ.Holds call fs ∧ ¬ φ.Committed ∧ fs.entry call.output ≠ none := by
    apply exists_phase_of_running
      (I := fun fs φ => φ.Holds call fs ∧ ¬ φ.Committed ∧ fs.entry call.output ≠ none) _ haccepts _ _ h
    · exact ⟨trivial, id, hexists⟩
    · intro fs φ e χ hinv hpossible _ _ hstep
      obtain ⟨hholds, hnot, hentry⟩ := hinv
      refine ⟨hholds.step hpossible hstep, fun hcommitted => ?_, ?_⟩
      · rcases hcommitted.of_step hstep with hbefore | ⟨temp, rfl⟩
        · exact hnot hbefore
        · exact hentry hpossible.2
      · rcases hholds.unchanged hpossible hstep with hsame | ⟨-, -, hnone⟩
        · rwa [hsame.entry]
        · exact absurd hnone hentry
    · intro fs fs' φ hinv hcreates
      obtain ⟨hholds, hnot, hentry⟩ := hinv
      refine ⟨hholds.of_creates hcreates, hnot, ?_⟩
      rwa [hcreates.entry_eq hentry]
  obtain ⟨φ, hφ, -, hnot, -⟩ := hinv
  obtain rfl : φ = ψ := Option.some.inj (hφ.symm.trans haccepts)
  exact hnot

end Runs

/-! ## The end of a call -/

section Ends

variable {call : PathCall} {P : Source → Bytes → Prop} {φ : Phase} {thrown : Option Error}
  {trace : List Event}

/-- A call that has not committed throws. -/
lemma PathCall.EndsIn.thrown_ne_none (h : EndsIn call P φ thrown) (hnot : ¬ φ.Committed) :
    thrown ≠ none := by
  cases h with
  | checking | searching | ended | orphaned | discarded => exact Option.some_ne_none _
  | linked => exact absurd trivial hnot

/-- A call that has committed and throws was let down by the directory. -/
lemma PathCall.EndsIn.undurable (h : EndsIn call P φ thrown) (hthrown : thrown ≠ none)
    (hcommitted : φ.Committed) : φ.Undurable := by
  cases h with
  | checking | searching | ended | orphaned | discarded => exact hcommitted.elim
  | linked temp file draft hdraft name hname durable _ hiff =>
    apply Bool.eq_false_of_not_eq_true
    intro hdurable
    exact hthrown (hiff.mpr hdurable)

lemma DirectoryFailed.committed (h : DirectoryFailed call trace)
    (haccepts : phaseAfter call trace = some φ) : φ.Committed := by
  obtain ⟨before, temp, after, e, rfl, -, -⟩ := h
  rw [committed_iff_link haccepts]
  exact ⟨temp, by simp⟩

/-- Why a result was given up. -/
lemma PathCall.EndsIn.thrown_of_refused {temp : Path} {file : ℕ} {name : TempName}
    (h : EndsIn call P (.owning temp file (.discarded true name)) thrown) :
    thrown = some outputExists := by
  cases h with
  | discarded _ _ _ _ _ error hrefused => rw [hrefused rfl]

lemma PathCall.EndsIn.draft_complete {temp : Path} {file : ℕ} {draft : Draft} {name : TempName}
    {durable : Bool} (h : EndsIn call P (.owning temp file (.linked draft name durable)) thrown) :
    draft.Complete P := by
  cases h with
  | linked _ _ _ hdraft => exact hdraft

/-- **What has been committed is complete**, from the link on. -/
theorem committed_complete {done : List Event} {fs : FileSystem} {ψ : Phase}
    (haccepts : phaseAfter call trace = some ψ) (hend : call.EndsIn P ψ thrown)
    (hdone : done <+: trace) (hφ : phaseAfter call done = some φ) (hcommitted : φ.Committed)
    (hholds : φ.Holds call fs) : ∃ file source bytes, fs.entry call.output = some file ∧
      fs.contents file = some bytes ∧ .openInput call.input (some source) ∈ done ∧
      P source bytes := by
  cases φ with
  | checking | searching | ended => exact hcommitted.elim
  | owning temp file stage =>
    cases stage with
    | created | orphaned | writing | broken | flushed | synced | closed | discarded =>
      exact hcommitted.elim
    | linked draft name durable =>
      obtain ⟨rest, rfl⟩ := hdone
      obtain ⟨φ', hφ', hrest⟩ := foldlM_append_iff.mp haccepts
      obtain rfl := Option.some.inj (hφ.symm.trans hφ')
      obtain ⟨name', durable', rfl⟩ := exists_linked_of_foldlM hrest
      obtain ⟨source, hsource, hresult⟩ := hend.draft_complete
      have howns : Owns call temp file (.linked draft name durable) fs := hholds
      have hmem : .openInput call.input (some source) ∈ done := by
        apply Phase.openInput_mem _ hφ
        exact hsource
      exact ⟨file, source, draft.bytes, howns.committed.mpr trivial, howns.data.1, hmem, hresult⟩

end Ends

/-! ## Owners -/

/-- The call has created the file. -/
def Phase.Owning (n : ℕ) : Phase → Prop
  | .owning _ file _ => file = n
  | _ => False

section Phases

variable {call : PathCall} {φ ψ : Phase} {fs fs' : FileSystem} {e : Event} {n : ℕ}

/-- A file is owned from its creation on. -/
lemma Phase.Owning.of_step (h : ψ.Owning n) (hstep : Phase.Step call φ e ψ) :
    φ.Owning n ∨ ∃ temp, e = .openExclusive temp (.created n) := by
  cases hstep with
  | checked | unchecked | taken | failed => exact h.elim
  | created temp file htemp =>
    obtain rfl : file = n := h
    exact .inr ⟨temp, rfl⟩
  | owning temp file hstage => exact .inl h

lemma Phase.Owning.exists_created {trace : List Event} (h : φ.Owning n)
    (hφ : phaseAfter call trace = some φ) : ∃ temp, .openExclusive temp (.created n) ∈ trace := by
  cases φ with
  | checking | searching | ended => exact h.elim
  | owning temp file stage =>
    obtain rfl : file = n := h
    exact ⟨temp, (created_mem_iff hφ temp file).mpr ⟨stage, rfl⟩⟩

/-- The file that is owned exists. -/
lemma Phase.Holds.contents_ne_none (h : φ.Holds call fs) (howning : φ.Owning n) :
    fs.contents n ≠ none := by
  cases φ with
  | checking | searching | ended => exact howning.elim
  | owning temp file stage =>
    obtain rfl : file = n := howning
    exact Owns.contents_ne_none h

/-- **A call touches its own file only.** -/
theorem Phase.Holds.touches (h : φ.Holds call fs) (hstep : Phase.Step call φ e ψ)
    (hdurable : ¬ φ.Undurable) (htouches : fs.Touches e n) : φ.Owning n := by
  cases hstep with
  | checked | unchecked | created | taken | failed => exact htouches.elim
  | @owning temp file stage _ _ hstage =>
    have honce : ¬ SecondRemoval temp stage e := by
      intro hremoval
      obtain ⟨draft, name, ok, hstage', -⟩ := hremoval
      apply hdurable
      rw [hstage']
      exact rfl
    exact (Owns.touches h hstage honce htouches).symm

/-- Whoever touches none of its files takes nothing from a call. -/
lemma Phase.Holds.of_same (h : φ.Holds call fs)
    (hsame : ∀ n, φ.Owning n → FileSystem.Same n fs fs') : φ.Holds call fs' := by
  cases φ with
  | checking | searching | ended => trivial
  | owning temp file stage => exact Owns.of_same h (hsame file rfl)

/-- Who has committed owns the output. -/
lemma Phase.Holds.exists_output (h : φ.Holds call fs) (hcommitted : φ.Committed) :
    ∃ n, φ.Owning n ∧ fs.entry call.output = some n := by
  cases φ with
  | checking | searching | ended => exact hcommitted.elim
  | owning temp file stage =>
    have howns : Owns call temp file stage fs := h
    exact ⟨file, rfl, howns.committed.mpr hcommitted⟩

/-- The output refers to the file exactly if that was committed. -/
lemma Phase.Holds.committed_iff (h : φ.Holds call fs) (howning : φ.Owning n) :
    fs.entry call.output = some n ↔ φ.Committed := by
  cases φ with
  | checking | searching | ended => exact howning.elim
  | owning temp file stage =>
    obtain rfl : file = n := howning
    exact Owns.committed h

end Phases

end SecureKit.File
