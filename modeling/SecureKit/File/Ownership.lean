import SecureKit.File.PathResult

/-!
# The file a call has created

What the phase of a call says about a file system: the temporary name refers to the file the call
has created, until it is removed; the output refers to it from the link on; and the file holds what
was written to it (`Owns`).  The steps of the call keep this (`Owns.step`), and so does every step
that does not touch the file (`Owns.of_same`).

In turn the call touches no file but its own (`Owns.touches`).  The one exception is a second removal
of the temporary name, when a call on the directory has failed behind the link.

## The steps

`Stage.Step` and `Phase.Step` are the transitions of the automaton, one constructor for each system
call.  The results here are about one step of one call, in a file system that others change as
well: what it keeps (`Phase.Holds.step`), what it touches (`Owns.touches`), and what it does to the
output (`Phase.Holds.unchanged`).

`Phase.Holds` is the invariant.  Before a file is created it says nothing, behind that it is `Owns`,
and it is kept by steps of others as long as they leave the file alone.  `File.AllOrNothing` follows
it along one call, `File.Concurrent` along any number of them, and `File.Crash` adds the disk.
-/

namespace SecureKit.File

open ByteString Posix

/-! ## Steps -/

/-- The steps of the automaton, one constructor for each system call. -/
inductive Stage.Step (call : PathCall) (temp : Path) (file : ℕ) : Stage → Event → Stage → Prop
  | opened : Step call temp file .created (.fdopen file true) (.writing {})
  | orphaned : Step call temp file .created (.fdopen file false) .orphaned
  | closeDescriptor : Step call temp file .orphaned (.closeDescriptor file) .orphaned
  | openInput (draft : Draft) (answer : Option Iostream.Source) :
    Step call temp file (.writing draft) (.openInput call.input answer)
      (.writing { draft with source := answer })
  | written (draft : Draft) (data : Bytes) (moved : ℕ) :
    Step call temp file (.writing draft) (.fwrite file data data.length moved)
      (.writing { draft with bytes := draft.bytes ++ data })
  | unwritten (draft : Draft) (data : Bytes) (accepted moved : ℕ) :
    Step call temp file (.writing draft) (.fwrite file data accepted moved) .broken
  | flushed (draft : Draft) (moved : ℕ) :
    Step call temp file (.writing draft) (.fflush file true moved) (.flushed draft)
  | unflushed (draft : Draft) (moved : ℕ) :
    Step call temp file (.writing draft) (.fflush file false moved) .broken
  | synced (draft : Draft) : Step call temp file (.flushed draft) (.fsync file true) (.synced draft)
  | unsynced (draft : Draft) : Step call temp file (.flushed draft) (.fsync file false) .broken
  | closed (draft : Draft) (moved : ℕ) :
    Step call temp file (.synced draft) (.fclose file true moved) (.closed draft)
  | unclosed (draft : Draft) (moved : ℕ) :
    Step call temp file (.synced draft) (.fclose file false moved) (.discarded false .pending)
  | abandon (draft : Draft) (ok : Bool) (moved : ℕ) :
    Step call temp file (.writing draft) (.fclose file ok moved) (.discarded false .pending)
  | giveUp (ok : Bool) (moved : ℕ) :
    Step call temp file .broken (.fclose file ok moved) (.discarded false .pending)
  | linked (draft : Draft) :
    Step call temp file (.closed draft) (.link temp call.output .linked) (.linked draft .pending true)
  | refused (draft : Draft) :
    Step call temp file (.closed draft) (.link temp call.output .already_exists)
      (.discarded true .pending)
  | unlinkable (draft : Draft) :
    Step call temp file (.closed draft) (.link temp call.output .failed) (.discarded false .pending)
  | drop (refused ok : Bool) :
    Step call temp file (.discarded refused .pending) (.unlink temp ok)
      (.discarded refused (TempName.pending.attempt ok))
  | remove (draft : Draft) (name : TempName) (durable ok : Bool)
    (h : name = .pending ∨ durable = false) :
    Step call temp file (.linked draft name durable) (.unlink temp ok)
      (.linked draft (name.attempt ok) durable)
  | directory (draft : Draft) (name : TempName) (durable ok : Bool) (e : Event)
    (h : IsDirectoryCall ok e) :
    Step call temp file (.linked draft name durable) e (.linked draft name (durable && ok))

lemma Stage.step_of_next {call : PathCall} {temp : Path} {file : ℕ} {stage stage' : Stage}
    {e : Event} (h : stage.next call temp file e = some stage') :
    Stage.Step call temp file stage e stage' := by
  unfold Stage.next at h
  split at h <;> simp only [Option.ite_none_right_eq_some, Option.some.injEq, reduceCtorEq] at h
  · -- The cases are those of `Stage.next`, in its order; a call that may fail gives two steps.
    rename_i ok
    obtain ⟨rfl, rfl⟩ := h
    cases ok with
    | true => exact .opened
    | false => exact .orphaned
  · obtain ⟨rfl, rfl⟩ := h
    exact .closeDescriptor
  · obtain ⟨rfl, rfl⟩ := h
    exact .openInput _ _
  · obtain ⟨rfl, rfl⟩ := h
    split
    · subst_vars
      exact .written _ _ _
    · exact .unwritten _ _ _ _
  · rename_i ok _
    obtain ⟨rfl, rfl⟩ := h
    cases ok with
    | true => exact .flushed _ _
    | false => exact .unflushed _ _
  · rename_i ok
    obtain ⟨rfl, rfl⟩ := h
    cases ok with
    | true => exact .synced _
    | false => exact .unsynced _
  · rename_i ok _
    obtain ⟨rfl, rfl⟩ := h
    cases ok with
    | true => exact .closed _ _
    | false => exact .unclosed _ _
  · obtain ⟨rfl, rfl⟩ := h
    exact .abandon _ _ _
  · obtain ⟨rfl, rfl⟩ := h
    exact .giveUp _ _
  · obtain ⟨⟨rfl, rfl⟩, rfl⟩ := h
    rename_i answer
    cases answer with
    | linked => exact .linked _
    | already_exists => exact .refused _
    | failed => exact .unlinkable _
  · obtain ⟨rfl, rfl⟩ := h
    exact .drop _ _
  · obtain ⟨⟨rfl, hname⟩, rfl⟩ := h
    exact .remove _ _ _ _ hname
  · subst h
    exact .directory _ _ _ _ _ (.opened _)
  · subst h
    exact .directory _ _ _ _ _ .synced
  · subst h
    exact .directory _ _ _ _ _ .closed

/-! ## What a stage says about the file system -/

/-- The temporary name has not been removed. -/
def Stage.named : Stage → Prop
  | .discarded _ name | .linked _ name _ => name ≠ .removed
  | _ => True

/-- The output was linked to the file. -/
def Stage.committed : Stage → Prop
  | .linked _ _ _ => True
  | _ => False

/-- What the file holds. -/
def Stage.Data (file : ℕ) (fs : FileSystem) : Stage → Prop
  | .created => fs.Accepted file []
  | .writing draft => fs.Accepted file draft.bytes
  | .flushed draft | .synced draft | .closed draft | .linked draft _ _ => fs.Settled file draft.bytes
  | .orphaned | .broken | .discarded _ _ => ∃ bytes, fs.Accepted file bytes

/-- The call owns the file. -/
structure Owns (call : PathCall) (temp : Path) (file : ℕ) (stage : Stage) (fs : FileSystem) : Prop where
  temp_ne : temp ≠ call.output
  named : fs.entry temp = some file ↔ stage.named
  committed : fs.entry call.output = some file ↔ stage.committed
  data : stage.Data file fs

section Owns

variable {call : PathCall} {temp : Path} {file : ℕ} {stage stage' : Stage} {fs fs' : FileSystem}
  {e : Event}

lemma Stage.Data.exists_accepted (h : stage.Data file fs) : ∃ bytes, fs.Accepted file bytes := by
  cases stage with
  | created | writing => exact ⟨_, h⟩
  | flushed | synced | closed | linked => exact ⟨_, h.accepted⟩
  | orphaned | broken | discarded => exact h

lemma Stage.Data.of_same (h : stage.Data file fs) (hsame : FileSystem.Same file fs fs') :
    stage.Data file fs' := by
  cases stage with
  | created | writing => exact FileSystem.Accepted.of_same h hsame
  | flushed | synced | closed | linked => exact FileSystem.Settled.of_same h hsame
  | orphaned | broken | discarded =>
    obtain ⟨bytes, hbytes⟩ := h
    exact ⟨bytes, hbytes.of_same hsame⟩

lemma Owns.contents_ne_none (h : Owns call temp file stage fs) : fs.contents file ≠ none := by
  obtain ⟨bytes, hbytes⟩ := h.data.exists_accepted
  exact hbytes.contents_ne_none

/-- Whoever does not touch the file takes nothing away. -/
theorem Owns.of_same (h : Owns call temp file stage fs) (hsame : FileSystem.Same file fs fs') :
    Owns call temp file stage fs' :=
  ⟨h.temp_ne, (hsame.entry_iff temp).trans h.named, (hsame.entry_iff call.output).trans h.committed,
    h.data.of_same hsame⟩

/-- A file is owned when it is created. -/
lemma owns_created {n : ℕ} (htemp : IsTempPath call.output temp)
    (hpossible : fs.Possible (.openExclusive temp (.created n))) :
    Owns call temp n .created (fs.after (.openExclusive temp (.created n))) := by
  obtain ⟨hentry, hfresh⟩ := hpossible
  refine ⟨htemp.ne, ?_, ?_, fs.accepted_create temp n⟩
  · simp [FileSystem.after, FileSystem.create, FileSystem.attach, Stage.named]
  · have hne := hfresh.entry call.output
    simp [FileSystem.after, FileSystem.create, FileSystem.attach, Stage.committed,
      Function.update_of_ne htemp.ne.symm, hne]

/-- Names that stay as they are say the same. -/
lemma Owns.of_entry (h : Owns call temp file stage fs) (hentry : fs'.entry = fs.entry)
    (hnamed : stage'.named ↔ stage.named) (hcommitted : stage'.committed ↔ stage.committed)
    (hdata : stage'.Data file fs') : Owns call temp file stage' fs' := by
  refine ⟨h.temp_ne, ?_, ?_, hdata⟩
  · rw [hentry, hnamed]
    exact h.named
  · rw [hentry, hcommitted]
    exact h.committed

/-- **The steps of the call keep its ownership.** -/
theorem Owns.step (h : Owns call temp file stage fs) (hpossible : fs.Possible e)
    (hstep : Stage.Step call temp file stage e stage') : Owns call temp file stage' (fs.after e) := by
  have hne := h.temp_ne
  have hdata := h.data
  cases hstep with
  -- Before the stream is written to, only the stage changes.
  | opened => exact h.of_entry rfl Iff.rfl Iff.rfl hdata
  | orphaned => exact h.of_entry rfl Iff.rfl Iff.rfl ⟨[], hdata⟩
  | closeDescriptor => exact h
  | openInput draft answer => exact h.of_entry rfl Iff.rfl Iff.rfl hdata
  -- What the stream takes is in the file or in its buffer.
  | written draft data moved =>
    have hafter : fs.after (.fwrite file data data.length moved) = fs.transfer file data moved := by
      simp only [FileSystem.after, List.take_length]
    have htransfer := FileSystem.Accepted.transfer hdata data moved
    rw [hafter]
    exact h.of_entry (fs.entry_transfer _ _ _) Iff.rfl Iff.rfl htransfer
  | unwritten draft data accepted moved =>
    have htransfer := FileSystem.Accepted.transfer hdata (data.take accepted) moved
    exact h.of_entry (fs.entry_transfer _ _ _) Iff.rfl Iff.rfl ⟨_, htransfer⟩
  -- A flush settles the data in the file, and a sync asks for the disk.
  | flushed draft moved =>
    exact h.of_entry (fs.entry_transfer _ _ _) Iff.rfl Iff.rfl (FileSystem.Accepted.settled hdata)
  | unflushed draft moved =>
    have htransfer := FileSystem.Accepted.transfer hdata [] moved
    exact h.of_entry (fs.entry_transfer _ _ _) Iff.rfl Iff.rfl ⟨_, htransfer⟩
  | synced draft => exact h.of_entry rfl Iff.rfl Iff.rfl hdata
  | unsynced draft =>
    exact h.of_entry rfl Iff.rfl Iff.rfl ⟨_, FileSystem.Settled.accepted hdata⟩
  | closed draft moved =>
    have hclosed := (FileSystem.Settled.transfer hdata (fs.pending file)).dropBuffer
    exact h.of_entry (fs.entry_transfer _ _ _) Iff.rfl Iff.rfl hclosed
  | unclosed draft moved =>
    have hclosed := (FileSystem.Settled.transfer hdata moved).dropBuffer
    exact h.of_entry (fs.entry_transfer _ _ _) (by simp [Stage.named]) Iff.rfl ⟨_, hclosed.accepted⟩
  | abandon draft ok moved =>
    exact h.of_entry (fs.entry_transfer _ _ _) (by simp [Stage.named]) Iff.rfl
      (FileSystem.Accepted.exists_fclose hdata ok moved)
  | giveUp ok moved =>
    obtain ⟨bytes, hbytes⟩ := hdata
    exact h.of_entry (fs.entry_transfer _ _ _) (by simp [Stage.named]) Iff.rfl
      (hbytes.exists_fclose ok moved)
  -- The link adds the output, and the temporary name is still there.
  | linked draft =>
    have htemp : fs.entry temp = some file := h.named.mpr trivial
    refine ⟨hne, ?_, ?_, hdata⟩
    · simp [FileSystem.after, Function.update_of_ne hne, htemp, Stage.named]
    · simp [FileSystem.after, htemp, Stage.committed]
  | refused draft | unlinkable draft =>
    exact h.of_entry rfl (by simp [Stage.named]) Iff.rfl ⟨_, FileSystem.Settled.accepted hdata⟩
  -- Behind the link or without it, only the temporary name goes.
  | drop refused ok =>
    cases ok with
    | false => exact h.of_entry rfl (by simp [Stage.named, TempName.attempt]) Iff.rfl hdata
    | true =>
      have hcommitted := h.committed
      refine ⟨hne, ?_, ?_, hdata⟩
      · simp [FileSystem.after, Stage.named, TempName.attempt]
      · simpa [FileSystem.after, Function.update_of_ne hne.symm, Stage.committed] using hcommitted
  | remove draft name durable ok hname =>
    cases ok with
    | false =>
      refine h.of_entry rfl ?_ Iff.rfl hdata
      cases name <;> simp [Stage.named, TempName.attempt]
    | true =>
      have hcommitted := h.committed
      refine ⟨hne, ?_, ?_, hdata⟩
      · cases name <;> simp [FileSystem.after, Stage.named, TempName.attempt]
      · simpa [FileSystem.after, Function.update_of_ne hne.symm, Stage.committed] using hcommitted
  | directory draft name durable ok e hcall =>
    cases hcall with
    | opened path => exact h.of_entry rfl Iff.rfl Iff.rfl hdata
    | synced => exact h.of_entry rfl Iff.rfl Iff.rfl hdata
    | closed => exact h.of_entry rfl Iff.rfl Iff.rfl hdata

/-- A removal of the temporary name behind a failed call on the directory. -/
def SecondRemoval (temp : Path) (stage : Stage) (e : Event) : Prop :=
  ∃ draft name ok, stage = .linked draft name false ∧ e = .unlink temp ok

/-- **The call touches its own file only**, unless it removes the temporary name again. -/
theorem Owns.touches (h : Owns call temp file stage fs)
    (hstep : Stage.Step call temp file stage e stage') (honce : ¬ SecondRemoval temp stage e)
    {other : ℕ} (htouches : fs.Touches e other) : other = file := by
  obtain ⟨bytes, haccepted⟩ := h.data.exists_accepted
  have hnamed : stage.named → fs.entry temp = some other → other = file := by
    intro hstage hentry
    rw [h.named.mpr hstage] at hentry
    exact (Option.some.inj hentry).symm
  cases hstep with
  | opened | orphaned | closeDescriptor | openInput | synced | unsynced | refused | unlinkable =>
    exact htouches.elim
  | written | unwritten | flushed | unflushed | closed | unclosed | abandon | giveUp =>
    exact haccepted.touches htouches
  | linked draft => exact hnamed trivial htouches
  | drop refused ok =>
    cases ok with
    | false => exact htouches.elim
    | true => exact hnamed (by simp [Stage.named]) htouches
  | remove draft name durable ok hname =>
    cases ok with
    | false => exact htouches.elim
    | true =>
      rcases hname with rfl | rfl
      · exact hnamed (by simp [Stage.named]) htouches
      · exact absurd ⟨draft, name, true, rfl, rfl⟩ honce
  | directory draft name durable ok e hcall => cases hcall <;> exact htouches.elim

/-! ## The output -/

/-- What the output holds is not changed: neither which file it is nor the contents of that file. -/
structure Unchanged (path : Path) (fs fs' : FileSystem) : Prop where
  entry : fs'.entry path = fs.entry path
  contents : ∀ other, fs.entry path = some other → fs'.contents other = fs.contents other

lemma Unchanged.refl (path : Path) (fs : FileSystem) : Unchanged path fs fs :=
  ⟨rfl, fun _ _ => rfl⟩

/-- A stream on a file that is not the output. -/
lemma unchanged_transfer {bytes : Bytes} {path : Path} (h : fs.Accepted file bytes)
    (hentry : fs.entry path ≠ some file) (data : Bytes) (moved : ℕ) :
    Unchanged path fs (fs.transfer file data moved) := by
  refine ⟨by rw [FileSystem.entry_transfer], fun other hother => ?_⟩
  have hne : ∀ s, fs.stream file = some s → s.file ≠ other := by
    intro s hs heq
    have hfile := h.touches ⟨s, hs, heq⟩
    exact hentry (hfile ▸ hother)
  exact (FileSystem.same_transfer hne data moved).contents

lemma unchanged_fclose {bytes : Bytes} {path : Path} (h : fs.Accepted file bytes)
    (hentry : fs.entry path ≠ some file) (ok : Bool) (moved : ℕ) :
    Unchanged path fs (fs.after (.fclose file ok moved)) := by
  have htransfer := unchanged_transfer h hentry [] (if ok then fs.pending file else moved)
  exact ⟨htransfer.entry, htransfer.contents⟩

lemma unchanged_unlink {path : Path} (hne : temp ≠ path) (ok : Bool) :
    Unchanged path fs (fs.after (.unlink temp ok)) := by
  cases ok with
  | false => exact Unchanged.refl path fs
  | true => exact ⟨Function.update_of_ne hne.symm _ _, fun _ _ => rfl⟩

/-- **Only the link changes the output**, and only where there is none. -/
theorem Owns.unchanged (h : Owns call temp file stage fs) (hpossible : fs.Possible e)
    (hstep : Stage.Step call temp file stage e stage') :
    Unchanged call.output fs (fs.after e) ∨
      e = .link temp call.output .linked ∧ fs.entry call.output = none := by
  obtain ⟨bytes, haccepted⟩ := h.data.exists_accepted
  have hentry : ¬ stage.committed → fs.entry call.output ≠ some file := by
    intro hstage heq
    exact hstage (h.committed.mp heq)
  cases hstep with
  | opened | orphaned | closeDescriptor | openInput | synced | unsynced | refused | unlinkable =>
    exact .inl (Unchanged.refl call.output fs)
  | written | unwritten | flushed | unflushed =>
    exact .inl (unchanged_transfer haccepted (hentry id) _ _)
  | closed | unclosed => exact .inl (unchanged_fclose haccepted (hentry id) _ _)
  | abandon | giveUp => exact .inl (unchanged_fclose haccepted (hentry id) _ _)
  | linked draft => exact .inr ⟨rfl, hpossible.2⟩
  | drop | remove => exact .inl (unchanged_unlink h.temp_ne _)
  | directory draft name durable ok e hcall =>
    cases hcall <;> exact .inl (Unchanged.refl call.output fs)

end Owns

/-! ## What a phase says about the file system -/

/-- Where the call has created a file, it owns it. -/
def Phase.Holds (call : PathCall) (fs : FileSystem) : Phase → Prop
  | .owning temp file stage => Owns call temp file stage fs
  | _ => True

/-- The output was linked. -/
def Phase.Committed : Phase → Prop
  | .owning _ _ stage => stage.committed
  | _ => False

section Phases

variable {call : PathCall} {φ ψ : Phase} {fs fs' : FileSystem} {e : Event}

/-- The steps of a phase. -/
inductive Phase.Step (call : PathCall) : Phase → Event → Phase → Prop
  | checked : Step call .checking (.status call.output (some false)) .searching
  | unchecked (answer : Option Bool) : Step call .checking (.status call.output answer) .ended
  | created (temp : Path) (n : ℕ) (h : IsTempPath call.output temp) :
    Step call .searching (.openExclusive temp (.created n)) (.owning temp n .created)
  | taken (temp : Path) (h : IsTempPath call.output temp) :
    Step call .searching (.openExclusive temp .already_exists) .searching
  | failed (temp : Path) (h : IsTempPath call.output temp) :
    Step call .searching (.openExclusive temp .failed) .ended
  | owning (temp : Path) (file : ℕ) {stage stage' : Stage} {e : Event}
    (h : Stage.Step call temp file stage e stage') :
    Step call (.owning temp file stage) e (.owning temp file stage')

lemma Phase.step_of_next (h : φ.next call e = some ψ) : Phase.Step call φ e ψ := by
  unfold Phase.next at h
  split at h <;> simp only [Option.ite_none_right_eq_some, Option.some.injEq, reduceCtorEq,
    Option.map_eq_some_iff] at h
  · obtain ⟨rfl, rfl⟩ := h
    split
    · subst_vars
      exact .checked
    · exact .unchecked _
  · obtain ⟨htemp, rfl⟩ := h
    rename_i path answer
    cases answer with
    | created n => exact .created path n htemp
    | already_exists => exact .taken path htemp
    | failed => exact .failed path htemp
  · obtain ⟨stage', hstage, rfl⟩ := h
    exact .owning _ _ (Stage.step_of_next hstage)

/-- **The steps of a call keep what its phase says.** -/
theorem Phase.Holds.step (h : φ.Holds call fs) (hpossible : fs.Possible e)
    (hstep : Phase.Step call φ e ψ) : ψ.Holds call (fs.after e) := by
  cases hstep with
  | checked | unchecked | taken | failed => trivial
  | created temp n htemp => exact owns_created htemp hpossible
  | owning temp file hstage => exact Owns.step h hpossible hstage

lemma Phase.Holds.of_creates (h : φ.Holds call fs) (hcreates : fs.Creates fs') :
    φ.Holds call fs' := by
  cases φ with
  | checking | searching | ended => trivial
  | owning temp file stage =>
    have howns : Owns call temp file stage fs := h
    exact howns.of_same (hcreates.same howns.contents_ne_none)

/-- **Only the link changes the output.** -/
theorem Phase.Holds.unchanged (h : φ.Holds call fs) (hpossible : fs.Possible e)
    (hstep : Phase.Step call φ e ψ) :
    Unchanged call.output fs (fs.after e) ∨
      (¬ φ.Committed ∧ ψ.Committed ∧ fs.entry call.output = none) := by
  cases hstep with
  | checked | unchecked | taken | failed => exact .inl (Unchanged.refl call.output fs)
  | created temp n htemp =>
    left
    obtain ⟨hentry, hfresh⟩ := hpossible
    refine ⟨Function.update_of_ne htemp.ne.symm _ _, fun other hother => ?_⟩
    apply Function.update_of_ne
    intro heq
    exact hfresh.entry call.output (heq ▸ hother)
  | owning temp file hstage =>
    rcases Owns.unchanged h hpossible hstage with hsame | ⟨rfl, hnone⟩
    · exact .inl hsame
    · right
      cases hstage with
      | linked draft => exact ⟨id, trivial, hnone⟩
      | directory _ _ _ _ _ hcall => cases hcall

/-- What is committed stays so. -/
lemma Phase.Committed.step (h : φ.Committed) (hstep : Phase.Step call φ e ψ) : ψ.Committed := by
  cases hstep with
  | checked | unchecked | created | taken | failed => exact h.elim
  | owning temp file hstage =>
    cases hstage with
    | remove | directory => trivial
    | opened | orphaned | closeDescriptor | openInput | written | unwritten | flushed | unflushed
    | synced | unsynced | closed | unclosed | abandon | giveUp | linked | refused | unlinkable
    | drop => exact h.elim

/-- Only a link that succeeds commits. -/
lemma Phase.Committed.of_step (h : ψ.Committed) (hstep : Phase.Step call φ e ψ) :
    φ.Committed ∨ ∃ temp, e = .link temp call.output .linked := by
  cases hstep with
  | checked | unchecked | created | taken | failed => exact h.elim
  | owning temp file hstage =>
    cases hstage with
    | linked draft => exact .inr ⟨temp, rfl⟩
    | remove | directory => exact .inl trivial
    | opened | orphaned | closeDescriptor | openInput | written | unwritten | flushed | unflushed
    | synced | unsynced | closed | unclosed | abandon | giveUp | refused | unlinkable | drop =>
      exact h.elim

/-- A link that succeeds commits. -/
lemma Phase.committed_of_link {temp : Path}
    (hstep : Phase.Step call φ (.link temp call.output .linked) ψ) : ψ.Committed := by
  cases hstep with
  | owning temp file hstage =>
    cases hstage with
    | linked draft => trivial
    | directory _ _ _ _ _ hcall => cases hcall

/-- **A committed result stays committed** to the end of the trace. -/
lemma Phase.Committed.foldlM {trace : List Event} (h : φ.Committed)
    (htrace : trace.foldlM (Phase.next call) φ = some ψ) : ψ.Committed := by
  induction trace generalizing φ with
  | nil =>
    obtain rfl := Option.some.inj htrace
    exact h
  | cons e trace ih =>
    obtain ⟨χ, hnext, hrest⟩ := Option.bind_eq_some_iff.mp htrace
    exact ih (h.step (Phase.step_of_next hnext)) hrest

/-- The created file and its name are those of the trace. -/
lemma created_mem_iff {trace : List Event} (h : phaseAfter call trace = some φ) (temp : Path)
    (n : ℕ) : .openExclusive temp (.created n) ∈ trace ↔ ∃ stage, φ = .owning temp n stage := by
  induction trace using List.reverseRecOn generalizing φ with
  | nil =>
    obtain rfl : Phase.checking = φ := Option.some.inj h
    simp
  | append_singleton trace e ih =>
    rw [phaseAfter, List.foldlM_append] at h
    obtain ⟨χ, hχ, hnext⟩ := Option.bind_eq_some_iff.mp h
    have hnext' : χ.next call e = some φ := by simpa using hnext
    rw [List.mem_append, List.mem_singleton, ih hχ]
    cases Phase.step_of_next hnext' with
    -- The step that creates the file is the only one that leads to its phase.
    | created temp' n' htemp =>
      simp only [reduceCtorEq, exists_false, false_or, Event.openExclusive.injEq,
        Creation.created.injEq, Phase.owning.injEq]
      constructor
      · rintro ⟨rfl, rfl⟩
        exact ⟨.created, rfl, rfl, rfl⟩
      · rintro ⟨stage, rfl, rfl, -⟩
        exact ⟨rfl, rfl⟩
    | checked | unchecked | taken | failed => simp
    | owning temp' file' hstage =>
      have hother : .openExclusive temp (.created n) ≠ e := by
        rintro rfl
        cases hstage with
        | directory _ _ _ _ _ hcall => cases hcall
      simp only [hother, or_false, Phase.owning.injEq]
      constructor
      · rintro ⟨stage, rfl, rfl, -⟩
        exact ⟨_, rfl, rfl, rfl⟩
      · rintro ⟨stage, rfl, rfl, -⟩
        exact ⟨_, rfl, rfl, rfl⟩

/-- The file a call creates gets a temporary name. -/
lemma isTempPath_of_created {trace : List Event} {temp : Path} {n : ℕ}
    (h : phaseAfter call trace = some φ) (hmem : .openExclusive temp (.created n) ∈ trace) :
    IsTempPath call.output temp := by
  obtain ⟨before, after, rfl⟩ := List.append_of_mem hmem
  obtain ⟨χ, -, hlast⟩ := foldlM_append_iff.mp h
  obtain ⟨χ', hnext, -⟩ := Option.bind_eq_some_iff.mp hlast
  cases Phase.step_of_next hnext with
  | created _ _ htemp => exact htemp
  | owning _ _ hstage =>
    cases hstage with
    | directory _ _ _ _ _ hcall => cases hcall

end Phases

end SecureKit.File
