import SecureKit.File.Parametric
import SecureKit.File.Path
import SecureKit.File.RoundTrip

/-!
# What a path overload does, step by step

A call of a path overload looks for a temporary name, creates the file, writes it, flushes, syncs
and closes it, links it to the output, and removes the temporary name.  Anything can fail on the
way.  `Phase` is how far a call has come and `Phase.next` what it does next: an automaton over the
system calls and their answers, which is the only thing the results about file systems need to know
of the code.

The specifications below say that the functions of `src/file_io.cpp` follow the automaton
(`Process.In`), and `outcome_body` that the overloads do, together with what is known when they end.
A payload function follows it because it goes as it would into a stream
(`simulates_openStream`): the bytes written to the file are those written to the stream, until a
write fails.

## The stages of a file

Behind the creation a call owns a file, and `Stage` says how far this file has come: just created,
orphaned by a failing `fdopen`, being written, flushed, synced, closed, discarded or linked.  The
`Draft` is what is known of its contents, the input it is made of and the bytes that were taken.
`TempName` is what has become of the temporary name, which the clean-up may find removed already.

`Failed` and `Uncommitted` are the ways in which a call breaks off, and `Committed` the one in which it
has linked a complete file.  They keep track of a failed call on the directory behind the link, as
this is the one case in which a call throws and the output is there.
-/

namespace SecureKit.File

open ByteString Effect Iostream Evp Posix

/-! ## The automaton -/

/-- The temporary name: not removed yet, removed, or left because it could not be removed. -/
inductive TempName
  | pending
  | removed
  | stuck
  deriving DecidableEq

/-- An attempt to remove the name. -/
def TempName.attempt (ok : Bool) : TempName → TempName
  | .removed => .removed
  | _ => if ok then .removed else .stuck

/-- The input the call has opened, and what it has written to its file. -/
structure Draft where
  source : Option Source := none
  bytes : Bytes := []

/-- The file holds what is known to belong to the input. -/
def Draft.Complete (P : Source → Bytes → Prop) (draft : Draft) : Prop :=
  ∃ source, draft.source = some source ∧ P source draft.bytes

/-- How far a call has come with the file it created. -/
inductive Stage
  | created
  /-- There is no `FILE *`, and the call does not remove the file. -/
  | orphaned
  | writing (draft : Draft)
  /-- A write or a flush has failed. -/
  | broken
  | flushed (draft : Draft)
  | synced (draft : Draft)
  | closed (draft : Draft)
  /-- The result is given up, because the output exists (`refused`) or something else went wrong. -/
  | discarded (refused : Bool) (name : TempName)
  /-- The result is committed; `durable` as long as no call on the directory has failed. -/
  | linked (draft : Draft) (name : TempName) (durable : Bool)
  
/-- How far a call has come. -/
inductive Phase
  | checking
  | searching
  /-- The call has ended without a file. -/
  | ended
  | owning (temp : Path) (file : ℕ) (stage : Stage)

/-- The next stage of a file created under the name `temp`. -/
def Stage.next (call : PathCall) (temp : Path) (file : ℕ) : Stage → Event → Option Stage
  | created, .fdopen n ok => if n = file then some (if ok then writing {} else orphaned) else none
  | orphaned, .closeDescriptor n => if n = file then some orphaned else none
  | writing draft, .openInput path answer =>
    if path = call.input then some (writing { draft with source := answer }) else none
  | writing draft, .fwrite n data accepted _ =>
    if n = file then
      some (if accepted = data.length then writing { draft with bytes := draft.bytes ++ data }
        else broken)
    else none
  | writing draft, .fflush n ok _ =>
    if n = file then some (if ok then flushed draft else broken) else none
  | flushed draft, .fsync n ok =>
    if n = file then some (if ok then synced draft else broken) else none
  | synced draft, .fclose n ok _ =>
    if n = file then some (if ok then closed draft else discarded false .pending) else none
  | writing _, .fclose n _ _ => if n = file then some (discarded false .pending) else none
  | broken, .fclose n _ _ => if n = file then some (discarded false .pending) else none
  | closed draft, .link source target answer =>
    if source = temp ∧ target = call.output then
      some (match answer with
        | .linked => linked draft .pending true
        | .already_exists => discarded true .pending
        | .failed => discarded false .pending)
    else none
  | discarded refused .pending, .unlink path ok =>
    if path = temp then some (discarded refused (TempName.pending.attempt ok)) else none
  | linked draft name durable, .unlink path ok =>
    if path = temp ∧ (name = .pending ∨ durable = false) then
      some (linked draft (name.attempt ok) durable)
    else none
  | linked draft name durable, .openDirectory _ ok => some (linked draft name (durable && ok))
  | linked draft name durable, .syncDirectory ok => some (linked draft name (durable && ok))
  | linked draft name durable, .closeDirectory ok => some (linked draft name (durable && ok))
  | _, _ => none

/-- The next phase of a call whose output is `output`. -/
def Phase.next (call : PathCall) : Phase → Event → Option Phase
  | checking, .status path answer =>
    if path = call.output then some (if answer = some false then searching else ended) else none
  | searching, .openExclusive path answer =>
    if IsTempPath call.output path then
      some (match answer with
        | .created n => owning path n .created
        | .already_exists => searching
        | .failed => ended)
    else none
  | owning temp file stage, e => (stage.next call temp file e).map (owning temp file)
  | _, _ => none

/-- The phase a trace leads to. -/
def phaseAfter (call : PathCall) (trace : List Event) : Option Phase :=
  trace.foldlM (Phase.next call) .checking

/-- The `OutputFile` in a phase. -/
def Phase.out : Phase → OutputFile
  | owning temp file stage =>
    match stage with
    | .created | .orphaned => {}
    | .writing _ | .broken | .flushed _ | .synced _ => { path := temp, file := some file }
    | .closed _ | .discarded _ _ | .linked _ _ _ => { path := temp, file := none }
  | _ => {}

/-- The call has come to a phase. -/
structure Process.In {kernel : Kernel} (p : Process kernel) (call : PathCall) (φ : Phase) : Prop where
  trace : phaseAfter call p.trace = some φ
  out : p.out = φ.out

/-! ## The functions of `src/file_io.cpp` follow it -/

section Functions

variable {kernel : Kernel} {call : PathCall} {temp : Path} {file : ℕ} {p : Process kernel} {φ ψ : Phase}
  {α : Type}

@[simp] lemma outcome_sys {answer : Kernel → ℕ → α} {event : α → Event}
    {Q : α → Process kernel → Prop} {E : Error → Process kernel → Prop} :
    Outcome (sys answer event) p Q E ↔
      Q (answer kernel p.trace.length) (p.record (event (answer kernel p.trace.length))) := Iff.rfl

/-- A system call that the automaton admits leads to its next phase, if the `OutputFile` goes
along. -/
lemma Process.In.step (h : p.In call φ) {e : Event} (hnext : φ.next call e = some ψ)
    (hout : ψ.out = φ.out) : (p.record e).In call ψ :=
  ⟨(foldlM_concat h.trace e).trans hnext, h.out.trans hout.symm⟩

lemma Process.In.step_out (h : p.In call φ) {e : Event} (hnext : φ.next call e = some ψ)
    {out : OutputFile} (hout : out = ψ.out) : ((p.record e).holding out).In call ψ :=
  ⟨(foldlM_concat h.trace e).trans hnext, hout⟩

lemma outcome_closeQuietly_none {Q : Unit → Process kernel → Prop}
    {E : Error → Process kernel → Prop} (h : p.out.file = none) :
    Outcome closeQuietly p Q E ↔ Q () p := by
  simp only [closeQuietly, outcome_bind, outcome_get, h, outcome_pure]

lemma outcome_closeQuietly_some {Q : Unit → Process kernel → Prop}
    {E : Error → Process kernel → Prop} (h : p.out.file = some file)
    (hok : ∀ ok moved, Q () ((p.record (.fclose file ok moved)).holding ⟨p.out.path, none⟩)) :
    Outcome closeQuietly p Q E := by
  simp only [closeQuietly, outcome_bind, outcome_get, h, outcome_sys, outcome_modify]
  exact hok _ _

lemma outcome_ensureOutputDoesNotExist (h : p.In call .checking) :
    Outcome (ensureOutputDoesNotExist call.output) p (fun _ p' => p'.In call .searching)
      (fun _ p' => p'.In call .ended) := by
  simp only [ensureOutputDoesNotExist, outcome_bind, outcome_sys, outcome_throwIf]
  cases hanswer : kernel.status p.trace.length call.output with
  | none =>
    rw [outcome_orThrow_none]
    exact h.step (by simp [Phase.next]) rfl
  | some found =>
    rw [outcome_orThrow_some]
    cases found with
    | true => exact ⟨fun _ => h.step (by simp [Phase.next]) rfl, fun hnot => absurd rfl hnot⟩
    | false => exact ⟨fun htrue => absurd htrue (by simp), fun _ => h.step (by simp [Phase.next]) rfl⟩

/-- What an attempt to create the temporary file can come to. -/
def Attempted (call : PathCall) (temp : Path) (p : Process kernel) : ExclusiveOpenResult → Prop
  | .opened => ∃ file, p.In call (.owning temp file (.writing {}))
  | .already_exists => p.In call .searching
  | .failed => p.In call .ended ∨ ∃ file, p.In call (.owning temp file .orphaned)

lemma outcome_tryOpenOutputExclusive (h : p.In call .searching) (htemp : IsTempPath call.output temp) :
    Outcome (tryOpenOutputExclusive temp) p (fun result p' => Attempted call temp p' result)
      (fun _ _ => False) := by
  simp only [tryOpenOutputExclusive, outcome_bind, outcome_sys]
  cases hanswer : kernel.openExclusive p.trace.length temp with
  | already_exists => exact h.step (by simp [Phase.next, htemp]) rfl
  | failed => exact .inl (h.step (by simp [Phase.next, htemp]) rfl)
  | created fd =>
    have hcreated : (p.record (.openExclusive temp (.created fd))).In call
        (.owning temp fd .created) := h.step (by simp [Phase.next, htemp]) rfl
    simp only [outcome_bind, outcome_sys, outcome_ite, outcome_pure]
    refine ⟨fun hfalse => ?_, fun htrue => ?_⟩
    · rw [hfalse]
      have horphaned := hcreated.step (ψ := .owning temp fd .orphaned) (e := .fdopen fd false)
        (by simp [Phase.next, Stage.next]) rfl
      exact .inr ⟨fd, horphaned.step (by simp [Phase.next, Stage.next]) rfl⟩
    · rw [Bool.not_eq_false] at htrue
      rw [htrue]
      have hwriting := hcreated.step_out (ψ := .owning temp fd (.writing {})) (e := .fdopen fd true)
        (by simp [Phase.next, Stage.next]) rfl
      rw [assign, outcome_bind, outcome_closeQuietly_none (by exact congrArg OutputFile.file h.out)]
      exact ⟨fd, hwriting⟩

/-- What an unsuccessful search leaves behind. -/
def Unfound (call : PathCall) (p : Process kernel) : Prop :=
  p.In call .searching ∨ p.In call .ended ∨
    ∃ temp file, p.In call (.owning temp file .orphaned)

lemma outcome_openUniqueTempLoop {ssl : Openssl} (attempts : ℕ) {w : World (Process kernel)}
    (h : w.output.In call .searching) :
    Outcome (openUniqueTempLoop ssl call.output attempts) w
      (fun _ w' => ∃ temp file, w'.output.In call (.owning temp file (.writing {})))
      (fun _ w' => Unfound call w'.output) := by
  induction attempts generalizing w with
  | zero => exact .inl h
  | succ attempts ih =>
    rw [openUniqueTempLoop, outcome_bind, outcome_onLib, makeUniqueTempPath, outcome_bind]
    apply outcome_intro
    · intro token lib _
      rw [outcome_pure, outcome_bind, outcome_onOutput]
      have htemp := isTempPath_tempSuffix call.output token
      apply (outcome_tryOpenOutputExclusive h htemp).mono
      · intro result p' hattempted
        cases result with
        | opened =>
          obtain ⟨file, hfile⟩ := hattempted
          exact ⟨_, file, hfile⟩
        -- The next attempt draws another name.
        | already_exists => exact ih hattempted
        | failed =>
          -- `open` has failed, or `fdopen` has, and then the new file stays behind.
          apply Or.inr
          apply hattempted.imp_right
          intro horphaned
          exact ⟨_, horphaned⟩
      · intro _ _ hfalse
        exact hfalse.elim
    · intro _ _ _
      exact .inl h

lemma outcome_openUniqueTempOutput {ssl : Openssl} {w : World (Process kernel)}
    (h : w.output.In call .searching) :
    Outcome (openUniqueTempOutput ssl call.output) w
      (fun _ w' => ∃ temp file, w'.output.In call (.owning temp file (.writing {})))
      (fun _ w' => Unfound call w'.output) :=
  outcome_openUniqueTempLoop 32 h

lemma outcome_flushFile {draft : Draft} (h : p.In call (.owning temp file (.writing draft))) :
    Outcome flushFile p (fun _ p' => p'.In call (.owning temp file (.synced draft)))
      (fun _ p' => p'.In call (.owning temp file .broken)) := by
  have hfile : p.out.file = some file := congrArg OutputFile.file h.out
  simp only [flushFile, outcome_bind, outcome_get, hfile, outcome_sys, outcome_throwIf]
  obtain ⟨ok, moved⟩ := kernel.fflush p.trace.length file
  refine ⟨fun hfalse => ?_, fun htrue => ?_⟩
  · subst hfalse
    exact h.step (by simp [Phase.next, Stage.next]) rfl
  · rw [Bool.not_eq_false] at htrue
    subst htrue
    have hflushed := h.step (ψ := .owning temp file (.flushed draft)) (e := .fflush file true moved)
      (by simp [Phase.next, Stage.next]) rfl
    refine ⟨fun hfalse => ?_, fun htrue => ?_⟩
    · rw [hfalse]
      exact hflushed.step (by simp [Phase.next, Stage.next]) rfl
    · rw [Bool.not_eq_false] at htrue
      rw [htrue]
      exact hflushed.step (by simp [Phase.next, Stage.next]) rfl

lemma outcome_closeFile {draft : Draft} (h : p.In call (.owning temp file (.synced draft))) :
    Outcome closeFile p (fun _ p' => p'.In call (.owning temp file (.closed draft)))
      (fun _ p' => p'.In call (.owning temp file (.discarded false .pending))) := by
  have hfile : p.out.file = some file := congrArg OutputFile.file h.out
  have hpath : p.out.path = temp := congrArg OutputFile.path h.out
  simp only [closeFile, outcome_bind, outcome_get, hfile, outcome_modify, outcome_sys,
    outcome_throwIf]
  obtain ⟨ok, moved⟩ := kernel.fclose _ file
  refine ⟨fun hfalse => ?_, fun htrue => ?_⟩
  · subst hfalse
    apply h.step_out (e := .fclose file false moved) (by simp [Phase.next, Stage.next])
    rw [hpath]
    rfl
  · rw [Bool.not_eq_false] at htrue
    subst htrue
    apply h.step_out (e := .fclose file true moved) (by simp [Phase.next, Stage.next])
    rw [hpath]
    rfl

lemma TempName.attempt_ne_pending (ok : Bool) (name : TempName) : name.attempt ok ≠ .pending := by
  cases name <;> cases ok <;> decide

/-- A call on the directory, which ends the hope for durability if it fails. -/
inductive IsDirectoryCall (b : Bool) : Event → Prop
  | opened (path : Path) : IsDirectoryCall b (.openDirectory path b)
  | synced : IsDirectoryCall b (.syncDirectory b)
  | closed : IsDirectoryCall b (.closeDirectory b)

lemma Process.In.directory {draft : Draft} {name : TempName} {durable b : Bool} {e : Event}
    (h : p.In call (.owning temp file (.linked draft name durable))) (he : IsDirectoryCall b e) :
    (p.record e).In call (.owning temp file (.linked draft name (durable && b))) := by
  cases he with
  | opened path => exact h.step rfl rfl
  | synced => exact h.step rfl rfl
  | closed => exact h.step rfl rfl

lemma outcome_flushParentDirectory {draft : Draft} {name : TempName}
    (h : p.In call (.owning temp file (.linked draft name true))) :
    Outcome (flushParentDirectory call.output) p
      (fun _ p' => p'.In call (.owning temp file (.linked draft name true)))
      (fun _ p' => p'.In call (.owning temp file (.linked draft name false))) := by
  simp only [flushParentDirectory, outcome_bind, outcome_sys, outcome_throwIf, outcome_ite,
    outcome_throw]
  refine ⟨fun hfalse => ?_, fun htrue => ?_⟩
  · rw [hfalse]
    exact h.directory (.opened _)
  · rw [Bool.not_eq_false] at htrue
    rw [htrue]
    have hopened := h.directory (.opened (b := true) (parentPath call.output))
    refine ⟨fun hfalse => ?_, fun htrue => ?_⟩
    · rw [hfalse]
      exact (hopened.directory (.synced (b := false))).directory .closed
    · rw [Bool.not_eq_false] at htrue
      rw [htrue]
      have hsynced := hopened.directory (.synced (b := true))
      refine ⟨fun hfalse => ?_, fun htrue => ?_⟩
      · rw [hfalse]
        exact hsynced.directory .closed
      · rw [Bool.not_eq_false] at htrue
        rw [htrue]
        exact hsynced.directory .closed

/-- How the `try` block is left by a throw: with the file open, with the file closed, or behind the
link. `P` is what is known of a file that was written to its end. -/
inductive Uncommitted (call : PathCall) (temp : Path) (file : ℕ) (P : Source → Bytes → Prop) (error : Error)
    (p : Process kernel) : Prop
  | writing (draft : Draft) (h : p.In call (.owning temp file (.writing draft)))
  | broken (h : p.In call (.owning temp file .broken))
  | discarded (refused : Bool)
    (h : p.In call (.owning temp file (.discarded refused .pending)))
    (hrefused : refused = true → error = outputExists)
  | linked (draft : Draft) (name : TempName) (hname : name ≠ .pending) (hdraft : draft.Complete P)
    (h : p.In call (.owning temp file (.linked draft name false)))

/-- How the function is left by a throw, the removal of the temporary name attempted. -/
inductive Failed (call : PathCall) (temp : Path) (file : ℕ) (P : Source → Bytes → Prop) (error : Error)
    (p : Process kernel) : Prop
  | discarded (refused : Bool) (name : TempName) (hname : name ≠ .pending)
    (h : p.In call (.owning temp file (.discarded refused name)))
    (hrefused : refused = true → error = outputExists)
  | linked (draft : Draft) (name : TempName) (hname : name ≠ .pending) (hdraft : draft.Complete P)
    (h : p.In call (.owning temp file (.linked draft name false)))

/-- An attempt to remove the temporary name of a result that is given up. -/
lemma Process.In.remove_discarded {refused : Bool}
    (h : p.In call (.owning temp file (.discarded refused .pending))) (ok : Bool) :
    ∃ name, name ≠ .pending ∧
      (p.record (.unlink temp ok)).In call (.owning temp file (.discarded refused name)) :=
  ⟨_, TempName.attempt_ne_pending ok .pending, h.step (by simp [Phase.next, Stage.next]) rfl⟩

/-- An attempt to remove the temporary name of a result that is committed. -/
lemma Process.In.remove_linked {draft : Draft} {name : TempName} {durable : Bool}
    (h : p.In call (.owning temp file (.linked draft name durable)))
    (hname : name = .pending ∨ durable = false) (ok : Bool) :
    ∃ name', name' ≠ .pending ∧
      (p.record (.unlink temp ok)).In call (.owning temp file (.linked draft name' durable)) :=
  ⟨_, TempName.attempt_ne_pending ok name, h.step (by simp [Phase.next, Stage.next, hname]) rfl⟩

section TempFile

variable {P : Source → Bytes → Prop} {error : Error}

lemma outcome_commitTempFile {draft : Draft} (hdraft : draft.Complete P)
    (h : p.In call (.owning temp file (.closed draft))) :
    Outcome (commitTempFile temp call.output) p
      (fun _ p' => ∃ name, name ≠ .pending ∧
        p'.In call (.owning temp file (.linked draft name true)))
      (fun error p' => Uncommitted call temp file P error p') := by
  simp only [commitTempFile, outcome_bind, outcome_sys]
  cases hanswer : kernel.link p.trace.length temp call.output with
  | already_exists =>
    exact .discarded true (h.step (by simp [Phase.next, Stage.next]) rfl) fun _ => rfl
  | failed =>
    exact .discarded false (h.step (by simp [Phase.next, Stage.next]) rfl) fun hfalse => by cases hfalse
  | linked =>
    have hlinked := h.step (ψ := .owning temp file (.linked draft .pending true))
      (e := .link temp call.output .linked) (by simp [Phase.next, Stage.next]) rfl
    simp only [removeQuietly, outcome_bind, outcome_sys, outcome_pure]
    obtain ⟨name, hname, hremoved⟩ := hlinked.remove_linked (.inl rfl)
      (kernel.unlink (p.record (.link temp call.output .linked)).trace.length temp)
    apply (outcome_flushParentDirectory hremoved).mono
    · intro _ p' h'
      exact ⟨name, hname, h'⟩
    · intro _ p' h'
      exact .linked draft name hname hdraft h'

/-- An open file is closed first. -/
lemma outcome_cleanUp_of_open {stage : Stage} (h : p.In call (.owning temp file stage))
    (hout : p.out = { path := temp, file := some file })
    (hclose : ∀ ok moved,
      stage.next call temp file (.fclose file ok moved) = some (.discarded false .pending)) :
    Outcome (cleanUp temp error) p (fun _ _ => False)
      (fun e p' => e = error ∧ Failed call temp file P error p') := by
  simp only [cleanUp, outcome_bind]
  apply outcome_closeQuietly_some (congrArg OutputFile.file hout)
  intro ok moved
  have hclosed : ((p.record (.fclose file ok moved)).holding ⟨p.out.path, none⟩).In call
      (.owning temp file (.discarded false .pending)) := by
    apply h.step_out
    · simp [Phase.next, hclose]
    · rw [hout]
      rfl
  simp only [removeQuietly, outcome_bind, outcome_sys, outcome_pure, outcome_throw]
  obtain ⟨name, hname, hremoved⟩ := hclosed.remove_discarded (kernel.unlink _ temp)
  refine ⟨trivial, .discarded false name hname hremoved fun hfalse => ?_⟩
  cases hfalse

/-- **The `catch` block** removes the temporary name, or tries to. -/
lemma outcome_cleanUp (h : Uncommitted call temp file P error p) :
    Outcome (cleanUp temp error) p (fun _ _ => False)
      (fun e p' => e = error ∧ Failed call temp file P error p') := by
  cases h with
  | writing draft h => exact outcome_cleanUp_of_open h h.out fun _ _ => by simp [Stage.next]
  | broken h => exact outcome_cleanUp_of_open h h.out fun _ _ => by simp [Stage.next]
  | discarded refused h hrefused =>
    have hfile : p.out.file = none := congrArg OutputFile.file h.out
    simp only [cleanUp, removeQuietly, outcome_bind, outcome_closeQuietly_none hfile, outcome_sys,
      outcome_pure, outcome_throw]
    obtain ⟨name, hname, hremoved⟩ := h.remove_discarded (kernel.unlink p.trace.length temp)
    exact ⟨trivial, .discarded refused name hname hremoved hrefused⟩
  | linked draft name hname hdraft h =>
    have hfile : p.out.file = none := congrArg OutputFile.file h.out
    simp only [cleanUp, removeQuietly, outcome_bind, outcome_closeQuietly_none hfile, outcome_sys,
      outcome_pure, outcome_throw]
    obtain ⟨name', hname', hremoved⟩ := h.remove_linked (.inr rfl) (kernel.unlink p.trace.length temp)
    exact ⟨trivial, .linked draft name' hname' hdraft hremoved⟩

/-- How a function that writes through a temporary file ends: it has committed, or thrown without
finding a name, or thrown and cleaned up. -/
def Committed (call : PathCall) (P : Source → Bytes → Prop) (p : Process kernel) : Prop :=
  ∃ temp file draft name, name ≠ .pending ∧ draft.Complete P ∧
    p.In call (.owning temp file (.linked draft name true))

def Aborted (call : PathCall) (P : Source → Bytes → Prop) (error : Error) (p : Process kernel) : Prop :=
  Unfound call p ∨ ∃ temp file, Failed call temp file P error p

/-- What a body between the opening of the input and the flush does to its file. -/
def Fills (call : PathCall) (P : Source → Bytes → Prop) (body : Eff (World (Process kernel)) Unit) :
    Prop :=
  ∀ (w : World (Process kernel)) temp file source, w.input = { source } →
    w.output.In call (.owning temp file (.writing { source := some source })) →
    Outcome body w
      (fun _ w' => ∃ bytes, P source bytes ∧
        w'.output.In call (.owning temp file (.writing { source := some source, bytes })))
      (fun _ w' => w'.output.In call (.owning temp file .broken) ∨
        ∃ draft, w'.output.In call (.owning temp file (.writing draft)))

/-- **Writing through a temporary file**, with a body that follows the automaton. -/
theorem outcome_throughTempFile {ssl : Openssl} {body : Eff (World (Process kernel)) Unit}
    {w : World (Process kernel)} (h : w.output.In call .searching) (hbody : Fills call P body) :
    Outcome (throughTempFile ssl call.input call.output body) w
      (fun _ w' => Committed call P w'.output)
      (fun error w' => Aborted call P error w'.output) := by
  rw [throughTempFile, outcome_bind]
  refine (outcome_openUniqueTempOutput h).mono ?_ fun _ _ hunfound => .inl hunfound
  intro _ w₁ hfound
  obtain ⟨temp, file, hwriting⟩ := hfound
  have hpath : w₁.output.out.path = temp := congrArg OutputFile.path hwriting.out
  rw [outcome_bind, outcome_get, hpath, outcome_tryCatch]
  simp only [outcome_onOutput]
  have htry : Outcome (do
      openInput call.input
      body
      onOutput flushFile
      onOutput closeFile
      onOutput (commitTempFile temp call.output)) w₁
      (fun _ w' => Committed call P w'.output)
      (fun error w' => Uncommitted call temp file P error w'.output) := by
    simp only [openInput, outcome_bind, outcome_onOutput, outcome_sys, outcome_modify]
    have hopened : ∀ answer, (w₁.output.record (.openInput call.input answer)).In call
        (.owning temp file (.writing { source := answer })) := by
      intro answer
      exact hwriting.step (by simp [Phase.next, Stage.next]) rfl
    cases hanswer : kernel.openInput w₁.output.trace.length call.input with
    -- The input cannot be opened; the file is empty.
    | none => exact .writing _ (hopened none)
    | some source =>
      rw [outcome_orThrow_some]
      refine (hbody _ temp file source rfl (hopened (some source))).mono ?_ ?_
      · intro _ w₂ hfilled
        -- The body has filled the file; what is left is to flush, to close and to commit.
        obtain ⟨bytes, hbytes, hwritten⟩ := hfilled
        apply (outcome_flushFile hwritten).mono
        · intro _ p₃ hsynced
          apply (outcome_closeFile hsynced).mono
          · intro _ p₄ hclosed
            apply (outcome_commitTempFile ⟨source, rfl, hbytes⟩ hclosed).mono
            · intro _ p₅ hlinked
              obtain ⟨name, hname, hlinked⟩ := hlinked
              exact ⟨temp, file, _, name, hname, ⟨source, rfl, hbytes⟩, hlinked⟩
            · intro error p₅ huncommitted
              exact huncommitted
          · intro _ p₄ hdiscarded
            exact .discarded false hdiscarded fun hfalse => by cases hfalse
        · intro _ p₃ hbroken
          exact .broken hbroken
      · intro _ w₂ hthrown
        rcases hthrown with hbroken | ⟨draft, hdraft⟩
        · exact .broken hbroken
        · exact .writing draft hdraft
  apply htry.mono
  · intro _ w' hcommitted
    exact hcommitted
  · intro error w' huncommitted
    apply (outcome_cleanUp huncommitted).mono
    · intro _ _ hfalse
      exact hfalse.elim
    · intro e p' hfailed
      -- The clean-up throws the same error again.
      obtain ⟨rfl, hfailed⟩ := hfailed
      exact .inr ⟨temp, file, hfailed⟩

end TempFile

end Functions

end SecureKit.File
