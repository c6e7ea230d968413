import SecureKit.Base.Lifetime
import SecureKit.File.AllOrNothing

/-!
# Who owns a `FILE *`

The class `OutputFile` of `src/file_io.cpp` takes over a `FILE *` when it is constructed from one, and
closes it: in `close`, in `discard`, in the move assignment that replaces it, or in the destructor.  A
move leaves the other object with a null pointer.

`Objects` are any number of such objects, `OutputFile.Op` what is done with them, and `Objects.step`
runs one operation.  A method that throws leaves its object as it is at the throw, and the caller may
go on.  `outputFile_linear` says that the objects own their `FILE *`s linearly, whatever the calls of
the C library answer.

`PathCall.closes` is the same for the one `OutputFile` of a call of a path overload.

## The argument

`Base.Lifetime` has the general notion: a trace of acquiring, using and releasing resources, and the
owners of what is open (`Linear`).  `handleAct` reads the calls of the C library in this way, so
`fdopen` acquires, `fwrite`, `fflush` and `fsync` use, and `fclose` releases, whether it succeeds or
not.

A method does one of a few things with its `FILE *` (`Handled`): it uses it, or closes it and forgets
it.  With that `Objects.Inv.step` has one case for each operation of the class.  The moves are the
cases that matter.  An assignment closes the file of its target, unless an object is assigned to
itself, and takes over that of the other one.

`Objects.Admits` is what C++ asks of a program: objects are constructed before they are used,
writing is for objects that have a file, and `fdopen` returns no `FILE *` that is still open.  In
`twoFiles` an object that has a file takes over another one, while every `fclose` fails.
-/

namespace SecureKit.File

open ByteString Effect Evp Posix Lifetime

/-! ## What the C library is asked -/

/-- What a call does with a `FILE *`. -/
def handleAct : Event → Option (Act ℕ)
  | .fdopen file true => some (.acquire file)
  | .fwrite file _ _ _ | .fflush file _ _ | .fsync file _ => some (.use file)
  | .fclose file _ _ => some (.release file)
  | _ => none

def handleActs (trace : List Event) : List (Act ℕ) := trace.filterMap handleAct

@[simp] lemma handleActs_append (trace trace' : List Event) :
    handleActs (trace ++ trace') = handleActs trace ++ handleActs trace' :=
  List.filterMap_append

/-- The `FILE *`s that are open behind a trace. -/
def openHandles (trace : List Event) : Finset ℕ := heldAfter ∅ (handleActs trace)

/-! ## Methods -/

/-- What a method does with the `FILE *` of its object: it uses it, or closes it and forgets it. -/
inductive Handled {kernel : Kernel} (p p' : Process kernel) : Prop
  | used (calls : List Event) (hfile : p'.out.file = p.out.file) (htrace : p'.trace = p.trace ++ calls)
    (huses : ∀ a ∈ handleActs calls, ∃ file, p.out.file = some file ∧ a = .use file)
  | closed (file : ℕ) (ok : Bool) (moved : ℕ) (hfile : p.out.file = some file)
    (hnone : p'.out.file = none) (htrace : p'.trace = p.trace ++ [.fclose file ok moved])

section Methods

variable {kernel : Kernel} {p : Process kernel}

lemma Handled.refl (p : Process kernel) : Handled p p :=
  .used [] rfl (List.append_nil _).symm fun _ h => by cases h

lemma outcome_closeQuietly_handled :
    Outcome closeQuietly p (fun _ p' => Handled p p' ∧ p'.out.file = none) fun _ _ => False := by
  cases hfile : p.out.file with
  | none =>
    rw [outcome_closeQuietly_none hfile]
    exact ⟨.refl p, hfile⟩
  | some file =>
    apply outcome_closeQuietly_some hfile
    intro ok moved
    exact ⟨.closed file ok moved hfile rfl rfl, rfl⟩

/-- `close` forgets the `FILE *` before it closes it, so it does so also where it throws. -/
lemma outcome_closeFile_handled :
    Outcome closeFile p (fun _ p' => Handled p p' ∧ p'.out.file = none)
      fun _ p' => Handled p p' ∧ p'.out.file = none := by
  cases hfile : p.out.file with
  | none =>
    simp only [closeFile, outcome_bind, outcome_get, hfile, outcome_pure]
    exact ⟨.refl p, trivial⟩
  | some file =>
    simp only [closeFile, outcome_bind, outcome_get, hfile, outcome_modify, outcome_sys,
      outcome_throwIf]
    have hclosed : ∀ ok moved, Handled p
        ((p.holding ⟨p.out.path, none⟩).record (.fclose file ok moved)) :=
      fun ok moved => .closed file ok moved hfile rfl rfl
    exact ⟨fun _ => ⟨hclosed _ _, rfl⟩, fun _ => ⟨hclosed _ _, rfl⟩⟩

lemma outcome_flushFile_handled :
    Outcome flushFile p (fun _ => Handled p) fun _ => Handled p := by
  cases hfile : p.out.file with
  | none =>
    simp only [flushFile, outcome_bind, outcome_get, hfile, outcome_pure]
    exact .refl p
  | some file =>
    simp only [flushFile, outcome_bind, outcome_get, hfile, outcome_sys, outcome_throwIf]
    have hflushed : ∀ ok moved, Handled p (p.record (.fflush file ok moved)) :=
      fun ok moved => .used [_] rfl rfl (by simp [handleActs, handleAct, hfile])
    have hsynced : ∀ ok moved ok', Handled p
        ((p.record (.fflush file ok moved)).record (.fsync file ok')) := by
      intro ok moved ok'
      refine .used [_, _] rfl (List.append_assoc _ _ _) ?_
      simp [handleActs, handleAct, hfile]
    exact ⟨fun _ => hflushed _ _, fun _ => ⟨fun _ => hsynced _ _ _, fun _ => hsynced _ _ _⟩⟩

/-- An open object writes to its `FILE *`. -/
lemma outcome_writeFile_handled (hopen : p.out.file ≠ none) (data : Bytes) :
    Outcome (writeFile data) p (fun _ => Handled p) fun _ => Handled p := by
  obtain ⟨file, hfile⟩ := Option.ne_none_iff_exists'.mp hopen
  have hwritten : ∀ accepted moved, Handled p (p.record (.fwrite file data accepted moved)) :=
    fun accepted moved => .used [_] rfl rfl (by simp [handleActs, handleAct, hfile])
  simp only [writeFile, outcome_bind, outcome_ite, outcome_pure, outcome_get, hfile,
    outcome_orThrow_some, outcome_sys, outcome_throwIf]
  exact ⟨fun _ => .refl p, fun _ => ⟨fun _ => hwritten _ _, fun _ => hwritten _ _⟩⟩

end Methods

/-! ## Objects -/

/-- The objects of a program by their places, and the system calls made so far. -/
structure Objects (kernel : Kernel) where
  trace : List Event := []
  object : ℕ → Option OutputFile := fun _ => none

/-- What is done with an `OutputFile` at the place `slot`. -/
inductive OutputFile.Op
  /-- `OutputFile()` -/
  | construct (slot : ℕ)
  /-- `OutputFile(path, file)`, with the `file` that `fdopen` has returned. -/
  | adopt (slot : ℕ) (path : Path) (file : ℕ)
  /-- `OutputFile(OutputFile &&)`.  What is `left` in `other.path_` is not specified. -/
  | moveConstruct (slot other : ℕ) (left : Path)
  /-- `operator=(OutputFile &&)` -/
  | moveAssign (slot other : ℕ) (left : Path)
  | write (slot : ℕ) (data : Bytes)
  | flush (slot : ℕ)
  | close (slot : ℕ)
  | discard (slot : ℕ)
  /-- `~OutputFile()` -/
  | destroy (slot : ℕ)

namespace Objects

variable {kernel : Kernel}

/-- The `FILE *` of an object. -/
def handle (s : Objects kernel) (slot : ℕ) : Option ℕ := (s.object slot).bind OutputFile.file

/-- Run a method of an object.  What it throws goes to the caller. -/
def run (s : Objects kernel) (slot : ℕ) (method : Eff (Process kernel) Unit) : Objects kernel :=
  match s.object slot with
  | none => s
  | some out =>
    match method { trace := s.trace, out } with
    | .ok _ p | .error _ p =>
      { trace := p.trace, object := Function.update s.object slot (some p.out) }

/-- `path_(std::move(other.path_)), file_(std::exchange(other.file_, nullptr))` -/
def moveFrom (s : Objects kernel) (slot other : ℕ) (left : Path) : Objects kernel :=
  match s.object other with
  | none => s
  | some out =>
    let left := Function.update s.object other (some { path := left, file := none })
    { s with object := Function.update left slot (some out) }

/-- An operation. -/
def step (s : Objects kernel) : OutputFile.Op → Objects kernel
  | .construct slot => { s with object := Function.update s.object slot (some {}) }
  | .adopt slot path file =>
    { trace := s.trace ++ [.fdopen file true]
      object := Function.update s.object slot (some { path, file := some file }) }
  | .moveConstruct slot other left => s.moveFrom slot other left
  | .moveAssign slot other left =>
    if slot = other then s else (s.run slot closeQuietly).moveFrom slot other left
  | .write slot data => s.run slot (writeFile data)
  | .flush slot => s.run slot flushFile
  | .close slot => s.run slot closeFile
  | .discard slot => s.run slot closeQuietly
  | .destroy slot =>
    let s := s.run slot closeQuietly
    { s with object := Function.update s.object slot none }

/-- What a program may do: it constructs objects where there are none and uses those there are, it
writes to open ones, and `fdopen` returns no `FILE *` that is open already. -/
def Admits (s : Objects kernel) : OutputFile.Op → Prop
  | .construct slot => s.object slot = none
  | .adopt slot _ file => s.object slot = none ∧ file ∉ openHandles s.trace
  | .moveConstruct slot other _ => s.object slot = none ∧ s.object other ≠ none
  | .moveAssign slot other _ => s.object slot ≠ none ∧ s.object other ≠ none
  | .write slot _ => s.handle slot ≠ none
  | .flush slot | .close slot | .discard slot | .destroy slot => s.object slot ≠ none

instance (s : Objects kernel) : (op : OutputFile.Op) → Decidable (s.Admits op)
  | .construct slot => inferInstanceAs (Decidable (s.object slot = none))
  | .adopt slot _ file =>
    inferInstanceAs (Decidable (s.object slot = none ∧ file ∉ openHandles s.trace))
  | .moveConstruct slot other _ =>
    inferInstanceAs (Decidable (s.object slot = none ∧ s.object other ≠ none))
  | .moveAssign slot other _ =>
    inferInstanceAs (Decidable (s.object slot ≠ none ∧ s.object other ≠ none))
  | .write slot _ => inferInstanceAs (Decidable (s.handle slot ≠ none))
  | .flush slot | .close slot | .discard slot | .destroy slot =>
    inferInstanceAs (Decidable (s.object slot ≠ none))

/-- A program may do one operation after the other. -/
def AdmitsAll (s : Objects kernel) : List OutputFile.Op → Prop
  | [] => True
  | op :: ops => s.Admits op ∧ (s.step op).AdmitsAll ops

instance decidableAdmitsAll : (s : Objects kernel) → (ops : List OutputFile.Op) →
    Decidable (s.AdmitsAll ops)
  | _, [] => isTrue trivial
  | s, op :: ops =>
    haveI := decidableAdmitsAll (s.step op) ops
    inferInstanceAs (Decidable (s.Admits op ∧ (s.step op).AdmitsAll ops))

/-- The objects behind operations. -/
def after (s : Objects kernel) (ops : List OutputFile.Op) : Objects kernel := ops.foldl step s

/-! ### The assignment of a temporary -/

section Assignment

variable {s : Objects kernel} {slot temp : ℕ} {out : OutputFile}

lemma closeQuietly_none (trace : List Event) (path : Path) :
    closeQuietly ({ trace, out := { path } } : Process kernel) =
      .ok () { trace, out := { path } } := rfl

/-- The assignment of a temporary, `output = OutputFile(path, file)`, is `assign`. -/
lemma step_assign (hslot : s.object slot = some out) (htemp : s.object temp = none) (path left : Path)
    (file : ℕ) :
    ((s.step (.adopt temp path file)).step (.moveAssign slot temp left)).step (.destroy temp) =
      ({ s with trace := s.trace ++ [.fdopen file true] } : Objects kernel).run slot
        (assign { path, file := some file }) := by
  have hne : slot ≠ temp := by
    rintro rfl
    rw [hslot] at htemp
    cases htemp
  have hclosed : Returns closeQuietly
      ({ trace := s.trace ++ [.fdopen file true], out } : Process kernel) _ :=
    outcome_closeQuietly_handled
  obtain ⟨⟨⟩, p, hp, -⟩ := hclosed.exists_ok
  have hassign : assign { path, file := some file }
      ({ trace := s.trace ++ [.fdopen file true], out } : Process kernel) =
        .ok () (p.holding { path, file := some file }) := by
    simp only [assign, bind, EStateM.bind, hp]
    rfl
  simp only [Objects.step, if_neg hne, Objects.run, Objects.moveFrom, hslot, hp, hassign,
    Function.update_of_ne hne, Function.update_of_ne hne.symm, Function.update_self,
    closeQuietly_none]
  congr 1
  funext k
  by_cases hk : k = temp
  · subst hk
    simp [Function.update_of_ne hne.symm, htemp]
  · by_cases hk' : k = slot
    · subst hk'
      simp [hk, Process.holding]
    · simp [hk, hk']

end Assignment

/-! ### The invariant -/

section Invariant

variable {s : Objects kernel} {slot other : ℕ} {out : OutputFile}

/-- The objects own the `FILE *`s that are open, each of them its own. -/
def Inv (s : Objects kernel) : Prop := Linear (handleActs s.trace) s.handle

lemma handle_update (s : Objects kernel) (trace : List Event) (slot : ℕ)
    (placed : Option OutputFile) :
    ({ trace, object := Function.update s.object slot placed } : Objects kernel).handle =
      Function.update s.handle slot (placed.bind OutputFile.file) :=
  Function.comp_update (fun placed : Option OutputFile => placed.bind OutputFile.file) s.object slot
    placed

lemma handle_of_object (h : s.object slot = some out) : s.handle slot = out.file := by
  rw [handle, h, Option.bind_some]

/-- What a method does with its `FILE *` keeps the invariant. -/
lemma Inv.handled (h : s.Inv) (hout : s.object slot = some out) {p : Process kernel}
    (hp : Handled { trace := s.trace, out } p) :
    ({ trace := p.trace, object := Function.update s.object slot (some p.out) } :
      Objects kernel).Inv := by
  have hslot := handle_of_object hout
  unfold Inv
  rw [handle_update, Option.bind_some]
  cases hp with
  | used calls hfile htrace huses =>
    rw [hfile, ← hslot, Function.update_eq_self, htrace, handleActs_append]
    apply Linear.uses h
    intro a ha
    obtain ⟨file, hfile, rfl⟩ := huses a ha
    exact ⟨slot, file, hslot.trans hfile, rfl⟩
  | closed file ok moved hfile hnone htrace =>
    rw [hnone, htrace, handleActs_append]
    exact Linear.release h (hslot.trans hfile)

/-- A method leaves its object with what it knows of it, whether it throws or not. -/
lemma exists_run (hout : s.object slot = some out) {method : Eff (Process kernel) Unit}
    {P : Process kernel → Prop}
    (hmethod : Outcome method { trace := s.trace, out } (fun _ => P) fun _ => P) :
    ∃ p, P p ∧ s.run slot method =
      { trace := p.trace, object := Function.update s.object slot (some p.out) } := by
  unfold run
  rw [hout]
  cases hresult : method { trace := s.trace, out } with
  | ok a p =>
    refine ⟨p, hmethod.of_ok hresult, ?_⟩
    simp only [hresult]
  | error e p =>
    refine ⟨p, hmethod.of_error hresult, ?_⟩
    simp only [hresult]

lemma Inv.run (h : s.Inv) (hout : s.object slot = some out) {method : Eff (Process kernel) Unit}
    (hmethod : Outcome method { trace := s.trace, out }
      (fun _ => Handled { trace := s.trace, out }) fun _ => Handled { trace := s.trace, out }) :
    (s.run slot method).Inv := by
  obtain ⟨p, hp, hrun⟩ := exists_run hout hmethod
  rw [hrun]
  exact h.handled hout hp

/-- Behind `close_quietly`, the object has no `FILE *`. -/
lemma Inv.closed (h : s.Inv) (hslot : s.object slot ≠ none) :
    (s.run slot closeQuietly).Inv ∧ (s.run slot closeQuietly).handle slot = none := by
  obtain ⟨out, hout⟩ := Option.ne_none_iff_exists'.mp hslot
  obtain ⟨p, ⟨hp, hnone⟩, hrun⟩ := exists_run hout
    (outcome_closeQuietly_handled.mono (fun _ _ hp => hp) fun _ _ hfalse => hfalse.elim)
  rw [hrun, handle_update, Function.update_self]
  exact ⟨h.handled hout hp, hnone⟩

lemma Inv.moveFrom (h : s.Inv) (hslot : s.handle slot = none) (other : ℕ) (left : Path) :
    (s.moveFrom slot other left).Inv := by
  unfold Objects.moveFrom
  cases hother : s.object other with
  | none => exact h
  | some out =>
    have hhandle : Function.update (Function.update s.handle other none) slot out.file =
        Function.update (Function.update s.handle other none) slot (s.handle other) := by
      rw [handle_of_object hother]
    unfold Inv
    rw [handle_update ⟨s.trace, _⟩, handle_update s, Option.bind_some, Option.bind_some, hhandle]
    exact Linear.move h hslot other

/-- **Every operation** keeps the invariant. -/
theorem Inv.step (h : s.Inv) {op : OutputFile.Op} (hop : s.Admits op) : (s.step op).Inv := by
  have hnew : ∀ {slot}, s.object slot = none → s.handle slot = none := by
    intro slot hslot
    rw [handle, hslot, Option.bind_none]
  cases op with
  -- A new object owns nothing.
  | construct slot =>
    have hsame : Function.update s.handle slot none = s.handle := by
      rw [← hnew hop, Function.update_eq_self]
    unfold Inv Objects.step
    rw [handle_update, Option.bind_some, hsame]
    exact h
  -- The file was just opened, so nobody else owns it.
  | adopt slot path file =>
    unfold Inv Objects.step
    rw [handle_update, Option.bind_some, handleActs_append]
    exact Linear.acquire h (hnew hop.1) hop.2
  | moveConstruct slot other left => exact h.moveFrom (hnew hop.1) other left
  | moveAssign slot other left =>
    -- Assigning an object to itself is guarded; otherwise the old file is closed first.
    by_cases hself : slot = other
    · rw [Objects.step, if_pos hself]
      exact h
    · rw [Objects.step, if_neg hself]
      obtain ⟨hclosed, hnone⟩ := h.closed hop.1
      exact hclosed.moveFrom hnone other left
  | write slot data =>
    obtain ⟨out, hout⟩ : ∃ out, s.object slot = some out := by
      cases hslot : s.object slot with
      | none => exact absurd (hnew hslot) hop
      | some out => exact ⟨out, rfl⟩
    -- Writing is admitted only to an object with a file.
    have hopen : out.file ≠ none := handle_of_object hout ▸ hop
    exact h.run hout (outcome_writeFile_handled hopen data)
  | flush slot =>
    obtain ⟨out, hout⟩ := Option.ne_none_iff_exists'.mp hop
    exact h.run hout outcome_flushFile_handled
  | close slot =>
    obtain ⟨out, hout⟩ := Option.ne_none_iff_exists'.mp hop
    exact h.run hout (outcome_closeFile_handled.mono (fun _ _ hp => hp.1) fun _ _ hp => hp.1)
  -- `discard` and the destructor close what is left.
  | discard slot => exact (h.closed hop).1
  | destroy slot =>
    obtain ⟨hclosed, hnone⟩ := h.closed hop
    have hsame : Function.update (s.run slot closeQuietly).handle slot none =
        (s.run slot closeQuietly).handle := by
      rw [← hnone, Function.update_eq_self]
    unfold Inv Objects.step
    rw [handle_update, Option.bind_none, hsame]
    exact hclosed

/-- **Every run** keeps the invariant. -/
theorem Inv.after (h : s.Inv) {ops : List OutputFile.Op} (hops : s.AdmitsAll ops) :
    (s.after ops).Inv := by
  induction ops generalizing s with
  | nil => exact h
  | cons op ops ih => exact ih (h.step hops.1) hops.2

lemma inv_start : ({} : Objects kernel).Inv := Linear.nil

end Invariant

end Objects

/-- What linear ownership means for objects, whose calls of the C library are `handleActs`: no two of
them own the same `FILE *`, what they own is open, and every call is made on one that is open.  Each
`FILE *` is used a number of times and then closed once, unless an object owns it still. -/
structure Objects.OwnLinearly {kernel : Kernel} (s : Objects kernel) : Prop where
  unique : ∀ slot slot' file, s.handle slot = some file → s.handle slot' = some file → slot = slot'
  held : ∀ slot file, s.handle slot = some file → file ∈ openHandles s.trace
  disciplined : Disciplined ∅ (handleActs s.trace)
  used : ∀ before after file, handleActs s.trace = before ++ .acquire file :: after →
    ∃ uses, lifetime file after = List.replicate uses (.use file) ++ [.release file] ∨
      lifetime file after = List.replicate uses (.use file) ∧ ∃ slot, s.handle slot = some file
  /-- When all objects are destroyed, every `FILE *` was closed once and not used behind that. -/
  closed : (∀ slot, s.object slot = none) →
    ∀ before after file, handleActs s.trace = before ++ .acquire file :: after →
      ∃ uses, lifetime file after = List.replicate uses (.use file) ++ [.release file]

/-- **Linear ownership**, however objects are constructed, moved, written, flushed, closed and
destroyed, and whatever the C library answers. -/
theorem outputFile_linear (kernel : Kernel) (ops : List OutputFile.Op)
    (hops : ({} : Objects kernel).AdmitsAll ops) :
    (({} : Objects kernel).after ops).OwnLinearly := by
  have h : Linear _ _ := Objects.inv_start.after hops
  refine ⟨h.unique, fun slot file hslot => (h.held_iff file).mpr ⟨slot, hslot⟩, h.disciplined, ?_, ?_⟩
  · intro before after file hacts
    rw [hacts] at h
    obtain ⟨uses, ⟨hopen, hheld⟩ | hclosed⟩ := h.disciplined.lifetime
    · exact ⟨uses, .inr ⟨hopen, (h.held_iff file).mp hheld⟩⟩
    · exact ⟨uses, .inl hclosed⟩
  · intro hdestroyed before after file hacts
    rw [hacts] at h
    apply h.lifetime_closed
    intro slot
    rw [Objects.handle, hdestroyed slot, Option.bind_none]

/-- No call of `fclose` succeeds. -/
def withoutClose : Kernel := { withoutInput true with fclose := fun _ _ => (false, 0) }

/-- A file that is moved before it is written and closed, and a second one that gets its `FILE *` and is
closed by the destructor. -/
def twoFiles : List OutputFile.Op :=
  [.adopt 0 [0x74] 7, .construct 1, .moveAssign 1 0 [], .moveAssign 1 1 [], .write 1 [0x61],
    .close 1, .destroy 0, .destroy 1, .adopt 0 [0x75] 7, .flush 0, .destroy 0]

theorem outputFile_linear_twoFiles : (({} : Objects withoutClose).after twoFiles).OwnLinearly :=
  outputFile_linear withoutClose twoFiles (by decide)

/-! ## The `OutputFile` of a call -/

section Call

variable {call : PathCall} {φ ψ : Phase} {trace : List Event} {e : Event}

/-- The one `OutputFile` of a call owns what is open. -/
def OwnsAlone (trace : List Event) (file : Option ℕ) : Prop :=
  Linear (handleActs trace) fun _ : Unit => file

lemma update_unit (file file' : Option ℕ) :
    Function.update (fun _ : Unit => file) () file' = fun _ => file' := by
  funext x
  rfl

section Steps

variable {file : Option ℕ} {n : ℕ}

lemma OwnsAlone.skip (h : OwnsAlone trace file) (he : handleAct e = none) :
    OwnsAlone (trace ++ [e]) file := by
  unfold OwnsAlone
  rw [handleActs_append, show handleActs [e] = [] by simp [handleActs, he], List.append_nil]
  exact h

lemma OwnsAlone.use (h : OwnsAlone trace (some n)) (he : handleAct e = some (.use n)) :
    OwnsAlone (trace ++ [e]) (some n) := by
  unfold OwnsAlone
  rw [handleActs_append, show handleActs [e] = [.use n] by simp [handleActs, he]]
  apply Linear.uses h
  intro a ha
  exact ⟨(), n, rfl, List.mem_singleton.mp ha⟩

lemma OwnsAlone.closed (h : OwnsAlone trace (some n)) (ok : Bool) (moved : ℕ) :
    OwnsAlone (trace ++ [.fclose n ok moved]) none := by
  have hclosed := Linear.release h (x := ()) rfl
  rw [update_unit] at hclosed
  unfold OwnsAlone
  rw [handleActs_append]
  exact hclosed

lemma OwnsAlone.opened (h : OwnsAlone trace none) (n : ℕ) :
    OwnsAlone (trace ++ [.fdopen n true]) (some n) := by
  have hfree : n ∉ heldAfter ∅ (handleActs trace) := by
    intro hmem
    obtain ⟨x, hx⟩ := (h.held_iff n).mp hmem
    cases hx
  have hopen := Linear.acquire h (x := ()) rfl hfree
  rw [update_unit] at hopen
  unfold OwnsAlone
  rw [handleActs_append]
  exact hopen

end Steps

/-- **A step of a call** keeps its `OutputFile` the one owner. -/
theorem OwnsAlone.step (h : OwnsAlone trace φ.out.file) (hstep : Phase.Step call φ e ψ) :
    OwnsAlone (trace ++ [e]) ψ.out.file := by
  cases hstep with
  | checked | unchecked | created | taken | failed => exact h.skip rfl
  | owning temp file hstage =>
    cases hstage with
    | opened => exact h.opened file
    | orphaned | closeDescriptor | openInput => exact h.skip rfl
    | written | unwritten | flushed | unflushed | synced | unsynced => exact h.use rfl
    | closed | unclosed | abandon | giveUp => exact h.closed _ _
    | linked | refused | unlinkable | drop | remove => exact h.skip rfl
    | directory _ _ _ _ _ hcall => cases hcall <;> exact h.skip rfl

lemma ownsAlone_of_phaseAfter (h : phaseAfter call trace = some φ) :
    OwnsAlone trace φ.out.file := by
  induction trace using List.reverseRecOn generalizing φ with
  | nil =>
    obtain rfl : Phase.checking = φ := Option.some.inj h
    exact Linear.nil
  | append_singleton trace e ih =>
    obtain ⟨χ, hχ, hnext⟩ := foldlM_concat_iff.mp h
    exact (ih hχ).step (Phase.step_of_next hnext)

lemma PathCall.EndsIn.file_none {P : Iostream.Source → Bytes → Prop} {thrown : Option Error}
    (h : call.EndsIn P φ thrown) : φ.out.file = none := by
  cases h with
  | checking | searching | ended | orphaned | discarded | linked => rfl

/-- **A call of a path overload** closes the `FILE *` it has opened once, and does not use it behind
that, whether it returns or throws. -/
theorem PathCall.closes (ssl : Openssl) (kernel : Kernel) (lib : Lib) (call : PathCall) :
    ∀ before after file, handleActs (call.trace ssl kernel lib) = before ++ .acquire file :: after →
      ∃ uses, lifetime file after = List.replicate uses (.use file) ++ [.release file] := by
  intro before after file hacts
  obtain ⟨φ, hφ, hends⟩ := call.exists_endsIn ssl kernel lib bodyFills_any
  have howns := ownsAlone_of_phaseAfter hφ
  unfold OwnsAlone at howns
  rw [hacts] at howns
  exact howns.lifetime_closed fun _ => hends.file_none

end Call

end SecureKit.File
