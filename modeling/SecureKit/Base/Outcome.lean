import Mathlib.Data.List.Basic
import Mathlib.Tactic

/-!
# Outcomes of stateful computations that may throw

A C++ function that mutates objects and may leave by an exception is a computation in
`EStateM ε σ`: from a state it either returns a value or throws an error, and in both cases it
leaves a final state behind.  The state after a throw matters here, because what a caller can
observe after an exception (bytes already handed to an output, a phase already advanced) is the
subject of the theorems built on this file.

## The interface

* `Outcome m s Q E` says where a run of `m` from `s` ends: in a return whose value and state
  satisfy `Q`, or in a throw whose error and state satisfy `E`.
* One equivalence per construct (`outcome_pure`, `outcome_bind`, `outcome_throw`, …), all simp
  lemmas, so that `simp only` executes straight-line code symbolically.
* `Outcome.mono` is the rule of consequence: the specification of a callee is applied at a call
  site through it.
* `zoom` runs a computation on a part of a larger state; `outcome_zoom` is its frame rule.
* `Outcome.and` and `outcome_of_ok` relate several facts about one and the same run, which is
  deterministic.
-/

namespace Effect

variable {ε σ τ α β : Type}

/-! ## The outcome of a run -/

/-- The run of `m` from `s` returns with `Q` or throws with `E`. -/
def Outcome (m : EStateM ε σ α) (s : σ) (Q : α → σ → Prop) (E : ε → σ → Prop) : Prop :=
  match m s with
  | .ok a s' => Q a s'
  | .error e s' => E e s'

/-- The run of `m` from `s` returns, and with `Q`. -/
def Returns (m : EStateM ε σ α) (s : σ) (Q : α → σ → Prop) : Prop :=
  Outcome m s Q fun _ _ => False

section Constructs

variable {Q : α → σ → Prop} {E : ε → σ → Prop} {s : σ}

@[simp] lemma outcome_pure (a : α) : Outcome (pure a) s Q E ↔ Q a s := Iff.rfl

@[simp] lemma outcome_throw (e : ε) : Outcome (throw e) s Q E ↔ E e s := Iff.rfl

@[simp] lemma outcome_bind {R : β → σ → Prop} (m : EStateM ε σ α) (f : α → EStateM ε σ β) :
    Outcome (m >>= f) s R E ↔ Outcome m s (fun a s' => Outcome (f a) s' R E) E := by
  simp only [Outcome, bind, EStateM.bind]
  cases m s <;> rfl

@[simp] lemma outcome_map {R : β → σ → Prop} (f : α → β) (m : EStateM ε σ α) :
    Outcome (f <$> m) s R E ↔ Outcome m s (fun a s' => R (f a) s') E := by
  simp only [Outcome, Functor.map, EStateM.map]
  cases m s <;> rfl

@[simp] lemma outcome_get {Q : σ → σ → Prop} :
    Outcome (get : EStateM ε σ σ) s Q E ↔ Q s s := Iff.rfl

@[simp] lemma outcome_modify {Q : PUnit → σ → Prop} (f : σ → σ) :
    Outcome (modify f : EStateM ε σ PUnit) s Q E ↔ Q ⟨⟩ (f s) := Iff.rfl

@[simp] lemma outcome_modifyGet (f : σ → α × σ) :
    Outcome (modifyGet f : EStateM ε σ α) s Q E ↔ Q (f s).1 (f s).2 := Iff.rfl

@[simp] lemma outcome_ite (c : Prop) [Decidable c] (m n : EStateM ε σ α) :
    Outcome (if c then m else n) s Q E ↔
      (c → Outcome m s Q E) ∧ (¬ c → Outcome n s Q E) := by
  by_cases h : c <;> simp [h]

/-- A handler runs in the state the throw leaves behind. -/
@[simp] lemma outcome_tryCatch (m : EStateM ε σ α) (handler : ε → EStateM ε σ α) :
    Outcome (tryCatch m handler) s Q E ↔
      Outcome m s Q fun e s' => Outcome (handler e) s' Q E := by
  simp only [Outcome, tryCatch, tryCatchThe, MonadExceptOf.tryCatch, EStateM.tryCatch]
  cases m s <;> rfl

end Constructs

/-! ## Throwing statements -/

/-- The statement `if (c) throw e;`. -/
def throwIf (c : Prop) [Decidable c] (e : ε) : EStateM ε σ PUnit :=
  if c then throw e else pure ⟨⟩

/-- The value of an optional result, or `e` thrown where it has none. -/
def orThrow (e : ε) : Option α → EStateM ε σ α
  | some a => pure a
  | none => throw e

/-- A computation that reads and writes no state, as a stateful one. -/
def exceptResult : Except ε α → EStateM ε σ α
  | .ok a => pure a
  | .error e => throw e

section Throwing

variable {Q : α → σ → Prop} {E : ε → σ → Prop} {s : σ}

@[simp] lemma outcome_throwIf {Q : PUnit → σ → Prop} (c : Prop) [Decidable c] (e : ε) :
    Outcome (throwIf c e) s Q E ↔ (c → E e s) ∧ (¬ c → Q ⟨⟩ s) := by
  by_cases h : c <;> simp [throwIf, h]

@[simp] lemma outcome_orThrow_some (e : ε) (a : α) :
    Outcome (orThrow e (some a)) s Q E ↔ Q a s := Iff.rfl

@[simp] lemma outcome_orThrow_none (e : ε) :
    Outcome (orThrow e (none : Option α)) s Q E ↔ E e s := Iff.rfl

@[simp] lemma outcome_exceptResult_ok (a : α) :
    Outcome (exceptResult (.ok a : Except ε α)) s Q E ↔ Q a s := Iff.rfl

end Throwing

/-! ## Consequence, conjunction and determinism -/

lemma Outcome.mono {m : EStateM ε σ α} {s : σ} {Q Q' : α → σ → Prop} {E E' : ε → σ → Prop}
    (h : Outcome m s Q E) (hQ : ∀ a s', Q a s' → Q' a s') (hE : ∀ e s', E e s' → E' e s') :
    Outcome m s Q' E' := by
  unfold Outcome at *
  cases hm : m s with
  | ok a s' => rw [hm] at h; exact hQ a s' h
  | error e s' => rw [hm] at h; exact hE e s' h

lemma Outcome.and {m : EStateM ε σ α} {s : σ} {Q Q' : α → σ → Prop} {E E' : ε → σ → Prop}
    (h : Outcome m s Q E) (h' : Outcome m s Q' E') :
    Outcome m s (fun a s' => Q a s' ∧ Q' a s') (fun e s' => E e s' ∧ E' e s') := by
  unfold Outcome at *
  cases hm : m s with
  | ok a s' => rw [hm] at h h'; exact ⟨h, h'⟩
  | error e s' => rw [hm] at h h'; exact ⟨h, h'⟩

lemma Outcome.of_ok {m : EStateM ε σ α} {s s' : σ} {a : α} {Q : α → σ → Prop}
    {E : ε → σ → Prop} (h : Outcome m s Q E) (hm : m s = .ok a s') : Q a s' := by
  simpa [Outcome, hm] using h

lemma Outcome.of_error {m : EStateM ε σ α} {s s' : σ} {e : ε} {Q : α → σ → Prop}
    {E : ε → σ → Prop} (h : Outcome m s Q E) (hm : m s = .error e s') : E e s' := by
  simpa [Outcome, hm] using h

/-- Every fact about every run is an outcome: the two branches are exhaustive. -/
lemma outcome_intro {m : EStateM ε σ α} {s : σ} {Q : α → σ → Prop} {E : ε → σ → Prop}
    (hQ : ∀ a s', m s = .ok a s' → Q a s') (hE : ∀ e s', m s = .error e s' → E e s') :
    Outcome m s Q E := by
  unfold Outcome
  cases hm : m s with
  | ok a s' => exact hQ a s' hm
  | error e s' => exact hE e s' hm

lemma Returns.exists_ok {m : EStateM ε σ α} {s : σ} {Q : α → σ → Prop} (h : Returns m s Q) :
    ∃ a s', m s = .ok a s' ∧ Q a s' := by
  unfold Returns Outcome at h
  cases hm : m s with
  | ok a s' => rw [hm] at h; exact ⟨a, s', rfl, h⟩
  | error e s' => rw [hm] at h; exact h.elim

/-- A run that is known never to return throws, and with what is known of its throws. -/
lemma Outcome.exists_error {m : EStateM ε σ α} {s : σ} {E : ε → σ → Prop}
    (h : Outcome m s (fun _ _ => False) E) : ∃ e s', m s = .error e s' ∧ E e s' := by
  unfold Outcome at h
  cases hm : m s with
  | ok a s' => rw [hm] at h; exact h.elim
  | error e s' => rw [hm] at h; exact ⟨e, s', rfl, h⟩

/-- What the last step makes sure of when it returns. -/
lemma outcome_bind_of_forall {m : EStateM ε σ α} {f : α → EStateM ε σ β} {s : σ}
    {Q : β → σ → Prop} (h : ∀ a s', Outcome (f a) s' Q fun _ _ => True) :
    Outcome (m >>= f) s Q fun _ _ => True := by
  rw [outcome_bind]
  exact outcome_intro (fun a s' _ => h a s') fun _ _ _ => trivial

/-! ## Running on a part of the state -/

/-- Run `m` on the part `part` of the state, and put the part it leaves back with `put`. -/
def zoom (part : σ → τ) (put : τ → σ → σ) (m : EStateM ε τ α) : EStateM ε σ α := fun s =>
  match m (part s) with
  | .ok a t => .ok a (put t s)
  | .error e t => .error e (put t s)

/-- The frame rule: outside the part, nothing changes but what `put` writes. -/
@[simp] lemma outcome_zoom {part : σ → τ} {put : τ → σ → σ} {m : EStateM ε τ α} {s : σ}
    {Q : α → σ → Prop} {E : ε → σ → Prop} :
    Outcome (zoom part put m) s Q E ↔
      Outcome m (part s) (fun a t => Q a (put t s)) (fun e t => E e (put t s)) := by
  simp only [Outcome, zoom]
  cases m (part s) <;> rfl

end Effect
