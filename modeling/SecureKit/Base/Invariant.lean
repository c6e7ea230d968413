import SecureKit.Base.Outcome

/-!
# What a computation keeps

`Keeps I m` says that `m` takes states with `I` to states with `I`, whether it returns or throws.
A fact that holds at every moment of a run, also of one that fails, is such an invariant: each
construct has one rule, so a computation keeps what its parts keep, and a computation on a part of
the state (`zoom`) keeps what it keeps of the part.
-/

namespace Effect

variable {ε σ τ α β : Type}

/-- Started with `I`, the run of `m` ends with `I`. -/
def Keeps (I : σ → Prop) (m : EStateM ε σ α) : Prop :=
  ∀ s, I s → Outcome m s (fun _ => I) (fun _ => I)

section Rules

variable {I : σ → Prop}

lemma Keeps.pure (a : α) : Keeps I (pure a : EStateM ε σ α) := fun _ h => h

lemma Keeps.throw (e : ε) : Keeps I (throw e : EStateM ε σ α) := fun _ h => h

/-- What follows starts where the first part has returned its value. -/
lemma Keeps.bind_of_ok {m : EStateM ε σ α} {f : α → EStateM ε σ β} (hm : Keeps I m)
    (hf : ∀ s a s', m s = .ok a s' → Keeps I (f a)) : Keeps I (m >>= f) := by
  intro s h
  rw [outcome_bind]
  have hend := hm s h
  exact outcome_intro (fun a s' hrun => hf s a s' hrun s' (hend.of_ok hrun))
    fun e s' hrun => hend.of_error hrun

lemma Keeps.bind {m : EStateM ε σ α} {f : α → EStateM ε σ β} (hm : Keeps I m)
    (hf : ∀ a, Keeps I (f a)) : Keeps I (m >>= f) :=
  hm.bind_of_ok fun _ a _ _ => hf a

lemma Keeps.ite {c : Prop} [Decidable c] {m n : EStateM ε σ α} (hthen : c → Keeps I m)
    (helse : ¬ c → Keeps I n) : Keeps I (if c then m else n) := by
  by_cases h : c
  · simpa only [h, if_true] using hthen h
  · simpa only [h, if_false] using helse h

lemma Keeps.get : Keeps I (get : EStateM ε σ σ) := fun _ h => h

lemma Keeps.modify {f : σ → σ} (hf : ∀ s, I s → I (f s)) :
    Keeps I (modify f : EStateM ε σ PUnit) := hf

lemma Keeps.modifyGet {f : σ → α × σ} (hf : ∀ s, I s → I (f s).2) :
    Keeps I (modifyGet f : EStateM ε σ α) := hf

lemma Keeps.throwIf {c : Prop} [Decidable c] (e : ε) :
    Keeps I (throwIf c e : EStateM ε σ PUnit) :=
  .ite (fun _ => .throw e) fun _ => .pure _

lemma Keeps.orThrow (e : ε) (o : Option α) : Keeps I (orThrow e o : EStateM ε σ α) := by
  cases o with
  | none => exact .throw e
  | some a => exact .pure a

lemma Keeps.exceptResult (r : Except ε α) : Keeps I (exceptResult r : EStateM ε σ α) := by
  cases r with
  | error e => exact .throw e
  | ok a => exact .pure a

lemma Keeps.tryCatch {m : EStateM ε σ α} {handler : ε → EStateM ε σ α} (hm : Keeps I m)
    (hhandler : ∀ e, Keeps I (handler e)) : Keeps I (tryCatch m handler) := by
  intro s h
  rw [outcome_tryCatch]
  exact (hm s h).mono (fun _ _ h' => h') fun e s' h' => hhandler e s' h'

/-- The part is left with what the computation on it keeps. -/
lemma Keeps.zoom {J : τ → Prop} {part : σ → τ} {put : τ → σ → σ} {m : EStateM ε τ α}
    (hm : Keeps J m) (hpart : ∀ s, I s → J (part s)) (hput : ∀ s t, I s → J t → I (put t s)) :
    Keeps I (zoom part put m) := by
  intro s h
  rw [outcome_zoom]
  exact (hm _ (hpart s h)).mono (fun _ t ht => hput s t h ht) fun _ t ht => hput s t h ht

/-- Where the part does not show, nothing has to be known of the computation on it. -/
lemma Keeps.zoom_of_forall {part : σ → τ} {put : τ → σ → σ} (m : EStateM ε τ α)
    (hput : ∀ s t, I s → I (put t s)) : Keeps I (Effect.zoom part put m) :=
  .zoom (J := fun _ => True) (fun _ _ => outcome_intro (fun _ _ _ => trivial) fun _ _ _ => trivial)
    (fun _ _ => trivial) fun s t h _ => hput s t h

end Rules

end Effect
