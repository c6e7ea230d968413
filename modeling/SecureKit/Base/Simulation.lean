import SecureKit.Base.Outcome

/-!
# Two runs side by side

`Simulates R B m₁ m₂` compares two computations that may throw: started in states that are related
by `R` they return the same value or throw the same error, and leave related states behind, except
that the first one may break off with an error and a state of its own, which `B` describes.

There is one rule for each construct, so that a computation that is written once and run in two
settings is compared with itself by following its text.  The states may be of different types; what
is compared are the parts of them that `zoom` gives access to (`Simulates.zoom`).
-/

namespace Effect

variable {ε σ₁ σ₂ τ₁ τ₂ α β : Type}

/-- From related states the runs end alike, unless the first one breaks off. -/
def Simulates (R : σ₁ → σ₂ → Prop) (B : ε → σ₁ → Prop) (m₁ : EStateM ε σ₁ α)
    (m₂ : EStateM ε σ₂ α) : Prop :=
  ∀ s₁ s₂, R s₁ s₂ → Outcome m₁ s₁ (fun a s₁' => ∃ s₂', m₂ s₂ = .ok a s₂' ∧ R s₁' s₂')
    (fun e s₁' => B e s₁' ∨ ∃ s₂', m₂ s₂ = .error e s₂' ∧ R s₁' s₂')

section Rules

variable {R : σ₁ → σ₂ → Prop} {B : ε → σ₁ → Prop}

lemma Simulates.pure (a : α) : Simulates R B (Pure.pure a) (Pure.pure a) := by
  intro s₁ s₂ h
  exact ⟨s₂, rfl, h⟩

lemma Simulates.throw (e : ε) :
    Simulates R B (throw e : EStateM ε σ₁ α) (throw e : EStateM ε σ₂ α) := by
  intro s₁ s₂ h
  exact .inr ⟨s₂, rfl, h⟩

lemma Simulates.bind {m₁ : EStateM ε σ₁ α} {m₂ : EStateM ε σ₂ α} {f₁ : α → EStateM ε σ₁ β}
    {f₂ : α → EStateM ε σ₂ β} (hm : Simulates R B m₁ m₂)
    (hf : ∀ a, Simulates R B (f₁ a) (f₂ a)) : Simulates R B (m₁ >>= f₁) (m₂ >>= f₂) := by
  intro s₁ s₂ h
  rw [outcome_bind]
  apply (hm s₁ s₂ h).mono
  · intro a s₁' hok
    obtain ⟨s₂', hrun, h'⟩ := hok
    have hbind : (m₂ >>= f₂) s₂ = f₂ a s₂' := by
      simp only [Bind.bind, EStateM.bind, hrun]
    rw [hbind]
    exact hf a s₁' s₂' h'
  · intro e s₁' hthrow
    apply hthrow.imp_right
    intro hboth
    obtain ⟨s₂', hrun, h'⟩ := hboth
    exact ⟨s₂', by simp only [Bind.bind, EStateM.bind, hrun], h'⟩

lemma Simulates.ite {c : Prop} [Decidable c] {m₁ n₁ : EStateM ε σ₁ α} {m₂ n₂ : EStateM ε σ₂ α}
    (hthen : c → Simulates R B m₁ m₂) (helse : ¬ c → Simulates R B n₁ n₂) :
    Simulates R B (if c then m₁ else n₁) (if c then m₂ else n₂) := by
  by_cases h : c
  · simpa only [h, if_true] using hthen h
  · simpa only [h, if_false] using helse h

lemma Simulates.throwIf (c : Prop) [Decidable c] (e : ε) :
    Simulates R B (throwIf c e : EStateM ε σ₁ PUnit) (throwIf c e : EStateM ε σ₂ PUnit) := by
  apply Simulates.ite
  · intro _
    exact Simulates.throw e
  · intro _
    exact Simulates.pure PUnit.unit

lemma Simulates.exceptResult (r : Except ε α) :
    Simulates R B (exceptResult r : EStateM ε σ₁ α) (exceptResult r : EStateM ε σ₂ α) := by
  cases r with
  | ok a => exact Simulates.pure a
  | error e => exact Simulates.throw e

/-- A computation ends as it ends. -/
lemma Simulates.refl (B : ε → σ₁ → Prop) (m : EStateM ε σ₁ α) : Simulates (· = ·) B m m := by
  intro s₁ s₂ h
  subst h
  apply outcome_intro
  · intro a s' hrun
    exact ⟨s', hrun, rfl⟩
  · intro e s' hrun
    exact .inr ⟨s', hrun, rfl⟩

/-- Two computations on parts of the states are compared on the parts. -/
lemma Simulates.zoom {S : τ₁ → τ₂ → Prop} {C : ε → τ₁ → Prop} {part₁ : σ₁ → τ₁}
    {part₂ : σ₂ → τ₂} {put₁ : τ₁ → σ₁ → σ₁} {put₂ : τ₂ → σ₂ → σ₂} {m₁ : EStateM ε τ₁ α}
    {m₂ : EStateM ε τ₂ α} (hm : Simulates S C m₁ m₂)
    (hpart : ∀ s₁ s₂, R s₁ s₂ → S (part₁ s₁) (part₂ s₂))
    (hput : ∀ s₁ s₂ t₁ t₂, R s₁ s₂ → S t₁ t₂ → R (put₁ t₁ s₁) (put₂ t₂ s₂))
    (hbreak : ∀ s₁ s₂ e t₁, R s₁ s₂ → C e t₁ → B e (put₁ t₁ s₁)) :
    Simulates R B (zoom part₁ put₁ m₁) (zoom part₂ put₂ m₂) := by
  intro s₁ s₂ h
  rw [outcome_zoom]
  apply (hm _ _ (hpart s₁ s₂ h)).mono
  · intro a t₁ hok
    obtain ⟨t₂, hrun, h'⟩ := hok
    exact ⟨put₂ t₂ s₂, by simp only [Effect.zoom, hrun], hput s₁ s₂ t₁ t₂ h h'⟩
  · intro e t₁ hthrow
    rcases hthrow with hbroke | ⟨t₂, hrun, h'⟩
    · exact .inl (hbreak s₁ s₂ e t₁ h hbroke)
    · exact .inr ⟨put₂ t₂ s₂, by simp only [Effect.zoom, hrun], hput s₁ s₂ t₁ t₂ h h'⟩

/-- What is known of every run of the second computation is known of the first one's, unless it
breaks off. -/
lemma Simulates.outcome {m₁ : EStateM ε σ₁ α} {m₂ : EStateM ε σ₂ α} {s₁ : σ₁} {s₂ : σ₂}
    {Q : α → σ₂ → Prop} {E : ε → σ₂ → Prop} (hm : Simulates R B m₁ m₂) (h : R s₁ s₂)
    (hout : Outcome m₂ s₂ Q E) :
    Outcome m₁ s₁ (fun a s₁' => ∃ s₂', m₂ s₂ = .ok a s₂' ∧ R s₁' s₂' ∧ Q a s₂')
      (fun e s₁' => B e s₁' ∨ ∃ s₂', m₂ s₂ = .error e s₂' ∧ R s₁' s₂' ∧ E e s₂') := by
  apply (hm s₁ s₂ h).mono
  · intro a s₁' hok
    obtain ⟨s₂', hrun, h'⟩ := hok
    exact ⟨s₂', hrun, h', hout.of_ok hrun⟩
  · intro e s₁' hthrow
    apply hthrow.imp_right
    intro hboth
    obtain ⟨s₂', hrun, h'⟩ := hboth
    exact ⟨s₂', hrun, h', hout.of_error hrun⟩

end Rules

end Effect
