import Mathlib.Data.List.Perm.Basic
import Mathlib.Logic.Function.Basic
import Mathlib.Tactic

/-!
# Options with values

A list of pairs of an option and a value, in which every option belongs to a group and no group may
be named twice.  `Language` is what such a list may contain, `Accepts` says that a list is one of the
language, and `Assigns` what its values mean.  Both speak about the members of the list and their
number only, so the order does not matter (`Accepts.perm`, `Assigns.perm`).

A program that reads the pairs from left to right into a record `Implements` the language if each
single step does: then the whole loop accepts what the language does, and its record is that of the
values (`foldlM_eq_ok_iff`).

A `Translation` takes the pairs of one language to those of another, with new names, other groups or
some pairs left out.  If it `Respects` every pair, a list that is accepted goes to one that is, and the
values correspond.  That is what is needed to compare two programs with different options.
-/

namespace Options

variable {ε τ σ γ ν ρ : Type}

/-- Which group an option belongs to, what its value means, and which groups may not be missing. -/
structure Language (τ σ γ ν : Type) where
  group : τ → Option γ
  Means : τ → σ → ν → Prop
  required : List γ
  functional : ∀ {o x v v'}, Means o x v → Means o x v' → v = v'

namespace Language

variable (L : Language τ σ γ ν)

/-- The groups that are named, in order. -/
def groups (pairs : List (τ × σ)) : List (Option γ) := pairs.map fun p => L.group p.1

/-- No unknown option, no invalid value, no group twice, and every required one. -/
structure Accepts [DecidableEq γ] (pairs : List (τ × σ)) : Prop where
  known : ∀ p ∈ pairs, ∃ g, L.group p.1 = some g
  valid : ∀ p ∈ pairs, ∃ v, L.Means p.1 p.2 v
  required : ∀ g ∈ L.required, (L.groups pairs).count (some g) = 1
  optional : ∀ g, (L.groups pairs).count (some g) ≤ 1

/-- A group has the value that one of the pairs gives it. -/
def Assigns (pairs : List (τ × σ)) (values : γ → Option ν) : Prop :=
  ∀ g v, values g = some v ↔ ∃ p ∈ pairs, L.group p.1 = some g ∧ L.Means p.1 p.2 v

variable {L} {pairs pairs' : List (τ × σ)}

lemma Assigns.unique {values values' : γ → Option ν} (h : L.Assigns pairs values)
    (h' : L.Assigns pairs values') : values = values' := by
  funext g
  apply Option.ext
  intro v
  exact (h g v).trans (h' g v).symm

/-! ## Order -/

lemma Assigns.perm {values : γ → Option ν} (h : L.Assigns pairs values) (hperm : pairs.Perm pairs') :
    L.Assigns pairs' values := by
  intro g v
  rw [h g v]
  simp only [hperm.mem_iff]

lemma Accepts.perm [DecidableEq γ] (h : L.Accepts pairs) (hperm : pairs.Perm pairs') :
    L.Accepts pairs' := by
  have hcount : ∀ g, (L.groups pairs').count g = (L.groups pairs).count g := by
    intro g
    exact (hperm.map _).symm.count_eq g
  constructor
  · intro p hp
    exact h.known p (hperm.mem_iff.mpr hp)
  · intro p hp
    exact h.valid p (hperm.mem_iff.mpr hp)
  · intro g hg
    rw [hcount]
    exact h.required g hg
  · intro g
    rw [hcount]
    exact h.optional g

/-! ## Reading from left to right -/

/-- From the values `values`, reading the pairs leads to `values'`. -/
inductive Takes [DecidableEq γ] (L : Language τ σ γ ν) :
    (γ → Option ν) → List (τ × σ) → (γ → Option ν) → Prop
  | nil (values) : Takes L values [] values
  | cons {values values' : γ → Option ν} {o : τ} {x : σ} {rest : List (τ × σ)} {g : γ} {v : ν}
      (hgroup : L.group o = some g) (hfree : values g = none) (hmeans : L.Means o x v)
      (hrest : Takes L (Function.update values g (some v)) rest values') :
      Takes L values ((o, x) :: rest) values'

section Reading

variable [DecidableEq γ] {values values' : γ → Option ν}

/-- What is read was not assigned before. -/
lemma Takes.free (h : Takes L values pairs values') :
    ∀ p ∈ pairs, ∃ g v, L.group p.1 = some g ∧ values g = none ∧ L.Means p.1 p.2 v := by
  induction h with
  | nil values => simp
  | cons hgroup hfree hmeans hrest ih =>
    rename_i g v
    intro p hp
    rcases List.mem_cons.mp hp with rfl | hp
    · exact ⟨g, v, hgroup, hfree, hmeans⟩
    · obtain ⟨g', v', hgroup', hfree', hmeans'⟩ := ih p hp
      refine ⟨g', v', hgroup', ?_, hmeans'⟩
      by_cases heq : g' = g
      · rw [heq, Function.update_self] at hfree'
        cases hfree'
      · rwa [Function.update_of_ne heq] at hfree'

lemma Takes.nodup (h : Takes L values pairs values') : (L.groups pairs).Nodup := by
  induction h with
  | nil values => exact List.nodup_nil
  | cons hgroup hfree hmeans hrest ih =>
    refine List.nodup_cons.mpr ⟨fun hmem => ?_, ih⟩
    obtain ⟨p, hp, hsame⟩ := List.mem_map.mp hmem
    obtain ⟨g', v', hgroup', hfree', -⟩ := hrest.free p hp
    have hsame : some g' = some _ := hgroup'.symm.trans (hsame.trans hgroup)
    rw [Option.some_inj] at hsame
    rw [hsame, Function.update_self] at hfree'
    cases hfree'

/-- Reading adds the values of the pairs. -/
lemma Takes.values_iff (h : Takes L values pairs values') (g : γ) (v : ν) :
    values' g = some v ↔
      values g = some v ∨ ∃ p ∈ pairs, L.group p.1 = some g ∧ L.Means p.1 p.2 v := by
  induction h with
  | nil values => simp
  | @cons values values' o x rest g' v' hgroup hfree hmeans hrest ih =>
    rw [ih]
    simp only [List.mem_cons, exists_eq_or_imp, hgroup, Option.some_inj]
    by_cases heq : g = g'
    · subst heq
      rw [Function.update_self, Option.some_inj, hfree]
      constructor
      · rintro (rfl | hlater)
        · exact .inr (.inl ⟨rfl, hmeans⟩)
        · exact .inr (.inr hlater)
      · rintro (hnone | ⟨-, hmeans'⟩ | hlater)
        · cases hnone
        · exact .inl (L.functional hmeans hmeans')
        · exact .inr hlater
    · rw [Function.update_of_ne heq]
      constructor
      · rintro (hold | hlater)
        · exact .inl hold
        · exact .inr (.inr hlater)
      · rintro (hold | ⟨hsame, -⟩ | hlater)
        · exact .inl hold
        · exact absurd hsame.symm heq
        · exact .inr hlater

/-- Pairs of different groups that are all free can be read. -/
lemma exists_takes (hfree : ∀ p ∈ pairs, ∃ g v, L.group p.1 = some g ∧ values g = none ∧
    L.Means p.1 p.2 v) (hnodup : (L.groups pairs).Nodup) : ∃ values', Takes L values pairs values' := by
  induction pairs generalizing values with
  | nil => exact ⟨values, .nil values⟩
  | cons p rest ih =>
    obtain ⟨hnot, hnodup⟩ := List.nodup_cons.mp hnodup
    obtain ⟨g, v, hgroup, hnone, hmeans⟩ := hfree p List.mem_cons_self
    obtain ⟨values', hrest⟩ := @ih (Function.update values g (some v)) (fun q hq => by
      obtain ⟨g', v', hgroup', hnone', hmeans'⟩ := hfree q (List.mem_cons_of_mem _ hq)
      refine ⟨g', v', hgroup', ?_, hmeans'⟩
      have hne : g' ≠ g := by
        rintro rfl
        exact hnot (List.mem_map.mpr ⟨q, hq, hgroup'.trans hgroup.symm⟩)
      rwa [Function.update_of_ne hne]) hnodup
    exact ⟨values', .cons hgroup hnone hmeans hrest⟩

/-- Pairs can be read from scratch, with nothing missing at the end, exactly if the language accepts
them. -/
lemma accepts_iff_takes : L.Accepts pairs ↔ ∃ values, Takes L (fun _ => none) pairs values ∧
    ∀ g ∈ L.required, (values g).isSome := by
  constructor
  · intro h
    -- Every pair has a meaning, and no group is met twice, so all of them can be taken.
    have hfree : ∀ p ∈ pairs, ∃ g v, L.group p.1 = some g ∧ (none : Option ν) = none ∧
        L.Means p.1 p.2 v := by
      intro p hp
      obtain ⟨g, hgroup⟩ := h.known p hp
      obtain ⟨v, hmeans⟩ := h.valid p hp
      exact ⟨g, v, hgroup, rfl, hmeans⟩
    have hnodup : (L.groups pairs).Nodup := by
      rw [List.nodup_iff_count_le_one]
      intro og
      cases og with
      | some g => exact h.optional g
      | none =>
        rw [List.count_eq_zero_of_not_mem]
        · exact Nat.zero_le 1
        · intro hmem
          obtain ⟨p, hp, hnone⟩ := List.mem_map.mp hmem
          obtain ⟨g, hgroup⟩ := h.known p hp
          rw [hgroup] at hnone
          cases hnone
    obtain ⟨values, htakes⟩ := exists_takes hfree hnodup
    refine ⟨values, htakes, fun g hg => ?_⟩
    -- A required group occurs among the pairs, which have filled it.
    have hmem : some g ∈ L.groups pairs := by
      rw [← List.count_pos_iff, h.required g hg]
      exact Nat.one_pos
    obtain ⟨p, hp, hgroup⟩ := List.mem_map.mp hmem
    obtain ⟨v, hmeans⟩ := h.valid p hp
    rw [(htakes.values_iff g v).mpr (.inr ⟨p, hp, hgroup, hmeans⟩)]
    rfl
  · rintro ⟨values, htakes, hrequired⟩
    -- Pairs that were taken fill different groups.
    have honce := List.nodup_iff_count_le_one.mp htakes.nodup
    constructor
    · intro p hp
      obtain ⟨g, v, hgroup, -, -⟩ := htakes.free p hp
      exact ⟨g, hgroup⟩
    · intro p hp
      obtain ⟨g, v, -, -, hmeans⟩ := htakes.free p hp
      exact ⟨v, hmeans⟩
    · intro g hg
      obtain ⟨v, hv⟩ := Option.isSome_iff_exists.mp (hrequired g hg)
      obtain hnone | ⟨p, hp, hgroup, -⟩ := (htakes.values_iff g v).mp hv
      · cases hnone
      · have hmem : some g ∈ L.groups pairs := List.mem_map.mpr ⟨p, hp, hgroup⟩
        exact List.count_eq_one_of_mem htakes.nodup hmem
    · exact fun g => honce (some g)

lemma Takes.assigns (h : Takes L (fun _ => none) pairs values') : L.Assigns pairs values' := by
  intro g v
  rw [h.values_iff]
  simp

/-- Reading goes on behind what has been read. -/
lemma Takes.append {values'' : γ → Option ν} (h : L.Takes values pairs values')
    (h' : L.Takes values' pairs' values'') : L.Takes values (pairs ++ pairs') values'' := by
  induction h with
  | nil values => exact h'
  | cons hgroup hfree hmeans hrest ih => exact .cons hgroup hfree hmeans (ih h')

/-- What is accepted is read to its values. -/
lemma Accepts.takes (h : L.Accepts pairs) (hassigns : L.Assigns pairs values) :
    L.Takes (fun _ => none) pairs values := by
  obtain ⟨values', htakes, -⟩ := accepts_iff_takes.mp h
  rwa [hassigns.unique htakes.assigns]

/-- The pairs of the required groups are as many. -/
lemma Accepts.length_le (h : L.Accepts pairs) (hnodup : L.required.Nodup) :
    L.required.length ≤ pairs.length := by
  have hsub : L.required.map some ⊆ L.groups pairs := by
    intro og hog
    obtain ⟨g, hg, rfl⟩ := List.mem_map.mp hog
    rw [← List.count_pos_iff, h.required g hg]
    exact Nat.one_pos
  have hle := (List.subperm_of_subset (hnodup.map (Option.some_injective γ)) hsub).length_le
  rwa [List.length_map, groups, List.length_map] at hle

end Reading

end Language

/-! ## Translations -/

section Translations

variable {τ' σ' γ' ν' : Type}

/-- A rewriting of pairs into those of another language.  A group of the other language has its value
from the group that is its source; what is the source of none is dropped. -/
structure Translation (τ σ γ ν τ' σ' γ' ν' : Type) where
  pair : τ × σ → Option (τ' × σ')
  source : γ' → Option γ
  value : γ → ν → ν'
  injective : ∀ {g₁ g₂ g}, source g₁ = some g → source g₂ = some g → g₁ = g₂

namespace Translation

variable (t : Translation τ σ γ ν τ' σ' γ' ν')

/-- The values of the other language. -/
def values (values : γ → Option ν) (g' : γ') : Option ν' :=
  (t.source g').bind fun g => (values g).map (t.value g)

/-- The pair is rewritten to one that means the value of the other group, or dropped. -/
def Respects (L : Language τ σ γ ν) (L' : Language τ' σ' γ' ν') (p : τ × σ) : Prop :=
  ∀ g v, L.group p.1 = some g → L.Means p.1 p.2 v →
    (t.pair p = none ∧ ∀ g', t.source g' ≠ some g) ∨
      ∃ g' q, t.source g' = some g ∧ t.pair p = some q ∧ L'.group q.1 = some g' ∧
        L'.Means q.1 q.2 (t.value g v)

variable {t} [DecidableEq γ] {L : Language τ σ γ ν} {L' : Language τ' σ' γ' ν'}
  {vals vals' : γ → Option ν} {g : γ} {g' : γ'} {v : ν}

omit [DecidableEq γ] in
lemma values_none : (t.values fun _ => none) = fun _ => none := by
  funext g'
  rw [values]
  cases t.source g' <;> rfl

lemma values_update_of_dropped (h : ∀ g', t.source g' ≠ some g) :
    t.values (Function.update vals g (some v)) = t.values vals := by
  funext h'
  rw [values, values]
  cases hsource : t.source h' with
  | none => rfl
  | some g₀ =>
    have hne : g₀ ≠ g := by
      rintro rfl
      exact h h' hsource
    simp [Function.update_of_ne hne]

variable [DecidableEq γ']

lemma values_update_of_source (h : t.source g' = some g) :
    t.values (Function.update vals g (some v)) =
      Function.update (t.values vals) g' (some (t.value g v)) := by
  funext h'
  by_cases heq : h' = g'
  · subst heq
    rw [Function.update_self, values, h]
    simp
  · rw [Function.update_of_ne heq, values, values]
    cases hsource : t.source h' with
    | none => rfl
    | some g₀ =>
      have hne : g₀ ≠ g := by
        rintro rfl
        exact heq (t.injective hsource h)
      simp [Function.update_of_ne hne]

/-- **Rewritten pairs** are read to the values of the other language. -/
lemma takes {pairs : List (τ × σ)} (h : L.Takes vals pairs vals')
    (hpairs : ∀ p ∈ pairs, t.Respects L L' p) :
    L'.Takes (t.values vals) (pairs.filterMap t.pair) (t.values vals') := by
  induction h with
  | nil values => exact .nil _
  | @cons vals vals' o x rest g v hgroup hfree hmeans hrest ih =>
    have hrest' := ih fun p hp => hpairs p (List.mem_cons_of_mem _ hp)
    rcases hpairs (o, x) List.mem_cons_self g v hgroup hmeans with
      ⟨hnone, hdropped⟩ | ⟨g', q, hsource, hpair, hgroup', hmeans'⟩
    · rw [List.filterMap_cons_none hnone]
      rwa [values_update_of_dropped hdropped] at hrest'
    · rw [List.filterMap_cons_some hpair]
      rw [values_update_of_source hsource] at hrest'
      have hfree' : t.values vals g' = none := by
        rw [values, hsource]
        simp [hfree]
      exact .cons hgroup' hfree' hmeans' hrest'

end Translation

end Translations

/-! ## Programs -/

section Programs

variable [DecidableEq γ] {L : Language τ σ γ ν}

/-- Each step of a program that reads pairs into a record is one of the language. -/
def Implements (L : Language τ σ γ ν) (step : ρ → τ → σ → Except ε ρ)
    (record : (γ → Option ν) → ρ) : Prop :=
  ∀ values o x r, step (record values) o x = .ok r ↔
    ∃ g v, L.group o = some g ∧ values g = none ∧ L.Means o x v ∧
      r = record (Function.update values g (some v))

/-- A program that reads pairs reads those of the language. -/
lemma Implements.foldlM_eq_ok_iff {step : ρ → τ → σ → Except ε ρ} {record : (γ → Option ν) → ρ}
    (h : Implements L step record) (pairs : List (τ × σ)) (values : γ → Option ν) (r : ρ) :
    pairs.foldlM (fun r p => step r p.1 p.2) (record values) = .ok r ↔
      ∃ values', L.Takes values pairs values' ∧ r = record values' := by
  induction pairs generalizing values with
  | nil =>
    constructor
    · intro hr
      cases hr
      exact ⟨values, .nil values, rfl⟩
    · rintro ⟨values', htakes, rfl⟩
      cases htakes
      rfl
  | cons p rest ih =>
    obtain ⟨o, x⟩ := p
    rw [List.foldlM_cons]
    constructor
    · intro hr
      -- An iteration that goes on has taken its pair, and the rest is the induction hypothesis.
      cases hstep : step (record values) o x with
      | error e =>
        rw [hstep] at hr
        cases hr
      | ok r' =>
        rw [hstep] at hr
        obtain ⟨g, v, hgroup, hfree, hmeans, rfl⟩ := (h values o x r').mp hstep
        obtain ⟨values', hrest, heq⟩ := (ih _).mp hr
        exact ⟨values', .cons hgroup hfree hmeans hrest, heq⟩
    · rintro ⟨values', htakes, heq⟩
      cases htakes with
      | cons hgroup hfree hmeans hrest =>
        rw [(h values o x _).mpr ⟨_, _, hgroup, hfree, hmeans, rfl⟩]
        exact (ih _).mpr ⟨values', hrest, heq⟩

end Programs

end Options
