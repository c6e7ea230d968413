import Mathlib.Data.Finset.Basic
import Mathlib.Logic.Function.Basic
import Mathlib.Tactic

/-!
# Resources that are acquired, used and released

What a program does with its resources is a list of acts.  It is disciplined where a resource is
acquired only while it is free, and used or released only while it is held: nothing is released
twice, and nothing is used behind its release.  A name may be given to a new resource once the old
one is released, so `lifetime r` are the acts on `r` up to its next acquisition.

`Disciplined.lifetime` says what discipline means for a lifetime: it is a number of uses with at
most one release behind them, and with exactly one where the resource is free in the end.

Discipline comes from owners: where every resource that is held has exactly one owner (`Linear`), and
an owner that releases its resource owns it no longer, the acts of the owners are disciplined.
-/

namespace Lifetime

/-- What is done with a resource. -/
inductive Act (ρ : Type)
  | acquire (r : ρ)
  | use (r : ρ)
  | release (r : ρ)
  deriving DecidableEq

section Acts

variable {ρ : Type} [DecidableEq ρ] {r : ρ} {held : Finset ρ} {acts acts' : List (Act ρ)}

/-- The resource of an act. -/
def Act.resource : Act ρ → ρ
  | .acquire r | .use r | .release r => r

/-- What is held behind an act. -/
def Act.after (held : Finset ρ) : Act ρ → Finset ρ
  | .acquire r => insert r held
  | .use _ => held
  | .release r => held.erase r

/-- What is free is acquired, and what is held is used or released. -/
def Act.Allowed (held : Finset ρ) : Act ρ → Prop
  | .acquire r => r ∉ held
  | .use r | .release r => r ∈ held

instance (held : Finset ρ) : (a : Act ρ) → Decidable (a.Allowed held)
  | .acquire r => inferInstanceAs (Decidable (r ∉ held))
  | .use r | .release r => inferInstanceAs (Decidable (r ∈ held))

/-- What is held behind acts, from what is held in front of them. -/
def heldAfter (held : Finset ρ) (acts : List (Act ρ)) : Finset ρ := acts.foldl Act.after held

/-- Every act is allowed where it is done. -/
def Disciplined (held : Finset ρ) : List (Act ρ) → Prop
  | [] => True
  | a :: acts => a.Allowed held ∧ Disciplined (a.after held) acts

/-- The acts on a resource up to its next acquisition. -/
def lifetime (r : ρ) (acts : List (Act ρ)) : List (Act ρ) :=
  (acts.takeWhile fun a => a ≠ .acquire r).filter fun a => a.resource = r

@[simp] lemma heldAfter_append :
    heldAfter held (acts ++ acts') = heldAfter (heldAfter held acts) acts' :=
  List.foldl_append

@[simp] lemma disciplined_append :
    Disciplined held (acts ++ acts') ↔
      Disciplined held acts ∧ Disciplined (heldAfter held acts) acts' := by
  induction acts generalizing held with
  | nil => simp [Disciplined, heldAfter]
  | cons a acts ih => rw [List.cons_append, Disciplined, Disciplined, ih, and_assoc]; rfl

/-! ## Lifetimes -/

lemma lifetime_cons_of_ne (a : Act ρ) (h : a.resource ≠ r) :
    lifetime r (a :: acts) = lifetime r acts := by
  have hacquire : a ≠ .acquire r := by
    rintro rfl
    exact h rfl
  simp [lifetime, hacquire, h]

/-- What is free is not touched before it is acquired. -/
lemma Disciplined.lifetime_of_free (h : Disciplined held acts) (hfree : r ∉ held) :
    lifetime r acts = [] := by
  induction acts generalizing held with
  | nil => rfl
  | cons a acts ih =>
    obtain ⟨hallowed, hrest⟩ := h
    cases a with
    | acquire q =>
      by_cases heq : q = r
      · simp [lifetime, heq]
      · rw [lifetime_cons_of_ne (.acquire q) heq]
        exact ih hrest (by simp [Act.after, Ne.symm heq, hfree])
    | use q =>
      rw [lifetime_cons_of_ne (.use q) (ne_of_mem_of_not_mem hallowed hfree)]
      exact ih hrest hfree
    | release q =>
      rw [lifetime_cons_of_ne (.release q) (ne_of_mem_of_not_mem hallowed hfree)]
      exact ih hrest fun hmem => hfree (Finset.mem_of_mem_erase hmem)

/-- **A lifetime** is a number of uses, and then one release unless the resource is still held. -/
theorem Disciplined.lifetime_of_held (h : Disciplined held acts) (hheld : r ∈ held) :
    ∃ uses, lifetime r acts = List.replicate uses (.use r) ∧ r ∈ heldAfter held acts ∨
      lifetime r acts = List.replicate uses (.use r) ++ [.release r] := by
  induction acts generalizing held with
  | nil => exact ⟨0, .inl ⟨rfl, hheld⟩⟩
  | cons a acts ih =>
    obtain ⟨hallowed, hrest⟩ := h
    cases a with
    | acquire q =>
      -- Who holds a resource does not acquire it again.
      have hne : q ≠ r := (ne_of_mem_of_not_mem hheld hallowed).symm
      rw [lifetime_cons_of_ne (.acquire q) hne]
      exact ih hrest (Finset.mem_insert_of_mem hheld)
    | use q =>
      by_cases heq : q = r
      · subst heq
        have hcons : lifetime q (.use q :: acts) = .use q :: lifetime q acts := by
          simp [lifetime, Act.resource]
        obtain ⟨uses, ⟨hopen, hmem⟩ | hclosed⟩ := ih hrest hheld
        · refine ⟨uses + 1, .inl ⟨?_, hmem⟩⟩
          rw [hcons, hopen, List.replicate_succ]
        · refine ⟨uses + 1, .inr ?_⟩
          rw [hcons, hclosed, List.replicate_succ, List.cons_append]
      · rw [lifetime_cons_of_ne (.use q) heq]
        exact ih hrest hheld
    | release q =>
      by_cases heq : q = r
      · subst heq
        -- A resource that was released does not come back.
        have hfree : lifetime q acts = [] := hrest.lifetime_of_free (Finset.notMem_erase q held)
        refine ⟨0, .inr ?_⟩
        have hcons : lifetime q (.release q :: acts) = .release q :: lifetime q acts := by
          simp [lifetime, Act.resource]
        rw [hcons, hfree]
        rfl
      · rw [lifetime_cons_of_ne (.release q) heq]
        exact ih hrest (Finset.mem_erase.mpr ⟨Ne.symm heq, hheld⟩)

/-- The lifetime behind each acquisition. -/
theorem Disciplined.lifetime {before after : List (Act ρ)}
    (h : Disciplined held (before ++ .acquire r :: after)) :
    ∃ uses, lifetime r after = List.replicate uses (.use r) ∧
        r ∈ heldAfter held (before ++ .acquire r :: after) ∨
      lifetime r after = List.replicate uses (.use r) ++ [.release r] := by
  obtain ⟨-, -, hrest⟩ := disciplined_append.mp h
  rw [heldAfter_append]
  exact hrest.lifetime_of_held (Finset.mem_insert_self r _)

end Acts

/-! ## Owners -/

/-- The acts are disciplined, and what they hold has one owner each. -/
structure Linear {ρ σ : Type} [DecidableEq ρ] (acts : List (Act ρ)) (owned : σ → Option ρ) :
    Prop where
  disciplined : Disciplined ∅ acts
  unique : ∀ x y r, owned x = some r → owned y = some r → x = y
  held_iff : ∀ r, r ∈ heldAfter ∅ acts ↔ ∃ x, owned x = some r

namespace Linear

variable {ρ σ : Type} [DecidableEq ρ] {acts : List (Act ρ)} {owned : σ → Option ρ} {x : σ} {r : ρ}

lemma nil : Linear ([] : List (Act ρ)) fun _ : σ => none where
  disciplined := trivial
  unique _ _ _ h := by cases h
  held_iff _ := by simp [heldAfter]

/-- Owners use what they own. -/
lemma uses (h : Linear acts owned) {uses : List (Act ρ)}
    (huses : ∀ a ∈ uses, ∃ x r, owned x = some r ∧ a = .use r) : Linear (acts ++ uses) owned := by
  induction uses generalizing acts with
  | nil => simpa using h
  | cons a uses ih =>
    obtain ⟨x, r, hx, rfl⟩ := huses a List.mem_cons_self
    rw [List.append_cons]
    refine ih ⟨?_, h.unique, fun q => ?_⟩ fun b hb => huses b (List.mem_cons_of_mem _ hb)
    · exact disciplined_append.mpr ⟨h.disciplined, (h.held_iff r).mpr ⟨x, hx⟩, trivial⟩
    · rw [heldAfter_append]
      exact h.held_iff q

/-- Where nobody owns anything, every lifetime has ended with its one release. -/
theorem lifetime_closed {before after : List (Act ρ)} (h : Linear (before ++ .acquire r :: after) owned)
    (hnone : ∀ x, owned x = none) :
    ∃ uses, lifetime r after = List.replicate uses (.use r) ++ [.release r] := by
  obtain ⟨uses, ⟨-, hheld⟩ | hclosed⟩ := h.disciplined.lifetime
  · obtain ⟨x, hx⟩ := (h.held_iff r).mp hheld
    rw [hnone x] at hx
    cases hx
  · exact ⟨uses, hclosed⟩

section Updates

variable [DecidableEq σ]

/-- A resource that is free gets an owner that owns nothing. -/
lemma acquire (h : Linear acts owned) (hx : owned x = none) (hfree : r ∉ heldAfter ∅ acts) :
    Linear (acts ++ [.acquire r]) (Function.update owned x (some r)) := by
  have hnone : ∀ y, owned y ≠ some r := fun y hy => hfree ((h.held_iff r).mpr ⟨y, hy⟩)
  refine ⟨disciplined_append.mpr ⟨h.disciplined, hfree, trivial⟩, fun y z q hy hz => ?_, fun q => ?_⟩
  · -- Only the new owner can have the new resource.
    by_cases hyx : y = x <;> by_cases hzx : z = x
    · exact hyx.trans hzx.symm
    · rw [hyx, Function.update_self] at hy
      rw [Function.update_of_ne hzx] at hz
      cases hy
      exact absurd hz (hnone z)
    · rw [hzx, Function.update_self] at hz
      rw [Function.update_of_ne hyx] at hy
      cases hz
      exact absurd hy (hnone y)
    · rw [Function.update_of_ne hyx] at hy
      rw [Function.update_of_ne hzx] at hz
      exact h.unique y z q hy hz
  · rw [heldAfter_append]
    show q ∈ insert r (heldAfter ∅ acts) ↔ _
    rw [Finset.mem_insert, h.held_iff]
    constructor
    · rintro (rfl | ⟨y, hy⟩)
      · exact ⟨x, Function.update_self x _ _⟩
      · have hne : y ≠ x := by
          rintro rfl
          rw [hx] at hy
          cases hy
        exact ⟨y, by rwa [Function.update_of_ne hne]⟩
    · rintro ⟨y, hy⟩
      by_cases hyx : y = x
      · rw [hyx, Function.update_self] at hy
        exact .inl (Option.some.inj hy).symm
      · rw [Function.update_of_ne hyx] at hy
        exact .inr ⟨y, hy⟩

/-- An owner releases its resource, and owns nothing. -/
lemma release (h : Linear acts owned) (hx : owned x = some r) :
    Linear (acts ++ [.release r]) (Function.update owned x none) := by
  have hback : ∀ y q, Function.update owned x none y = some q ↔ y ≠ x ∧ owned y = some q := by
    intro y q
    by_cases hyx : y = x
    · simp [hyx]
    · simp [hyx]
  refine ⟨?_, fun y z q hy hz => ?_, fun q => ?_⟩
  · exact disciplined_append.mpr ⟨h.disciplined, (h.held_iff r).mpr ⟨x, hx⟩, trivial⟩
  · exact h.unique y z q ((hback y q).mp hy).2 ((hback z q).mp hz).2
  · rw [heldAfter_append]
    show q ∈ (heldAfter ∅ acts).erase r ↔ _
    simp only [Finset.mem_erase, h.held_iff, hback]
    constructor
    · rintro ⟨hne, y, hy⟩
      refine ⟨y, ?_, hy⟩
      rintro rfl
      rw [hx] at hy
      exact hne (Option.some.inj hy).symm
    · rintro ⟨y, hyx, hy⟩
      refine ⟨?_, y, hy⟩
      rintro rfl
      exact hyx (h.unique y x q hy hx)

/-- What one owner has goes to another, which owned nothing. -/
lemma move (h : Linear acts owned) (hx : owned x = none) (y : σ) :
    Linear acts (Function.update (Function.update owned y none) x (owned y)) := by
  -- Afterwards `x` has what `y` had, `y` has nothing, and the others have what they had.
  have hback : ∀ z q, Function.update (Function.update owned y none) x (owned y) z = some q ↔
      (z = x ∧ owned y = some q) ∨ (z ≠ x ∧ z ≠ y ∧ owned z = some q) := by
    intro z q
    by_cases hzx : z = x
    · simp [hzx]
    · by_cases hzy : z = y
      · subst hzy
        simp [hzx]
      · simp [hzx, hzy]
  refine ⟨h.disciplined, fun z w q hz hw => ?_, fun q => ?_⟩
  · rcases (hback z q).mp hz with ⟨hzx, hfrom⟩ | ⟨-, hzy, hown⟩
    · rcases (hback w q).mp hw with ⟨hwx, -⟩ | ⟨-, hwy, hown'⟩
      · exact hzx.trans hwx.symm
      · exact absurd (h.unique w y q hown' hfrom) hwy
    · rcases (hback w q).mp hw with ⟨-, hfrom⟩ | ⟨-, -, hown'⟩
      · exact absurd (h.unique z y q hown hfrom) hzy
      · exact h.unique z w q hown hown'
  · simp only [h.held_iff, hback]
    constructor
    · rintro ⟨z, hz⟩
      by_cases hzy : z = y
      · exact ⟨x, .inl ⟨rfl, hzy ▸ hz⟩⟩
      · refine ⟨z, .inr ⟨?_, hzy, hz⟩⟩
        rintro rfl
        rw [hx] at hz
        cases hz
    · rintro ⟨z, ⟨-, hy⟩ | ⟨-, -, hz⟩⟩
      · exact ⟨y, hy⟩
      · exact ⟨z, hz⟩

end Updates

end Linear

end Lifetime
