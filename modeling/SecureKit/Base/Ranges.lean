import Mathlib.Algebra.Order.Monoid.Defs
import Mathlib.Tactic

/-!
# Ranges that follow one another

A range is its first position and its size.  `Consecutive start ranges finish` says that the ranges
follow one another without a gap from `start` to `finish`.  If no size is negative, they are disjoint
and cover exactly what lies between.
-/

namespace Ranges

variable {α : Type}

/-- Each range begins where the one before it ends. -/
inductive Consecutive [Add α] : α → List (α × α) → α → Prop
  | nil (start : α) : Consecutive start [] start
  | cons (start size : α) {ranges : List (α × α)} {finish : α}
    (h : Consecutive (start + size) ranges finish) :
    Consecutive start ((start, size) :: ranges) finish

variable [AddCommMonoid α] [LinearOrder α] [IsOrderedAddMonoid α] {start finish : α}
  {ranges : List (α × α)}

lemma Consecutive.le (h : Consecutive start ranges finish) (hsize : ∀ r ∈ ranges, 0 ≤ r.2) :
    start ≤ finish := by
  induction h with
  | nil start => exact le_rfl
  | cons start size h ih =>
    obtain ⟨hfirst, hrest⟩ := List.forall_mem_cons.mp hsize
    exact (le_add_of_nonneg_right hfirst).trans (ih hrest)

/-- The ranges lie between start and finish. -/
lemma Consecutive.bounds (h : Consecutive start ranges finish) (hsize : ∀ r ∈ ranges, 0 ≤ r.2) :
    ∀ r ∈ ranges, start ≤ r.1 ∧ r.1 + r.2 ≤ finish := by
  induction h with
  | nil start =>
    intro r hr
    cases hr
  | cons start size h ih =>
    obtain ⟨hfirst, hrest⟩ := List.forall_mem_cons.mp hsize
    refine List.forall_mem_cons.mpr ⟨⟨le_rfl, h.le hrest⟩, fun r hr => ?_⟩
    obtain ⟨hfrom, hto⟩ := ih hrest r hr
    exact ⟨(le_add_of_nonneg_right hfirst).trans hfrom, hto⟩

/-- No two ranges overlap. -/
lemma Consecutive.disjoint (h : Consecutive start ranges finish) (hsize : ∀ r ∈ ranges, 0 ≤ r.2) :
    ranges.Pairwise fun r r' => r.1 + r.2 ≤ r'.1 := by
  induction h with
  | nil start => exact .nil
  | cons start size h ih =>
    obtain ⟨-, hrest⟩ := List.forall_mem_cons.mp hsize
    exact .cons (fun r hr => (h.bounds hrest r hr).1) (ih hrest)

/-- A position lies in one of the ranges exactly if it lies between start and finish. -/
lemma Consecutive.covers_iff (h : Consecutive start ranges finish) (hsize : ∀ r ∈ ranges, 0 ≤ r.2)
    (x : α) : (∃ r ∈ ranges, r.1 ≤ x ∧ x < r.1 + r.2) ↔ start ≤ x ∧ x < finish := by
  induction h with
  | nil start => simp
  | cons start size h ih =>
    obtain ⟨hfirst, hrest⟩ := List.forall_mem_cons.mp hsize
    have hnext : start ≤ start + size := le_add_of_nonneg_right hfirst
    rw [List.exists_mem_cons_iff, ih hrest]
    constructor
    · rintro (⟨hfrom, hto⟩ | ⟨hfrom, hto⟩)
      · exact ⟨hfrom, hto.trans_le (h.le hrest)⟩
      · exact ⟨hnext.trans hfrom, hto⟩
    · rintro ⟨hfrom, hto⟩
      rcases lt_or_ge x (start + size) with hlt | hge
      · exact .inl ⟨hfrom, hlt⟩
      · exact .inr ⟨hge, hto⟩

end Ranges
