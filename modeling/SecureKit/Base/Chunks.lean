import Mathlib.Data.List.Basic
import Mathlib.Tactic

/-!
# Lists cut into chunks of one size

A list is cut into full chunks and a last one, which may be short.  A cut is canonical
(`IsCut.Canonical`) if the last chunk is empty only for the empty list; there is exactly one such
cut of a list, and `chunkCount` and `chunkAt` say what it is without building it.

* `IsCut.count` and `IsCut.chunkAt_eq` read the number of chunks and the chunks themselves off a
  canonical cut.
* `IsCut.eq_or_boundary` compares two cuts of one list, of which the first is canonical: they are
  equal, or the second has one more full chunk and an empty last one.
-/

namespace Chunks

variable {α : Type} {size : ℕ} {parts parts' : List (List α)} {last last' l : List α}

/-- `l` is cut into the full chunks `parts` and the chunk `last`. -/
structure IsCut (size : ℕ) (parts : List (List α)) (last l : List α) : Prop where
  eq_flatten : l = parts.flatten ++ last
  full : ∀ part ∈ parts, part.length = size
  last_le : last.length ≤ size

/-- The last chunk of a cut is empty only where it is the only one. -/
def IsCut.Canonical (_ : IsCut size parts last l) : Prop := parts ≠ [] → last ≠ []

/-- The number of chunks a list of the given length has. -/
def chunkCount (size length : ℕ) : ℕ := max 1 ((length + size - 1) / size)

/-- The chunk of a list at an index. -/
def chunkAt (size : ℕ) (l : List α) (i : ℕ) : List α := (l.drop (i * size)).take size

lemma length_flatten_of_full (h : ∀ part ∈ parts, part.length = size) :
    parts.flatten.length = size * parts.length := by
  induction parts with
  | nil => rfl
  | cons part parts ih =>
    have hrest := ih fun p hp => h p (List.mem_cons_of_mem _ hp)
    rw [List.flatten_cons, List.length_append, h part List.mem_cons_self, hrest, List.length_cons]
    ring

namespace IsCut

lemma length_eq (h : IsCut size parts last l) : l.length = size * parts.length + last.length := by
  rw [h.eq_flatten, List.length_append, length_flatten_of_full h.full]

/-- The chunks behind the first one are a cut of what is behind it. -/
lemma tail {part : List α} (h : IsCut size (part :: parts) last l) :
    IsCut size parts last (l.drop size) where
  eq_flatten := by
    rw [h.eq_flatten, List.flatten_cons, List.append_assoc,
      List.drop_left' (h.full part List.mem_cons_self)]
  full p hp := h.full p (List.mem_cons_of_mem _ hp)
  last_le := h.last_le

lemma head_eq {part : List α} (h : IsCut size (part :: parts) last l) : part = l.take size := by
  rw [h.eq_flatten, List.flatten_cons, List.append_assoc,
    List.take_left' (h.full part List.mem_cons_self)]

/-- A full chunk in front of a cut. -/
lemma cons {part : List α} (h : IsCut size parts last l) (hpart : part.length = size) :
    IsCut size (part :: parts) last (part ++ l) where
  eq_flatten := by rw [h.eq_flatten, List.flatten_cons, List.append_assoc]
  full p hp := by
    rcases List.mem_cons.mp hp with rfl | hmem
    · exact hpart
    · exact h.full p hmem
  last_le := h.last_le

/-- Every list has a canonical cut, whose last chunk is empty only for the empty list. -/
theorem exists_canonical (hsize : 0 < size) (l : List α) :
    ∃ parts last, ∃ h : IsCut size parts last l, h.Canonical ∧ (l ≠ [] → last ≠ []) := by
  induction hlength : l.length using Nat.strong_induction_on generalizing l with
  | _ length ih =>
    by_cases hle : l.length ≤ size
    · exact ⟨[], l, ⟨rfl, by simp, hle⟩, fun hne => absurd rfl hne, id⟩
    · have hlt : (l.drop size).length < length := by
        rw [List.length_drop]
        omega
      obtain ⟨parts, last, h, -, hlast⟩ := ih _ hlt (l.drop size) rfl
      have hrest : l.drop size ≠ [] := by
        rw [Ne, List.drop_eq_nil_iff]
        exact hle
      have hfull : (l.take size).length = size := by
        rw [List.length_take]
        omega
      have hcons := h.cons hfull
      rw [List.take_append_drop] at hcons
      exact ⟨_, last, hcons, fun _ => hlast hrest, fun _ => hlast hrest⟩

/-- The number of chunks of a canonical cut. -/
lemma count (h : IsCut size parts last l) (hc : h.Canonical) (hsize : 0 < size) :
    chunkCount size l.length = parts.length + 1 := by
  have hlast := h.last_le
  unfold chunkCount
  rw [h.length_eq]
  by_cases hparts : parts = []
  · subst hparts
    have hle : (size * ([] : List (List α)).length + last.length + size - 1) / size ≤ 1 := by
      apply Nat.lt_succ_iff.mp
      apply Nat.div_lt_of_lt_mul
      rw [List.length_nil]
      omega
    rw [List.length_nil] at hle ⊢
    omega
  · have hpos : 0 < last.length := List.length_pos_iff.mpr (hc hparts)
    have hdiv : (size * parts.length + last.length + size - 1) / size = parts.length + 1 := by
      apply Nat.div_eq_of_lt_le
      · rw [Nat.add_mul, Nat.mul_comm parts.length]
        omega
      · rw [Nat.add_mul, Nat.add_mul, Nat.mul_comm parts.length]
        omega
    rw [hdiv]
    omega

/-- The full chunks of a cut are the chunks at their indices. -/
lemma chunkAt_eq (h : IsCut size parts last l) (i : ℕ) (hi : i < parts.length) :
    chunkAt size l i = parts[i] := by
  induction parts generalizing l i with
  | nil => exact absurd hi (by simp)
  | cons part parts ih =>
    cases i with
    | zero =>
      rw [chunkAt, Nat.zero_mul, List.drop_zero]
      exact h.head_eq.symm
    | succ i =>
      have hnext := ih h.tail i (by simpa using hi)
      rw [chunkAt, List.drop_drop, Nat.add_comm] at hnext
      rw [chunkAt, Nat.add_mul, Nat.one_mul]
      exact hnext

/-- The full chunks of a cut, read off the list. -/
lemma map_chunkAt (h : IsCut size parts last l) :
    (List.range parts.length).map (chunkAt size l) = parts := by
  apply List.ext_getElem
  · rw [List.length_map, List.length_range]
  · intro i _ hi
    rw [List.getElem_map, List.getElem_range]
    exact h.chunkAt_eq i hi

/-- The last chunk of a cut is the chunk at its index. -/
lemma chunkAt_last (h : IsCut size parts last l) : chunkAt size l parts.length = last := by
  have hlen : parts.flatten.length = parts.length * size := by
    rw [length_flatten_of_full h.full, Nat.mul_comm]
  rw [chunkAt, h.eq_flatten, ← hlen, List.drop_left, List.take_of_length_le h.last_le]

/-- **Two cuts of one list**, of which the first is canonical, agree, or the second one goes on
with an empty chunk where the first one ends with a full one. -/
theorem eq_or_boundary (h : IsCut size parts last l) (hc : h.Canonical)
    (h' : IsCut size parts' last' l) (hsize : 0 < size) :
    (parts = parts' ∧ last = last') ∨
      (last' = [] ∧ parts' = parts ++ [last] ∧ last.length = size) := by
  have hlen := h.length_eq.symm.trans h'.length_eq
  have hlast := h.last_le
  have hlast' := h'.last_le
  induction parts generalizing parts' l with
  | nil =>
    -- The first cut has no full part, so all of the list is its last one.
    cases parts' with
    | nil =>
      left
      refine ⟨rfl, ?_⟩
      have heq := h.eq_flatten.symm.trans h'.eq_flatten
      simpa using heq
    | cons part' parts' =>
      right
      -- A full part is as long as the last one can be, so it is the last one.
      rw [List.length_nil, List.length_cons, Nat.mul_add] at hlen
      have hnil' : last' = [] := List.length_eq_zero_iff.mp (by omega)
      have hzero : size * parts'.length = 0 := by omega
      have hparts' : parts' = [] := by
        rcases Nat.mul_eq_zero.mp hzero with hz | hz
        · omega
        · exact List.length_eq_zero_iff.mp hz
      subst hnil' hparts'
      have heq := h.eq_flatten.symm.trans h'.eq_flatten
      have hpart : part' = last := by simpa using heq.symm
      subst hpart
      exact ⟨rfl, rfl, h'.full _ List.mem_cons_self⟩
  | cons part parts ih =>
    have hpos : 0 < last.length := List.length_pos_iff.mpr (hc (by simp))
    cases parts' with
    | nil =>
      rw [List.length_nil, List.length_cons, Nat.mul_add] at hlen
      omega
    | cons part' parts' =>
      -- Both cuts begin with the same full part.
      obtain rfl : part = part' := h.head_eq.trans h'.head_eq.symm
      have hrest := ih h.tail (fun _ => List.length_pos_iff.mp hpos) h'.tail
        (by rw [List.length_cons, List.length_cons, Nat.mul_add, Nat.mul_add] at hlen; omega)
      rcases hrest with ⟨rfl, rfl⟩ | ⟨rfl, rfl, hfull⟩
      · exact .inl ⟨rfl, rfl⟩
      · exact .inr ⟨rfl, rfl, hfull⟩

end IsCut

end Chunks
