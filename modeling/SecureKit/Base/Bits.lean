import Mathlib.Data.List.Basic
import Mathlib.Data.Nat.Bitwise
import Mathlib.Tactic

/-!
# Regrouping the binary digits of a string

Text encodings of binary data are defined on the digits of the data: these are written one after
another, most significant first, filled up to whole groups of another size, and each group is a
number again.  `digits` and `value` are the two directions for one number, `groups` cuts a list into
groups, and `padTo` fills it up.

`groups_append` and `padTo_append` take a whole number of groups off the front, which is the step of
an induction along the data.
-/

namespace Bits

variable {α : Type}

/-- The last `n` binary digits of a number, most significant first. -/
def digits : ℕ → ℕ → List Bool
  | 0, _ => []
  | n + 1, v => v.testBit n :: digits n v

/-- The number that binary digits spell. -/
def value (bits : List Bool) : ℕ := bits.foldl (fun v bit => 2 * v + bit.toNat) 0

/-- `l`, filled up with copies of `a` to a multiple of `k`. -/
def padTo (k : ℕ) (a : α) (l : List α) : List α :=
  l ++ List.replicate ((k - l.length % k) % k) a

/-- The pieces of length `k` of a list; the last may be shorter. -/
def groups (k : ℕ) (l : List α) : List (List α) :=
  (List.range ((l.length + k - 1) / k)).map fun i => (l.drop (k * i)).take k

@[simp] lemma length_digits (n v : ℕ) : (digits n v).length = n := by
  induction n with
  | zero => rfl
  | succ n ih => rw [digits, List.length_cons, ih]

/-- The digits of a number in two parts. -/
lemma digits_add (m n v : ℕ) : digits (m + n) v = digits m (v / 2 ^ n) ++ digits n v := by
  induction m with
  | zero => simp [digits]
  | succ m ih =>
    rw [show m + 1 + n = m + n + 1 by omega, digits, ih, digits, Nat.testBit_div_two_pow,
      List.cons_append]

lemma digits_zero (n : ℕ) : digits n 0 = List.replicate n false := by
  induction n with
  | zero => rfl
  | succ n ih => rw [digits, ih, Nat.zero_testBit, List.replicate_succ]

lemma value_foldl (bits : List Bool) (v : ℕ) :
    bits.foldl (fun v bit => 2 * v + bit.toNat) v = v * 2 ^ bits.length + value bits := by
  induction bits generalizing v with
  | nil => simp [value]
  | cons bit bits ih =>
    rw [value, List.foldl_cons, List.foldl_cons, ih, ih (2 * 0 + bit.toNat), List.length_cons]
    ring

lemma value_append (front back : List Bool) :
    value (front ++ back) = value front * 2 ^ back.length + value back := by
  rw [value, List.foldl_append, value_foldl]
  rfl

@[simp] lemma value_digits (n v : ℕ) : value (digits n v) = v % 2 ^ n := by
  induction n with
  | zero => simp [digits, value, Nat.mod_one]
  | succ n ih =>
    have hbit : value [v.testBit n] = v / 2 ^ n % 2 := by
      rw [← Nat.toNat_testBit]
      simp [value]
    rw [digits, ← List.singleton_append, value_append, ih, length_digits, hbit, Nat.mod_pow_succ]
    ring

/-- Two runs of digits spell one number. -/
lemma value_digits_append (m n v w : ℕ) :
    value (digits m v ++ digits n w) = v % 2 ^ m * 2 ^ n + w % 2 ^ n := by
  rw [value_append, value_digits, value_digits, length_digits]

/-- Whole groups in front are not filled up. -/
lemma padTo_append {k : ℕ} {a : α} {front : List α} (h : k ∣ front.length) (l : List α) :
    padTo k a (front ++ l) = front ++ padTo k a l := by
  obtain ⟨n, hn⟩ := h
  rw [padTo, padTo, List.length_append, hn, Nat.mul_add_mod, List.append_assoc]

@[simp] lemma padTo_nil (k : ℕ) (a : α) : padTo k a [] = [] := by
  simp [padTo]

@[simp] lemma groups_nil (k : ℕ) (hk : 0 < k) : groups k ([] : List α) = [] := by
  rw [groups, List.length_nil, Nat.zero_add, Nat.div_eq_of_lt (by omega), List.range_zero,
    List.map_nil]

/-- The first group. -/
lemma groups_append {k : ℕ} (hk : 0 < k) {front : List α} (h : front.length = k) (l : List α) :
    groups k (front ++ l) = front :: groups k l := by
  have hcount : ((front ++ l).length + k - 1) / k = (l.length + k - 1) / k + 1 := by
    rw [List.length_append, h, ← Nat.add_div_right _ hk]
    congr 1
    omega
  rw [groups, hcount, List.range_succ_eq_map, List.map_cons, List.map_map, groups]
  congr 1
  · rw [Nat.mul_zero, List.drop_zero, ← h, List.take_left]
  · apply List.map_congr_left
    intro i _
    show ((front ++ l).drop (k * (i + 1))).take k = _
    rw [Nat.mul_succ, Nat.add_comm, ← List.drop_drop, List.drop_left' h]

end Bits
