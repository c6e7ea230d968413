import Mathlib.Algebra.Order.Floor.Div
import SecureKit.Base.Ranges
import SecureKit.Random

/-!
# `fill_random` in machine integers

`fillRandom` of `SecureKit.Random` counts in natural numbers and carries the proof that it stays inside
the buffer.  Here is the loop of `src/random.cpp` as it is written: `size` is a `std::size_t`, `chunk`
an `int` that a cast has narrowed, and `output` a pointer, of which nothing but the arithmetic keeps it
inside.  Addresses are counted from the buffer, so what lies in front of it and behind it can be told
from what lies in it.

`fillRandom_exact` says which calls of `RAND_bytes` the loop makes, whatever they return, and
`Machine.fillRandom_refines` that it does what `fillRandom` does, so `Machine.randomBytes_refines` that
`randomBytes` is what `random_bytes` returns.

## What the loop does

A chunk is what is left, but at most the largest `int`, so the cast to `int` never changes it and
the size that is left never wraps.  `Pieces` describes the calls from any position on: one behind
the other, each as large as it can be.  The induction of `outcome_fillRandom` is on the size that is
left.  `InOrder` is the same for a whole buffer, where the ranges of the calls cover it exactly.

`fillRandom_exact` has both ways to end.  If all calls succeed, they are as many as the size needs
and the buffer holds what was drawn; if one fails, it is the last one, `backend_failure` is thrown
and no further call is made.  In both cases nothing outside of the buffer is written (`Frame`).

The refinement is stated for the memory of a buffer of the same size.  It is what allows the rest
of the development to use the function on natural numbers.
-/

namespace SecureKit

open ByteString Effect Evp Ranges

/-! ## The loop -/

/-- `std::numeric_limits<int>::max()` as a `std::size_t` -/
def intLimit : UInt64 := 2147483647

/-- `std::min<std::size_t>(a, b)` -/
def minSize (a b : UInt64) : UInt64 := if b < a then b else a

/-- `static_cast<int>` of a `std::size_t` -/
def narrow (n : UInt64) : Int32 := n.toUInt32.toInt32

/-- `static_cast<std::size_t>` of an `int` -/
def widen (n : Int32) : UInt64 := n.toInt64.toUInt64

/-- A call `RAND_bytes(buffer + offset, size)`, and whether it returned 1. -/
structure RandCall where
  offset : ℤ
  size : Int32
  ok : Bool

/-- The addresses a call is given to write to. -/
def RandCall.range (c : RandCall) : ℤ × ℤ := (c.offset, c.size.toInt)

/-- The memory around a buffer, and the calls that were made. -/
structure Machine where
  memory : ℤ → UInt8
  calls : List RandCall := []
  lib : Lib := {}

namespace Machine

/-- Bytes are written from an address on. -/
def write (memory : ℤ → UInt8) (address : ℤ) (bytes : Bytes) (p : ℤ) : UInt8 :=
  if address ≤ p ∧ p < address + bytes.length then bytes.getD (p - address).toNat 0 else memory p

/-- `RAND_bytes(output, chunk) == 1` -/
def randBytes (ssl : Openssl) (output : ℤ) (chunk : Int32) : Eff Machine Bool := do
  let drawn ← zoom Machine.lib (fun lib m => { m with lib })
    (call (.rand output.toNat chunk.toNatClampNeg) fun t => ssl.rand t chunk.toNatClampNeg)
  modify fun m => { m with calls := m.calls ++ [⟨output, chunk, drawn.isSome⟩] }
  match drawn with
  | none => return false
  | some bytes =>
    modify fun m => { m with memory := write m.memory output bytes }
    return true

lemma toNat_minSize (a b : UInt64) : (minSize a b).toNat = min a.toNat b.toNat := by
  unfold minSize
  split
  · rename_i hlt
    exact (Nat.min_eq_right (UInt64.lt_iff_toNat_lt.mp hlt).le).symm
  · rename_i hge
    rw [UInt64.lt_iff_toNat_lt, not_lt] at hge
    exact (Nat.min_eq_left hge).symm

/-- What fits an `int` is not changed by the cast. -/
lemma toInt_narrow {n : UInt64} (h : n.toNat ≤ intMax) : (narrow n).toInt = n.toNat := by
  rw [intMax] at h
  have hbmod : (narrow n).toInt = (n.toNat : ℤ).bmod (2 ^ 32) := by
    show n.toUInt32.toBitVec.toInt = _
    rw [BitVec.toInt_eq_toNat_bmod]
    show (n.toUInt32.toNat : ℤ).bmod (2 ^ 32) = _
    rw [UInt64.toNat_toUInt32, Nat.mod_eq_of_lt (by omega)]
  rw [hbmod]
  apply Int.bmod_eq_of_le <;> omega

/-- A number that is not negative is widened to itself. -/
lemma toNat_widen {n : Int32} (h : 0 ≤ n.toInt) : (widen n).toNat = n.toInt.toNat := by
  have hext : n.toInt64.toBitVec.toInt = n.toInt := Int32.toInt_toInt64 n
  show n.toInt64.toBitVec.toNat = _
  have hlt := n.toInt64.toBitVec.isLt
  rw [← hext, BitVec.toInt_eq_toNat_cond] at h ⊢
  split at h
  · rename_i hsmall
    rw [if_pos hsmall, Int.toNat_natCast]
  · omega

section Round

variable (size : UInt64)

/-- The cast of the chunk size loses nothing. -/
lemma toInt_chunk : (narrow (minSize size intLimit)).toInt = (min size.toNat intMax : ℕ) := by
  have hmin : (minSize size intLimit).toNat = min size.toNat intMax := toNat_minSize size intLimit
  rw [toInt_narrow (hmin ▸ Nat.min_le_right _ _), hmin]

lemma toNatClampNeg_chunk : (narrow (minSize size intLimit)).toNatClampNeg = min size.toNat intMax := by
  show (narrow (minSize size intLimit)).toInt.toNat = _
  rw [toInt_chunk, Int.toNat_natCast]

/-- The subtraction does not wrap. -/
lemma toNat_rest :
    (size - widen (narrow (minSize size intLimit))).toNat = size.toNat - min size.toNat intMax := by
  have hchunk := toInt_chunk size
  have hwiden : (widen (narrow (minSize size intLimit))).toNat = min size.toNat intMax := by
    rw [toNat_widen (by omega), hchunk, Int.toNat_natCast]
  have hle : widen (narrow (minSize size intLimit)) ≤ size :=
    UInt64.le_iff_toNat_le.mpr (hwiden ▸ Nat.min_le_left _ _)
  rw [UInt64.toNat_sub_of_le _ _ hle, hwiden]

lemma min_pos {size : UInt64} (h : 0 < size) : 0 < min size.toNat intMax := by
  have hpos : 0 < size.toNat := UInt64.lt_iff_toNat_lt.mp h
  exact Nat.lt_min.mpr ⟨hpos, by decide⟩

end Round

/-- `fill_random(output, size)` -/
def fillRandom (ssl : Openssl) (output : ℤ) (size : UInt64) : Eff Machine Unit :=
  if 0 < size then do
    let chunkSize := minSize size intLimit
    let chunk := narrow chunkSize
    let ok ← randBytes ssl output chunk
    throwIf (ok = false) randFailure
    fillRandom ssl (output + chunk.toInt) (size - widen chunk)
  else return
termination_by size.toNat
decreasing_by
  have hpos := min_pos ‹_›
  have hrest := toNat_rest size
  have hle := Nat.min_le_left size.toNat intMax
  omega

/-! ## The calls of a run -/

variable {ssl : Openssl}

/-- A call with a size that is not negative. -/
lemma outcome_randBytes {output : ℤ} {chunk : Int32} {k : ℕ} (hk : chunk.toNatClampNeg = k)
    {m : Machine} {Q : Bool → Machine → Prop} {E : Error → Machine → Prop}
    (hnone : ssl.rand m.lib.clock k = none →
      Q false { m with calls := m.calls ++ [⟨output, chunk, false⟩],
                       lib := { calls := m.lib.calls ++ [.rand output.toNat k] } })
    (hsome : ∀ bytes : ByteArr k, ssl.rand m.lib.clock k = some bytes →
      Q true { memory := write m.memory output bytes, calls := m.calls ++ [⟨output, chunk, true⟩],
               lib := { calls := m.lib.calls ++ [.rand output.toNat k] } }) :
    Outcome (randBytes ssl output chunk) m Q E := by
  subst hk
  simp only [randBytes, outcome_bind, outcome_zoom, outcome_call, outcome_modify]
  cases hdrawn : ssl.rand m.lib.clock chunk.toNatClampNeg with
  | none => exact hnone hdrawn
  | some bytes => exact hsome bytes hdrawn

/-- The calls on a buffer of `size` bytes, from `output` on: one behind the other up to `finish`, each
with all that is left or as much as fits an `int`. -/
structure Pieces (output : ℤ) (size : ℕ) (calls : List RandCall) (finish : ℤ) : Prop where
  consecutive : Consecutive output (calls.map RandCall.range) finish
  size_eq : ∀ c ∈ calls, c.size.toInt = min (output + size - c.offset) intMax
  size_pos : ∀ c ∈ calls, 1 ≤ c.size.toInt
  finish_le : finish ≤ output + size

section Calls

variable {output finish : ℤ} {size : ℕ} {calls : List RandCall} {chunk : Int32}

lemma Pieces.nil (output : ℤ) (size : ℕ) : Pieces output size [] output where
  consecutive := .nil output
  size_eq _ h := by cases h
  size_pos _ h := by cases h
  finish_le := by omega

/-- One call more in front. -/
lemma Pieces.cons (hchunk : chunk.toInt = (min size intMax : ℕ)) (hpos : 0 < min size intMax) (ok : Bool)
    (h : Pieces (output + chunk.toInt) (size - min size intMax) calls finish) :
    Pieces output size (⟨output, chunk, ok⟩ :: calls) finish := by
  have hend : output + chunk.toInt + (size - min size intMax : ℕ) = output + size := by
    rw [hchunk]
    omega
  constructor
  · exact .cons output chunk.toInt h.consecutive
  · refine List.forall_mem_cons.mpr ⟨?_, hend ▸ h.size_eq⟩
    show chunk.toInt = min (output + size - output) intMax
    rw [hchunk, add_sub_cancel_left, Nat.cast_min]
  · refine List.forall_mem_cons.mpr ⟨?_, h.size_pos⟩
    rw [hchunk]
    omega
  · exact hend ▸ h.finish_le

lemma Pieces.range_nonneg (h : Pieces output size calls finish) :
    ∀ r ∈ calls.map RandCall.range, 0 ≤ r.2 := by
  intro r hr
  obtain ⟨c, hc, rfl⟩ := List.mem_map.mp hr
  have hpos := h.size_pos c hc
  show 0 ≤ c.size.toInt
  omega

lemma ceilDiv_step (h : 0 < size) :
    size ⌈/⌉ intMax = (size - min size intMax) ⌈/⌉ intMax + 1 := by
  simp only [Nat.ceilDiv_eq_add_pred_div, intMax]
  omega

/-- What a run leaves alone. -/
def Frame (output : ℤ) (size : ℕ) (m m' : Machine) : Prop :=
  ∀ p, ¬ (output ≤ p ∧ p < output + size) → m'.memory p = m.memory p

end Calls

/-- A run that returns. -/
structure Filled (output : ℤ) (size : ℕ) (m m' : Machine) (calls : List RandCall) : Prop where
  calls_eq : m'.calls = m.calls ++ calls
  pieces : Pieces output size calls (output + size)
  ok : ∀ c ∈ calls, c.ok = true
  count : calls.length = size ⌈/⌉ intMax
  frame : Frame output size m m'

/-- A run that throws. -/
structure Failed (output : ℤ) (size : ℕ) (m m' : Machine) (calls : List RandCall) (last : RandCall) :
    Prop where
  calls_eq : m'.calls = m.calls ++ (calls ++ [last])
  pieces : ∃ finish, Pieces output size (calls ++ [last]) finish
  ok : ∀ c ∈ calls, c.ok = true
  last : last.ok = false
  frame : Frame output size m m'

section Runs

variable {output : ℤ} {size : ℕ} {m m₁ m' : Machine} {calls : List RandCall} {chunk : Int32}

/-- What a call writes lies in the buffer. -/
lemma write_outside {memory : ℤ → UInt8} {bytes : Bytes} {p : ℤ}
    (hp : ¬ (output ≤ p ∧ p < output + bytes.length)) : write memory output bytes p = memory p :=
  if_neg hp

lemma Frame.cons (hchunk : chunk.toInt = (min size intMax : ℕ))
    (hfirst : Frame output (min size intMax) m m₁)
    (hrest : Frame (output + chunk.toInt) (size - min size intMax) m₁ m') :
    Frame output size m m' := by
  intro p hp
  rw [hrest p, hfirst p]
  · omega
  · omega

lemma Filled.cons (hchunk : chunk.toInt = (min size intMax : ℕ)) (hpos : 0 < min size intMax)
    (hcalls : m₁.calls = m.calls ++ [⟨output, chunk, true⟩])
    (hfirst : Frame output (min size intMax) m m₁)
    (h : Filled (output + chunk.toInt) (size - min size intMax) m₁ m' calls) :
    Filled output size m m' (⟨output, chunk, true⟩ :: calls) := by
  have hend : output + chunk.toInt + (size - min size intMax : ℕ) = output + size := by
    rw [hchunk]
    omega
  constructor
  · rw [h.calls_eq, hcalls, List.append_assoc, List.singleton_append]
  · exact hend ▸ h.pieces.cons hchunk hpos true
  · exact List.forall_mem_cons.mpr ⟨rfl, h.ok⟩
  · have hsize : 0 < size := hpos.trans_le (Nat.min_le_left _ _)
    rw [List.length_cons, h.count, ceilDiv_step hsize]
  · exact hfirst.cons hchunk h.frame

lemma Failed.cons (hchunk : chunk.toInt = (min size intMax : ℕ)) (hpos : 0 < min size intMax)
    (hcalls : m₁.calls = m.calls ++ [⟨output, chunk, true⟩])
    (hfirst : Frame output (min size intMax) m m₁) {last : RandCall}
    (h : Failed (output + chunk.toInt) (size - min size intMax) m₁ m' calls last) :
    Failed output size m m' (⟨output, chunk, true⟩ :: calls) last := by
  obtain ⟨finish, hpieces⟩ := h.pieces
  constructor
  · rw [h.calls_eq, hcalls, List.append_assoc, List.singleton_append, List.cons_append]
  · exact ⟨finish, hpieces.cons hchunk hpos true⟩
  · exact List.forall_mem_cons.mpr ⟨rfl, h.ok⟩
  · exact h.last
  · exact hfirst.cons hchunk h.frame

/-- A first call that fails is the last one. -/
lemma failed_first (hchunk : chunk.toInt = (min size intMax : ℕ)) (hpos : 0 < min size intMax)
    (hcalls : m'.calls = m.calls ++ [⟨output, chunk, false⟩]) (hmemory : m'.memory = m.memory) :
    Failed output size m m' [] ⟨output, chunk, false⟩ where
  calls_eq := hcalls
  pieces := by
    have hnil := Pieces.nil (output + chunk.toInt) (size - min size intMax)
    exact ⟨_, hnil.cons hchunk hpos false⟩
  ok _ h := by cases h
  last := rfl
  frame p _ := by rw [hmemory]

/-- **The loop**, from any position on. -/
theorem outcome_fillRandom (ssl : Openssl) (output : ℤ) (size : UInt64) (m : Machine) :
    Outcome (fillRandom ssl output size) m
      (fun _ m' => ∃ calls, Filled output size.toNat m m' calls)
      (fun e m' => e = randFailure ∧ ∃ calls last, Failed output size.toNat m m' calls last) := by
  -- The induction is on what is left of the buffer.
  induction hsize : size.toNat using Nat.strong_induction_on generalizing output size m with
  | _ n ih =>
    subst hsize
    rw [fillRandom]
    by_cases hpos : 0 < size
    · have hmin := min_pos hpos
      have hchunk := toInt_chunk size
      have hrest := toNat_rest size
      simp only [if_pos hpos, outcome_bind, outcome_throwIf]
      apply outcome_randBytes (toNatClampNeg_chunk size)
      · intro _
        refine ⟨fun _ => ?_, fun hok => absurd rfl hok⟩
        exact ⟨trivial, [], _, failed_first hchunk hmin rfl rfl⟩
      · intro bytes _
        refine ⟨fun hfalse => absurd hfalse (by simp), fun _ => ?_⟩
        have hfirst : Frame output (min size.toNat intMax) m
            { memory := write m.memory output bytes,
              calls := m.calls ++ [⟨output, narrow (minSize size intLimit), true⟩],
              lib := { calls := m.lib.calls ++ [.rand output.toNat (min size.toNat intMax)] } } := by
          intro p hp
          apply write_outside
          rwa [ByteArr.length_coe]
        apply (ih _ (by omega) _ _ _ hrest).mono
        · rintro _ m' ⟨calls, h⟩
          exact ⟨_, h.cons hchunk hmin rfl hfirst⟩
        · rintro e m' ⟨rfl, calls, last, h⟩
          exact ⟨rfl, _, last, h.cons hchunk hmin rfl hfirst⟩
    · have hzero : size.toNat = 0 := by
        rw [UInt64.lt_iff_toNat_lt] at hpos
        simpa using hpos
      rw [if_neg hpos, outcome_pure, hzero]
      refine ⟨[], (List.append_nil _).symm, ?_, fun c h => absurd h List.not_mem_nil, ?_, fun p _ => rfl⟩
      · simpa using Pieces.nil output 0
      · simp

end Runs

/-! ## The loop with its bounds -/

section Refinement

variable {n : ℕ}

/-- The memory holds the buffer. -/
def Holds (m : Machine) (buffer : ByteArr n) : Prop :=
  ∀ i : ℕ, i < n → m.memory i = (buffer : Bytes).getD i 0

/-- What is written to memory is stored in the buffer. -/
lemma Holds.write {m m' : Machine} {buffer : ByteArr n} (h : m.Holds buffer) {offset k : ℕ}
    (bytes : ByteArr k) (hle : offset + k ≤ n)
    (hmemory : m'.memory = write m.memory offset bytes) : m'.Holds (buffer.store offset bytes hle) := by
  intro i hi
  have htake : ((buffer : Bytes).take offset).length = offset := by
    rw [List.length_take, ByteArr.length_coe]
    omega
  rw [hmemory, Machine.write, ByteArr.length_coe]
  simp only [ByteArr.store, List.append_assoc, List.getD_eq_getElem?_getD]
  by_cases hbefore : i < offset
  · rw [if_neg (by omega), h i hi, List.getElem?_append_left (by omega), List.getElem?_take_of_lt hbefore,
      List.getD_eq_getElem?_getD]
  · rw [List.getElem?_append_right (by omega), htake]
    by_cases hin : i < offset + k
    · have hindex : ((i : ℤ) - offset).toNat = i - offset := by omega
      rw [if_pos (by omega), hindex, List.getElem?_append_left (by rw [ByteArr.length_coe]; omega)]
    · rw [if_neg (by omega), h i hi, List.getElem?_append_right (by rw [ByteArr.length_coe]; omega),
        ByteArr.length_coe, List.getElem?_drop, List.getD_eq_getElem?_getD]
      congr 2
      omega

section Equations

variable {ssl : Openssl} {buffer : ByteArr n} {output size : ℕ} {h : output + size ≤ n} {lib : Lib}

lemma call_bind {α β : Type} {entry : LibCall} {answer : ℕ → α} (f : α → Eff Lib β) :
    (call entry answer >>= f) lib = f (answer lib.clock) { calls := lib.calls ++ [entry] } := rfl

lemma fillRandom_eq_error (hsize : size ≠ 0) (hnone : ssl.rand lib.clock (min size intMax) = none) :
    SecureKit.fillRandom ssl buffer output size h lib =
      .error randFailure { calls := lib.calls ++ [.rand output (min size intMax)] } := by
  rw [SecureKit.fillRandom, dif_neg hsize]
  rw [call_bind, hnone]
  rfl

lemma fillRandom_eq_rest (hsize : size ≠ 0) {bytes : ByteArr (min size intMax)}
    (hsome : ssl.rand lib.clock (min size intMax) = some bytes)
    (hstore : output + min size intMax ≤ n)
    (hrest : output + min size intMax + (size - min size intMax) ≤ n) :
    SecureKit.fillRandom ssl buffer output size h lib =
      SecureKit.fillRandom ssl (buffer.store output bytes hstore) (output + min size intMax)
        (size - min size intMax) hrest { calls := lib.calls ++ [.rand output (min size intMax)] } := by
  rw [SecureKit.fillRandom, dif_neg hsize]
  rw [call_bind, hsome]
  rfl

end Equations

/-- **The loop in machine integers refines the loop with its bounds**: it makes the same calls of the
library, ends alike, and leaves the same bytes in the buffer. -/
theorem fillRandom_refines (ssl : Openssl) (rest : ℕ) {output : ℕ} {size : UInt64}
    (hsize : size.toNat = rest) (h : output + rest ≤ n) {m : Machine} {buffer : ByteArr n}
    (hm : m.Holds buffer) :
    Outcome (fillRandom ssl output size) m
      (fun _ m' => ∃ buffer', m'.Holds buffer' ∧
        SecureKit.fillRandom ssl buffer output rest h m.lib = .ok buffer' m'.lib)
      (fun e m' => SecureKit.fillRandom ssl buffer output rest h m.lib = .error e m'.lib) := by
  induction rest using Nat.strong_induction_on generalizing output size m buffer with
  | _ rest ih =>
    subst hsize
    rw [fillRandom]
    by_cases hpos : 0 < size
    · have hmin := min_pos hpos
      have hle := Nat.min_le_left size.toNat intMax
      have hchunk := toInt_chunk size
      have hne : size.toNat ≠ 0 := (UInt64.lt_iff_toNat_lt.mp hpos).ne'
      simp only [if_pos hpos, outcome_bind, outcome_throwIf]
      apply outcome_randBytes (toNatClampNeg_chunk size)
      · intro hnone
        -- `RAND_bytes` fails: both versions throw here.
        refine ⟨fun _ => ?_, fun hok => absurd rfl hok⟩
        exact fillRandom_eq_error hne hnone
      · intro bytes hsome
        refine ⟨fun hfalse => absurd hfalse (by simp), fun _ => ?_⟩
        have hstore : output + min size.toNat intMax ≤ n := by omega
        have hrest : output + min size.toNat intMax + (size.toNat - min size.toNat intMax) ≤ n := by
          omega
        -- It has filled its chunk, and both go on behind it with what is left.
        have hstored : Holds
            { memory := Machine.write m.memory output bytes,
              calls := m.calls ++ [⟨output, narrow (minSize size intLimit), true⟩],
              lib := { calls := m.lib.calls ++ [.rand output (min size.toNat intMax)] } }
            (buffer.store output bytes hstore) := hm.write bytes hstore rfl
        have hrun : Outcome (fillRandom ssl (output + min size.toNat intMax : ℕ) _) _ _ _ :=
          ih _ (by omega) (toNat_rest size) hrest hstored
        rw [fillRandom_eq_rest hne hsome hstore hrest, hchunk]
        exact_mod_cast hrun
    · have hzero : size.toNat = 0 := by
        rw [UInt64.lt_iff_toNat_lt] at hpos
        simpa using hpos
      rw [if_neg hpos, outcome_pure, SecureKit.fillRandom, dif_pos hzero]
      exact ⟨buffer, hm, rfl⟩

/-- `random_bytes` fills a vector of zeros. -/
theorem randomBytes_refines (ssl : Openssl) (size : UInt64) {m : Machine}
    (hm : m.Holds (ByteArr.zeros size.toNat)) :
    Outcome (fillRandom ssl 0 size) m
      (fun _ m' => ∃ bytes, m'.Holds bytes ∧ randomBytes ssl size.toNat m.lib = .ok bytes m'.lib)
      (fun e m' => randomBytes ssl size.toNat m.lib = .error e m'.lib) := by
  have hle : 0 + size.toNat ≤ size.toNat := (Nat.zero_add _).le
  exact_mod_cast fillRandom_refines ssl size.toNat rfl hle hm

end Refinement

end Machine

/-! ## The buffer -/

open Machine

/-- Calls on ranges of a buffer of `size` bytes that follow one another from its start, each of 1 to
`INT_MAX` bytes: what is left of the buffer, as far as an `int` goes. -/
structure InOrder (size : ℕ) (calls : List RandCall) (finish : ℤ) : Prop where
  consecutive : Consecutive 0 (calls.map RandCall.range) finish
  disjoint : calls.Pairwise fun c c' => c.offset + c.size.toInt ≤ c'.offset
  size_le : ∀ c ∈ calls, 1 ≤ c.size.toInt ∧ c.size.toInt ≤ intMax
  size_eq : ∀ c ∈ calls, c.size.toInt = min (size - c.offset) intMax
  inside : ∀ c ∈ calls, 0 ≤ c.offset ∧ c.offset + c.size.toInt ≤ size

lemma Machine.Pieces.inOrder {size : ℕ} {calls : List RandCall} {finish : ℤ}
    (h : Pieces 0 size calls finish) : InOrder size calls finish := by
  have hsize : ∀ c ∈ calls, c.size.toInt = min (size - c.offset) intMax := by
    intro c hc
    rw [h.size_eq c hc, zero_add]
  have hbounds := h.consecutive.bounds h.range_nonneg
  have hfinish := h.finish_le
  refine ⟨h.consecutive, ?_, fun c hc => ?_, hsize, fun c hc => ?_⟩
  · exact List.pairwise_map.mp (h.consecutive.disjoint h.range_nonneg)
  · refine ⟨h.size_pos c hc, ?_⟩
    rw [hsize c hc]
    exact min_le_right _ _
  · obtain ⟨hfrom, hto⟩ := hbounds _ (List.mem_map_of_mem hc)
    exact ⟨hfrom, hto.trans (by omega)⟩

/-- **`fill_random` covers the buffer exactly**, whatever `RAND_bytes` answers: if all calls succeed they
are as many as there must be and cover the buffer, and the first one that fails is the last one.
Nothing but the buffer is written. -/
theorem fillRandom_exact (ssl : Openssl) (size : UInt64) (memory : ℤ → UInt8) (lib : Lib) :
    Outcome (Machine.fillRandom ssl 0 size) { memory, lib }
      (fun _ m => InOrder size.toNat m.calls size.toNat ∧ (∀ c ∈ m.calls, c.ok = true) ∧
        (∀ p : ℤ, (∃ c ∈ m.calls, c.offset ≤ p ∧ p < c.offset + c.size.toInt) ↔ 0 ≤ p ∧ p < size.toNat) ∧
        m.calls.length = size.toNat ⌈/⌉ intMax ∧
        ∀ p : ℤ, ¬ (0 ≤ p ∧ p < size.toNat) → m.memory p = memory p)
      (fun e m => e.code = .backend_failure ∧ (∃ finish, InOrder size.toNat m.calls finish) ∧
        (∃ calls last, m.calls = calls ++ [last] ∧ (∀ c ∈ calls, c.ok = true) ∧ last.ok = false) ∧
        ∀ p : ℤ, ¬ (0 ≤ p ∧ p < size.toNat) → m.memory p = memory p) := by
  apply (Machine.outcome_fillRandom ssl 0 size { memory, lib }).mono
  · rintro _ m ⟨calls, h⟩
    obtain rfl : m.calls = calls := h.calls_eq
    have hpieces := h.pieces
    rw [zero_add] at hpieces
    refine ⟨hpieces.inOrder, h.ok, fun p => ?_, h.count, fun p hp => h.frame p (by rwa [zero_add])⟩
    have hcovers := hpieces.consecutive.covers_iff hpieces.range_nonneg p
    simp only [List.mem_map, exists_exists_and_eq_and] at hcovers
    exact hcovers
  · rintro e m ⟨rfl, calls, last, h⟩
    obtain ⟨finish, hpieces⟩ := h.pieces
    have hcalls : m.calls = calls ++ [last] := h.calls_eq
    refine ⟨rfl, ⟨finish, ?_⟩, ⟨calls, last, hcalls, h.ok, h.last⟩,
      fun p hp => h.frame p (by rwa [zero_add])⟩
    rw [hcalls]
    exact hpieces.inOrder

end SecureKit
