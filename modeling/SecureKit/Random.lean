import SecureKit.Error

/-!
# Random bytes

`src/random.cpp`: `fill_random` and `random_bytes`.  `RAND_bytes` takes its length as an `int`,
so `fill_random` works through the buffer in pieces of at most `INT_MAX` bytes; the position it
has reached and what is left of the buffer are arguments of the loop, with the proof that they
stay inside the buffer.

The vector that `random_bytes` fills may have any size here, so `std::length_error` and
`std::bad_alloc` of its constructor are not among the outcomes.
-/

namespace SecureKit

open ByteString Effect Evp

variable (ssl : Openssl)

/-- The error of `fill_random`. -/
def randFailure : Error := ⟨.backend_failure, "OpenSSL RAND_bytes failed"⟩

/-- `fill_random(buffer + output, size)` -/
def fillRandom {n : ℕ} (buffer : ByteArr n) (output size : ℕ) (h : output + size ≤ n) :
    Eff Lib (ByteArr n) :=
  if hsize : size = 0 then pure buffer
  else do
    let chunkSize := min size intMax
    let drawn ← call (.rand output chunkSize) fun t => ssl.rand t chunkSize
    let chunk ← orThrow randFailure drawn
    fillRandom (buffer.store output chunk (by omega)) (output + chunkSize) (size - chunkSize)
      (by omega)
termination_by size
decreasing_by
  have : 0 < min size intMax := Nat.lt_min.mpr ⟨by omega, by decide⟩
  omega

/-- `random_bytes(size)` -/
def randomBytes (size : ℕ) : Eff Lib (ByteArr size) :=
  fillRandom ssl (ByteArr.zeros size) 0 size (by omega)

variable {ssl} {prim : Primitives} {cap : ℕ}

lemma outcome_fillRandom {n : ℕ} {Q : ByteArr n → Lib → Prop} {E : Error → Lib → Prop}
    (hok : ∀ bytes lib', Q bytes lib')
    (hfail : ¬ ssl.Available prim cap → ∀ lib', E randFailure lib') (size : ℕ) :
    ∀ (buffer : ByteArr n) (output : ℕ) (h : output + size ≤ n) (lib : Lib),
      Outcome (fillRandom ssl buffer output size h) lib Q E := by
  induction size using Nat.strong_induction_on with
  | _ size ih =>
    intro buffer output h lib
    unfold fillRandom
    by_cases hsize : size = 0
    · simpa [hsize] using hok buffer lib
    · have hpos : 0 < min size intMax := Nat.lt_min.mpr ⟨by omega, by decide⟩
      rw [dif_neg hsize]
      simp only [outcome_bind, outcome_call]
      cases hdraw : ssl.rand lib.clock (min size intMax) with
      | none => exact hfail (fun ha => ha.rand _ _ (Nat.min_le_right _ _) hdraw) _
      | some chunk => exact ih _ (by omega) _ _ _ _

/-- Random bytes are some bytes; only a library that is not available fails to draw them. -/
lemma outcome_randomBytes {size : ℕ} {lib : Lib} {Q : ByteArr size → Lib → Prop}
    {E : Error → Lib → Prop} (hok : ∀ bytes lib', Q bytes lib')
    (hfail : ¬ ssl.Available prim cap → ∀ lib', E randFailure lib') :
    Outcome (randomBytes ssl size) lib Q E :=
  outcome_fillRandom hok hfail size _ _ _ lib

/-- What is drawn for a whole buffer replaces it. -/
lemma draws_store {size k t : ℕ} (hk : k = size) {chunk : ByteArr k}
    (hdraw : ssl.rand t k = some chunk) (buffer : ByteArr size) (h : 0 + k ≤ size) :
    ssl.Draws (buffer.store 0 chunk h) := by
  subst hk
  have hall : buffer.store 0 chunk h = chunk := ByteArr.ext (by simp [ByteArr.store])
  rw [hall]
  exact ⟨t, hdraw⟩

/-- As many bytes as fit an `int` are drawn at once. -/
lemma outcome_randomBytes_drawn {size : ℕ} {lib : Lib} {Q : ByteArr size → Lib → Prop}
    {E : Error → Lib → Prop} (hpos : 0 < size) (hle : size ≤ intMax)
    (hok : ∀ bytes lib', ssl.Draws bytes → Q bytes lib')
    (hfail : ¬ ssl.Available prim cap → ∀ lib', E randFailure lib') :
    Outcome (randomBytes ssl size) lib Q E := by
  have hmin : min size intMax = size := Nat.min_eq_left hle
  rw [randomBytes, fillRandom, dif_neg hpos.ne']
  simp only [outcome_bind, outcome_call]
  cases hdraw : ssl.rand lib.clock (min size intMax) with
  | none => exact hfail (fun ha => ha.rand _ _ (Nat.min_le_right _ _) hdraw) _
  | some chunk =>
    rw [outcome_orThrow_some, fillRandom, dif_pos (by omega), outcome_pure]
    exact hok _ _ (draws_store hmin hdraw _ _)

end SecureKit
