import Mathlib.Data.List.Basic
import Mathlib.Tactic

/-!
# Byte strings, fixed-size byte arrays and big-endian words

Serialized formats are built in `std::array<std::byte, n>` buffers that start zeroed and receive
one field after another at hard-coded offsets, and are read back by slicing at hard-coded
offsets.  This file has the two directions and the facts that connect them.

* `ByteArr n` is a byte string that carries its length `n`; `ByteArr.store` and `ByteArr.slice`
  carry the bounds of every access, so an out-of-range offset does not elaborate.
* `store_fill` turns a left-to-right sequence of stores into a concatenation, and
  `slice_append_slice` turns consecutive slices back into one.
* `be32` and `ofBe32` are the shift-and-mask codec of 32-bit words in big-endian order, mutually
  inverse by `ofBe32_be32` and `be32_ofBe32`.

Concatenations of fixed-width fields are taken apart again by `append_inj_left'`-style
reasoning on lengths; `List.append_inj` from the standard library is what the users of this file
apply, with `ByteArr.length_coe` supplying the widths.
-/

namespace ByteString

/-- A byte string. -/
abbrev Bytes := List UInt8

/-- `std::numeric_limits<int>::max()`. -/
def intMax : ℕ := 2147483647

/-- `std::numeric_limits<std::uint32_t>::max()`. -/
def uint32Max : UInt32 := 0xffffffff

/-- `std::array<std::byte, n>`: a byte string that carries its length. -/
@[ext] structure ByteArr (n : ℕ) where
  toBytes : Bytes
  length_toBytes : toBytes.length = n
  deriving DecidableEq

namespace ByteArr

variable {n m k : ℕ}

instance : CoeOut (ByteArr n) Bytes := ⟨toBytes⟩

@[simp] lemma length_coe (a : ByteArr n) : (a : Bytes).length = n := a.length_toBytes

/-- A value-initialised array. -/
def zeros (n : ℕ) : ByteArr n := ⟨List.replicate n 0, by simp⟩

/-- The array that holds the first `n` of the given bytes, and zeros where they end early. -/
def ofBytes (n : ℕ) (bytes : Bytes) : ByteArr n :=
  ⟨(bytes ++ List.replicate n 0).take n, by simp⟩

/-- One byte. -/
def single (b : UInt8) : ByteArr 1 := ⟨[b], rfl⟩

/-- `std::copy(src.begin(), src.end(), dst.begin() + off)`. -/
def store (dst : ByteArr n) (off : ℕ) (src : ByteArr m) (h : off + m ≤ n := by decide) :
    ByteArr n :=
  ⟨(dst : Bytes).take off ++ src ++ (dst : Bytes).drop (off + m), by
    simp only [List.length_append, List.length_take, List.length_drop, length_coe]
    omega⟩

/-- `src.subspan<off, m>()`. -/
def slice (src : ByteArr n) (off m : ℕ) (h : off + m ≤ n := by decide) : ByteArr m :=
  ⟨((src : Bytes).drop off).take m, by
    simp only [List.length_take, List.length_drop, length_coe]
    omega⟩

/-- `src[i]`. -/
def byteAt (src : ByteArr n) (i : ℕ) (h : i < n := by decide) : UInt8 :=
  (src : Bytes).get ⟨i, by rw [length_coe]; exact h⟩

/-- Two arrays side by side. -/
def append (a : ByteArr n) (b : ByteArr m) : ByteArr (n + m) :=
  ⟨(a : Bytes) ++ (b : Bytes), by simp⟩

@[simp] lemma coe_single (b : UInt8) : (single b : Bytes) = [b] := rfl

@[simp] lemma coe_append (a : ByteArr n) (b : ByteArr m) :
    (a.append b : Bytes) = (a : Bytes) ++ (b : Bytes) := rfl

lemma coe_slice (src : ByteArr n) (off m : ℕ) (h : off + m ≤ n) :
    (src.slice off m h : Bytes) = ((src : Bytes).drop off).take m := rfl

lemma coe_ofBytes_of_length {bytes : Bytes} (h : bytes.length = n) :
    (ofBytes n bytes : Bytes) = bytes := by
  simp [ofBytes, ← h]

@[simp] lemma ofBytes_coe (a : ByteArr n) : ofBytes n (a : Bytes) = a :=
  ByteArr.ext (coe_ofBytes_of_length a.length_toBytes)

/-- Filling a zeroed array from the left: a store right behind the part already filled appends
its field to that part. -/
lemma store_fill {dst : ByteArr n} {off : ℕ} (src : ByteArr m) (h : off + m ≤ n) {front : Bytes}
    {room : ℕ} (hdst : (dst : Bytes) = front ++ List.replicate room 0)
    (hoff : front.length = off) :
    (dst.store off src h : Bytes) =
      (front ++ (src : Bytes)) ++ List.replicate (room - m) 0 := by
  have hroom : off + room = n := by
    have := congrArg List.length hdst
    simp only [length_coe, List.length_append, List.length_replicate] at this
    omega
  simp only [store, hdst, ← hoff]
  rw [List.take_left, List.drop_append, List.drop_replicate,
    List.drop_eq_nil_of_le (Nat.le_add_right _ _), Nat.add_sub_cancel_left, List.nil_append]

lemma coe_zeros (n : ℕ) : (zeros n : Bytes) = [] ++ List.replicate n 0 := rfl

/-- Two slices that touch are one slice. -/
lemma slice_append_slice (src : ByteArr n) (off m k : ℕ) (hm : off + m ≤ n)
    (hk : off + m + k ≤ n) (hmk : off + (m + k) ≤ n) :
    (src.slice off m hm : Bytes) ++ (src.slice (off + m) k hk : Bytes) =
      src.slice off (m + k) hmk := by
  simp only [coe_slice]
  rw [← List.drop_drop, List.take_add]

lemma slice_all (src : ByteArr n) (h : 0 + n ≤ n) : (src.slice 0 n h : Bytes) = src := by
  rw [coe_slice, List.drop_zero]
  exact List.take_of_length_le (by simp)

lemma byteAt_eq_slice (src : ByteArr n) (i : ℕ) (h : i < n) :
    [src.byteAt i h] = (src.slice i 1 h : Bytes) := by
  have hi : i < (src : Bytes).length := by rw [length_coe]; exact h
  rw [coe_slice, List.drop_eq_getElem_cons hi]
  rfl

end ByteArr

/-! ## Big-endian 32-bit words -/

/-- The four bytes of a 32-bit word, most significant first. -/
def be32 (value : UInt32) : ByteArr 4 :=
  ⟨[((value >>> 24) &&& 0xff).toUInt8, ((value >>> 16) &&& 0xff).toUInt8,
    ((value >>> 8) &&& 0xff).toUInt8, (value &&& 0xff).toUInt8], rfl⟩

/-- The 32-bit word four big-endian bytes spell. -/
def ofBe32 (input : ByteArr 4) : UInt32 :=
  (input.byteAt 0).toUInt32 <<< 24 ||| (input.byteAt 1).toUInt32 <<< 16 |||
    (input.byteAt 2).toUInt32 <<< 8 ||| (input.byteAt 3).toUInt32

lemma toNat_maskByte (value shift : UInt32) (h : shift.toNat < 32) :
    ((value >>> shift) &&& 0xff).toUInt8.toNat = value.toNat / 2 ^ shift.toNat % 256 := by
  have hmask := Nat.and_two_pow_sub_one_eq_mod (value.toNat / 2 ^ shift.toNat) 8
  rw [UInt32.toNat_toUInt8, UInt32.toNat_and, UInt32.toNat_shiftRight, Nat.mod_eq_of_lt h,
    Nat.shiftRight_eq_div_pow]
  simp only [UInt32.reduceToNat, Nat.reducePow, Nat.add_one_sub_one] at hmask ⊢
  omega

lemma toNat_maskLow (value : UInt32) : (value &&& 0xff).toUInt8.toNat = value.toNat % 256 := by
  have h := toNat_maskByte value 0 (by decide)
  simpa using h

/-- A bitwise or with a value that fits below a multiple of `2 ^ shift` is a sum. -/
lemma mul_two_pow_or (high low shift : ℕ) (h : low < 2 ^ shift) :
    high * 2 ^ shift ||| low = high * 2 ^ shift + low := by
  rw [← Nat.shiftLeft_eq, Nat.shiftLeft_add_eq_or_of_lt h]

/-- The four byte fields are disjoint, so the bitwise or is a sum. -/
lemma toNat_ofBe32 (a b c d : UInt8) (h : [a, b, c, d].length = 4) :
    (ofBe32 ⟨[a, b, c, d], h⟩).toNat =
      a.toNat * 2 ^ 24 + b.toNat * 2 ^ 16 + c.toNat * 2 ^ 8 + d.toNat := by
  have ha := a.toNat_lt
  have hb := b.toNat_lt
  have hc := c.toNat_lt
  have hd := d.toNat_lt
  have hword : (ofBe32 ⟨[a, b, c, d], h⟩).toNat =
      ((a.toNat * 2 ^ 24 ||| b.toNat * 2 ^ 16) ||| c.toNat * 2 ^ 8) ||| d.toNat := by
    simp only [ofBe32, ByteArr.byteAt, List.get_eq_getElem, List.getElem_cons_zero,
      List.getElem_cons_succ, UInt32.toNat_or, UInt32.toNat_shiftLeft, UInt8.toNat_toUInt32,
      UInt32.reduceToNat, Nat.reduceMod, Nat.shiftLeft_eq]
    rw [Nat.mod_eq_of_lt (a := a.toNat * 2 ^ 24) (by omega),
      Nat.mod_eq_of_lt (a := b.toNat * 2 ^ 16) (by omega),
      Nat.mod_eq_of_lt (a := c.toNat * 2 ^ 8) (by omega)]
  have hab : a.toNat * 2 ^ 24 ||| b.toNat * 2 ^ 16 = (a.toNat * 2 ^ 8 + b.toNat) * 2 ^ 16 := by
    rw [mul_two_pow_or a.toNat (b.toNat * 2 ^ 16) 24 (by omega)]
    omega
  have habc : (a.toNat * 2 ^ 8 + b.toNat) * 2 ^ 16 ||| c.toNat * 2 ^ 8 =
      (a.toNat * 2 ^ 16 + b.toNat * 2 ^ 8 + c.toNat) * 2 ^ 8 := by
    rw [mul_two_pow_or (a.toNat * 2 ^ 8 + b.toNat) (c.toNat * 2 ^ 8) 16 (by omega)]
    omega
  rw [hword, hab, habc, mul_two_pow_or _ d.toNat 8 (by omega)]
  omega

/-- Reading back a stored word. -/
@[simp] lemma ofBe32_be32 (value : UInt32) : ofBe32 (be32 value) = value := by
  apply UInt32.toNat_inj.mp
  rw [be32, toNat_ofBe32, toNat_maskByte _ _ (by decide), toNat_maskByte _ _ (by decide),
    toNat_maskByte _ _ (by decide), toNat_maskLow]
  have := value.toNat_lt
  simp only [UInt32.reduceToNat]
  omega

/-- Storing back a word that was read. -/
@[simp] lemma be32_ofBe32 (input : ByteArr 4) : be32 (ofBe32 input) = input := by
  obtain ⟨bytes, h⟩ := input
  obtain ⟨a, b, c, d, rfl⟩ := List.length_eq_four.mp h
  have ha := a.toNat_lt
  have hb := b.toNat_lt
  have hc := c.toNat_lt
  have hd := d.toNat_lt
  apply ByteArr.ext
  simp only [be32, List.cons.injEq, and_true, ← UInt8.toNat_inj]
  rw [toNat_maskByte _ _ (by decide), toNat_maskByte _ _ (by decide),
    toNat_maskByte _ _ (by decide), toNat_maskLow, toNat_ofBe32]
  simp only [UInt32.reduceToNat]
  omega

lemma be32_injective {v w : UInt32} (h : be32 v = be32 w) : v = w := by
  rw [← ofBe32_be32 v, h, ofBe32_be32]

end ByteString
