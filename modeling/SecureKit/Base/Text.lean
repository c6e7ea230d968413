import SecureKit.Base.ByteString

/-!
# Characters of a C++ string

A `std::string` is a byte string: its characters are kept by their bit patterns.  Where a program
compares or subtracts characters they are promoted to `int` first, and `char` is signed, so a
character from `0x80` on counts as negative there.  `inRange_iff` says that a comparison with a
range of ASCII characters does not see that.

`MaxSize` has what `max_size()` returns, which depends on the implementation of the library.
-/

namespace ByteString

/-- The `max_size()` of a `std::string` and of a `std::vector<std::byte>`. -/
structure MaxSize where
  string : ℕ
  bytes : ℕ

/-- The characters of an ASCII literal. -/
def ascii (text : String) : Bytes := text.toList.map Char.toUInt8

/-- Integral promotion of a `char`. -/
def promote (ch : UInt8) : Int32 := ch.toInt8.toInt32

/-- `ch >= first && ch <= last` -/
def inRange (first last : Char) (ch : UInt8) : Bool :=
  promote first.toUInt8 ≤ promote ch && promote ch ≤ promote last.toUInt8

/-- What holds of the 256 values of a byte holds of every byte. -/
lemma forall_byte {p : UInt8 → Prop} (h : ∀ n < 256, p (UInt8.ofNat n)) (b : UInt8) : p b := by
  have hb := h b.toNat b.toNat_lt
  rwa [UInt8.ofNat_toNat] at hb

lemma promote_toInt (ch : UInt8) :
    (promote ch).toInt = if ch.toNat < 128 then (ch.toNat : ℤ) else ch.toNat - 256 :=
  forall_byte (p := fun ch => (promote ch).toInt =
    if ch.toNat < 128 then (ch.toNat : ℤ) else ch.toNat - 256) (by decide +kernel) ch

/-- A range of ASCII characters is the same for signed and for unsigned characters. -/
lemma inRange_iff {first last : Char} (hfirst : first.toUInt8.toNat < 128)
    (hlast : last.toUInt8.toNat < 128) (ch : UInt8) :
    inRange first last ch = true ↔ first.toUInt8 ≤ ch ∧ ch ≤ last.toUInt8 := by
  have hch := ch.toNat_lt
  simp only [inRange, Bool.and_eq_true, decide_eq_true_eq, Int32.le_iff_toInt_le, promote_toInt,
    if_pos hfirst, if_pos hlast, UInt8.le_iff_toNat_le]
  split <;> omega

/-- `ch` with an upper-case ASCII letter made lower-case. -/
def lowercase (ch : UInt8) : UInt8 :=
  if 'A'.toUInt8 ≤ ch ∧ ch ≤ 'Z'.toUInt8 then ch + 32 else ch

end ByteString
