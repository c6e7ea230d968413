import SecureKit.Base.Text
import SecureKit.Error

/-!
# Hexadecimal text

`src/hex.cpp`: `hex_encode` and `hex_decode`.  The decoder steps through its input two characters
at a time; its loop carries the proof that both are there.

`hexPairs` reads the same text by recursion on it, and `hexDecodeLoop_eq` says that the loop does
that.  Everything about the decoder is then by recursion on pairs of characters.

## The argument

Both directions are about pairs.  A byte is written as two digits (`hexPair`), and two digits are read
as a byte if both are digits; `decode_nibble` answers -1 for any other character, and that is the only
way the loop rejects a text of an even length.  The digits of either case have the same value, so
writing again what was read gives the text in lower case.

`hexDecode_spec` has the three parts: what is written is read back, exactly the texts of an even
number of digits are read, and a text that is read and written again is its own text in lower case.
The limit on the size of a string is a parameter, and only the encoder has to check it.
-/

namespace SecureKit

open ByteString

/-! ## The functions of the source -/

/-- `kDigits` -/
def kDigits : Bytes := ascii "0123456789abcdef"

/-- `encode_nibble` -/
def encodeNibble (value : UInt32) : UInt8 := kDigits.getD (value &&& 0x0f).toNat 0

/-- `decode_nibble` -/
def decodeNibble (value : UInt8) : Int32 :=
  if inRange '0' '9' value then promote value - promote '0'.toUInt8
  else if inRange 'a' 'f' value then promote value - promote 'a'.toUInt8 + 10
  else if inRange 'A' 'F' value then promote value - promote 'A'.toUInt8 + 10
  else -1

def hexTooLarge : Error := ⟨.invalid_input, "hex input is too large to encode"⟩

def hexOddLength : Error :=
  ⟨.invalid_encoding, "hex input must contain an even number of characters"⟩

def hexInvalidCharacter : Error :=
  ⟨.invalid_encoding, "hex input contains a non-hexadecimal character"⟩

/-- `hex_encode` -/
def hexEncode (limits : MaxSize) (input : Bytes) : Except Error Bytes :=
  if limits.string / 2 < input.length then .error hexTooLarge
  else
    .ok (input.foldl (fun (result : Bytes) (byte : UInt8) =>
      result ++ [encodeNibble (byte.toUInt32 >>> 4)] ++ [encodeNibble byte.toUInt32]) [])

/-- The loop of `hex_decode`. -/
def hexDecodeLoop (input : Bytes) (heven : input.length % 2 = 0) (index : ℕ)
    (hindex : index % 2 = 0) (result : Bytes) : Except Error Bytes :=
  if h : index < input.length then
    let high := decodeNibble input[index]
    let low := decodeNibble input[index + 1]
    if high < 0 ∨ low < 0 then .error hexInvalidCharacter
    else
      hexDecodeLoop input heven (index + 2) (by omega)
        (result ++ [(high <<< 4 ||| low).toInt8.toUInt8])
  else .ok result
termination_by input.length - index

/-- `hex_decode` -/
def hexDecode (input : Bytes) : Except Error Bytes :=
  if h : input.length % 2 ≠ 0 then .error hexOddLength
  else hexDecodeLoop input (by omega) 0 rfl []

/-! ## One byte -/

/-- `0-9`, `a-f`, `A-F` -/
def IsHexDigit (ch : UInt8) : Prop :=
  ('0'.toUInt8 ≤ ch ∧ ch ≤ '9'.toUInt8) ∨ ('a'.toUInt8 ≤ ch ∧ ch ≤ 'f'.toUInt8) ∨
    ('A'.toUInt8 ≤ ch ∧ ch ≤ 'F'.toUInt8)

instance (ch : UInt8) : Decidable (IsHexDigit ch) := inferInstanceAs (Decidable (_ ∨ _))

/-- The two digits of a byte. -/
def hexPair (byte : UInt8) : Bytes :=
  [encodeNibble (byte.toUInt32 >>> 4), encodeNibble byte.toUInt32]

/-- The byte that two digits spell. -/
def ofHexPair (high low : UInt8) : UInt8 :=
  (decodeNibble high <<< 4 ||| decodeNibble low).toInt8.toUInt8

lemma decodeNibble_neg_iff (ch : UInt8) : decodeNibble ch < 0 ↔ ¬ IsHexDigit ch :=
  forall_byte (p := fun ch => decodeNibble ch < 0 ↔ ¬ IsHexDigit ch) (by decide +kernel) ch

lemma isHexDigit_hexPair (byte : UInt8) : ∀ ch ∈ hexPair byte, IsHexDigit ch := by
  have hhigh : IsHexDigit (encodeNibble (byte.toUInt32 >>> 4)) :=
    forall_byte (p := fun byte => IsHexDigit (encodeNibble (byte.toUInt32 >>> 4))) (by decide +kernel)
      byte
  have hlow : IsHexDigit (encodeNibble byte.toUInt32) :=
    forall_byte (p := fun byte => IsHexDigit (encodeNibble byte.toUInt32)) (by decide +kernel) byte
  simp [hexPair, hhigh, hlow]

lemma ofHexPair_hexPair (byte : UInt8) :
    ofHexPair (encodeNibble (byte.toUInt32 >>> 4)) (encodeNibble byte.toUInt32) = byte :=
  forall_byte (p := fun byte =>
    ofHexPair (encodeNibble (byte.toUInt32 >>> 4)) (encodeNibble byte.toUInt32) = byte)
    (by decide +kernel) byte

/-- The byte of two digits is written with the two digits in lower case. -/
lemma hexPair_ofHexPair {high low : UInt8} (hhigh : IsHexDigit high) (hlow : IsHexDigit low) :
    hexPair (ofHexPair high low) = [lowercase high, lowercase low] := by
  have nibble : ∀ ch : UInt8, IsHexDigit ch → ∃ n < 16, decodeNibble ch = Int32.ofNat n ∧
      encodeNibble (UInt32.ofNat n) = lowercase ch :=
    forall_byte (by decide +kernel)
  have pair : ∀ m < 16, ∀ n < 16,
      hexPair ((Int32.ofNat m <<< 4 ||| Int32.ofNat n).toInt8.toUInt8) =
        [encodeNibble (UInt32.ofNat m), encodeNibble (UInt32.ofNat n)] := by decide +kernel
  obtain ⟨m, hm, hmvalue, hmchar⟩ := nibble high hhigh
  obtain ⟨n, hn, hnvalue, hnchar⟩ := nibble low hlow
  rw [ofHexPair, hmvalue, hnvalue, pair m hm n hn, hmchar, hnchar]

/-! ## The loops -/

/-- The digits of a byte string. -/
def hexText (input : Bytes) : Bytes := input.flatMap hexPair

/-- A text read as pairs of digits. -/
def hexPairs : Bytes → Except Error Bytes
  | high :: low :: rest =>
    if IsHexDigit high ∧ IsHexDigit low then (ofHexPair high low :: ·) <$> hexPairs rest
    else .error hexInvalidCharacter
  | _ => .ok []

lemma hexEncode_eq (limits : MaxSize) (input : Bytes) :
    hexEncode limits input =
      if limits.string / 2 < input.length then .error hexTooLarge else .ok (hexText input) := by
  have hloop : ∀ result : Bytes, input.foldl (fun (result : Bytes) (byte : UInt8) =>
      result ++ [encodeNibble (byte.toUInt32 >>> 4)] ++ [encodeNibble byte.toUInt32]) result =
        result ++ hexText input := by
    induction input with
    | nil => simp [hexText]
    | cons byte rest ih =>
      intro result
      rw [List.foldl_cons, ih, hexText, hexText, List.flatMap_cons, hexPair]
      simp only [List.append_assoc, List.cons_append, List.nil_append]
  rw [hexEncode, hloop [], List.nil_append]

lemma drop_eq_pair {input : Bytes} {index : ℕ} (h : index + 1 < input.length) :
    input.drop index = input[index] :: input[index + 1] :: input.drop (index + 2) := by
  rw [List.drop_eq_getElem_cons (Nat.lt_of_succ_lt h), List.drop_eq_getElem_cons h]

lemma hexDecodeLoop_eq (input : Bytes) (heven : input.length % 2 = 0) (index : ℕ)
    (hindex : index % 2 = 0) (result : Bytes) :
    hexDecodeLoop input heven index hindex result =
      (result ++ ·) <$> hexPairs (input.drop index) := by
  fun_induction hexDecodeLoop input heven index hindex result with
  | case1 index hindex result h high low hneg =>
    rw [decodeNibble_neg_iff, decodeNibble_neg_iff, ← not_and_or] at hneg
    rw [drop_eq_pair (show index + 1 < input.length by omega), hexPairs, if_neg hneg]
    rfl
  | case2 index hindex result h high low hneg ih =>
    rw [decodeNibble_neg_iff, decodeNibble_neg_iff, ← not_and_or, not_not] at hneg
    rw [ih, drop_eq_pair (show index + 1 < input.length by omega), hexPairs, if_pos hneg, Functor.map_map]
    simp only [List.append_assoc, List.singleton_append]
    rfl
  | case3 index hindex result h =>
    rw [List.drop_eq_nil_of_le (by omega), hexPairs]
    · simp [Functor.map, Except.map]
    · simp

lemma hexDecode_of_odd {input : Bytes} (h : input.length % 2 ≠ 0) :
    hexDecode input = .error hexOddLength := dif_pos h

lemma hexDecode_of_even {input : Bytes} (h : input.length % 2 = 0) :
    hexDecode input = hexPairs input := by
  rw [hexDecode, dif_neg (not_not.mpr h), hexDecodeLoop_eq, List.drop_zero]
  simp

/-! ## Both directions -/

@[simp] lemma length_hexText (input : Bytes) : (hexText input).length = 2 * input.length := by
  induction input with
  | nil => rfl
  | cons byte rest ih =>
    rw [hexText, List.flatMap_cons, List.length_append, ← hexText, ih, List.length_cons]
    simp only [hexPair, List.length_cons, List.length_nil]
    omega

lemma isHexDigit_hexText {input : Bytes} {ch : UInt8} (h : ch ∈ hexText input) : IsHexDigit ch := by
  obtain ⟨byte, -, hch⟩ := List.mem_flatMap.mp h
  exact isHexDigit_hexPair byte ch hch

lemma hexPairs_hexText (input : Bytes) : hexPairs (hexText input) = .ok input := by
  induction input with
  | nil => rfl
  | cons byte rest ih =>
    have hdigits := isHexDigit_hexPair byte
    simp only [hexPair, List.mem_cons, List.not_mem_nil, or_false, forall_eq_or_imp,
      forall_eq] at hdigits
    simp only [hexText, List.flatMap_cons, hexPair, List.cons_append, List.nil_append, hexPairs,
      if_pos hdigits, ofHexPair_hexPair]
    rw [← hexText, ih]
    rfl

/-- Reading what was written. -/
lemma hexDecode_hexText (input : Bytes) : hexDecode (hexText input) = .ok input := by
  rw [hexDecode_of_even (by rw [length_hexText]; omega), hexPairs_hexText]

lemma even_of_pair {high low : UInt8} {rest : Bytes}
    (h : (high :: low :: rest).length % 2 = 0) : rest.length % 2 = 0 := by
  simp only [List.length_cons] at h
  omega

/-- What is read is written again in lower case. -/
lemma hexPairs_of_digits (input : Bytes) (heven : input.length % 2 = 0)
    (hdigits : ∀ ch ∈ input, IsHexDigit ch) :
    ∃ output, hexPairs input = .ok output ∧ hexText output = input.map lowercase := by
  induction input using List.twoStepInduction with
  | nil => exact ⟨[], rfl, rfl⟩
  | singleton ch => simp at heven
  | cons_cons high low rest ih =>
    simp only [List.mem_cons, forall_eq_or_imp] at hdigits
    obtain ⟨hhigh, hlow, hrest⟩ := hdigits
    obtain ⟨output, hread, htext⟩ := ih (even_of_pair heven) hrest
    refine ⟨ofHexPair high low :: output, ?_, ?_⟩
    · rw [hexPairs, if_pos ⟨hhigh, hlow⟩, hread]
      rfl
    · rw [hexText, List.flatMap_cons, ← hexText, htext, hexPair_ofHexPair hhigh hlow]
      rfl

lemma hexPairs_of_nondigit (input : Bytes) (heven : input.length % 2 = 0)
    (hdigits : ¬ ∀ ch ∈ input, IsHexDigit ch) : hexPairs input = .error hexInvalidCharacter := by
  induction input using List.twoStepInduction with
  | nil => simp at hdigits
  | singleton ch => simp at heven
  | cons_cons high low rest ih =>
    simp only [List.mem_cons, forall_eq_or_imp, ← and_assoc] at hdigits
    by_cases hpair : IsHexDigit high ∧ IsHexDigit low
    · rw [hexPairs, if_pos hpair, ih (even_of_pair heven)
        fun hrest => hdigits ⟨hpair, hrest⟩]
      rfl
    · rw [hexPairs, if_neg hpair]

/-- The texts the decoder accepts. -/
def IsHexText (input : Bytes) : Prop := input.length % 2 = 0 ∧ ∀ ch ∈ input, IsHexDigit ch

instance (input : Bytes) : Decidable (IsHexText input) := inferInstanceAs (Decidable (_ ∧ _))

lemma hexDecode_of_isHexText {input : Bytes} (h : IsHexText input) :
    ∃ output, hexDecode input = .ok output ∧ hexText output = input.map lowercase := by
  rw [hexDecode_of_even h.1]
  exact hexPairs_of_digits input h.1 h.2

/-- Everything else is an encoding error. -/
lemma hexDecode_of_not_isHexText {input : Bytes} (h : ¬ IsHexText input) :
    ∃ e : Error, hexDecode input = .error e ∧ e.code = .invalid_encoding := by
  by_cases heven : input.length % 2 = 0
  · rw [hexDecode_of_even heven,
      hexPairs_of_nondigit input heven fun hdigits => h ⟨heven, hdigits⟩]
    exact ⟨_, rfl, rfl⟩
  · exact ⟨_, hexDecode_of_odd heven, rfl⟩

lemma hexDecode_isOk_iff (input : Bytes) :
    (∃ output, hexDecode input = .ok output) ↔ IsHexText input := by
  constructor
  · rintro ⟨output, hok⟩
    by_contra hnot
    obtain ⟨e, herror, -⟩ := hexDecode_of_not_isHexText hnot
    rw [hok] at herror
    cases herror
  · intro h
    obtain ⟨output, hok, -⟩ := hexDecode_of_isHexText h
    exact ⟨output, hok⟩

lemma hexText_of_hexDecode {input output : Bytes} (h : hexDecode input = .ok output) :
    hexText output = input.map lowercase ∧ output.length = input.length / 2 := by
  obtain ⟨output', hok, htext⟩ :=
    hexDecode_of_isHexText ((hexDecode_isOk_iff input).mp ⟨output, h⟩)
  rw [h] at hok
  cases hok
  have hlength := congrArg List.length htext
  rw [length_hexText, List.length_map] at hlength
  exact ⟨htext, by omega⟩

/-- **The hexadecimal codec.**  Reading inverts writing; exactly the texts of an even number of
digits of either case are read, and written again they are in lower case; every other text is an
encoding error. -/
theorem hexDecode_spec (limits : MaxSize) :
    (∀ b : Bytes, (b.length ≤ limits.string / 2 →
      ∃ s, hexEncode limits b = .ok s ∧ hexDecode s = .ok b) ∧
      ∀ s, hexEncode limits b = .ok s → hexDecode s = .ok b) ∧
    (∀ s : Bytes, (∃ b, hexDecode s = .ok b) ↔
      s.length % 2 = 0 ∧ ∀ ch ∈ s, IsHexDigit ch) ∧
    (∀ s b : Bytes, hexDecode s = .ok b → b.length = s.length / 2 ∧
      (s.length ≤ limits.string → hexEncode limits b = .ok (s.map lowercase))) ∧
    ∀ s : Bytes, ¬ (s.length % 2 = 0 ∧ ∀ ch ∈ s, IsHexDigit ch) →
      ∃ e : Error, hexDecode s = .error e ∧ e.code = .invalid_encoding := by
  refine ⟨fun b => ⟨fun hb => ⟨hexText b, ?_, hexDecode_hexText b⟩, fun s hs => ?_⟩,
    hexDecode_isOk_iff, fun s b hs => ?_, fun s => hexDecode_of_not_isHexText⟩
  · rw [hexEncode_eq, if_neg (by omega)]
  · rw [hexEncode_eq] at hs
    split at hs
    · cases hs
    · cases hs
      exact hexDecode_hexText b
  · obtain ⟨htext, hlength⟩ := hexText_of_hexDecode hs
    refine ⟨hlength, fun hlimit => ?_⟩
    rw [hexEncode_eq, if_neg (by omega), htext]

end SecureKit
