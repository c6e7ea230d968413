import SecureKit.Base.Bits
import SecureKit.Base.Text
import SecureKit.Error

/-!
# Base64

`src/base64.cpp`: `base64_encode` and `base64_decode`.  Both step through their input by an index,
three bytes or four characters at a time; the loop of the decoder carries the proof that all four
are there, which comes from the check of the length in `reject_invalid_base64`.

## The layers

* `encodeGroups` and `decodeGroups` do the same by recursion on the groups, and `scan` does what the
  loop of `reject_invalid_base64` does (`base64EncodeLoop_eq`, `base64DecodeLoop_eq`,
  `rejectLoop_eq`).
* `IsPadded` is what `reject_invalid_base64` lets through.
* `bitText` is Base64 as it is defined on the binary digits of the data.

`base64Encode_eq_bitText` compares the encoder with the definition, and `base64Decode_exact` the
decoder with the encoder.

## The decoder

The check in front has three parts, the length, the characters, and the place of the padding, and
`scan` goes through a text once for the last two.  Behind it every text has its length in groups of
four and at most two characters of padding at the end (`IsPadded`).  Then the groups can be decoded
one by one, and the digits that the padding cuts off are what is left to compare: the decoder encodes
its result again and rejects a text that differs.

`base64Decode_exact` is for every text within the limits of the containers (`MaxSize`), which are
parameters.  Exactly the texts of byte strings are accepted, each gives back its byte string, and every
other text is badly encoded.  That the four characters of a group are in range is carried by the
loop, so an index outside is not an outcome.
-/

namespace SecureKit

open ByteString Bits

/-! ## The functions of the source -/

/-- `kAlphabet` -/
def kAlphabet : Bytes := ascii "ABCDEFGHIJKLMNOPQRSTUVWXYZabcdefghijklmnopqrstuvwxyz0123456789+/"

/-- `kAlphabet[index]` -/
def alphabetAt (index : UInt32) : UInt8 := kAlphabet.getD index.toNat 0

/-- `'='` -/
def padding : UInt8 := '='.toUInt8

/-- `decode_char` -/
def decodeChar (ch : UInt8) : Int32 :=
  if inRange 'A' 'Z' ch then promote ch - promote 'A'.toUInt8
  else if inRange 'a' 'z' ch then promote ch - promote 'a'.toUInt8 + 26
  else if inRange '0' '9' ch then promote ch - promote '0'.toUInt8 + 52
  else if ch = '+'.toUInt8 then 62
  else if ch = '/'.toUInt8 then 63
  else -1

def base64BadLength : Error :=
  ⟨.invalid_encoding, "base64 input length must be a multiple of four"⟩

def base64TooMuchPadding : Error := ⟨.invalid_encoding, "base64 input has too much padding"⟩

def base64DataAfterPadding : Error := ⟨.invalid_encoding, "base64 input has data after padding"⟩

def base64InvalidCharacter : Error :=
  ⟨.invalid_encoding, "base64 input contains an invalid character"⟩

def base64PaddingWithoutData : Error := ⟨.invalid_encoding, "base64 padding without data"⟩

def base64NotCanonical : Error := ⟨.invalid_encoding, "base64 input is not in canonical form"⟩

def base64TooLargeToEncode : Error := ⟨.invalid_input, "base64 input is too large to encode"⟩

def base64TooLargeToDecode : Error := ⟨.invalid_input, "base64 input is too large to decode"⟩

/-- The loop of `reject_invalid_base64`; it leaves `padding` behind. -/
def rejectLoop (input : Bytes) (i : ℕ) (seenPadding : Bool) (count : ℕ) : Except Error ℕ :=
  if h : i < input.length then
    if input[i] = padding then
      if 2 < count + 1 then .error base64TooMuchPadding
      else rejectLoop input (i + 1) true (count + 1)
    else if seenPadding then .error base64DataAfterPadding
    else if decodeChar input[i] < 0 then .error base64InvalidCharacter
    else rejectLoop input (i + 1) seenPadding count
  else .ok count
termination_by input.length - i

/-- `reject_invalid_base64` -/
def rejectInvalidBase64 (input : Bytes) : Except Error Unit :=
  if input.length % 4 ≠ 0 then .error base64BadLength
  else
    match rejectLoop input 0 false 0 with
    | .error e => .error e
    | .ok count =>
      if 0 < count ∧ input.length < 4 then .error base64PaddingWithoutData else .ok ()

/-- What the loop of `base64_encode` pushes back for three bytes. -/
def encodeTriple (b0 b1 b2 : UInt32) (hasB1 hasB2 : Bool) : Bytes :=
  [alphabetAt ((b0 >>> 2) &&& 0x3f), alphabetAt ((b0 <<< 4 ||| b1 >>> 4) &&& 0x3f),
    if hasB1 then alphabetAt ((b1 <<< 2 ||| b2 >>> 6) &&& 0x3f) else padding,
    if hasB2 then alphabetAt (b2 &&& 0x3f) else padding]

/-- The loop of `base64_encode`. -/
def base64EncodeLoop (input : Bytes) (i : ℕ) (output : Bytes) : Bytes :=
  if h : i < input.length then
    let hasB1 := decide (i + 1 < input.length)
    let hasB2 := decide (i + 2 < input.length)
    let b0 := input[i].toUInt32
    let b1 := if h1 : i + 1 < input.length then input[i + 1].toUInt32 else 0
    let b2 := if h2 : i + 2 < input.length then input[i + 2].toUInt32 else 0
    base64EncodeLoop input (i + 3) (output ++ encodeTriple b0 b1 b2 hasB1 hasB2)
  else output
termination_by input.length - i

/-- `base64_encode` -/
def base64Encode (limits : MaxSize) (input : Bytes) : Except Error Bytes :=
  let trailingGroup := if input.length % 3 = 0 then 0 else 1
  let encodedGroups := input.length / 3 + trailingGroup
  if limits.string / 4 < encodedGroups then .error base64TooLargeToEncode
  else .ok (base64EncodeLoop input 0 [])

/-- What the loop of `base64_decode` pushes back for four characters. -/
def decodeQuad (ch0 ch1 ch2 ch3 : UInt8) : Bytes :=
  let c0 := decodeChar ch0
  let c1 := decodeChar ch1
  let c2 := if ch2 = padding then 0 else decodeChar ch2
  let c3 := if ch3 = padding then 0 else decodeChar ch3
  [(c0 <<< 2 ||| c1 >>> 4).toInt8.toUInt8]
    ++ (if ch2 ≠ padding then [((c1 &&& 0x0f) <<< 4 ||| c2 >>> 2).toInt8.toUInt8] else [])
    ++ (if ch3 ≠ padding then [((c2 &&& 0x03) <<< 6 ||| c3).toInt8.toUInt8] else [])

/-- The loop of `base64_decode`. -/
def base64DecodeLoop (input : Bytes) (hlength : input.length % 4 = 0) (i : ℕ) (hi : i % 4 = 0)
    (output : Bytes) : Bytes :=
  if h : i < input.length then
    base64DecodeLoop input hlength (i + 4) (by omega)
      (output ++ decodeQuad input[i] input[i + 1] input[i + 2] input[i + 3])
  else output
termination_by input.length - i

lemma length_of_rejectInvalidBase64 {input : Bytes} (h : rejectInvalidBase64 input = .ok ()) :
    input.length % 4 = 0 := by
  by_contra hlength
  rw [rejectInvalidBase64, if_pos hlength] at h
  cases h

/-- The number of characters of padding that `base64_decode` counts. -/
def paddingOf (input : Bytes) : ℕ :=
  if [padding, padding] <:+ input then 2 else if [padding] <:+ input then 1 else 0

/-- `base64_decode` -/
def base64Decode (limits : MaxSize) (input : Bytes) : Except Error Bytes :=
  match h : rejectInvalidBase64 input with
  | .error e => .error e
  | .ok () =>
    if input = [] then .ok []
    else
      let decodedGroups := input.length / 4
      let decodedSize := decodedGroups * 3 - paddingOf input
      if limits.bytes < decodedSize then .error base64TooLargeToDecode
      else
        let output := base64DecodeLoop input (length_of_rejectInvalidBase64 h) 0 rfl []
        match base64Encode limits output with
        | .error e => .error e
        | .ok text => if text ≠ input then .error base64NotCanonical else .ok output

/-! ## Groups -/

/-- Three bytes, or at the end fewer, as four characters. -/
def encodeGroups : Bytes → Bytes
  | b0 :: b1 :: b2 :: rest =>
    encodeTriple b0.toUInt32 b1.toUInt32 b2.toUInt32 true true ++ encodeGroups rest
  | [b0, b1] => encodeTriple b0.toUInt32 b1.toUInt32 0 true false
  | [b0] => encodeTriple b0.toUInt32 0 0 false false
  | [] => []

/-- Four characters as three bytes, or at the end fewer. -/
def decodeGroups : Bytes → Bytes
  | ch0 :: ch1 :: ch2 :: ch3 :: rest => decodeQuad ch0 ch1 ch2 ch3 ++ decodeGroups rest
  | _ => []

/-- The check of the characters, by recursion on them. -/
def scan : Bytes → Bool → ℕ → Except Error ℕ
  | [], _, count => .ok count
  | ch :: rest, seenPadding, count =>
    if ch = padding then
      if 2 < count + 1 then .error base64TooMuchPadding else scan rest true (count + 1)
    else if seenPadding then .error base64DataAfterPadding
    else if decodeChar ch < 0 then .error base64InvalidCharacter
    else scan rest seenPadding count

lemma rejectLoop_eq (input : Bytes) (i : ℕ) (seenPadding : Bool) (count : ℕ) :
    rejectLoop input i seenPadding count = scan (input.drop i) seenPadding count := by
  fun_induction rejectLoop input i seenPadding count with
  | case1 i seen count h hpad hmany =>
    rw [List.drop_eq_getElem_cons h, scan, if_pos hpad, if_pos hmany]
  | case2 i seen count h hpad hmany ih =>
    rw [ih, List.drop_eq_getElem_cons h, scan, if_pos hpad, if_neg hmany]
  | case3 i count h hpad => rw [List.drop_eq_getElem_cons h, scan, if_neg hpad, if_pos rfl]
  | case4 i seen count h hpad hseen hneg =>
    rw [List.drop_eq_getElem_cons h, scan, if_neg hpad, if_neg hseen, if_pos hneg]
  | case5 i seen count h hpad hseen hneg ih =>
    rw [ih, List.drop_eq_getElem_cons h, scan, if_neg hpad, if_neg hseen, if_neg hneg]
  | case6 i seen count h => rw [List.drop_eq_nil_of_le (by omega), scan]

lemma base64EncodeLoop_eq (input : Bytes) (i : ℕ) (output : Bytes) :
    base64EncodeLoop input i output = output ++ encodeGroups (input.drop i) := by
  fun_induction base64EncodeLoop input i output with
  | case1 i output h hasB1 hasB2 b0 b1 b2 ih =>
    rw [ih, List.append_assoc]
    congr 1
    by_cases h2 : i + 2 < input.length
    · have h1 : i + 1 < input.length := by omega
      rw [List.drop_eq_getElem_cons h, List.drop_eq_getElem_cons h1, List.drop_eq_getElem_cons h2,
        encodeGroups]
      simp only [hasB1, hasB2, b0, b1, b2, h1, h2, decide_true, dite_true]
    · have hrest : input.drop (i + 3) = [] := List.drop_eq_nil_of_le (by omega)
      by_cases h1 : i + 1 < input.length
      · rw [List.drop_eq_getElem_cons h, List.drop_eq_getElem_cons h1,
          List.drop_eq_nil_of_le (show input.length ≤ i + 1 + 1 by omega), hrest, encodeGroups,
          encodeGroups, List.append_nil]
        simp only [hasB1, hasB2, b0, b1, b2, h1, h2, decide_true, decide_false, dite_true,
          dite_false]
      · rw [List.drop_eq_getElem_cons h,
          List.drop_eq_nil_of_le (show input.length ≤ i + 1 by omega), hrest, encodeGroups,
          encodeGroups, List.append_nil]
        simp only [hasB1, hasB2, b0, b1, b2, h1, h2, decide_false, dite_false]
  | case2 i output h =>
    rw [List.drop_eq_nil_of_le (by omega), encodeGroups, List.append_nil]

lemma base64DecodeLoop_eq (input : Bytes) (hlength : input.length % 4 = 0) (i : ℕ)
    (hi : i % 4 = 0) (output : Bytes) :
    base64DecodeLoop input hlength i hi output = output ++ decodeGroups (input.drop i) := by
  fun_induction base64DecodeLoop input hlength i hi output with
  | case1 i hi output h ih =>
    rw [ih, List.append_assoc, List.drop_eq_getElem_cons h,
      List.drop_eq_getElem_cons (show i + 1 < input.length by omega),
      List.drop_eq_getElem_cons (show i + 2 < input.length by omega),
      List.drop_eq_getElem_cons (show i + 3 < input.length by omega), decodeGroups]
  | case2 i hi output h =>
    rw [List.drop_eq_nil_of_le (by omega), decodeGroups, List.append_nil]
    simp

/-! ## Numbers below 64 -/

/-- The character for a number below 64. -/
def letter (n : ℕ) : UInt8 := kAlphabet.getD n 0

lemma decodeChar_letter {n : ℕ} (h : n < 64) : decodeChar (letter n) = Int32.ofNat n := by
  have hall : ∀ n < 64, decodeChar (letter n) = Int32.ofNat n := by decide +kernel
  exact hall n h

lemma letter_ne_padding {n : ℕ} (h : n < 64) : letter n ≠ padding := by
  have hall : ∀ n < 64, letter n ≠ padding := by decide +kernel
  exact hall n h

/-- The four numbers of three bytes: the shifted parts do not overlap, and the mask takes the last
six digits. -/
lemma encodeTriple_eq (b0 b1 b2 : UInt8) (hasB1 hasB2 : Bool) :
    encodeTriple b0.toUInt32 b1.toUInt32 b2.toUInt32 hasB1 hasB2 =
      [letter (b0.toNat / 4), letter (b0.toNat % 4 * 16 + b1.toNat / 16),
        if hasB1 then letter (b1.toNat % 16 * 4 + b2.toNat / 64) else padding,
        if hasB2 then letter (b2.toNat % 64) else padding] := by
  have h0 := b0.toNat_lt
  have h1 := b1.toNat_lt
  have h2 := b2.toNat_lt
  have hmask := fun n => Nat.and_two_pow_sub_one_eq_mod n 6
  have hor := fun a b k h => mul_two_pow_or a b k h
  simp only [Nat.reducePow, Nat.add_one_sub_one] at hmask
  have hfirst : ((b0.toUInt32 >>> 2) &&& 0x3f).toNat = b0.toNat / 4 := by
    simp only [UInt32.toNat_and, UInt32.toNat_shiftRight, UInt8.toNat_toUInt32, UInt32.reduceToNat,
      Nat.reduceMod, Nat.shiftRight_eq_div_pow, hmask]
    omega
  have hsecond : ((b0.toUInt32 <<< 4 ||| b1.toUInt32 >>> 4) &&& 0x3f).toNat =
      b0.toNat % 4 * 16 + b1.toNat / 16 := by
    simp only [UInt32.toNat_and, UInt32.toNat_or, UInt32.toNat_shiftLeft, UInt32.toNat_shiftRight,
      UInt8.toNat_toUInt32, UInt32.reduceToNat, Nat.reduceMod, Nat.shiftRight_eq_div_pow,
      Nat.shiftLeft_eq, hmask]
    rw [Nat.mod_eq_of_lt (show b0.toNat * 2 ^ 4 < 2 ^ 32 by omega), hor _ _ _ (by omega)]
    omega
  have hthird : ((b1.toUInt32 <<< 2 ||| b2.toUInt32 >>> 6) &&& 0x3f).toNat =
      b1.toNat % 16 * 4 + b2.toNat / 64 := by
    simp only [UInt32.toNat_and, UInt32.toNat_or, UInt32.toNat_shiftLeft, UInt32.toNat_shiftRight,
      UInt8.toNat_toUInt32, UInt32.reduceToNat, Nat.reduceMod, Nat.shiftRight_eq_div_pow,
      Nat.shiftLeft_eq, hmask]
    rw [Nat.mod_eq_of_lt (show b1.toNat * 2 ^ 2 < 2 ^ 32 by omega), hor _ _ _ (by omega)]
    omega
  have hfourth : (b2.toUInt32 &&& 0x3f).toNat = b2.toNat % 64 := by
    simp only [UInt32.toNat_and, UInt8.toNat_toUInt32, UInt32.reduceToNat, hmask]
  simp only [encodeTriple, alphabetAt, letter, hfirst, hsecond, hthird, hfourth]

/-- Two parts of a word that do not overlap. -/
lemma ofNat_or_ofNat {high low shift : ℕ} (h : low < 2 ^ shift) :
    (Int32.ofNat (high * 2 ^ shift) ||| Int32.ofNat low).toInt8.toUInt8 =
      UInt8.ofNat (high * 2 ^ shift + low) := by
  have hor : Int32.ofNat (high * 2 ^ shift) ||| Int32.ofNat low =
      Int32.ofNat (high * 2 ^ shift ||| low) := Int32.toBitVec_inj.mp BitVec.ofNat_or.symm
  rw [hor, mul_two_pow_or _ _ _ h, Int32.toInt8_ofNat', Int8.toUInt8_ofNat']

/-- The bytes of four numbers. -/
lemma decodeQuad_letters {m n k l : ℕ} (hm : m < 64) (hn : n < 64) (hk : k < 64) (hl : l < 64) :
    decodeQuad (letter m) (letter n) (letter k) (letter l) =
        [UInt8.ofNat (m * 4 + n / 16), UInt8.ofNat (n % 16 * 16 + k / 4),
          UInt8.ofNat (k % 4 * 64 + l)] ∧
      decodeQuad (letter m) (letter n) (letter k) padding =
        [UInt8.ofNat (m * 4 + n / 16), UInt8.ofNat (n % 16 * 16 + k / 4)] ∧
      decodeQuad (letter m) (letter n) padding padding = [UInt8.ofNat (m * 4 + n / 16)] := by
  have hleft : ∀ n < 64, Int32.ofNat n <<< 2 = Int32.ofNat (n * 2 ^ 2) ∧
      (Int32.ofNat n &&& 0x0f) <<< 4 = Int32.ofNat (n % 16 * 2 ^ 4) ∧
      (Int32.ofNat n &&& 0x03) <<< 6 = Int32.ofNat (n % 4 * 2 ^ 6) := by decide +kernel
  have hright : ∀ n < 64, Int32.ofNat n >>> 4 = Int32.ofNat (n / 16) ∧
      Int32.ofNat n >>> 2 = Int32.ofNat (n / 4) := by decide +kernel
  have hfirst : (Int32.ofNat m <<< 2 ||| Int32.ofNat n >>> 4).toInt8.toUInt8 =
      UInt8.ofNat (m * 4 + n / 16) := by
    rw [(hleft m hm).1, (hright n hn).1, ofNat_or_ofNat (by omega)]
    rfl
  have hsecond : ((Int32.ofNat n &&& 0x0f) <<< 4 ||| Int32.ofNat k >>> 2).toInt8.toUInt8 =
      UInt8.ofNat (n % 16 * 16 + k / 4) := by
    rw [(hleft n hn).2.1, (hright k hk).2, ofNat_or_ofNat (by omega)]
    rfl
  have hthird : ((Int32.ofNat k &&& 0x03) <<< 6 ||| Int32.ofNat l).toInt8.toUInt8 =
      UInt8.ofNat (k % 4 * 64 + l) := by
    rw [(hleft k hk).2.2, ofNat_or_ofNat (by omega)]
    rfl
  refine ⟨?_, ?_, ?_⟩
  · simp only [decodeQuad, letter_ne_padding hk, letter_ne_padding hl, decodeChar_letter hm,
      decodeChar_letter hn, decodeChar_letter hk, decodeChar_letter hl, hfirst,
      hsecond, hthird, if_false, ne_eq, not_false_eq_true, if_true,
      List.cons_append, List.nil_append]
  · simp only [decodeQuad, letter_ne_padding hk, decodeChar_letter hm,
      decodeChar_letter hn, decodeChar_letter hk, hfirst,
      hsecond, if_false, ne_eq, not_false_eq_true, not_true_eq_false, if_true,
      List.cons_append, List.nil_append, List.append_nil]
  · simp only [decodeQuad, decodeChar_letter hm, decodeChar_letter hn, hfirst,
      if_false, ne_eq, not_true_eq_false, List.append_nil]

/-- Decoding inverts encoding, group by group. -/
lemma decodeGroups_encodeGroups (input : Bytes) : decodeGroups (encodeGroups input) = input := by
  fun_induction encodeGroups input with
  | case1 b0 b1 b2 rest ih =>
    have h0 := b0.toNat_lt
    have h1 := b1.toNat_lt
    have h2 := b2.toNat_lt
    rw [encodeTriple_eq]
    simp only [if_true, List.cons_append, List.nil_append, decodeGroups, ih]
    rw [(decodeQuad_letters (by omega) (by omega) (by omega) (by omega)).1]
    simp only [List.cons_append, List.nil_append, List.cons.injEq, and_true, ← UInt8.toNat_inj,
      UInt8.toNat_ofNat']
    omega
  | case2 b0 b1 =>
    have h0 := b0.toNat_lt
    have h1 := b1.toNat_lt
    rw [show (0 : UInt32) = (0 : UInt8).toUInt32 from rfl, encodeTriple_eq]
    simp only [if_true, if_false, decodeGroups, Bool.false_eq_true]
    rw [(decodeQuad_letters (l := 0) (by omega) (by omega) (by simp; omega) (by omega)).2.1]
    simp only [List.append_nil, List.cons.injEq, and_true, ← UInt8.toNat_inj,
      UInt8.toNat_ofNat', UInt8.reduceToNat]
    omega
  | case3 b0 =>
    have h0 := b0.toNat_lt
    rw [show (0 : UInt32) = (0 : UInt8).toUInt32 from rfl, encodeTriple_eq]
    simp only [if_false, decodeGroups, Bool.false_eq_true]
    rw [(decodeQuad_letters (k := 0) (l := 0) (by omega) (by simp; omega) (by omega) (by omega)).2.2]
    simp only [List.append_nil, List.cons.injEq, and_true, ← UInt8.toNat_inj,
      UInt8.toNat_ofNat', UInt8.reduceToNat]
    omega
  | case4 => rfl

/-! ## The definition on binary digits -/

/-- `A-Z`, `a-z`, `0-9`, `+`, `/` -/
def standardAlphabet : Bytes :=
  (List.range 26).map (fun i => 'A'.toUInt8 + UInt8.ofNat i) ++
    (List.range 26).map (fun i => 'a'.toUInt8 + UInt8.ofNat i) ++
    (List.range 10).map (fun i => '0'.toUInt8 + UInt8.ofNat i) ++ ['+'.toUInt8, '/'.toUInt8]

/-- Base64 as it is defined: the digits of the bytes, filled up with zeros to groups of six, each
group a character of the alphabet, and these filled up to groups of four. -/
def bitText (input : Bytes) : Bytes :=
  padTo 4 padding ((groups 6 (padTo 6 false (input.flatMap fun b => digits 8 b.toNat))).map
    fun group => standardAlphabet.getD (value group) 0)

lemma standardAlphabet_eq : standardAlphabet = kAlphabet := by decide +kernel

/-- Groups of six digits, one after another. -/
def sextets (bits : List Bool) : Bytes := (groups 6 bits).map fun group => letter (value group)

lemma sextets_nil : sextets [] = [] := by
  rw [sextets, groups_nil 6 (by decide), List.map_nil]

/-- A group in front is not filled up. -/
lemma sextets_padTo_append {front : List Bool} (h : front.length = 6) (rest : List Bool) :
    sextets (padTo 6 false (front ++ rest)) =
      letter (value front) :: sextets (padTo 6 false rest) := by
  rw [padTo_append (by rw [h]), sextets, groups_append (by decide) h, List.map_cons, sextets]

/-- The last group. -/
lemma sextets_padTo_last (front zeros : List Bool) (h : front.length + zeros.length = 6)
    (hne : front ≠ []) (hzeros : zeros = digits zeros.length 0) :
    sextets (padTo 6 false front) = [letter (value (front ++ zeros))] := by
  have hlength : 0 < front.length := List.length_pos_iff.mpr hne
  have hpad : padTo 6 false front = front ++ zeros ++ [] := by
    rw [padTo, hzeros, digits_zero, List.append_nil]
    congr 2
    by_cases hfull : front.length = 6
    · rw [hfull] at h ⊢
      omega
    · rw [Nat.mod_eq_of_lt (show front.length < 6 by omega), Nat.mod_eq_of_lt (by omega)]
      omega
  rw [hpad, sextets, groups_append (by decide) (by rw [List.length_append, h]), List.map_cons,
    groups_nil 6 (by decide), List.map_nil]

lemma bitText_eq (input : Bytes) :
    bitText input =
      padTo 4 padding (sextets (padTo 6 false (input.flatMap fun b => digits 8 b.toNat))) := by
  simp only [bitText, standardAlphabet_eq, sextets, letter]

/-- The encoder takes the digits of three bytes apart where the groups of six begin. -/
lemma encodeGroups_eq_bitText (input : Bytes) : encodeGroups input = bitText input := by
  -- A byte is cut after 6, 4 or 2 of its bits, by its place in a group.
  have hfirst : ∀ v, digits 8 v = digits 6 (v / 4) ++ digits 2 v := digits_add 6 2
  have hsecond : ∀ v, digits 8 v = digits 4 (v / 16) ++ digits 4 v := digits_add 4 4
  have hthird : ∀ v, digits 8 v = digits 2 (v / 64) ++ digits 6 v := digits_add 2 6
  fun_induction encodeGroups input with
  | case1 b0 b1 b2 rest ih =>
    have h0 := b0.toNat_lt
    have h1 := b1.toNat_lt
    have h2 := b2.toNat_lt
    have hbits : ((b0 :: b1 :: b2 :: rest).flatMap fun b => digits 8 b.toNat) =
        digits 6 (b0.toNat / 4) ++ ((digits 2 b0.toNat ++ digits 4 (b1.toNat / 16)) ++
          ((digits 4 b1.toNat ++ digits 2 (b2.toNat / 64)) ++ (digits 6 b2.toNat ++
            rest.flatMap fun b => digits 8 b.toNat))) := by
      simp only [List.flatMap_cons]
      rw [hfirst b0.toNat, hsecond b1.toNat, hthird b2.toNat]
      simp only [List.append_assoc]
    rw [bitText_eq, hbits, sextets_padTo_append (by simp), sextets_padTo_append (by simp),
      sextets_padTo_append (by simp), sextets_padTo_append (by simp), encodeTriple_eq, ih,
      bitText_eq]
    simp only [value_digits, value_digits_append, if_true, List.cons_append, List.nil_append,
      Nat.reducePow]
    rw [Nat.mod_eq_of_lt (show b0.toNat / 4 < 64 by omega),
      Nat.mod_eq_of_lt (show b1.toNat / 16 < 16 by omega),
      Nat.mod_eq_of_lt (show b2.toNat / 64 < 4 by omega)]
    exact (padTo_append (show 4 ∣ List.length [_, _, _, _] from Dvd.intro 1 rfl) _).symm
  -- Two bytes are 16 bits, so two zeros are missing in the third letter.
  | case2 b0 b1 =>
    have h0 := b0.toNat_lt
    have h1 := b1.toNat_lt
    have hbits : ([b0, b1].flatMap fun b => digits 8 b.toNat) =
        digits 6 (b0.toNat / 4) ++ ((digits 2 b0.toNat ++ digits 4 (b1.toNat / 16)) ++
          digits 4 b1.toNat) := by
      simp only [List.flatMap_cons, List.flatMap_nil, List.append_nil]
      rw [hfirst b0.toNat, hsecond b1.toNat]
      simp only [List.append_assoc]
    rw [bitText_eq, hbits, sextets_padTo_append (by simp), sextets_padTo_append (by simp),
      sextets_padTo_last _ (digits 2 0) (by simp) (by simp [digits]) (by simp),
      show (0 : UInt32) = (0 : UInt8).toUInt32 from rfl, encodeTriple_eq]
    simp only [value_digits, value_digits_append, if_true, Nat.reducePow, UInt8.reduceToNat]
    rw [Nat.mod_eq_of_lt (show b0.toNat / 4 < 64 by omega),
      Nat.mod_eq_of_lt (show b1.toNat / 16 < 16 by omega)]
    rfl
  -- One byte is 8 bits, so four zeros are missing in the second letter.
  | case3 b0 =>
    have h0 := b0.toNat_lt
    have hbits : ([b0].flatMap fun b => digits 8 b.toNat) =
        digits 6 (b0.toNat / 4) ++ digits 2 b0.toNat := by
      simp only [List.flatMap_cons, List.flatMap_nil, List.append_nil]
      rw [hfirst b0.toNat]
    rw [bitText_eq, hbits, sextets_padTo_append (by simp),
      sextets_padTo_last _ (digits 4 0) (by simp) (by simp [digits]) (by simp),
      show (0 : UInt32) = (0 : UInt8).toUInt32 from rfl, encodeTriple_eq]
    simp only [value_digits, value_digits_append, Nat.reducePow, UInt8.reduceToNat]
    rw [Nat.mod_eq_of_lt (show b0.toNat / 4 < 64 by omega)]
    rfl
  | case4 =>
    rw [bitText_eq, List.flatMap_nil, padTo_nil, sextets_nil, padTo_nil]

/-! ## What is let through -/

lemma decodeChar_padding : decodeChar padding < 0 := by decide

/-- Characters of the alphabet, and padding behind them. -/
def DataAndPadding (input : Bytes) (pad : ℕ) : Prop :=
  ∃ data, input = data ++ List.replicate pad padding ∧ ∀ ch ∈ data, 0 ≤ decodeChar ch

/-- At most two characters of padding fill up groups of four. -/
structure IsPadded (input : Bytes) (pad : ℕ) : Prop where
  length : input.length % 4 = 0
  pad_le : pad ≤ 2
  data : DataAndPadding input pad

lemma ne_padding {ch : UInt8} (h : 0 ≤ decodeChar ch) : ch ≠ padding := by
  rintro rfl
  exact absurd decodeChar_padding (Int32.not_lt.mpr h)

/-- Behind padding there is only padding. -/
lemma scan_seen_eq_ok_iff (rest : Bytes) (count pad : ℕ) (h : count ≤ 2) :
    scan rest true count = .ok pad ↔
      count ≤ pad ∧ pad ≤ 2 ∧ rest = List.replicate (pad - count) padding := by
  induction rest generalizing count with
  | nil =>
    simp only [scan, Except.ok.injEq]
    constructor
    · rintro rfl
      simp [h]
    · rintro ⟨hle, -, hnil⟩
      have hzero : pad - count = 0 := by simpa using hnil.symm
      omega
  | cons ch rest ih =>
    by_cases hpad : ch = padding
    · rw [scan, if_pos hpad]
      -- A third padding character is one too many.
      by_cases hmany : 2 < count + 1
      · simp only [if_pos hmany, reduceCtorEq, false_iff, not_and]
        intro hle hpad2 hrest
        have hlength := congrArg List.length hrest
        simp only [List.length_cons, List.length_replicate] at hlength
        omega
      · rw [if_neg hmany, ih (count + 1) (by omega)]
        constructor
        · rintro ⟨hle, hpad2, rfl⟩
          refine ⟨by omega, hpad2, ?_⟩
          rw [hpad, show pad - count = pad - (count + 1) + 1 by omega, List.replicate_succ]
        · rintro ⟨hle, hpad2, hrest⟩
          obtain ⟨n, hn⟩ : ∃ n, pad - count = n + 1 := by
            refine ⟨rest.length, ?_⟩
            have hlength := congrArg List.length hrest
            simp only [List.length_cons, List.length_replicate] at hlength
            omega
          rw [hn, List.replicate_succ] at hrest
          refine ⟨by omega, hpad2, ?_⟩
          rw [(List.cons.inj hrest).2, show pad - (count + 1) = n by omega]
    · -- A letter behind padding is rejected.
      simp only [scan, if_neg hpad, if_true, reduceCtorEq, false_iff, not_and]
      intro hle hpad2 hrest
      have hmem : ch ∈ List.replicate (pad - count) padding := hrest ▸ List.mem_cons_self
      exact hpad (List.eq_of_mem_replicate hmem)

lemma dataAndPadding_nil_iff (pad : ℕ) : DataAndPadding [] pad ↔ pad = 0 := by
  constructor
  · rintro ⟨data, hnil, -⟩
    simpa using (List.append_eq_nil_iff.mp hnil.symm).2
  · rintro rfl
    exact ⟨[], rfl, by simp⟩

/-- The first character is padding, or one of the alphabet. -/
lemma dataAndPadding_cons_iff (ch : UInt8) (rest : Bytes) (pad : ℕ) :
    DataAndPadding (ch :: rest) pad ↔
      (ch = padding ∧ 1 ≤ pad ∧ rest = List.replicate (pad - 1) padding) ∨
        (0 ≤ decodeChar ch ∧ DataAndPadding rest pad) := by
  constructor
  · rintro ⟨data, hinput, hdata⟩
    cases data with
    | nil =>
      left
      cases pad with
      | zero => cases hinput
      | succ n =>
        rw [List.nil_append, List.replicate_succ] at hinput
        exact ⟨(List.cons.inj hinput).1, by omega, (List.cons.inj hinput).2⟩
    | cons first data =>
      right
      rw [List.cons_append] at hinput
      obtain ⟨rfl, rfl⟩ := List.cons.inj hinput
      exact ⟨hdata ch (by simp), data, rfl, fun ch hch => hdata ch (by simp [hch])⟩
  · rintro (⟨rfl, hpos, rfl⟩ | ⟨hch, data, rfl, hdata⟩)
    · refine ⟨[], ?_, by simp⟩
      rw [List.nil_append, ← List.replicate_succ, Nat.sub_add_cancel hpos]
    · refine ⟨ch :: data, rfl, ?_⟩
      simp only [List.mem_cons, forall_eq_or_imp]
      exact ⟨hch, hdata⟩

lemma DataAndPadding.cons {ch : UInt8} {rest : Bytes} {pad : ℕ} (hch : 0 ≤ decodeChar ch)
    (h : DataAndPadding rest pad) : DataAndPadding (ch :: rest) pad :=
  (dataAndPadding_cons_iff ch rest pad).mpr (.inr ⟨hch, h⟩)

/-- Before as many characters as there is padding stands one of the alphabet. -/
lemma DataAndPadding.tail {ch : UInt8} {rest : Bytes} {pad : ℕ}
    (h : DataAndPadding (ch :: rest) pad) (hpad : pad ≤ rest.length) :
    0 ≤ decodeChar ch ∧ DataAndPadding rest pad := by
  rcases (dataAndPadding_cons_iff ch rest pad).mp h with ⟨-, hpos, rfl⟩ | hcons
  · rw [List.length_replicate] at hpad
    omega
  · exact hcons

lemma DataAndPadding.count_padding {input : Bytes} {pad : ℕ} (h : DataAndPadding input pad) :
    input.count padding = pad := by
  obtain ⟨data, rfl, hdata⟩ := h
  rw [List.count_append, List.count_replicate_self, List.count_eq_zero_of_not_mem, Nat.zero_add]
  intro hmem
  exact ne_padding (hdata _ hmem) rfl

lemma scan_eq_ok_iff (input : Bytes) (pad : ℕ) :
    scan input false 0 = .ok pad ↔ pad ≤ 2 ∧ DataAndPadding input pad := by
  induction input with
  | nil =>
    rw [scan, Except.ok.injEq, dataAndPadding_nil_iff]
    omega
  | cons ch rest ih =>
    rw [dataAndPadding_cons_iff]
    by_cases hpad : ch = padding
    · subst hpad
      have hnot : ¬ 0 ≤ decodeChar padding := fun h => ne_padding h rfl
      rw [scan, if_pos rfl, if_neg (by omega), scan_seen_eq_ok_iff _ _ _ (by omega)]
      simp only [hnot, true_and, false_and, or_false, Nat.zero_add]
      exact and_left_comm
    · rw [scan, if_neg hpad, if_neg Bool.false_ne_true]
      by_cases hneg : decodeChar ch < 0
      · simp [hneg, hpad, Int32.not_le.mpr hneg]
      · rw [if_neg hneg, ih]
        simp [hpad, Int32.not_lt.mp hneg]

lemma scan_error (input : Bytes) (seenPadding : Bool) (count : ℕ) (e : Error)
    (h : scan input seenPadding count = .error e) : e.code = .invalid_encoding := by
  fun_induction scan input seenPadding count with
  | case1 => cases h
  | case2 | case4 | case5 =>
    cases h
    rfl
  | case3 rest seen count hmany ih => exact ih h
  | case6 ch rest seen count hpad hseen hneg ih => exact ih h

lemma rejectInvalidBase64_eq_ok_iff (input : Bytes) :
    rejectInvalidBase64 input = .ok () ↔ ∃ pad, IsPadded input pad := by
  rw [rejectInvalidBase64, rejectLoop_eq, List.drop_zero]
  by_cases hlength : input.length % 4 = 0
  · rw [if_neg (not_not.mpr hlength)]
    cases hscan : scan input false 0 with
    | error e =>
      simp only [reduceCtorEq, false_iff, not_exists]
      intro pad hpadded
      have hok := (scan_eq_ok_iff input pad).mpr ⟨hpadded.pad_le, hpadded.data⟩
      rw [hscan] at hok
      cases hok
    | ok pad =>
      obtain ⟨hpad2, data, hinput, hdata⟩ := (scan_eq_ok_iff input pad).mp hscan
      have hsize : input.length = data.length + pad := by rw [hinput]; simp
      -- With padding there are at least four characters, so the last check never fails.
      have hwhole : ¬ (0 < pad ∧ input.length < 4) := by omega
      simp only [if_neg hwhole, true_iff]
      exact ⟨pad, hlength, hpad2, data, hinput, hdata⟩
  · rw [if_pos hlength]
    simp only [reduceCtorEq, false_iff, not_exists]
    intro pad hpadded
    exact hlength hpadded.length

lemma rejectInvalidBase64_error {input : Bytes} {e : Error}
    (h : rejectInvalidBase64 input = .error e) : e.code = .invalid_encoding := by
  rw [rejectInvalidBase64, rejectLoop_eq] at h
  split at h
  · cases h
    rfl
  · split at h
    · rename_i e' hscan
      cases h
      exact scan_error _ _ _ _ hscan
    · split at h
      · cases h
        rfl
      · cases h

/-! ## Encoding and decoding -/

lemma getElem_of_padded {input : Bytes} {pad : ℕ} (h : DataAndPadding input pad) {j : ℕ}
    (hj : j < input.length) : (j + pad < input.length → 0 ≤ decodeChar input[j]) ∧
      (input.length ≤ j + pad → input[j] = padding) := by
  obtain ⟨data, rfl, hdata⟩ := h
  simp only [List.length_append, List.length_replicate] at hj ⊢
  refine ⟨fun hlt => ?_, fun hle => ?_⟩
  · rw [List.getElem_append_left (show j < data.length by omega)]
    exact hdata _ (List.getElem_mem _)
  · rw [List.getElem_append_right (show data.length ≤ j by omega), List.getElem_replicate]

/-- What the decoder counts at the end. -/
lemma IsPadded.paddingOf_eq {input : Bytes} {pad : ℕ} (h : IsPadded input pad) :
    paddingOf input = pad := by
  obtain ⟨data, rfl, hdata⟩ := h.data
  have hnot : padding ∉ data := fun hmem => ne_padding (hdata _ hmem) rfl
  have hpad := h.pad_le
  interval_cases pad
  · have hsuffix : ∀ l, ¬ l ++ [padding] <:+ data := by
      intro l hl
      exact hnot (hl.subset (by simp))
    rw [paddingOf, List.replicate_zero, List.append_nil,
      if_neg (show ¬ [padding, padding] <:+ data from hsuffix [padding]),
      if_neg (show ¬ [padding] <:+ data from hsuffix [])]
  · have hone : ¬ [padding, padding] <:+ data ++ [padding] := by
      rintro ⟨front, hfront⟩
      have hdouble : (front ++ [padding]) ++ [padding] = data ++ [padding] := by simpa using hfront
      rw [← List.append_cancel_right hdouble] at hnot
      simp at hnot
    rw [paddingOf, List.replicate_one, if_neg hone, if_pos (List.suffix_append _ _)]
  · exact if_pos (List.suffix_append _ _)

lemma decodeChar_letter_nonneg {n : ℕ} (h : n < 64) : 0 ≤ decodeChar (letter n) := by
  have hall : ∀ n < 64, 0 ≤ decodeChar (letter n) := by decide +kernel
  exact hall n h

/-- The encoder fills up the last group. -/
lemma isPadded_encodeGroups (input : Bytes) : ∃ pad, IsPadded (encodeGroups input) pad := by
  fun_induction encodeGroups input with
  | case1 b0 b1 b2 rest ih =>
    have h0 := b0.toNat_lt
    have h1 := b1.toNat_lt
    have h2 := b2.toNat_lt
    -- A full group puts four letters before the rest.
    obtain ⟨pad, hlength, hpad, hdata⟩ := ih
    rw [encodeTriple_eq]
    simp only [if_true, List.cons_append, List.nil_append]
    refine ⟨pad, ?_, hpad, ?_⟩
    · simp only [List.length_cons]
      omega
    · have hlast := hdata.cons (decodeChar_letter_nonneg (show b2.toNat % 64 < 64 by omega))
      exact ((hlast.cons (decodeChar_letter_nonneg (by omega))).cons
        (decodeChar_letter_nonneg (by omega))).cons (decodeChar_letter_nonneg (by omega))
  | case2 b0 b1 =>
    have h0 := b0.toNat_lt
    have h1 := b1.toNat_lt
    rw [show (0 : UInt32) = (0 : UInt8).toUInt32 from rfl, encodeTriple_eq]
    simp only [if_true, if_false, Bool.false_eq_true, UInt8.reduceToNat]
    have hlast : DataAndPadding [padding] 1 := ⟨[], rfl, by simp⟩
    refine ⟨1, by simp, by omega, ?_⟩
    exact ((hlast.cons (decodeChar_letter_nonneg (by omega))).cons
      (decodeChar_letter_nonneg (by omega))).cons (decodeChar_letter_nonneg (by omega))
  | case3 b0 =>
    have h0 := b0.toNat_lt
    rw [show (0 : UInt32) = (0 : UInt8).toUInt32 from rfl, encodeTriple_eq]
    simp only [if_false, Bool.false_eq_true, UInt8.reduceToNat]
    have hlast : DataAndPadding [padding, padding] 2 := ⟨[], rfl, by simp⟩
    refine ⟨2, by simp, le_rfl, ?_⟩
    exact (hlast.cons (decodeChar_letter_nonneg (by omega))).cons
      (decodeChar_letter_nonneg (by omega))
  | case4 => exact ⟨0, rfl, by omega, [], rfl, by simp⟩

lemma length_decodeQuad (ch0 ch1 ch2 ch3 : UInt8) :
    (decodeQuad ch0 ch1 ch2 ch3).length =
      1 + (if ch2 = padding then 0 else 1) + (if ch3 = padding then 0 else 1) := by
  by_cases h2 : ch2 = padding <;> by_cases h3 : ch3 = padding <;> simp [decodeQuad, h2, h3]

/-- Every character of padding stands for a byte that is missing. -/
lemma length_decodeGroups {input : Bytes} {pad : ℕ} (h : IsPadded input pad) :
    (decodeGroups input).length + input.count padding = input.length / 4 * 3 := by
  obtain ⟨hlength, hpad, hdata⟩ := h
  fun_induction decodeGroups input with
  | case1 ch0 ch1 ch2 ch3 rest ih =>
    simp only [List.length_cons] at hlength
    obtain ⟨h0, hdata⟩ := hdata.tail (by simp only [List.length_cons]; omega)
    obtain ⟨h1, hdata⟩ := hdata.tail (by simp only [List.length_cons]; omega)
    have hrest : (decodeGroups rest).length + rest.count padding = rest.length / 4 * 3 := by
      by_cases hnil : rest = []
      · rw [hnil]
        rfl
      · have hpos := List.length_pos_iff.mpr hnil
        obtain ⟨h2, hdata⟩ := hdata.tail (by simp only [List.length_cons]; omega)
        obtain ⟨h3, hdata⟩ := hdata.tail (by omega)
        exact ih (by omega) hdata
    rw [List.length_append, length_decodeQuad]
    simp only [List.length_cons, List.count_cons, beq_iff_eq, ne_padding h0, ne_padding h1, if_false]
    split <;> split <;> omega
  | case2 input hshort =>
    rcases input with - | ⟨ch0, - | ⟨ch1, - | ⟨ch2, - | ⟨ch3, rest⟩⟩⟩⟩
    · rfl
    · simp at hlength
    · simp at hlength
    · simp at hlength
    · exact absurd rfl (hshort ch0 ch1 ch2 ch3 rest)

/-! ## The functions of the source, once more -/

lemma encodedGroups_eq (input : Bytes) :
    input.length / 3 + (if input.length % 3 = 0 then 0 else 1) = (input.length + 2) / 3 := by
  split <;> omega

lemma base64Encode_eq (limits : MaxSize) (input : Bytes) :
    base64Encode limits input =
      if limits.string / 4 < (input.length + 2) / 3 then .error base64TooLargeToEncode
      else .ok (encodeGroups input) := by
  rw [base64Encode, encodedGroups_eq, base64EncodeLoop_eq, List.drop_zero, List.nil_append]

lemma length_encodeGroups (input : Bytes) :
    (encodeGroups input).length = 4 * ((input.length + 2) / 3) := by
  fun_induction encodeGroups input with
  | case1 b0 b1 b2 rest ih =>
    rw [List.length_append, ih]
    simp only [encodeTriple, List.length_cons, List.length_nil]
    omega
  | case2 | case3 => simp [encodeTriple]
  | case4 => rfl

lemma base64Encode_eq_ok_iff {limits : MaxSize} {input text : Bytes} :
    base64Encode limits input = .ok text ↔
      text = encodeGroups input ∧ text.length ≤ limits.string / 4 * 4 := by
  rw [base64Encode_eq]
  constructor
  · intro h
    split at h
    · cases h
    · cases h
      rw [length_encodeGroups]
      exact ⟨rfl, by omega⟩
  · rintro ⟨rfl, hlimit⟩
    rw [length_encodeGroups] at hlimit
    rw [if_neg (by omega)]

lemma base64Decode_eq (limits : MaxSize) (input : Bytes) :
    base64Decode limits input =
      match rejectInvalidBase64 input with
      | .error e => .error e
      | .ok () =>
        if input = [] then .ok []
        else if limits.bytes < input.length / 4 * 3 - paddingOf input then
          .error base64TooLargeToDecode
        else
          match base64Encode limits (decodeGroups input) with
          | .error e => .error e
          | .ok text => if text ≠ input then .error base64NotCanonical else .ok (decodeGroups input) := by
  unfold base64Decode
  split
  · rename_i e hreject
    rw [hreject]
  · rename_i hreject
    simp only [base64DecodeLoop_eq, List.drop_zero, List.nil_append]
    rw [hreject]

/-- **Decoding inverts encoding exactly**, within the sizes a string and a vector can have. -/
lemma base64Decode_eq_ok_iff {limits : MaxSize} {input : Bytes}
    (hstring : input.length ≤ limits.string) (hbytes : input.length / 4 * 3 ≤ limits.bytes)
    (output : Bytes) :
    base64Decode limits input = .ok output ↔ base64Encode limits output = .ok input := by
  rw [base64Decode_eq]
  constructor
  · intro h
    split at h
    · cases h
    · split at h
      · rename_i hnil
        cases h
        rw [hnil, base64Encode_eq_ok_iff]
        exact ⟨rfl, Nat.zero_le _⟩
      · split at h
        · cases h
        · split at h
          · cases h
          · -- The decoder encodes its result again and compares.
            rename_i text hencode
            split at h
            · cases h
            · rename_i hsame
              cases h
              rw [hencode, not_not.mp hsame]
  · intro h
    obtain ⟨rfl, hlimit⟩ := base64Encode_eq_ok_iff.mp h
    -- A text that was encoded passes every check.
    have hreject := (rejectInvalidBase64_eq_ok_iff _).mpr (isPadded_encodeGroups output)
    rw [hreject]
    simp only [decodeGroups_encodeGroups, h, ne_eq, not_true_eq_false, if_false]
    split
    · rename_i hnil
      rw [← decodeGroups_encodeGroups output, hnil]
      rfl
    · rw [if_neg (by omega)]

/-- Everything else is an encoding error. -/
lemma base64Decode_error {limits : MaxSize} {input : Bytes} {e : Error}
    (hstring : input.length ≤ limits.string) (hbytes : input.length / 4 * 3 ≤ limits.bytes)
    (h : base64Decode limits input = .error e) : e.code = .invalid_encoding := by
  rw [base64Decode_eq] at h
  split at h
  · rename_i e' hreject
    cases h
    exact rejectInvalidBase64_error hreject
  · rename_i hreject
    obtain ⟨pad, hpadded⟩ := (rejectInvalidBase64_eq_ok_iff input).mp hreject
    have hlength := length_decodeGroups hpadded
    split at h
    · cases h
    · rw [if_neg (by omega), base64Encode_eq, if_neg (by omega)] at h
      simp only at h
      split at h
      · cases h
        rfl
      · cases h

/-- **The encoder** computes the text that the definition on binary digits gives, wherever that text
fits a string. -/
theorem base64Encode_eq_bitText (limits : MaxSize) (input : Bytes) :
    base64Encode limits input =
        (if limits.string / 4 < (input.length + 2) / 3 then .error base64TooLargeToEncode
        else .ok (bitText input)) ∧
      (bitText input).length = 4 * ((input.length + 2) / 3) := by
  rw [base64Encode_eq, ← encodeGroups_eq_bitText]
  exact ⟨rfl, length_encodeGroups input⟩

example : bitText (ascii "foob") = ascii "Zm9vYg==" := by decide +kernel

/-- **The decoder** returns `b` exactly for the text of `b`, and rejects every other text as badly
encoded.  Behind the check of the characters there is padding in the last two positions only, at
the end; no number the loop uses is negative, no index is out of range, and the size that is
reserved is the size of the output. -/
theorem base64Decode_exact (limits : MaxSize) (s : Bytes) (hstring : s.length ≤ limits.string)
    (hbytes : s.length / 4 * 3 ≤ limits.bytes) :
    (∀ b, base64Decode limits s = .ok b ↔ base64Encode limits b = .ok s) ∧
    ((∀ b, base64Encode limits b ≠ .ok s) →
      ∃ e : Error, base64Decode limits s = .error e ∧ e.code = .invalid_encoding) ∧
    (rejectInvalidBase64 s = .ok () → s ≠ [] →
      (paddingOf s ≤ 2 ∧ paddingOf s ≤ s.length / 4 * 3 ∧
        ∀ (j : ℕ) (hj : j < s.length), s[j] = padding ↔ s.length ≤ j + paddingOf s) ∧
      (∀ (i : ℕ) (hi : i < s.length), i % 4 = 0 → ∃ hlast : i + 3 < s.length,
        0 ≤ decodeChar s[i] ∧ 0 ≤ decodeChar s[i + 1] ∧
        (s[i + 2] ≠ padding → 0 ≤ decodeChar s[i + 2]) ∧
        (s[i + 3] ≠ padding → 0 ≤ decodeChar s[i + 3])) ∧
      ∀ hlength, (base64DecodeLoop s hlength 0 rfl []).length =
        s.length / 4 * 3 - paddingOf s) := by
  refine ⟨base64Decode_eq_ok_iff hstring hbytes, fun hout => ?_, fun hreject hne => ?_⟩
  · cases hdecode : base64Decode limits s with
    | ok b => exact absurd ((base64Decode_eq_ok_iff hstring hbytes b).mp hdecode) (hout b)
    | error e => exact ⟨e, rfl, base64Decode_error hstring hbytes hdecode⟩
  · -- What passes the check is letters and at most two padding characters behind them.
    obtain ⟨pad, hpadded⟩ := (rejectInvalidBase64_eq_ok_iff s).mp hreject
    have hpos := List.length_pos_iff.mpr hne
    have hfour := hpadded.length
    have hpad := hpadded.pad_le
    have hvalid : ∀ {j : ℕ} (hj : j < s.length), s[j] ≠ padding → 0 ≤ decodeChar s[j] := by
      intro j hj hnot
      obtain ⟨hdata, hpadding⟩ := getElem_of_padded hpadded.data hj
      exact hdata (by by_contra hle; exact hnot (hpadding (by omega)))
    rw [hpadded.paddingOf_eq]
    refine ⟨⟨hpad, by omega, fun j hj => ?_⟩, fun i hi hi4 => ⟨by omega, ?_, ?_, ?_, ?_⟩,
      fun hlength => ?_⟩
    · obtain ⟨hdata, hpadding⟩ := getElem_of_padded hpadded.data hj
      refine ⟨fun heq => ?_, hpadding⟩
      by_contra hlt
      exact ne_padding (hdata (by omega)) heq
    · exact (getElem_of_padded hpadded.data hi).1 (by omega)
    · exact (getElem_of_padded hpadded.data (show i + 1 < s.length by omega)).1 (by omega)
    · exact hvalid (by omega)
    · exact hvalid (by omega)
    · have hcount := length_decodeGroups hpadded
      rw [hpadded.data.count_padding] at hcount
      rw [base64DecodeLoop_eq, List.drop_zero, List.nil_append]
      omega

/-- A text of two characters of padding. -/
theorem base64Decode_exact_padded :
    base64Decode ⟨4, 3⟩ (ascii "Zg==") = .ok (ascii "f") ↔
      base64Encode ⟨4, 3⟩ (ascii "f") = .ok (ascii "Zg==") :=
  (base64Decode_exact ⟨4, 3⟩ (ascii "Zg==") (by decide) (by decide)).1 (ascii "f")

end SecureKit
