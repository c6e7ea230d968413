import Mathlib.Data.List.DropRight
import SecureKit.Codec.Base64
import SecureKit.Random

/-!
# Base64URL and random tokens

`src/base64.cpp`: `base64url_encode` and `base64url_decode`, and `random_token` of `src/random.cpp`,
which writes random bytes this way.

Both functions go through Base64: two characters of the alphabet are translated, and the padding is
removed or put back.  `dropPadding_padded` and `fillPadding_of_data` say that between the two nothing
is lost, as the padding is determined by the length.

## What is proved

`base64urlDecode_exact` has the statements that callers rely on.  A text decodes to `b` exactly if it
is the text of `b`, and any other text of an admissible size is badly encoded.  The text of a byte
string has the length it must have, only characters of the alphabet and no padding, and different
byte strings have different texts.

For `random_token` this means that tokens are as different as the bytes that were drawn: a token is
the text of these bytes, it returns for every size but zero where they can be drawn and the text fits
a string, and it throws otherwise.

`UrlFits` collects the sizes.  The decoder fills up to a multiple of four before it decodes, so the
text has to leave room for three more characters.
-/

namespace SecureKit

open ByteString Bits Effect Evp

/-! ## The functions of the source -/

/-- `is_base64url_char` -/
def isBase64urlChar (ch : UInt8) : Bool :=
  inRange 'A' 'Z' ch || inRange 'a' 'z' ch || inRange '0' '9' ch || ch = '-'.toUInt8 ||
    ch = '_'.toUInt8

def base64urlBadLength : Error := ⟨.invalid_encoding, "base64url input has invalid length"⟩

def base64urlInvalidCharacter : Error :=
  ⟨.invalid_encoding, "base64url input contains an invalid character"⟩

def base64urlTooLargeToDecode : Error := ⟨.invalid_input, "base64url input is too large to decode"⟩

def base64urlNotCanonical : Error :=
  ⟨.invalid_encoding, "base64url input is not in canonical form"⟩

/-- `reject_invalid_base64url` -/
def rejectInvalidBase64url (input : Bytes) : Except Error Unit :=
  if input.length % 4 = 1 then .error base64urlBadLength
  else if input.any fun ch => !isBase64urlChar ch then .error base64urlInvalidCharacter
  else .ok ()

/-- The first loop of `base64url_encode`, for one character. -/
def toUrlChar (ch : UInt8) : UInt8 :=
  if ch = '+'.toUInt8 then '-'.toUInt8 else if ch = '/'.toUInt8 then '_'.toUInt8 else ch

/-- The second loop of `base64url_encode`: padding is popped off the back. -/
def dropPadding (output : Bytes) : Bytes := output.rdropWhile (· = padding)

/-- `base64url_encode` -/
def base64urlEncode (limits : MaxSize) (input : Bytes) : Except Error Bytes :=
  match base64Encode limits input with
  | .error e => .error e
  | .ok output => .ok (dropPadding (output.map toUrlChar))

/-- The first loop of `base64url_decode`, for one character. -/
def ofUrlChar (ch : UInt8) : UInt8 :=
  if ch = '-'.toUInt8 then '+'.toUInt8 else if ch = '_'.toUInt8 then '/'.toUInt8 else ch

/-- The second loop of `base64url_decode`. -/
def fillPadding (padded : Bytes) : Bytes :=
  if padded.length % 4 ≠ 0 then fillPadding (padded ++ [padding]) else padded
termination_by (4 - padded.length % 4) % 4
decreasing_by
  rw [List.length_append, List.length_singleton]
  omega

/-- `base64url_decode` -/
def base64urlDecode (limits : MaxSize) (input : Bytes) : Except Error Bytes :=
  match rejectInvalidBase64url input with
  | .error e => .error e
  | .ok () =>
    if limits.string - 3 < input.length then .error base64urlTooLargeToDecode
    else
      match base64Decode limits (fillPadding (input.map ofUrlChar)) with
      | .error e => .error e
      | .ok output =>
        match base64urlEncode limits output with
        | .error e => .error e
        | .ok text => if text ≠ input then .error base64urlNotCanonical else .ok output

/-- `random_token` -/
def randomToken (ssl : Openssl) (limits : MaxSize) (byteSize : ℕ) : Eff Lib Bytes := do
  throwIf (byteSize = 0)
    (⟨.invalid_input, "random token byte size must be greater than zero"⟩ : Error)
  let drawn ← randomBytes ssl byteSize
  exceptResult (base64urlEncode limits drawn)

/-! ## The alphabet -/

/-- `A-Z`, `a-z`, `0-9`, `-`, `_` -/
def IsUrlChar (ch : UInt8) : Prop :=
  ('A'.toUInt8 ≤ ch ∧ ch ≤ 'Z'.toUInt8) ∨ ('a'.toUInt8 ≤ ch ∧ ch ≤ 'z'.toUInt8) ∨
    ('0'.toUInt8 ≤ ch ∧ ch ≤ '9'.toUInt8) ∨ ch = '-'.toUInt8 ∨ ch = '_'.toUInt8

instance (ch : UInt8) : Decidable (IsUrlChar ch) := inferInstanceAs (Decidable (_ ∨ _))

lemma isBase64urlChar_iff (ch : UInt8) : isBase64urlChar ch = true ↔ IsUrlChar ch :=
  forall_byte (p := fun ch => isBase64urlChar ch = true ↔ IsUrlChar ch) (by decide +kernel) ch

lemma isUrlChar_toUrlChar {ch : UInt8} (h : 0 ≤ decodeChar ch) : IsUrlChar (toUrlChar ch) :=
  forall_byte (p := fun ch => 0 ≤ decodeChar ch → IsUrlChar (toUrlChar ch)) (by decide +kernel) ch h

lemma ofUrlChar_toUrlChar {ch : UInt8} (h : 0 ≤ decodeChar ch) : ofUrlChar (toUrlChar ch) = ch :=
  forall_byte (p := fun ch => 0 ≤ decodeChar ch → ofUrlChar (toUrlChar ch) = ch)
    (by decide +kernel) ch h

lemma isUrlChar_ne_padding {ch : UInt8} (h : IsUrlChar ch) : ch ≠ padding := by
  rintro rfl
  exact absurd h (by decide)

/-! ## Padding -/

lemma fillPadding_eq (input : Bytes) : fillPadding input = padTo 4 padding input := by
  fun_induction fillPadding input with
  | case1 input hlength ih =>
    have hcount : (4 - input.length % 4) % 4 = (4 - (input.length + 1) % 4) % 4 + 1 := by omega
    rw [ih, padTo, padTo, List.length_append, List.length_singleton, hcount, List.append_assoc,
      List.singleton_append, List.replicate_succ]
  | case2 input hlength =>
    rw [padTo, not_not.mp hlength]
    simp

/-- The text of Base64URL: that of Base64, translated, without the padding. -/
def urlText (input : Bytes) : Bytes := dropPadding ((encodeGroups input).map toUrlChar)

/-- Translated back and filled up, it is the text of Base64. -/
lemma urlText_spec (input : Bytes) : (∀ ch ∈ urlText input, IsUrlChar ch) ∧
    fillPadding ((urlText input).map ofUrlChar) = encodeGroups input ∧
    (urlText input).length + (encodeGroups input).count padding = (encodeGroups input).length := by
  obtain ⟨pad, hlength, hpad, data, htext, hdata⟩ := isPadded_encodeGroups input
  have hurl : ∀ ch ∈ data.map toUrlChar, IsUrlChar ch := by
    intro ch hch
    obtain ⟨ch', hch', rfl⟩ := List.mem_map.mp hch
    exact isUrlChar_toUrlChar (hdata ch' hch')
  have hdrop : urlText input = data.map toUrlChar := by
    rw [urlText, htext, List.map_append, List.map_replicate, show toUrlChar padding = padding from rfl,
      dropPadding, List.rdropWhile, List.reverse_append, List.dropWhile_append_of_pos,
      ← List.rdropWhile, List.rdropWhile_eq_self_iff]
    · intro hnil
      simpa using isUrlChar_ne_padding (hurl _ (List.getLast_mem hnil))
    · simp
  have hback : (data.map toUrlChar).map ofUrlChar = data := by
    rw [List.map_map]
    conv_rhs => rw [← List.map_id data]
    exact List.map_congr_left fun ch hch => ofUrlChar_toUrlChar (hdata ch hch)
  have hsize : (encodeGroups input).length = data.length + pad := by rw [htext]; simp
  have hcount := DataAndPadding.count_padding ⟨data, htext, hdata⟩
  refine ⟨hdrop ▸ hurl, ?_, ?_⟩
  · rw [hdrop, hback, fillPadding_eq, padTo, htext, show (4 - data.length % 4) % 4 = pad by omega]
  · rw [hdrop, hcount, hsize, List.length_map]

lemma urlText_injective {b b' : Bytes} (h : urlText b = urlText b') : b = b' := by
  rw [← decodeGroups_encodeGroups b, ← (urlText_spec b).2.1, h, (urlText_spec b').2.1,
    decodeGroups_encodeGroups]

/-- Of four characters for three bytes, the padding is missing. -/
lemma length_urlText (input : Bytes) : (urlText input).length = (4 * input.length + 2) / 3 := by
  obtain ⟨pad, hpadded⟩ := isPadded_encodeGroups input
  have hcount := length_decodeGroups hpadded
  have hlength := length_encodeGroups input
  have hpad := hpadded.pad_le
  have hdropped := (urlText_spec input).2.2
  rw [decodeGroups_encodeGroups, hpadded.data.count_padding] at hcount
  rw [hpadded.data.count_padding] at hdropped
  omega

/-! ## Encoding and decoding -/

lemma base64urlEncode_eq (limits : MaxSize) (input : Bytes) :
    base64urlEncode limits input =
      if limits.string / 4 < (input.length + 2) / 3 then .error base64TooLargeToEncode
      else .ok (urlText input) := by
  rw [base64urlEncode, base64Encode_eq]
  split
  · rename_i e h
    split at h <;> cases h
    rw [if_pos ‹_›]
  · rename_i output h
    split at h <;> cases h
    rw [if_neg ‹_›, urlText]

lemma urlText_of_base64urlEncode {limits : MaxSize} {input text : Bytes}
    (h : base64urlEncode limits input = .ok text) :
    text = urlText input ∧ (input.length + 2) / 3 ≤ limits.string / 4 := by
  rw [base64urlEncode_eq] at h
  split at h
  · cases h
  · cases h
    exact ⟨rfl, by omega⟩

lemma rejectInvalidBase64url_urlText (input : Bytes) :
    rejectInvalidBase64url (urlText input) = .ok () := by
  have hlength := length_urlText input
  have hany : ¬ ((urlText input).any fun ch => !isBase64urlChar ch) = true := by
    rw [List.any_eq_true]
    rintro ⟨ch, hch, hnot⟩
    rw [(isBase64urlChar_iff ch).mpr ((urlText_spec input).1 ch hch)] at hnot
    cases hnot
  rw [rejectInvalidBase64url, if_neg (by omega), if_neg hany]

lemma rejectInvalidBase64url_error {input : Bytes} {e : Error}
    (h : rejectInvalidBase64url input = .error e) : e.code = .invalid_encoding := by
  rw [rejectInvalidBase64url] at h
  split at h
  · cases h
    rfl
  · split at h
    · cases h
      rfl
    · cases h

lemma length_fillPadding_le (input : Bytes) : (fillPadding input).length ≤ input.length + 3 := by
  rw [fillPadding_eq, padTo, List.length_append, List.length_replicate]
  omega

/-- The sizes of a text that a string and a vector can have. -/
def UrlFits (limits : MaxSize) (text : Bytes) : Prop :=
  text.length + 3 ≤ limits.string ∧ (text.length + 3) / 4 * 3 ≤ limits.bytes

instance (limits : MaxSize) (text : Bytes) : Decidable (UrlFits limits text) :=
  inferInstanceAs (Decidable (_ ∧ _))

lemma base64Decode_fillPadding_iff {limits : MaxSize} {text : Bytes} (h : UrlFits limits text)
    (output : Bytes) :
    base64Decode limits (fillPadding (text.map ofUrlChar)) = .ok output ↔
      base64Encode limits output = .ok (fillPadding (text.map ofUrlChar)) := by
  obtain ⟨hstring, hbytes⟩ := h
  have hlength := length_fillPadding_le (text.map ofUrlChar)
  rw [List.length_map] at hlength
  exact base64Decode_eq_ok_iff (by omega) (by omega) output

lemma base64urlDecode_eq_ok_iff {limits : MaxSize} {text : Bytes} (h : UrlFits limits text)
    (output : Bytes) :
    base64urlDecode limits text = .ok output ↔ base64urlEncode limits output = .ok text := by
  constructor
  · intro hdecode
    rw [base64urlDecode] at hdecode
    split at hdecode
    · cases hdecode
    · split at hdecode
      · cases hdecode
      · split at hdecode
        · cases hdecode
        · split at hdecode
          · cases hdecode
          · -- The decoder encodes its result again and compares.
            rename_i text' hencode
            split at hdecode
            · cases hdecode
            · rename_i hsame
              cases hdecode
              rw [hencode, not_not.mp hsame]
  · intro hencode
    obtain ⟨rfl, hlimit⟩ := urlText_of_base64urlEncode hencode
    -- The plain decoder gets back the text from which the padding was taken.
    have hdecode : base64Decode limits (fillPadding ((urlText output).map ofUrlChar)) = .ok output := by
      rw [base64Decode_fillPadding_iff h, (urlText_spec output).2.1, base64Encode_eq,
        if_neg (by omega)]
    have hfits := h.1
    rw [base64urlDecode, rejectInvalidBase64url_urlText, hdecode]
    simp only [hencode, ne_eq, not_true_eq_false, if_false]
    rw [if_neg (by omega)]

lemma base64urlDecode_error {limits : MaxSize} {text : Bytes} {e : Error} (hfits : UrlFits limits text)
    (h : base64urlDecode limits text = .error e) : e.code = .invalid_encoding := by
  obtain ⟨hstring, hbytes⟩ := hfits
  have hlength := length_fillPadding_le (text.map ofUrlChar)
  rw [List.length_map] at hlength
  rw [base64urlDecode] at h
  split at h
  · rename_i e' hreject
    cases h
    exact rejectInvalidBase64url_error hreject
  · rw [if_neg (by omega)] at h
    split at h
    · rename_i e' hdecode
      cases h
      exact base64Decode_error (by omega) (by omega) hdecode
    · rename_i output hdecode
      rw [base64Decode_fillPadding_iff ⟨hstring, hbytes⟩, base64Encode_eq_ok_iff] at hdecode
      have hsize := congrArg List.length hdecode.1
      rw [length_encodeGroups] at hsize
      rw [base64urlEncode_eq, if_neg (by omega)] at h
      simp only at h
      split at h
      · cases h
        rfl
      · cases h

/-- A token is the text of the bytes that were drawn. -/
lemma randomToken_eq_ok {ssl : Openssl} {limits : MaxSize} {byteSize : ℕ} {lib lib' : Lib}
    {token : Bytes} (h : randomToken ssl limits byteSize lib = .ok token lib') :
    ∃ drawn : ByteArr byteSize, randomBytes ssl byteSize lib = .ok drawn lib' ∧
      base64urlEncode limits drawn = .ok token := by
  have hrun : Outcome (randomToken ssl limits byteSize) lib (fun token lib' =>
      ∃ drawn : ByteArr byteSize, randomBytes ssl byteSize lib = .ok drawn lib' ∧
        base64urlEncode limits drawn = .ok token) (fun _ _ => True) := by
    simp only [randomToken, outcome_bind, outcome_throwIf]
    refine ⟨fun _ => trivial, fun _ => ?_⟩
    apply outcome_intro
    · intro drawn lib₁ hdrawn
      cases hencode : base64urlEncode limits drawn with
      | error e => trivial
      | ok text => exact ⟨drawn, hdrawn, hencode⟩
    · intro _ _ _
      trivial
  exact hrun.of_ok h

/-- There is a token wherever there are bytes, unless its text is too long for a string. -/
lemma exists_randomToken {ssl : Openssl} {limits : MaxSize} {n : ℕ} {lib lib' : Lib}
    {drawn : ByteArr n} (hn : 0 < n) (hdrawn : randomBytes ssl n lib = .ok drawn lib')
    (hlimit : (n + 2) / 3 ≤ limits.string / 4) :
    ∃ token, randomToken ssl limits n lib = .ok token lib' ∧ base64urlEncode limits drawn = .ok token := by
  have hencode : base64urlEncode limits drawn = .ok (urlText drawn) := by
    rw [base64urlEncode_eq, ByteArr.length_coe, if_neg (by omega)]
  refine ⟨urlText drawn, ?_, hencode⟩
  have hreturns : Returns (randomToken ssl limits n) lib fun token lib₁ =>
      token = urlText drawn ∧ lib₁ = lib' := by
    simp only [Returns, randomToken, outcome_bind, outcome_throwIf]
    refine ⟨fun hzero => by omega, fun _ => ?_⟩
    apply outcome_intro
    · intro bytes lib₁ hbytes
      obtain ⟨rfl, rfl⟩ := EStateM.Result.ok.inj (hdrawn.symm.trans hbytes)
      rw [hencode, outcome_exceptResult_ok]
      exact ⟨rfl, rfl⟩
    · intro _ _ herror
      cases hdrawn.symm.trans herror
  obtain ⟨token, lib₁, hrun, rfl, rfl⟩ := hreturns.exists_ok
  exact hrun

/-- **Base64URL** is decoded exactly as it was encoded; its texts are as short as they can be, in an
alphabet without padding, and different for different data.  So a random token spells the random
bytes, and there is one wherever at least one byte is drawn and the text fits. -/
theorem base64urlDecode_exact (limits : MaxSize) :
    (∀ s, UrlFits limits s →
      (∀ b, base64urlDecode limits s = .ok b ↔ base64urlEncode limits b = .ok s) ∧
      ((∀ b, base64urlEncode limits b ≠ .ok s) →
        ∃ e : Error, base64urlDecode limits s = .error e ∧ e.code = .invalid_encoding)) ∧
    (∀ b, (b.length + 2) / 3 ≤ limits.string / 4 → ∃ s, base64urlEncode limits b = .ok s) ∧
    (∀ b s, base64urlEncode limits b = .ok s → s.length = (4 * b.length + 2) / 3 ∧
      (∀ ch ∈ s, IsUrlChar ch) ∧ ∀ b', base64urlEncode limits b' = .ok s → b' = b) ∧
    (∀ (ssl : Openssl) (n : ℕ) (lib lib' : Lib) (token : Bytes),
      randomToken ssl limits n lib = .ok token lib' → UrlFits limits token →
      ∃ drawn : ByteArr n, randomBytes ssl n lib = .ok drawn lib' ∧
        base64urlDecode limits token = .ok drawn) ∧
    ∀ (ssl : Openssl) (n : ℕ) (lib lib' : Lib) (drawn : ByteArr n), 0 < n →
      randomBytes ssl n lib = .ok drawn lib' → (n + 2) / 3 ≤ limits.string / 4 →
      ∃ token, randomToken ssl limits n lib = .ok token lib' ∧
        base64urlEncode limits drawn = .ok token := by
  refine ⟨fun s hfits => ⟨base64urlDecode_eq_ok_iff hfits, fun hout => ?_⟩, fun b hb => ?_,
    fun b s hs => ?_, fun ssl n lib lib' token htoken hfits => ?_,
    fun ssl n lib lib' drawn => exists_randomToken⟩
  · cases hdecode : base64urlDecode limits s with
    | ok b => exact absurd ((base64urlDecode_eq_ok_iff hfits b).mp hdecode) (hout b)
    | error e => exact ⟨e, rfl, base64urlDecode_error hfits hdecode⟩
  · exact ⟨urlText b, by rw [base64urlEncode_eq, if_neg (by omega)]⟩
  · obtain ⟨rfl, -⟩ := urlText_of_base64urlEncode hs
    refine ⟨length_urlText b, (urlText_spec b).1, fun b' hb' => ?_⟩
    exact (urlText_injective (urlText_of_base64urlEncode hb').1).symm
  · obtain ⟨drawn, hdrawn, hencode⟩ := randomToken_eq_ok htoken
    exact ⟨drawn, hdrawn, (base64urlDecode_eq_ok_iff hfits _).mpr hencode⟩

end SecureKit
