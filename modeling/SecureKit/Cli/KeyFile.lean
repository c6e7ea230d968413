import Mathlib.Data.List.DropRight
import SecureKit.Codec.Hex
import SecureKit.Cli.Delivery

/-!
# Keys on the command line

The part of `src/cli/commands.cpp` that reads a key from an argument or from a file: `key_from_hex`,
`trim_ascii_whitespace`, `read_file` and `key_from_file`.

A file that is read whole is what opening it delivers at that time, a `Source` (`Files`); reading it
leaves nothing behind, so these functions have no state.  The loops carry the bounds of the
characters they look at.

`keyFile_format` says which files are keys, and that the files `write_key_file` writes are.

## Keys and their files

`IsKeyFile` is the format: 64 hexadecimal digits of either case, with white space of ASCII around
them and nothing else.  `keyFromFile` accepts exactly these contents and gives the bytes that the
digits stand for.  The two loops of `trim_ascii_whitespace` end at the first and behind the last
character that is no white space; that the first does not run past the second is part of the result,
as the source computes a length from the two.

What `write_key_file` leaves in a file that it has delivered (`Cli.Delivery`) is of this format, so
such a file is read as the key it was written for.

A file that cannot be opened, or cannot be read to its end, is an error, with the text of the
source where it has one and a fixed text where the exception is of the library.
-/

namespace SecureKit.Cli

open ByteString Effect Iostream Evp Posix File

/-! ## The functions of the source -/

/-- `is_hex_char` -/
def isHexChar (ch : UInt8) : Bool :=
  inRange '0' '9' ch || inRange 'a' 'f' ch || inRange 'A' 'F' ch

def keyFormatError : Failure := .runtime_error "key must be 64 hex characters"

/-- `key_from_hex`.  Of the decoded bytes, the first 32 are copied. -/
def keyFromHex (text : Bytes) : Except Failure key256 :=
  if text.length ≠ 64 then .error keyFormatError
  else if text.any fun ch => !isHexChar ch then .error keyFormatError
  else
    match hexDecode text with
    | .error e => .error (.error e)
    | .ok decoded => .ok (ByteArr.ofBytes 32 decoded)

/-- `is_space`, of `trim_ascii_whitespace` -/
def isSpace (ch : UInt8) : Bool :=
  ch = 0x20 || ch = 0x09 || ch = 0x0a || ch = 0x0d || ch = 0x0c || ch = 0x0b

/-- The first loop of `trim_ascii_whitespace`. -/
def trimFirst (text : Bytes) (first : ℕ) : ℕ :=
  if h : first < text.length then
    if isSpace text[first] then trimFirst text (first + 1) else first
  else first
termination_by text.length - first

/-- The second loop of `trim_ascii_whitespace`. -/
def trimLast (text : Bytes) (first last : ℕ) (hlast : last ≤ text.length) : ℕ :=
  if h : first < last then
    if isSpace text[last - 1] then trimLast text first (last - 1) (by omega) else last
  else last

/-- `trim_ascii_whitespace` -/
def trimAsciiWhitespace (text : Bytes) : Bytes :=
  let first := trimFirst text 0
  let last := trimLast text first text.length le_rfl
  (text.drop first).take (last - first)

/-- What opening a file for reading delivers. -/
abbrev Files := Path → Option Source

/-- `read_file`.  The characters are taken from the stream buffer, which does not change the state
of the stream; the buffer throws at a read error, and a string cannot hold an endless file. -/
def readFile (files : Files) (path : Path) : Except Failure Bytes :=
  match files path with
  | none => .error (.runtime_error "failed to open input file")
  | some (.finite _ .fault) =>
    .error (.runtime_error "basic_filebuf::underflow error reading the file")
  | some (.endless _) => .error (.runtime_error "std::bad_alloc")
  | some (.finite data .eof) =>
    let state : IoState := {}
    if state.good = false ∧ state.eofbit = false then
      .error (.runtime_error "failed to read input file")
    else .ok data

/-- `key_from_file` -/
def keyFromFile (files : Files) (path : Path) : Except Failure key256 := do
  let text ← readFile files path
  keyFromHex (trimAsciiWhitespace text)

/-! ## Trimming -/

/-- The white space of ASCII. -/
def asciiWhitespace : Bytes := [0x20, 0x09, 0x0a, 0x0d, 0x0c, 0x0b]

lemma isSpace_iff (ch : UInt8) : isSpace ch = true ↔ ch ∈ asciiWhitespace := by
  simp [isSpace, asciiWhitespace, or_assoc]

lemma drop_trimFirst (text : Bytes) (first : ℕ) :
    text.drop (trimFirst text first) = (text.drop first).dropWhile isSpace := by
  fun_induction trimFirst text first with
  | case1 first h hspace ih =>
    rw [ih, List.drop_eq_getElem_cons h, List.dropWhile_cons_of_pos hspace]
  | case2 first h hspace =>
    rw [List.drop_eq_getElem_cons h, List.dropWhile_cons_of_neg hspace]
  | case3 first h => rw [List.drop_eq_nil_of_le (by omega), List.dropWhile_nil]

lemma take_trimLast (text : Bytes) (first last : ℕ) (hlast : last ≤ text.length) :
    (text.drop first).take (trimLast text first last hlast - first) =
      ((text.drop first).take (last - first)).rdropWhile isSpace := by
  have hconcat : ∀ last, (hlast : last ≤ text.length) → (h : first < last) →
      (text.drop first).take (last - first) =
        (text.drop first).take (last - 1 - first) ++ [text[last - 1]] := by
    intro last hlast h
    obtain ⟨n, rfl⟩ : ∃ n, last = first + n + 1 := ⟨last - first - 1, by omega⟩
    have hn : n < (text.drop first).length := by
      rw [List.length_drop]
      omega
    rw [show first + n + 1 - first = n + 1 by omega,
      show first + n + 1 - 1 - first = n by omega, List.take_succ_eq_append_getElem hn,
      List.getElem_drop]
    rfl
  fun_induction trimLast text first last hlast with
  | case1 last hlast h hspace ih =>
    rw [ih hconcat, hconcat last hlast h, List.rdropWhile_concat_pos _ _ _ hspace]
  | case2 last hlast h hspace => rw [hconcat last hlast h, List.rdropWhile_concat_neg _ _ _ hspace]
  | case3 last hlast h =>
    rw [show last - first = 0 by omega, List.take_zero, List.rdropWhile_nil]

lemma trimFirst_le (text : Bytes) (first : ℕ) (h : first ≤ text.length) :
    trimFirst text first ≤ text.length := by
  fun_induction trimFirst text first with
  | case1 first hlt hspace ih => exact ih hlt
  | case2 first hlt hspace => exact h
  | case3 first hlt => exact h

/-- The second loop stays behind the first. -/
lemma trimLast_bounds (text : Bytes) (first last : ℕ) (hlast : last ≤ text.length)
    (h : first ≤ last) : first ≤ trimLast text first last hlast ∧
      trimLast text first last hlast ≤ text.length := by
  fun_induction trimLast text first last hlast with
  | case1 last hlast hlt hspace ih => exact ih (by omega)
  | case2 last hlast hlt hspace => exact ⟨h, hlast⟩
  | case3 last hlast hlt => exact ⟨h, hlast⟩

/-- White space is dropped at both ends. -/
lemma trimAsciiWhitespace_eq (text : Bytes) :
    trimAsciiWhitespace text = (text.dropWhile isSpace).rdropWhile isSpace := by
  have hfirst := drop_trimFirst text 0
  rw [trimAsciiWhitespace, take_trimLast, hfirst, List.drop_zero]
  rw [List.take_of_length_le]
  have hlength := congrArg List.length hfirst
  rw [List.length_drop, List.drop_zero] at hlength
  omega

/-- The text is what was trimmed between white space. -/
lemma exists_trim (text : Bytes) : ∃ before after, text = before ++ trimAsciiWhitespace text ++ after ∧
    (∀ ch ∈ before, isSpace ch = true) ∧ ∀ ch ∈ after, isSpace ch = true := by
  refine ⟨text.takeWhile isSpace, (text.dropWhile isSpace).rtakeWhile isSpace, ?_, ?_, ?_⟩
  · rw [trimAsciiWhitespace_eq, List.append_assoc, List.rdropWhile_append_rtakeWhile,
      List.takeWhile_append_dropWhile]
  · intro ch hch
    exact List.mem_takeWhile_imp hch
  · intro ch hch
    exact List.mem_rtakeWhile_imp hch

/-- What has no white space in it is found between white space. -/
lemma trim_between {before digits after : Bytes} (hbefore : ∀ ch ∈ before, isSpace ch = true)
    (hafter : ∀ ch ∈ after, isSpace ch = true) (hne : digits ≠ [])
    (hdigits : ∀ ch ∈ digits, isSpace ch = false) :
    trimAsciiWhitespace (before ++ digits ++ after) = digits := by
  have hfront : (before ++ digits ++ after).dropWhile isSpace = digits ++ after := by
    obtain ⟨first, rest, rfl⟩ := List.exists_cons_of_ne_nil hne
    rw [List.append_assoc, List.dropWhile_append_of_pos hbefore, List.cons_append,
      List.dropWhile_cons_of_neg]
    simp [hdigits first (by simp)]
  have hback : (digits ++ after).rdropWhile isSpace = digits.rdropWhile isSpace := by
    rw [List.rdropWhile, List.reverse_append, List.dropWhile_append_of_pos, ← List.rdropWhile]
    intro ch hch
    exact hafter ch (List.mem_reverse.mp hch)
  rw [trimAsciiWhitespace_eq, hfront, hback, List.rdropWhile_eq_self_iff]
  intro hnil
  simp [hdigits _ (List.getLast_mem hnil)]

/-! ## Keys -/

lemma isHexChar_iff (ch : UInt8) : isHexChar ch = true ↔ IsHexDigit ch := by
  have hdigit : inRange '0' '9' ch = true ↔ _ := inRange_iff (by decide) (by decide) ch
  have hlower : inRange 'a' 'f' ch = true ↔ _ := inRange_iff (by decide) (by decide) ch
  have hupper : inRange 'A' 'F' ch = true ↔ _ := inRange_iff (by decide) (by decide) ch
  simp only [isHexChar, IsHexDigit, Bool.or_eq_true, hdigit, hlower, hupper, or_assoc]

lemma isSpace_of_isHexDigit {ch : UInt8} (h : IsHexDigit ch) : isSpace ch = false :=
  forall_byte (p := fun ch => IsHexDigit ch → isSpace ch = false) (by decide +kernel) ch h

/-- The text of a key. -/
def IsKeyText (text : Bytes) : Prop := text.length = 64 ∧ ∀ ch ∈ text, IsHexDigit ch

instance (text : Bytes) : Decidable (IsKeyText text) := inferInstanceAs (Decidable (_ ∧ _))

lemma IsKeyText.isHexText {text : Bytes} (h : IsKeyText text) : IsHexText text :=
  ⟨by rw [h.1], h.2⟩

lemma keyFromHex_of_not {text : Bytes} (h : ¬ IsKeyText text) :
    keyFromHex text = .error keyFormatError := by
  rw [keyFromHex]
  split
  · rfl
  · rename_i hlength
    have hany : (text.any fun ch => !isHexChar ch) = true := by
      by_contra hall
      refine h ⟨not_not.mp hlength, fun ch hch => ?_⟩
      rw [← isHexChar_iff]
      by_contra hnot
      exact hall (List.any_eq_true.mpr ⟨ch, hch, by simpa using hnot⟩)
    rw [if_pos hany]

lemma keyFromHex_of_isKeyText {text : Bytes} (h : IsKeyText text) :
    ∃ key : key256, hexDecode text = .ok (key : Bytes) ∧ keyFromHex text = .ok key := by
  obtain ⟨decoded, hdecode, -⟩ := hexDecode_of_isHexText h.isHexText
  have hlength : decoded.length = 32 := by rw [(hexText_of_hexDecode hdecode).2, h.1]
  have hany : ¬ (text.any fun ch => !isHexChar ch) = true := by
    rw [List.any_eq_true]
    rintro ⟨ch, hch, hnot⟩
    rw [(isHexChar_iff ch).mpr (h.2 ch hch)] at hnot
    cases hnot
  refine ⟨ByteArr.ofBytes 32 decoded, ?_, ?_⟩
  · rw [hdecode, ByteArr.coe_ofBytes_of_length hlength]
  · rw [keyFromHex, if_neg (not_not.mpr h.1), if_neg hany, hdecode]

/-- **The text of a key** is decoded, and nothing else is. -/
lemma keyFromHex_eq_ok_iff (text : Bytes) (key : key256) :
    keyFromHex text = .ok key ↔ IsKeyText text ∧ hexDecode text = .ok (key : Bytes) := by
  by_cases h : IsKeyText text
  · obtain ⟨key', hdecode, hkey⟩ := keyFromHex_of_isKeyText h
    rw [hkey, hdecode, Except.ok.injEq, Except.ok.injEq]
    exact ⟨fun heq => ⟨h, congrArg _ heq⟩, fun hboth => ByteArr.ext hboth.2⟩
  · rw [keyFromHex_of_not h]
    simp [h]

/-- The text of a key between white space. -/
def IsKeyFile (content digits : Bytes) : Prop :=
  ∃ before after, content = before ++ digits ++ after ∧ (∀ ch ∈ before, ch ∈ asciiWhitespace) ∧
    (∀ ch ∈ after, ch ∈ asciiWhitespace) ∧ IsKeyText digits

lemma readFile_of_eof {files : Files} {path : Path} {content : Bytes}
    (h : files path = some (.finite content .eof)) : readFile files path = .ok content := by
  simp [readFile, h]

lemma keyFromFile_of_eof {files : Files} {path : Path} {content : Bytes}
    (h : files path = some (.finite content .eof)) :
    keyFromFile files path = keyFromHex (trimAsciiWhitespace content) := by
  rw [keyFromFile, readFile_of_eof h]
  rfl

lemma IsKeyFile.trim {content digits : Bytes} (h : IsKeyFile content digits) :
    trimAsciiWhitespace content = digits := by
  obtain ⟨before, after, rfl, hbefore, hafter, hdigits⟩ := h
  refine trim_between ?_ ?_ ?_ ?_
  · intro ch hch
    exact (isSpace_iff ch).mpr (hbefore ch hch)
  · intro ch hch
    exact (isSpace_iff ch).mpr (hafter ch hch)
  · intro hnil
    have hlength := hdigits.1
    rw [hnil] at hlength
    cases hlength
  · intro ch hch
    exact isSpace_of_isHexDigit (hdigits.2 ch hch)

lemma isKeyFile_iff (content digits : Bytes) :
    IsKeyFile content digits ↔ trimAsciiWhitespace content = digits ∧ IsKeyText digits := by
  constructor
  · intro h
    exact ⟨h.trim, h.choose_spec.choose_spec.2.2.2⟩
  · rintro ⟨rfl, hdigits⟩
    obtain ⟨before, after, hcontent, hbefore, hafter⟩ := exists_trim content
    refine ⟨before, after, hcontent, ?_, ?_, hdigits⟩
    · intro ch hch
      exact (isSpace_iff ch).mp (hbefore ch hch)
    · intro ch hch
      exact (isSpace_iff ch).mp (hafter ch hch)

lemma keyFromFile_eq_ok_iff {files : Files} {path : Path} {content : Bytes}
    (h : files path = some (.finite content .eof)) (key : key256) :
    keyFromFile files path = .ok key ↔
      ∃ digits, IsKeyFile content digits ∧ hexDecode digits = .ok (key : Bytes) := by
  rw [keyFromFile_of_eof h, keyFromHex_eq_ok_iff]
  constructor
  · intro hkey
    exact ⟨_, (isKeyFile_iff content _).mpr ⟨rfl, hkey.1⟩, hkey.2⟩
  · rintro ⟨digits, hfile, hdecode⟩
    obtain ⟨rfl, hdigits⟩ := (isKeyFile_iff content digits).mp hfile
    exact ⟨hdigits, hdecode⟩

/-! ## What is written -/

lemma hexByte_eq_hexPair (byte : UInt8) : hexByte byte = hexPair byte :=
  forall_byte (p := fun byte => hexByte byte = hexPair byte) (by decide +kernel) byte

lemma flatMap_hexByte (input : Bytes) : input.flatMap hexByte = hexText input :=
  congrArg (input.flatMap ·) (funext hexByte_eq_hexPair)

/-- A key file as it is written. -/
lemma isKeyFile_hexText (key : key256) : IsKeyFile (hexText (key : Bytes) ++ [0x0a]) (hexText key) := by
  refine ⟨[], [0x0a], rfl, by simp, by simp [asciiWhitespace], ?_, fun ch => isHexDigit_hexText⟩
  rw [length_hexText, ByteArr.length_coe]

lemma outcome_writeKeyFile {kernel : Kernel} {ssl : Openssl} {w : World (Command kernel)}
    {output : Path} {key : key256} (h : w.output.Untouched) :
    Outcome (writeKeyFile ssl output key) w
      (fun _ w' => Delivered w'.output.trace output (hexText key ++ [0x0a])) (fun _ _ => True) := by
  rw [writeKeyFile, flatMap_hexByte]
  exact outcome_writeNewOutputFile_delivered h
    ((appends_ofstreamWrite _).bind (appends_ofstreamWrite _))

/-- **The key files.**  The indices of the trimming loops are in range.  A file is read as a key
exactly if it has 64 hexadecimal digits between white space, which are then decoded to 32 bytes; and
a key that `write_key_file` has delivered is read back. -/
theorem keyFile_format :
    (∀ text : Bytes, trimFirst text 0 ≤ trimLast text (trimFirst text 0) text.length le_rfl ∧
      trimLast text (trimFirst text 0) text.length le_rfl ≤ text.length) ∧
    (∀ (files : Files) (path : Path) (content : Bytes), files path = some (.finite content .eof) →
      (∀ key : key256, keyFromFile files path = .ok key ↔
        ∃ before digits after, content = before ++ digits ++ after ∧
          (∀ ch ∈ before, ch ∈ asciiWhitespace) ∧ (∀ ch ∈ after, ch ∈ asciiWhitespace) ∧
          (digits.length = 64 ∧ ∀ ch ∈ digits, IsHexDigit ch) ∧ hexDecode digits = .ok key) ∧
      ((∃ key, keyFromFile files path = .ok key) ↔
        ∃ before digits after, content = before ++ digits ++ after ∧
          (∀ ch ∈ before, ch ∈ asciiWhitespace) ∧ (∀ ch ∈ after, ch ∈ asciiWhitespace) ∧
          digits.length = 64 ∧ ∀ ch ∈ digits, IsHexDigit ch)) ∧
    ∀ (kernel : Kernel) (ssl : Openssl) (output : Path) (key : key256) (w w' : World (Command kernel)),
      w.output.trace = [] → writeKeyFile ssl output key w = .ok () w' →
      ∃ content, Delivered w'.output.trace output content ∧
        ∀ (files : Files) (path : Path), files path = some (.finite content .eof) →
          keyFromFile files path = .ok key := by
  refine ⟨fun text => ?_, fun files path content hfile => ⟨fun key => ?_, ?_⟩,
    fun kernel ssl output key w w' hstart hwrite => ?_⟩
  · exact trimLast_bounds text _ _ _ (trimFirst_le text 0 (Nat.zero_le _))
  · rw [keyFromFile_eq_ok_iff hfile]
    constructor
    · rintro ⟨digits, ⟨before, after, hcontent, hbefore, hafter, hdigits⟩, hdecode⟩
      exact ⟨before, digits, after, hcontent, hbefore, hafter, hdigits, hdecode⟩
    · rintro ⟨before, digits, after, hcontent, hbefore, hafter, hdigits, hdecode⟩
      exact ⟨digits, ⟨before, after, hcontent, hbefore, hafter, hdigits⟩, hdecode⟩
  · -- Some key is read where the digits are 64 of the right kind.
    constructor
    · rintro ⟨key, hkey⟩
      obtain ⟨digits, ⟨before, after, hfound⟩, -⟩ := (keyFromFile_eq_ok_iff hfile key).mp hkey
      exact ⟨before, digits, after, hfound⟩
    · rintro ⟨before, digits, after, hfound⟩
      have hkeyFile : IsKeyFile content digits := ⟨before, after, hfound⟩
      obtain ⟨key, hdecode, -⟩ := keyFromHex_of_isKeyText ((isKeyFile_iff _ _).mp hkeyFile).2
      exact ⟨key, (keyFromFile_eq_ok_iff hfile key).mpr ⟨digits, hkeyFile, hdecode⟩⟩
  · -- What `write_key_file` writes is the digits and a line feed.
    have huntouched : w.output.Untouched := fun file => by rw [hstart]; rfl
    refine ⟨_, (outcome_writeKeyFile huntouched).of_ok hwrite, fun files path hfile => ?_⟩
    rw [keyFromFile_eq_ok_iff hfile]
    exact ⟨hexText key, isKeyFile_hexText key, hexDecode_hexText key⟩

end SecureKit.Cli
