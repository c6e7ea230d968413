import SecureKit.File.Payload
import SecureKit.File.Format

/-!
# What the two file formats have in common

`SKF1` files are sealed with a master key, `SKP1` files with a password.  The overloads for the
two differ in the header and in the key derivation only, and `FileFormat.Lawful` is what the
proofs about them need to know of either: its headers are those of a salt and a nonce prefix, and
the file key is a function of the salt.  Results are proved once for a lawful format;
`keyFormatLawful` and `passwordFormatLawful` instantiate them.

A `Lawful` format has laws for each of its four functions.  A header that is made is one of a drawn
salt and a drawn nonce prefix; what is serialized is parsed back, and nothing else is parsed
(`header_of_parse`); every rejection is an invalid packet (`parse_error`); and the key that is derived
depends on the salt only.  A failure of the library in one of them has the code `backend_failure`
and does not occur where it is `Available`.

`FileFormat.Lawful.envelope` collects what a file under a header has in common: the serialized header,
the nonce prefix, the key of the file and the additional data of the caller.  Everything behind the
header depends on the envelope alone, which is why the loops are stated for an envelope and not for
a format.
-/

namespace SecureKit.File

open ByteString Effect Iostream Evp


/-- A format whose headers are determined by a salt and a nonce prefix, whose parser accepts
these headers and no others, and whose file key is a function of the salt. -/
structure FileFormat.Lawful (format : FileFormat) (ssl : Openssl) (prim : Primitives) (cap : ℕ)
    where
  header : ByteArr kSaltSize → ByteArr kNoncePrefixSize → format.Header
  fileKey : ByteArr kSaltSize → key256
  header_injective : ∀ {salt salt' noncePrefix noncePrefix'},
    header salt noncePrefix = header salt' noncePrefix' → salt = salt' ∧ noncePrefix = noncePrefix'
  noncePrefix_header : ∀ salt noncePrefix,
    format.noncePrefix (header salt noncePrefix) = noncePrefix
  outcome_make : ∀ {lib : Lib} {Q : format.Header → Lib → Prop} {E : Error → Lib → Prop},
    (∀ salt noncePrefix lib', ssl.Draws salt → ssl.Draws noncePrefix →
      Q (header salt noncePrefix) lib') →
    (¬ ssl.Available prim cap → ∀ error lib', error.code = .backend_failure → E error lib') →
    Outcome format.make lib Q E
  parse_header : ∀ salt noncePrefix,
    format.parse (format.serialized (header salt noncePrefix)) = .ok (header salt noncePrefix)
  header_of_parse : ∀ {data parsed}, format.parse data = .ok parsed →
    ∃ salt noncePrefix, parsed = header salt noncePrefix ∧
      data = format.serialized (header salt noncePrefix)
  parse_error : ∀ {data error}, format.parse data = .error error → error = invalidPacket
  outcome_deriveKey : ∀ {salt noncePrefix} {lib : Lib} {Q : key256 → Lib → Prop}
    {E : Error → Lib → Prop}, (∀ lib', Q (fileKey salt) lib') →
    (¬ ssl.Available prim cap → ∀ error lib', error.code = .backend_failure → E error lib') →
    Outcome (format.deriveKey (header salt noncePrefix)) lib Q E

section Lawful

variable {ssl : Openssl} {prim : Primitives} {cap : ℕ}

/-- `SKF1` under a master key is lawful. -/
def keyFormatLawful (hs : ssl.Sound prim) (cap : ℕ) (key : key256) :
    (keyFormat ssl key).Lawful ssl prim cap where
  header := fileHeader
  fileKey := File.fileKey prim key
  header_injective h := ⟨congrArg FileHeader.salt h, congrArg FileHeader.noncePrefix h⟩
  noncePrefix_header _ _ := rfl
  outcome_make hok hfail := outcome_makeHeader hok fun h lib' => hfail h _ lib' rfl
  parse_header := parseHeader_fileHeader
  header_of_parse := eq_fileHeader_of_parseHeader
  parse_error := parseHeader_error
  outcome_deriveKey hok hfail :=
    outcome_deriveFileKey hs hok fun h lib' => hfail h _ lib' rfl

/-- `SKP1` under a password that is not empty is lawful. -/
def passwordFormatLawful (hs : ssl.Sound prim) (cap : ℕ) {password : Bytes}
    (hpassword : password ≠ []) : (passwordFormat ssl password).Lawful ssl prim cap where
  header := passwordFileHeader
  fileKey := passwordFileKey prim password
  header_injective h :=
    ⟨congrArg PasswordFileHeader.salt h, congrArg PasswordFileHeader.noncePrefix h⟩
  noncePrefix_header _ _ := rfl
  outcome_make hok hfail := outcome_makePasswordHeader hok fun h lib' => hfail h _ lib' rfl
  parse_header := parsePasswordHeader_passwordFileHeader
  header_of_parse := eq_passwordFileHeader_of_parsePasswordHeader
  parse_error := parsePasswordHeader_error
  outcome_deriveKey hok hfail :=
    outcome_derivePasswordFileKey hs hpassword hok fun h lib' => hfail h _ lib' rfl

/-- What the chunks of a file share whose header has the given salt and nonce prefix. -/
def FileFormat.Lawful.envelope {format : FileFormat} (law : format.Lawful ssl prim cap)
    (salt : ByteArr kSaltSize) (noncePrefix : ByteArr kNoncePrefixSize) (aad : Bytes) :
    Envelope where
  serialized := format.serialized (law.header salt noncePrefix)
  noncePrefix := noncePrefix
  fileKey := law.fileKey salt
  aad := aad

/-- What the chunks of an `SKF1` file share. -/
def keyEnvelope (prim : Primitives) (key : key256) (salt : ByteArr kSaltSize)
    (noncePrefix : ByteArr kNoncePrefixSize) (aad : Bytes) : Envelope where
  serialized := headerBytes salt noncePrefix
  noncePrefix := noncePrefix
  fileKey := fileKey prim key salt
  aad := aad

/-- What the chunks of an `SKP1` file share. -/
def passwordEnvelope (prim : Primitives) (password : Bytes) (salt : ByteArr kSaltSize)
    (noncePrefix : ByteArr kNoncePrefixSize) (aad : Bytes) : Envelope where
  serialized := passwordHeaderBytes salt noncePrefix
  noncePrefix := noncePrefix
  fileKey := passwordFileKey prim password salt
  aad := aad

@[simp] lemma keyFormatLawful_envelope (hs : ssl.Sound prim) (cap : ℕ) (key : key256)
    (salt : ByteArr kSaltSize) (noncePrefix : ByteArr kNoncePrefixSize) (aad : Bytes) :
    (keyFormatLawful hs cap key).envelope salt noncePrefix aad =
      keyEnvelope prim key salt noncePrefix aad := rfl

@[simp] lemma passwordFormatLawful_envelope (hs : ssl.Sound prim) (cap : ℕ) {password : Bytes}
    (hpassword : password ≠ []) (salt : ByteArr kSaltSize)
    (noncePrefix : ByteArr kNoncePrefixSize) (aad : Bytes) :
    (passwordFormatLawful hs cap hpassword).envelope salt noncePrefix aad =
      passwordEnvelope prim password salt noncePrefix aad := rfl

/-- The salt and the nonce prefix of a file can be read off its header. -/
lemma FileFormat.Lawful.serialized_injective {format : FileFormat}
    (law : format.Lawful ssl prim cap) {salt salt' : ByteArr kSaltSize}
    {noncePrefix noncePrefix' : ByteArr kNoncePrefixSize}
    (h : format.serialized (law.header salt noncePrefix) =
      format.serialized (law.header salt' noncePrefix')) :
    salt = salt' ∧ noncePrefix = noncePrefix' := by
  have hparse := law.parse_header salt noncePrefix
  rw [h, law.parse_header] at hparse
  exact law.header_injective (Except.ok.inj hparse).symm

variable {ω : Type} [Output ω]

/-- With a password the overloads only add the test for an empty one. -/
lemma sealFileWithPassword_eq {password : Bytes} (aad : Bytes) (h : password ≠ []) :
    (sealFileWithPassword ssl password aad : Eff (World ω) Unit) =
      sealStream ssl (passwordFormat ssl password) aad := by
  rw [sealFileWithPassword, requireNonEmptyPassword, throwIf, if_neg h]
  rfl

lemma openFileWithPassword_eq {password : Bytes} (aad : Bytes) (h : password ≠ []) :
    (openFileWithPassword ssl password aad : Eff (World ω) Unit) =
      openStream ssl (passwordFormat ssl password) aad := by
  rw [openFileWithPassword, requireNonEmptyPassword, throwIf, if_neg h]
  rfl

end Lawful

end SecureKit.File
