import SecureKit.Cli.KeyFile

/-!
# The options of the command line

The part of `src/cli/commands.cpp` that parses options: the usage texts, the functions that turn the
value of an option into a key, a password or bytes, and the six parsers of options in any order.

`argv` is a list of strings, of which `argc` is the length.  The six parsers share their frame, which
is written once (`OptionParser`): a test of `argc`, the loop over the pairs, and a test that nothing is
missing.  Each keeps the body of its own loop.

A file that a parser reads is what opening it delivers at that time (`Files`).
-/

namespace SecureKit.Cli.CommandLine

open ByteString Effect Iostream Evp Posix File

/-! ## Usage texts -/

def wrapKeyUsage : String :=
  "Usage:\n  securekit wrap-key (--key-hex <64-hex>|--key-file <path>) " ++
    "(--wrapping-key-hex <64-hex>|--wrapping-key-file <path>) [--out <path>]"

def unwrapKeyUsage : String :=
  "Usage:\n  securekit unwrap-key (--packet-hex <hex>|--packet-file <path>) " ++
    "(--wrapping-key-hex <64-hex>|--wrapping-key-file <path>) [--out <path>]"

/-- `packet_command_usage` -/
def packetCommandUsage (command : Bytes) : String :=
  if command = ascii "encrypt" then
    "Usage:\n  securekit encrypt (--text <text>|--in <path>) (--key-hex <64-hex>|--key-file <path>) " ++
      "[--aad-text <text>|--aad-hex <hex>] [--out <path>]"
  else
    "Usage:\n  securekit decrypt (--packet-hex <hex>|--packet-file <path>) " ++
      "(--key-hex <64-hex>|--key-file <path>) [--aad-text <text>|--aad-hex <hex>] [--out <path>]"

/-- `file_command_usage` -/
def fileCommandUsage (command : Bytes) : String :=
  if command = ascii "seal-file" then
    "Usage:\n  securekit seal-file --in <path|-> --out <path|-> (--key-hex <64-hex>|--key-file <path>) " ++
      "[--aad-text <text>|--aad-hex <hex>]"
  else if command = ascii "open-file" then
    "Usage:\n  securekit open-file --in <path|-> --out <path|-> (--key-hex <64-hex>|--key-file <path>) " ++
      "[--aad-text <text>|--aad-hex <hex>]"
  else
    "Usage:\n  securekit verify-file --in <path|-> (--key-hex <64-hex>|--key-file <path>) " ++
      "[--aad-text <text>|--aad-hex <hex>]"

/-- `password_file_command_usage` -/
def passwordFileCommandUsage (command : Bytes) : String :=
  if command = ascii "seal-file-password" then
    "Usage:\n  securekit seal-file-password --in <path|-> --out <path|-> --password-file <path> " ++
      "[--aad-text <text>|--aad-hex <hex>]"
  else if command = ascii "open-file-password" then
    "Usage:\n  securekit open-file-password --in <path|-> --out <path|-> --password-file <path> " ++
      "[--aad-text <text>|--aad-hex <hex>]"
  else
    "Usage:\n  securekit verify-file-password --in <path|-> --password-file <path> " ++
      "[--aad-text <text>|--aad-hex <hex>]"

/-! ## Values -/

/-- A string as a message: each character is a byte of it. -/
def textOf (text : Bytes) : String := String.ofList (text.map fun ch => Char.ofNat ch.toNat)

def unsupportedCommand : Failure := .runtime_error "unsupported command"

/-- `securekit::hex_decode` -/
def decodeHex (text : Bytes) : Except Failure Bytes := (hexDecode text).mapError .error

/-- `password_from_file` -/
def passwordFromFile (files : Files) (path : Path) : Except Failure Bytes := do
  let password ← readFile files path
  if password = [] then .error (.runtime_error "password must not be empty") else .ok password

/-- `key_from_option` -/
def keyFromOption (files : Files) (option value : Bytes) : Except Failure key256 :=
  if option = ascii "--key-hex" then keyFromHex value
  else if option = ascii "--key-file" then keyFromFile files value
  else .error unsupportedCommand

/-- `wrapping_key_from_option` -/
def wrappingKeyFromOption (files : Files) (option value : Bytes) : Except Failure key256 :=
  if option = ascii "--wrapping-key-hex" then keyFromHex value
  else if option = ascii "--wrapping-key-file" then keyFromFile files value
  else .error unsupportedCommand

/-- `aad_from_option`, with `bytes_from_text` -/
def aadFromOption (option value : Bytes) : Except Failure Bytes :=
  if option = ascii "--aad-text" then .ok value
  else if option = ascii "--aad-hex" then decodeHex value
  else .error unsupportedCommand

/-- `option == "--packet-hex" ? hex_decode(value) : read_file(value)` -/
def packetFromOption (files : Files) (option value : Bytes) : Except Failure Bytes :=
  if option = ascii "--packet-hex" then decodeHex value else readFile files value

/-- `option == "--text" ? bytes_from_text(value) : read_file(value)` -/
def plaintextFromOption (files : Files) (option value : Bytes) : Except Failure Bytes :=
  if option = ascii "--text" then .ok value else readFile files value

/-- `reject_duplicate` -/
def rejectDuplicate (alreadySet : Bool) (option : Bytes) : Except Failure Unit :=
  if alreadySet then .error (.runtime_error ("duplicate option: " ++ textOf option)) else .ok ()

/-- `if (already_set) throw std::runtime_error("conflicting … options")` -/
def rejectConflict (alreadySet : Bool) (what : String) : Except Failure Unit :=
  if alreadySet then .error (.runtime_error ("conflicting " ++ what ++ " options")) else .ok ()

/-- `is_standard_stream_marker` -/
def isStandardStreamMarker (value : Bytes) : Bool := value = ascii "-"

/-! ## The frame of the parsers -/

/-- What distinguishes the six parsers. -/
structure OptionParser (ρ : Type) where
  /-- The usage of the command. -/
  usage : String
  /-- The smallest `argc`. -/
  least : ℕ
  /-- `options` before the loop. -/
  initial : ρ
  /-- The body of the loop. -/
  body : ρ → (option value : Bytes) → Except Failure ρ
  /-- Nothing is missing behind the loop. -/
  complete : ρ → Bool

variable {ρ : Type}

/-- `for (int index = 2; index < argc; index += 2)`, from a given `index` on. -/
def forPairs (body : ρ → (option value : Bytes) → Except Failure ρ) (argv : List Bytes) (index : ℕ)
    (heven : (argv.length - index) % 2 = 0) (options : ρ) : Except Failure ρ :=
  if h : index < argv.length then do
    let option := argv[index]
    let value := argv[index + 1]
    let options ← body options option value
    forPairs body argv (index + 2) (by omega) options
  else .ok options
termination_by argv.length - index

/-- A parser of options. -/
def OptionParser.parse (p : OptionParser ρ) (argv : List Bytes) : Except Failure ρ :=
  let argc := argv.length
  if h : argc < p.least ∨ (argc - 2) % 2 ≠ 0 then .error (.runtime_error p.usage)
  else do
    let options ← forPairs p.body argv 2 (by omega) p.initial
    if p.complete options = false then .error (.runtime_error p.usage) else .ok options

/-! ## The options -/

/-- `file_command_options` -/
structure FileCommandOptions where
  input : Path := []
  output : Path := []
  key : key256 := ByteArr.zeros 32
  aad : Bytes := []
  has_input : Bool := false
  has_output : Bool := false
  has_key : Bool := false
  has_aad : Bool := false
  input_is_stdin : Bool := false
  output_is_stdout : Bool := false

/-- `password_file_command_options` -/
structure PasswordFileCommandOptions where
  input : Path := []
  output : Path := []
  password : Bytes := []
  aad : Bytes := []
  has_input : Bool := false
  has_output : Bool := false
  has_password : Bool := false
  has_aad : Bool := false
  input_is_stdin : Bool := false
  output_is_stdout : Bool := false

/-- `wrap_key_options` -/
structure WrapKeyOptions where
  key : key256 := ByteArr.zeros 32
  wrapping_key : key256 := ByteArr.zeros 32
  output : Path := []
  has_key : Bool := false
  has_wrapping_key : Bool := false
  has_output : Bool := false

/-- `unwrap_key_options` -/
structure UnwrapKeyOptions where
  packet : Bytes := []
  wrapping_key : key256 := ByteArr.zeros 32
  output : Path := []
  has_packet : Bool := false
  has_wrapping_key : Bool := false
  has_output : Bool := false

/-- `encrypt_options` -/
structure EncryptOptions where
  plaintext : Bytes := []
  key : key256 := ByteArr.zeros 32
  aad : Bytes := []
  output : Path := []
  has_plaintext : Bool := false
  has_key : Bool := false
  has_aad : Bool := false
  has_output : Bool := false

/-- `decrypt_options` -/
structure DecryptOptions where
  packet : Bytes := []
  key : key256 := ByteArr.zeros 32
  aad : Bytes := []
  output : Path := []
  has_packet : Bool := false
  has_key : Bool := false
  has_aad : Bool := false
  has_output : Bool := false

/-! ## The parsers -/

section Parsers

variable (files : Files)

/-- The body of `parse_file_command_options`. -/
def fileCommandOption (requiresOutput : Bool) (options : FileCommandOptions)
    (option value : Bytes) : Except Failure FileCommandOptions :=
  let unsupported := Failure.runtime_error ("unsupported file option: " ++ textOf option)
  if option = ascii "--in" then do
    rejectDuplicate options.has_input option
    return { options with
      input := value, input_is_stdin := isStandardStreamMarker value, has_input := true }
  else if option = ascii "--out" then
    if requiresOutput = false then .error unsupported
    else do
      rejectDuplicate options.has_output option
      return { options with
        output := value, output_is_stdout := isStandardStreamMarker value, has_output := true }
  else if option = ascii "--key-hex" ∨ option = ascii "--key-file" then do
    rejectConflict options.has_key "key"
    let key ← keyFromOption files option value
    return { options with key, has_key := true }
  else if option = ascii "--aad-text" ∨ option = ascii "--aad-hex" then do
    rejectConflict options.has_aad "AAD"
    let aad ← aadFromOption option value
    return { options with aad, has_aad := true }
  else .error unsupported

/-- `parse_file_command_options` -/
def parseFileCommandOptions (argv : List Bytes) : Except Failure FileCommandOptions :=
  let command := argv.getD 1 []
  let requiresOutput : Bool := command ≠ ascii "verify-file"
  OptionParser.parse
    { usage := fileCommandUsage command
      least := if requiresOutput then 8 else 6
      initial := {}
      body := fileCommandOption files requiresOutput
      complete := fun options =>
        !(!options.has_input || (requiresOutput && !options.has_output) || !options.has_key) }
    argv

/-- The body of `parse_password_file_command_options`. -/
def passwordFileCommandOption (requiresOutput : Bool) (options : PasswordFileCommandOptions)
    (option value : Bytes) : Except Failure PasswordFileCommandOptions :=
  let unsupported := Failure.runtime_error ("unsupported password file option: " ++ textOf option)
  if option = ascii "--in" then do
    rejectDuplicate options.has_input option
    return { options with
      input := value, input_is_stdin := isStandardStreamMarker value, has_input := true }
  else if option = ascii "--out" then
    if requiresOutput = false then .error unsupported
    else do
      rejectDuplicate options.has_output option
      return { options with
        output := value, output_is_stdout := isStandardStreamMarker value, has_output := true }
  else if option = ascii "--password-file" then do
    rejectDuplicate options.has_password option
    let password ← passwordFromFile files value
    return { options with password, has_password := true }
  else if option = ascii "--aad-text" ∨ option = ascii "--aad-hex" then do
    rejectConflict options.has_aad "AAD"
    let aad ← aadFromOption option value
    return { options with aad, has_aad := true }
  else .error unsupported

/-- `parse_password_file_command_options` -/
def parsePasswordFileCommandOptions (argv : List Bytes) :
    Except Failure PasswordFileCommandOptions :=
  let command := argv.getD 1 []
  let requiresOutput : Bool := command ≠ ascii "verify-file-password"
  OptionParser.parse
    { usage := passwordFileCommandUsage command
      least := if requiresOutput then 8 else 6
      initial := {}
      body := passwordFileCommandOption files requiresOutput
      complete := fun options =>
        !(!options.has_input || (requiresOutput && !options.has_output) || !options.has_password) }
    argv

/-- The body of `parse_wrap_key_options`. -/
def wrapKeyOption (options : WrapKeyOptions) (option value : Bytes) :
    Except Failure WrapKeyOptions :=
  if option = ascii "--key-hex" ∨ option = ascii "--key-file" then do
    rejectConflict options.has_key "key"
    let key ← keyFromOption files option value
    return { options with key, has_key := true }
  else if option = ascii "--wrapping-key-hex" ∨ option = ascii "--wrapping-key-file" then do
    rejectConflict options.has_wrapping_key "wrapping key"
    let wrapping_key ← wrappingKeyFromOption files option value
    return { options with wrapping_key, has_wrapping_key := true }
  else if option = ascii "--out" then do
    rejectDuplicate options.has_output option
    return { options with output := value, has_output := true }
  else .error (.runtime_error ("unsupported key wrapping option: " ++ textOf option))

/-- `parse_wrap_key_options` -/
def parseWrapKeyOptions (argv : List Bytes) : Except Failure WrapKeyOptions :=
  OptionParser.parse
    { usage := wrapKeyUsage
      least := 6
      initial := {}
      body := wrapKeyOption files
      complete := fun options => !(!options.has_key || !options.has_wrapping_key) }
    argv

/-- The body of `parse_unwrap_key_options`. -/
def unwrapKeyOption (options : UnwrapKeyOptions) (option value : Bytes) :
    Except Failure UnwrapKeyOptions :=
  if option = ascii "--packet-hex" ∨ option = ascii "--packet-file" then do
    rejectConflict options.has_packet "packet"
    let packet ← packetFromOption files option value
    return { options with packet, has_packet := true }
  else if option = ascii "--wrapping-key-hex" ∨ option = ascii "--wrapping-key-file" then do
    rejectConflict options.has_wrapping_key "wrapping key"
    let wrapping_key ← wrappingKeyFromOption files option value
    return { options with wrapping_key, has_wrapping_key := true }
  else if option = ascii "--out" then do
    rejectDuplicate options.has_output option
    return { options with output := value, has_output := true }
  else .error (.runtime_error ("unsupported key wrapping option: " ++ textOf option))

/-- `parse_unwrap_key_options` -/
def parseUnwrapKeyOptions (argv : List Bytes) : Except Failure UnwrapKeyOptions :=
  OptionParser.parse
    { usage := unwrapKeyUsage
      least := 6
      initial := {}
      body := unwrapKeyOption files
      complete := fun options => !(!options.has_packet || !options.has_wrapping_key) }
    argv

/-- The body of `parse_encrypt_options`. -/
def encryptOption (options : EncryptOptions) (option value : Bytes) :
    Except Failure EncryptOptions :=
  if option = ascii "--text" ∨ option = ascii "--in" then do
    rejectConflict options.has_plaintext "input"
    let plaintext ← plaintextFromOption files option value
    return { options with plaintext, has_plaintext := true }
  else if option = ascii "--key-hex" ∨ option = ascii "--key-file" then do
    rejectConflict options.has_key "key"
    let key ← keyFromOption files option value
    return { options with key, has_key := true }
  else if option = ascii "--aad-text" ∨ option = ascii "--aad-hex" then do
    rejectConflict options.has_aad "AAD"
    let aad ← aadFromOption option value
    return { options with aad, has_aad := true }
  else if option = ascii "--out" then do
    rejectDuplicate options.has_output option
    return { options with output := value, has_output := true }
  else .error (.runtime_error ("unsupported packet option: " ++ textOf option))

/-- `parse_encrypt_options` -/
def parseEncryptOptions (argv : List Bytes) : Except Failure EncryptOptions :=
  OptionParser.parse
    { usage := packetCommandUsage (argv.getD 1 [])
      least := 6
      initial := {}
      body := encryptOption files
      complete := fun options => !(!options.has_plaintext || !options.has_key) }
    argv

/-- The body of `parse_decrypt_options`. -/
def decryptOption (options : DecryptOptions) (option value : Bytes) :
    Except Failure DecryptOptions :=
  if option = ascii "--packet-hex" ∨ option = ascii "--packet-file" then do
    rejectConflict options.has_packet "packet"
    let packet ← packetFromOption files option value
    return { options with packet, has_packet := true }
  else if option = ascii "--key-hex" ∨ option = ascii "--key-file" then do
    rejectConflict options.has_key "key"
    let key ← keyFromOption files option value
    return { options with key, has_key := true }
  else if option = ascii "--aad-text" ∨ option = ascii "--aad-hex" then do
    rejectConflict options.has_aad "AAD"
    let aad ← aadFromOption option value
    return { options with aad, has_aad := true }
  else if option = ascii "--out" then do
    rejectDuplicate options.has_output option
    return { options with output := value, has_output := true }
  else .error (.runtime_error ("unsupported packet option: " ++ textOf option))

/-- `parse_decrypt_options` -/
def parseDecryptOptions (argv : List Bytes) : Except Failure DecryptOptions :=
  OptionParser.parse
    { usage := packetCommandUsage (argv.getD 1 [])
      least := 6
      initial := {}
      body := decryptOption files
      complete := fun options => !(!options.has_packet || !options.has_key) }
    argv

end Parsers

end SecureKit.Cli.CommandLine
