import SecureKit.Codec.Base64Url
import SecureKit.Packet.Stream
import SecureKit.Cli.CommandLine

/-!
# The command line tool

`src/cli/commands.cpp`: `run`, the function behind `main`, with what it prints and the functions it
calls that are not in other files here (`write_bytes`, `parse_size`, and `wrap_key` and `unwrap_key` of
`src/key_wrap.cpp`).

A run works on a `Session`, which is what a command works on, and standard error.  `Host` has what the
run depends on besides its arguments and the file system.  A branch computes a `Task`, and `run`
performs it.

Standard output is an `OStream`, which takes bytes as they are written and at some point no more.
Whether what it has taken can still be written when it is flushed is `Host.flushes`;
`run_streaming_file_command` asks for a flush, and otherwise there is one when the program ends.
-/

namespace SecureKit.Cli.CommandLine

/-- What the streams of a file command are. -/
def FileCommandOptions.streams (options : FileCommandOptions) : Cli.FileCommandOptions where
  input := options.input
  output := options.output
  aad := options.aad
  input_is_stdin := options.input_is_stdin
  output_is_stdout := options.output_is_stdout

def PasswordFileCommandOptions.streams (options : PasswordFileCommandOptions) :
    Cli.FileCommandOptions where
  input := options.input
  output := options.output
  aad := options.aad
  input_is_stdin := options.input_is_stdin
  output_is_stdout := options.output_is_stdout

end SecureKit.Cli.CommandLine

namespace SecureKit.Cli.Dispatch

open ByteString Effect Iostream Evp Posix File CommandLine

/-! ## Sessions -/

/-- What a run depends on. -/
structure Host where
  ssl : Openssl
  digests : Digests
  limits : MaxSize
  /-- What standard output has in its buffer can be written. -/
  flushes : Bool

/-- What a run works on. -/
structure Session (kernel : Kernel) where
  world : World (Command kernel)
  cerr : Bytes := []

/-- The start of the program, with a `std::cout` that takes so many bytes. -/
def Session.start (kernel : Kernel) (cin : IStream) (room : Option ℕ) (lib : Lib) :
    Session kernel where
  world := { input := cin, output := { cout := { room } }, lib }

variable {kernel : Kernel} {α : Type}

/-- A part of a run that may throw. -/
abbrev Run (kernel : Kernel) := EStateM Failure (Session kernel)

/-- Work on the streams, the file system and the library. -/
def onWorld (m : Action kernel α) : Run kernel α :=
  zoom Session.world (fun world s => { s with world }) m

/-! ## Output -/

/-- `std::cout << text` -/
def print (text : Bytes) : Action kernel Unit :=
  onCommand (modify fun c => { c with cout := c.cout.write text })

/-- `std::cout << text << '\n'` -/
def printLine (text : Bytes) : Action kernel Unit := do
  print text
  print [0x0a]

/-- The loop of `write_bytes`. -/
def putBytes : Bytes → Action kernel Unit
  | [] => return
  | byte :: bytes => do
    print [byte]
    putBytes bytes

/-- `write_bytes` -/
def writeBytes (bytes : Bytes) : Action kernel Unit := do
  putBytes bytes
  print [0x0a]

/-- `std::cout.flush()` -/
def flushStdout (flushes : Bool) : Action kernel Unit :=
  onCommand (modify fun c =>
    if c.cout.state.good = true ∧ flushes = false then
      { c with cout := { c.cout with state := { c.cout.state with badbit := true } } }
    else c)

/-- `fail` -/
def fail (message : String) : Run kernel ℕ := do
  modify fun s => { s with cerr := s.cerr ++ (ascii message ++ [0x0a]) }
  return 1

/-! ## Usage texts -/

/-- What `print_help` prints. -/
def helpText : String :=
  "Usage:\n" ++
  "  securekit version\n" ++
  "  securekit --version\n" ++
  "  securekit token <byte-size>\n" ++
  "  securekit sha256 --text <text>\n" ++
  "  securekit sha256 --file <path>\n" ++
  "  securekit hmac-sha256 --key-hex <hex> --text <text>\n" ++
  "  securekit hmac-sha256 --key-hex <hex> --file <path>\n" ++
  "  securekit hkdf-sha256 --key-hex <hex> --salt-hex <hex> --info-hex <hex> --out-size " ++
  "<byte-size>\n" ++
  "  securekit hkdf-sha256 --key-hex <hex> --salt-hex <hex> --info-text <text> --out-size " ++
  "<byte-size>\n" ++
  "  securekit hex-encode --text <text>\n" ++
  "  securekit hex-decode --text <hex>\n" ++
  "  securekit base64url-encode --text <text>\n" ++
  "  securekit base64url-decode --text <base64url>\n" ++
  "  securekit keygen --out <path>\n" ++
  "  securekit wrap-key (--key-hex <64-hex>|--key-file <path>) " ++
  "(--wrapping-key-hex <64-hex>|--wrapping-key-file <path>) [--out <path>]\n" ++
  "  securekit unwrap-key (--packet-hex <hex>|--packet-file <path>) " ++
  "(--wrapping-key-hex <64-hex>|--wrapping-key-file <path>) [--out <path>]\n" ++
  "  securekit encrypt (--text <text>|--in <path>) (--key-hex <64-hex>|--key-file <path>) " ++
  "[--aad-text <text>|--aad-hex <hex>] [--out <path>]\n" ++
  "  securekit decrypt (--packet-hex <hex>|--packet-file <path>) " ++
  "(--key-hex <64-hex>|--key-file <path>) [--aad-text <text>|--aad-hex <hex>] [--out <path>]\n" ++
  "  securekit seal-file --in <path|-> --out <path|-> --key-hex <64-hex> " ++
  "[--aad-text <text>|--aad-hex <hex>]\n" ++
  "  securekit open-file --in <path|-> --out <path|-> --key-hex <64-hex> " ++
  "[--aad-text <text>|--aad-hex <hex>]\n" ++
  "  securekit seal-file --in <path|-> --out <path|-> --key-file <path> " ++
  "[--aad-text <text>|--aad-hex <hex>]\n" ++
  "  securekit open-file --in <path|-> --out <path|-> --key-file <path> " ++
  "[--aad-text <text>|--aad-hex <hex>]\n" ++
  "  securekit verify-file --in <path|-> --key-hex <64-hex> " ++
  "[--aad-text <text>|--aad-hex <hex>]\n" ++
  "  securekit verify-file --in <path|-> --key-file <path> " ++
  "[--aad-text <text>|--aad-hex <hex>]\n" ++
  "  securekit seal-file-password --in <path|-> --out <path|-> --password-file <path> " ++
  "[--aad-text <text>|--aad-hex <hex>]\n" ++
  "  securekit open-file-password --in <path|-> --out <path|-> --password-file <path> " ++
  "[--aad-text <text>|--aad-hex <hex>]\n" ++
  "  securekit verify-file-password --in <path|-> --password-file <path> " ++
  "[--aad-text <text>|--aad-hex <hex>]\n" ++
  "  securekit help [command]\n"

def versionUsage : String := "Usage:\n  securekit version\n  securekit --version"

/-- `securekit::version()`, which the build takes from `CMakeLists.txt` -/
def version : String := "0.2.1"

def tokenUsage : String := "Usage:\n  securekit token <byte-size>"

def sha256Usage : String :=
  "Usage:\n  securekit sha256 --text <text>\n  securekit sha256 --file <path>"

def hmacSha256Usage : String :=
  "Usage:\n  securekit hmac-sha256 --key-hex <hex> --text <text>\n  securekit hmac-sha256 --key-hex " ++
    "<hex> --file <path>"

def hkdfSha256Usage : String :=
  "Usage:\n  securekit hkdf-sha256 --key-hex <hex> --salt-hex <hex> --info-hex <hex> --out-size " ++
    "<byte-size>\n  securekit hkdf-sha256 --key-hex <hex> --salt-hex <hex> --info-text <text> " ++
    "--out-size <byte-size>"

def hexEncodeUsage : String := "Usage:\n  securekit hex-encode --text <text>"

def hexDecodeUsage : String := "Usage:\n  securekit hex-decode --text <hex>"

def base64urlEncodeUsage : String := "Usage:\n  securekit base64url-encode --text <text>"

def base64urlDecodeUsage : String := "Usage:\n  securekit base64url-decode --text <base64url>"

def keygenUsage : String := "Usage:\n  securekit keygen --out <path>"

/-- The usage that `print_command_help` prints, for the commands it knows. -/
def commandHelp (command : Bytes) : Option String :=
  if command = ascii "version" then some versionUsage
  else if command = ascii "token" then some tokenUsage
  else if command = ascii "sha256" then some sha256Usage
  else if command = ascii "hmac-sha256" then some hmacSha256Usage
  else if command = ascii "hkdf-sha256" then some hkdfSha256Usage
  else if command = ascii "hex-encode" then some hexEncodeUsage
  else if command = ascii "hex-decode" then some hexDecodeUsage
  else if command = ascii "base64url-encode" then some base64urlEncodeUsage
  else if command = ascii "base64url-decode" then some base64urlDecodeUsage
  else if command = ascii "keygen" then some keygenUsage
  else if command = ascii "wrap-key" then some wrapKeyUsage
  else if command = ascii "unwrap-key" then some unwrapKeyUsage
  else if command = ascii "encrypt" then some (packetCommandUsage command)
  else if command = ascii "decrypt" then some (packetCommandUsage command)
  else if command = ascii "seal-file" then some (fileCommandUsage command)
  else if command = ascii "open-file" then some (fileCommandUsage command)
  else if command = ascii "verify-file" then some (fileCommandUsage command)
  else if command = ascii "seal-file-password" then some (passwordFileCommandUsage command)
  else if command = ascii "open-file-password" then some (passwordFileCommandUsage command)
  else if command = ascii "verify-file-password" then some (passwordFileCommandUsage command)
  else none

/-! ## Values -/

def sizeError : Failure := .runtime_error "byte-size must be a positive decimal integer"

/-- The digits `std::from_chars` reads, and the number they spell. -/
def isDigit (ch : UInt8) : Bool := '0'.toUInt8 ≤ ch && ch ≤ '9'.toUInt8

def decimal (digits : Bytes) : ℕ :=
  digits.foldl (fun value ch => 10 * value + (ch.toNat - '0'.toUInt8.toNat)) 0

/-- `parse_size`.  `std::from_chars` fails where there is no digit or the number is no `std::size_t`,
and stops behind the last digit. -/
def parseSize (text : Bytes) : Except Failure ℕ :=
  if text = [] then .error sizeError
  else
    let digits := text.takeWhile isDigit
    let value := decimal digits
    if digits = [] ∨ 2 ^ 64 ≤ value ∨ digits.length ≠ text.length ∨ value = 0 then .error sizeError
    else .ok value

/-- A function of the library that has no state. -/
def library {σ : Type} (m : Except Error α) : EStateM Failure σ α := securekit (exceptResult m)

/-- A function of the library that calls OpenSSL. -/
def onLibrary (m : Eff Lib α) : Action kernel α := securekit (File.onLib m)

/-- The files as they are now. -/
def filesOf (w : World (Command kernel)) : Files := fun path =>
  kernel.openInput w.output.trace.length path

/-- A function that reads files. -/
def withFiles (m : Files → Except Failure α) : Action kernel α := do
  exceptResult (m (filesOf (← get)))

/-! ## Key wrapping -/

/-- `wrap_key`, without additional data -/
def wrapKey (ssl : Openssl) (keyToWrap wrappingKey : key256) : Eff Lib Bytes :=
  Packet.encrypt ssl keyToWrap wrappingKey []

/-- `unwrap_key`, without additional data -/
def unwrapKey (ssl : Openssl) (packet : Bytes) (wrappingKey : key256) : Eff Lib key256 := do
  let keyBytes ← Packet.decrypt ssl packet wrappingKey []
  throwIf (keyBytes.length ≠ 32) (⟨.invalid_packet, "Invalid wrapped key packet"⟩ : Error)
  return ByteArr.ofBytes 32 keyBytes

/-! ## Tasks

Every branch of `run` that returns 0 ends with a statement that leaves a result somewhere, or runs a
file command.  A `Task` is this statement with its arguments; what the branch does before is to read
and compute them.
-/

/-- What a branch of `run` does last. -/
inductive Task
  | print (text : Bytes)
  | printLine (text : Bytes)
  | writeBytes (bytes : Bytes)
  | writeBinaryFile (path : Path) (bytes : Bytes)
  | writeKeyFile (path : Path) (key : key256)
  /-- `seal_file` or one of its siblings, with standard streams or with paths. -/
  | runOperation (options : Cli.FileCommandOptions) (operation : Operation)
  | verifyFile (options : Cli.FileCommandOptions) (key : key256)
  | verifyFilePassword (options : Cli.FileCommandOptions) (password : Bytes)

section Tasks

variable (host : Host)

/-- `run_streaming_file_command` with its flush: a stream that has failed before is not flushed, and
both tests throw the same. -/
def runStreaming (options : Cli.FileCommandOptions) (operation : Operation) : Action kernel Unit := do
  streamingCommand host.ssl options operation
  if options.output_is_stdout then
    flushStdout host.flushes
    throwIf ((← get).output.cout.state.fail = true) outputFailure

/-- A path overload, which has an input and an output of its own. -/
def runPath (call : PathCall) : Action kernel Unit :=
  zoom
    (fun w => { PathCall.initial kernel w.lib with
      output := { trace := w.output.trace }, chunks := w.chunks })
    (fun w' w => { w with
      output := { w.output with trace := w'.output.trace }, lib := w'.lib, chunks := w'.chunks })
    (securekit (call.body host.ssl kernel))

/-- `seal-file` and its siblings, with their options. -/
def runOperation (options : Cli.FileCommandOptions) (operation : Operation) : Action kernel Unit :=
  let usesStandardStream := options.input_is_stdin || options.output_is_stdout
  if usesStandardStream then runStreaming host options operation
  else runPath host ⟨operation, options.input, options.output, options.aad⟩

def Task.perform : Task → Action kernel Unit
  | .print text => Dispatch.print text
  | .printLine text => Dispatch.printLine text
  | .writeBytes bytes => Dispatch.writeBytes bytes
  | .writeBinaryFile path bytes => Cli.writeBinaryFile host.ssl path bytes
  | .writeKeyFile path key => Cli.writeKeyFile host.ssl path key
  | .runOperation options operation => Dispatch.runOperation host options operation
  | .verifyFile options key => verifyFileCommand host.ssl options key
  | .verifyFilePassword options password => verifyFilePasswordCommand host.ssl options password

end Tasks

/-! ## Commands -/

section Commands

variable (host : Host)

/-- `token`, with its argument -/
def tokenCommand (size : Bytes) : Action kernel Task := do
  let size ← exceptResult (parseSize size)
  let token ← onLibrary (randomToken host.ssl host.limits size)
  return .printLine token

/-- `std::cout << hex_encode(bytes) << '\n'` -/
def printHex (bytes : Bytes) : Action kernel Task := do
  let text ← library (hexEncode host.limits bytes)
  return .printLine text

/-- `sha256`, with its input -/
def sha256Command (input : Files → Except Failure Bytes) : Action kernel Task := do
  let input ← withFiles input
  let digest ← library (sha256 host.digests input)
  printHex host digest

/-- `hmac-sha256`, with the key and its input.  Which of the two is read first is not specified; a
failure of either is the failure of the command. -/
def hmacSha256Command (key : Bytes) (input : Files → Except Failure Bytes) : Action kernel Task := do
  let key ← library (hexDecode key)
  let input ← withFiles input
  let mac ← library (hmacSha256 host.digests key input)
  printHex host mac

/-- `hkdf-sha256`, with its arguments, of which the same holds -/
def hkdfSha256Command (key salt : Bytes) (info : Except Error Bytes) (size : Bytes) :
    Action kernel Task := do
  let info ← library info
  let key ← library (hexDecode key)
  let salt ← library (hexDecode salt)
  let size ← exceptResult (parseSize size)
  let output ← onLibrary (hkdfSha256 host.ssl key salt info size)
  printHex host output

/-- `base64url-encode`, with its text -/
def base64urlEncodeCommand (text : Bytes) : Action kernel Task := do
  let text ← library (base64urlEncode host.limits text)
  return .printLine text

/-- `hex-decode` and `base64url-decode`, with what decoding their text gives -/
def decodeCommand (decoded : Except Error Bytes) : Action kernel Task := do
  let bytes ← library decoded
  return .writeBytes bytes

/-- `keygen`, with `write_generated_key` -/
def keygenCommand (path : Path) : Action kernel Task := do
  let key ← library (generateKey host.digests)
  return .writeKeyFile path key

/-- `wrap-key` -/
def wrapKeyCommand (argv : List Bytes) : Action kernel Task := do
  let options ← withFiles fun files => parseWrapKeyOptions files argv
  let packet ← onLibrary (wrapKey host.ssl options.key options.wrapping_key)
  if options.has_output then return .writeBinaryFile options.output packet
  else printHex host packet

/-- `unwrap-key` -/
def unwrapKeyCommand (argv : List Bytes) : Action kernel Task := do
  let options ← withFiles fun files => parseUnwrapKeyOptions files argv
  let key ← onLibrary (unwrapKey host.ssl options.packet options.wrapping_key)
  if options.has_output then return .writeKeyFile options.output key
  else printHex host key

/-- `encrypt` -/
def encryptCommand (argv : List Bytes) : Action kernel Task := do
  let options ← withFiles fun files => parseEncryptOptions files argv
  let packet ← onLibrary (Packet.encrypt host.ssl options.plaintext options.key options.aad)
  if options.has_output then return .writeBinaryFile options.output packet
  else printHex host packet

/-- `decrypt` -/
def decryptCommand (argv : List Bytes) : Action kernel Task := do
  let options ← withFiles fun files => parseDecryptOptions files argv
  let plaintext ← onLibrary (Packet.decrypt host.ssl options.packet options.key options.aad)
  if options.has_output then return .writeBinaryFile options.output plaintext
  else return .writeBytes plaintext

/-- `seal-file`, `open-file` and `verify-file` -/
def fileCommand (argv : List Bytes) : Action kernel Task := do
  let options ← withFiles fun files => parseFileCommandOptions files argv
  if argv.getD 1 [] = ascii "seal-file" then
    return .runOperation options.streams (.seal_file options.key)
  else if argv.getD 1 [] = ascii "open-file" then
    return .runOperation options.streams (.open_file options.key)
  else return .verifyFile options.streams options.key

/-- `seal-file-password`, `open-file-password` and `verify-file-password` -/
def passwordFileCommand (argv : List Bytes) : Action kernel Task := do
  let options ← withFiles fun files => parsePasswordFileCommandOptions files argv
  if argv.getD 1 [] = ascii "seal-file-password" then
    return .runOperation options.streams (.seal_file_with_password options.password)
  else if argv.getD 1 [] = ascii "open-file-password" then
    return .runOperation options.streams (.open_file_with_password options.password)
  else return .verifyFilePassword options.streams options.password

end Commands

/-! ## The dispatcher -/

/-- A branch of `run`. -/
inductive Branch (kernel : Kernel)
  /-- Compute a task, perform it and return 0. -/
  | command (m : Action kernel Task)
  /-- `return fail(message)` -/
  | refuse (message : String)

/-- The branch that `run` takes. -/
def branchOf (host : Host) (argv : List Bytes) : Branch kernel :=
  let argc := argv.length
  let arg := fun i => argv.getD i []
  let is := fun i expected => arg i = ascii expected
  if argc = 1 then .command (return .print (ascii helpText))
  else if argc = 2 ∧ (is 1 "help" ∨ is 1 "--help") then .command (return .print (ascii helpText))
  else if argc = 2 ∧ (is 1 "version" ∨ is 1 "--version") then
    .command (return .printLine (ascii "securekit " ++ ascii version))
  else if argc = 3 ∧ is 1 "help" then
    match commandHelp (arg 2) with
    | some usage => .command (return .printLine (ascii usage))
    | none => .refuse "unsupported command"
  else if argc ≥ 2 ∧ is 1 "version" then .refuse versionUsage
  else if argc = 3 ∧ is 1 "token" then .command (tokenCommand host (arg 2))
  else if argc ≥ 2 ∧ is 1 "token" then .refuse tokenUsage
  else if argc = 4 ∧ is 1 "sha256" ∧ is 2 "--text" then
    .command (sha256Command host fun _ => .ok (arg 3))
  else if argc = 4 ∧ is 1 "sha256" ∧ is 2 "--file" then
    .command (sha256Command host fun files => readFile files (arg 3))
  else if argc ≥ 2 ∧ is 1 "sha256" then .refuse sha256Usage
  else if argc = 6 ∧ is 1 "hmac-sha256" ∧ is 2 "--key-hex" ∧ is 4 "--text" then
    .command (hmacSha256Command host (arg 3) fun _ => .ok (arg 5))
  else if argc = 6 ∧ is 1 "hmac-sha256" ∧ is 2 "--key-hex" ∧ is 4 "--file" then
    .command (hmacSha256Command host (arg 3) fun files => readFile files (arg 5))
  else if argc ≥ 2 ∧ is 1 "hmac-sha256" then .refuse hmacSha256Usage
  else if argc = 10 ∧ is 1 "hkdf-sha256" ∧ is 2 "--key-hex" ∧ is 4 "--salt-hex" ∧
      is 8 "--out-size" ∧ (is 6 "--info-hex" ∨ is 6 "--info-text") then
    .command (hkdfSha256Command host (arg 3) (arg 5)
      (if is 6 "--info-hex" then hexDecode (arg 7) else .ok (arg 7)) (arg 9))
  else if argc ≥ 2 ∧ is 1 "hkdf-sha256" then .refuse hkdfSha256Usage
  else if argc = 4 ∧ is 1 "hex-encode" ∧ is 2 "--text" then .command (printHex host (arg 3))
  else if argc ≥ 2 ∧ is 1 "hex-encode" then .refuse hexEncodeUsage
  else if argc = 4 ∧ is 1 "hex-decode" ∧ is 2 "--text" then
    .command (decodeCommand (hexDecode (arg 3)))
  else if argc ≥ 2 ∧ is 1 "hex-decode" then .refuse hexDecodeUsage
  else if argc = 4 ∧ is 1 "base64url-encode" ∧ is 2 "--text" then
    .command (base64urlEncodeCommand host (arg 3))
  else if argc ≥ 2 ∧ is 1 "base64url-encode" then .refuse base64urlEncodeUsage
  else if argc = 4 ∧ is 1 "base64url-decode" ∧ is 2 "--text" then
    .command (decodeCommand (base64urlDecode host.limits (arg 3)))
  else if argc ≥ 2 ∧ is 1 "base64url-decode" then .refuse base64urlDecodeUsage
  else if argc = 4 ∧ is 1 "keygen" ∧ is 2 "--out" then .command (keygenCommand host (arg 3))
  else if argc ≥ 2 ∧ is 1 "keygen" then .refuse keygenUsage
  else if argc ≥ 2 ∧ is 1 "wrap-key" then .command (wrapKeyCommand host argv)
  else if argc ≥ 2 ∧ is 1 "unwrap-key" then .command (unwrapKeyCommand host argv)
  else if argc ≥ 2 ∧ is 1 "encrypt" then .command (encryptCommand host argv)
  else if argc ≥ 2 ∧ is 1 "decrypt" then .command (decryptCommand host argv)
  else if argc ≥ 2 ∧ (is 1 "seal-file" ∨ is 1 "open-file" ∨ is 1 "verify-file") then
    .command (fileCommand argv)
  else if argc ≥ 2 ∧ (is 1 "seal-file-password" ∨ is 1 "open-file-password" ∨
      is 1 "verify-file-password") then
    .command (passwordFileCommand argv)
  else .refuse "unsupported command"

/-- `securekit::cli::run` -/
def run (host : Host) (argv : List Bytes) : Run kernel ℕ :=
  tryCatch
    (match branchOf host argv with
    | .command m => do
      let task ← onWorld m
      onWorld (task.perform host)
      return 0
    | .refuse message => fail message)
    fun failure => fail failure.what

end SecureKit.Cli.Dispatch
