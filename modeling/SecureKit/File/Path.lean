import SecureKit.File.OutputFile
import SecureKit.File.Payload

/-!
# The path overloads

`src/file.cpp`: the overloads of `seal_file`, `open_file`, `seal_file_with_password` and
`open_file_with_password` that take two paths.  `seal_file_payload` and the two opening overloads
write through a temporary file in the same way, which is written once here (`throughTempFile`) and
used under each name.

`PathCall` collects the four overloads with their arguments.  `PathCall.result` is how a call ends,
`PathCall.trace` the system calls it makes.

A header and a key are made before the temporary file is created when sealing, and read and derived
behind that when opening.  So an overload that seals may throw before any file exists (`sealPath`),
and one that opens finds its input malformed with a temporary file to clean up (`openPath`).  The
`catch` of the source is `cleanUp`: it discards the `OutputFile`, removes the temporary name and throws
the same error again.

The kernel answers each system call from the trace so far, and the input stream of a call is what
the kernel delivers when the path is opened.
-/

namespace SecureKit.File

open ByteString Effect Iostream Evp Posix

section Overloads

variable (ssl : Openssl) {kernel : Kernel}

/-- The `catch` block of the functions that write through a temporary file. -/
def cleanUp (tempPath : Path) (error : Error) : Eff (Process kernel) Unit := do
  closeQuietly
  removeQuietly tempPath
  throw error

/-- A temporary file is opened, written by `body`, and committed under the name `output`; whatever
is thrown on the way, it is removed. -/
def throughTempFile (input output : Path) (body : Eff (World (Process kernel)) Unit) :
    Eff (World (Process kernel)) Unit := do
  openUniqueTempOutput ssl output
  let tempPath := (← get).output.out.path
  tryCatch
    (do
      openInput input
      body
      onOutput flushFile
      onOutput closeFile
      onOutput (commitTempFile tempPath output))
    fun error => onOutput (cleanUp tempPath error)

/-- `seal_file_payload` -/
def sealFilePayload (input output : Path) (serializedHeader : Bytes)
    (noncePrefix : ByteArr kNoncePrefixSize) (fileKey : key256) (aad : Bytes) :
    Eff (World (Process kernel)) Unit :=
  throughTempFile ssl input output (sealStreamPayload ssl serializedHeader noncePrefix fileKey aad)

/-- The body of the path overloads that seal. -/
def sealPath (format : FileFormat) (input output : Path) (aad : Bytes) :
    Eff (World (Process kernel)) Unit := do
  onOutput (ensureOutputDoesNotExist output)
  let header ← onLib format.make
  let fileKey ← onLib (format.deriveKey header)
  sealFilePayload ssl input output (format.serialized header) (format.noncePrefix header) fileKey aad

/-- The body of the path overloads that open.  Between the opening of the input and the commit it is
the body of the stream overloads. -/
def openPath (format : FileFormat) (input output : Path) (aad : Bytes) :
    Eff (World (Process kernel)) Unit := do
  onOutput (ensureOutputDoesNotExist output)
  throughTempFile ssl input output (openStream ssl format aad)

/-- `seal_file(const std::filesystem::path &, const std::filesystem::path &, …)` -/
def sealFileAt (input output : Path) (key : key256) (aad : Bytes) :
    Eff (World (Process kernel)) Unit :=
  sealPath ssl (keyFormat ssl key) input output aad

/-- `open_file(const std::filesystem::path &, const std::filesystem::path &, …)` -/
def openFileAt (input output : Path) (key : key256) (aad : Bytes) :
    Eff (World (Process kernel)) Unit :=
  openPath ssl (keyFormat ssl key) input output aad

/-- `seal_file_with_password(const std::filesystem::path &, const std::filesystem::path &, …)` -/
def sealFileWithPasswordAt (input output : Path) (password aad : Bytes) :
    Eff (World (Process kernel)) Unit := do
  requireNonEmptyPassword password
  sealPath ssl (passwordFormat ssl password) input output aad

/-- `open_file_with_password(const std::filesystem::path &, const std::filesystem::path &, …)` -/
def openFileWithPasswordAt (input output : Path) (password aad : Bytes) :
    Eff (World (Process kernel)) Unit := do
  requireNonEmptyPassword password
  openPath ssl (passwordFormat ssl password) input output aad

end Overloads

/-! ## Calls -/

/-- Which overload is called, with its secret. -/
inductive Operation
  | seal_file (key : key256)
  | open_file (key : key256)
  | seal_file_with_password (password : Bytes)
  | open_file_with_password (password : Bytes)

/-- The overload of the same function that takes two streams. -/
def Operation.onStreams (ssl : Openssl) {ω : Type} [Output ω] (operation : Operation) (aad : Bytes) :
    Eff (World ω) Unit :=
  match operation with
  | .seal_file key => sealFile ssl key aad
  | .open_file key => openFile ssl key aad
  | .seal_file_with_password password => sealFileWithPassword ssl password aad
  | .open_file_with_password password => openFileWithPassword ssl password aad

/-- A call of a path overload. -/
structure PathCall where
  operation : Operation
  input : Path
  output : Path
  aad : Bytes

namespace PathCall

variable (call : PathCall) (ssl : Openssl) (kernel : Kernel) (lib : Lib)

/-- The function that is called. -/
def body : Eff (World (Process kernel)) Unit :=
  match call.operation with
  | .seal_file key => sealFileAt ssl call.input call.output key call.aad
  | .open_file key => openFileAt ssl call.input call.output key call.aad
  | .seal_file_with_password password =>
    sealFileWithPasswordAt ssl call.input call.output password call.aad
  | .open_file_with_password password =>
    openFileWithPasswordAt ssl call.input call.output password call.aad

/-- Before the call: no system call was made, and no stream or file is open. -/
def initial : World (Process kernel) :=
  { input := { source := .finite [] .eof, state := { badbit := true } }, output := {}, lib }

/-- How the call ends, and in which state. -/
def result : EStateM.Result Error (World (Process kernel)) Unit :=
  call.body ssl kernel (initial kernel lib)

/-- The error the call throws, or `none` where it returns. -/
def thrown : Option Error :=
  match call.result ssl kernel lib with
  | .ok _ _ => none
  | .error error _ => some error

/-- The system calls of the call. -/
def trace : List Event :=
  match call.result ssl kernel lib with
  | .ok _ w => w.output.trace
  | .error _ w => w.output.trace

end PathCall

end SecureKit.File
