import SecureKit.File.Path

/-!
# The file commands of the command line tool

The part of `src/cli/commands.cpp` that reads and writes files: `open_cli_output_file`,
`commit_output_file`, and the three functions that use them or only read (`write_new_output_file`,
`run_streaming_file_command`, `run_verify_file_command`), on a POSIX system.  The parsing of the
command line is left out; a command starts from its options.

## The state of a command

A `Command` is what a command works on besides its input and the library: the trace of its system
calls, its `std::ofstream`, `std::cout`, and the local variables its `catch` block reads.  Which
stream the input of the `World` is depends on the options; at the start it is `std::cin`.

The operation of a command is one of the stream overloads.  These are templates over the output, so
the same one is run into the file, into `std::cout`, or into the buffer that discards everything.
-/

namespace SecureKit.Cli

open ByteString Effect Iostream Evp Posix File

/-! ## Exceptions -/

/-- What a command throws: a `securekit::error`, a `std::runtime_error`, or the
`std::filesystem::filesystem_error` of a failed existence check. -/
inductive Failure
  | error (e : Error)
  | runtime_error (message : String)
  | filesystem_error
  deriving DecidableEq

/-- `e.what()`.  The text of a `filesystem_error` comes from the standard library and goes on with
the path. -/
def Failure.what : Failure → String
  | .error e => e.message
  | .runtime_error message => message
  | .filesystem_error => "filesystem error: cannot get file status"

/-- `securekit::cli::run`, for a command with its options: the exit status, and what `fail` prints
on `std::cerr`. -/
def run {σ : Type} (m : EStateM Failure σ Unit) (start : σ) : ℕ × Option String :=
  match m start with
  | .ok _ _ => (0, none)
  | .error failure _ => (1, some failure.what)

section Lift

variable {σ α : Type}

/-- A call of the library; its errors go through. -/
def securekit (m : Eff σ α) : EStateM Failure σ α := fun s =>
  match m s with
  | .ok a s' => .ok a s'
  | .error e s' => .error (.error e) s'

@[simp] lemma outcome_securekit {m : Eff σ α} {s : σ} {Q : α → σ → Prop}
    {E : Failure → σ → Prop} :
    Outcome (securekit m) s Q E ↔ Outcome m s Q fun e s' => E (.error e) s' := by
  simp only [Outcome, securekit]
  cases m s <;> rfl

end Lift

/-! ## Streams -/

/-- `std::ofstream`, with `none` where no file is open. -/
structure Ofstream where
  state : IoState := {}
  file : Option ℕ := none

/-- What a command works on. -/
structure Command (kernel : Kernel) where
  trace : List Event := []
  out : Ofstream := {}
  cout : OStream := {}
  tempPath : Path := []
  usesTempOutput : Bool := false

section Streams

variable {kernel : Kernel} {ε α : Type}

def Command.record (c : Command kernel) (e : Event) : Command kernel :=
  { c with trace := c.trace ++ [e] }

/-- Make a system call. -/
def sys (answer : Kernel → ℕ → α) (event : α → Event) : EStateM ε (Command kernel) α :=
  modifyGet fun c =>
    let a := answer kernel c.trace.length
    (a, c.record (event a))

/-- The stream has another state. -/
def setState (state : IoState) : EStateM ε (Command kernel) Unit :=
  modify fun c => { c with out := { c.out with state } }

/-- `out.open(path, std::ios::binary | std::ios::trunc)` -/
def ofstreamOpen (path : Path) : EStateM ε (Command kernel) Unit := do
  match ← sys (fun k t => k.openTruncated t path) (.openTruncated path) with
  | some file => modify fun c => { c with out := { file := some file } }
  | none => setState { (← get).out.state with failbit := true }

/-- `out.write(data, size)`, or the insertion of a string. -/
def ofstreamWrite (data : Bytes) : EStateM ε (Command kernel) Unit := do
  let out := (← get).out
  if out.state.good then
    match out.file with
    | none => setState { out.state with badbit := true }
    | some file =>
      let (written, _) ← sys (fun k t => k.fwrite t file data) fun answer =>
        .fwrite file data answer.1 answer.2
      if written ≠ data.length then setState { out.state with badbit := true }
  else setState { out.state with failbit := out.state.failbit || out.state.badbit }

/-- `out.close()` -/
def ofstreamClose : EStateM ε (Command kernel) Unit := do
  let out := (← get).out
  match out.file with
  | none => setState { out.state with failbit := true }
  | some file =>
    let (ok, _) ← sys (fun k t => k.fclose t file) fun answer => .fclose file answer.1 answer.2
    modify fun c => { c with out := { c.out with file := none } }
    if ok = false then setState { out.state with failbit := true }

/-- `write_all(std::ostream &, std::span<const std::byte>)` -/
instance : Output (Command kernel) where
  writeAll data := do
    ofstreamWrite data
    throwIf ((← get).out.state.fail = true) writeFailure

end Streams

section Commands

variable (ssl : Openssl) {kernel : Kernel} {α : Type}

/-- A function of `src/cli/commands.cpp`. -/
abbrev Action (kernel : Kernel) := EStateM Failure (World (Command kernel))

/-- Work on the streams and the file system. -/
def onCommand (m : EStateM Failure (Command kernel) α) : Action kernel α :=
  zoom World.output (fun output w => { w with output }) m

@[simp] lemma outcome_onCommand {m : EStateM Failure (Command kernel) α}
    {w : World (Command kernel)} {Q : α → World (Command kernel) → Prop}
    {E : Failure → World (Command kernel) → Prop} :
    Outcome (onCommand m) w Q E ↔ Outcome m w.output (fun a c => Q a { w with output := c })
      (fun e c => E e { w with output := c }) := outcome_zoom

/-! ## Opening, committing, removing -/

def outputExists : Failure := .runtime_error "Output file already exists"

def outputFailure : Failure := .runtime_error "failed to write output file"

/-- `ensure_output_file_does_not_exist` -/
def ensureOutputFileDoesNotExist (path : Path) : EStateM Failure (Command kernel) Unit := do
  let exists? ← sys (fun k t => k.status t path) (.status path)
  let found ← orThrow .filesystem_error exists?
  throwIf (found = true) outputExists

/-- `open_cli_input_file` -/
def openCliInputFile (path : Path) : Action kernel Unit := do
  let answer ← onCommand (sys (fun k t => k.openInput t path) (.openInput path))
  let source ← orThrow (.runtime_error "failed to open input file") answer
  modify fun w => { w with input := { source } }

/-- `temporary_output_path_for` -/
def temporaryOutputPathFor (output : Path) : Eff Lib Path := do
  let token ← randomBytes ssl 16
  return output ++ tempSuffix token

/-- `remove_file_quietly` -/
def removeFileQuietly (path : Path) : EStateM Failure (Command kernel) Unit := do
  let _ ← sys (fun k t => k.unlink t path) (.unlink path)

/-- The loop of `open_cli_output_file`, with the number of attempts that are left. -/
def openCliOutputLoop (output : Path) : ℕ → Action kernel Unit
  | 0 => throw (.runtime_error "failed to open output file")
  | attempts + 1 => do
    let temp ← securekit (onLib (temporaryOutputPathFor ssl output))
    onCommand (modify fun c => { c with tempPath := temp })
    let exists? ← onCommand (sys (fun k t => k.status t temp) (.status temp))
    if exists? ≠ some false then openCliOutputLoop output attempts
    else
      onCommand (ofstreamOpen temp)
      if (← get).output.out.state.fail = false then return
      openCliOutputLoop output attempts

/-- `open_cli_output_file` -/
def openCliOutputFile (output : Path) : Action kernel Unit := openCliOutputLoop ssl output 32

/-- `commit_output_file` -/
def commitOutputFile (tempPath output : Path) : EStateM Failure (Command kernel) Unit := do
  match ← sys (fun k t => k.link t tempPath output) (.link tempPath output) with
  | .linked => removeFileQuietly tempPath
  | .already_exists | .failed =>
    let exists? ← sys (fun k t => k.status t output) (.status output)
    throw (if exists? = some true then outputExists else outputFailure)

/-- `out.close()`, and an error if the stream has failed. -/
def closeOutput : EStateM Failure (Command kernel) Unit := do
  ofstreamClose
  throwIf ((← get).out.state.fail = true) outputFailure

/-- `if (out.is_open()) out.close();` -/
def closeIfOpen : EStateM Failure (Command kernel) Unit := do
  if (← get).out.file ≠ none then ofstreamClose

/-- The removal of the temporary file, behind a test. -/
def removeIf (owned : Command kernel → Bool) : EStateM Failure (Command kernel) Unit := do
  let c ← get
  if owned c = true then removeFileQuietly c.tempPath

/-- The `catch` block of both functions that write; `owned` is its test for a temporary file. -/
def cleanUp (owned : Command kernel → Bool) (failure : Failure) :
    EStateM Failure (Command kernel) Unit := do
  closeIfOpen
  removeIf owned
  throw failure

/-! ## The commands -/

/-- `write_new_output_file` -/
def writeNewOutputFile (path : Path) (writer : EStateM Failure (Command kernel) Unit) :
    Action kernel Unit := do
  onCommand (ensureOutputFileDoesNotExist path)
  tryCatch
    (do
      openCliOutputFile ssl path
      onCommand writer
      throwIf ((← get).output.out.state.fail = true) outputFailure
      onCommand closeOutput
      onCommand (commitOutputFile (← get).output.tempPath path))
    fun failure => onCommand (cleanUp (fun c => c.tempPath ≠ []) failure)

/-- `write_binary_file` -/
def writeBinaryFile (path : Path) (bytes : Bytes) : Action kernel Unit :=
  writeNewOutputFile ssl path (ofstreamWrite bytes)

/-- `write_key_file`, with `securekit::hex_encode` and a newline -/
def writeKeyFile (path : Path) (key : key256) : Action kernel Unit :=
  writeNewOutputFile ssl path do
    ofstreamWrite ((key : Bytes).flatMap hexByte)
    ofstreamWrite [0x0a]

/-- `file_command_options` and `password_file_command_options` -/
structure FileCommandOptions where
  input : Path
  output : Path
  aad : Bytes
  input_is_stdin : Bool
  output_is_stdout : Bool

/-- A stream overload, as a template over its output. -/
abbrev StreamOperation := ∀ {ω : Type} [Output ω], Eff (World ω) Unit

/-- Run into another stream, of which `put` says where it is kept. -/
def withOutput (out : World (Command kernel) → OStream)
    (put : OStream → Command kernel → Command kernel) (operation : StreamOperation) :
    Action kernel Unit :=
  zoom (fun w => { input := w.input, output := out w, lib := w.lib, chunks := w.chunks })
    (fun w' w =>
      { input := w'.input, output := put w'.output w.output, lib := w'.lib, chunks := w'.chunks })
    (securekit (operation : Eff (World OStream) Unit))

/-- The input of a command: `std::cin`, or the file. -/
def openCommandInput (options : FileCommandOptions) : Action kernel Unit := do
  if options.input_is_stdin = false then openCliInputFile options.input

/-- `run_streaming_file_command`, where the output is `std::cout`.  The flush shows nothing that a
write does not. -/
def streamToStdout (operation : StreamOperation) : Action kernel Unit := do
  withOutput (fun w => w.output.cout) (fun cout c => { c with cout }) operation
  throwIf ((← get).output.cout.state.fail = true) outputFailure

/-- `run_streaming_file_command`, where the output is a file -/
def streamToFile (output : Path) (operation : StreamOperation) : Action kernel Unit := do
  onCommand (ensureOutputFileDoesNotExist output)
  openCliOutputFile ssl output
  onCommand (modify fun c => { c with usesTempOutput := true })
  securekit operation
  onCommand closeOutput
  onCommand (commitOutputFile (← get).output.tempPath output)
  onCommand (modify fun c => { c with usesTempOutput := false })

/-- `run_streaming_file_command` -/
def runStreamingFileCommand (options : FileCommandOptions) (operation : StreamOperation) :
    Action kernel Unit :=
  tryCatch
    (do
      openCommandInput options
      if options.output_is_stdout = true then streamToStdout operation
      else streamToFile ssl options.output operation)
    fun failure => onCommand (cleanUp Command.usesTempOutput failure)

/-- `run_verify_file_command`.  A stream on a `discard_stream_buffer` accepts whatever is written to
it, and nothing is kept. -/
def runVerifyFileCommand (options : FileCommandOptions) (operation : StreamOperation) :
    Action kernel Unit := do
  openCommandInput options
  withOutput (fun _ => {}) (fun _ c => c) operation

/-- `seal-file`, `open-file` and their variants with a password, with a standard stream -/
def streamingCommand (options : FileCommandOptions) (operation : Operation) : Action kernel Unit :=
  runStreamingFileCommand ssl options (operation.onStreams ssl options.aad)

/-- `verify-file` -/
def verifyFileCommand (options : FileCommandOptions) (key : key256) : Action kernel Unit :=
  runVerifyFileCommand options (openFile ssl key options.aad)

/-- `verify-file-password` -/
def verifyFilePasswordCommand (options : FileCommandOptions) (password : Bytes) :
    Action kernel Unit :=
  runVerifyFileCommand options (openFileWithPassword ssl password options.aad)

end Commands

/-! ## The commands that write -/

/-- A call of one of the two functions that write. -/
inductive WriteCommand
  | write_binary_file (path : Path) (bytes : Bytes)
  | write_key_file (path : Path) (key : key256)
  | run_streaming_file_command (options : FileCommandOptions) (operation : Operation)

namespace WriteCommand

variable (command : WriteCommand) (ssl : Openssl) (kernel : Kernel) (cin : IStream) (lib : Lib)

/-- The function that is called. -/
def body {kernel : Kernel} : Action kernel Unit :=
  match command with
  | .write_binary_file path bytes => writeBinaryFile ssl path bytes
  | .write_key_file path key => writeKeyFile ssl path key
  | .run_streaming_file_command options operation => streamingCommand ssl options operation

/-- The system calls of the command, which reads `std::cin` at first. -/
def trace : List Event :=
  match command.body ssl ({ input := cin, output := {}, lib } : World (Command kernel)) with
  | .ok _ w => w.output.trace
  | .error _ w => w.output.trace

end WriteCommand

end SecureKit.Cli
