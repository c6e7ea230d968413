import Mathlib.Data.List.GetD
import SecureKit.Base.FileSystem
import SecureKit.File.Stream

/-!
# Files with a name

The file half of `src/file_io.cpp` on a POSIX system: the class `OutputFile`, the search for a
temporary name, and the commit of a temporary file by a hard link.

## The state of a run

A `Process` is what a call of a path overload works on besides its input stream and the library: the
trace of its system calls and its `OutputFile`.  There is one such object at a time: the one
`open_unique_temp_output` fills is moved out to its caller.  The answers to the system calls come
from a `Kernel`; nothing here assumes that they fit together.

A `Process` is an output of the payload functions: what they write goes to its `OutputFile`.
-/

namespace SecureKit.File

open ByteString Effect Iostream Evp Posix

/-! ## Errors -/

def openFailure : Error := ⟨.backend_failure, "File open failed"⟩

def statusFailure : Error := ⟨.backend_failure, "File status check failed"⟩

def outputExists : Error := ⟨.invalid_input, "Output file already exists"⟩

def tempFailure : Error := ⟨.backend_failure, "Temporary file creation failed"⟩

def renameFailure : Error := ⟨.backend_failure, "File rename failed"⟩

def directoryOpenFailure : Error := ⟨.backend_failure, "Directory open failed"⟩

def directorySyncFailure : Error := ⟨.backend_failure, "Directory sync failed"⟩

/-! ## Temporary names -/

def hexDigits : Bytes := bytesFromLiteral "0123456789abcdef"

/-- The two hexadecimal digits of a byte. -/
def hexByte (value : UInt8) : Bytes :=
  [hexDigits.getD ((value >>> 4) &&& 0x0f).toNat 0, hexDigits.getD (value &&& 0x0f).toNat 0]

/-- What `make_unique_temp_path` appends to the name of the output. -/
def tempSuffix (token : ByteArr 16) : Bytes :=
  bytesFromLiteral ".securekit." ++ (token : Bytes).flatMap hexByte ++ bytesFromLiteral ".tmp"

/-- `make_unique_temp_path` -/
def makeUniqueTempPath (ssl : Openssl) (output : Path) : Eff Lib Path := do
  let token ← randomBytes ssl 16
  return output ++ tempSuffix token

/-- `<output>.securekit.<32 hex>.tmp` -/
def IsTempPath (output path : Path) : Prop :=
  let hex := (path.drop (output.length + 11)).take 32
  path = output ++ (bytesFromLiteral ".securekit." ++ hex ++ bytesFromLiteral ".tmp") ∧
    hex.length = 32 ∧ ∀ digit ∈ hex, digit ∈ hexDigits

instance (output path : Path) : Decidable (IsTempPath output path) :=
  inferInstanceAs (Decidable (_ ∧ _ ∧ _))

lemma length_flatMap_hexByte (bytes : Bytes) : (bytes.flatMap hexByte).length = 2 * bytes.length := by
  induction bytes with
  | nil => rfl
  | cons b bytes ih =>
    rw [List.flatMap_cons, List.length_append, ih, List.length_cons, hexByte]
    simp only [List.length_cons, List.length_nil]
    omega

lemma hexByte_mem (value digit : UInt8) (h : digit ∈ hexByte value) : digit ∈ hexDigits := by
  have hlt : ∀ n : UInt8, (n &&& 0x0f).toNat < hexDigits.length := by
    intro n
    rw [UInt8.toNat_and]
    exact Nat.lt_of_le_of_lt Nat.and_le_right (by decide)
  simp only [hexByte, List.mem_cons, List.not_mem_nil, or_false] at h
  rcases h with rfl | rfl
  · rw [List.getD_eq_getElem _ _ (hlt _)]
    exact List.getElem_mem _
  · rw [List.getD_eq_getElem _ _ (hlt _)]
    exact List.getElem_mem _

/-- The names that are tried are temporary names of the output. -/
lemma isTempPath_tempSuffix (output : Path) (token : ByteArr 16) :
    IsTempPath output (output ++ tempSuffix token) := by
  have hlength : ((token : Bytes).flatMap hexByte).length = 32 := by
    rw [length_flatMap_hexByte, ByteArr.length_coe]
  have hhex : ((output ++ tempSuffix token).drop (output.length + 11)).take 32 =
      (token : Bytes).flatMap hexByte := by
    have heleven : (bytesFromLiteral ".securekit.").length = 11 := by decide
    rw [← List.drop_drop, List.drop_left, tempSuffix, List.append_assoc, ← heleven,
      List.drop_left, ← hlength, List.take_left]
  refine ⟨?_, ?_, ?_⟩
  · rw [hhex]
    rfl
  · rw [hhex, hlength]
  · rw [hhex]
    intro digit hdigit
    obtain ⟨value, -, hvalue⟩ := List.mem_flatMap.mp hdigit
    exact hexByte_mem value digit hvalue

/-- A temporary name is not the name of the output. -/
lemma IsTempPath.ne {output path : Path} (h : IsTempPath output path) : path ≠ output := by
  intro heq
  have hlength := congrArg List.length h.1
  rw [heq] at hlength
  simp only [List.length_append] at hlength
  have heleven : (bytesFromLiteral ".securekit.").length = 11 := by decide
  omega

/-! ## The process -/

/-- `OutputFile`: `path_` and `file_`, with `none` for a null pointer. -/
structure OutputFile where
  path : Path := []
  file : Option ℕ := none

/-- The system calls a call has made, and its `OutputFile`. -/
structure Process (kernel : Kernel) where
  trace : List Event := []
  out : OutputFile := {}

section Calls

variable {kernel : Kernel} {α : Type}

/-- One more system call was made. -/
def Process.record (p : Process kernel) (e : Event) : Process kernel :=
  { p with trace := p.trace ++ [e] }

/-- The `OutputFile` is another one. -/
def Process.holding (p : Process kernel) (out : OutputFile) : Process kernel := { p with out }

/-- Make a system call. -/
def sys (answer : Kernel → ℕ → α) (event : α → Event) : Eff (Process kernel) α :=
  modifyGet fun p =>
    let a := answer kernel p.trace.length
    (a, p.record (event a))

/-! ## `OutputFile` -/

/-- `OutputFile::close_quietly`, which is also `discard` and what the destructor does. -/
def closeQuietly : Eff (Process kernel) Unit := do
  match (← get).out.file with
  | none => return
  | some file =>
    let _ ← sys (fun k t => k.fclose t file) fun answer => .fclose file answer.1 answer.2
    modify fun p => p.holding { p.out with file := none }

/-- `OutputFile::operator=` -/
def assign (other : OutputFile) : Eff (Process kernel) Unit := do
  closeQuietly
  modify fun p => p.holding other

/-- `OutputFile::write`.  A null pointer is passed to `fwrite` by no caller. -/
def writeFile (data : Bytes) : Eff (Process kernel) Unit := do
  if data = [] then return
  let file ← orThrow writeFailure (← get).out.file
  let (written, _) ← sys (fun k t => k.fwrite t file data) fun answer =>
    .fwrite file data answer.1 answer.2
  throwIf (written ≠ data.length) writeFailure

/-- `OutputFile::close` -/
def closeFile : Eff (Process kernel) Unit := do
  match (← get).out.file with
  | none => return
  | some file =>
    modify fun p => p.holding { p.out with file := none }
    let (ok, _) ← sys (fun k t => k.fclose t file) fun answer => .fclose file answer.1 answer.2
    throwIf (ok = false) writeFailure

/-- `OutputFile::flush` -/
def flushFile : Eff (Process kernel) Unit := do
  match (← get).out.file with
  | none => return
  | some file =>
    let (ok, _) ← sys (fun k t => k.fflush t file) fun answer => .fflush file answer.1 answer.2
    throwIf (ok = false) writeFailure
    let ok ← sys (fun k t => k.fsync t file) (.fsync file)
    throwIf (ok = false) writeFailure

/-- `write_all(OutputFile &, std::span<const std::byte>)` -/
instance : Output (Process kernel) := ⟨writeFile⟩

/-! ## Opening, committing, removing -/

/-- `ExclusiveOpenResult` -/
inductive ExclusiveOpenResult
  | opened
  | already_exists
  | failed
  deriving DecidableEq

/-- `try_open_output_exclusive` -/
def tryOpenOutputExclusive (path : Path) : Eff (Process kernel) ExclusiveOpenResult := do
  match ← sys (fun k t => k.openExclusive t path) (.openExclusive path) with
  | .already_exists => return .already_exists
  | .failed => return .failed
  | .created fd =>
    let file ← sys (fun k t => k.fdopen t fd) (.fdopen fd)
    if file = false then
      sys (fun _ _ => ()) fun _ => .closeDescriptor fd
      return .failed
    assign { path, file := some fd }
    return .opened

/-- `ensure_output_does_not_exist` -/
def ensureOutputDoesNotExist (output : Path) : Eff (Process kernel) Unit := do
  let exists? ← sys (fun k t => k.status t output) (.status output)
  let found ← orThrow statusFailure exists?
  throwIf (found = true) outputExists

/-- `remove_quietly` -/
def removeQuietly (path : Path) : Eff (Process kernel) Unit := do
  let _ ← sys (fun k t => k.unlink t path) (.unlink path)

/-- `path.parent_path()`, with `.` for an empty one. -/
def parentPath (path : Path) : Path :=
  let slash : UInt8 := 0x2f
  let directory := (path.reverse.dropWhile (· ≠ slash)).reverse
  let parent := (directory.reverse.dropWhile (· = slash)).reverse
  if parent ≠ [] then parent else if directory ≠ [] then [slash] else bytesFromLiteral "."

/-- `flush_parent_directory` -/
def flushParentDirectory (path : Path) : Eff (Process kernel) Unit := do
  let parent := parentPath path
  let opened ← sys (fun k t => k.openDirectory t parent) (.openDirectory parent)
  throwIf (opened = false) directoryOpenFailure
  let synced ← sys (fun k t => k.syncDirectory t) .syncDirectory
  if synced = false then
    let _ ← sys (fun k t => k.closeDirectory t) .closeDirectory
    throw directorySyncFailure
  let closed ← sys (fun k t => k.closeDirectory t) .closeDirectory
  throwIf (closed = false) directorySyncFailure

/-- `commit_temp_file` -/
def commitTempFile (tempPath output : Path) : Eff (Process kernel) Unit := do
  match ← sys (fun k t => k.link t tempPath output) (.link tempPath output) with
  | .linked =>
    removeQuietly tempPath
    flushParentDirectory output
  | .already_exists => throw outputExists
  | .failed => throw renameFailure

/-- The loop of `open_unique_temp_output`, with the number of attempts that are left. -/
def openUniqueTempLoop (ssl : Openssl) (output : Path) : ℕ → Eff (World (Process kernel)) Unit
  | 0 => throw tempFailure
  | attempts + 1 => do
    let temp ← onLib (makeUniqueTempPath ssl output)
    match ← onOutput (tryOpenOutputExclusive temp) with
    | .opened => return
    | .failed => throw openFailure
    | .already_exists => openUniqueTempLoop ssl output attempts

/-- `open_unique_temp_output` -/
def openUniqueTempOutput (ssl : Openssl) (output : Path) : Eff (World (Process kernel)) Unit :=
  openUniqueTempLoop ssl output 32

/-- `open_input` -/
def openInput (path : Path) : Eff (World (Process kernel)) Unit := do
  let answer ← onOutput (sys (fun k t => k.openInput t path) (.openInput path))
  let source ← orThrow openFailure answer
  modify fun w => { w with input := { source } }

end Calls

end SecureKit.File
