import SecureKit.Cli.FileResults
import SecureKit.File.AllOrNothing

/-!
# What the exit status says of the output

`docs/CLI.md` asks scripts to check the exit status before they trust the output.  For files and for
`--out -` the status can be trusted: the commands test their streams.  A command that prints its result
with `std::cout <<` does not, and returns 0 also where standard output has not taken it.

`deliversOnSuccess_iff` says when a run that returns 0 has delivered its result: unless such a command
comes to print more than standard output takes, or what it has taken cannot be flushed.

## The condition

`Computed` is what a run has come to before it prints or writes anything: the task of its branch,
computed from the arguments, the input and the library.  The condition of `deliversOnSuccess_iff` is
about this text and the room on standard output, not about what the run does with it.  If the text
fits and can be flushed, or there is no such text, a run that returns 0 has delivered; otherwise it
returns 0 and has not.

`Task.Accepted` is what delivery means for each task.  A printed text is on standard output; a key or
a packet is in a new file under the name of `--out`; for a file command the result of the operation
is where the options say (`OperationDelivered`); and `verify-file` has read a file that opens.

Nothing is assumed of the kernel or the library.  `not_deliversOnSuccess_hexEncode` prints to an
output that takes nothing, and the run returns 0.
-/

namespace SecureKit.Cli.Dispatch

open ByteString Effect Iostream Evp Posix File CommandLine

variable {kernel : Kernel} {α : Type}

/-! ## Results -/

/-- What a task prints without a test of the stream. -/
def Task.printed : Task → Option Bytes
  | .print text => some text
  | .printLine text => some (text ++ [0x0a])
  | .writeBytes bytes => some (bytes ++ [0x0a])
  | _ => none

/-- All of the result of a task has been accepted where it goes. -/
def Task.Accepted (host : Host) (cin : IStream) (w : World (Command kernel)) : Task → Prop
  | .print text => OnStdout host text w
  | .printLine text => OnStdout host (text ++ [0x0a]) w
  | .writeBytes bytes => OnStdout host (bytes ++ [0x0a]) w
  | .writeBinaryFile path bytes => Delivered w.output.trace path bytes
  | .writeKeyFile path key =>
    Delivered w.output.trace path ((key : Bytes).flatMap hexByte ++ [0x0a])
  | .runOperation options operation => OperationDelivered host options operation cin w
  | .verifyFile _ _ | .verifyFilePassword _ _ => True

/-- The run comes to a task. -/
def Computed (host : Host) (argv : List Bytes) (s : Session kernel) (task : Task) : Prop :=
  ∃ m w, branchOf host argv = .command m ∧ m s.world = .ok task w

/-- The run ends with 0 or 1, and with 0 only if all of its result has been accepted. -/
def DeliversOnSuccess (host : Host) (kernel : Kernel) (argv : List Bytes) (cin : IStream)
    (room : Option ℕ) (lib : Lib) : Prop :=
  ∃ status s', run host argv (Session.start kernel cin room lib) = .ok status s' ∧
    (status = 0 ∨ status = 1) ∧
    (status = 0 → ∃ task, Computed host argv (Session.start kernel cin room lib) task ∧
      task.Accepted host cin s'.world)

/-! ## Printing -/

section Printing

variable {host : Host} {w : World (Command kernel)}

/-- A task that prints does nothing else. -/
lemma exists_prints {task : Task} {text : Bytes} (h : task.printed = some text) :
    ∃ pieces, pieces.flatten = text ∧ Prints (task.perform host : Action kernel Unit) pieces := by
  cases task with
  | print bytes =>
    cases h
    exact ⟨[text], List.append_nil _, prints_print text⟩
  | printLine bytes =>
    cases h
    exact ⟨[bytes] ++ [[0x0a]], rfl, (prints_print bytes).bind (prints_print _)⟩
  | writeBytes bytes =>
    cases h
    refine ⟨_, ?_, (prints_putBytes bytes).bind (prints_print _)⟩
    rw [List.flatten_append, ← List.flatMap_def, List.flatMap_singleton']
    rfl
  | writeBinaryFile | writeKeyFile | runOperation | verifyFile | verifyFilePassword => cases h

lemma accepted_of_printed {task : Task} {text : Bytes} (h : task.printed = some text)
    (cin : IStream) : task.Accepted host cin w ↔ OnStdout host text w := by
  cases task with
  | print | printLine | writeBytes =>
    cases h
    exact Iff.rfl
  | writeBinaryFile | writeKeyFile | runOperation | verifyFile | verifyFilePassword => cases h

/-- A task that prints returns, and standard output has the text exactly if there was room for it. -/
lemma returns_perform_printed {task : Task} {text : Bytes} (h : task.printed = some text)
    {room : Option ℕ} (hcout : w.output.cout = { room }) :
    Returns (task.perform host) w fun _ w' =>
      w'.output.cout.written = text ↔ ∀ n, room = some n → text.length ≤ n := by
  obtain ⟨pieces, rfl, hprints⟩ : ∃ pieces, pieces.flatten = text ∧
      Prints (task.perform host : Action kernel Unit) pieces := exists_prints h
  refine (hprints w).mono (fun _ w' hw' => ?_) fun _ _ h => h
  rw [hw', hcout]
  exact OStream.written_writePieces_iff pieces rfl

end Printing

/-! ## Other tasks -/

section Delivering

variable {host : Host} {w : World (Command kernel)}

/-- **A task that does not print** returns only if its result was delivered. -/
lemma outcome_perform_accepted {task : Task} (h : task.printed = none) {room : Option ℕ}
    (houtput : w.output = { cout := { room } }) :
    Outcome (task.perform host) w (fun _ w' => task.Accepted host w.input w') (fun _ _ => True) := by
  have huntouched : w.output.Untouched := by
    rw [houtput]
    exact fun _ => rfl
  cases task with
  | print | printLine | writeBytes => cases h
  | writeBinaryFile path bytes =>
    exact outcome_writeNewOutputFile_delivered huntouched (appends_ofstreamWrite bytes)
  | writeKeyFile path key =>
    exact outcome_writeNewOutputFile_delivered huntouched
      ((appends_ofstreamWrite _).bind (appends_ofstreamWrite _))
  | runOperation options operation =>
    show Outcome (if _ then _ else _) w _ _
    rw [outcome_ite]
    constructor
    · intro _
      exact outcome_runStreaming_delivered options operation huntouched (by rw [houtput]; rfl)
        (by rw [houtput])
    · intro hpaths
      exact outcome_runPath_delivered options operation (by simpa using hpaths) (by rw [houtput])
  | verifyFile | verifyFilePassword => exact outcome_intro (fun _ _ _ => trivial) fun _ _ _ => trivial

end Delivering

/-! ## Runs -/

section Runs

variable {host : Host} {argv : List Bytes} {s : Session kernel}

lemma Computed.unique {task task' : Task} (h : Computed host argv s task)
    (h' : Computed host argv s task') : task = task' := by
  obtain ⟨m, w, hbranch, hrun⟩ := h
  obtain ⟨m', w', hbranch', hrun'⟩ := h'
  rw [hbranch] at hbranch'
  cases hbranch'
  rw [hrun] at hrun'
  cases hrun'
  rfl

/-- A run that comes to a task ends with 0 if the task returns, and with 1 if it throws. -/
lemma Computed.returns_run {task : Task} (h : Computed host argv s task)
    {Q : Unit → World (Command kernel) → Prop} {E : Failure → World (Command kernel) → Prop}
    (hperform : ∀ w : World (Command kernel), w.input = s.world.input → w.output = s.world.output →
      Outcome (task.perform host) w Q E) :
    Returns (run host argv) s fun status s' =>
      status = 0 ∧ Q () s'.world ∨ status = 1 ∧ ∃ failure, E failure s'.world := by
  obtain ⟨m, w, hbranch, hrun⟩ := h
  have hleaves : (branchOf host argv : Branch kernel).Computes (Expected argv) :=
    computes_branchOf host argv
  rw [hbranch] at hleaves
  obtain ⟨hinput, houtput⟩ := (hleaves.1 _ _ s.world ⟨rfl, rfl⟩).of_ok hrun
  rw [run, Returns, outcome_tryCatch, hbranch, outcome_bind, outcome_onWorld]
  refine outcome_intro (fun task' w' hrun' => ?_) fun failure w' hrun' => ?_
  · rw [hrun] at hrun'
    cases hrun'
    rw [outcome_bind, outcome_onWorld]
    refine (hperform w hinput houtput).mono (fun _ w' hq => .inl ⟨rfl, hq⟩) fun failure w' he => ?_
    exact .inr ⟨rfl, failure, he⟩
  · rw [hrun] at hrun'
    cases hrun'

/-- A run that does not come to a task ends with 1. -/
lemma returns_run_of_not_computed (h : ∀ task, ¬ Computed host argv s task) :
    Returns (run host argv) s fun status _ => status = 1 := by
  rw [run, Returns, outcome_tryCatch]
  cases hbranch : (branchOf host argv : Branch kernel) with
  | refuse message => exact rfl
  | command m =>
    rw [outcome_bind, outcome_onWorld]
    refine outcome_intro (fun task w hrun => ?_) fun failure w hrun => rfl
    exact absurd ⟨m, w, hbranch, hrun⟩ (h task)

/-- Where all of the result has been accepted, there was room for it, and the flush has worked. -/
lemma DeliversOnSuccess.fits {cin : IStream} {room : Option ℕ} {lib : Lib}
    (h : DeliversOnSuccess host kernel argv cin room lib) {task : Task} {text : Bytes}
    (hcomputed : Computed host argv (Session.start kernel cin room lib) task)
    (hprinted : task.printed = some text) :
    (∀ n, room = some n → text.length ≤ n) ∧ host.flushes = true := by
  obtain ⟨status, s', hrun, -, hdelivers⟩ := h
  have hends := (hcomputed.returns_run fun w _ houtput =>
    returns_perform_printed hprinted (congrArg Command.cout houtput)).of_ok hrun
  obtain ⟨hzero, hfits⟩ : _ ∧ _ := by
    rcases hends with hends | ⟨-, -, hfalse⟩
    · exact hends
    · exact hfalse.elim
  obtain ⟨task', hcomputed', haccepted⟩ := hdelivers hzero
  rw [hcomputed'.unique hcomputed, accepted_of_printed hprinted] at haccepted
  exact ⟨hfits.mp haccepted.1, haccepted.2⟩

/-- **The exit status** says that the result was delivered exactly if this is not a command that prints
without a test, on a standard output that does not take all of it. -/
theorem deliversOnSuccess_iff (host : Host) (kernel : Kernel) (argv : List Bytes) (cin : IStream)
    (room : Option ℕ) (lib : Lib) :
    DeliversOnSuccess host kernel argv cin room lib ↔
      ∀ task text, Computed host argv (Session.start kernel cin room lib) task →
        task.printed = some text →
          (∀ n, room = some n → text.length ≤ n) ∧ host.flushes = true := by
  constructor
  · exact fun h task text hcomputed hprinted => h.fits hcomputed hprinted
  · intro hprinted
    apply Returns.exists_ok
    -- Only a run that has come to a task can end with 0.
    by_cases hcomputed : ∃ task, Computed host argv (Session.start kernel cin room lib) task
    · obtain ⟨task, hcomputed⟩ := hcomputed
      have haccepted : ∀ w : World (Command kernel), w.input = cin → w.output = { cout := { room } } →
          Outcome (task.perform host) w (fun _ w' => task.Accepted host cin w') fun _ _ => True := by
        intro w hinput houtput
        cases hprint : task.printed with
        -- A task that prints never fails, so what it prints must fit.
        | some text =>
          obtain ⟨hfits, hflushes⟩ := hprinted task text hcomputed hprint
          refine (returns_perform_printed hprint (congrArg Command.cout houtput)).mono ?_
            fun _ _ h => h.elim
          intro _ w' hwritten
          exact (accepted_of_printed hprint cin).mpr ⟨hwritten.mpr hfits, hflushes⟩
        -- A file command tests its output itself.
        | none => exact hinput ▸ outcome_perform_accepted hprint houtput
      refine (hcomputed.returns_run haccepted).mono ?_ fun _ _ h => h
      rintro status s' (⟨rfl, hq⟩ | ⟨rfl, -⟩)
      · exact ⟨.inl rfl, fun _ => ⟨task, hcomputed, hq⟩⟩
      · exact ⟨.inr rfl, fun hzero => by cases hzero⟩
    · refine (returns_run_of_not_computed (not_exists.mp hcomputed)).mono ?_ fun _ _ h => h
      rintro status s' rfl
      exact ⟨.inr rfl, fun hzero => by cases hzero⟩

/-! ## A standard output that takes nothing -/

/-- A host with a library that has no digests, which `hex-encode` does not need. -/
def withoutDigests : Host where
  ssl := standardLibrary
  digests :=
    { ctxNew := false, sha256 := false, init := false, update := fun _ => false
      final := fun _ => none, mac := fun _ _ => none, privateKey := none }
  limits := { string := 2 ^ 62, bytes := 2 ^ 62 }
  flushes := true

/-- `securekit hex-encode --text a` -/
def hexEncodeArguments : List Bytes :=
  [ascii "securekit", ascii "hex-encode", ascii "--text", ascii "a"]

/-- The command returns 0, and standard output has none of the three bytes of its result. -/
theorem not_deliversOnSuccess_hexEncode :
    (∃ s', run withoutDigests hexEncodeArguments
        (Session.start (withoutInput true) (.ofBytes []) (some 0) {}) = .ok 0 s' ∧
      s'.world.output.cout.written = []) ∧
    ¬ DeliversOnSuccess withoutDigests (withoutInput true) hexEncodeArguments (.ofBytes []) (some 0)
      {} := by
  refine ⟨⟨_, rfl, rfl⟩, fun h => ?_⟩
  have hcomputed : Computed withoutDigests hexEncodeArguments
      (Session.start (withoutInput true) (.ofBytes []) (some 0) {}) (.printLine (ascii "61")) :=
    ⟨_, _, rfl, rfl⟩
  exact absurd ((h.fits hcomputed rfl).1 0 rfl) (by decide)

end Runs

end SecureKit.Cli.Dispatch
