import SecureKit.Cli.Dispatch
import SecureKit.Cli.OptionGrammar
import SecureKit.File.Parametric

/-!
# Failed commands print nothing

`docs/SECURITY_MODEL.md` says that a command that fails leaves standard output empty.  A branch of `run`
reads and computes first and performs a task then.  The first part leaves all streams alone
(`LeavesStreams`).  Tasks that write a file or nothing do not touch standard output (`Quiet`), and those
that print cannot throw.  What remains is a file command with `--out -`, which writes what it has before
it knows how it ends.

## The argument

`Keeps` is the notion for the first part of a branch: whatever it computes, and however it ends, the
streams are those of the start.  The lemmas follow the constructors of the code, one for each way to
read an input.  For the second part there are three kinds of task, and `FailsQuietly` is what they
have in common.

* A task that writes a file is `Quiet`, also where it fails.
* A task that prints has nothing that can throw (`Prints`).
* A file command with `--out -` is the exception, and `StreamsToStdout` says of the arguments that
  they name one.

`run_fails_quietly` is about every run.  The status is 0 or 1; with 1 the run has written one line to
standard error, and `Complains` says which: the usage that belongs to the arguments, or the text of
the failure that has ended the computation or the task.
-/

namespace SecureKit.Cli.Dispatch

open ByteString Effect Iostream Evp Posix File CommandLine

variable {kernel : Kernel} {ε α β : Type}

/-! ## Computations that read -/

/-- Nothing happens to the streams and the file system. -/
def LeavesStreams (m : Action kernel α) : Prop :=
  ∀ input output, Keeps (fun w => w.input = input ∧ w.output = output) m

section Reading

lemma keeps_securekit {σ : Type} {I : σ → Prop} {m : Eff σ α} (hm : Keeps I m) :
    Keeps I (securekit m) := by
  intro s h
  rw [outcome_securekit]
  exact hm s h

lemma leavesStreams_pure (a : α) : LeavesStreams (pure a : Action kernel α) := fun _ _ => .pure a

lemma leavesStreams_onLibrary (m : Eff Lib α) : LeavesStreams (onLibrary m : Action kernel α) :=
  fun _ _ => keeps_securekit (.zoom_of_forall m fun _ _ h => h)

lemma leavesStreams_library (m : Except Error α) : LeavesStreams (library m : Action kernel α) :=
  fun _ _ => keeps_securekit (.exceptResult m)

lemma leavesStreams_exceptResult (m : Except Failure α) :
    LeavesStreams (exceptResult m : Action kernel α) := fun _ _ => .exceptResult m

lemma leavesStreams_withFiles (m : Files → Except Failure α) :
    LeavesStreams (withFiles m : Action kernel α) := fun _ _ =>
  Keeps.get.bind fun _ => .exceptResult _

end Reading

/-! ## Quiet computations -/

/-- `std::cout` is as it was, and at most system calls were added. -/
structure Command.Extends (c c₀ : Command kernel) : Prop where
  cout : c.cout = c₀.cout
  trace : c₀.trace <+: c.trace

/-- Nothing happens to `std::cout`, and what was recorded stays. -/
def Quiet (m : Action kernel α) : Prop := ∀ c₀, Keeps (fun w => Command.Extends w.output c₀) m

/-- The same of a computation on the streams and the file system. -/
def QuietCommand (m : EStateM ε (Command kernel) α) : Prop :=
  ∀ c₀, Keeps (fun c => Command.Extends c c₀) m

section Commands

lemma quiet_sys (answer : Kernel → ℕ → α) (event : α → Event) :
    QuietCommand (Cli.sys answer event : EStateM ε (Command kernel) α) :=
  fun _ => .modifyGet fun _ h => ⟨h.cout, h.trace.trans (List.prefix_append _ _)⟩

/-- The other variables of a command may change. -/
lemma quiet_modify {f : Command kernel → Command kernel} (hcout : ∀ c, (f c).cout = c.cout)
    (htrace : ∀ c, (f c).trace = c.trace) :
    QuietCommand (modify f : EStateM ε (Command kernel) PUnit) :=
  fun _ => .modify fun c h => ⟨(hcout c).trans h.cout, htrace c ▸ h.trace⟩

lemma quiet_setState (state : IoState) :
    QuietCommand (setState state : EStateM ε (Command kernel) Unit) :=
  quiet_modify (fun _ => rfl) fun _ => rfl

lemma quiet_ofstreamOpen (path : Path) :
    QuietCommand (ofstreamOpen path : EStateM ε (Command kernel) Unit) := by
  intro c₀
  refine (quiet_sys _ _ c₀).bind fun answer => ?_
  cases answer with
  | some file => exact Keeps.modify fun _ h => ⟨h.cout, h.trace⟩
  | none => exact Keeps.get.bind fun c => quiet_setState _ c₀

lemma quiet_ofstreamWrite (data : Bytes) :
    QuietCommand (ofstreamWrite data : EStateM ε (Command kernel) Unit) := by
  intro c₀
  refine Keeps.get.bind fun c => .ite (fun _ => ?_) fun _ => quiet_setState _ c₀
  cases c.out.file with
  | none => exact quiet_setState _ c₀
  | some file =>
    refine (quiet_sys _ _ c₀).bind fun answer => ?_
    exact .ite (fun _ => quiet_setState _ c₀) fun _ => .pure _

lemma quiet_ofstreamClose : QuietCommand (ofstreamClose : EStateM ε (Command kernel) Unit) := by
  intro c₀
  refine Keeps.get.bind fun c => ?_
  dsimp only
  cases c.out.file with
  | none => exact quiet_setState _ c₀
  | some file =>
    refine (quiet_sys _ _ c₀).bind fun answer => ?_
    refine Keeps.bind (.modify fun _ h => ⟨h.cout, h.trace⟩) fun _ => ?_
    exact .ite (fun _ => quiet_setState _ c₀) fun _ => .pure _

lemma quiet_writeAll (data : Bytes) :
    QuietCommand (writeAll data : Eff (Command kernel) Unit) := fun c₀ =>
  (quiet_ofstreamWrite data c₀).bind fun _ => Keeps.get.bind fun _ => .throwIf _

lemma quiet_ensureOutputFileDoesNotExist (path : Path) :
    QuietCommand (ensureOutputFileDoesNotExist path : EStateM Failure (Command kernel) Unit) :=
  fun c₀ => (quiet_sys _ _ c₀).bind fun _ => (Keeps.orThrow _ _).bind fun _ => .throwIf _

lemma quiet_removeFileQuietly (path : Path) :
    QuietCommand (removeFileQuietly path : EStateM Failure (Command kernel) Unit) := fun c₀ =>
  (quiet_sys _ _ c₀).bind fun _ => .pure _

lemma quiet_commitOutputFile (tempPath output : Path) :
    QuietCommand (commitOutputFile tempPath output : EStateM Failure (Command kernel) Unit) := by
  intro c₀
  refine (quiet_sys _ _ c₀).bind fun answer => ?_
  cases answer with
  | linked => exact quiet_removeFileQuietly _ c₀
  | already_exists | failed => exact (quiet_sys _ _ c₀).bind fun _ => .throw _

lemma quiet_closeOutput :
    QuietCommand (closeOutput : EStateM Failure (Command kernel) Unit) := fun c₀ =>
  (quiet_ofstreamClose c₀).bind fun _ => Keeps.get.bind fun _ => .throwIf _

lemma quiet_cleanUp (owned : Command kernel → Bool) (failure : Failure) :
    QuietCommand (cleanUp owned failure) := by
  intro c₀
  refine Keeps.bind (Keeps.get.bind fun c => ?_) fun _ => Keeps.bind (Keeps.get.bind fun c => ?_)
    fun _ => .throw _
  · exact .ite (fun _ => quiet_ofstreamClose c₀) fun _ => .pure _
  · exact .ite (fun _ => quiet_removeFileQuietly _ c₀) fun _ => .pure _

end Commands

section Actions

lemma Quiet.bind {m : Action kernel α} {f : α → Action kernel β} (hm : Quiet m)
    (hf : ∀ a, Quiet (f a)) : Quiet (m >>= f) := fun c₀ => (hm c₀).bind fun a => hf a c₀

lemma Quiet.ite {c : Prop} [Decidable c] {m n : Action kernel α} (hthen : c → Quiet m)
    (helse : ¬ c → Quiet n) : Quiet (if c then m else n) := fun c₀ =>
  .ite (fun h => hthen h c₀) fun h => helse h c₀

lemma quiet_pure (a : α) : Quiet (pure a : Action kernel α) := fun _ => .pure a

lemma quiet_get : Quiet (get : Action kernel (World (Command kernel))) := fun _ => .get

lemma quiet_throw (failure : Failure) : Quiet (throw failure : Action kernel α) := fun _ => .throw _

lemma quiet_throwIf {c : Prop} [Decidable c] (failure : Failure) :
    Quiet (throwIf c failure : Action kernel Unit) := fun _ => .throwIf _

lemma quiet_onCommand {m : EStateM Failure (Command kernel) α} (hm : QuietCommand m) :
    Quiet (onCommand m) := fun c₀ => (hm c₀).zoom (fun _ h => h) fun _ _ _ h => h

lemma quiet_securekit_onLib (m : Eff Lib α) :
    Quiet (securekit (File.onLib m) : Action kernel α) := fun _ =>
  keeps_securekit (.zoom_of_forall m fun _ _ h => h)

end Actions

/-! ## Quiet tasks -/

section Tasks

variable {host : Host} {ssl : Openssl}

lemma quiet_openCommandInput (options : Cli.FileCommandOptions) :
    Quiet (openCommandInput options : Action kernel Unit) := by
  refine .ite (fun _ => ?_) fun _ => quiet_pure _
  refine (quiet_onCommand (quiet_sys _ _)).bind fun answer => ?_
  exact Quiet.bind (fun _ => .orThrow _ _) fun source => fun _ => .modify fun _ h => h

lemma quiet_openCliOutputLoop (output : Path) (attempts : ℕ) :
    Quiet (openCliOutputLoop ssl output attempts : Action kernel Unit) := by
  induction attempts with
  | zero => exact quiet_throw _
  | succ attempts ih =>
    refine (quiet_securekit_onLib _).bind fun temp => ?_
    refine Quiet.bind (quiet_onCommand (quiet_modify (fun _ => rfl) fun _ => rfl)) fun _ => ?_
    refine (quiet_onCommand (quiet_sys _ _)).bind fun answer => .ite (fun _ => ih) fun _ => ?_
    refine (quiet_onCommand (quiet_ofstreamOpen temp)).bind fun _ => quiet_get.bind fun w => ?_
    exact .ite (fun _ => quiet_pure _) fun _ => ih

/-- The handler of a `try` block only cleans up. -/
lemma Quiet.tryCatch_cleanUp {m : Action kernel Unit} (hm : Quiet m) (owned : Command kernel → Bool) :
    Quiet (tryCatch m fun failure => onCommand (cleanUp owned failure)) := fun c₀ =>
  (hm c₀).tryCatch fun failure => quiet_onCommand (quiet_cleanUp owned failure) c₀

lemma quiet_commit (output : Path) :
    Quiet (do
      onCommand closeOutput
      onCommand (commitOutputFile (← get).output.tempPath output) : Action kernel Unit) :=
  (quiet_onCommand quiet_closeOutput).bind fun _ => quiet_get.bind fun _ =>
    quiet_onCommand (quiet_commitOutputFile _ _)

lemma quiet_writeNewOutputFile (path : Path) {writer : EStateM Failure (Command kernel) Unit}
    (hwriter : QuietCommand writer) : Quiet (writeNewOutputFile ssl path writer) := by
  refine (quiet_onCommand (quiet_ensureOutputFileDoesNotExist path)).bind fun _ => ?_
  refine Quiet.tryCatch_cleanUp ?_ _
  refine (quiet_openCliOutputLoop path 32).bind fun _ => ?_
  refine (quiet_onCommand hwriter).bind fun _ => quiet_get.bind fun _ => ?_
  exact (quiet_throwIf _).bind fun _ => quiet_commit path

lemma quiet_streamToFile (output : Path) (operation : Operation) (aad : Bytes) :
    Quiet (streamToFile ssl output (operation.onStreams ssl aad) : Action kernel Unit) := by
  refine (quiet_onCommand (quiet_ensureOutputFileDoesNotExist output)).bind fun _ => ?_
  refine (quiet_openCliOutputLoop output 32).bind fun _ => ?_
  refine Quiet.bind (quiet_onCommand (quiet_modify (fun _ => rfl) fun _ => rfl)) fun _ => ?_
  refine Quiet.bind (fun c₀ => keeps_securekit (keeps_output_onStreams
    (fun data => quiet_writeAll data c₀) operation aad)) fun _ => ?_
  refine (quiet_onCommand quiet_closeOutput).bind fun _ => quiet_get.bind fun _ => ?_
  exact (quiet_onCommand (quiet_commitOutputFile _ _)).bind fun _ =>
    quiet_onCommand (quiet_modify (fun _ => rfl) fun _ => rfl)

/-- With another output than `-`, streaming is quiet. -/
lemma quiet_runStreaming {options : Cli.FileCommandOptions} (h : options.output_is_stdout = false)
    (operation : Operation) : Quiet (runStreaming host options operation : Action kernel Unit) := by
  rw [runStreaming, h]
  refine Quiet.bind (Quiet.tryCatch_cleanUp ?_ _) fun _ => quiet_pure _
  refine (quiet_openCommandInput options).bind fun _ => ?_
  rw [h]
  exact quiet_streamToFile _ _ _

lemma quiet_runVerifyFileCommand (options : Cli.FileCommandOptions) (operation : StreamOperation) :
    Quiet (runVerifyFileCommand options operation : Action kernel Unit) :=
  (quiet_openCommandInput options).bind fun _ => fun _ => .zoom_of_forall _ fun _ _ h => h

end Tasks

/-! ## Tasks that fail -/

section Failures

variable {host : Host}

/-- The task is a file command with `--out -`. -/
def Task.StreamsToStdout : Task → Prop
  | .runOperation options _ => options.output_is_stdout = true
  | _ => False

/-- What throws leaves `std::cout` as it was. -/
def FailsQuietly (m : Action kernel α) : Prop :=
  ∀ w, Outcome m w (fun _ _ => True) fun _ w' => w'.output.cout = w.output.cout

lemma Quiet.failsQuietly {m : Action kernel α} (hm : Quiet m) : FailsQuietly m := fun w =>
  (hm w.output w ⟨rfl, List.prefix_rfl⟩).mono (fun _ _ _ => trivial) fun _ _ h => h.cout

/-- The computation prints the pieces, and does not throw. -/
def Prints (m : Action kernel Unit) (pieces : List Bytes) : Prop :=
  ∀ w, Returns m w fun _ w' => w'.output.cout = w.output.cout.writePieces pieces

lemma prints_print (text : Bytes) : Prints (print text : Action kernel Unit) [text] := fun _ => rfl

lemma Prints.bind {m n : Action kernel Unit} {front back : List Bytes} (hm : Prints m front)
    (hn : Prints n back) : Prints (do m; n) (front ++ back) := by
  intro w
  rw [Returns, outcome_bind]
  refine (hm w).mono (fun _ w₁ h₁ => ?_) fun _ _ h => h
  refine (hn w₁).mono (fun _ w₂ h₂ => ?_) fun _ _ h => h
  rw [h₂, h₁, OStream.writePieces, OStream.writePieces, OStream.writePieces, List.foldl_append]

lemma prints_putBytes (bytes : Bytes) :
    Prints (putBytes bytes : Action kernel Unit) (bytes.map fun byte => [byte]) := by
  induction bytes with
  | nil => exact fun _ => rfl
  | cons byte bytes ih => exact (prints_print [byte]).bind ih

lemma Prints.failsQuietly {m : Action kernel Unit} {pieces : List Bytes} (hm : Prints m pieces) :
    FailsQuietly m := fun w => (hm w).mono (fun _ _ _ => trivial) fun _ _ h => h.elim

/-- A task that fails has printed nothing, except for a file command with `--out -`. -/
lemma failsQuietly_perform {task : Task} (h : ¬ task.StreamsToStdout) :
    FailsQuietly (task.perform host : Action kernel Unit) := by
  cases task with
  | print text => exact (prints_print text).failsQuietly
  | printLine text => exact ((prints_print text).bind (prints_print _)).failsQuietly
  | writeBytes bytes => exact ((prints_putBytes bytes).bind (prints_print _)).failsQuietly
  | writeBinaryFile path bytes =>
    exact (quiet_writeNewOutputFile path (quiet_ofstreamWrite bytes)).failsQuietly
  | writeKeyFile path key =>
    refine (quiet_writeNewOutputFile path fun c₀ => ?_).failsQuietly
    exact (quiet_ofstreamWrite _ c₀).bind fun _ => quiet_ofstreamWrite _ c₀
  | runOperation options operation =>
    intro w
    show Outcome (if _ then _ else _) w _ _
    rw [outcome_ite]
    refine ⟨fun _ => (quiet_runStreaming (Bool.eq_false_iff.mpr h) operation).failsQuietly w,
      fun _ => ?_⟩
    rw [runPath, outcome_zoom]
    exact outcome_intro (fun _ _ _ => trivial) fun _ _ _ => rfl
  | verifyFile options key => exact (quiet_runVerifyFileCommand _ _).failsQuietly
  | verifyFilePassword options password => exact (quiet_runVerifyFileCommand _ _).failsQuietly

end Failures

/-! ## Commands -/

section Computing

variable {P : Task → Prop}

/-- The task that `m` computes has a property, and the streams are left alone. -/
def Computes (P : Task → Prop) (m : Action kernel Task) : Prop :=
  LeavesStreams m ∧ ∀ w task w', m w = .ok task w' → P task

lemma computes_pure {task : Task} (h : P task) : Computes P (pure task : Action kernel Task) := by
  refine ⟨leavesStreams_pure task, fun w task' w' hrun => ?_⟩
  cases hrun
  exact h

lemma Computes.bind_of_ok {m : Action kernel α} {f : α → Action kernel Task}
    (hm : LeavesStreams m) (hf : ∀ w a w', m w = .ok a w' → Computes P (f a)) :
    Computes P (m >>= f) := by
  constructor
  · exact fun input output => (hm input output).bind_of_ok fun w a w' hrun =>
      (hf w a w' hrun).1 input output
  · intro w task w' hrun
    have hends : Outcome (m >>= f) w (fun task _ => P task) fun _ _ => True := by
      rw [outcome_bind]
      refine outcome_intro (fun a w₁ hfirst => ?_) fun _ _ _ => trivial
      exact outcome_intro (fun task w₂ hsecond => (hf w a w₁ hfirst).2 w₁ task w₂ hsecond)
        fun _ _ _ => trivial
    exact hends.of_ok hrun

lemma Computes.bind {m : Action kernel α} {f : α → Action kernel Task} (hm : LeavesStreams m)
    (hf : ∀ a, Computes P (f a)) : Computes P (m >>= f) := .bind_of_ok hm fun _ a _ _ => hf a

lemma Computes.ite {c : Prop} [Decidable c] {m n : Action kernel Task}
    (hthen : Computes P m) (helse : Computes P n) : Computes P (if c then m else n) := by
  by_cases h : c
  · simpa only [h, if_true] using hthen
  · simpa only [h, if_false] using helse

/-- What a function that reads files returns, it returns for some files. -/
lemma Computes.withFiles {m : Files → Except Failure α} {f : α → Action kernel Task}
    (hf : ∀ files a, m files = .ok a → Computes P (f a)) : Computes P (withFiles m >>= f) := by
  refine .bind_of_ok (leavesStreams_withFiles m) fun w a w' hrun => hf (filesOf w) a ?_
  have hrun : (exceptResult (m (filesOf w)) : Action kernel α) w = .ok a w' := hrun
  cases hm : m (filesOf w) with
  | error failure =>
    rw [hm] at hrun
    cases hrun
  | ok a' =>
    rw [hm] at hrun
    cases hrun
    rfl

end Computing

/-! ## The option `--out -` -/

/-- `seal-file`, `open-file` or one of their variants with a password, with `--out -`. -/
def StreamsToStdout (argv : List Bytes) : Prop :=
  argv.getD 1 [] ∈ [ascii "seal-file", ascii "open-file", ascii "seal-file-password",
    ascii "open-file-password"] ∧
  ∃ i, i % 2 = 0 ∧ argv[i]? = some (ascii "--out") ∧ argv[i + 1]? = some (ascii "-")

section Options

variable {files : Files} {argv : List Bytes}

lemma mem_of_find {option : Bytes} {table : List (Bytes × Group × ValueKind)}
    {entry : Group × ValueKind} (h : CommandSpec.find option table = some entry) :
    (option, entry) ∈ table := by
  induction table with
  | nil => cases h
  | cons head rest ih =>
    obtain ⟨name, first⟩ := head
    by_cases heq : option = name
    · rw [find_of_eq rest heq] at h
      cases h
      rw [heq]
      exact List.mem_cons_self
    · rw [find_of_ne rest heq] at h
      exact List.mem_cons_of_mem _ (ih h)

/-- The two arguments of a pair follow each other. -/
lemma getElem?_arguments {pairs : List (Bytes × Bytes)} {p : Bytes × Bytes} (h : p ∈ pairs)
    (program command : Bytes) :
    ∃ i, i % 2 = 0 ∧ (program :: command :: arguments pairs)[i]? = some p.1 ∧
      (program :: command :: arguments pairs)[i + 1]? = some p.2 := by
  obtain ⟨front, back, rfl⟩ := List.append_of_mem h
  have hsplit : program :: command :: arguments (front ++ p :: back) =
      (program :: command :: arguments front) ++ (p.1 :: p.2 :: arguments back) := by
    simp [arguments]
  refine ⟨(program :: command :: arguments front).length, ?_, ?_, ?_⟩
  · simp only [List.length_cons, length_arguments]
    omega
  · rw [hsplit, List.getElem?_append_right (Nat.le_refl _), Nat.sub_self]
    rfl
  · rw [hsplit, List.getElem?_append_right (Nat.le_succ _), Nat.succ_sub (Nat.le_refl _),
      Nat.sub_self]
    rfl

/-- The output is named by the option `--out`. -/
def NamesOutput (spec : CommandSpec) : Prop :=
  ∀ option kind, (option, Group.output, kind) ∈ spec.options → option = ascii "--out" ∧ kind = .path

lemma namesOutput_fileCommand (hasOutput : Bool) : NamesOutput (CommandLine.fileCommand hasOutput) := by
  intro option kind hmem
  cases hasOutput <;> simp_all [CommandLine.fileCommand, keyOptions, aadOptions]

lemma namesOutput_passwordFileCommand (hasOutput : Bool) :
    NamesOutput (CommandLine.passwordFileCommand hasOutput) := by
  intro option kind hmem
  cases hasOutput <;> simp_all [CommandLine.passwordFileCommand, aadOptions]

/-- Where the output is `-`, there is an option that says so. -/
lemma exists_out_of_assigns {spec : CommandSpec} {pairs : List (Bytes × Bytes)}
    {values : Group → Option Bytes} (hout : NamesOutput spec)
    (hassigns : (spec.language files).Assigns pairs values)
    (houtput : values .output = some (ascii "-")) : (ascii "--out", ascii "-") ∈ pairs := by
  obtain ⟨p, hp, hgroup, ⟨g, kind⟩, hfind, hmeans⟩ := (hassigns _ _).mp houtput
  have hgroup : (CommandSpec.find p.1 spec.options).map Prod.fst = some .output := hgroup
  rw [hfind] at hgroup
  cases hgroup
  obtain ⟨hname, rfl⟩ := hout _ _ (mem_of_find hfind)
  have hvalue : ascii "-" = p.2 := hmeans
  have hp : (p.1, p.2) ∈ pairs := hp
  rwa [hname, ← hvalue] at hp

/-- Arguments of which the second is known begin with a program and a command. -/
lemma exists_cons_cons (h : 2 ≤ argv.length) :
    ∃ program command tail, argv = program :: command :: tail := by
  match argv, h with
  | program :: command :: tail, _ => exact ⟨program, command, tail, rfl⟩

lemma exists_out_of_parseFileCommandOptions (hargc : 2 ≤ argv.length)
    {options : CommandLine.FileCommandOptions} (hparse : parseFileCommandOptions files argv = .ok options)
    (hstdout : options.output_is_stdout = true) :
    ∃ i, i % 2 = 0 ∧ argv[i]? = some (ascii "--out") ∧ argv[i + 1]? = some (ascii "-") := by
  obtain ⟨program, command, tail, rfl⟩ := exists_cons_cons hargc
  obtain ⟨pairs, values, rfl, -, hassigns, rfl⟩ :=
    ((describes_fileCommand files command _).parse_eq_ok_iff program command tail options).mp hparse
  exact getElem?_arguments (exists_out_of_assigns (namesOutput_fileCommand _) hassigns
    (of_decide_eq_true hstdout)) _ _

lemma exists_out_of_parsePasswordFileCommandOptions (hargc : 2 ≤ argv.length)
    {options : PasswordFileCommandOptions}
    (hparse : parsePasswordFileCommandOptions files argv = .ok options)
    (hstdout : options.output_is_stdout = true) :
    ∃ i, i % 2 = 0 ∧ argv[i]? = some (ascii "--out") ∧ argv[i + 1]? = some (ascii "-") := by
  obtain ⟨program, command, tail, rfl⟩ := exists_cons_cons hargc
  obtain ⟨pairs, values, rfl, -, hassigns, rfl⟩ :=
    ((describes_passwordFileCommand files command _).parse_eq_ok_iff program command tail options).mp
      hparse
  exact getElem?_arguments (exists_out_of_assigns (namesOutput_passwordFileCommand _) hassigns
    (of_decide_eq_true hstdout)) _ _

end Options

/-! ## The branches -/

section Branches

variable {host : Host} {argv : List Bytes}

/-- What is known of the tasks of a run. -/
abbrev Expected (argv : List Bytes) (task : Task) : Prop :=
  task.StreamsToStdout → StreamsToStdout argv

lemma computes_printHex (bytes : Bytes) :
    Computes (Expected argv) (printHex host bytes : Action kernel Task) :=
  .bind (leavesStreams_library _) fun _ => computes_pure False.elim

lemma computes_tokenCommand (size : Bytes) :
    Computes (Expected argv) (tokenCommand host size : Action kernel Task) :=
  .bind (leavesStreams_exceptResult _) fun _ => .bind (leavesStreams_onLibrary _) fun _ =>
    computes_pure False.elim

lemma computes_sha256Command (input : Files → Except Failure Bytes) :
    Computes (Expected argv) (sha256Command host input : Action kernel Task) :=
  .bind (leavesStreams_withFiles _) fun _ => .bind (leavesStreams_library _) fun _ => computes_printHex _

lemma computes_hmacSha256Command (key : Bytes) (input : Files → Except Failure Bytes) :
    Computes (Expected argv) (hmacSha256Command host key input : Action kernel Task) :=
  .bind (leavesStreams_library _) fun _ => .bind (leavesStreams_withFiles _) fun _ =>
    .bind (leavesStreams_library _) fun _ => computes_printHex _

lemma computes_hkdfSha256Command (key salt : Bytes) (info : Except Error Bytes) (size : Bytes) :
    Computes (Expected argv) (hkdfSha256Command host key salt info size : Action kernel Task) :=
  .bind (leavesStreams_library _) fun _ => .bind (leavesStreams_library _) fun _ =>
    .bind (leavesStreams_library _) fun _ => .bind (leavesStreams_exceptResult _) fun _ =>
    .bind (leavesStreams_onLibrary _) fun _ => computes_printHex _

lemma computes_base64urlEncodeCommand (text : Bytes) :
    Computes (Expected argv) (base64urlEncodeCommand host text : Action kernel Task) :=
  .bind (leavesStreams_library _) fun _ => computes_pure False.elim

lemma computes_decodeCommand (decoded : Except Error Bytes) :
    Computes (Expected argv) (decodeCommand decoded : Action kernel Task) :=
  .bind (leavesStreams_library _) fun _ => computes_pure False.elim

lemma computes_keygenCommand (path : Path) :
    Computes (Expected argv) (keygenCommand host path : Action kernel Task) :=
  .bind (leavesStreams_library _) fun _ => computes_pure False.elim

lemma computes_wrapKeyCommand :
    Computes (Expected argv) (wrapKeyCommand host argv : Action kernel Task) :=
  .bind (leavesStreams_withFiles _) fun _ => .bind (leavesStreams_onLibrary _) fun _ =>
    .ite (computes_pure False.elim) (computes_printHex _)

lemma computes_unwrapKeyCommand :
    Computes (Expected argv) (unwrapKeyCommand host argv : Action kernel Task) :=
  .bind (leavesStreams_withFiles _) fun _ => .bind (leavesStreams_onLibrary _) fun _ =>
    .ite (computes_pure False.elim) (computes_printHex _)

lemma computes_encryptCommand :
    Computes (Expected argv) (encryptCommand host argv : Action kernel Task) :=
  .bind (leavesStreams_withFiles _) fun _ => .bind (leavesStreams_onLibrary _) fun _ =>
    .ite (computes_pure False.elim) (computes_printHex _)

lemma computes_decryptCommand :
    Computes (Expected argv) (decryptCommand host argv : Action kernel Task) :=
  .bind (leavesStreams_withFiles _) fun _ => .bind (leavesStreams_onLibrary _) fun _ =>
    .ite (computes_pure False.elim) (computes_pure False.elim)

lemma computes_fileCommand (hargc : 2 ≤ argv.length) :
    Computes (Expected argv) (fileCommand argv : Action kernel Task) := by
  refine .withFiles fun files options hparse => ?_
  have hout := exists_out_of_parseFileCommandOptions hargc hparse
  by_cases hseal : argv.getD 1 [] = ascii "seal-file"
  · rw [if_pos hseal]
    exact computes_pure fun hstdout => ⟨by rw [hseal]; simp, hout hstdout⟩
  rw [if_neg hseal]
  by_cases hopen : argv.getD 1 [] = ascii "open-file"
  · rw [if_pos hopen]
    exact computes_pure fun hstdout => ⟨by rw [hopen]; simp, hout hstdout⟩
  rw [if_neg hopen]
  exact computes_pure False.elim

lemma computes_passwordFileCommand (hargc : 2 ≤ argv.length) :
    Computes (Expected argv) (passwordFileCommand argv : Action kernel Task) := by
  refine .withFiles fun files options hparse => ?_
  have hout := exists_out_of_parsePasswordFileCommandOptions hargc hparse
  by_cases hseal : argv.getD 1 [] = ascii "seal-file-password"
  · rw [if_pos hseal]
    exact computes_pure fun hstdout => ⟨by rw [hseal]; simp, hout hstdout⟩
  rw [if_neg hseal]
  by_cases hopen : argv.getD 1 [] = ascii "open-file-password"
  · rw [if_pos hopen]
    exact computes_pure fun hstdout => ⟨by rw [hopen]; simp, hout hstdout⟩
  rw [if_neg hopen]
  exact computes_pure False.elim

/-- What is known of the tasks of a branch. -/
def Branch.Computes (P : Task → Prop) : Branch kernel → Prop
  | .command m => Dispatch.Computes P m
  | .refuse _ => True

lemma Branch.Computes.ite {P : Task → Prop} {c : Prop} [Decidable c] {b b' : Branch kernel}
    (hthen : c → b.Computes P) (helse : b'.Computes P) : (if c then b else b').Computes P := by
  by_cases h : c
  · simpa only [h, if_true] using hthen h
  · simpa only [h, if_false] using helse

/-- A file command streams to standard output only if its options say so; no other command does. -/
lemma computes_branchOf (host : Host) (argv : List Bytes) :
    (branchOf host argv : Branch kernel).Computes (Expected argv) := by
  have hprint : ∀ {task : Task}, ¬ task.StreamsToStdout →
      (Branch.command (pure task) : Branch kernel).Computes (Expected argv) := by
    intro task htask
    exact computes_pure fun h => absurd h htask
  have hrefuse : ∀ message, (Branch.refuse message : Branch kernel).Computes (Expected argv) :=
    fun _ => trivial
  unfold branchOf
  refine .ite (fun _ => hprint False.elim) (.ite (fun _ => hprint False.elim) ?_)
  refine .ite (fun _ => hprint False.elim) ?_
  refine .ite (fun _ => ?_) (.ite (fun _ => hrefuse _) ?_)
  · cases commandHelp (argv.getD 2 []) with
    | some usage => exact hprint False.elim
    | none => exact hrefuse _
  refine .ite (fun _ => computes_tokenCommand _) (.ite (fun _ => hrefuse _) ?_)
  refine .ite (fun _ => computes_sha256Command _) (.ite (fun _ => computes_sha256Command _) ?_)
  refine .ite (fun _ => hrefuse _) ?_
  refine .ite (fun _ => computes_hmacSha256Command _ _) ?_
  refine .ite (fun _ => computes_hmacSha256Command _ _) (.ite (fun _ => hrefuse _) ?_)
  refine .ite (fun _ => computes_hkdfSha256Command _ _ _ _) (.ite (fun _ => hrefuse _) ?_)
  refine .ite (fun _ => computes_printHex _) (.ite (fun _ => hrefuse _) ?_)
  refine .ite (fun _ => computes_decodeCommand _) (.ite (fun _ => hrefuse _) ?_)
  refine .ite (fun _ => computes_base64urlEncodeCommand _) (.ite (fun _ => hrefuse _) ?_)
  refine .ite (fun _ => computes_decodeCommand _) (.ite (fun _ => hrefuse _) ?_)
  refine .ite (fun _ => computes_keygenCommand _) (.ite (fun _ => hrefuse _) ?_)
  refine .ite (fun _ => computes_wrapKeyCommand) (.ite (fun _ => computes_unwrapKeyCommand) ?_)
  refine .ite (fun _ => computes_encryptCommand) (.ite (fun _ => computes_decryptCommand) ?_)
  refine .ite (fun h => computes_fileCommand h.1) ?_
  exact .ite (fun h => computes_passwordFileCommand h.1) (hrefuse _)

end Branches

/-! ## Runs -/

section Runs

/-- `fail` prints its message and gives 1. -/
lemma outcome_fail (message : String) (s : Session kernel) {Q : ℕ → Session kernel → Prop}
    {E : Failure → Session kernel → Prop} :
    Outcome (fail message) s Q E ↔ Q 1 { s with cerr := s.cerr ++ (ascii message ++ [0x0a]) } :=
  Iff.rfl

lemma outcome_onWorld {m : Action kernel α} {s : Session kernel} {Q : α → Session kernel → Prop}
    {E : Failure → Session kernel → Prop} :
    Outcome (onWorld m) s Q E ↔ Outcome m s.world (fun a w => Q a { s with world := w })
      (fun e w => E e { s with world := w }) := outcome_zoom

/-- What a failed run has to say: the usage of its branch, or what the failure says that has stopped
the computation or the performance of its task. -/
inductive Complains (host : Host) (argv : List Bytes) (s : Session kernel) : String → Prop
  | refused {message} (hbranch : (branchOf host argv : Branch kernel) = .refuse message) :
    Complains host argv s message
  | computing {m failure w} (hbranch : (branchOf host argv : Branch kernel) = .command m)
    (hrun : m s.world = .error failure w) : Complains host argv s failure.what
  | performing {m task w failure w'} (hbranch : (branchOf host argv : Branch kernel) = .command m)
    (hrun : m s.world = .ok task w) (hperform : task.perform host w = .error failure w') :
    Complains host argv s failure.what

/-- **A failed command prints nothing.**  A run ends with 0 or 1.  If it ends with 1, it has written
to standard error the line that says why, and unless the command was one that streams to standard
output, nothing has happened to that. -/
theorem run_fails_quietly (host : Host) (kernel : Kernel) (argv : List Bytes) (s : Session kernel) :
    ∃ status s', run host argv s = .ok status s' ∧ (status = 0 ∨ status = 1) ∧
      (status = 1 →
        (∃ message, Complains host argv s message ∧
          s'.cerr = s.cerr ++ (ascii message ++ [0x0a])) ∧
        (¬ StreamsToStdout argv → s'.world.output.cout = s.world.output.cout)) := by
  apply Returns.exists_ok
  rw [run, Returns, outcome_tryCatch]
  have hbranch : (branchOf host argv : Branch kernel).Computes (Expected argv) :=
    computes_branchOf host argv
  cases hcases : (branchOf host argv : Branch kernel) with
  | refuse message =>
    refine (outcome_fail message s).mpr ⟨.inr rfl, fun _ => ⟨⟨message, ?_, rfl⟩, fun _ => rfl⟩⟩
    exact .refused hcases
  | command m =>
    rw [hcases] at hbranch
    obtain ⟨hleaves, hexpected⟩ := hbranch
    have hkept := hleaves s.world.input s.world.output s.world ⟨rfl, rfl⟩
    rw [outcome_bind, outcome_onWorld]
    apply outcome_intro
    · intro task w hrun
      rw [outcome_bind, outcome_onWorld]
      apply outcome_intro
      · intro _ w' _
        exact ⟨.inl rfl, fun hone => by cases hone⟩
      · intro failure w' hperform
        have hcomplains := Complains.performing hcases hrun hperform
        refine ⟨.inr rfl, fun _ => ⟨⟨failure.what, hcomplains, rfl⟩, fun hstreams => ?_⟩⟩
        have htask : ¬ task.StreamsToStdout := fun h => hstreams (hexpected _ _ _ hrun h)
        rw [(failsQuietly_perform htask w).of_error hperform, (hkept.of_ok hrun).2]
    · intro failure w hrun
      refine ⟨.inr rfl, fun _ => ⟨⟨failure.what, .computing hcases hrun, rfl⟩, fun _ => ?_⟩⟩
      exact congrArg Command.cout (hkept.of_error hrun).2

end Runs

end SecureKit.Cli.Dispatch
