import SecureKit.Cli.ReadBack
import SecureKit.Cli.Verify
import SecureKit.File.RoundTrip

/-!
# The file commands in a pipe

`seal-file` with `--in - --out -` reads `std::cin` and writes `std::cout`, and so does `open-file`;
`verify-file` reads `std::cin`.  Where one of these commands is fed what another one has printed, with
the same options in any order, the plaintext comes back.

Between the round trip of the stream overloads and a run of the program stand the parser of the
options, the choice of the streams, and the flush of `std::cout`.

## The argument

`Turns` is what is known of an overload here: on an input that holds `b` it returns, and `P` holds of
what it writes.  For sealing `P` is that opening turns the bytes back (`open_seal_roundTrip`), for
opening that they are the plaintext.  `returns_streamToStdout` takes this to `std::cout`, and to the
exit status of the run.

`SharesOptions` compares the descriptions of two commands.  The second one takes the options of the
first, with the same values; `verify-file` has no `--out`, so there the pairs are those without it.
The parsers do not care about the order of the pairs, and that is where `Perm` comes from.

`FileCommands` is a family of three commands with one kind of secret.  `keyCommands` and
`passwordCommands` are the two instances, and `fileCommands_pipe` has both.

## What is assumed

Both runs have hosts with the same primitives, standard output takes everything and can be flushed,
and key and password files that could be read for sealing can still be read (`Kept`).
-/

namespace SecureKit.Cli

open ByteString Effect Iostream Evp Posix File

/-! ## The stream overloads -/

/-- The overload that seals. -/
def Secret.sealing : Secret → Operation
  | .key k => .seal_file k
  | .password p => .seal_file_with_password p

/-- The secret can be used with the additional data. -/
def Secret.Usable (secret : Secret) (aad : Bytes) : Prop :=
  match secret with
  | .key _ => kHeaderSize + kRecordHeaderSize + aad.length ≤ intMax
  | .password p => p ≠ [] ∧ kPasswordHeaderSize + kRecordHeaderSize + aad.length ≤ intMax

section Streams

variable {ssl ssl' : Openssl} {prim : Primitives} {operation : Operation} {aad b : Bytes}
  {P : Bytes → Prop}

/-- On an input that holds `b` the overload returns, and `P` holds of what it writes. -/
def Turns (ssl : Openssl) (operation : Operation) (aad b : Bytes) (P : Bytes → Prop) : Prop :=
  ∀ lib, Returns (operation.onStreams ssl aad)
    ({ input := .ofBytes b, output := {}, lib } : World OStream) fun _ w => P w.output.written

lemma Secret.roundTrips (hs : ssl.Sound prim) (hs' : ssl'.Sound prim)
    (ha : ssl.Available prim (2 ^ 20)) (ha' : ssl'.Available prim (2 ^ 20)) (hl : prim.gcm.Lengths)
    (hc : prim.gcm.Correct) {plaintext : Bytes} (hplaintext : plaintext.length ≤ 2 ^ 52)
    {secret : Secret} (husable : secret.Usable aad) :
    RoundTrips (secret.sealing.onStreams ssl aad) (secret.opening.onStreams ssl' aad) plaintext := by
  cases secret with
  | key key =>
    exact roundTrips_of_lawful (keyFormatLawful hs _ key) (keyFormatLawful hs' _ key) hs hs' ha ha' hl
      hc le_rfl hplaintext rfl (fun _ _ => by simp) husable
  | password password =>
    obtain ⟨hpassword, haad⟩ := husable
    show RoundTrips (sealFileWithPassword ssl password aad) (openFileWithPassword ssl' password aad) _
    rw [sealFileWithPassword_eq aad hpassword, openFileWithPassword_eq aad hpassword]
    exact roundTrips_of_lawful (passwordFormatLawful hs _ hpassword)
      (passwordFormatLawful hs' _ hpassword) hs hs' ha ha' hl hc le_rfl hplaintext rfl
      (fun _ _ => by simp) haad

/-- **Sealing** turns the plaintext into a file that opening turns back. -/
lemma Secret.turns_sealing (hs : ssl.Sound prim) (hs' : ssl'.Sound prim)
    (ha : ssl.Available prim (2 ^ 20)) (ha' : ssl'.Available prim (2 ^ 20)) (hl : prim.gcm.Lengths)
    (hc : prim.gcm.Correct) {plaintext : Bytes} (hplaintext : plaintext.length ≤ 2 ^ 52)
    {secret : Secret} (husable : secret.Usable aad) :
    Turns ssl secret.sealing aad plaintext fun file =>
      Turns ssl' secret.opening aad file fun text => text = plaintext := by
  have hround : RoundTrips _ _ plaintext :=
    secret.roundTrips hs hs' ha ha' hl hc hplaintext husable
  intro lib
  refine outcome_intro (fun _ w hseal lib' => ?_) fun e w hthrow => ?_
  · obtain ⟨file, w₁, w₂, hseal', hwritten, hopen, htext⟩ := hround lib lib' {} {} ⟨rfl, rfl⟩ ⟨rfl, rfl⟩
    rw [hseal] at hseal'
    cases hseal'
    rw [hwritten, Returns]
    refine outcome_intro (fun _ w' hopen' => ?_) fun e w' hthrow => ?_
    · rw [List.nil_append] at hopen'
      rw [hopen] at hopen'
      cases hopen'
      exact htext
    · rw [List.nil_append] at hthrow
      rw [hopen] at hthrow
      cases hthrow
  · obtain ⟨file, w₁, w₂, hseal, -⟩ := hround lib lib {} {} ⟨rfl, rfl⟩ ⟨rfl, rfl⟩
    rw [hseal] at hthrow
    cases hthrow

/-! ## Streams that take everything -/

/-- Both streams take everything, and have taken the same. -/
def TakeAlike (cout out : OStream) : Prop :=
  cout.Reliable ∧ out.Reliable ∧ cout.written = out.written

lemma writesAlike_reliable : WritesAlike TakeAlike fun _ _ => False := by
  intro data cout out h
  obtain ⟨hcout, hout, hwritten⟩ := h
  have hrun := writeAll_of_reliable hcout data
  refine outcome_intro (fun _ cout' hok => ?_) fun e cout' hthrow => ?_
  · rw [hrun] at hok
    cases hok
    exact ⟨_, writeAll_of_reliable hout data, hcout, hout, congrArg (· ++ data) hwritten⟩
  · rw [hrun] at hthrow
    cases hthrow

/-- What was recorded of the chunks before does not matter. -/
lemma Turns.returns (h : Turns ssl operation aad b P) {w : World OStream}
    (hinput : w.input = .ofBytes b) (hreliable : w.output.Reliable) (hempty : w.output.written = []) :
    Returns (operation.onStreams ssl aad) w fun _ w' =>
      w'.output.Reliable ∧ P w'.output.written := by
  have hside : SideBySide TakeAlike w
      ({ input := .ofBytes b, output := {}, lib := w.lib } : World OStream) :=
    ⟨hinput, rfl, hreliable, ⟨rfl, rfl⟩, hempty⟩
  refine ((simulates_onStreams writesAlike_reliable operation aad).outcome hside (h w.lib)).mono ?_ ?_
  · rintro _ w' ⟨w₂, -, hside', hP⟩
    obtain ⟨hreliable', -, hwritten⟩ := hside'.output
    exact ⟨hreliable', hwritten ▸ hP⟩
  · rintro e w' (hfalse | ⟨w₂, -, -, hfalse⟩)
    · exact hfalse
    · exact hfalse

end Streams

end SecureKit.Cli

namespace SecureKit.Cli.CommandLine

open ByteString Options Posix File

/-! ## The same options -/

/-- The pairs as they are, or without the output. -/
def sameOptions (withOut : Bool) : Translation Bytes Bytes Group Bytes Bytes Bytes Group Bytes where
  pair p := if withOut = false ∧ p.1 = ascii "--out" then none else some p
  source g := if withOut = false ∧ g = .output then none else some g
  value _ bytes := bytes
  injective := by
    intro g₁ g₂ g h₁ h₂
    split_ifs at h₁ h₂
    exact (Option.some.inj h₁).trans (Option.some.inj h₂).symm

/-- The second command takes the options of the first, and the output only if there is to be one. -/
structure SharesOptions (first second : CommandSpec) (withOut : Bool) : Prop where
  out_iff : ∀ e ∈ first.options, e.1 = ascii "--out" ↔ e.2.1 = .output
  shared : ∀ e ∈ first.options, ¬ (withOut = false ∧ e.2.1 = .output) →
    CommandSpec.find e.1 second.options = some e.2
  required : ∀ g ∈ second.required, ¬ (withOut = false ∧ g = .output) ∧ g ∈ first.required
  out : CommandSpec.find (ascii "--out") first.options = some (.output, .path)

lemma sharesOptions_fileCommand (withOut : Bool) :
    SharesOptions (fileCommand true) (fileCommand withOut) withOut := by
  cases withOut <;> constructor <;> decide

lemma sharesOptions_passwordFileCommand (withOut : Bool) :
    SharesOptions (passwordFileCommand true) (passwordFileCommand withOut) withOut := by
  cases withOut <;> constructor <;> decide

section Sharing

variable {first second : CommandSpec} {withOut : Bool} {files files' : Files}
  {pairs pairs' : List (Bytes × Bytes)} {values : Group → Option Bytes}

lemma SharesOptions.respects (h : SharesOptions first second withOut) (hkept : Kept files files')
    (p : Bytes × Bytes) :
    (sameOptions withOut).Respects (first.language files) (second.language files') p := by
  intro g v hgroup hmeans
  obtain ⟨kind, hfind, hmeans⟩ := exists_kind hgroup hmeans
  have hmem := Dispatch.mem_of_find hfind
  have hout : p.1 = ascii "--out" ↔ g = .output := h.out_iff _ hmem
  by_cases hdropped : withOut = false ∧ g = .output
  · refine .inl ⟨if_pos ⟨hdropped.1, hout.mpr hdropped.2⟩, fun g' hsource => ?_⟩
    simp only [sameOptions] at hsource
    split_ifs at hsource with hg'
    exact hg' ⟨hdropped.1, (Option.some.inj hsource).trans hdropped.2⟩
  · have hread := means_of_find (h.shared _ hmem hdropped) (hmeans.kept hkept)
    exact .inr ⟨g, p, if_neg hdropped, if_neg fun ho => hdropped ⟨ho.1, hout.mp ho.2⟩, hread⟩

/-- **The same options in any order** are in the language of the second command, and mean the same. -/
lemma SharesOptions.exists_values (h : SharesOptions first second withOut) (hkept : Kept files files')
    (haccepts : (first.language files).Accepts pairs)
    (hassigns : (first.language files).Assigns pairs values)
    (hpairs : pairs'.Perm (pairs.filterMap (sameOptions withOut).pair)) :
    ∃ values', (second.language files').Accepts pairs' ∧
      (second.language files').Assigns pairs' values' ∧
      ∀ g, ¬ (withOut = false ∧ g = .output) → values' g = values g := by
  have hrequired : ∀ g ∈ first.required, (values g).isSome := by
    obtain ⟨values₀, htakes, hsome⟩ := Language.accepts_iff_takes.mp haccepts
    rwa [hassigns.unique htakes.assigns]
  have htakes : (second.language files').Takes ((sameOptions withOut).values fun _ => none)
      (pairs.filterMap (sameOptions withOut).pair) ((sameOptions withOut).values values) :=
    Translation.takes (haccepts.takes hassigns) fun p _ => h.respects hkept p
  rw [Translation.values_none] at htakes
  have hplain : ∀ g, ¬ (withOut = false ∧ g = .output) →
      (sameOptions withOut).values values g = values g := by
    intro g hg
    rw [Translation.values, show (sameOptions withOut).source g = some g from if_neg hg]
    exact Option.map_id'
  have hcomplete : ∀ g ∈ second.required, ((sameOptions withOut).values values g).isSome := by
    intro g hg
    obtain ⟨hkept, hfirst⟩ := h.required g hg
    rw [hplain g hkept]
    exact hrequired g hfirst
  exact ⟨_, (Language.accepts_iff_takes.mpr ⟨_, htakes, hcomplete⟩).perm hpairs.symm,
    htakes.assigns.perm hpairs.symm, hplain⟩

/-- What the parser of the second command makes of the same options. -/
lemma SharesOptions.exists_parse {ρ ρ' : Type} {record : (Group → Option Bytes) → ρ}
    {record' : (Group → Option Bytes) → ρ'} {parse : List Bytes → Except Failure ρ}
    {parse' : List Bytes → Except Failure ρ'} {program command program' command' : Bytes} {options : ρ}
    (h : SharesOptions first second withOut) (hfirst : Exact first files record parse program command)
    (hsecond : Exact second files' record' parse' program' command') (hkept : Kept files files')
    (hparse : parse (program :: command :: arguments pairs) = .ok options)
    (hpairs : pairs'.Perm (pairs.filterMap (sameOptions withOut).pair)) :
    ∃ values values', (first.language files).Assigns pairs values ∧ options = record values ∧
      parse' (program' :: command' :: arguments pairs') = .ok (record' values') ∧
      ∀ g, ¬ (withOut = false ∧ g = .output) → values' g = values g := by
  obtain ⟨values, hassigns, hrecord⟩ := hfirst.record_eq pairs options hparse
  obtain ⟨pairs₀, hpairs₀, hadmits⟩ := (hfirst.accepts _).mp ⟨options, hparse⟩
  obtain rfl := arguments_injective hpairs₀
  obtain ⟨values', haccepts', hassigns', hsame⟩ :=
    h.exists_values hkept (CommandSpec.admits_iff.mp hadmits) hassigns hpairs
  obtain ⟨options', hparse'⟩ :=
    (hsecond.accepts _).mpr ⟨pairs', rfl, CommandSpec.admits_iff.mpr haccepts'⟩
  obtain ⟨values'', hassigns'', rfl⟩ := hsecond.record_eq pairs' options' hparse'
  obtain rfl := hassigns''.unique hassigns'
  exact ⟨values, values'', hassigns, hrecord, hparse', hsame⟩

end Sharing

end SecureKit.Cli.CommandLine

namespace SecureKit.Cli.Dispatch

open ByteString Effect Iostream Evp Posix File CommandLine

variable {kernel : Kernel}

/-! ## Pipes -/

/-- The run ends with 0 and has printed the bytes, where standard output takes everything. -/
def Succeeds (host : Host) (kernel : Kernel) (argv : List Bytes) (cin : IStream) (lib : Lib)
    (printed : Bytes) : Prop :=
  ∃ s', run host argv (Session.start kernel cin none lib) = .ok 0 s' ∧
    s'.world.output.cout.written = printed

/-- What sealing prints of the plaintext, opening turns back, and verification accepts: with the same
options in any order, on a file system that has kept its files. -/
def Pipes (host host' : Host) (kernel : Kernel) (program sealing opening verifying : Bytes)
    (pairs : List (Bytes × Bytes)) (plaintext : Bytes) : Prop :=
  ∀ lib, ∃ file,
    Succeeds host kernel (program :: sealing :: arguments pairs) (.ofBytes plaintext) lib file ∧
    ∀ kernel' program' lib', Kept (kernel.openInput 0) (kernel'.openInput 0) →
      (∀ pairs', pairs'.Perm pairs →
        Succeeds host' kernel' (program' :: opening :: arguments pairs') (.ofBytes file) lib'
          plaintext) ∧
      ∀ pairs', pairs'.Perm (pairs.filter fun p => p.1 ≠ ascii "--out") →
        Succeeds host' kernel' (program' :: verifying :: arguments pairs') (.ofBytes file) lib' []

section Performing

variable {host : Host} {options : Cli.FileCommandOptions} {operation : Operation} {b : Bytes}
  {P : Bytes → Prop} {w : World (Command kernel)}

lemma returns_streamToStdout (hturns : Turns host.ssl operation options.aad b P)
    (hinput : w.input = .ofBytes b) (houtput : w.output = { cout := { room := none } }) :
    Returns (streamToStdout (operation.onStreams host.ssl options.aad) : Action kernel Unit) w
      fun _ w' => w'.output.cout.Reliable ∧ P w'.output.cout.written := by
  rw [Returns, streamToStdout, outcome_bind, withOutput, outcome_zoom, outcome_securekit, houtput]
  refine (hturns.returns (by exact hinput) ⟨rfl, rfl⟩ rfl).mono ?_ fun _ _ h => h
  rintro _ w₁ ⟨hreliable, hP⟩
  rw [outcome_bind, outcome_get, outcome_throwIf]
  refine ⟨fun hfail => ?_, fun _ => ⟨hreliable, hP⟩⟩
  have hgood : w₁.output.state = {} := IoState.eq_of_good hreliable.1
  rw [hgood] at hfail
  cases hfail

/-- **A file command with `--in - --out -`** prints what the overload writes. -/
lemma returns_runOperation (hstdin : options.input_is_stdin = true)
    (hstdout : options.output_is_stdout = true) (hflushes : host.flushes = true)
    (hturns : Turns host.ssl operation options.aad b P) (hinput : w.input = .ofBytes b)
    (houtput : w.output = { cout := { room := none } }) :
    Returns (runOperation host options operation) w fun _ w' => P w'.output.cout.written := by
  rw [Returns, runOperation, if_pos (by rw [hstdin]; rfl), runStreaming, outcome_bind, streamingCommand,
    runStreamingFileCommand, outcome_tryCatch, outcome_bind, openCommandInput, hstdin, hstdout,
    if_neg (by decide), outcome_pure, if_pos rfl]
  refine (returns_streamToStdout hturns hinput houtput).mono ?_ fun _ _ h => h.elim
  rintro _ w' ⟨hreliable, hP⟩
  rw [if_pos rfl, outcome_bind, flushStdout, outcome_onCommand, outcome_modify,
    if_neg (by simp [hflushes]), outcome_bind, outcome_get, outcome_throwIf]
  refine ⟨fun hfail => ?_, fun _ => hP⟩
  have hgood : w'.output.cout.state = {} := IoState.eq_of_good hreliable.1
  rw [hgood] at hfail
  cases hfail

/-- **Verification with `--in -`** returns where opening does, and prints nothing. -/
lemma returns_runVerify (hstdin : options.input_is_stdin = true)
    (hturns : Turns host.ssl operation options.aad b P) (hinput : w.input = .ofBytes b)
    (houtput : w.output = { cout := { room := none } }) :
    Returns (runVerifyFileCommand options (operation.onStreams host.ssl options.aad)) w
      fun _ w' => w'.output.cout.written = [] := by
  rw [Returns, runVerifyFileCommand, outcome_bind, openCommandInput, hstdin, if_neg (by decide),
    outcome_pure, withOutput, outcome_zoom, outcome_securekit]
  refine (hturns.returns hinput ⟨rfl, rfl⟩ rfl).mono (fun _ w₁ _ => ?_) fun _ _ h => h
  rw [houtput]

end Performing

/-! ## Branches -/

section Branches

variable {host : Host} {program : Bytes} {pairs : List (Bytes × Bytes)}

lemma branchOf_fileCommand {command : Bytes}
    (h : command ∈ [ascii "seal-file", ascii "open-file", ascii "verify-file"]) (tail : List Bytes) :
    (branchOf host (program :: command :: tail) : Branch kernel) =
      .command (fileCommand (program :: command :: tail)) := by
  have hnot : ∀ command ∈ [ascii "seal-file", ascii "open-file", ascii "verify-file"],
      command ∉ plainCommands ++ [ascii "wrap-key", ascii "unwrap-key", ascii "encrypt",
        ascii "decrypt"] := by decide
  have hnames := hnot command h
  simp only [plainCommands, List.mem_append, List.mem_cons, List.not_mem_nil, or_false, not_or] at hnames h
  simp [branchOf, hnames, h]

lemma branchOf_passwordFileCommand {command : Bytes}
    (h : command ∈ [ascii "seal-file-password", ascii "open-file-password",
      ascii "verify-file-password"]) (tail : List Bytes) :
    (branchOf host (program :: command :: tail) : Branch kernel) =
      .command (passwordFileCommand (program :: command :: tail)) := by
  have hnot : ∀ command ∈ [ascii "seal-file-password", ascii "open-file-password",
      ascii "verify-file-password"], command ∉ plainCommands ++ [ascii "wrap-key", ascii "unwrap-key",
        ascii "encrypt", ascii "decrypt", ascii "seal-file", ascii "open-file",
        ascii "verify-file"] := by decide
  have hnames := hnot command h
  simp only [plainCommands, List.mem_append, List.mem_cons, List.not_mem_nil, or_false, not_or] at hnames h
  simp [branchOf, hnames, h]

/-- Options that are parsed leave the state alone. -/
lemma withFiles_bind {α : Type} {parse : Files → Except Failure α} {f : α → Action kernel Task} {a : α}
    {w : World (Command kernel)} (h : parse (filesOf w) = .ok a) :
    (do
      let options ← withFiles parse
      f options : Action kernel Task) w = f a w := by
  have hread : (withFiles parse : Action kernel α) w = .ok a w := by
    show exceptResult (parse (filesOf w)) w = _
    rw [h]
    rfl
  simp only [bind, EStateM.bind, hread]

lemma computed_fileCommand (host : Host) (cin : IStream) (lib : Lib) {command : Bytes}
    {options : CommandLine.FileCommandOptions}
    (h : command ∈ [ascii "seal-file", ascii "open-file", ascii "verify-file"])
    (hparse : parseFileCommandOptions (kernel.openInput 0) (program :: command :: arguments pairs) =
      .ok options) :
    Computed host (program :: command :: arguments pairs) (Session.start kernel cin none lib)
      (if command = ascii "seal-file" then .runOperation options.streams (.seal_file options.key)
      else if command = ascii "open-file" then .runOperation options.streams (.open_file options.key)
      else .verifyFile options.streams options.key) := by
  refine ⟨_, (Session.start kernel cin none lib).world, branchOf_fileCommand h _, ?_⟩
  rw [fileCommand, withFiles_bind hparse, List.getD_cons_succ, List.getD_cons_zero]
  split_ifs <;> rfl

lemma computed_passwordFileCommand (host : Host) (cin : IStream) (lib : Lib) {command : Bytes}
    {options : CommandLine.PasswordFileCommandOptions}
    (h : command ∈ [ascii "seal-file-password", ascii "open-file-password",
      ascii "verify-file-password"])
    (hparse : parsePasswordFileCommandOptions (kernel.openInput 0)
      (program :: command :: arguments pairs) = .ok options) :
    Computed host (program :: command :: arguments pairs) (Session.start kernel cin none lib)
      (if command = ascii "seal-file-password" then
        .runOperation options.streams (.seal_file_with_password options.password)
      else if command = ascii "open-file-password" then
        .runOperation options.streams (.open_file_with_password options.password)
      else .verifyFilePassword options.streams options.password) := by
  refine ⟨_, (Session.start kernel cin none lib).world, branchOf_passwordFileCommand h _, ?_⟩
  rw [passwordFileCommand, withFiles_bind hparse, List.getD_cons_succ, List.getD_cons_zero]
  split_ifs <;> rfl

end Branches

/-! ## Runs -/

/-- What `verify-file` and `verify-file-password` do last. -/
def verifyTask (secret : Secret) (options : Cli.FileCommandOptions) : Task :=
  match secret with
  | .key k => .verifyFile options k
  | .password p => .verifyFilePassword options p

lemma perform_verifyTask (host : Host) (secret : Secret) (options : Cli.FileCommandOptions) :
    ((verifyTask secret options).perform host : Action kernel Unit) =
      runVerifyFileCommand options (secret.opening.onStreams host.ssl options.aad) := by
  cases secret with
  | key key => rfl
  | password password => rfl

section Runs

variable {host : Host} {argv : List Bytes} {lib : Lib} {options : Cli.FileCommandOptions}
  {operation : Operation} {b : Bytes} {P : Bytes → Prop}

lemma exists_run_of_turns (h : Computed host argv (Session.start kernel (.ofBytes b) none lib)
      (.runOperation options operation)) (hstdin : options.input_is_stdin = true)
    (hstdout : options.output_is_stdout = true) (hflushes : host.flushes = true)
    (hturns : Turns host.ssl operation options.aad b P) :
    ∃ printed, Succeeds host kernel argv (.ofBytes b) lib printed ∧ P printed := by
  obtain ⟨status, s', hrun, hends⟩ := (h.returns_run fun w hinput houtput =>
    returns_runOperation hstdin hstdout hflushes hturns hinput houtput).exists_ok
  rcases hends with ⟨rfl, hP⟩ | ⟨-, -, hfalse⟩
  · exact ⟨_, ⟨s', hrun, rfl⟩, hP⟩
  · exact hfalse.elim

lemma succeeds_verify {secret : Secret}
    (h : Computed host argv (Session.start kernel (.ofBytes b) none lib) (verifyTask secret options))
    (hstdin : options.input_is_stdin = true) (hturns : Turns host.ssl secret.opening options.aad b P) :
    Succeeds host kernel argv (.ofBytes b) lib [] := by
  have hperform : ∀ w : World (Command kernel), w.input = .ofBytes b →
      w.output = { cout := { room := none } } → Returns ((verifyTask secret options).perform host) w
        fun _ w' => w'.output.cout.written = [] := by
    intro w hinput houtput
    rw [perform_verifyTask]
    exact returns_runVerify hstdin hturns hinput houtput
  obtain ⟨status, s', hrun, hends⟩ := (h.returns_run hperform).exists_ok
  rcases hends with ⟨rfl, hwritten⟩ | ⟨-, -, hfalse⟩
  · exact ⟨s', hrun, hwritten⟩
  · exact hfalse.elim

end Runs

/-! ## Sealing, opening and verifying -/

/-- Three commands with one kind of secret, which share their options. -/
structure FileCommands (ρ : Type) where
  spec : (hasOutput : Bool) → CommandSpec
  record : (Group → Option Bytes) → ρ
  parse : Files → List Bytes → Except Failure ρ
  sealing : Bytes
  opening : Bytes
  verifying : Bytes
  streams : ρ → Cli.FileCommandOptions
  secret : ρ → Secret
  shares : ∀ withOut, SharesOptions (spec true) (spec withOut) withOut
  exact_sealing : ∀ files program, Exact (spec true) files record (parse files) program sealing
  exact_opening : ∀ files program, Exact (spec true) files record (parse files) program opening
  exact_verifying : ∀ files program, Exact (spec false) files record (parse files) program verifying
  computed_sealing : ∀ {kernel program pairs options} host cin lib,
    parse (kernel.openInput 0) (program :: sealing :: arguments pairs) = .ok options →
    Computed host (program :: sealing :: arguments pairs) (Session.start kernel cin none lib)
      (.runOperation (streams options) (secret options).sealing)
  computed_opening : ∀ {kernel program pairs options} host cin lib,
    parse (kernel.openInput 0) (program :: opening :: arguments pairs) = .ok options →
    Computed host (program :: opening :: arguments pairs) (Session.start kernel cin none lib)
      (.runOperation (streams options) (secret options).opening)
  computed_verifying : ∀ {kernel program pairs options} host cin lib,
    parse (kernel.openInput 0) (program :: verifying :: arguments pairs) = .ok options →
    Computed host (program :: verifying :: arguments pairs) (Session.start kernel cin none lib)
      (verifyTask (secret options) (streams options))
  /-- Whether there is an output does not matter to the rest. -/
  congr : ∀ values values', (∀ g, g ≠ .output → values' g = values g) →
    secret (record values') = secret (record values) ∧
      (streams (record values')).aad = (streams (record values)).aad ∧
      (streams (record values')).input_is_stdin = (streams (record values)).input_is_stdin

lemma filterMap_sameOptions_true {pairs : List (Bytes × Bytes)} :
    pairs.filterMap (sameOptions true).pair = pairs := List.filterMap_some

lemma filterMap_sameOptions_false {pairs : List (Bytes × Bytes)} :
    pairs.filterMap (sameOptions false).pair = pairs.filter fun p => p.1 ≠ ascii "--out" := by
  rw [← List.filterMap_eq_filter]
  congr 1
  funext p
  by_cases h : p.1 = ascii "--out" <;> simp [sameOptions, Option.guard, h]

/-- **Opening turns back what sealing prints**, and verification accepts it. -/
theorem FileCommands.pipes {ρ : Type} (c : FileCommands ρ) {host host' : Host} {prim : Primitives}
    {program : Bytes} {pairs : List (Bytes × Bytes)} {plaintext : Bytes} (hs : host.ssl.Sound prim)
    (hs' : host'.ssl.Sound prim) (ha : host.ssl.Available prim (2 ^ 20))
    (ha' : host'.ssl.Available prim (2 ^ 20)) (hl : prim.gcm.Lengths) (hc : prim.gcm.Correct)
    (hflushes : host.flushes = true) (hflushes' : host'.flushes = true) {options : ρ}
    (hparse : c.parse (kernel.openInput 0) (program :: c.sealing :: arguments pairs) = .ok options)
    (hstdin : (c.streams options).input_is_stdin = true)
    (hstdout : (c.streams options).output_is_stdout = true)
    (husable : (c.secret options).Usable (c.streams options).aad)
    (hplaintext : plaintext.length ≤ 2 ^ 52) :
    Pipes host host' kernel program c.sealing c.opening c.verifying pairs plaintext := by
  intro lib
  obtain ⟨file, hsealed, hopens⟩ := exists_run_of_turns
    (c.computed_sealing host (.ofBytes plaintext) lib hparse) hstdin hstdout hflushes
    (Secret.turns_sealing hs hs' ha ha' hl hc hplaintext husable)
  have hfirst := c.exact_sealing (kernel.openInput 0) program
  refine ⟨file, hsealed, fun kernel' program' lib' hkept => ⟨fun pairs' hpairs => ?_,
    fun pairs' hpairs => ?_⟩⟩
  · rw [← @filterMap_sameOptions_true pairs] at hpairs
    obtain ⟨values, values', -, rfl, hparse', hsame⟩ := (c.shares true).exists_parse hfirst
      (c.exact_opening (kernel'.openInput 0) program') hkept hparse hpairs
    obtain rfl : values' = values := funext fun g => hsame g (by simp)
    obtain ⟨printed, hprinted, rfl⟩ := exists_run_of_turns
      (c.computed_opening host' (.ofBytes file) lib' hparse') hstdin hstdout hflushes' hopens
    exact hprinted
  · -- Verification, which is opening to a stream that drops everything.
    rw [← filterMap_sameOptions_false] at hpairs
    obtain ⟨values, values', -, rfl, hparse', hsame⟩ := (c.shares false).exists_parse hfirst
      (c.exact_verifying (kernel'.openInput 0) program') hkept hparse hpairs
    obtain ⟨hsecret, haad, hinput⟩ := c.congr values values' fun g hg => hsame g (by simp [hg])
    rw [← hsecret, ← haad] at hopens
    exact succeeds_verify (c.computed_verifying host' (.ofBytes file) lib' hparse')
      (hinput.trans hstdin) hopens

/-- `seal-file`, `open-file` and `verify-file` -/
def keyCommands : FileCommands CommandLine.FileCommandOptions where
  spec := CommandLine.fileCommand
  record := FileCommandOptions.ofValues
  parse := parseFileCommandOptions
  sealing := ascii "seal-file"
  opening := ascii "open-file"
  verifying := ascii "verify-file"
  streams := CommandLine.FileCommandOptions.streams
  secret options := .key options.key
  shares := sharesOptions_fileCommand
  exact_sealing files program := exact_fileCommand files program (by decide)
  exact_opening files program := exact_fileCommand files program (by decide)
  exact_verifying files program := exact_fileCommand files program (by decide)
  computed_sealing host cin lib hparse := by
    have h := computed_fileCommand host cin lib (by simp) hparse
    rwa [if_pos rfl] at h
  computed_opening host cin lib hparse := by
    have h := computed_fileCommand host cin lib (by simp) hparse
    rwa [if_neg (by decide), if_pos rfl] at h
  computed_verifying host cin lib hparse := by
    have h := computed_fileCommand host cin lib (by simp) hparse
    rwa [if_neg (by decide), if_neg (by decide)] at h
  congr values values' hsame := by
    simp [FileCommandOptions.ofValues, CommandLine.FileCommandOptions.streams, hsame]

/-- Their variants with a password. -/
def passwordCommands : FileCommands PasswordFileCommandOptions where
  spec := CommandLine.passwordFileCommand
  record := PasswordFileCommandOptions.ofValues
  parse := parsePasswordFileCommandOptions
  sealing := ascii "seal-file-password"
  opening := ascii "open-file-password"
  verifying := ascii "verify-file-password"
  streams := PasswordFileCommandOptions.streams
  secret options := .password options.password
  shares := sharesOptions_passwordFileCommand
  exact_sealing files program := exact_passwordFileCommand files program (by decide)
  exact_opening files program := exact_passwordFileCommand files program (by decide)
  exact_verifying files program := exact_passwordFileCommand files program (by decide)
  computed_sealing host cin lib hparse := by
    have h := computed_passwordFileCommand host cin lib (by simp) hparse
    rwa [if_pos rfl] at h
  computed_opening host cin lib hparse := by
    have h := computed_passwordFileCommand host cin lib (by simp) hparse
    rwa [if_neg (by decide), if_pos rfl] at h
  computed_verifying host cin lib hparse := by
    have h := computed_passwordFileCommand host cin lib (by simp) hparse
    rwa [if_neg (by decide), if_neg (by decide)] at h
  congr values values' hsame := by
    simp [PasswordFileCommandOptions.ofValues, PasswordFileCommandOptions.streams, hsame]

/-- A password that is parsed is not empty. -/
lemma password_ne_nil {files : Files} {program command : Bytes} {hasOutput : Bool}
    {pairs : List (Bytes × Bytes)}
    {options : PasswordFileCommandOptions}
    (hexact : Exact (CommandLine.passwordFileCommand hasOutput) files PasswordFileCommandOptions.ofValues
      (parsePasswordFileCommandOptions files) program command)
    (hparse : parsePasswordFileCommandOptions files (program :: command :: arguments pairs) =
      .ok options) : options.password ≠ [] := by
  obtain ⟨values, hassigns, rfl⟩ := hexact.record_eq pairs options hparse
  obtain ⟨pairs₀, hpairs₀, hadmits⟩ := (hexact.accepts _).mp ⟨_, hparse⟩
  obtain rfl := arguments_injective hpairs₀
  obtain ⟨values₀, htakes, hrequired⟩ :=
    Options.Language.accepts_iff_takes.mp (CommandSpec.admits_iff.mp hadmits)
  obtain rfl := hassigns.unique htakes.assigns
  have hmem : Group.password ∈ (CommandLine.passwordFileCommand hasOutput).required := by
    cases hasOutput <;> decide
  obtain ⟨password, hpassword⟩ := Option.isSome_iff_exists.mp (hrequired _ hmem)
  obtain ⟨p, -, hgroup, hmeans⟩ := (hassigns _ _).mp hpassword
  obtain ⟨kind, hfind, hmeans⟩ := exists_kind hgroup hmeans
  have hkinds : ∀ e ∈ (CommandLine.passwordFileCommand hasOutput).options, e.2.1 = .password →
      e.2.2 = .passwordFile := by
    cases hasOutput <;> decide
  obtain rfl : kind = .passwordFile := hkinds _ (mem_of_find hfind) rfl
  show (values .password).getD [] ≠ []
  rw [hpassword]
  exact hmeans.2

/-- **The file commands in a pipe.**  With `--in - --out -`, opening turns back what sealing prints, and
verification accepts it, under a key and under a password. -/
theorem fileCommands_pipe {host host' : Host} {prim : Primitives} (hs : host.ssl.Sound prim)
    (hs' : host'.ssl.Sound prim) (ha : host.ssl.Available prim (2 ^ 20))
    (ha' : host'.ssl.Available prim (2 ^ 20)) (hl : prim.gcm.Lengths) (hc : prim.gcm.Correct)
    (hflushes : host.flushes = true) (hflushes' : host'.flushes = true) (kernel : Kernel)
    (program plaintext : Bytes) (hplaintext : plaintext.length ≤ 2 ^ 52) :
    (∀ pairs options, parseFileCommandOptions (kernel.openInput 0)
        (program :: ascii "seal-file" :: arguments pairs) = .ok options →
      options.input_is_stdin = true → options.output_is_stdout = true →
      kHeaderSize + kRecordHeaderSize + options.aad.length ≤ intMax →
      Pipes host host' kernel program (ascii "seal-file") (ascii "open-file") (ascii "verify-file") pairs
        plaintext) ∧
    ∀ pairs options, parsePasswordFileCommandOptions (kernel.openInput 0)
        (program :: ascii "seal-file-password" :: arguments pairs) = .ok options →
      options.input_is_stdin = true → options.output_is_stdout = true →
      kPasswordHeaderSize + kRecordHeaderSize + options.aad.length ≤ intMax →
      Pipes host host' kernel program (ascii "seal-file-password") (ascii "open-file-password")
        (ascii "verify-file-password") pairs plaintext := by
  constructor
  · intro pairs options hparse hstdin hstdout haad
    exact keyCommands.pipes hs hs' ha ha' hl hc hflushes hflushes' hparse hstdin hstdout haad hplaintext
  · intro pairs options hparse hstdin hstdout haad
    have hpassword := password_ne_nil (passwordCommands.exact_sealing _ program) hparse
    exact passwordCommands.pipes hs hs' ha ha' hl hc hflushes hflushes' hparse hstdin hstdout
      ⟨hpassword, haad⟩ hplaintext

/-! ## A sample -/

lemma FileCommands.parse_of_takes {ρ : Type} (c : FileCommands ρ) (files : Files) (program : Bytes)
    {pairs : List (Bytes × Bytes)} {values : Group → Option Bytes}
    (htakes : ((c.spec true).language files).Takes (fun _ => none) pairs values)
    (hrequired : ∀ g ∈ (c.spec true).required, (values g).isSome) :
    c.parse files (program :: c.sealing :: arguments pairs) = .ok (c.record values) := by
  have haccepts : ((c.spec true).language files).Accepts pairs :=
    Options.Language.accepts_iff_takes.mpr ⟨values, htakes, hrequired⟩
  have hexact := c.exact_sealing files program
  obtain ⟨options, hparse⟩ := (hexact.accepts _).mpr ⟨pairs, rfl, CommandSpec.admits_iff.mpr haccepts⟩
  obtain ⟨values', hassigns, rfl⟩ := hexact.record_eq pairs options hparse
  rwa [hassigns.unique htakes.assigns] at hparse

/-- `--in - --out - --key-hex 00…` -/
def keySample : List (Bytes × Bytes) :=
  [(ascii "--in", ascii "-"), (ascii "--out", ascii "-"), (ascii "--key-hex", zeroKey)]

/-- `--in - --out - --password-file p` -/
def passwordSample : List (Bytes × Bytes) :=
  [(ascii "--in", ascii "-"), (ascii "--out", ascii "-"), (ascii "--password-file", [0x70])]

def pipeValues (g : Group) (secret : Bytes) : Group → Option Bytes :=
  Function.update (Function.update (Function.update (fun _ => none) .input (some (ascii "-")))
    .output (some (ascii "-"))) g (some secret)

lemma takes_keySample (files : Files) : ((CommandLine.fileCommand true).language files).Takes
    (fun _ => none) keySample (pipeValues .key (ByteArr.zeros 32 : key256)) := by
  have hin : CommandSpec.find (ascii "--in") (CommandLine.fileCommand true).options =
      some (.input, .path) := by decide
  have hinput : _ ∧ ((CommandLine.fileCommand true).language files).Means (ascii "--in") (ascii "-")
      (ascii "-") := means_of_find hin rfl
  have houtput := means_out files (sharesOptions_fileCommand true).out (ascii "-")
  have hkey : CommandSpec.find (ascii "--key-hex") (CommandLine.fileCommand true).options =
      some (.key, .keyHex) := by decide
  have hsecret := means_of_find hkey (means_zeroKey files)
  exact .cons hinput.1 rfl hinput.2 (.cons houtput.1 rfl houtput.2
    (.cons hsecret.1 rfl hsecret.2 (.nil _)))

lemma takes_passwordSample {files : Files} (hfile : files [0x70] = some (.finite [0x70] .eof)) :
    ((CommandLine.passwordFileCommand true).language files).Takes (fun _ => none) passwordSample
      (pipeValues .password [0x70]) := by
  have hin : CommandSpec.find (ascii "--in") (CommandLine.passwordFileCommand true).options =
      some (.input, .path) := by decide
  have hinput : _ ∧ ((CommandLine.passwordFileCommand true).language files).Means (ascii "--in")
      (ascii "-") (ascii "-") := means_of_find hin rfl
  have houtput := means_out files (sharesOptions_passwordFileCommand true).out (ascii "-")
  have hpassword : CommandSpec.find (ascii "--password-file")
      (CommandLine.passwordFileCommand true).options = some (.password, .passwordFile) := by
    decide
  have hmeans : ValueKind.passwordFile.Means files [0x70] [0x70] := ⟨hfile, by simp⟩
  have hsecret := means_of_find hpassword hmeans
  exact .cons hinput.1 rfl hinput.2 (.cons houtput.1 rfl houtput.2
    (.cons hsecret.1 rfl hsecret.2 (.nil _)))

theorem fileCommands_pipe_sample :
    Pipes withoutDigests withoutDigests (delivering 0 .linked [0x70]) (ascii "securekit")
        (ascii "seal-file") (ascii "open-file") (ascii "verify-file") keySample [0x62] ∧
      Pipes withoutDigests withoutDigests (delivering 0 .linked [0x70]) (ascii "securekit")
        (ascii "seal-file-password") (ascii "open-file-password") (ascii "verify-file-password")
        passwordSample [0x62] := by
  have hflushes : withoutDigests.flushes = true := rfl
  obtain ⟨hkey, hpassword⟩ := fileCommands_pipe standardLibrary_sound standardLibrary_sound
    (standardLibrary_available _) (standardLibrary_available _) standard_lengths standard_exact.correct
    hflushes hflushes (delivering 0 .linked [0x70]) (ascii "securekit") [0x62] (by decide)
  have hkeyParse : parseFileCommandOptions ((delivering 0 .linked [0x70]).openInput 0)
      (ascii "securekit" :: ascii "seal-file" :: arguments keySample) =
      .ok (FileCommandOptions.ofValues (pipeValues .key (ByteArr.zeros 32 : key256))) :=
    keyCommands.parse_of_takes ((delivering 0 .linked [0x70]).openInput 0) (ascii "securekit")
      (takes_keySample _) (by decide)
  have hpasswordParse : parsePasswordFileCommandOptions ((delivering 0 .linked [0x70]).openInput 0)
      (ascii "securekit" :: ascii "seal-file-password" :: arguments passwordSample) =
      .ok (PasswordFileCommandOptions.ofValues (pipeValues .password [0x70])) :=
    passwordCommands.parse_of_takes ((delivering 0 .linked [0x70]).openInput 0) (ascii "securekit")
      (takes_passwordSample rfl) (by decide)
  exact ⟨hkey _ _ hkeyParse rfl rfl (by decide), hpassword _ _ hpasswordParse rfl rfl (by decide)⟩

end SecureKit.Cli.Dispatch
