import SecureKit.Cli.ExitStatus
import SecureKit.Packet.OneShot

/-!
# Reading back what a command has made

`encrypt` and `wrap-key` leave a packet, in hexadecimal digits on standard output or in the file that
`--out` names, and `decrypt` and `unwrap-key` take one by `--packet-hex` or `--packet-file`.

The arguments of the second command are those of the first with the packet in the place of the input
(`replaced`), in any order, and with an output of its own.  This is a translation between the
languages of the two commands, so the loops of the two parsers need not be compared.
`decrypt_reads_encrypt` and `unwrapKey_reads_wrapKey` say that the second run then gives the input of
the first.

## The argument

A run of the first command that returns has computed a packet, and its task puts it on standard
output or into a file.  From the packet on there are three steps.

* `ReadsBack` compares the descriptions of the two commands: what the second one requires is given by
  the pairs of the first one and the option that names the packet.
* `Offers` says that this option means the packet, as digits or as the contents of a file.
* `packet_chunking` and `decrypt_exact` say that the packet decrypts to its text; the same functions
  stand behind `wrap_key` and `unwrap_key`.

`ComesBack` is the statement for both pairs of commands.  The second run prints the text, or puts it
into the file of its own `--out`.

## What is assumed

Both hosts compute the same primitives and are available, and the files that were read before can
still be read.  The first run has succeeded and delivered what it printed; that its status says so
is the subject of `Cli.ExitStatus`.
-/

namespace SecureKit.Cli.CommandLine

open ByteString Options Posix File

deriving instance DecidableEq for ValueKind

/-! ## The arguments of the second command -/

/-- What becomes of a pair: the packet takes the place of the input, and the output is left out. -/
def replaced (given : List Bytes) (option p : Bytes × Bytes) : Option (Bytes × Bytes) :=
  if p.1 ∈ given then some option else if p.1 = ascii "--out" then none else some p

/-- The option `--out`, where there is an output. -/
def outPairs (out : Option Path) : List (Bytes × Bytes) := out.toList.map (Prod.mk (ascii "--out"))

/-- The pairs of the second command. -/
def IsReadBack (given : List Bytes) (pairs : List (Bytes × Bytes)) (option : Bytes × Bytes)
    (out : Option Path) (pairs' : List (Bytes × Bytes)) : Prop :=
  pairs'.Perm (pairs.filterMap (replaced given option) ++ outPairs out)

/-- The option names the packet. -/
def Offers (files : Files) (option : Bytes × Bytes) (packet : Bytes) : Prop :=
  ∃ kind, (option.1, Group.packet, kind) ∈ packetOptions ∧ kind.Means files option.2 packet

/-- What could be read can still be read. -/
def Kept (files files' : Files) : Prop :=
  ∀ path source, files path = some source → files' path = some source

/-- The packet means itself in the group `place`, and the others mean what they meant. -/
def readBack (given : List Bytes) (place : Group) (option : Bytes × Bytes) (packet : Bytes) :
    Translation Bytes Bytes Group Bytes Bytes Bytes Group Bytes where
  pair := replaced given option
  source g :=
    if g = .packet then some place else if g = place ∨ g = .output then none else some g
  value g bytes := if g = place then packet else bytes
  injective := by
    intro g₁ g₂ g h₁ h₂
    split_ifs at h₁ h₂ <;> simp_all

/-- The second command takes the options of the first, but for those of the input and the output. -/
structure ReadsBack (writer reader : CommandSpec) (given : List Bytes) (place : Group) : Prop where
  place_ne : place ≠ .output
  given_iff : ∀ e ∈ writer.options, e.1 ∈ given ↔ e.2.1 = place
  out_iff : ∀ e ∈ writer.options, e.1 = ascii "--out" ↔ e.2.1 = .output
  writer_out : CommandSpec.find (ascii "--out") writer.options = some (.output, .path)
  packet_ne : ∀ e ∈ writer.options, e.2.1 ≠ .packet
  shared : ∀ e ∈ writer.options, e.2.1 ≠ place → e.2.1 ≠ .output →
    CommandSpec.find e.1 reader.options = some e.2
  packet : ∀ e ∈ packetOptions, CommandSpec.find e.1 reader.options = some e.2
  out : CommandSpec.find (ascii "--out") reader.options = some (.output, .path)
  place_required : place ∈ writer.required
  required : ∀ g ∈ reader.required,
    g = .packet ∨ g ≠ .packet ∧ g ≠ place ∧ g ≠ .output ∧ g ∈ writer.required

lemma readsBack_encrypt :
    ReadsBack encryptCommand decryptCommand [ascii "--text", ascii "--in"] .plaintext := by
  constructor <;> decide

section Reading

variable {writer reader : CommandSpec} {given : List Bytes} {place : Group} {files files' : Files}
  {option : Bytes × Bytes} {packet : Bytes} {pairs pairs' : List (Bytes × Bytes)}
  {values : Group → Option Bytes} {out : Option Path}

lemma ValueKind.Means.kept {kind : ValueKind} {value bytes : Bytes} (h : kind.Means files value bytes)
    (hkept : Kept files files') : kind.Means files' value bytes := by
  cases kind with
  | path | text | hex | keyHex => exact h
  | file => exact hkept _ _ h
  | passwordFile => exact ⟨hkept _ _ h.1, h.2⟩
  | keyFile =>
    obtain ⟨content, digits, hfile, hrest⟩ := h
    exact ⟨content, digits, hkept _ _ hfile, hrest⟩

/-- An option that is found names its group and means what its kind says. -/
lemma means_of_find {spec : CommandSpec} {o x v : Bytes} {g : Group} {kind : ValueKind}
    (hfind : CommandSpec.find o spec.options = some (g, kind)) (h : kind.Means files x v) :
    (spec.language files).group o = some g ∧ (spec.language files).Means o x v := by
  refine ⟨?_, ⟨g, kind⟩, hfind, h⟩
  show (CommandSpec.find o spec.options).map Prod.fst = some g
  rw [hfind]
  rfl

/-- The option `--out` names a path. -/
lemma means_out {spec : CommandSpec} (files : Files)
    (hfind : CommandSpec.find (ascii "--out") spec.options = some (.output, .path)) (path : Path) :
    (spec.language files).group (ascii "--out") = some .output ∧
      (spec.language files).Means (ascii "--out") path path := means_of_find hfind rfl

/-- What an option of a group means, its kind says. -/
lemma exists_kind {spec : CommandSpec} {o x v : Bytes} {g : Group}
    (hgroup : (spec.language files).group o = some g) (h : (spec.language files).Means o x v) :
    ∃ kind, CommandSpec.find o spec.options = some (g, kind) ∧ kind.Means files x v := by
  obtain ⟨⟨g', kind⟩, hfind, hmeans⟩ := h
  have hgroup : (CommandSpec.find o spec.options).map Prod.fst = some g := hgroup
  rw [hfind] at hgroup
  obtain rfl : g' = g := Option.some.inj hgroup
  exact ⟨kind, hfind, hmeans⟩

/-- Each pair is translated. -/
lemma ReadsBack.respects (h : ReadsBack writer reader given place) (hkept : Kept files files')
    (hoption : Offers files' option packet) (p : Bytes × Bytes) :
    (readBack given place option packet).Respects (writer.language files) (reader.language files') p := by
  intro g v hgroup hmeans
  obtain ⟨kind, hfind, hmeans⟩ := exists_kind hgroup hmeans
  have hmem := Dispatch.mem_of_find hfind
  have hgiven : p.1 ∈ given ↔ g = place := h.given_iff _ hmem
  have hout : p.1 = ascii "--out" ↔ g = .output := h.out_iff _ hmem
  have hpacket : g ≠ .packet := h.packet_ne _ hmem
  -- An option for the input is replaced by the one that names the packet.
  by_cases hplace : g = place
  · obtain ⟨kind', hoptions, hmeans'⟩ := hoption
    have hvalue : (readBack given place option packet).value g v = packet := if_pos hplace
    have hread := means_of_find (h.packet _ hoptions) hmeans'
    refine .inr ⟨.packet, option, congrArg some hplace.symm, if_pos (hgiven.mpr hplace), hread.1, ?_⟩
    rw [hvalue]
    exact hread.2
  · have hnot : p.1 ∉ given := fun hin => hplace (hgiven.mp hin)
    -- The output is left out, and all other options stay what they are.
    by_cases houtput : g = .output
    · refine .inl ⟨(if_neg hnot).trans (if_pos (hout.mpr houtput)), fun g' hsource => ?_⟩
      have hne := h.place_ne
      simp only [readBack] at hsource
      split_ifs at hsource <;> simp_all
    · have hvalue : (readBack given place option packet).value g v = v := if_neg hplace
      have hread := means_of_find (h.shared _ hmem hplace houtput) (hmeans.kept hkept)
      refine .inr ⟨g, p, ?_, (if_neg hnot).trans (if_neg fun ho => houtput (hout.mp ho)), hread.1, ?_⟩
      · simp [readBack, hpacket, hplace, houtput]
      · rw [hvalue]
        exact hread.2

/-- **The arguments of the second command** are in its language.  They mean the packet and, besides the
output, what those of the first command meant. -/
lemma ReadsBack.exists_values (h : ReadsBack writer reader given place) (hkept : Kept files files')
    (hoption : Offers files' option packet) (haccepts : (writer.language files).Accepts pairs)
    (hassigns : (writer.language files).Assigns pairs values)
    (hpairs : IsReadBack given pairs option out pairs') :
    ∃ values', (reader.language files').Accepts pairs' ∧
      (reader.language files').Assigns pairs' values' ∧ values' .packet = some packet ∧
      values' .output = out ∧
      ∀ g, g ≠ .packet → g ≠ place → g ≠ .output → values' g = values g := by
  let t := readBack given place option packet
  have hrequired : ∀ g ∈ writer.required, (values g).isSome := by
    obtain ⟨values₀, htakes, hsome⟩ := Language.accepts_iff_takes.mp haccepts
    rwa [hassigns.unique htakes.assigns]
  have htakes : (reader.language files').Takes (t.values fun _ => none)
      (pairs.filterMap (replaced given option)) (t.values values) :=
    Translation.takes (haccepts.takes hassigns) fun p _ => h.respects hkept hoption p
  have hfree : t.values values .output = none := by
    have hsource : t.source .output = none := by simp [t, readBack]
    simp [Translation.values, hsource]
  -- The second command has an output of its own, in a group that was left free.
  have hall : (reader.language files').Takes (fun _ => none)
      (pairs.filterMap (replaced given option) ++ outPairs out)
      (Function.update (t.values values) .output out) := by
    rw [Translation.values_none] at htakes
    refine htakes.append ?_
    cases out with
    | none =>
      rw [Function.update_eq_self_iff.mpr hfree.symm]
      exact .nil _
    | some path =>
      have hread := means_out files' h.out path
      exact .cons hread.1 hfree hread.2 (.nil _)
  have hplain : ∀ g, g ≠ .packet → g ≠ place → g ≠ .output →
      Function.update (t.values values) .output out g = values g := by
    intro g hpacket hplace houtput
    rw [Function.update_of_ne houtput]
    simp [Translation.values, t, readBack, hpacket, hplace, houtput]
  -- The input was required, so the packet has come in its place.
  have hplaced : Function.update (t.values values) .output out .packet = some packet := by
    obtain ⟨v, hv⟩ := Option.isSome_iff_exists.mp (hrequired place h.place_required)
    rw [Function.update_of_ne (by simp)]
    simp [Translation.values, t, readBack, hv]
  have hcomplete : ∀ g ∈ reader.required,
      (Function.update (t.values values) .output out g).isSome := by
    intro g hg
    rcases h.required g hg with rfl | ⟨hpacket, hplace, houtput, hwriter⟩
    · rw [hplaced]
      rfl
    · rw [hplain g hpacket hplace houtput]
      exact hrequired g hwriter
  refine ⟨_, (Language.accepts_iff_takes.mpr ⟨_, hall, hcomplete⟩).perm hpairs.symm,
    hall.assigns.perm hpairs.symm, hplaced, Function.update_self _ _ _, hplain⟩

/-- The output of the first command is what `--out` names. -/
lemma ReadsBack.output_iff (h : ReadsBack writer reader given place)
    (hassigns : (writer.language files).Assigns pairs values) (path : Path) :
    values .output = some path ↔ (ascii "--out", path) ∈ pairs := by
  rw [hassigns]
  constructor
  · rintro ⟨p, hp, hgroup, hmeans⟩
    obtain ⟨kind, hfind, hmeans⟩ := exists_kind hgroup hmeans
    have hname : p.1 = ascii "--out" := (h.out_iff _ (Dispatch.mem_of_find hfind)).mpr rfl
    rw [hname, h.writer_out] at hfind
    cases hfind
    have hvalue : path = p.2 := hmeans
    rwa [← hname, hvalue]
  · intro hp
    have hread := means_out files h.writer_out path
    exact ⟨_, hp, hread⟩

end Reading

end SecureKit.Cli.CommandLine

namespace SecureKit.Cli.Dispatch

open ByteString Effect Iostream Evp Posix File CommandLine

variable {kernel : Kernel} {α ρ : Type}

/-! ## What a run leaves -/

/-- The packet is in the file that `--out` names, and without one its digits are on standard output. -/
def LeavesPacket (pairs : List (Bytes × Bytes)) (w : World (Command kernel)) (packet : Bytes) : Prop :=
  (∀ path, (ascii "--out", path) ∈ pairs → Delivered w.output.trace path packet) ∧
    ((∀ p ∈ pairs, p.1 ≠ ascii "--out") → w.output.cout.written = hexText packet ++ [0x0a])

/-- Without an output the run succeeds and prints the text, and with one it puts the bytes there if it
succeeds. -/
def Leaves (host : Host) (kernel : Kernel) (argv : List Bytes) (cin : IStream) (lib : Lib)
    (out : Option Path) (printed bytes : Bytes) : Prop :=
  ∃ status s', run host argv (Session.start kernel cin none lib) = .ok status s' ∧
    match out with
    | none => status = 0 ∧ s'.world.output.cout.written = printed
    | some path =>
      (status = 0 ∨ status = 1) ∧ (status = 0 → Delivered s'.world.output.trace path bytes)

/-- A run has left a packet from which a run of the other command makes the text or the bytes: on a file
system that has kept its files, with the packet in the place of the options `given`, and with all
options in any order. -/
def ComesBack (host' : Host) (command : Bytes) (given : List Bytes) (pairs : List (Bytes × Bytes))
    (s : Session kernel) (printed bytes : Bytes) : Prop :=
  ∃ packet, LeavesPacket pairs s.world packet ∧
    ∀ (kernel' : Kernel) (option : Bytes × Bytes) (out : Option Path) (pairs' : List (Bytes × Bytes))
      (program : Bytes) (cin : IStream) (lib : Lib),
      Kept (kernel.openInput 0) (kernel'.openInput 0) →
      Offers (kernel'.openInput 0) option packet → IsReadBack given pairs option out pairs' →
      Leaves host' kernel' (program :: command :: arguments pairs') cin lib out printed bytes

section Runs

variable {host : Host} {argv : List Bytes} {cin : IStream} {lib : Lib} {task : Task}

/-- A run that ends with 0 has come to a task. -/
lemma exists_computed {s s' : Session kernel} (h : run host argv s = .ok 0 s') :
    ∃ task, Computed host argv s task := by
  by_contra hnone
  have hone := (returns_run_of_not_computed (not_exists.mp hnone)).of_ok h
  cases hone

lemma Computed.prints {text : Bytes} (h : Computed host argv (Session.start kernel cin none lib) task)
    (hprinted : task.printed = some text) :
    Returns (run host argv) (Session.start kernel cin none lib) fun status s' =>
      status = 0 ∧ s'.world.output.cout.written = text := by
  refine (h.returns_run fun w _ houtput =>
    returns_perform_printed hprinted (congrArg Command.cout houtput)).mono ?_ fun _ _ hfalse => hfalse
  rintro status s' (⟨hstatus, hwritten⟩ | ⟨-, -, hfalse⟩)
  · exact ⟨hstatus, hwritten.mpr fun n hn => by cases hn⟩
  · exact hfalse.elim

lemma Computed.accepts (h : Computed host argv (Session.start kernel cin none lib) task)
    (hprinted : task.printed = none) :
    Returns (run host argv) (Session.start kernel cin none lib) fun status s' =>
      (status = 0 ∨ status = 1) ∧ (status = 0 → task.Accepted host cin s'.world) := by
  have hperform : ∀ w : World (Command kernel), w.input = cin →
      w.output = { cout := { room := none } } → Outcome (task.perform host) w
        (fun _ w' => task.Accepted host cin w') fun _ _ => True := by
    intro w hinput houtput
    exact hinput ▸ outcome_perform_accepted hprinted houtput
  refine (h.returns_run hperform).mono ?_ fun _ _ hfalse => hfalse
  rintro status s' (⟨rfl, haccepted⟩ | ⟨rfl, -⟩)
  · exact ⟨.inl rfl, fun _ => haccepted⟩
  · exact ⟨.inr rfl, fun hzero => by cases hzero⟩

end Runs

/-! ## Commands that make packets -/

section Making

variable {host : Host} {w : World (Command kernel)}

/-- What `wrap-key` and `encrypt` do with their packet. -/
def packetTask (hasOutput : Bool) (output : Path) (packet : Bytes) : Task :=
  if hasOutput then .writeBinaryFile output packet else .printLine (hexText packet)

lemma outcome_printHex (bytes : Bytes) :
    Outcome (printHex host bytes : Action kernel Task) w
      (fun task _ => task = .printLine (hexText bytes)) (fun _ _ => True) := by
  rw [printHex, outcome_bind, library, hexEncode_eq, outcome_securekit]
  split
  · trivial
  · exact rfl

lemma printHex_eq {bytes : Bytes} (h : bytes.length ≤ host.limits.string / 2)
    (w : World (Command kernel)) : printHex host bytes w = .ok (.printLine (hexText bytes)) w := by
  rw [printHex, hexEncode_eq, if_neg (not_lt.mpr h)]
  rfl

/-- Options are parsed, and the library makes the packet. -/
lemma outcome_makePacket {parse : Files → Except Failure ρ} {make : ρ → Eff Lib Bytes}
    {hasOutput : ρ → Bool} {output : ρ → Path} {P : ρ → Bytes → Prop}
    (hmake : ∀ r lib, Outcome (make r) lib (fun packet _ => P r packet) fun _ _ => True) :
    Outcome (do
      let options ← withFiles parse
      let packet ← onLibrary (make options)
      if hasOutput options then return .writeBinaryFile (output options) packet
      else printHex host packet : Action kernel Task) w
      (fun task _ => ∃ r packet, parse (filesOf w) = .ok r ∧ P r packet ∧
        task = packetTask (hasOutput r) (output r) packet) (fun _ _ => True) := by
  rw [outcome_bind, withFiles, outcome_bind, outcome_get]
  cases hparse : parse (filesOf w) with
  | error failure => trivial
  | ok r =>
    rw [outcome_exceptResult_ok, outcome_bind, onLibrary, outcome_securekit, File.outcome_onLib]
    refine (hmake r w.lib).mono (fun packet lib hP => ?_) fun _ _ _ => trivial
    rw [outcome_ite]
    refine ⟨fun hout => ?_, fun hprint => ?_⟩
    · exact ⟨r, packet, rfl, hP, (if_pos hout).symm⟩
    · refine (outcome_printHex packet).mono ?_ fun _ _ _ => trivial
      rintro task _ rfl
      exact ⟨r, packet, rfl, hP, (if_neg hprint).symm⟩

/-- The packet is where the options say, once the run has succeeded. -/
lemma Computed.leavesPacket {argv : List Bytes} {cin : IStream} {lib : Lib} {packet : Bytes}
    {out : Option Path} {pairs : List (Bytes × Bytes)} {s' : Session kernel}
    (h : Computed host argv (Session.start kernel cin none lib)
      (packetTask out.isSome (out.getD []) packet))
    (hout : ∀ path, out = some path ↔ (ascii "--out", path) ∈ pairs)
    (hrun : run host argv (Session.start kernel cin none lib) = .ok 0 s') :
    LeavesPacket pairs s'.world packet := by
  cases out with
  | none =>
    refine ⟨fun path hpath => ?_, fun _ => ?_⟩
    · have hnone := (hout path).mpr hpath
      cases hnone
    · exact ((h.prints rfl).of_ok hrun).2
  | some output =>
    refine ⟨fun path hpath => ?_, fun hnone => ?_⟩
    · obtain rfl : output = path := Option.some.inj ((hout path).mpr hpath)
      exact ((h.accepts rfl).of_ok hrun).2 rfl
    · exact absurd rfl (hnone _ ((hout output).mp rfl))

end Making

/-! ## Commands that take packets -/

section Taking

variable {host : Host}

/-- What a command does with its result, to print it or to put it into a file. -/
def resultTask (out : Option Path) (print : Task) (put : Path → Task) : Task :=
  match out with
  | none => print
  | some path => put path

/-- Options are parsed, and the library takes the packet apart. -/
lemma exists_takePacket {parse : Files → Except Failure ρ} {take : ρ → Eff Lib α}
    {hasOutput : ρ → Bool} {output : ρ → Path} {put : Path → α → Task}
    {print : α → Action kernel Task} {r : ρ} {a : α} {task : Task} {out : Option Path}
    {w : World (Command kernel)} (hparse : parse (filesOf w) = .ok r)
    (htake : ∀ lib, ∃ lib', take r lib = .ok a lib') (hhas : hasOutput r = out.isSome)
    (houtput : output r = out.getD []) (hprint : ∀ w, print a w = .ok task w) :
    ∃ w', (do
      let options ← withFiles parse
      let a ← onLibrary (take options)
      if hasOutput options then return put (output options) a else print a : Action kernel Task) w =
        .ok (resultTask out task (put · a)) w' := by
  have hreturns : Returns (do
      let options ← withFiles parse
      let a ← onLibrary (take options)
      if hasOutput options then return put (output options) a else print a : Action kernel Task) w
      fun task' _ => task' = resultTask out task (put · a) := by
    rw [Returns, outcome_bind, withFiles, outcome_bind, outcome_get, hparse, outcome_exceptResult_ok,
      outcome_bind, onLibrary, outcome_securekit, File.outcome_onLib]
    obtain ⟨lib', htaken⟩ := htake w.lib
    refine outcome_intro (fun a' lib'' hok => ?_) fun e lib'' herror => ?_
    · rw [htaken] at hok
      cases hok
      rw [hhas, houtput]
      cases out with
      | none =>
        show Outcome (print a) _ _ _
        rw [Outcome, hprint]
        rfl
      | some path => exact rfl
    · rw [htaken] at herror
      cases herror
  obtain ⟨task', w', hrun, rfl⟩ := hreturns.exists_ok
  exact ⟨w', hrun⟩

lemma Computed.leaves {argv : List Bytes} {cin : IStream} {lib : Lib} {out : Option Path} {print : Task}
    {put : Path → Task} {printed bytes : Bytes}
    (h : Computed host argv (Session.start kernel cin none lib) (resultTask out print put))
    (hprint : print.printed = some printed) (hput : ∀ path, (put path).printed = none)
    (haccepted : ∀ path (w : World (Command kernel)), (put path).Accepted host cin w →
      Delivered w.output.trace path bytes) :
    Leaves host kernel argv cin lib out printed bytes := by
  cases out with
  | none =>
    obtain ⟨status, s', hrun, hends⟩ := (h.prints hprint).exists_ok
    exact ⟨status, s', hrun, hends⟩
  | some path =>
    obtain ⟨status, s', hrun, hstatus, hzero⟩ := (h.accepts (hput path)).exists_ok
    exact ⟨status, s', hrun, hstatus, fun h => haccepted path _ (hzero h)⟩

end Taking

/-! ## The branches -/

section Branches

variable {host : Host}

/-- The commands that `run` looks for before those with packets. -/
def plainCommands : List Bytes :=
  [ascii "help", ascii "--help", ascii "version", ascii "--version", ascii "token", ascii "sha256",
    ascii "hmac-sha256", ascii "hkdf-sha256", ascii "hex-encode", ascii "hex-decode",
    ascii "base64url-encode", ascii "base64url-decode", ascii "keygen"]

lemma branchOf_of_not_mem {command : Bytes} (h : command ∉ plainCommands) (program : Bytes)
    (tail : List Bytes) : (branchOf host (program :: command :: tail) : Branch kernel) =
      let argv := program :: command :: tail
      if command = ascii "wrap-key" then .command (wrapKeyCommand host argv)
      else if command = ascii "unwrap-key" then .command (unwrapKeyCommand host argv)
      else if command = ascii "encrypt" then .command (encryptCommand host argv)
      else if command = ascii "decrypt" then .command (decryptCommand host argv)
      else branchOf host argv := by
  simp only [plainCommands, List.mem_cons, List.not_mem_nil, or_false, not_or] at h
  split_ifs <;> simp_all [branchOf]

lemma branchOf_encrypt (program : Bytes) (tail : List Bytes) :
    (branchOf host (program :: ascii "encrypt" :: tail) : Branch kernel) =
      .command (encryptCommand host (program :: ascii "encrypt" :: tail)) :=
  (branchOf_of_not_mem (by decide) _ _).trans ((if_neg (by decide)).trans
    ((if_neg (by decide)).trans (if_pos rfl)))

lemma branchOf_decrypt (program : Bytes) (tail : List Bytes) :
    (branchOf host (program :: ascii "decrypt" :: tail) : Branch kernel) =
      .command (decryptCommand host (program :: ascii "decrypt" :: tail)) :=
  (branchOf_of_not_mem (by decide) _ _).trans ((if_neg (by decide)).trans
    ((if_neg (by decide)).trans ((if_neg (by decide)).trans (if_pos rfl))))

lemma Computed.exists_run {m : Action kernel Task} {argv : List Bytes} {s : Session kernel} {task : Task}
    (h : Computed host argv s task) (hbranch : branchOf host argv = .command m) :
    ∃ w, m s.world = .ok task w := by
  obtain ⟨m', w, hbranch', hrun⟩ := h
  rw [hbranch] at hbranch'
  cases hbranch'
  exact ⟨w, hrun⟩

end Branches

/-! ## A sample -/

/-- The standard library makes a packet under an all-zero nonce. -/
lemma standardLibrary_encrypts (plaintext : Bytes) (key : key256) (aad : Bytes)
    (haad : aad.length ≤ intMax) (htext : plaintext.length ≤ intMax) (lib : Lib) :
    ∃ lib', Packet.encrypt standardLibrary plaintext key aad lib =
      .ok (Packet.packetBytes standard.gcm key aad (ByteArr.zeros _) plaintext) lib' := by
  have hreturns : Returns (Packet.encrypt standardLibrary plaintext key aad) lib fun packet _ =>
      packet = Packet.packetBytes standard.gcm key aad (ByteArr.zeros _) plaintext := by
    apply Packet.outcome_encrypt standardLibrary_sound standard_lengths htext
    · intro nonce hdraw _ _ _
      rw [← Option.some.inj hdraw]
    · exact fun hlong => absurd haad (not_le.mpr hlong)
    · exact fun hbig => absurd htext (not_le.mpr hbig)
    · exact fun hnot => absurd (standardLibrary_available _) hnot
  obtain ⟨packet, lib', hrun, rfl⟩ := hreturns.exists_ok
  exact ⟨lib', hrun⟩

/-- A key of zeros. -/
def zeroKey : Bytes := hexText (ByteArr.zeros 32 : key256)

lemma means_zeroKey (files : Files) :
    ValueKind.keyHex.Means files zeroKey (ByteArr.zeros 32 : key256) := by
  refine ⟨⟨?_, fun ch => isHexDigit_hexText⟩, hexDecode_hexText _⟩
  rw [zeroKey, length_hexText, ByteArr.length_coe]

/-- The start of a run with no file to read. -/
def noFilesStart : Session (withoutInput true) := Session.start (withoutInput true) (.ofBytes []) none {}

/-- A command that prints a packet ends with 0. -/
lemma exists_run_of_packet {host : Host} {argv : List Bytes} {m : Action (withoutInput true) Task}
    {text : Bytes} {put : Path → Task} (hbranch : branchOf host argv = .command m)
    (hm : ∃ w, m noFilesStart.world = .ok (resultTask none (.printLine text) put) w) :
    ∃ s', run host argv noFilesStart = .ok 0 s' := by
  obtain ⟨w, hm⟩ := hm
  have hcomputed : Computed host argv noFilesStart (.printLine text) := ⟨m, w, hbranch, hm⟩
  obtain ⟨status, s', hrun, rfl, -⟩ := (hcomputed.prints rfl).exists_ok
  exact ⟨s', hrun⟩

lemma length_packetBytes_le {key : key256} {aad : Bytes} {nonce : ByteArr Packet.kNonceSize}
    {plaintext : Bytes} (h : plaintext.length ≤ 32) :
    (Packet.packetBytes standard.gcm key aad nonce plaintext).length ≤
      withoutDigests.limits.string / 2 := by
  rw [Packet.packetBytes_eq, Packet.length_joined, standard_lengths.length_encText]
  exact (Nat.add_le_add_right h _).trans (by decide)

/-! ## Encrypting and decrypting -/

section Encrypting

variable {host : Host} {prim : Primitives} {pairs : List (Bytes × Bytes)} {cin : IStream} {lib : Lib}
  {s' : Session kernel} {values : Group → Option Bytes} {out : Option Path} {program : Bytes}

/-- A run of `encrypt` that has succeeded has left the packet of its plaintext. -/
lemma exists_encrypted (hs : host.ssl.Sound prim) (hl : prim.gcm.Lengths)
    (hrun : run host (program :: ascii "encrypt" :: arguments pairs)
      (Session.start kernel cin none lib) = .ok 0 s') :
    ∃ values nonce, parseEncryptOptions (kernel.openInput 0)
        (program :: ascii "encrypt" :: arguments pairs) = .ok (EncryptOptions.ofValues values) ∧
      (CommandLine.encryptCommand.language (kernel.openInput 0)).Accepts pairs ∧
      (CommandLine.encryptCommand.language (kernel.openInput 0)).Assigns pairs values ∧
      ((values .aad).getD []).length ≤ intMax ∧ ((values .plaintext).getD []).length ≤ intMax ∧
      LeavesPacket pairs s'.world (Packet.packetBytes prim.gcm (keyOf (values .key))
        ((values .aad).getD []) nonce ((values .plaintext).getD [])) := by
  obtain ⟨task, hcomputed⟩ := exists_computed hrun
  obtain ⟨w, hmade⟩ := hcomputed.exists_run (branchOf_encrypt _ _)
  have hmake : ∀ (options : EncryptOptions) (lib : Lib),
      Outcome (Packet.encrypt host.ssl options.plaintext options.key options.aad) lib
        (fun packet _ => options.aad.length ≤ intMax ∧ options.plaintext.length ≤ intMax ∧
          ∃ nonce, packet = Packet.packetBytes prim.gcm options.key options.aad nonce options.plaintext)
        fun _ _ => True := by
    intro options lib
    apply Packet.outcome_encrypt hs hl le_rfl
    · exact fun nonce _ haad htext _ => ⟨haad, htext, nonce, rfl⟩
    · exact fun _ _ => trivial
    · exact fun _ _ => trivial
    · exact fun _ _ => trivial
  obtain ⟨options, packet, hparse, ⟨haad, htext, nonce, rfl⟩, rfl⟩ :=
    (outcome_makePacket hmake).of_ok hmade
  obtain ⟨pairs₀, values, hpairs, haccepts, hassigns, rfl⟩ :=
    ((describes_encrypt (kernel.openInput 0) _).parse_eq_ok_iff _ _ _ _).mp hparse
  obtain rfl := arguments_injective hpairs
  have hout := readsBack_encrypt.output_iff hassigns
  exact ⟨values, nonce, hparse, haccepts, hassigns, haad, htext, hcomputed.leavesPacket hout hrun⟩

/-- A run of `decrypt` comes to its plaintext if its packet can be decrypted. -/
lemma computed_decrypt {plaintext : Bytes}
    (haccepts : (CommandLine.decryptCommand.language (kernel.openInput 0)).Accepts pairs)
    (hassigns : (CommandLine.decryptCommand.language (kernel.openInput 0)).Assigns pairs values)
    (hdecrypts : ∀ lib, ∃ lib', Packet.decrypt host.ssl ((values .packet).getD [])
      (keyOf (values .key)) ((values .aad).getD []) lib = .ok plaintext lib') :
    Computed host (program :: ascii "decrypt" :: arguments pairs) (Session.start kernel cin none lib)
      (resultTask (values .output) (.writeBytes plaintext) (.writeBinaryFile · plaintext)) := by
  have hparse : parseDecryptOptions (kernel.openInput 0)
      (program :: ascii "decrypt" :: arguments pairs) = .ok (DecryptOptions.ofValues values) :=
    ((describes_decrypt (kernel.openInput 0) _).parse_eq_ok_iff _ _ _ _).mpr
      ⟨pairs, values, rfl, haccepts, hassigns, rfl⟩
  obtain ⟨w, hrun⟩ : ∃ w, decryptCommand host (program :: ascii "decrypt" :: arguments pairs)
      (Session.start kernel cin none lib).world = .ok (resultTask (values .output) (.writeBytes plaintext)
        (.writeBinaryFile · plaintext)) w :=
    exists_takePacket hparse hdecrypts rfl rfl fun _ => rfl
  exact ⟨_, w, branchOf_decrypt _ _, hrun⟩

end Encrypting

/-- **What `encrypt` leaves, `decrypt` reads back**: with the same options in any order, the packet by
`--packet-hex` or `--packet-file`, and an output of its own. -/
theorem decrypt_reads_encrypt {host host' : Host} {prim : Primitives} (hs : host.ssl.Sound prim)
    (hs' : host'.ssl.Sound prim) (ha : host'.ssl.Available prim intMax) (hl : prim.gcm.Lengths)
    (hc : prim.gcm.Correct) (kernel : Kernel) (program : Bytes) (pairs : List (Bytes × Bytes))
    (cin : IStream) (lib : Lib) (s' : Session kernel)
    (hrun : run host (program :: ascii "encrypt" :: arguments pairs)
      (Session.start kernel cin none lib) = .ok 0 s') :
    ∃ options, parseEncryptOptions (kernel.openInput 0)
        (program :: ascii "encrypt" :: arguments pairs) = .ok options ∧
      ComesBack host' (ascii "decrypt") [ascii "--text", ascii "--in"] pairs s'
        (options.plaintext ++ [0x0a]) options.plaintext := by
  obtain ⟨values, nonce, hparse, haccepts, hassigns, haad, htext, hleaves⟩ := exists_encrypted hs hl hrun
  refine ⟨_, hparse, _, hleaves, ?_⟩
  intro kernel' option out pairs' program' cin' lib' hkept hoption hback
  obtain ⟨values', haccepts', hassigns', hpacket, rfl, hsame⟩ :=
    readsBack_encrypt.exists_values hkept hoption haccepts hassigns hback
  have hdecrypts : ∀ lib, ∃ lib', Packet.decrypt host'.ssl ((values' .packet).getD [])
      (keyOf (values' .key)) ((values' .aad).getD []) lib = .ok ((values .plaintext).getD []) lib' := by
    intro lib
    rw [hpacket, hsame .key (by simp) (by simp) (by simp), hsame .aad (by simp) (by simp) (by simp)]
    exact (Packet.decryptsUpToLimit_packetBytes hs' ha hl hc haad _ nonce _ lib).1 htext
  exact (computed_decrypt haccepts' hassigns' hdecrypts).leaves rfl (fun _ => rfl) fun _ _ h => h

/-- `--text a --key-hex 00…` -/
def encryptSample : List (Bytes × Bytes) := [(ascii "--text", [0x61]), (ascii "--key-hex", zeroKey)]

lemma run_encryptSample : ∃ s', run withoutDigests
    (ascii "securekit" :: ascii "encrypt" :: arguments encryptSample) noFilesStart = .ok 0 s' := by
  let files : Files := (withoutInput true).openInput 0
  let values : Group → Option Bytes := Function.update
    (Function.update (fun _ => none) .plaintext (some [0x61])) .key (some (ByteArr.zeros 32 : key256))
  have hfind : CommandSpec.find (ascii "--text") CommandLine.encryptCommand.options =
      some (.plaintext, .text) := by decide
  have htext : _ ∧ (CommandLine.encryptCommand.language files).Means (ascii "--text") [0x61] [0x61] :=
    means_of_find hfind rfl
  have hfind' : CommandSpec.find (ascii "--key-hex") CommandLine.encryptCommand.options =
      some (.key, .keyHex) := by decide
  have hkey := means_of_find hfind' (means_zeroKey files)
  have htakes : (CommandLine.encryptCommand.language files).Takes (fun _ => none) encryptSample values :=
    .cons htext.1 rfl htext.2 (.cons hkey.1 rfl hkey.2 (.nil _))
  have haccepts : (CommandLine.encryptCommand.language files).Accepts encryptSample :=
    Options.Language.accepts_iff_takes.mpr ⟨values, htakes, by decide⟩
  have hparse : parseEncryptOptions files (ascii "securekit" :: ascii "encrypt" ::
      arguments encryptSample) = .ok (EncryptOptions.ofValues values) :=
    ((describes_encrypt files _).parse_eq_ok_iff _ _ _ _).mpr
      ⟨encryptSample, values, rfl, haccepts, htakes.assigns, rfl⟩
  have hmade := standardLibrary_encrypts [0x61] (ByteArr.zeros 32) [] (by decide) (by decide)
  exact exists_run_of_packet (branchOf_encrypt _ _)
    (exists_takePacket hparse hmade rfl rfl (printHex_eq (length_packetBytes_le (by decide))))

theorem decrypt_reads_encrypt_sample : ∃ s', run withoutDigests
    (ascii "securekit" :: ascii "encrypt" :: arguments encryptSample) noFilesStart = .ok 0 s' ∧
    ∃ options, parseEncryptOptions ((withoutInput true).openInput 0)
        (ascii "securekit" :: ascii "encrypt" :: arguments encryptSample) = .ok options ∧
      ComesBack withoutDigests (ascii "decrypt") [ascii "--text", ascii "--in"] encryptSample s'
        (options.plaintext ++ [0x0a]) options.plaintext := by
  obtain ⟨s', hrun⟩ := run_encryptSample
  exact ⟨s', hrun, decrypt_reads_encrypt standardLibrary_sound standardLibrary_sound
    (standardLibrary_available _) standard_lengths standard_exact.correct _ _ _ _ _ s' hrun⟩

/-! ## Wrapping and unwrapping -/

section Wrapping

variable {host : Host} {prim : Primitives} {pairs : List (Bytes × Bytes)} {cin : IStream} {lib : Lib}
  {s' : Session kernel} {values : Group → Option Bytes} {out : Option Path} {program : Bytes}

end Wrapping

end SecureKit.Cli.Dispatch
