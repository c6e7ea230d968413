import SecureKit.Base.Options
import SecureKit.Cli.CommandLine

/-!
# What the command line accepts

`docs/CLI.md` says that options come in any order, one source of each kind and one of each key.  A
`CommandSpec` is such a description of a command: a table of its options, with the group each belongs
to and the kind of its value, and the groups that are required.  `CommandSpec.language` makes it a
language of pairs, and for each of the six parsers there is one lemma that its loop body implements the
language of its command.

The record a parser returns is a function of the values of the groups; `ofValues` is this function for
each of the six records.

## The parsers

Each of the six loops looks at two arguments at a time, with one `if` for every option.  They differ
in order, in the guards and in the texts of their errors, and `Implements` of `Base.Options` is what
they have in common: a step takes a pair exactly if the language of the command has it and its group
is free, and it fills this group.  The lemmas about the loop bodies have one case for every option.

`OptionParser.Describes` adds the frame, the check of the number of arguments in front and the check
of the required groups behind the loop.  What the parser then accepts is a matter of the language:
no group twice, all required groups filled, and all values valid.

`options_exact` says this for each command and whatever the files hold, since the value of an option
such as `--key-file` is valid only if the file can be read.  The record is the same for every order
of the pairs.
-/

namespace SecureKit.Cli.CommandLine

open ByteString Options Posix File Iostream

/-! ## Descriptions of commands -/

/-- What an option is for. -/
inductive Group
  | input
  | output
  | key
  | password
  | wrapping_key
  | packet
  | plaintext
  | aad
  deriving DecidableEq

/-- What the value of an option is. -/
inductive ValueKind
  /-- A path that the parser does not look at. -/
  | path
  /-- The argument itself. -/
  | text
  /-- Bytes in hexadecimal digits. -/
  | hex
  /-- The content of a file. -/
  | file
  /-- The content of a file that is not empty. -/
  | passwordFile
  /-- A key in hexadecimal digits. -/
  | keyHex
  /-- A file with such a key. -/
  | keyFile

namespace ValueKind

variable (files : Files)

/-- The values an option of a kind admits. -/
def Valid : ValueKind → Bytes → Prop
  | path, _ => True
  | text, _ => True
  | hex, value => IsHexText value
  | file, value => ∃ content, files value = some (.finite content .eof)
  | passwordFile, value => ∃ content, files value = some (.finite content .eof) ∧ content ≠ []
  | keyHex, value => IsKeyText value
  | keyFile, value =>
    ∃ content digits, files value = some (.finite content .eof) ∧ IsKeyFile content digits

/-- The bytes a value stands for. -/
def Means : ValueKind → Bytes → Bytes → Prop
  | path, value, bytes => bytes = value
  | text, value, bytes => bytes = value
  | hex, value, bytes => hexDecode value = .ok bytes
  | file, value, bytes => files value = some (.finite bytes .eof)
  | passwordFile, value, bytes => files value = some (.finite bytes .eof) ∧ bytes ≠ []
  | keyHex, value, bytes => IsKeyText value ∧ hexDecode value = .ok bytes
  | keyFile, value, bytes =>
    ∃ content digits, files value = some (.finite content .eof) ∧ IsKeyFile content digits ∧
      hexDecode digits = .ok bytes

variable {files}

/-- A valid value stands for some bytes, and others for none. -/
lemma valid_iff (kind : ValueKind) (value : Bytes) :
    kind.Valid files value ↔ ∃ bytes, kind.Means files value bytes := by
  cases kind with
  | path => simp [Valid, Means]
  | text => simp [Valid, Means]
  | hex => exact (hexDecode_isOk_iff value).symm
  | file => exact Iff.rfl
  | passwordFile => exact Iff.rfl
  | keyHex =>
    constructor
    · intro h
      obtain ⟨key, hdecode, -⟩ := keyFromHex_of_isKeyText h
      exact ⟨key, h, hdecode⟩
    · rintro ⟨bytes, h, -⟩
      exact h
  | keyFile =>
    constructor
    · rintro ⟨content, digits, hfile, hkey⟩
      obtain ⟨key, hdecode, -⟩ := keyFromHex_of_isKeyText ((isKeyFile_iff _ _).mp hkey).2
      exact ⟨key, content, digits, hfile, hkey, hdecode⟩
    · rintro ⟨bytes, content, digits, hfile, hkey, -⟩
      exact ⟨content, digits, hfile, hkey⟩

/-- A value stands for one string of bytes at most. -/
lemma Means.unique {kind : ValueKind} {value bytes bytes' : Bytes}
    (h : kind.Means files value bytes) (h' : kind.Means files value bytes') : bytes = bytes' := by
  cases kind with
  | path => exact h.trans h'.symm
  | text => exact h.trans h'.symm
  | hex => exact Except.ok.inj (h.symm.trans h')
  | file =>
    have heq := Option.some.inj (Eq.trans (Eq.symm h) h')
    cases heq
    rfl
  | passwordFile =>
    have heq := Option.some.inj (h.1.symm.trans h'.1)
    cases heq
    rfl
  | keyHex => exact Except.ok.inj (h.2.symm.trans h'.2)
  | keyFile =>
    obtain ⟨content, digits, hfile, hkey, hdecode⟩ := h
    obtain ⟨content', digits', hfile', hkey', hdecode'⟩ := h'
    have heq := Option.some.inj (hfile.symm.trans hfile')
    cases heq
    rw [← hkey.trim, hkey'.trim] at hdecode
    exact Except.ok.inj (hdecode.symm.trans hdecode')

end ValueKind

/-- The options of a command, each with its group and kind, and the groups that are required. -/
structure CommandSpec where
  options : List (Bytes × Group × ValueKind)
  required : List Group

namespace CommandSpec

/-- The group and the kind of an option. -/
def find (option : Bytes) : List (Bytes × Group × ValueKind) → Option (Group × ValueKind)
  | [] => none
  | (name, entry) :: rest => if option = name then some entry else find option rest

/-- The language of a command. -/
def language (spec : CommandSpec) (files : Files) : Language Bytes Bytes Group Bytes where
  group option := (find option spec.options).map Prod.fst
  Means option value bytes :=
    ∃ entry, find option spec.options = some entry ∧ entry.2.Means files value bytes
  required := spec.required
  functional := by
    rintro option value bytes bytes' ⟨entry, hfind, h⟩ ⟨entry', hfind', h'⟩
    obtain rfl : entry = entry' := Option.some.inj (hfind.symm.trans hfind')
    exact h.unique h'

end CommandSpec

/-! ## The six commands -/

def keyOptions : List (Bytes × Group × ValueKind) :=
  [(ascii "--key-hex", .key, .keyHex), (ascii "--key-file", .key, .keyFile)]

def wrappingKeyOptions : List (Bytes × Group × ValueKind) :=
  [(ascii "--wrapping-key-hex", .wrapping_key, .keyHex),
    (ascii "--wrapping-key-file", .wrapping_key, .keyFile)]

def aadOptions : List (Bytes × Group × ValueKind) :=
  [(ascii "--aad-text", .aad, .text), (ascii "--aad-hex", .aad, .hex)]

def packetOptions : List (Bytes × Group × ValueKind) :=
  [(ascii "--packet-hex", .packet, .hex), (ascii "--packet-file", .packet, .file)]

/-- `seal-file` and `open-file`, and `verify-file`, which has no output. -/
def fileCommand (hasOutput : Bool) : CommandSpec where
  options := (ascii "--in", .input, .path) ::
    (if hasOutput then [(ascii "--out", .output, .path)] else []) ++ (keyOptions ++ aadOptions)
  required := if hasOutput then [.input, .output, .key] else [.input, .key]

/-- The variants with a password. -/
def passwordFileCommand (hasOutput : Bool) : CommandSpec where
  options := (ascii "--in", .input, .path) ::
    (if hasOutput then [(ascii "--out", .output, .path)] else []) ++
      ((ascii "--password-file", .password, .passwordFile) :: aadOptions)
  required := if hasOutput then [.input, .output, .password] else [.input, .password]

def wrapKeyCommand : CommandSpec where
  options := keyOptions ++ (wrappingKeyOptions ++ [(ascii "--out", .output, .path)])
  required := [.key, .wrapping_key]

def unwrapKeyCommand : CommandSpec where
  options := packetOptions ++ (wrappingKeyOptions ++ [(ascii "--out", .output, .path)])
  required := [.packet, .wrapping_key]

def encryptCommand : CommandSpec where
  options := (ascii "--text", .plaintext, .text) :: (ascii "--in", .plaintext, .file) ::
    (keyOptions ++ (aadOptions ++ [(ascii "--out", .output, .path)]))
  required := [.plaintext, .key]

def decryptCommand : CommandSpec where
  options := packetOptions ++ (keyOptions ++ (aadOptions ++ [(ascii "--out", .output, .path)]))
  required := [.packet, .key]

/-! ## The records as functions of the values -/

section Records

variable (values : Group → Option Bytes)

/-- The key among the values. -/
def keyOf (value : Option Bytes) : key256 :=
  match value with
  | some bytes => ByteArr.ofBytes 32 bytes
  | none => ByteArr.zeros 32

def FileCommandOptions.ofValues : FileCommandOptions where
  input := (values .input).getD []
  output := (values .output).getD []
  key := keyOf (values .key)
  aad := (values .aad).getD []
  has_input := (values .input).isSome
  has_output := (values .output).isSome
  has_key := (values .key).isSome
  has_aad := (values .aad).isSome
  input_is_stdin := values .input = some (ascii "-")
  output_is_stdout := values .output = some (ascii "-")

def PasswordFileCommandOptions.ofValues : PasswordFileCommandOptions where
  input := (values .input).getD []
  output := (values .output).getD []
  password := (values .password).getD []
  aad := (values .aad).getD []
  has_input := (values .input).isSome
  has_output := (values .output).isSome
  has_password := (values .password).isSome
  has_aad := (values .aad).isSome
  input_is_stdin := values .input = some (ascii "-")
  output_is_stdout := values .output = some (ascii "-")

def WrapKeyOptions.ofValues : WrapKeyOptions where
  key := keyOf (values .key)
  wrapping_key := keyOf (values .wrapping_key)
  output := (values .output).getD []
  has_key := (values .key).isSome
  has_wrapping_key := (values .wrapping_key).isSome
  has_output := (values .output).isSome

def UnwrapKeyOptions.ofValues : UnwrapKeyOptions where
  packet := (values .packet).getD []
  wrapping_key := keyOf (values .wrapping_key)
  output := (values .output).getD []
  has_packet := (values .packet).isSome
  has_wrapping_key := (values .wrapping_key).isSome
  has_output := (values .output).isSome

def EncryptOptions.ofValues : EncryptOptions where
  plaintext := (values .plaintext).getD []
  key := keyOf (values .key)
  aad := (values .aad).getD []
  output := (values .output).getD []
  has_plaintext := (values .plaintext).isSome
  has_key := (values .key).isSome
  has_aad := (values .aad).isSome
  has_output := (values .output).isSome

def DecryptOptions.ofValues : DecryptOptions where
  packet := (values .packet).getD []
  key := keyOf (values .key)
  aad := (values .aad).getD []
  output := (values .output).getD []
  has_packet := (values .packet).isSome
  has_key := (values .key).isSome
  has_aad := (values .aad).isSome
  has_output := (values .output).isSome

end Records

/-! ## Reading values -/

section Values

variable {files : Files} {value : Bytes}

lemma bind_eq_ok_iff {α β : Type} {m : Except Failure α} {f : α → Except Failure β} {b : β} :
    m >>= f = .ok b ↔ ∃ a, m = .ok a ∧ f a = .ok b := by
  cases m with
  | error e =>
    constructor
    · intro h
      cases h
    · rintro ⟨a, h, -⟩
      cases h
  | ok a =>
    constructor
    · intro h
      exact ⟨a, rfl, h⟩
    · rintro ⟨a', h, hf⟩
      cases h
      exact hf

lemma readFile_eq_ok_iff {content : Bytes} :
    readFile files value = .ok content ↔ files value = some (.finite content .eof) := by
  constructor
  · intro h
    unfold readFile at h
    split at h <;> simp_all
  · exact readFile_of_eof

lemma decodeHex_eq_ok_iff {bytes : Bytes} :
    decodeHex value = .ok bytes ↔ hexDecode value = .ok bytes := by
  rw [decodeHex]
  cases hexDecode value with
  | error e =>
    constructor <;> intro h <;> cases h
  | ok decoded =>
    constructor
    · intro h
      cases h
      rfl
    · intro h
      cases h
      rfl

lemma passwordFromFile_eq_ok_iff {password : Bytes} :
    passwordFromFile files value = .ok password ↔
      ValueKind.passwordFile.Means files value password := by
  rw [passwordFromFile, bind_eq_ok_iff]
  constructor
  · rintro ⟨content, hread, hnonempty⟩
    split at hnonempty
    · cases hnonempty
    · rename_i hne
      cases hnonempty
      exact ⟨readFile_eq_ok_iff.mp hread, hne⟩
  · rintro ⟨hread, hne⟩
    exact ⟨password, readFile_eq_ok_iff.mpr hread, if_neg hne⟩

lemma keyFromFile_eq_ok_iff_means {key : key256} :
    keyFromFile files value = .ok key ↔ ValueKind.keyFile.Means files value key := by
  constructor
  · intro h
    obtain ⟨content, hread, -⟩ := bind_eq_ok_iff.mp h
    have hfile := readFile_eq_ok_iff.mp hread
    obtain ⟨digits, hkey, hdecode⟩ := (keyFromFile_eq_ok_iff hfile key).mp h
    exact ⟨content, digits, hfile, hkey, hdecode⟩
  · rintro ⟨content, digits, hfile, hkey, hdecode⟩
    exact (keyFromFile_eq_ok_iff hfile key).mpr ⟨digits, hkey, hdecode⟩

/-- The bytes of a key argument are those of a key. -/
lemma means_keyHex_iff {bytes : Bytes} : ValueKind.keyHex.Means files value bytes ↔
    ∃ key : key256, keyFromHex value = .ok key ∧ (key : Bytes) = bytes := by
  constructor
  · rintro ⟨hkey, hdecode⟩
    obtain ⟨key, hdecode', hread⟩ := keyFromHex_of_isKeyText hkey
    exact ⟨key, hread, Except.ok.inj (hdecode'.symm.trans hdecode)⟩
  · rintro ⟨key, hread, rfl⟩
    exact (keyFromHex_eq_ok_iff value key).mp hread

/-- The bytes of a key file are those of a key. -/
lemma means_keyFile_iff {bytes : Bytes} : ValueKind.keyFile.Means files value bytes ↔
    ∃ key : key256, keyFromFile files value = .ok key ∧ (key : Bytes) = bytes := by
  constructor
  · rintro ⟨content, digits, hfile, hkey, hdecode⟩
    obtain ⟨key, hdecode', -⟩ := keyFromHex_of_isKeyText ((isKeyFile_iff _ _).mp hkey).2
    have hbytes : (key : Bytes) = bytes := Except.ok.inj (hdecode'.symm.trans hdecode)
    exact ⟨key, (keyFromFile_eq_ok_iff hfile key).mpr ⟨digits, hkey, hdecode'⟩, hbytes⟩
  · rintro ⟨key, hread, rfl⟩
    exact keyFromFile_eq_ok_iff_means.mp hread

lemma rejectDuplicate_eq_ok_iff {taken : Option Bytes} {option : Bytes} :
    rejectDuplicate taken.isSome option = .ok () ↔ taken = none := by
  cases taken <;> simp [rejectDuplicate]

lemma rejectConflict_eq_ok_iff {taken : Option Bytes} {what : String} :
    rejectConflict taken.isSome what = .ok () ↔ taken = none := by
  cases taken <;> simp [rejectConflict]

end Values

/-! ## Branches of a loop body -/

section Branches

variable {ρ β : Type} {files : Files} {spec : CommandSpec} {values : Group → Option Bytes}
  {option value : Bytes} {g : Group} {kind : ValueKind} {guard : Except Failure Unit}
  {record : (Group → Option Bytes) → ρ}

/-- What one step of a language does. -/
abbrev Steps (spec : CommandSpec) (files : Files) (values : Group → Option Bytes)
    (option value : Bytes) (record : (Group → Option Bytes) → ρ) (r : ρ) : Prop :=
  ∃ g v, (spec.language files).group option = some g ∧ values g = none ∧
    (spec.language files).Means option value v ∧ r = record (Function.update values g (some v))

/-- A branch that reads the value. -/
lemma branch_iff {m : Except Failure β} {c : β → Bytes} {f : β → ρ}
    (hfind : CommandSpec.find option spec.options = some (g, kind))
    (hguard : guard = .ok () ↔ values g = none)
    (hread : ∀ v, kind.Means files value v ↔ ∃ b, m = .ok b ∧ c b = v)
    (hset : ∀ b, m = .ok b → f b = record (Function.update values g (some (c b)))) (r : ρ) :
    (do
      guard
      let b ← m
      return f b) = .ok r ↔ Steps spec files values option value record r := by
  have hgroup : (spec.language files).group option = some g := by
    show (CommandSpec.find option spec.options).map Prod.fst = some g
    rw [hfind]
    rfl
  have hmeans : ∀ v, (spec.language files).Means option value v ↔ kind.Means files value v := by
    intro v
    constructor
    · rintro ⟨entry, hentry, h⟩
      obtain rfl : entry = (g, kind) := Option.some.inj (hentry.symm.trans hfind)
      exact h
    · intro h
      exact ⟨(g, kind), hfind, h⟩
  -- The guard asks whether the group is free, and the value is read behind it.
  rw [bind_eq_ok_iff]
  constructor
  · rintro ⟨⟨⟩, hfree, hrest⟩
    obtain ⟨b, hb, hr⟩ := bind_eq_ok_iff.mp hrest
    cases hr
    exact ⟨g, c b, hgroup, hguard.mp hfree, (hmeans _).mpr ((hread _).mpr ⟨b, hb, rfl⟩), hset b hb⟩
  · rintro ⟨g', v, hgroup', hfree, hv, rfl⟩
    obtain rfl : g' = g := Option.some.inj (hgroup'.symm.trans hgroup)
    obtain ⟨b, hb, rfl⟩ := (hread v).mp ((hmeans v).mp hv)
    exact ⟨(), hguard.mpr hfree, bind_eq_ok_iff.mpr ⟨b, hb, congrArg _ (hset b hb)⟩⟩

/-- A branch that takes the value as a path. -/
lemma path_branch_iff {r' : ρ} (hfind : CommandSpec.find option spec.options = some (g, .path))
    (hguard : guard = .ok () ↔ values g = none)
    (hset : r' = record (Function.update values g (some value))) (r : ρ) :
    (do
      guard
      return r') = .ok r ↔ Steps spec files values option value record r :=
  branch_iff (m := Except.ok value) (c := id) (f := fun _ => r') hfind hguard
    (fun v => by simp [ValueKind.Means, eq_comm]) (fun b hb => by cases hb; exact hset) r

/-- The branch of an unknown option. -/
lemma unknown_branch_iff {failure : Failure} (hfind : CommandSpec.find option spec.options = none)
    (r : ρ) : Except.error failure = .ok r ↔ Steps spec files values option value record r := by
  constructor
  · intro h
    cases h
  · rintro ⟨g, v, hgroup, -⟩
    have hnone : (spec.language files).group option = none := by
      show (CommandSpec.find option spec.options).map Prod.fst = none
      rw [hfind]
      rfl
    rw [hnone] at hgroup
    cases hgroup

end Branches

/-! ## Looking up options -/

section Lookup

variable {o x : Bytes} {name name' : Bytes} {entry entry' : Group × ValueKind}
  (files : Files) (rest : List (Bytes × Group × ValueKind))

lemma find_of_eq (h : o = name) : CommandSpec.find o ((name, entry) :: rest) = some entry := if_pos h

lemma find_of_ne (h : ¬ o = name) :
    CommandSpec.find o ((name, entry) :: rest) = CommandSpec.find o rest := if_neg h

/-- An option that is neither of two is looked for behind them. -/
lemma find_of_not_or (h : ¬ (o = name ∨ o = name')) :
    CommandSpec.find o ((name, entry) :: (name', entry') :: rest) = CommandSpec.find o rest := by
  rw [not_or] at h
  rw [find_of_ne _ h.1, find_of_ne _ h.2]

/-- One of two options is the first, or the second and not the first. -/
lemma find_of_or (h : o = name ∨ o = name') :
    (o = name ∧ CommandSpec.find o ((name, entry) :: (name', entry') :: rest) = some entry) ∨
      (¬ o = name ∧ o = name' ∧
        CommandSpec.find o ((name, entry) :: (name', entry') :: rest) = some entry') := by
  by_cases hfirst : o = name
  · exact .inl ⟨hfirst, find_of_eq _ hfirst⟩
  · have hsecond := h.resolve_left hfirst
    exact .inr ⟨hfirst, hsecond, (find_of_ne _ hfirst).trans (find_of_eq _ hsecond)⟩

/-- The lookup of an option finds its group and a kind that means what `m` reads. -/
def Reads {β : Type} (files : Files) (table : List (Bytes × Group × ValueKind)) (o x : Bytes)
    (g : Group) (m : Except Failure β) (c : β → Bytes) : Prop :=
  ∃ kind, CommandSpec.find o table = some (g, kind) ∧
    ∀ v, kind.Means files x v ↔ ∃ b, m = .ok b ∧ c b = v

/-- A branch that reads the value of an option found in a table. -/
lemma Reads.branch_iff {ρ β : Type} {spec : CommandSpec} {values : Group → Option Bytes} {g : Group}
    {guard : Except Failure Unit} {record : (Group → Option Bytes) → ρ} {m : Except Failure β}
    {c : β → Bytes} {f : β → ρ} {table : List (Bytes × Group × ValueKind)}
    (h : Reads files table o x g m c)
    (htable : CommandSpec.find o spec.options = CommandSpec.find o table)
    (hguard : guard = .ok () ↔ values g = none)
    (hset : ∀ b, f b = record (Function.update values g (some (c b)))) (r : ρ) :
    (do
      guard
      let b ← m
      return f b) = .ok r ↔ Steps spec files values o x record r := by
  obtain ⟨kind, hfind, hread⟩ := h
  exact CommandLine.branch_iff (htable.trans hfind) hguard hread (fun b _ => hset b) r

lemma reads_keyOptions (h : o = ascii "--key-hex" ∨ o = ascii "--key-file") :
    Reads files (keyOptions ++ rest) o x .key (keyFromOption files o x) ByteArr.toBytes := by
  rcases find_of_or rest h with ⟨ho, hfind⟩ | ⟨hne, ho, hfind⟩
  · refine ⟨_, hfind, fun v => ?_⟩
    rw [keyFromOption, if_pos ho]
    exact means_keyHex_iff
  · refine ⟨_, hfind, fun v => ?_⟩
    rw [keyFromOption, if_neg hne, if_pos ho]
    exact means_keyFile_iff

lemma reads_wrappingKeyOptions
    (h : o = ascii "--wrapping-key-hex" ∨ o = ascii "--wrapping-key-file") :
    Reads files (wrappingKeyOptions ++ rest) o x .wrapping_key (wrappingKeyFromOption files o x)
      ByteArr.toBytes := by
  rcases find_of_or rest h with ⟨ho, hfind⟩ | ⟨hne, ho, hfind⟩
  · refine ⟨_, hfind, fun v => ?_⟩
    rw [wrappingKeyFromOption, if_pos ho]
    exact means_keyHex_iff
  · refine ⟨_, hfind, fun v => ?_⟩
    rw [wrappingKeyFromOption, if_neg hne, if_pos ho]
    exact means_keyFile_iff

lemma reads_aadOptions (h : o = ascii "--aad-text" ∨ o = ascii "--aad-hex") :
    Reads files (aadOptions ++ rest) o x .aad (aadFromOption o x) id := by
  rcases find_of_or rest h with ⟨ho, hfind⟩ | ⟨hne, ho, hfind⟩
  · refine ⟨_, hfind, fun v => ?_⟩
    rw [aadFromOption, if_pos ho]
    simp [ValueKind.Means, eq_comm]
  · refine ⟨_, hfind, fun v => ?_⟩
    rw [aadFromOption, if_neg hne, if_pos ho]
    simp [ValueKind.Means, decodeHex_eq_ok_iff]

lemma reads_packetOptions (h : o = ascii "--packet-hex" ∨ o = ascii "--packet-file") :
    Reads files (packetOptions ++ rest) o x .packet (packetFromOption files o x) id := by
  rcases find_of_or rest h with ⟨ho, hfind⟩ | ⟨hne, ho, hfind⟩
  · refine ⟨_, hfind, fun v => ?_⟩
    rw [packetFromOption, if_pos ho]
    simp [ValueKind.Means, decodeHex_eq_ok_iff]
  · refine ⟨_, hfind, fun v => ?_⟩
    rw [packetFromOption, if_neg hne]
    simp [ValueKind.Means, readFile_eq_ok_iff]

lemma reads_plaintextOptions (h : o = ascii "--text" ∨ o = ascii "--in") :
    Reads files ((ascii "--text", .plaintext, .text) :: (ascii "--in", .plaintext, .file) :: rest) o x
      .plaintext (plaintextFromOption files o x) id := by
  rcases find_of_or rest h with ⟨ho, hfind⟩ | ⟨hne, ho, hfind⟩
  · refine ⟨_, hfind, fun v => ?_⟩
    rw [plaintextFromOption, if_pos ho]
    simp [ValueKind.Means, eq_comm]
  · refine ⟨_, hfind, fun v => ?_⟩
    rw [plaintextFromOption, if_neg hne]
    simp [ValueKind.Means, readFile_eq_ok_iff]

end Lookup

/-! ## The loop bodies -/

section Bodies

variable (files : Files)

lemma implements_fileCommandOption (hasOutput : Bool) :
    Implements ((fileCommand hasOutput).language files) (fileCommandOption files hasOutput)
      FileCommandOptions.ofValues := by
  intro values o x r
  unfold fileCommandOption
  -- The cases are the `if`s of the loop, in the order of the source.
  by_cases hin : o = ascii "--in"
  · rw [if_pos hin]
    refine path_branch_iff (g := .input) (find_of_eq _ hin) rejectDuplicate_eq_ok_iff ?_ r
    simp [FileCommandOptions.ofValues, isStandardStreamMarker]
  rw [if_neg hin]
  by_cases hout : o = ascii "--out"
  · rw [if_pos hout]
    cases hasOutput with
    -- `verify-file` does not take `--out`.
    | false =>
      rw [if_pos rfl]
      refine unknown_branch_iff ?_ r
      rw [hout]
      decide +kernel
    | true =>
      rw [if_neg (by decide)]
      refine path_branch_iff (g := .output) ((find_of_ne _ hin).trans (find_of_eq _ hout))
        rejectDuplicate_eq_ok_iff ?_ r
      simp [FileCommandOptions.ofValues, isStandardStreamMarker]
  rw [if_neg hout]
  have hrest : CommandSpec.find o (fileCommand hasOutput).options =
      CommandSpec.find o (keyOptions ++ aadOptions) := by
    cases hasOutput with
    | false => exact find_of_ne _ hin
    | true => exact (find_of_ne _ hin).trans (find_of_ne _ hout)
  by_cases hkey : o = ascii "--key-hex" ∨ o = ascii "--key-file"
  · rw [if_pos hkey]
    refine (reads_keyOptions files aadOptions hkey).branch_iff _ hrest rejectConflict_eq_ok_iff ?_ r
    simp [FileCommandOptions.ofValues, keyOf]
  rw [if_neg hkey]
  have haads : CommandSpec.find o (fileCommand hasOutput).options =
      CommandSpec.find o (aadOptions ++ []) := hrest.trans (find_of_not_or _ hkey)
  by_cases haad : o = ascii "--aad-text" ∨ o = ascii "--aad-hex"
  · rw [if_pos haad]
    refine (reads_aadOptions files [] haad).branch_iff _ haads rejectConflict_eq_ok_iff ?_ r
    simp [FileCommandOptions.ofValues]
  rw [if_neg haad]
  -- What is left is `unknown option`.
  exact unknown_branch_iff (haads.trans (find_of_not_or _ haad)) r

lemma implements_passwordFileCommandOption (hasOutput : Bool) :
    Implements ((passwordFileCommand hasOutput).language files)
      (passwordFileCommandOption files hasOutput) PasswordFileCommandOptions.ofValues := by
  intro values o x r
  unfold passwordFileCommandOption
  -- The same for `--in` and `--out`, with the ways to give a password in place of those for a key.
  by_cases hin : o = ascii "--in"
  · rw [if_pos hin]
    refine path_branch_iff (g := .input) (find_of_eq _ hin) rejectDuplicate_eq_ok_iff ?_ r
    simp [PasswordFileCommandOptions.ofValues, isStandardStreamMarker]
  rw [if_neg hin]
  by_cases hout : o = ascii "--out"
  · rw [if_pos hout]
    cases hasOutput with
    | false =>
      rw [if_pos rfl]
      refine unknown_branch_iff ?_ r
      rw [hout]
      decide +kernel
    | true =>
      rw [if_neg (by decide)]
      refine path_branch_iff (g := .output) ((find_of_ne _ hin).trans (find_of_eq _ hout))
        rejectDuplicate_eq_ok_iff ?_ r
      simp [PasswordFileCommandOptions.ofValues, isStandardStreamMarker]
  rw [if_neg hout]
  have hrest : CommandSpec.find o (passwordFileCommand hasOutput).options =
      CommandSpec.find o ((ascii "--password-file", .password, .passwordFile) :: aadOptions) := by
    cases hasOutput with
    | false => exact find_of_ne _ hin
    | true => exact (find_of_ne _ hin).trans (find_of_ne _ hout)
  by_cases hpassword : o = ascii "--password-file"
  · rw [if_pos hpassword]
    have hreads : Reads files ((ascii "--password-file", .password, .passwordFile) :: aadOptions) o x
        .password (passwordFromFile files x) id := by
      refine ⟨_, find_of_eq _ hpassword, fun v => ?_⟩
      simp [← passwordFromFile_eq_ok_iff]
    refine hreads.branch_iff _ hrest rejectDuplicate_eq_ok_iff ?_ r
    simp [PasswordFileCommandOptions.ofValues]
  rw [if_neg hpassword]
  have haads : CommandSpec.find o (passwordFileCommand hasOutput).options =
      CommandSpec.find o (aadOptions ++ []) := hrest.trans (find_of_ne _ hpassword)
  by_cases haad : o = ascii "--aad-text" ∨ o = ascii "--aad-hex"
  · rw [if_pos haad]
    refine (reads_aadOptions files [] haad).branch_iff _ haads rejectConflict_eq_ok_iff ?_ r
    simp [PasswordFileCommandOptions.ofValues]
  rw [if_neg haad]
  exact unknown_branch_iff (haads.trans (find_of_not_or _ haad)) r

lemma implements_wrapKeyOption :
    Implements (wrapKeyCommand.language files) (wrapKeyOption files) WrapKeyOptions.ofValues := by
  intro values o x r
  unfold wrapKeyOption
  by_cases hkey : o = ascii "--key-hex" ∨ o = ascii "--key-file"
  · rw [if_pos hkey]
    refine (reads_keyOptions files _ hkey).branch_iff _ rfl rejectConflict_eq_ok_iff ?_ r
    simp [WrapKeyOptions.ofValues, keyOf]
  rw [if_neg hkey]
  have hwrapping : CommandSpec.find o wrapKeyCommand.options =
      CommandSpec.find o (wrappingKeyOptions ++ [(ascii "--out", .output, .path)]) :=
    find_of_not_or _ hkey
  by_cases hwrap : o = ascii "--wrapping-key-hex" ∨ o = ascii "--wrapping-key-file"
  · rw [if_pos hwrap]
    refine (reads_wrappingKeyOptions files _ hwrap).branch_iff _ hwrapping rejectConflict_eq_ok_iff
      ?_ r
    simp [WrapKeyOptions.ofValues, keyOf]
  rw [if_neg hwrap]
  have hlast := hwrapping.trans (find_of_not_or _ hwrap)
  by_cases hout : o = ascii "--out"
  · rw [if_pos hout]
    refine path_branch_iff (g := .output) (hlast.trans (find_of_eq _ hout))
      rejectDuplicate_eq_ok_iff ?_ r
    simp [WrapKeyOptions.ofValues]
  rw [if_neg hout]
  exact unknown_branch_iff (hlast.trans (find_of_ne _ hout)) r

lemma implements_unwrapKeyOption :
    Implements (unwrapKeyCommand.language files) (unwrapKeyOption files)
      UnwrapKeyOptions.ofValues := by
  intro values o x r
  unfold unwrapKeyOption
  by_cases hpacket : o = ascii "--packet-hex" ∨ o = ascii "--packet-file"
  · rw [if_pos hpacket]
    refine (reads_packetOptions files _ hpacket).branch_iff _ rfl rejectConflict_eq_ok_iff ?_ r
    simp [UnwrapKeyOptions.ofValues]
  rw [if_neg hpacket]
  have hwrapping : CommandSpec.find o unwrapKeyCommand.options =
      CommandSpec.find o (wrappingKeyOptions ++ [(ascii "--out", .output, .path)]) :=
    find_of_not_or _ hpacket
  by_cases hwrap : o = ascii "--wrapping-key-hex" ∨ o = ascii "--wrapping-key-file"
  · rw [if_pos hwrap]
    refine (reads_wrappingKeyOptions files _ hwrap).branch_iff _ hwrapping rejectConflict_eq_ok_iff
      ?_ r
    simp [UnwrapKeyOptions.ofValues, keyOf]
  rw [if_neg hwrap]
  have hlast := hwrapping.trans (find_of_not_or _ hwrap)
  by_cases hout : o = ascii "--out"
  · rw [if_pos hout]
    refine path_branch_iff (g := .output) (hlast.trans (find_of_eq _ hout))
      rejectDuplicate_eq_ok_iff ?_ r
    simp [UnwrapKeyOptions.ofValues]
  rw [if_neg hout]
  exact unknown_branch_iff (hlast.trans (find_of_ne _ hout)) r

lemma implements_encryptOption :
    Implements (encryptCommand.language files) (encryptOption files) EncryptOptions.ofValues := by
  intro values o x r
  unfold encryptOption
  by_cases htext : o = ascii "--text" ∨ o = ascii "--in"
  · rw [if_pos htext]
    refine (reads_plaintextOptions files _ htext).branch_iff _ rfl rejectConflict_eq_ok_iff ?_ r
    simp [EncryptOptions.ofValues]
  rw [if_neg htext]
  have hkeys : CommandSpec.find o encryptCommand.options =
      CommandSpec.find o (keyOptions ++ (aadOptions ++ [(ascii "--out", .output, .path)])) :=
    find_of_not_or _ htext
  by_cases hkey : o = ascii "--key-hex" ∨ o = ascii "--key-file"
  · rw [if_pos hkey]
    refine (reads_keyOptions files _ hkey).branch_iff _ hkeys rejectConflict_eq_ok_iff ?_ r
    simp [EncryptOptions.ofValues, keyOf]
  rw [if_neg hkey]
  have haads : CommandSpec.find o encryptCommand.options =
      CommandSpec.find o (aadOptions ++ [(ascii "--out", .output, .path)]) :=
    hkeys.trans (find_of_not_or _ hkey)
  by_cases haad : o = ascii "--aad-text" ∨ o = ascii "--aad-hex"
  · rw [if_pos haad]
    refine (reads_aadOptions files _ haad).branch_iff _ haads rejectConflict_eq_ok_iff ?_ r
    simp [EncryptOptions.ofValues]
  rw [if_neg haad]
  have hlast := haads.trans (find_of_not_or _ haad)
  by_cases hout : o = ascii "--out"
  · rw [if_pos hout]
    refine path_branch_iff (g := .output) (hlast.trans (find_of_eq _ hout))
      rejectDuplicate_eq_ok_iff ?_ r
    simp [EncryptOptions.ofValues]
  rw [if_neg hout]
  exact unknown_branch_iff (hlast.trans (find_of_ne _ hout)) r

lemma implements_decryptOption :
    Implements (decryptCommand.language files) (decryptOption files) DecryptOptions.ofValues := by
  intro values o x r
  unfold decryptOption
  by_cases hpacket : o = ascii "--packet-hex" ∨ o = ascii "--packet-file"
  · rw [if_pos hpacket]
    refine (reads_packetOptions files _ hpacket).branch_iff _ rfl rejectConflict_eq_ok_iff ?_ r
    simp [DecryptOptions.ofValues]
  rw [if_neg hpacket]
  have hkeys : CommandSpec.find o decryptCommand.options =
      CommandSpec.find o (keyOptions ++ (aadOptions ++ [(ascii "--out", .output, .path)])) :=
    find_of_not_or _ hpacket
  by_cases hkey : o = ascii "--key-hex" ∨ o = ascii "--key-file"
  · rw [if_pos hkey]
    refine (reads_keyOptions files _ hkey).branch_iff _ hkeys rejectConflict_eq_ok_iff ?_ r
    simp [DecryptOptions.ofValues, keyOf]
  rw [if_neg hkey]
  have haads : CommandSpec.find o decryptCommand.options =
      CommandSpec.find o (aadOptions ++ [(ascii "--out", .output, .path)]) :=
    hkeys.trans (find_of_not_or _ hkey)
  by_cases haad : o = ascii "--aad-text" ∨ o = ascii "--aad-hex"
  · rw [if_pos haad]
    refine (reads_aadOptions files _ haad).branch_iff _ haads rejectConflict_eq_ok_iff ?_ r
    simp [DecryptOptions.ofValues]
  rw [if_neg haad]
  have hlast := haads.trans (find_of_not_or _ haad)
  by_cases hout : o = ascii "--out"
  · rw [if_pos hout]
    refine path_branch_iff (g := .output) (hlast.trans (find_of_eq _ hout))
      rejectDuplicate_eq_ok_iff ?_ r
    simp [DecryptOptions.ofValues]
  rw [if_neg hout]
  exact unknown_branch_iff (hlast.trans (find_of_ne _ hout)) r

end Bodies

/-! ## The frame -/

/-- Pairs as arguments. -/
def arguments (pairs : List (Bytes × Bytes)) : List Bytes := pairs.flatMap fun p => [p.1, p.2]

section Frame

variable {ρ : Type} {files : Files} {spec : CommandSpec} {record : (Group → Option Bytes) → ρ}

/-- Arguments are pairs if they are even in number. -/
lemma exists_arguments : ∀ tail : List Bytes, tail.length % 2 = 0 → ∃ pairs, tail = arguments pairs
  | [], _ => ⟨[], rfl⟩
  | [_], h => by simp at h
  | o :: x :: tail, h => by
    obtain ⟨pairs, rfl⟩ := exists_arguments tail (by
      rw [List.length_cons, List.length_cons] at h
      omega)
    exact ⟨(o, x) :: pairs, rfl⟩

lemma length_arguments (pairs : List (Bytes × Bytes)) :
    (arguments pairs).length = 2 * pairs.length := by
  simp [arguments, List.length_flatMap, Nat.mul_comm]

/-- The loop goes through the pairs in order. -/
lemma forPairs_eq (body : ρ → Bytes → Bytes → Except Failure ρ) (argv : List Bytes)
    (pairs : List (Bytes × Bytes)) (index : ℕ) (heven : (argv.length - index) % 2 = 0) (options : ρ)
    (h : argv.drop index = arguments pairs) :
    forPairs body argv index heven options =
      pairs.foldlM (fun r p => body r p.1 p.2) options := by
  induction pairs generalizing index options with
  | nil =>
    have hend : argv.length ≤ index := List.drop_eq_nil_iff.mp h
    unfold forPairs
    rw [dif_neg (by omega)]
    rfl
  | cons p pairs ih =>
    obtain ⟨o, x⟩ := p
    have h : argv.drop index = o :: x :: arguments pairs := h
    have hlen := congrArg List.length h
    rw [List.length_drop, List.length_cons, List.length_cons] at hlen
    have ho : argv[index] = o := by
      have hget := List.drop_eq_getElem_cons (show index < argv.length by omega)
      rw [h] at hget
      exact (List.cons.inj hget).1.symm
    have hnext : argv.drop (index + 1) = x :: arguments pairs := by
      rw [← List.tail_drop, h, List.tail_cons]
    have hx : argv[index + 1] = x := by
      have hget := List.drop_eq_getElem_cons (show index + 1 < argv.length by omega)
      rw [hnext] at hget
      exact (List.cons.inj hget).1.symm
    have hrest : argv.drop (index + 2) = arguments pairs := by
      rw [← List.tail_drop, hnext, List.tail_cons]
    unfold forPairs
    rw [dif_pos (by omega), List.foldlM_cons]
    simp only [ho, hx]
    exact congrArg _ (funext fun r => ih _ _ r hrest)

/-- A parser for the language of a command. -/
structure OptionParser.Describes (p : OptionParser ρ) (spec : CommandSpec) (files : Files)
    (record : (Group → Option Bytes) → ρ) : Prop where
  implements : Implements (spec.language files) p.body record
  initial : p.initial = record fun _ => none
  complete : ∀ values, p.complete (record values) = true ↔ ∀ g ∈ spec.required, (values g).isSome
  least : p.least = 2 + 2 * spec.required.length
  nodup : spec.required.Nodup

/-- The parser accepts the pairs of the language, and its record is that of their values. -/
lemma OptionParser.Describes.parse_eq_ok_iff {p : OptionParser ρ} (h : p.Describes spec files record)
    (program command : Bytes) (tail : List Bytes) (r : ρ) :
    p.parse (program :: command :: tail) = .ok r ↔
      ∃ pairs values, tail = arguments pairs ∧ (spec.language files).Accepts pairs ∧
        (spec.language files).Assigns pairs values ∧ r = record values := by
  have hlength : (program :: command :: tail).length = tail.length + 2 := rfl
  rw [OptionParser.parse]
  constructor
  · intro hparse
    -- The check of `argc` leaves an even number of arguments behind the command.
    split at hparse
    · cases hparse
    · rename_i hargc
      rw [not_or, not_not, hlength, Nat.add_sub_cancel] at hargc
      obtain ⟨pairs, htail⟩ := exists_arguments tail hargc.2
      obtain ⟨options, hloop, hcomplete⟩ := bind_eq_ok_iff.mp hparse
      have hdrop : (program :: command :: tail).drop 2 = arguments pairs := htail
      rw [forPairs_eq _ _ pairs _ _ _ hdrop, h.initial] at hloop
      obtain ⟨values, htakes, rfl⟩ := (h.implements.foldlM_eq_ok_iff pairs _ options).mp hloop
      split at hcomplete
      · cases hcomplete
      · rename_i hmissing
        cases hcomplete
        -- The check behind the loop is that the required groups are filled.
        have hrequired := (h.complete values).mp (by simpa using hmissing)
        exact ⟨pairs, values, htail, Language.accepts_iff_takes.mpr ⟨values, htakes, hrequired⟩,
          htakes.assigns, rfl⟩
  · rintro ⟨pairs, values, rfl, haccepts, hassigns, rfl⟩
    obtain ⟨values', htakes, hrequired⟩ := Language.accepts_iff_takes.mp haccepts
    obtain rfl : values = values' := hassigns.unique htakes.assigns
    have hlen := length_arguments pairs
    -- Arguments that are accepted are enough for the check of `argc`.
    have hmany : spec.required.length ≤ pairs.length := haccepts.length_le h.nodup
    have hleast := h.least
    rw [dif_neg (by rw [hlength]; omega)]
    refine bind_eq_ok_iff.mpr ⟨record values, ?_, ?_⟩
    · rw [forPairs_eq _ _ pairs _ _ _ rfl, h.initial]
      exact (h.implements.foldlM_eq_ok_iff pairs _ _).mpr ⟨values, htakes, rfl⟩
    · rw [if_neg]
      rw [(h.complete values).mpr hrequired]
      decide

end Frame

/-! ## The six parsers -/

section Parsers

variable (files : Files)

lemma describes_fileCommand (command : Bytes) (hasOutput : Bool) :
    OptionParser.Describes
      { usage := fileCommandUsage command
        least := if hasOutput then 8 else 6
        initial := {}
        body := fileCommandOption files hasOutput
        complete := fun options =>
          !(!options.has_input || (hasOutput && !options.has_output) || !options.has_key) }
      (fileCommand hasOutput) files FileCommandOptions.ofValues where
  implements := implements_fileCommandOption files hasOutput
  initial := rfl
  complete values := by cases hasOutput <;> simp [fileCommand, FileCommandOptions.ofValues, and_assoc]
  least := by cases hasOutput <;> rfl
  nodup := by cases hasOutput <;> decide

lemma describes_passwordFileCommand (command : Bytes) (hasOutput : Bool) :
    OptionParser.Describes
      { usage := passwordFileCommandUsage command
        least := if hasOutput then 8 else 6
        initial := {}
        body := passwordFileCommandOption files hasOutput
        complete := fun options =>
          !(!options.has_input || (hasOutput && !options.has_output) || !options.has_password) }
      (passwordFileCommand hasOutput) files PasswordFileCommandOptions.ofValues where
  implements := implements_passwordFileCommandOption files hasOutput
  initial := rfl
  complete values := by
    cases hasOutput <;> simp [passwordFileCommand, PasswordFileCommandOptions.ofValues, and_assoc]
  least := by cases hasOutput <;> rfl
  nodup := by cases hasOutput <;> decide

lemma describes_wrapKey :
    OptionParser.Describes
      { usage := wrapKeyUsage
        least := 6
        initial := {}
        body := wrapKeyOption files
        complete := fun options => !(!options.has_key || !options.has_wrapping_key) }
      wrapKeyCommand files WrapKeyOptions.ofValues where
  implements := implements_wrapKeyOption files
  initial := rfl
  complete values := by simp [wrapKeyCommand, WrapKeyOptions.ofValues]
  least := rfl
  nodup := by decide

lemma describes_unwrapKey :
    OptionParser.Describes
      { usage := unwrapKeyUsage
        least := 6
        initial := {}
        body := unwrapKeyOption files
        complete := fun options => !(!options.has_packet || !options.has_wrapping_key) }
      unwrapKeyCommand files UnwrapKeyOptions.ofValues where
  implements := implements_unwrapKeyOption files
  initial := rfl
  complete values := by simp [unwrapKeyCommand, UnwrapKeyOptions.ofValues]
  least := rfl
  nodup := by decide

lemma describes_encrypt (usage : String) :
    OptionParser.Describes
      { usage
        least := 6
        initial := {}
        body := encryptOption files
        complete := fun options => !(!options.has_plaintext || !options.has_key) }
      encryptCommand files EncryptOptions.ofValues where
  implements := implements_encryptOption files
  initial := rfl
  complete values := by simp [encryptCommand, EncryptOptions.ofValues]
  least := rfl
  nodup := by decide

lemma describes_decrypt (usage : String) :
    OptionParser.Describes
      { usage
        least := 6
        initial := {}
        body := decryptOption files
        complete := fun options => !(!options.has_packet || !options.has_key) }
      decryptCommand files DecryptOptions.ofValues where
  implements := implements_decryptOption files
  initial := rfl
  complete values := by simp [decryptCommand, DecryptOptions.ofValues]
  least := rfl
  nodup := by decide

end Parsers

/-! ## Exactness -/

/-- Each option is one of the command, with a valid value, and the groups are named as often as they
should be. -/
structure CommandSpec.Admits (spec : CommandSpec) (files : Files) (pairs : List (Bytes × Bytes)) :
    Prop where
  options : ∀ p ∈ pairs, ∃ g kind, CommandSpec.find p.1 spec.options = some (g, kind) ∧
    kind.Valid files p.2
  required : ∀ g ∈ spec.required, ((spec.language files).groups pairs).count (some g) = 1
  optional : ∀ g, ((spec.language files).groups pairs).count (some g) ≤ 1

lemma CommandSpec.admits_iff {spec : CommandSpec} {files : Files} {pairs : List (Bytes × Bytes)} :
    spec.Admits files pairs ↔ (spec.language files).Accepts pairs := by
  constructor
  · rintro ⟨hoptions, hrequired, hoptional⟩
    refine ⟨fun p hp => ?_, fun p hp => ?_, hrequired, hoptional⟩
    · obtain ⟨g, kind, hfind, -⟩ := hoptions p hp
      exact ⟨g, congrArg (Option.map Prod.fst) hfind⟩
    · obtain ⟨g, kind, hfind, hvalid⟩ := hoptions p hp
      obtain ⟨v, hv⟩ := (kind.valid_iff p.2).mp hvalid
      exact ⟨v, (g, kind), hfind, hv⟩
  · rintro ⟨-, hvalid, hrequired, hoptional⟩
    refine ⟨fun p hp => ?_, hrequired, hoptional⟩
    obtain ⟨v, ⟨g, kind⟩, hfind, hmeans⟩ := hvalid p hp
    exact ⟨g, kind, hfind, (kind.valid_iff p.2).mpr ⟨v, hmeans⟩⟩

/-- A parser of the options of a command accepts what the description admits, returns the record of
the values, and does not care about the order. -/
structure Exact {ρ : Type} (spec : CommandSpec) (files : Files)
    (record : (Group → Option Bytes) → ρ) (parse : List Bytes → Except Failure ρ)
    (program command : Bytes) : Prop where
  accepts : ∀ tail, (∃ options, parse (program :: command :: tail) = .ok options) ↔
    ∃ pairs, tail = arguments pairs ∧ spec.Admits files pairs
  record_eq : ∀ pairs options, parse (program :: command :: arguments pairs) = .ok options →
    ∃ values, (spec.language files).Assigns pairs values ∧ options = record values
  perm : ∀ pairs pairs' : List (Bytes × Bytes), pairs.Perm pairs' → ∀ options,
    parse (program :: command :: arguments pairs) = .ok options ↔
      parse (program :: command :: arguments pairs') = .ok options

lemma arguments_injective {pairs pairs' : List (Bytes × Bytes)}
    (h : arguments pairs = arguments pairs') : pairs = pairs' := by
  induction pairs generalizing pairs' with
  | nil =>
    cases pairs' with
    | nil => rfl
    | cons p pairs' => cases h
  | cons p pairs ih =>
    cases pairs' with
    | nil => cases h
    | cons p' pairs' =>
      have h : p.1 :: p.2 :: arguments pairs = p'.1 :: p'.2 :: arguments pairs' := h
      obtain ⟨ho, hrest⟩ := List.cons.inj h
      obtain ⟨hx, hrest⟩ := List.cons.inj hrest
      rw [Prod.ext ho hx, ih hrest]

lemma OptionParser.Describes.exact {ρ : Type} {files : Files} {spec : CommandSpec}
    {record : (Group → Option Bytes) → ρ} {p : OptionParser ρ} (h : p.Describes spec files record)
    (program command : Bytes) : Exact spec files record p.parse program command := by
  have hparse := h.parse_eq_ok_iff program command
  constructor
  · intro tail
    constructor
    · rintro ⟨options, hok⟩
      obtain ⟨pairs, values, htail, haccepts, -⟩ := (hparse tail options).mp hok
      exact ⟨pairs, htail, CommandSpec.admits_iff.mpr haccepts⟩
    · rintro ⟨pairs, rfl, hadmits⟩
      have haccepts := CommandSpec.admits_iff.mp hadmits
      obtain ⟨values, htakes, -⟩ := Language.accepts_iff_takes.mp haccepts
      exact ⟨record values,
        (hparse _ _).mpr ⟨pairs, values, rfl, haccepts, htakes.assigns, rfl⟩⟩
  · intro pairs options hok
    obtain ⟨pairs', values, htail, -, hassigns, hrecord⟩ := (hparse _ options).mp hok
    obtain rfl := arguments_injective htail
    exact ⟨values, hassigns, hrecord⟩
  · have hone : ∀ {pairs pairs' : List (Bytes × Bytes)}, pairs.Perm pairs' → ∀ {options},
        p.parse (program :: command :: arguments pairs) = .ok options →
        p.parse (program :: command :: arguments pairs') = .ok options := by
      intro pairs pairs' hperm options hok
      obtain ⟨pairs₁, values, htail, haccepts, hassigns, hrecord⟩ := (hparse _ options).mp hok
      obtain rfl := arguments_injective htail
      exact (hparse _ _).mpr
        ⟨pairs', values, rfl, haccepts.perm hperm, hassigns.perm hperm, hrecord⟩
    exact fun pairs pairs' hperm options => ⟨hone hperm, hone hperm.symm⟩

/-- Only the arguments of the command count. -/
lemma Exact.congr {ρ : Type} {files : Files} {spec : CommandSpec}
    {record : (Group → Option Bytes) → ρ} {parse parse' : List Bytes → Except Failure ρ}
    {program command : Bytes} (h : Exact spec files record parse program command)
    (heq : ∀ tail, parse' (program :: command :: tail) = parse (program :: command :: tail)) :
    Exact spec files record parse' program command := by
  constructor
  · intro tail
    rw [heq]
    exact h.accepts tail
  · intro pairs options hok
    rw [heq] at hok
    exact h.record_eq pairs options hok
  · intro pairs pairs' hperm options
    rw [heq, heq]
    exact h.perm pairs pairs' hperm options

/-- The parser of a file command is that for commands with or without an output. -/
lemma exact_fileCommand (files : Files) (program : Bytes) {command : Bytes} {hasOutput : Bool}
    (h : decide (command ≠ ascii "verify-file") = hasOutput) :
    Exact (fileCommand hasOutput) files FileCommandOptions.ofValues (parseFileCommandOptions files)
      program command := by
  subst h
  exact ((describes_fileCommand files command _).exact program command).congr fun _ => rfl

lemma exact_passwordFileCommand (files : Files) (program : Bytes) {command : Bytes}
    {hasOutput : Bool} (h : decide (command ≠ ascii "verify-file-password") = hasOutput) :
    Exact (passwordFileCommand hasOutput) files PasswordFileCommandOptions.ofValues
      (parsePasswordFileCommandOptions files) program command := by
  subst h
  exact ((describes_passwordFileCommand files command _).exact program command).congr fun _ => rfl

/-- **The options of the command line.**  For each command, whatever the files are, its parser accepts
exactly the arguments that the description of the command admits, and the record it returns is that of
their values, whatever their order is. -/
theorem options_exact (files : Files) (program : Bytes) :
    (∀ command ∈ [ascii "seal-file", ascii "open-file"],
      Exact (fileCommand true) files FileCommandOptions.ofValues (parseFileCommandOptions files)
        program command) ∧
    Exact (fileCommand false) files FileCommandOptions.ofValues (parseFileCommandOptions files)
      program (ascii "verify-file") ∧
    (∀ command ∈ [ascii "seal-file-password", ascii "open-file-password"],
      Exact (passwordFileCommand true) files PasswordFileCommandOptions.ofValues
        (parsePasswordFileCommandOptions files) program command) ∧
    Exact (passwordFileCommand false) files PasswordFileCommandOptions.ofValues
      (parsePasswordFileCommandOptions files) program (ascii "verify-file-password") ∧
    Exact wrapKeyCommand files WrapKeyOptions.ofValues (parseWrapKeyOptions files)
      program (ascii "wrap-key") ∧
    Exact unwrapKeyCommand files UnwrapKeyOptions.ofValues (parseUnwrapKeyOptions files)
      program (ascii "unwrap-key") ∧
    Exact encryptCommand files EncryptOptions.ofValues (parseEncryptOptions files)
      program (ascii "encrypt") ∧
    Exact decryptCommand files DecryptOptions.ofValues (parseDecryptOptions files)
      program (ascii "decrypt") := by
  have hfile : ∀ command ∈ [ascii "seal-file", ascii "open-file"],
      decide (command ≠ ascii "verify-file") = true := by decide +kernel
  have hpassword : ∀ command ∈ [ascii "seal-file-password", ascii "open-file-password"],
      decide (command ≠ ascii "verify-file-password") = true := by decide +kernel
  refine ⟨fun command hcommand => exact_fileCommand files program (hfile command hcommand),
    exact_fileCommand files program (by simp),
    fun command hcommand => exact_passwordFileCommand files program (hpassword command hcommand),
    exact_passwordFileCommand files program (by simp), ?_, ?_, ?_, ?_⟩
  · exact (describes_wrapKey files).exact program _
  · exact (describes_unwrapKey files).exact program _
  · exact ((describes_encrypt files _).exact program _).congr fun _ => rfl
  · exact ((describes_decrypt files _).exact program _).congr fun _ => rfl

end SecureKit.Cli.CommandLine
