import SecureKit.Cli.Protocol
import SecureKit.File.Progress

/-!
# All ways to open a file agree

The commands `verify-file` and `verify-file-password` run the stream overload into an output that
discards everything, so they come to its verdict (`verifyGives`), as the path overloads do
(`Faultless.pathGives`).  `overloads_agree` puts this together: for every content there is one
verdict, which is what the stream overload, the path overload and the command end with.

## One verdict

A content `b` has a verdict by `Operation.exists_payloadGives`, the result or an error, and it does
not depend on the way the bytes come in.  For the stream overload it is the meaning of the body, for
the path overload it goes through a temporary file, and the command runs the stream overload into a
stream that keeps nothing.  `VerifyGives` says of the command that it returns where the verdict is a
result and throws the same error otherwise, and that it has made no system call but to open its
input.

Sealing is compared as well.  There the header is drawn, so the stream and the path overload agree
from states of the library in which they draw the same one (`OverloadsAgree`).

The kernel is `Faultless` for the path overload: the output does not exist and no call fails.
`overloads_agree_standard` has such a kernel, a byte that is sealed, and the file that is opened in
the three ways.
-/

namespace SecureKit.Cli

open ByteString Effect Iostream Evp Posix File

/-- What a file is opened with. -/
inductive Secret
  | key (key : key256)
  | password (password : Bytes)

/-- The overload that opens. -/
def Secret.opening : Secret → Operation
  | .key k => .open_file k
  | .password p => .open_file_with_password p

/-- `verify-file` or `verify-file-password` -/
def Secret.verify (secret : Secret) (ssl : Openssl) (options : FileCommandOptions) {kernel : Kernel} :
    Action kernel Unit :=
  match secret with
  | .key k => verifyFileCommand ssl options k
  | .password p => verifyFilePasswordCommand ssl options p

/-- The input of the command holds `b`. -/
def Delivers (kernel : Kernel) (cin : IStream) (options : FileCommandOptions) (b : Bytes) : Prop :=
  if options.input_is_stdin = true then cin = .ofBytes b
  else ∀ t, kernel.openInput t options.input = some (.finite b .eof)

/-- The command has made no system call but to open its input. -/
def OnlyReads {kernel : Kernel} (w : World (Command kernel)) : Prop :=
  ∀ e ∈ w.output.trace, ∃ path answer, e = .openInput path answer

/-- The command exits with zero, or with one and the message of the error; and it creates no file. -/
structure VerifyGives {kernel : Kernel} (command : Action kernel Unit) (start : World (Command kernel))
    (v : Except Error Bytes) : Prop where
  returns : ∀ text, v = .ok text → run command start = (0, none)
  throws : ∀ error, v = .error error → run command start = (1, some error.message)
  onlyReads : ∀ w, (command start = .ok () w ∨ ∃ failure, command start = .error failure w) → OnlyReads w

section Verify

variable {ssl : Openssl} {kernel : Kernel} {options : FileCommandOptions} {cin : IStream} {lib : Lib}
  {b : Bytes} {v : Except Error Bytes} {operation : StreamOperation}

lemma outcome_openCommandInput (h : Delivers kernel cin options b) :
    Returns (openCommandInput options) ({ input := cin, output := {}, lib } : World (Command kernel))
      fun _ w => w.input = .ofBytes b ∧ w.lib = lib ∧ w.chunks = [] ∧ OnlyReads w := by
  unfold Returns
  simp only [openCommandInput, outcome_ite, outcome_pure]
  unfold Delivers at h
  refine ⟨fun hfile => ?_, fun hstdin => ?_⟩
  · rw [if_neg (by simp [hfile])] at h
    simp only [openCliInputFile, outcome_bind, outcome_onCommand, outcome_sys, h,
      outcome_orThrow_some, outcome_modify]
    refine ⟨rfl, trivial, trivial, fun e hmem => ?_⟩
    obtain rfl : e = _ := by simpa [Command.record] using hmem
    exact ⟨_, _, rfl⟩
  · rw [Bool.not_eq_false] at hstdin
    rw [if_pos hstdin] at h
    exact ⟨h, trivial, trivial, fun e hmem => absurd hmem (by simp)⟩

lemma outcome_runVerifyFileCommand (h : Delivers kernel cin options b)
    (hgives : ∀ lib, Gives operation b lib v) (lib : Lib) :
    Outcome (runVerifyFileCommand options operation)
      ({ input := cin, output := {}, lib } : World (Command kernel))
      (fun _ w => (∃ text, v = .ok text) ∧ OnlyReads w)
      (fun failure w => (∃ error, failure = .error error ∧ v = .error error) ∧ OnlyReads w) := by
  rw [runVerifyFileCommand, outcome_bind]
  apply (outcome_openCommandInput h).mono
  · intro _ w hopened
    obtain ⟨hinput, -, hchunks, hreads⟩ := hopened
    rw [withOutput, outcome_zoom, outcome_securekit, hinput, hchunks]
    apply (hgives w.lib {} ⟨rfl, rfl⟩).mono
    · intro _ w' hok
      obtain ⟨text, hv, -⟩ := hok
      exact ⟨⟨text, hv⟩, hreads⟩
    · intro error w' hv
      exact ⟨⟨error, rfl, hv⟩, hreads⟩
  · intro _ _ hfalse
    exact hfalse.elim

/-- **Verification** ends with the verdict. -/
lemma verifyGives (h : Delivers kernel cin options b) (hgives : ∀ lib, Gives operation b lib v) :
    VerifyGives (runVerifyFileCommand options operation)
      ({ input := cin, output := {}, lib } : World (Command kernel)) v := by
  have houtcome := outcome_runVerifyFileCommand h hgives lib
  constructor
  · -- An accepted file: the command cannot have thrown.
    rintro text rfl
    unfold run
    cases hresult : runVerifyFileCommand options operation
        ({ input := cin, output := {}, lib } : World (Command kernel)) with
    | ok _ w => rfl
    | error failure w =>
      obtain ⟨error, -, herror⟩ := (houtcome.of_error hresult).1
      cases herror
  · -- A rejected one: the command has thrown the same error.
    rintro error rfl
    unfold run
    cases hresult : runVerifyFileCommand options operation
        ({ input := cin, output := {}, lib } : World (Command kernel)) with
    | ok _ w =>
      obtain ⟨text, htext⟩ := (houtcome.of_ok hresult).1
      cases htext
    | error failure w =>
      obtain ⟨error', rfl, herror⟩ := (houtcome.of_error hresult).1
      obtain rfl := Except.error.inj herror
      rfl
  · intro w hresult
    rcases hresult with hresult | ⟨failure, hresult⟩
    · exact (houtcome.of_ok hresult).2
    · exact (houtcome.of_error hresult).2

end Verify

/-! ## Agreement -/

/-- The three ways to open the content `b` end with the verdict `v`. -/
structure OpensAgree (ssl : Openssl) (secret : Secret) (aad b : Bytes) (v : Except Error Bytes) :
    Prop where
  stream : ∀ lib, Gives (secret.opening.onStreams ssl aad) b lib v
  path : ∀ {kernel input output}, Faultless kernel input output b → ∀ lib fs₀,
    PathGives ⟨secret.opening, input, output, aad⟩ ssl kernel lib fs₀ v
  verify : ∀ {kernel cin options}, options.aad = aad → Delivers kernel cin options b → ∀ lib,
    VerifyGives (secret.verify ssl options)
      ({ input := cin, output := {}, lib } : World (Command kernel)) v

/-- Both overloads end with the verdict `v` on the input `b`, from every state of the library in which
they draw the same header as from `lib`. -/
structure OverloadsAgree (ssl : Openssl) (operation : Operation) (aad b : Bytes) (lib : Lib)
    (v : Except Error Bytes) : Prop where
  stream : ∀ lib', operation.drawn ssl lib' = operation.drawn ssl lib →
    Gives (operation.onStreams ssl aad) b lib' v
  path : ∀ {kernel input output}, Faultless kernel input output b → ∀ lib' fs₀,
    operation.drawn ssl lib' = operation.drawn ssl lib →
      PathGives ⟨operation, input, output, aad⟩ ssl kernel lib' fs₀ v

section Agreement

variable {ssl : Openssl} {prim : Primitives}

lemma exists_opensAgree (hs : ssl.Sound prim) (ha : ssl.Available prim (2 ^ 20))
    (hl : prim.gcm.Lengths) (secret : Secret) (aad b : Bytes) :
    ∃ v, OpensAgree ssl secret aad b v := by
  obtain ⟨v, hv⟩ := secret.opening.exists_payloadGives hs ha hl b aad {}
  have hgives : ∀ lib, secret.opening.PayloadGives ssl aad b lib v := by
    intro lib
    apply hv
    cases secret <;> rfl
  refine ⟨v, fun lib => (hgives lib).onStreams, ?_, ?_⟩
  · intro kernel input output hfaultless lib fs₀
    exact hfaultless.pathGives ha (hgives lib)
  · rintro kernel cin options rfl hdelivers lib
    cases secret with
    | key key => exact verifyGives hdelivers fun lib => (hgives lib).onStreams
    | password password => exact verifyGives hdelivers fun lib => (hgives lib).onStreams

/-- **All ways to open a file agree, and so do all ways to seal one.** -/
theorem overloads_agree (hs : ssl.Sound prim) (ha : ssl.Available prim (2 ^ 20))
    (hl : prim.gcm.Lengths) (aad b : Bytes) :
    (∀ secret, ∃ v, OpensAgree ssl secret aad b v) ∧
      ∀ operation lib, ∃ v, OverloadsAgree ssl operation aad b lib v := by
  constructor
  · intro secret
    exact exists_opensAgree hs ha hl secret aad b
  · intro operation lib
    obtain ⟨v, hv⟩ := operation.exists_payloadGives hs ha hl b aad lib
    refine ⟨v, fun lib' hsame => (hv lib' hsame).onStreams, ?_⟩
    intro kernel input output hfaultless lib' fs₀ hsame
    exact hfaultless.pathGives ha (hv lib' hsame)

end Agreement

/-- A byte that is sealed under a key, and the file that sealing makes of it, when it is opened. -/
theorem overloads_agree_standard : ∃ file,
    (∃ v, v = .ok file ∧
      Gives (sealFile standardLibrary (ByteArr.zeros 32) [0x61]) [0x62] {} v ∧
      PathGives ⟨.seal_file (ByteArr.zeros 32), [0x69], [0x6f], [0x61]⟩ standardLibrary
        (delivering 0 .linked [0x62]) {} noFiles v) ∧
    ∃ v, v = .ok [0x62] ∧
      Gives (openFile standardLibrary (ByteArr.zeros 32) [0x61]) file {} v ∧
      PathGives ⟨.open_file (ByteArr.zeros 32), [0x69], [0x6f], [0x61]⟩ standardLibrary
        (delivering 0 .linked file) {} noFiles v ∧
      VerifyGives
        (verifyFileCommand standardLibrary ⟨[0x69], [], [0x61], false, false⟩ (ByteArr.zeros 32))
        ({ input := .ofBytes [], output := {}, lib := {} } :
          World (Command (delivering 0 .linked file))) v := by
  let law := keyFormatLawful standardLibrary_sound (2 ^ 20) (ByteArr.zeros 32)
  have hround : RoundTrips (sealFile standardLibrary (ByteArr.zeros 32) [0x61])
      (openFile standardLibrary (ByteArr.zeros 32) [0x61]) [0x62] :=
    roundTrips_of_lawful law law standardLibrary_sound standardLibrary_sound
      (standardLibrary_available _) (standardLibrary_available _) standard_lengths
      standard_exact.correct le_rfl (by decide) rfl (fun _ _ => rfl)
      (by decide : kHeaderSize + kRecordHeaderSize + 1 ≤ intMax)
  obtain ⟨file, w₁, w₂, hseal, hsealed, hopen, hopened⟩ := hround {} {} {} {} ⟨rfl, rfl⟩ ⟨rfl, rfl⟩
  have hagree := fun b => overloads_agree standardLibrary_sound (standardLibrary_available _)
    standard_lengths [0x61] b
  obtain ⟨v, hv⟩ := (hagree [0x62]).2 (.seal_file (ByteArr.zeros 32)) {}
  obtain ⟨v', hv'⟩ := (hagree file).1 (.key (ByteArr.zeros 32))
  have hdelivers : Delivers (delivering 0 .linked file) (.ofBytes [])
      ⟨[0x69], [], [0x61], false, false⟩ file := fun _ => rfl
  refine ⟨file, ⟨v, ?_, hv.stream {} rfl, hv.path (faultless_delivering _ _ _ _) {} noFiles rfl⟩, v', ?_,
    hv'.stream {}, hv'.path (faultless_delivering _ _ _ _) {} noFiles, hv'.verify rfl hdelivers {}⟩
  · exact (hv.stream {} rfl).eq_ok ⟨rfl, rfl⟩ hseal hsealed
  · exact (hv'.stream {}).eq_ok ⟨rfl, rfl⟩ hopen hopened

end SecureKit.Cli
