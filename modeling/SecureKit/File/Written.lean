import SecureKit.File.PathResult

/-!
# What an operation writes

`Operation.Writes` says that the operation, applied to an input, can have these bytes as its result:
some run of its functions writes them into a stream that takes everything.  Which run this is depends
on what the library answers, so on the salt, the nonce prefix and the tags.

A path overload that returns has committed such bytes (`bodyFills_writes`), and a stream overload that
returns has written such bytes (`Operation.writes_of_onStreams`).
-/

namespace SecureKit.File

open ByteString Effect Iostream Evp Posix

/-! ## Results -/

section Results

variable (ssl : Openssl) (format : FileFormat) (aad : Bytes) (input : IStream) (bytes : Bytes)

/-- A header and a payload behind it.  The library may have been used for something else before the
payload. -/
def FileFormat.SealsTo : Prop :=
  ∃ lib₀ header lib₁ fileKey lib₂ lib₃ w, format.make lib₀ = .ok header lib₁ ∧
    format.deriveKey header lib₁ = .ok fileKey lib₂ ∧
    sealStreamPayload ssl (format.serialized header) (format.noncePrefix header) fileKey aad
      ({ input, output := {}, lib := lib₃ } : World OStream) = .ok () w ∧
    w.output.written = bytes

def FileFormat.OpensTo : Prop :=
  ∃ lib w, openStream ssl format aad ({ input, output := {}, lib } : World OStream) = .ok () w ∧
    w.output.written = bytes

/-- The bytes are a result of the operation. -/
def Operation.Writes (operation : Operation) : Prop :=
  match operation with
  | .seal_file key => (keyFormat ssl key).SealsTo ssl aad input bytes
  | .open_file key => (keyFormat ssl key).OpensTo ssl aad input bytes
  | .seal_file_with_password password =>
    password ≠ [] ∧ (passwordFormat ssl password).SealsTo ssl aad input bytes
  | .open_file_with_password password =>
    password ≠ [] ∧ (passwordFormat ssl password).OpensTo ssl aad input bytes

end Results

/-! ## Path overloads -/

section Paths

variable {kernel : Kernel} {ssl : Openssl} {call : PathCall} {P : Source → Bytes → Prop}

lemma sealFills_of_sealsTo (format : FileFormat)
    (hP : ∀ source bytes, format.SealsTo ssl call.aad { source } bytes → P source bytes) :
    SealFills kernel ssl call P format := by
  intro lib
  refine outcome_intro (fun header lib₁ hmake => ?_) fun _ _ _ => trivial
  refine outcome_intro (fun fileKey lib₂ hderive => ?_) fun _ _ _ => trivial
  refine fills_of_simulates (simulates_sealStreamPayload writesAlike_process) ?_
  intro source lib₃ w hrun
  exact hP _ _ ⟨lib, header, lib₁, fileKey, lib₂, lib₃, w, hmake, hderive, hrun, rfl⟩

lemma fills_of_opensTo (format : FileFormat)
    (hP : ∀ source bytes, format.OpensTo ssl call.aad { source } bytes → P source bytes) :
    Fills call P (openStream ssl format call.aad : Eff (World (Process kernel)) Unit) := by
  refine fills_of_simulates (simulates_openStream writesAlike_process) ?_
  intro source lib w hrun
  exact hP _ _ ⟨lib, w, hrun, rfl⟩

/-- **A path overload** fills its file with a result of the operation. -/
theorem bodyFills_writes : BodyFills kernel ssl call fun source bytes =>
    call.operation.Writes ssl call.aad { source } bytes := by
  obtain ⟨operation, input, output, aad⟩ := call
  unfold BodyFills
  cases operation with
  | seal_file key => exact sealFills_of_sealsTo _ fun _ _ h => h
  | open_file key => exact fills_of_opensTo _ fun _ _ h => h
  | seal_file_with_password password =>
    intro hpassword
    exact sealFills_of_sealsTo _ fun _ _ h => ⟨hpassword, h⟩
  | open_file_with_password password =>
    intro hpassword
    exact fills_of_opensTo _ fun _ _ h => ⟨hpassword, h⟩

end Paths

/-! ## Stream overloads -/

section Streams

variable {ssl : Openssl} {aad : Bytes} {input : IStream} {lib : Lib}

lemma FileFormat.outcome_sealStream_sealsTo (format : FileFormat) :
    Outcome (sealStream ssl format aad) ({ input, output := {}, lib } : World OStream)
      (fun _ w => format.SealsTo ssl aad input w.output.written) (fun _ _ => True) := by
  simp only [sealStream, outcome_bind, outcome_onLib]
  refine outcome_intro (fun header lib₁ hmake => ?_) fun _ _ _ => trivial
  refine outcome_intro (fun fileKey lib₂ hderive => ?_) fun _ _ _ => trivial
  refine outcome_intro (fun _ w hrun => ?_) fun _ _ _ => trivial
  exact ⟨lib, header, lib₁, fileKey, lib₂, lib₂, w, hmake, hderive, hrun, rfl⟩

lemma FileFormat.outcome_openStream_opensTo (format : FileFormat) :
    Outcome (openStream ssl format aad) ({ input, output := {}, lib } : World OStream)
      (fun _ w => format.OpensTo ssl aad input w.output.written) (fun _ _ => True) :=
  outcome_intro (fun _ w hrun => ⟨lib, w, hrun, rfl⟩) fun _ _ _ => trivial

/-- **A stream overload** that returns has written a result of the operation. -/
theorem Operation.outcome_onStreams_writes (operation : Operation) :
    Outcome (operation.onStreams ssl aad) ({ input, output := {}, lib } : World OStream)
      (fun _ w => operation.Writes ssl aad input w.output.written) (fun _ _ => True) := by
  cases operation with
  | seal_file key => exact (keyFormat ssl key).outcome_sealStream_sealsTo
  | open_file key => exact (keyFormat ssl key).outcome_openStream_opensTo
  | seal_file_with_password password =>
    simp only [Operation.onStreams, sealFileWithPassword, requireNonEmptyPassword, outcome_bind,
      outcome_throwIf]
    refine ⟨fun _ => trivial, fun hpassword => ?_⟩
    exact (passwordFormat ssl password).outcome_sealStream_sealsTo.mono
      (fun _ _ h => ⟨hpassword, h⟩) fun _ _ h => h
  | open_file_with_password password =>
    simp only [Operation.onStreams, openFileWithPassword, requireNonEmptyPassword, outcome_bind,
      outcome_throwIf]
    refine ⟨fun _ => trivial, fun hpassword => ?_⟩
    exact (passwordFormat ssl password).outcome_openStream_opensTo.mono
      (fun _ _ h => ⟨hpassword, h⟩) fun _ _ h => h

end Streams

end SecureKit.File
