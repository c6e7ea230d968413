import SecureKit.Base.Invariant
import SecureKit.Base.Simulation
import SecureKit.File.Formats
import SecureKit.File.Path

/-!
# The overloads do not look into their output

The payload functions are templates over the output, and all they do with it is write.  So a run
into one kind of output goes as the run of the same call into another kind, as long as single
writes correspond (`WritesAlike`); where a write fails in the first, the first run breaks off.

Both runs start with the library in the same state, so nothing needs to be known of its answers.

## What is asked of two outputs

`WritesAlike R B` is a simulation for a single write: from related outputs it leads to related ones,
or the first write throws and leaves an output of which `B` holds.  `SideBySide` is this relation on
whole states, with the same input and the same library on both sides, and `Simulates` is the notion
of `Base.Simulation` for effects that throw.

The lemmas go through the payload functions in the order of their definitions.  The loops are by
induction on the indices that are left.  `simulates_onStreams` is for the four overloads.

The uses are a temporary file beside a stream (`File.PathResult`), and the stream of the command line
tool beside one that takes everything (`Cli.FileResults`).
-/

namespace SecureKit.File

open ByteString Effect Iostream Evp

variable {ω₁ ω₂ : Type} [Output ω₁] [Output ω₂] {α : Type}

/-- Single writes go alike, unless the first output breaks. -/
def WritesAlike (R : ω₁ → ω₂ → Prop) (B : Error → ω₁ → Prop) : Prop :=
  ∀ data, Simulates R B (writeAll data) (writeAll data)

/-- The two runs have read the same and called the library alike, and their outputs are related. -/
structure SideBySide (R : ω₁ → ω₂ → Prop) (w₁ : World ω₁) (w₂ : World ω₂) : Prop where
  input : w₁.input = w₂.input
  lib : w₁.lib = w₂.lib
  output : R w₁.output w₂.output

section Payload

variable {ssl : Openssl} {R : ω₁ → ω₂ → Prop} {B : Error → ω₁ → Prop}

omit [Output ω₁] [Output ω₂] in
lemma simulates_onInput (m : Eff IStream α) :
    Simulates (SideBySide R) (fun e w => B e w.output) (onInput m : Eff (World ω₁) α)
      (onInput m : Eff (World ω₂) α) := by
  refine (Simulates.refl (fun _ _ => False) m).zoom (fun _ _ h => h.input) ?_ ?_
  · intro w₁ w₂ s₁ s₂ h heq
    exact ⟨heq, h.lib, h.output⟩
  · intro _ _ _ _ _ hfalse
    exact hfalse.elim

omit [Output ω₁] [Output ω₂] in
lemma simulates_onLib (m : Eff Lib α) :
    Simulates (SideBySide R) (fun e w => B e w.output) (onLib m : Eff (World ω₁) α)
      (onLib m : Eff (World ω₂) α) := by
  refine (Simulates.refl (fun _ _ => False) m).zoom (fun _ _ h => h.lib) ?_ ?_
  · intro w₁ w₂ l₁ l₂ h hlib
    exact ⟨h.input, hlib, h.output⟩
  · intro _ _ _ _ _ hfalse
    exact hfalse.elim

lemma simulates_writeAll (hwrites : WritesAlike R B) (data : Bytes) :
    Simulates (SideBySide R) (fun e w => B e w.output)
      (onOutput (writeAll data) : Eff (World ω₁) Unit)
      (onOutput (writeAll data) : Eff (World ω₂) Unit) := by
  refine (hwrites data).zoom (fun _ _ h => h.output) ?_ ?_
  · intro w₁ w₂ o₁ o₂ h houtput
    exact ⟨h.input, h.lib, houtput⟩
  · intro _ _ _ _ _ hbroke
    exact hbroke

omit [Output ω₁] [Output ω₂] in
lemma simulates_recordChunk (plaintext : Bytes) (fileKey : key256) (nonce aad : Bytes) :
    Simulates (SideBySide R) (fun e w => B e w.output)
      (recordChunk ssl plaintext fileKey nonce aad : Eff (World ω₁) EncryptedChunk)
      (recordChunk ssl plaintext fileKey nonce aad : Eff (World ω₂) EncryptedChunk) := by
  intro w₁ w₂ h
  rw [outcome_recordChunk]
  apply (Simulates.refl (fun _ _ => False) (encryptChunk ssl plaintext fileKey nonce aad) _ _
    h.lib).mono
  · intro chunk lib₁ hok
    obtain ⟨lib₂, hrun, hlib⟩ := hok
    have hrun₂ : recordChunk ssl plaintext fileKey nonce aad w₂ = .ok chunk { w₂ with
        lib := lib₂, chunks := w₂.chunks ++ [⟨fileKey, nonce, aad, plaintext, some chunk⟩] } := by
      simp only [recordChunk, hrun]
    exact ⟨_, hrun₂, h.input, hlib, h.output⟩
  · intro e lib₁ hthrow
    obtain ⟨lib₂, hrun, hlib⟩ := hthrow.resolve_left id
    have hrun₂ : recordChunk ssl plaintext fileKey nonce aad w₂ = .error e { w₂ with
        lib := lib₂, chunks := w₂.chunks ++ [⟨fileKey, nonce, aad, plaintext, none⟩] } := by
      simp only [recordChunk, hrun]
    exact .inr ⟨_, hrun₂, h.input, hlib, h.output⟩

section Sealing

variable {serializedHeader : Bytes} {noncePrefix : ByteArr kNoncePrefixSize} {fileKey : key256}
  {aad : Bytes}

lemma simulates_sealChunk (hwrites : WritesAlike R B) (chunkIndex : UInt32) :
    Simulates (SideBySide R) (fun e w => B e w.output)
      (sealChunk ssl serializedHeader noncePrefix fileKey aad chunkIndex : Eff (World ω₁) Bool)
      (sealChunk ssl serializedHeader noncePrefix fileKey aad chunkIndex : Eff (World ω₂) Bool) := by
  unfold sealChunk
  apply (simulates_onInput _).bind
  intro chunk
  obtain ⟨plaintext, isFinal⟩ := chunk
  apply Simulates.bind
  · unfold sealRecord
    apply (simulates_recordChunk _ _ _ _).bind
    intro encrypted
    apply (simulates_writeAll hwrites _).bind
    intro _
    apply (simulates_writeAll hwrites _).bind
    intro _
    exact simulates_writeAll hwrites _
  · intro _
    exact Simulates.pure isFinal

lemma simulates_sealLoop (hwrites : WritesAlike R B) (chunkIndex : UInt32) :
    Simulates (SideBySide R) (fun e w => B e w.output)
      (sealLoop ssl serializedHeader noncePrefix fileKey aad chunkIndex : Eff (World ω₁) Unit)
      (sealLoop ssl serializedHeader noncePrefix fileKey aad chunkIndex : Eff (World ω₂) Unit) := by
  induction hleft : 2 ^ 32 - chunkIndex.toNat using Nat.strong_induction_on generalizing chunkIndex with
  | _ left ih =>
    unfold sealLoop
    apply (simulates_sealChunk hwrites chunkIndex).bind
    intro wroteFinal
    by_cases hlast : chunkIndex = uint32Max ∧ wroteFinal = false
    · simp only [dif_pos hlast]
      exact Simulates.throw tooLarge
    · by_cases hfinal : wroteFinal = true
      · simp only [dif_neg hlast, dif_pos hfinal]
        exact Simulates.pure ()
      · simp only [dif_neg hlast, dif_neg hfinal]
        have hne : chunkIndex ≠ uint32Max := fun h => hlast ⟨h, by simpa using hfinal⟩
        have hlt := chunkIndex.toNat_lt
        have hstep := toNat_add_one_of_ne hne
        exact ih _ (by omega) _ rfl

/-- **Sealing a payload** goes alike into both outputs. -/
theorem simulates_sealStreamPayload (hwrites : WritesAlike R B) :
    Simulates (SideBySide R) (fun e w => B e w.output)
      (sealStreamPayload ssl serializedHeader noncePrefix fileKey aad : Eff (World ω₁) Unit)
      (sealStreamPayload ssl serializedHeader noncePrefix fileKey aad : Eff (World ω₂) Unit) := by
  unfold sealStreamPayload
  apply (simulates_writeAll hwrites _).bind
  intro _
  exact simulates_sealLoop hwrites 0

/-- **Sealing a stream** goes alike into both outputs. -/
theorem simulates_sealStream {format : FileFormat} (hwrites : WritesAlike R B) :
    Simulates (SideBySide R) (fun e w => B e w.output)
      (sealStream ssl format aad : Eff (World ω₁) Unit)
      (sealStream ssl format aad : Eff (World ω₂) Unit) := by
  unfold sealStream
  apply (simulates_onLib _).bind
  intro header
  apply (simulates_onLib _).bind
  intro fileKey
  exact simulates_sealStreamPayload hwrites

end Sealing

section Opening

variable {serializedHeader : Bytes} {noncePrefix : ByteArr kNoncePrefixSize} {fileKey : key256}
  {aad : Bytes}

lemma simulates_openRecord (hwrites : WritesAlike R B) (expectedIndex : UInt32) :
    Simulates (SideBySide R) (fun e w => B e w.output)
      (openRecord ssl serializedHeader noncePrefix fileKey aad expectedIndex : Eff (World ω₁) Bool)
      (openRecord ssl serializedHeader noncePrefix fileKey aad expectedIndex : Eff (World ω₂) Bool) := by
  unfold openRecord
  apply (simulates_onInput _).bind
  intro fields
  obtain ⟨record, ciphertext, tag⟩ := fields
  apply (simulates_onLib _).bind
  intro plaintext
  apply (simulates_writeAll hwrites _).bind
  intro _
  exact Simulates.pure _

lemma simulates_openLoop (hwrites : WritesAlike R B) (expectedIndex : UInt32) :
    Simulates (SideBySide R) (fun e w => B e w.output)
      (openLoop ssl serializedHeader noncePrefix fileKey aad expectedIndex : Eff (World ω₁) Unit)
      (openLoop ssl serializedHeader noncePrefix fileKey aad expectedIndex : Eff (World ω₂) Unit) := by
  induction hleft : 2 ^ 32 - expectedIndex.toNat using Nat.strong_induction_on
    generalizing expectedIndex with
  | _ left ih =>
    unfold openLoop
    apply (simulates_openRecord hwrites expectedIndex).bind
    intro sawFinal
    by_cases hlast : expectedIndex = uint32Max ∧ sawFinal = false
    · simp only [dif_pos hlast]
      exact Simulates.throw invalidPacket
    · by_cases hfinal : sawFinal = true
      · simp only [dif_neg hlast, dif_pos hfinal]
        exact Simulates.pure ()
      · simp only [dif_neg hlast, dif_neg hfinal]
        have hne : expectedIndex ≠ uint32Max := fun h => hlast ⟨h, by simpa using hfinal⟩
        have hlt := expectedIndex.toNat_lt
        have hstep := toNat_add_one_of_ne hne
        exact ih _ (by omega) _ rfl

/-- **Opening a stream** goes alike into both outputs. -/
theorem simulates_openStream {format : FileFormat} (hwrites : WritesAlike R B) :
    Simulates (SideBySide R) (fun e w => B e w.output)
      (openStream ssl format aad : Eff (World ω₁) Unit)
      (openStream ssl format aad : Eff (World ω₂) Unit) := by
  unfold openStream
  apply (simulates_onInput _).bind
  intro headerBytes
  apply (Simulates.exceptResult _).bind
  intro header
  apply (simulates_onLib _).bind
  intro fileKey
  exact simulates_openLoop hwrites 0

end Opening

/-- **The stream overloads** go alike into both outputs. -/
theorem simulates_onStreams (hwrites : WritesAlike R B) (operation : Operation) (aad : Bytes) :
    Simulates (SideBySide R) (fun e w => B e w.output)
      (operation.onStreams ssl aad : Eff (World ω₁) Unit)
      (operation.onStreams ssl aad : Eff (World ω₂) Unit) := by
  unfold Operation.onStreams
  cases operation with
  | seal_file key => exact simulates_sealStream hwrites
  | open_file key => exact simulates_openStream hwrites
  | seal_file_with_password password =>
    apply (Simulates.throwIf _ _).bind
    intro _
    exact simulates_sealStream hwrites
  | open_file_with_password password =>
    apply (Simulates.throwIf _ _).bind
    intro _
    exact simulates_openStream hwrites

/-- What single writes keep of an output, a computation keeps that goes alike into all outputs. -/
lemma keeps_output_of_simulates {ω : Type} [Output ω] {I : ω → Prop}
    (hwrites : ∀ data, Keeps I (writeAll data : Eff ω Unit)) {m : Eff (World ω) α}
    (hm : ∀ {R : ω → ω → Prop} {B : Error → ω → Prop}, WritesAlike R B →
      Simulates (SideBySide R) (fun e w => B e w.output) m m) :
    Keeps (fun w : World ω => I w.output) m := by
  have halike : WritesAlike (fun o o' : ω => I o ∧ o = o') fun _ o => I o := by
    rintro data o _ ⟨h, rfl⟩
    apply outcome_intro
    · intro _ o' hrun
      exact ⟨o', hrun, (hwrites data o h).of_ok hrun, rfl⟩
    · intro _ o' hrun
      exact .inl ((hwrites data o h).of_error hrun)
  intro w h
  apply (hm halike w w ⟨rfl, rfl, h, rfl⟩).mono
  · intro _ w' hok
    obtain ⟨_, -, hside⟩ := hok
    exact hside.output.1
  · intro _ w' hthrow
    rcases hthrow with hkept | ⟨_, -, hside⟩
    · exact hkept
    · exact hside.output.1

/-- What single writes keep of an output, the stream overloads keep. -/
lemma keeps_output_onStreams {ω : Type} [Output ω] {I : ω → Prop}
    (hwrites : ∀ data, Keeps I (writeAll data : Eff ω Unit)) (operation : Operation) (aad : Bytes) :
    Keeps (fun w : World ω => I w.output) (operation.onStreams ssl aad) :=
  keeps_output_of_simulates hwrites fun halike => simulates_onStreams halike operation aad

end Payload

end SecureKit.File
