import SecureKit.Base.Iostream
import SecureKit.File.Crypto

/-!
# Reading and writing whole pieces of a file

The stream half of `src/file_io.cpp`: `write_all`, `read_exact` and `reject_trailing_data`, and
the state a run of the sealing or opening code works on.

## Outputs

The payload functions are templates over the output.  `Output` is what they need of it, and
`LawfulOutput` is what every output obeys: bytes are appended in order, all of them as long as
the output is intact, and a write throws only on an output that is not reliable.
`Handed o₀ bytes o` says that `o` is `o₀` after `bytes` were handed to it, whether or not they
were all accepted; the specifications of the sealing loop are stated with it, so that they hold
for failing outputs as well.

## The state of a run

`World` holds the two streams and the library.  Its field `chunks` is a record of the calls of
`encrypt_chunk` with their arguments and results; no function reads it.
-/

namespace SecureKit.File

open ByteString Effect Iostream Evp

/-- The error of a failed read. -/
def readFailure : Error := ⟨.backend_failure, "File read failed"⟩

/-- The error of a failed write. -/
def writeFailure : Error := ⟨.backend_failure, "File write failed"⟩

/-! ## Outputs -/

/-- What the payload templates need of their output. -/
class Output (ω : Type) where
  /-- `write_all(out, data)` -/
  writeAll : Bytes → Eff ω Unit

export Output (writeAll)

/-- An output that appends. -/
class LawfulOutput (ω : Type) [Output ω] where
  /-- The bytes the output has accepted. -/
  written : ω → Bytes
  /-- Nothing handed to the output has been lost so far. -/
  Intact : ω → Prop
  /-- The output accepts whatever is written to it. -/
  Reliable : ω → Prop
  intact_of_reliable : ∀ o, Reliable o → Intact o
  outcome_writeAll : ∀ (o : ω) (data : Bytes),
    let Appends := fun o' => written o' <+: written o ++ data ∧
      (Intact o' → Intact o ∧ written o' = written o ++ data) ∧
      (¬ Intact o → written o' = written o)
    Outcome (writeAll data) o
      (fun _ o' => Appends o' ∧ (Reliable o → Reliable o'))
      (fun e o' => Appends o' ∧ e = writeFailure ∧ ¬ Reliable o)

export LawfulOutput (written Intact Reliable)

section Handed

variable {ω : Type} [Output ω] [LawfulOutput ω]

/-- `o` is what is left of `o₀` once `bytes` were handed to it. -/
structure Handed (o₀ : ω) (bytes : Bytes) (o : ω) : Prop where
  written_prefix : written o <+: written o₀ ++ bytes
  written_eq : Intact o → written o = written o₀ ++ bytes

lemma Handed.refl (o : ω) : Handed o [] o :=
  ⟨by simp, fun _ => by simp⟩

/-- A write hands its data on to what was handed before. -/
lemma outcome_writeAll {o₀ o : ω} {bytes data : Bytes} {Q : Unit → ω → Prop}
    {E : Error → ω → Prop} (h : Handed o₀ bytes o)
    (hok : ∀ o', Handed o₀ (bytes ++ data) o' → (Reliable o → Reliable o') → Q () o')
    (hfail : ¬ Reliable o → ∀ o', Handed o₀ (bytes ++ data) o' → E writeFailure o') :
    Outcome (writeAll data) o Q E := by
  have hhanded : ∀ o' : ω, (written o' <+: written o ++ data ∧
      (Intact o' → Intact o ∧ written o' = written o ++ data) ∧
      (¬ Intact o → written o' = written o)) → Handed o₀ (bytes ++ data) o' := by
    rintro o' ⟨hfront, hintact, hbroken⟩
    refine ⟨?_, fun ho' => ?_⟩
    · rw [← List.append_assoc]
      by_cases ho : Intact o
      · rw [← h.written_eq ho]
        exact hfront
      · rw [hbroken ho]
        exact h.written_prefix.trans (List.prefix_append _ _)
    · obtain ⟨ho, heq⟩ := hintact ho'
      rw [heq, h.written_eq ho, List.append_assoc]
  refine (LawfulOutput.outcome_writeAll o data).mono ?_ ?_
  · rintro ⟨⟩ o' ⟨happends, hreliable⟩
    exact hok o' (hhanded o' happends) hreliable
  · rintro e o' ⟨happends, rfl, hnot⟩
    exact hfail hnot o' (hhanded o' happends)

end Handed

/-- `write_all(std::ostream &, std::span<const std::byte>)` -/
def writeAllStream (data : Bytes) : Eff OStream Unit := do
  modify (OStream.write data)
  throwIf ((← get).state.fail = true) writeFailure

instance : Output OStream := ⟨writeAllStream⟩

/-- A write to a stream throws exactly if the stream refuses it. -/
lemma outcome_writeAllStream {s : OStream} {data : Bytes} {Q : Unit → OStream → Prop}
    {E : Error → OStream → Prop} :
    Outcome (writeAll data) s Q E ↔
      (s.Refuses data.length → E writeFailure (s.write data)) ∧
        (¬ s.Refuses data.length → Q () (s.write data)) := by
  rw [← OStream.fail_write]
  simp only [writeAll, writeAllStream, outcome_bind, outcome_modify, outcome_get, outcome_throwIf]

instance : LawfulOutput OStream where
  written s := s.written
  Intact s := s.state.good = true
  Reliable s := s.Reliable
  intact_of_reliable s h := h.1
  outcome_writeAll s data := by
    have happends := s.written_write data
    simp only [Bool.not_eq_true]
    rw [outcome_writeAllStream]
    refine ⟨fun href => ⟨happends, rfl, fun hrel => ?_⟩, fun _ => ⟨happends, fun hrel => ?_⟩⟩
    · rcases href with hfail | ⟨_, hfits⟩
      · simp [IoState.eq_of_good hrel.1, IoState.fail] at hfail
      · exact hfits (hrel.fits _)
    · rw [hrel.write]
      exact hrel

/-! ## Inputs -/

/-- `read_exact(in, data, size)`: the array filled, or `none` for `false`. -/
def readExact (size : ℕ) : Eff IStream (Option (ByteArr size)) := do
  let data ← IStream.readBytes size
  if data.length = size then return some (ByteArr.ofBytes size data)
  let s ← IStream.flags
  throwIf (s.badbit = true ∨ (s.eofbit = false ∧ s.fail = true)) readFailure
  return none

/-- `reject_trailing_data(in)` -/
def rejectTrailingData : Eff IStream Unit := do
  let trailing ← IStream.readBytes 1
  throwIf (trailing.length ≠ 0) invalidPacket
  let s ← IStream.flags
  throwIf (s.badbit = true ∨ (s.eofbit = false ∧ s.fail = true)) readFailure

section Reading

variable {s : IStream}

@[simp] lemma outcome_readBytes {n : ℕ} {Q : Bytes → IStream → Prop} {E : Error → IStream → Prop} :
    Outcome (IStream.readBytes n) s Q E ↔ Q (s.read n).1 (s.read n).2 := Iff.rfl

@[simp] lemma outcome_peekByte {Q : Option UInt8 → IStream → Prop} {E : Error → IStream → Prop} :
    Outcome IStream.peekByte s Q E ↔ Q s.peek.1 s.peek.2 := Iff.rfl

@[simp] lemma outcome_flags {Q : IoState → IStream → Prop} {E : Error → IStream → Prop} :
    Outcome IStream.flags s Q E ↔ Q s.state s := Iff.rfl

/-- On a good stream, `readExact` returns the next bytes if there are enough, `none` at the end
of the file, and throws on a fault. -/
lemma outcome_readExact {n : ℕ} {Q : Option (ByteArr n) → IStream → Prop}
    {E : Error → IStream → Prop} (hgood : s.state.good = true)
    (hok : ∀ data : ByteArr n, s.source.StartsWith data →
      Q (some data) { s with source := s.source.skip n })
    (hends : ¬ s.source.Has n → s.source.faults = false → ∀ s', Q none s')
    (hfault : ¬ s.source.Has n → s.source.faults = true → ∀ s', E readFailure s') :
    Outcome (readExact n) s Q E := by
  simp only [readExact, outcome_bind, outcome_readBytes, outcome_ite, outcome_flags,
    outcome_throwIf, outcome_pure]
  by_cases hhas : s.source.Has n
  · rw [IStream.read_of_has hgood hhas]
    refine ⟨fun _ => hok _ ?_, fun h => absurd hhas h⟩
    rw [ByteArr.coe_ofBytes_of_length hhas]
    exact Source.startsWith_ahead hhas
  · have hshort : (s.source.ahead n).length ≠ n := hhas
    cases hf : s.source.faults with
    | false =>
      rw [IStream.read_of_ends hgood hhas hf]
      refine ⟨fun h => absurd h hshort, fun _ => ⟨fun h => ?_, fun _ => hends hhas hf _⟩⟩
      simp at h
    | true =>
      rw [IStream.read_of_faults hgood hhas hf]
      have hpos : n ≠ 0 := by
        rintro rfl
        exact hhas (List.length_eq_zero_iff.mpr (List.length_eq_zero_iff.mp
          (Nat.le_zero.mp (s.source.length_ahead_le 0))))
      exact ⟨fun h => absurd h.symm hpos, fun _ => ⟨fun _ => hfault hhas hf _, fun h => by simp at h⟩⟩

/-- On a good stream, `rejectTrailingData` returns only at the end of the file. -/
lemma outcome_rejectTrailingData {Q : Unit → IStream → Prop} {E : Error → IStream → Prop}
    (hgood : s.state.good = true)
    (hok : ∀ s', s.source = .finite [] .eof → Q () s')
    (htrailing : s.source.Has 1 → ∀ s', E invalidPacket s')
    (hfault : ¬ s.source.Has 1 → s.source.faults = true → ∀ s', E readFailure s') :
    Outcome rejectTrailingData s Q E := by
  simp only [rejectTrailingData, outcome_bind, outcome_readBytes, outcome_flags, outcome_throwIf]
  by_cases hhas : s.source.Has 1
  · rw [IStream.read_of_has hgood hhas]
    refine ⟨fun _ => htrailing hhas _, fun h => absurd h ?_⟩
    rw [hhas]
    decide
  · cases hf : s.source.faults with
    | false =>
      obtain ⟨bytes, hsource, hlen⟩ := Source.exists_eof_of_not_has hhas hf
      obtain rfl : bytes = [] := List.length_eq_zero_iff.mp (by omega)
      rw [IStream.read_of_ends hgood hhas hf]
      refine ⟨fun h => absurd h ?_, fun _ => ⟨fun h => by simp at h, fun _ => hok _ hsource⟩⟩
      simp [hsource, Source.ahead]
    | true =>
      rw [IStream.read_of_faults hgood hhas hf]
      exact ⟨fun h => by simp at h, fun _ => ⟨fun _ => hfault hhas hf _, fun h => by simp at h⟩⟩

end Reading

/-! ## The state of a run -/

/-- A call of `encrypt_chunk`: its arguments, and what it returned, if it did. -/
structure ChunkCall where
  fileKey : key256
  nonce : Bytes
  aad : Bytes
  plaintext : Bytes
  result : Option EncryptedChunk
  deriving DecidableEq

/-- The streams and the library a run works on, with a record of its calls of `encrypt_chunk`. -/
structure World (ω : Type) where
  input : IStream
  output : ω
  lib : Lib := {}
  chunks : List ChunkCall := []

section World

variable {ω : Type} {α : Type}

/-- Work on the input. -/
def onInput (m : Eff IStream α) : Eff (World ω) α :=
  zoom World.input (fun input w => { w with input }) m

/-- Work on the output. -/
def onOutput (m : Eff ω α) : Eff (World ω) α :=
  zoom World.output (fun output w => { w with output }) m

/-- Call the library. -/
def onLib (m : Eff Lib α) : Eff (World ω) α :=
  zoom World.lib (fun lib w => { w with lib }) m

/-- Call `encrypt_chunk` and record the call: the arguments it is made with are the ones recorded. -/
def recordChunk (ssl : Openssl) (plaintext : Bytes) (fileKey : key256) (nonce aad : Bytes) :
    Eff (World ω) EncryptedChunk := fun w =>
  let entry := fun result => ChunkCall.mk fileKey nonce aad plaintext result
  match encryptChunk ssl plaintext fileKey nonce aad w.lib with
  | .ok chunk lib => .ok chunk { w with lib, chunks := w.chunks ++ [entry (some chunk)] }
  | .error e lib => .error e { w with lib, chunks := w.chunks ++ [entry none] }

variable {w : World ω}

@[simp] lemma outcome_onInput {m : Eff IStream α} {Q : α → World ω → Prop}
    {E : Error → World ω → Prop} :
    Outcome (onInput m) w Q E ↔ Outcome m w.input (fun a s => Q a { w with input := s })
      (fun e s => E e { w with input := s }) := outcome_zoom

@[simp] lemma outcome_onOutput {m : Eff ω α} {Q : α → World ω → Prop}
    {E : Error → World ω → Prop} :
    Outcome (onOutput m) w Q E ↔ Outcome m w.output (fun a o => Q a { w with output := o })
      (fun e o => E e { w with output := o }) := outcome_zoom

@[simp] lemma outcome_onLib {m : Eff Lib α} {Q : α → World ω → Prop}
    {E : Error → World ω → Prop} :
    Outcome (onLib m) w Q E ↔ Outcome m w.lib (fun a l => Q a { w with lib := l })
      (fun e l => E e { w with lib := l }) := outcome_zoom

@[simp] lemma outcome_recordChunk {ssl : Openssl} {fileKey : key256} {nonce aad plaintext : Bytes}
    {Q : EncryptedChunk → World ω → Prop} {E : Error → World ω → Prop} :
    Outcome (recordChunk ssl plaintext fileKey nonce aad) w Q E ↔
      Outcome (encryptChunk ssl plaintext fileKey nonce aad) w.lib
        (fun chunk lib => Q chunk { w with lib, chunks := w.chunks ++
          [⟨fileKey, nonce, aad, plaintext, some chunk⟩] })
        (fun e lib => E e { w with lib, chunks := w.chunks ++
          [⟨fileKey, nonce, aad, plaintext, none⟩] }) := by
  simp only [Outcome, recordChunk]
  cases encryptChunk ssl plaintext fileKey nonce aad w.lib <;> rfl

end World

end SecureKit.File
