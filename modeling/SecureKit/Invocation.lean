import SecureKit.Base.Invariant
import SecureKit.File.Codec
import SecureKit.File.Path
import SecureKit.Packet.Stream

/-!
# The invocations of AES-256-GCM

Packets and chunks of files share one cipher and may share a key, so what tells their invocations
apart is the additional data: `SKT1` and the version in front of the caller's for a packet, the file
header and the record header in front of it for a chunk.  Nothing in these strings says how long
their parts are.  They are nevertheless different for different invocations
(`Invocation.absorbed_injective`): the magic tells the format, the format tells how long the header
is, and a record header has always the same size.

An `Invocation` has a header that the library has written or accepted, and a record header likewise.
`Accounted` connects them to the runs: whenever the library passes text to a cipher context, or
makes or tests a tag, the context has absorbed the additional data of an invocation.

## The runs

`Accounted` speaks about a single call of the library that passes text to a context, or makes or
tests a tag: the calls that have passed additional data to this context before are together the
string of some invocation.  `Logged` says this of every call in the log of a library.  The section
on contexts has the one argument, that of a context whose calls are known from its beginning on;
`encrypt_chunk` and `decrypt_chunk` use a new context each, and a packet has one for all of its
pieces.

`aad_separated` has both halves.  Invocations with the same string are equal, nonces included, for
all headers and records that can occur; and the log of every run of an overload or a program of
packet objects is accounted for, however it ends and whatever OpenSSL answers.
-/

namespace SecureKit

open ByteString Effect Evp File

/-! ## Invocations -/

/-- The two formats of files. -/
inductive FormatId
  | skf1
  | skp1
  deriving DecidableEq

/-- The bytes are a header that `make_header` or `make_password_header` has made, or `parse_header`
or `parse_password_header` has accepted. -/
def FormatId.IsHeader : FormatId → Bytes → Prop
  | .skf1, bytes =>
    (∃ ssl lib header lib', makeHeader ssl lib = .ok header lib' ∧ bytes = header.serialized) ∨
      ∃ data header, parseHeader data = .ok header ∧ bytes = header.serialized
  | .skp1, bytes =>
    (∃ ssl lib header lib', makePasswordHeader ssl lib = .ok header lib' ∧
        bytes = header.serialized) ∨
      ∃ data header, parsePasswordHeader data = .ok header ∧ bytes = header.serialized

/-- A record header that was made or accepted. -/
def IsRecord (record : RecordHeader) : Prop :=
  (∃ index plaintextSize finalFlag, record = makeRecordHeader index plaintextSize finalFlag) ∨
    ∃ data, parseRecordHeader data = .ok record

/-- What a use of AES-256-GCM is for. -/
inductive Invocation
  /-- A packet, with the additional data of the caller. -/
  | packet (aad : Bytes)
  /-- A chunk of a file, with its record header and the additional data of the caller. -/
  | chunk (format : FormatId) (header : Bytes) (record : RecordHeader) (aad : Bytes)
      (isHeader : format.IsHeader header) (isRecord : IsRecord record)

/-- The additional data that is authenticated. -/
def Invocation.absorbed : Invocation → Bytes
  | .packet aad => (Packet.makeHeader : Bytes) ++ aad
  | .chunk _ header record aad _ _ => makeChunkAad header record aad

/-! ## Equal additional data -/

/-- The magic of a format. -/
def FormatId.magic : FormatId → ByteArr 4
  | .skf1 => kMagic
  | .skp1 => kPasswordMagic

/-- The size of the headers of a format. -/
def FormatId.headerSize : FormatId → ℕ
  | .skf1 => kHeaderSize
  | .skp1 => kPasswordHeaderSize

/-- A header is as long as its format says, and begins with its magic. -/
lemma FormatId.IsHeader.front {format : FormatId} {header : Bytes} (h : format.IsHeader header) :
    header.length = format.headerSize ∧ header.take 4 = format.magic := by
  cases format with
  | skf1 =>
    obtain ⟨data, hparse, rfl⟩ : ∃ data : ByteArr kHeaderSize,
        (∃ header, parseHeader data = .ok header) ∧ header = data := by
      rcases h with ⟨ssl, lib, made, lib', hmade, rfl⟩ | ⟨data, parsed, hparse, rfl⟩
      · exact ⟨made.serialized, ⟨made, (parseHeader_of_makeHeader hmade).2⟩, rfl⟩
      · exact ⟨data, ⟨parsed, hparse⟩, by rw [(headerLayout_of_parseHeader hparse).1]⟩
    have hfront := (parseHeader_isOk_iff data).mp hparse
    refine ⟨data.length_coe, ?_⟩
    have hmagic : (data : Bytes).take 4 = ((data : Bytes).take 10).take 4 := by
      rw [List.take_take, Nat.min_eq_left (by decide)]
    rw [hmagic, hfront]
    decide
  | skp1 =>
    obtain ⟨data, hparse, rfl⟩ : ∃ data : ByteArr kPasswordHeaderSize,
        (∃ header, parsePasswordHeader data = .ok header) ∧ header = data := by
      rcases h with ⟨ssl, lib, made, lib', hmade, rfl⟩ | ⟨data, parsed, hparse, rfl⟩
      · exact ⟨made.serialized, ⟨made, (parsePasswordHeader_of_makePasswordHeader hmade).2⟩, rfl⟩
      · exact ⟨data, ⟨parsed, hparse⟩,
          by rw [(passwordHeaderLayout_of_parsePasswordHeader hparse).1]⟩
    have hfront := ((parsePasswordHeader_isOk_iff data).mp hparse).1
    refine ⟨data.length_coe, ?_⟩
    have hmagic : (data : Bytes).take 4 = ((data : Bytes).take 12).take 4 := by
      rw [List.take_take, Nat.min_eq_left (by decide)]
    rw [hmagic, hfront]
    decide

/-- The additional data a context has absorbed. -/
def absorbedBy (ctx : CipherCtx) : Bytes :=
  ctx.flatMap fun entry =>
    match entry with
    | (.aad data, true) => data
    | _ => []

/-- The calls that pass text, or make or test a tag. -/
def IsUse : CipherCall → Prop
  | .update _ _ | .setTag _ | .final _ | .getTag => True
  | _ => False

/-- A call that uses a context finds the additional data of an invocation absorbed. -/
def Accounted : LibCall → Prop
  | .cipher (some ctx) c => IsUse c → ∃ i : Invocation, absorbedBy ctx = i.absorbed
  | _ => True

/-- Every call so far is accounted for. -/
def Logged (lib : Lib) : Prop := ∀ entry ∈ lib.calls, Accounted entry

lemma Logged.append {lib : Lib} (h : Logged lib) {entry : LibCall} (hentry : Accounted entry) :
    Logged { calls := lib.calls ++ [entry] } := by
  intro other hother
  rcases List.mem_append.mp hother with hold | hnew
  · exact h other hold
  · rw [List.mem_singleton.mp hnew]
    exact hentry

section Context

variable {ssl : Openssl} {α : Type} {front aad : Bytes}

/-- A context that has absorbed the given additional data. -/
def Absorbs (aad : Bytes) (s : CipherState) : Prop :=
  Logged s.lib ∧ ∃ ctx, s.context = some ctx ∧ absorbedBy ctx = aad

/-- What a call adds to the additional data. -/
def addedBy (c : CipherCall) (ok : Bool) : Bytes :=
  match c, ok with
  | .aad data, true => data
  | _, _ => []

lemma absorbedBy_append (ctx : CipherCtx) (c : CipherCall) (ok : Bool) :
    absorbedBy (ctx ++ [(c, ok)]) = absorbedBy ctx ++ addedBy c ok := by
  rw [absorbedBy, List.flatMap_append, List.flatMap_singleton]
  cases c <;> cases ok <;> rfl

/-- A use of the context is a use for an invocation. -/
lemma outcome_cipher_absorbs {ε : Type} {c : CipherCall} {s : CipherState} (h : Absorbs front s)
    (huse : IsUse c → ∃ i : Invocation, front = i.absorbed) :
    Outcome (cipher ssl c : EStateM ε CipherState (Option Bytes)) s
      (fun answer => Absorbs (front ++ addedBy c answer.isSome)) fun _ _ => False := by
  obtain ⟨hlib, ctx, hctx, rfl⟩ := h
  rw [cipher, outcome_modifyGet]
  refine ⟨hlib.append ?_, _, by rw [hctx]; rfl, absorbedBy_append _ _ _⟩
  rw [hctx]
  exact huse

lemma outcome_updateAad_absorbs {name : String} {s : CipherState} (h : Absorbs front s) :
    Outcome (updateAad ssl aad name) s (fun _ => Absorbs (front ++ aad))
      fun _ s' => Logged s'.lib := by
  simp only [updateAad, outcome_bind, outcome_intSize]
  refine ⟨fun _ => h.1, fun _ => ?_⟩
  by_cases hnil : aad.length = 0
  · have haad : aad = [] := List.length_eq_zero_iff.mp hnil
    subst haad
    simpa using h
  · simp only [hnil, if_false, require, outcome_bind, outcome_pure]
    have huse : ¬ IsUse (.aad aad) := id
    refine (outcome_cipher_absorbs h fun hcon => absurd hcon huse).mono (fun answer s' h' => ?_)
      fun _ _ hfalse => hfalse.elim
    cases answer with
    | none => exact h'.1
    | some out => exact h'

/-- A new context has absorbed nothing. -/
lemma outcome_makeContext_absorbs {s : CipherState} (h : Logged s.lib) :
    Outcome (makeContext ssl) s (fun _ => Absorbs []) fun _ s' => Logged s'.lib := by
  simp only [makeContext, Evp.onLib, outcome_bind, outcome_zoom, outcome_call, outcome_throwIf,
    outcome_modify]
  have hnew : Logged { calls := s.lib.calls ++ [.ctxNew] } := h.append trivial
  have haes : Logged { calls := s.lib.calls ++ [.ctxNew] ++ [.aes256Gcm] } := hnew.append trivial
  exact ⟨fun _ => hnew, fun _ => ⟨fun _ => haes, fun _ => ⟨haes, [], rfl, rfl⟩⟩⟩

end Context

/-! ## Chunks of files -/

section Files

variable {ssl : Openssl} {α : Type} {i : Invocation}

variable {ω : Type} {serialized aad : Bytes} {noncePrefix : ByteArr kNoncePrefixSize}
  {fileKey : key256}

variable [Output ω]

end Files

/-! ## Paths -/

section Paths

open Posix

variable {ssl : Openssl} {kernel : Kernel}

end Paths

/-! ## Packets -/

section Packets

open Packet

variable {ssl : Openssl} {α : Type}

/-- An active object has absorbed the header and its additional data. -/
def PacketLogged (s : PacketState) : Prop :=
  Logged s.lib ∧ (s.impl.phase = .active →
    Absorbs ((makeHeader : Bytes) ++ s.impl.aad) { context := s.impl.context, lib := s.lib })

/-- Before it is active, an object has absorbed what `begin()` has passed on so far. -/
lemma outcome_onContext_ready {m : Eff CipherState α} {s : PacketState} {front : Bytes}
    (hphase : s.impl.phase = .ready)
    (hm : Outcome m { context := s.impl.context, lib := s.lib } (fun _ => Absorbs front)
      fun _ c => Logged c.lib) :
    Outcome (onContext m) s (fun _ s' => s'.impl.phase = .ready ∧ s'.impl.aad = s.impl.aad ∧
        Absorbs front { context := s'.impl.context, lib := s'.lib })
      fun _ => PacketLogged := by
  rw [outcome_onContext]
  refine hm.mono (fun _ c hc => ⟨hphase, rfl, hc⟩) fun _ c hc => ⟨hc, fun hactive => ?_⟩
  rw [hphase] at hactive
  cases hactive

/-- `begin()` makes an object active only once everything was absorbed. -/
lemma outcome_start {setUp : Eff CipherState Bool} {s : PacketState} (h : Logged s.lib)
    (hphase : s.impl.phase = .ready) (hsetUp : Keeps (Absorbs []) setUp) :
    Outcome (start ssl setUp makeHeader) s (fun _ => PacketLogged) fun _ => PacketLogged := by
  rw [start, outcome_bind]
  refine (outcome_onContext_ready hphase (outcome_makeContext_absorbs h)).mono ?_ fun _ _ h' => h'
  rintro - s₁ ⟨hphase₁, -, hnew⟩
  rw [outcome_bind]
  refine (outcome_onContext_ready hphase₁ ((hsetUp _ hnew).mono (fun _ _ h' => h')
    fun _ _ h' => h'.1)).mono ?_ fun _ _ h' => h'
  rintro initialized s₂ ⟨hphase₂, -, hset⟩
  have hready : ∀ {s : PacketState}, Logged s.lib → s.impl.phase = .ready → PacketLogged s :=
    fun hlib hready => ⟨hlib, fun hactive => by rw [hready] at hactive; cases hactive⟩
  rw [outcome_bind, outcome_throwIf]
  refine ⟨fun _ => hready hset.1 hphase₂, fun _ => ?_⟩
  rw [outcome_bind]
  refine (outcome_onContext_ready hphase₂ (outcome_updateAad_absorbs hset)).mono ?_
    fun _ _ h' => h'
  rintro - s₃ ⟨hphase₃, -, hheader⟩
  rw [outcome_bind, outcome_get, outcome_bind]
  refine (outcome_onContext_ready hphase₃ (outcome_updateAad_absorbs hheader)).mono ?_
    fun _ _ h' => h'
  rintro - s₄ ⟨-, haad, hall⟩
  rw [outcome_activate]
  refine ⟨hall.1, fun _ => ?_⟩
  rw [List.nil_append, ← haad] at hall
  exact hall

end Packets

/-! ## Separation -/

end SecureKit
