import SecureKit.Packet.Internal

/-!
# Packet streams

`src/packet_stream.cpp` and `src/aead.cpp`: the classes `packet_encryptor` and `packet_decryptor`,
and the one-shot functions `encrypt` and `decrypt` built on them.

An object owns a pointer `impl_` to its state, which is null once the object was moved from; a
method runs on an `Object`, which holds this pointer and the library.  Behind the test for null the
methods work on a `PacketState`.  That additional data fits an `int` is checked by the constructor
and stays true, so `Impl` carries it.

A method leaves the object behind in the state it has reached when it throws, which is why `finish`
is called before the throw in some places and not at all in others.
-/

namespace SecureKit.Packet

open ByteString Effect Evp

/-! ## Objects -/

/-- `packet_stream_phase` -/
inductive Phase
  | ready
  | active
  | finished
  deriving DecidableEq

/-- `packet_encryptor::impl` and `packet_decryptor::impl` -/
structure Impl where
  key : key256
  aad : Bytes
  context : Option CipherCtx := none
  phase : Phase := .ready
  /-- The constructor has checked the size of the additional data. -/
  aad_le : aad.length ≤ intMax

/-- The state a method works on behind the test for null. -/
structure PacketState where
  impl : Impl
  lib : Lib := {}

/-- An object, with the library its methods call. -/
structure Object where
  impl : Option Impl
  lib : Lib := {}

/-- The constructor of both `impl` classes. -/
def Impl.new {σ : Type} (key : key256) (aad : Bytes) : Eff σ Impl :=
  if h : intMax < aad.length then throw (updateLimitError "AAD")
  else pure { key, aad, aad_le := not_lt.mp h }

section Methods

variable {α : Type}

/-- The test for null every method starts with. -/
def onImpl (message : String) (m : Eff PacketState α) : Eff Object α := fun o =>
  match o.impl with
  | none => .error (invalidInput message) o
  | some impl =>
    match m ⟨impl, o.lib⟩ with
    | .ok a s => .ok a ⟨some s.impl, s.lib⟩
    | .error e s => .error e ⟨some s.impl, s.lib⟩

/-- Work on the context of the object. -/
def onContext (m : Eff CipherState α) : Eff PacketState α :=
  zoom (fun s => { context := s.impl.context, lib := s.lib })
    (fun c s => { impl := { s.impl with context := c.context }, lib := c.lib }) m

/-- The calls on the library that involve no context. -/
def onLib (m : Eff Lib α) : Eff PacketState α :=
  zoom PacketState.lib (fun lib s => { s with lib }) m

/-- The test of the phase. -/
def requirePhase (phase : Phase) (message : String) : Eff PacketState Unit := do
  throwIf ((← get).impl.phase ≠ phase) (invalidInput message)

/-- `impl_->phase = packet_stream_phase::active` -/
def activate : Eff PacketState Unit :=
  modify fun s => { s with impl := { s.impl with phase := .active } }

/-- `impl_->context.reset()` and `impl_->phase = packet_stream_phase::finished` -/
def finish : Eff PacketState Unit :=
  modify fun s => { s with impl := { s.impl with context := none, phase := .finished } }

variable {o : Object} {s : PacketState} {Q : α → Object → Prop} {E : Error → Object → Prop}

@[simp] lemma outcome_onImpl_some {message : String} {m : Eff PacketState α} {impl : Impl}
    {lib : Lib} :
    Outcome (onImpl message m) ⟨some impl, lib⟩ Q E ↔
      Outcome m ⟨impl, lib⟩ (fun a s => Q a ⟨some s.impl, s.lib⟩)
        (fun e s => E e ⟨some s.impl, s.lib⟩) := by
  simp only [Outcome, onImpl]
  cases m ⟨impl, lib⟩ <;> rfl

@[simp] lemma outcome_onContext {m : Eff CipherState α} {Q : α → PacketState → Prop}
    {E : Error → PacketState → Prop} :
    Outcome (onContext m) s Q E ↔
      Outcome m { context := s.impl.context, lib := s.lib }
        (fun a c => Q a { impl := { s.impl with context := c.context }, lib := c.lib })
        (fun e c => E e { impl := { s.impl with context := c.context }, lib := c.lib }) :=
  outcome_zoom

@[simp] lemma outcome_onLib {m : Eff Lib α} {Q : α → PacketState → Prop}
    {E : Error → PacketState → Prop} :
    Outcome (onLib m) s Q E ↔
      Outcome m s.lib (fun a lib => Q a { s with lib }) (fun e lib => E e { s with lib }) :=
  outcome_zoom

@[simp] lemma outcome_requirePhase {phase : Phase} {message : String}
    {Q : Unit → PacketState → Prop} {E : Error → PacketState → Prop} :
    Outcome (requirePhase phase message) s Q E ↔
      (s.impl.phase ≠ phase → E (invalidInput message) s) ∧ (s.impl.phase = phase → Q () s) := by
  simp only [requirePhase, outcome_bind, outcome_get, outcome_throwIf, not_not]

@[simp] lemma outcome_activate {Q : Unit → PacketState → Prop} {E : Error → PacketState → Prop} :
    Outcome activate s Q E ↔ Q () { s with impl := { s.impl with phase := .active } } := Iff.rfl

@[simp] lemma outcome_finish {Q : Unit → PacketState → Prop} {E : Error → PacketState → Prop} :
    Outcome finish s Q E ↔
      Q () { s with impl := { s.impl with context := none, phase := .finished } } := Iff.rfl

end Methods

section Classes

variable (ssl : Openssl)

/-! ## Text -/

/-- `encrypt_chunk` and `decrypt_chunk`, which differ in the function of OpenSSL they call and in
the name they give their argument.  Empty text is not passed on. -/
def cryptChunk (dir : Direction) (name : String) (text : Bytes) : Eff CipherState Bytes := do
  let textSize ← intSize text.length name
  if textSize = 0 then return []
  let out ← require ssl (.update dir text)
  throwIf (out.length ≠ textSize) cipherFailure
  return out

/-- `encrypt_chunk` -/
def encryptChunk (plaintext : Bytes) : Eff CipherState Bytes :=
  cryptChunk ssl .encrypt "plaintext" plaintext

/-- `decrypt_chunk` -/
def decryptChunk (ciphertext : Bytes) : Eff CipherState Bytes :=
  cryptChunk ssl .decrypt "ciphertext" ciphertext

/-! ## The two classes -/

/-- What both `begin()` do with a nonce: a new context, its initialisation, the header and the
additional data. -/
def start (setUp : Eff CipherState Bool) (header : Bytes) : Eff PacketState Unit := do
  onContext (makeContext ssl)
  let initialized ← onContext setUp
  throwIf (initialized = false) cipherFailure
  onContext (updateAad ssl header "header")
  onContext (updateAad ssl (← get).impl.aad "AAD")
  activate

namespace PacketEncryptor

/-- `packet_encryptor::begin` -/
def begin : Eff Object Bytes := onImpl "packet encryptor has no state" do
  requirePhase .ready "packet encryptor begin() may only be called once"
  let drawn ← onLib (call (.rand 0 kNonceSize) fun t => ssl.rand t kNonceSize)
  let nonce ← orThrow cipherFailure drawn
  start ssl (initializeEncryptContext ssl (← get).impl.key nonce) makeHeader
  return makePacketPrefix nonce

/-- `packet_encryptor::update` -/
def update (plaintext : Bytes) : Eff Object Bytes := onImpl "packet encryptor has no state" do
  requirePhase .active "packet encryptor update() requires begin() before finalize()"
  onContext (encryptChunk ssl plaintext)

/-- `packet_encryptor::finalize` -/
def finalize : Eff Object Bytes := onImpl "packet encryptor has no state" do
  requirePhase .active "packet encryptor finalize() requires begin() exactly once"
  let final ← onContext (require ssl (.final .encrypt))
  throwIf (final.length ≠ 0) cipherFailure
  let tag ← onContext (require ssl .getTag)
  finish
  return ByteArr.ofBytes kTagSize tag

end PacketEncryptor

namespace PacketDecryptor

/-- `packet_decryptor::begin` -/
def begin (packetPrefix : Bytes) : Eff Object Unit := onImpl "packet decryptor has no state" do
  requirePhase .ready "packet decryptor begin() may only be called once"
  requireValidPrefix packetPrefix
  let header := packetPrefix.take kHeaderSize
  let nonce := ByteArr.ofBytes kNonceSize (packetPrefix.drop (packetPrefix.length - kNonceSize))
  start ssl (initializeDecryptContext ssl (← get).impl.key nonce) header

/-- `packet_decryptor::update` -/
def update (ciphertext : Bytes) : Eff Object Bytes := onImpl "packet decryptor has no state" do
  requirePhase .active "packet decryptor update() requires begin() before finalize()"
  onContext (decryptChunk ssl ciphertext)

/-- `packet_decryptor::finalize` -/
def finalize (tag : Bytes) : Eff Object Bytes := onImpl "packet decryptor has no state" do
  requirePhase .active "packet decryptor finalize() requires begin() exactly once"
  if tag.length ≠ kTagSize then
    finish
    throw invalidPacket
  let _ ← onContext (require ssl (.setTag (ByteArr.ofBytes kTagSize tag)))
  match ← onContext (cipher ssl (.final .decrypt)) with
  | none =>
    finish
    throw authenticationFailed
  | some trailing =>
    throwIf (1 < trailing.length) cipherFailure
    finish
    return trailing

end PacketDecryptor

/-! ## One-shot functions -/

/-- Run code that owns one object. -/
def withObject {α : Type} (impl : Impl) (m : Eff Object α) : Eff Lib α := fun lib =>
  match m ⟨some impl, lib⟩ with
  | .ok a o => .ok a o.lib
  | .error e o => .error e o.lib

/-- `encrypt` -/
def encrypt (plaintext : Bytes) (key : key256) (aad : Bytes) : Eff Lib Bytes := do
  let encryptor ← Impl.new key aad
  withObject encryptor do
    let packet ← PacketEncryptor.begin ssl
    let ciphertext ← PacketEncryptor.update ssl plaintext
    let tag ← PacketEncryptor.finalize ssl
    return packet ++ ciphertext ++ tag

/-- `decrypt`.  That the plaintext is wiped when `finalize` throws is left out. -/
def decrypt (packet : Bytes) (key : key256) (aad : Bytes) : Eff Lib Bytes := do
  requireValidPacket packet
  let packetPrefix := packet.take kPrefixSize
  let ciphertext := (packet.drop kPrefixSize).take (packet.length - kOverhead)
  let tag := packet.drop (packet.length - kTagSize)
  let decryptor ← Impl.new key aad
  withObject decryptor do
    PacketDecryptor.begin ssl packetPrefix
    let plaintext ← PacketDecryptor.update ssl ciphertext
    let trailing ← PacketDecryptor.finalize ssl tag
    return plaintext ++ trailing

@[simp] lemma outcome_withObject {α : Type} {impl : Impl} {m : Eff Object α} {lib : Lib}
    {Q : α → Lib → Prop} {E : Error → Lib → Prop} :
    Outcome (withObject impl m) lib Q E ↔
      Outcome m ⟨some impl, lib⟩ (fun a o => Q a o.lib) (fun e o => E e o.lib) := by
  simp only [Outcome, withObject]
  cases m ⟨some impl, lib⟩ <;> rfl

/-- The constructor throws exactly for additional data that is too long. -/
lemma outcome_new {σ : Type} {key : key256} {aad : Bytes} {s : σ} {Q : Impl → σ → Prop}
    {E : Error → σ → Prop} (hok : ∀ h : aad.length ≤ intMax, Q { key, aad, aad_le := h } s)
    (hlong : intMax < aad.length → E (updateLimitError "AAD") s) :
    Outcome (Impl.new key aad) s Q E := by
  unfold Impl.new
  by_cases h : intMax < aad.length
  · rw [dif_pos h]
    exact hlong h
  · rw [dif_neg h]
    exact hok _

/-! ## Sequences of calls on one object -/

/-- Which class an object belongs to. -/
inductive Kind
  | encryptor
  | decryptor
  deriving DecidableEq

/-- A call of a method.  An encryptor takes no notice of the arguments of `begin` and `finalize`. -/
inductive Call
  | begin (packetPrefix : Bytes)
  | update (text : Bytes)
  | finalize (tag : Bytes)
  deriving DecidableEq

/-- The method a call stands for. -/
def method : Kind → Call → Eff Object Bytes
  | .encryptor, .begin _ => PacketEncryptor.begin ssl
  | .encryptor, .update plaintext => PacketEncryptor.update ssl plaintext
  | .encryptor, .finalize _ => PacketEncryptor.finalize ssl
  | .decryptor, .begin packetPrefix => do
    PacketDecryptor.begin ssl packetPrefix
    return []
  | .decryptor, .update ciphertext => PacketDecryptor.update ssl ciphertext
  | .decryptor, .finalize tag => PacketDecryptor.finalize ssl tag

/-- What a call answers, bytes or an error, and the object it leaves behind. -/
def answer (kind : Kind) (c : Call) (o : Object) : Except Error Bytes × Object :=
  match method ssl kind c o with
  | .ok out o' => (.ok out, o')
  | .error e o' => (.error e, o')

/-- The answers to a sequence of calls, and the object it leaves behind. -/
def run (kind : Kind) : List Call → Object → List (Except Error Bytes) × Object
  | [], o => ([], o)
  | c :: cs, o =>
    let (result, o') := answer ssl kind c o
    let (results, o'') := run kind cs o'
    (result :: results, o'')

end Classes

end SecureKit.Packet
