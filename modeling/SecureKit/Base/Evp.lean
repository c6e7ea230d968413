import SecureKit.Base.Outcome
import SecureKit.Base.ByteString

/-!
# OpenSSL as a parameter: cipher contexts, key derivation, random bytes

OpenSSL is not part of the code that calls it.  Here it is a parameter `ssl : Openssl`, a family
of answers that may depend on how many library calls the run has made before (so that any call
can fail at any time, and random bytes can be any bytes), and, for calls on an `EVP_CIPHER_CTX`,
on the calls made on that context so far.  A context *is* that history: nothing else is assumed
about its contents.

## What is known of the answers

`Stage.next` is the documented order of calls on an AES-256-GCM context and `stageOf` reads the
stage off a history.  `Primitives` are the pure functions the library is documented to compute,
and `AesGcm.expected` is the documented answer at each stage.  The two hypotheses theorems take
about `ssl` are stated with these:

* `Openssl.Sound ssl prim`: a call that succeeds has the documented answer.
* `Openssl.Available ssl prim cap`: calls in the documented order succeed, for texts of at most
  `cap` bytes in pieces that fit an `int`; tag verification succeeds when it should.

Properties of the primitives are separate hypotheses (`AesGcm.Lengths`, `AesGcm.Incremental`,
`AesGcm.Correct`, `AesGcm.Exact`), as different results need different ones.
`Openssl.reference prim` is a library that satisfies both of the above for any primitives.

## Running calls

`cipher` makes one call on the context held in a `CipherState`, and `outcome_cipher` is its only
specification: it follows the stage and gives the documented answer, or the call fails and then
either the documented answer is failure or the library was not available.
-/

namespace Evp

open ByteString Effect

variable {ε : Type}

/-! ## Calls on a cipher context -/

/-- Which of the `EVP_Encrypt…` and `EVP_Decrypt…` functions is called. -/
inductive Direction
  | encrypt
  | decrypt
  deriving DecidableEq

/-- A 32-byte key. -/
abbrev Key256 := ByteArr 32

/-- The calls made on an `EVP_CIPHER_CTX`. -/
inductive CipherCall
  /-- `EVP_EncryptInit_ex(ctx, EVP_aes_256_gcm(), nullptr, nullptr, nullptr)` -/
  | initCipher (dir : Direction)
  /-- `EVP_CIPHER_CTX_ctrl(ctx, EVP_CTRL_GCM_SET_IVLEN, size, nullptr)` -/
  | setIvLen (size : ℕ)
  /-- `EVP_EncryptInit_ex(ctx, nullptr, nullptr, key, nonce)` -/
  | initKey (dir : Direction) (key : Key256) (nonce : Bytes)
  /-- `EVP_CipherUpdate(ctx, nullptr, &unused, data, size)` -/
  | aad (data : Bytes)
  /-- `EVP_EncryptUpdate(ctx, out, &out_size, data, size)` -/
  | update (dir : Direction) (data : Bytes)
  /-- `EVP_CIPHER_CTX_ctrl(ctx, EVP_CTRL_GCM_SET_TAG, 16, tag)` -/
  | setTag (tag : ByteArr 16)
  /-- `EVP_EncryptFinal_ex(ctx, out, &out_size)` -/
  | final (dir : Direction)
  /-- `EVP_CIPHER_CTX_ctrl(ctx, EVP_CTRL_GCM_GET_TAG, 16, tag)` -/
  | getTag
  deriving DecidableEq

/-- The size a call passes as an `int`. -/
def CipherCall.size : CipherCall → ℕ
  | .aad data => data.length
  | .update _ data => data.length
  | _ => 0

/-- A cipher context: the calls made on it, oldest first, each with whether it succeeded. -/
abbrev CipherCtx := List (CipherCall × Bool)

/-! ## The documented order of calls -/

/-- What a context that has been given its key has absorbed. -/
structure Session where
  dir : Direction
  key : Key256
  nonce : Bytes
  aad : Bytes := []
  text : Bytes := []
  deriving DecidableEq

/-- How far a context has come. -/
inductive Stage
  | fresh
  | cipher (dir : Direction)
  | sized (dir : Direction) (ivLen : ℕ)
  | keyed (session : Session)
  | tagged (session : Session) (tag : ByteArr 16)
  | finished (session : Session)
  deriving DecidableEq

namespace Stage

/-- The stage behind a successful call, where the documentation admits the call: the additional
data before the text, the expected tag before the end of a decryption, the computed tag after
the end of an encryption. -/
def next : Stage → CipherCall → Option Stage
  | fresh, .initCipher dir => some (cipher dir)
  | cipher dir, .setIvLen size => some (sized dir size)
  | sized dir ivLen, .initKey dir' key nonce =>
    if dir = dir' ∧ nonce.length = ivLen then some (keyed { dir, key, nonce }) else none
  | keyed s, .aad data =>
    if s.text = [] then some (keyed { s with aad := s.aad ++ data }) else none
  | keyed s, .update dir data =>
    if dir = s.dir then some (keyed { s with text := s.text ++ data }) else none
  | keyed s, .setTag tag => if s.dir = .decrypt then some (tagged s tag) else none
  | keyed s, .final dir =>
    if dir = .encrypt ∧ s.dir = .encrypt then some (finished s) else none
  | tagged s _, .final dir =>
    if dir = .decrypt ∧ s.dir = .decrypt then some (finished s) else none
  | finished s, .getTag => if s.dir = .encrypt then some (finished s) else none
  | _, _ => none

/-- The text absorbed so far. -/
def text : Stage → Bytes
  | keyed s | tagged s _ | finished s => s.text
  | _ => []

end Stage

/-- The stage a history leads to, where every call of it succeeded and was admitted. -/
def stageOf (ctx : CipherCtx) : Option Stage :=
  ctx.foldlM (fun stage entry => if entry.2 then stage.next entry.1 else none) .fresh

@[simp] lemma stageOf_nil : stageOf [] = some .fresh := rfl

lemma stageOf_append_success {ctx : CipherCtx} {stage : Stage} (h : stageOf ctx = some stage)
    (call : CipherCall) : stageOf (ctx ++ [(call, true)]) = stage.next call := by
  unfold stageOf at h ⊢
  rw [List.foldlM_append, h]
  cases hnext : stage.next call <;> simp [hnext]

/-! ## What the library computes -/

/-- AES-256-GCM as pure functions of key, nonce, additional data and text. -/
structure AesGcm where
  encText : Key256 → (nonce text : Bytes) → Bytes
  decText : Key256 → (nonce text : Bytes) → Bytes
  /-- The tag computed while encrypting the plaintext `text`. -/
  tag : Key256 → (nonce aad text : Bytes) → ByteArr 16
  /-- Whether `tag` verifies for the ciphertext `text`. -/
  verify : Key256 → (nonce aad text : Bytes) → (tag : ByteArr 16) → Bool

namespace AesGcm

/-- The documented answer to a call: the bytes it outputs, or `none` where it fails. -/
def expected (gcm : AesGcm) : Stage → CipherCall → Option Bytes
  | .keyed s, .update .encrypt data =>
    some ((gcm.encText s.key s.nonce (s.text ++ data)).drop s.text.length)
  | .keyed s, .update .decrypt data =>
    some ((gcm.decText s.key s.nonce (s.text ++ data)).drop s.text.length)
  | .tagged s tag, .final _ => if gcm.verify s.key s.nonce s.aad s.text tag then some [] else none
  | .finished s, .getTag => some (gcm.tag s.key s.nonce s.aad s.text)
  | _, _ => some []

/-- Encryption and decryption keep the length. -/
structure Lengths (gcm : AesGcm) : Prop where
  length_encText : ∀ key nonce text, (gcm.encText key nonce text).length = text.length
  length_decText : ∀ key nonce text, (gcm.decText key nonce text).length = text.length

/-- Text is processed as a stream: the output for the beginning of a text is the beginning of
the output. -/
structure Incremental (gcm : AesGcm) : Prop where
  encText_append : ∀ key nonce front back,
    gcm.encText key nonce front <+: gcm.encText key nonce (front ++ back)
  decText_append : ∀ key nonce front back,
    gcm.decText key nonce front <+: gcm.decText key nonce (front ++ back)

/-- Decryption undoes encryption under the same key, nonce and additional data. -/
structure Correct (gcm : AesGcm) : Prop where
  decText_encText : ∀ key nonce text, gcm.decText key nonce (gcm.encText key nonce text) = text
  verify_tag : ∀ key nonce aad text,
    gcm.verify key nonce aad (gcm.encText key nonce text) (gcm.tag key nonce aad text) = true

/-- Decryption yields `text` exactly for what encryption of `text` yields. -/
structure Exact (gcm : AesGcm) : Prop where
  verify_iff : ∀ key nonce aad ciphertext tag text,
    (gcm.verify key nonce aad ciphertext tag = true ∧ gcm.decText key nonce ciphertext = text) ↔
      (gcm.encText key nonce text = ciphertext ∧ gcm.tag key nonce aad text = tag)

lemma Exact.correct {gcm : AesGcm} (h : gcm.Exact) : gcm.Correct where
  decText_encText key nonce text :=
    ((h.verify_iff key nonce [] (gcm.encText key nonce text) (gcm.tag key nonce [] text) text).mpr
      ⟨rfl, rfl⟩).2
  verify_tag key nonce aad text :=
    ((h.verify_iff key nonce aad (gcm.encText key nonce text) (gcm.tag key nonce aad text)
      text).mpr ⟨rfl, rfl⟩).1

/-- The tag of a ciphertext is determined. -/
lemma Exact.verify_eq_false {gcm : AesGcm} (h : gcm.Exact) {key : Key256} {nonce aad ciphertext : Bytes}
    {tag : ByteArr 16} (hne : gcm.tag key nonce aad (gcm.decText key nonce ciphertext) ≠ tag) :
    gcm.verify key nonce aad ciphertext tag = false := by
  refine Bool.eq_false_iff.mpr fun hverify => hne ?_
  exact ((h.verify_iff key nonce aad ciphertext tag _).mp ⟨hverify, rfl⟩).2

/-- Some tag verifies in neither of two places. -/
lemma Exact.exists_unverified {gcm : AesGcm} (h : gcm.Exact) (key₁ key₂ : Key256)
    (nonce₁ nonce₂ aad₁ aad₂ ciphertext : Bytes) : ∃ tag,
      gcm.verify key₁ nonce₁ aad₁ ciphertext tag = false ∧
        gcm.verify key₂ nonce₂ aad₂ ciphertext tag = false := by
  have hfree : ∀ t₁ t₂ : ByteArr 16, ∃ t, t₁ ≠ t ∧ t₂ ≠ t := by
    intro t₁ t₂
    by_contra hnone
    have hone : ∀ t, t = t₁ ∨ t = t₂ := by
      intro t
      by_contra ht
      exact hnone ⟨t, fun h₁ => ht (.inl h₁.symm), fun h₂ => ht (.inr h₂.symm)⟩
    have hdistinct : ByteArr.ofBytes 16 [0] ≠ ByteArr.ofBytes 16 [1] ∧
        ByteArr.ofBytes 16 [0] ≠ ByteArr.ofBytes 16 [2] ∧
        ByteArr.ofBytes 16 [1] ≠ ByteArr.ofBytes 16 [2] := by decide
    have h₀ := hone (ByteArr.ofBytes 16 [0])
    have h₁ := hone (ByteArr.ofBytes 16 [1])
    have h₂ := hone (ByteArr.ofBytes 16 [2])
    grind
  obtain ⟨tag, hne₁, hne₂⟩ := hfree (gcm.tag key₁ nonce₁ aad₁ (gcm.decText key₁ nonce₁ ciphertext))
    (gcm.tag key₂ nonce₂ aad₂ (gcm.decText key₂ nonce₂ ciphertext))
  exact ⟨tag, h.verify_eq_false hne₁, h.verify_eq_false hne₂⟩

end AesGcm

/-- The pure functions behind the library calls. -/
structure Primitives where
  gcm : AesGcm
  hkdf : (key salt info : Bytes) → (size : ℕ) → ByteArr size
  scrypt : (password salt : Bytes) → (n r p : UInt32) → (maxmem : UInt64) → (size : ℕ) →
    ByteArr size

/-! ## The library -/

/-- The answers of OpenSSL; the first argument of each is the number of library calls made
before, `none` and `false` are failures. -/
structure Openssl where
  /-- `RAND_bytes` -/
  rand : ℕ → (size : ℕ) → Option (ByteArr size)
  /-- `EVP_CIPHER_CTX_new` -/
  ctxNew : ℕ → Bool
  /-- `EVP_aes_256_gcm` -/
  aes256Gcm : ℕ → Bool
  /-- Any call on a cipher context. -/
  cipher : ℕ → CipherCtx → CipherCall → Option Bytes
  /-- `EVP_KDF_fetch(nullptr, "HKDF", nullptr)` -/
  kdfFetch : ℕ → Bool
  /-- `EVP_KDF_CTX_new` -/
  kdfCtxNew : ℕ → Bool
  /-- `EVP_KDF_derive` for HKDF-SHA-256 in extract-and-expand mode. -/
  kdfDerive : ℕ → (key salt info : Bytes) → (size : ℕ) → Option (ByteArr size)
  /-- `EVP_PBE_scrypt` -/
  scrypt : ℕ → (password salt : Bytes) → (n r p : UInt32) → (maxmem : UInt64) → (size : ℕ) →
    Option (ByteArr size)

/-- The parameters `EVP_PBE_scrypt` accepts: `n` a power of two above one, and the working
memory within its limit. -/
def ScryptAdmissible (n r p : UInt32) (maxmem : UInt64) : Prop :=
  (∃ k, 0 < k ∧ n.toNat = 2 ^ k) ∧ 0 < r.toNat ∧ 0 < p.toNat ∧
    128 * r.toNat * (n.toNat + 2) + 128 * r.toNat * p.toNat ≤ maxmem.toNat

namespace Openssl

/-- Calls that succeed have the documented answer. -/
structure Sound (ssl : Openssl) (prim : Primitives) : Prop where
  cipher : ∀ t ctx stage stage' call out, stageOf ctx = some stage →
    stage.next call = some stage' → ssl.cipher t ctx call = some out →
    prim.gcm.expected stage call = some out
  kdfDerive : ∀ t key salt info size out, ssl.kdfDerive t key salt info size = some out →
    out = prim.hkdf key salt info size
  scrypt : ∀ t password salt n r p maxmem size out,
    ssl.scrypt t password salt n r p maxmem size = some out →
    out = prim.scrypt password salt n r p maxmem size

/-- Calls in the documented order and within the documented limits succeed. -/
structure Available (ssl : Openssl) (prim : Primitives) (cap : ℕ) : Prop where
  rand : ∀ t size, size ≤ intMax → ssl.rand t size ≠ none
  ctxNew : ∀ t, ssl.ctxNew t = true
  aes256Gcm : ∀ t, ssl.aes256Gcm t = true
  cipher : ∀ t ctx stage stage' call, stageOf ctx = some stage →
    stage.next call = some stage' → stage'.text.length ≤ cap → call.size ≤ intMax →
    prim.gcm.expected stage call ≠ none → ssl.cipher t ctx call ≠ none
  kdfFetch : ∀ t, ssl.kdfFetch t = true
  kdfCtxNew : ∀ t, ssl.kdfCtxNew t = true
  kdfDerive : ∀ t key salt info size, size ≤ 255 * 32 →
    ssl.kdfDerive t key salt info size ≠ none
  scrypt : ∀ t password salt n r p maxmem size, ScryptAdmissible n r p maxmem →
    ssl.scrypt t password salt n r p maxmem size ≠ none

/-- The bytes may be drawn at some time. -/
def Draws (ssl : Openssl) {n : ℕ} (bytes : ByteArr n) : Prop := ∃ t, ssl.rand t n = some bytes

/-- The library that computes the primitives, never fails, and draws the given bytes. -/
def reference (prim : Primitives) (draw : ℕ → (size : ℕ) → ByteArr size) : Openssl where
  rand t size := some (draw t size)
  ctxNew _ := true
  aes256Gcm _ := true
  cipher _ ctx call :=
    (stageOf ctx).bind fun stage =>
      (stage.next call).bind fun _ => prim.gcm.expected stage call
  kdfFetch _ := true
  kdfCtxNew _ := true
  kdfDerive _ key salt info size := some (prim.hkdf key salt info size)
  scrypt _ password salt n r p maxmem size := some (prim.scrypt password salt n r p maxmem size)

variable (prim : Primitives) (draw : ℕ → (size : ℕ) → ByteArr size)

lemma reference_sound : (reference prim draw).Sound prim where
  cipher t ctx stage stage' call out hstage hnext hout := by
    simpa [reference, hstage, hnext] using hout
  kdfDerive t key salt info size out hout := by
    simpa [reference] using hout.symm
  scrypt t password salt n r p maxmem size out hout := by
    simpa [reference] using hout.symm

lemma reference_available (cap : ℕ) : (reference prim draw).Available prim cap where
  rand t size _ := by simp [reference]
  ctxNew _ := rfl
  aes256Gcm _ := rfl
  cipher t ctx stage stage' call hstage hnext _ _ hexp := by
    simpa [reference, hstage, hnext] using hexp
  kdfFetch _ := rfl
  kdfCtxNew _ := rfl
  kdfDerive t key salt info size _ := by simp [reference]
  scrypt t password salt n r p maxmem size _ := by simp [reference]

end Openssl

/-! ## Library state and single calls -/

/-- One library call, as a run records it. -/
inductive LibCall
  /-- `RAND_bytes(buffer + offset, size)` -/
  | rand (offset size : ℕ)
  | ctxNew
  | aes256Gcm
  | cipher (context : Option CipherCtx) (call : CipherCall)
  | kdfFetch
  | kdfCtxNew
  | kdfDerive
  | scrypt

/-- The library calls made so far. -/
structure Lib where
  calls : List LibCall := []

/-- The number of library calls made so far. -/
def Lib.clock (lib : Lib) : ℕ := lib.calls.length

/-- Make a call: its answer depends on the clock, and it is recorded. -/
def call {α : Type} (entry : LibCall) (answer : ℕ → α) : EStateM ε Lib α :=
  modifyGet fun lib => (answer lib.clock, { calls := lib.calls ++ [entry] })

@[simp] lemma outcome_call {α : Type} {entry : LibCall} {answer : ℕ → α} {lib : Lib}
    {Q : α → Lib → Prop} {E : ε → Lib → Prop} :
    Outcome (call entry answer) lib Q E ↔
      Q (answer lib.clock) { calls := lib.calls ++ [entry] } := Iff.rfl

/-- The library together with the context a function works on. -/
structure CipherState where
  context : Option CipherCtx := none
  lib : Lib := {}

/-- Make a call on the current context.  On a null context the call is recorded as such and
fails. -/
def cipher (ssl : Openssl) (c : CipherCall) : EStateM ε CipherState (Option Bytes) :=
  modifyGet fun s =>
    let answer := s.context.bind fun ctx => ssl.cipher s.lib.clock ctx c
    (answer, { context := s.context.map (· ++ [(c, answer.isSome)]),
               lib := { calls := s.lib.calls ++ [.cipher s.context c] } })

/-- The calls on the library that involve no context. -/
def onLib {α : Type} (m : EStateM ε Lib α) : EStateM ε CipherState α :=
  zoom CipherState.lib (fun lib s => { s with lib }) m

/-- Run a function that owns a context of its own, which starts as a null pointer. -/
def withContext {α : Type} (m : EStateM ε CipherState α) : EStateM ε Lib α := fun lib =>
  match m { lib } with
  | .ok a s => .ok a s.lib
  | .error e s => .error e s.lib

@[simp] lemma outcome_withContext {α : Type} {m : EStateM ε CipherState α} {lib : Lib}
    {Q : α → Lib → Prop} {E : ε → Lib → Prop} :
    Outcome (withContext m) lib Q E ↔
      Outcome m { lib } (fun a s => Q a s.lib) (fun e s => E e s.lib) := by
  simp only [Outcome, withContext]
  cases m { lib } <;> rfl

section Spec

variable {ssl : Openssl} {prim : Primitives} {cap : ℕ}

/-- **The specification of a call on a context.**  In the documented order, a call of a sound
library answers as documented and moves the context on, or it fails; it fails only where that is
the documented answer or the library is not available. -/
lemma outcome_cipher (hs : ssl.Sound prim) {s : CipherState} {ctx : CipherCtx}
    {stage stage' : Stage} {c : CipherCall} {Q : Option Bytes → CipherState → Prop}
    {E : ε → CipherState → Prop} (hctx : s.context = some ctx) (hstage : stageOf ctx = some stage)
    (hnext : stage.next c = some stage') (hcap : stage'.text.length ≤ cap)
    (hsize : c.size ≤ intMax)
    (hok : ∀ out ctx' lib', prim.gcm.expected stage c = some out → stageOf ctx' = some stage' →
      Q (some out) { context := some ctx', lib := lib' })
    (hfail : ∀ ctx' lib', (prim.gcm.expected stage c = none ∨ ¬ ssl.Available prim cap) →
      Q none { context := some ctx', lib := lib' }) :
    Outcome (cipher ssl c) s Q E := by
  rw [cipher, outcome_modifyGet]
  simp only [hctx, Option.bind_some, Option.map_some]
  cases hanswer : ssl.cipher s.lib.clock ctx c with
  | some out =>
    refine hok out _ _ (hs.cipher _ _ _ _ _ _ hstage hnext hanswer) ?_
    rw [Option.isSome_some, stageOf_append_success hstage, hnext]
  | none =>
    refine hfail _ _ ?_
    by_contra hcon
    push Not at hcon
    exact hcon.2.cipher _ _ _ _ _ hstage hnext hcap hsize hcon.1 hanswer

end Spec

end Evp
