import SecureKit.Base.Evp

/-!
# Errors, byte types and the effect of a call

`include/securekit/error.hpp` and `include/securekit/types.hpp`: the five error codes, the
exception `securekit::error` with its code and text, and the byte types.  A function of the
library that mutates `σ` and may throw is an `Eff σ`.

The cipher helpers that `src/file_crypto.cpp` and `src/aead_internal.hpp` define twice with the
same behaviour (`int_size`/`update_size`, `make_context`, `update_aad`) are written once here,
with the error they throw as a parameter; each of the two files instantiates them under its own
names.
-/

namespace SecureKit

open ByteString Effect Evp

/-! ## Errors -/

/-- `securekit::error_code` -/
inductive ErrorCode
  | invalid_input
  | invalid_encoding
  | invalid_packet
  | authentication_failed
  | backend_failure
  deriving DecidableEq

/-- `securekit::error` -/
structure Error where
  code : ErrorCode
  message : String
  deriving DecidableEq

/-- `securekit::key256` -/
abbrev key256 := ByteArr 32

/-- A call that mutates `σ` and may throw. -/
abbrev Eff (σ : Type) := EStateM Error σ

/-- The error of `check_int_size` and `check_update_size`. -/
def updateLimitError (name : String) : Error :=
  ⟨.invalid_input, name ++ " exceeds OpenSSL update limit"⟩

/-- The error every failing AES-256-GCM call of OpenSSL is reported with. -/
def cipherFailure : Error := ⟨.backend_failure, "OpenSSL AES-256-GCM operation failed"⟩

/-! ## Cipher helpers -/

section Cipher

variable (ssl : Openssl)

/-- `int_size` and `update_size`: a size that OpenSSL can take as an `int`. -/
def intSize {σ : Type} (size : ℕ) (name : String) : Eff σ ℕ := do
  throwIf (intMax < size) (updateLimitError name)
  return size

/-- `make_context`: a new context, if OpenSSL can allocate one and knows the cipher. -/
def makeContext : Eff CipherState Unit := do
  let created ← onLib (call .ctxNew ssl.ctxNew)
  throwIf (created = false) cipherFailure
  let known ← onLib (call .aes256Gcm ssl.aes256Gcm)
  throwIf (known = false) cipherFailure
  modify fun s => { s with context := some [] }

/-- A call on the context that must succeed, as in `if (EVP_…(…) != 1) throw_backend_failure(…)`. -/
def require (c : CipherCall) : Eff CipherState Bytes := do
  orThrow cipherFailure (← cipher ssl c)

/-- `update_aad`, where empty data is not passed on. -/
def updateAad (aad : Bytes) (name : String) : Eff CipherState Unit := do
  let aadSize ← intSize aad.length name
  if aadSize = 0 then return
  let _ ← require ssl (.aad aad)

end Cipher

/-! ## What the cipher helpers do -/

section Spec

variable {ssl : Openssl} {prim : Primitives} {cap : ℕ}

@[simp] lemma outcome_intSize {σ : Type} {size : ℕ} {name : String} {s : σ}
    {Q : ℕ → σ → Prop} {E : Error → σ → Prop} :
    Outcome (intSize size name) s Q E ↔
      (intMax < size → E (updateLimitError name) s) ∧ (size ≤ intMax → Q size s) := by
  simp [intSize]

lemma outcome_makeContext {s : CipherState} {Q : Unit → CipherState → Prop}
    {E : Error → CipherState → Prop}
    (hok : ∀ lib', Q () { context := some [], lib := lib' })
    (hfail : ¬ ssl.Available prim cap → ∀ s', E cipherFailure s') :
    Outcome (makeContext ssl) s Q E := by
  simp only [makeContext, onLib, outcome_bind, outcome_zoom, outcome_call, outcome_throwIf,
    outcome_modify]
  refine ⟨fun hnew => hfail (fun ha => ?_) _, fun _ =>
    ⟨fun haes => hfail (fun ha => ?_) _, fun _ => hok _⟩⟩
  · simp [ha.ctxNew] at hnew
  · simp [ha.aes256Gcm] at haes

/-- A required call whose documented answer is success moves the stage on and returns that
answer, and throws only where the library is not available. -/
lemma outcome_require (hs : ssl.Sound prim) {s : CipherState} {ctx : CipherCtx}
    {stage stage' : Stage} {c : CipherCall} {out : Bytes} {Q : Bytes → CipherState → Prop}
    {E : Error → CipherState → Prop} (hctx : s.context = some ctx)
    (hstage : stageOf ctx = some stage) (hnext : stage.next c = some stage')
    (hcap : stage'.text.length ≤ cap) (hsize : c.size ≤ intMax)
    (hexp : prim.gcm.expected stage c = some out)
    (hok : ∀ ctx' lib', stageOf ctx' = some stage' →
      Q out { context := some ctx', lib := lib' })
    (hfail : ¬ ssl.Available prim cap → ∀ s', E cipherFailure s') :
    Outcome (require ssl c) s Q E := by
  rw [require, outcome_bind]
  refine outcome_cipher hs hctx hstage hnext hcap hsize (fun out' ctx' lib' hout hctx' => ?_)
    (fun ctx' lib' hcause => ?_)
  · rw [hexp] at hout
    cases hout
    exact hok ctx' lib' hctx'
  · refine hfail (hcause.resolve_left ?_) _
    rw [hexp]
    simp

/-- Additional data is absorbed whole, in one call or, if empty, in none. -/
lemma outcome_updateAad (hs : ssl.Sound prim) {s : CipherState} {ctx : CipherCtx}
    {session : Session} {aad : Bytes} {name : String} {Q : Unit → CipherState → Prop}
    {E : Error → CipherState → Prop} (hctx : s.context = some ctx)
    (hstage : stageOf ctx = some (.keyed session)) (htext : session.text = [])
    (hok : aad.length ≤ intMax → ∀ ctx' lib',
      stageOf ctx' = some (.keyed { session with aad := session.aad ++ aad }) →
      Q () { context := some ctx', lib := lib' })
    (hlong : intMax < aad.length → E (updateLimitError name) s)
    (hfail : ¬ ssl.Available prim cap → ∀ s', E cipherFailure s') :
    Outcome (updateAad ssl aad name) s Q E := by
  simp only [updateAad, outcome_bind, outcome_intSize]
  refine ⟨hlong, fun hsize => ?_⟩
  by_cases hnil : aad.length = 0
  · -- For empty data the library is not called.
    have haad : aad = [] := List.length_eq_zero_iff.mp hnil
    obtain ⟨context, lib⟩ := s
    subst haad
    obtain rfl : context = some ctx := hctx
    simpa using hok hsize ctx lib (by simpa using hstage)
  · simp only [hnil, if_false, outcome_bind, outcome_pure]
    have hnext : (Stage.keyed session).next (.aad aad) =
        some (.keyed { session with aad := session.aad ++ aad }) := by
      simp [Stage.next, htext]
    refine outcome_require hs hctx hstage hnext (by simp [Stage.text, htext]) hsize rfl
      (fun ctx' lib' hctx' => ?_) hfail
    exact hok hsize ctx' lib' hctx'

end Spec

end SecureKit
