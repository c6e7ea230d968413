import SecureKit.Error

/-!
# Key derivation and digests

`src/hash.cpp`: `hkdf_sha256`, which the file formats use, and `sha256` and `hmac_sha256`, which only
the command line tool uses.

The functions of OpenSSL behind the latter are parameters of their own, `Digests`.  The tool calls each
of them once in a run, so their answers do not depend on the calls before.
-/

namespace SecureKit

open ByteString Effect Evp

variable (ssl : Openssl)

/-- The error of `throw_hkdf_backend_failure`. -/
def hkdfFailure : Error := ⟨.backend_failure, "OpenSSL HKDF-SHA-256 operation failed"⟩

/-- `hkdf_sha256(key_material, salt, info, output_size)` -/
def hkdfSha256 (keyMaterial salt info : Bytes) (outputSize : ℕ) : Eff Lib (ByteArr outputSize) :=
  if outputSize = 0 then pure (ByteArr.zeros outputSize)
  else do
    let kdf ← call .kdfFetch ssl.kdfFetch
    throwIf (kdf = false) hkdfFailure
    let context ← call .kdfCtxNew ssl.kdfCtxNew
    throwIf (context = false) hkdfFailure
    let output ← call .kdfDerive fun t => ssl.kdfDerive t keyMaterial salt info outputSize
    orThrow hkdfFailure output

variable {ssl} {prim : Primitives} {cap : ℕ}

lemma outcome_hkdfSha256 (hs : ssl.Sound prim) {keyMaterial salt info : Bytes} {size : ℕ}
    {lib : Lib} {Q : ByteArr size → Lib → Prop} {E : Error → Lib → Prop} (hpos : size ≠ 0)
    (hsize : size ≤ 255 * 32)
    (hok : ∀ lib', Q (prim.hkdf keyMaterial salt info size) lib')
    (hfail : ¬ ssl.Available prim cap → ∀ lib', E hkdfFailure lib') :
    Outcome (hkdfSha256 ssl keyMaterial salt info size) lib Q E := by
  simp only [hkdfSha256, if_neg hpos, outcome_bind, outcome_call, outcome_throwIf]
  refine ⟨fun hkdf => hfail (fun ha => ?_) _, fun _ =>
    ⟨fun hctx => hfail (fun ha => ?_) _, fun _ => ?_⟩⟩
  · simp [ha.kdfFetch] at hkdf
  · simp [ha.kdfCtxNew] at hctx
  · generalize hlib : (Lib.mk (lib.calls ++ [.kdfFetch] ++ [.kdfCtxNew])) = lib₂
    cases hout : ssl.kdfDerive lib₂.clock keyMaterial salt info size with
    | none => exact hfail (fun ha => ha.kdfDerive _ _ _ _ _ hsize hout) _
    | some out =>
      rw [hs.kdfDerive _ _ _ _ _ _ hout]
      exact hok _

/-! ## Digests -/

/-- The answers of OpenSSL that the digests need. -/
structure Digests where
  /-- `EVP_MD_CTX_new` -/
  ctxNew : Bool
  /-- `EVP_sha256` -/
  sha256 : Bool
  /-- `EVP_DigestInit_ex` -/
  init : Bool
  /-- `EVP_DigestUpdate` -/
  update : Bytes → Bool
  /-- `EVP_DigestFinal_ex`, with as many bytes as it says -/
  final : Bytes → Option Bytes
  /-- `EVP_Q_mac` for HMAC with SHA-256, with as many bytes as it says -/
  mac : (key input : Bytes) → Option Bytes
  /-- `RAND_priv_bytes` for a key -/
  privateKey : Option key256

/-- The error of `throw_backend_failure`. -/
def sha256Failure : Error := ⟨.backend_failure, "OpenSSL SHA-256 operation failed"⟩

/-- The error of `throw_hmac_backend_failure`. -/
def hmacFailure : Error := ⟨.backend_failure, "OpenSSL HMAC-SHA-256 operation failed"⟩

/-- `sha256` -/
def sha256 (digests : Digests) (input : Bytes) : Except Error (ByteArr 32) :=
  if digests.ctxNew = false ∨ digests.sha256 = false then .error sha256Failure
  else if digests.init = false then .error sha256Failure
  else if ¬ (input = [] ∨ digests.update input = true) then .error sha256Failure
  else
    match digests.final input with
    | none => .error sha256Failure
    | some output =>
      if output.length ≠ 32 then .error sha256Failure else .ok (ByteArr.ofBytes 32 output)

/-- `hmac_sha256` -/
def hmacSha256 (digests : Digests) (key input : Bytes) : Except Error (ByteArr 32) :=
  match digests.mac key input with
  | none => .error hmacFailure
  | some output =>
    if output.length ≠ 32 then .error hmacFailure else .ok (ByteArr.ofBytes 32 output)

/-- `generate_key`, of `src/random.cpp` -/
def generateKey (digests : Digests) : Except Error key256 :=
  match digests.privateKey with
  | none => .error ⟨.backend_failure, "OpenSSL RAND_priv_bytes failed"⟩
  | some key => .ok key

end SecureKit
