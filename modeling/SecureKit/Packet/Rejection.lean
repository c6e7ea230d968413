import SecureKit.Base.Kdf
import SecureKit.Packet.Transition

/-!
# Rejected calls are invisible

A call that is out of order, that carries too much text, or that begins a decryption with something
that is not a prefix, throws before it has touched anything: neither the object nor the library
knows afterwards that it was made (`Transition.unchanged`).  So a sequence of calls answers the
same without them, whatever OpenSSL answers to the others; that the nonce of the first `begin`
that is let through stays the same is part of this, as the library draws it at the same time.

A `finalize` with a tag of the wrong size throws `invalid_packet` as well, but is not among these
calls: it finishes the packet.
-/

namespace SecureKit.Packet

open ByteString Effect Evp

/-! ## The invariant of an object -/

/-- What holds of the state of an object: an active one owns a context that was given the key and
one nonce and has absorbed first the header and then the additional data, and a finished one owns
no context. -/
structure Impl.Inv (kind : Kind) (impl : Impl) : Prop where
  active : impl.phase = .active →
    ∃ ctx, impl.context = some ctx ∧ Absorbed kind impl.key impl.aad ctx
  finished : impl.phase = .finished → impl.context = none

section Preservation

variable {kind : Kind} {impl impl' : Impl} {lib lib' : Lib} {c : Call}
  {result : Except Error Bytes}

lemma Impl.Inv.of_ready (h : impl.phase = .ready) : impl.Inv kind where
  active hactive := by rw [h] at hactive; cases hactive
  finished hfinished := by rw [h] at hfinished; cases hfinished

lemma Impl.Inv.exists_context (h : impl.Inv kind) (hactive : impl.phase = .active) :
    ∃ ctx, impl.context = some ctx := by
  obtain ⟨ctx, hctx, -⟩ := h.active hactive
  exact ⟨ctx, hctx⟩

/-- Text calls behind what the context has absorbed keep the invariant. -/
lemma Impl.Inv.append (h : impl.Inv kind) (hactive : impl.phase = .active) {ctx more : CipherCtx}
    (hctx : impl.context = some ctx) (hmore : ∀ entry ∈ more, IsTextCall entry.1) :
    Impl.Inv kind { impl with context := some (ctx ++ more) } where
  active _ := by
    obtain ⟨ctx', hctx', habsorbed⟩ := h.active hactive
    obtain rfl : ctx = ctx' := Option.some.inj (hctx.symm.trans hctx')
    exact ⟨_, rfl, habsorbed.append hmore⟩
  finished hfinished := by
    have hne : impl.phase ≠ .finished := by rw [hactive]; simp
    exact absurd hfinished hne

/-- **The step**: every transition keeps the invariant. -/
lemma Transition.inv (h : Transition kind impl lib c result impl' lib') (hinv : impl.Inv kind) :
    impl'.Inv kind := by
  cases h with
  | misplaced | oversized | malformed => exact hinv
  | began nonce hready hlib =>
    refine ⟨fun _ => ⟨_, rfl, nonce, [], (List.append_nil _).symm, by simp⟩, fun h => ?_⟩
    exact absurd h (by simp)
  | notBegun hready => exact .of_ready hready
  | updated hactive hctx _ hmore => exact hinv.append hactive hctx hmore
  | failed hactive _ hctx hmore => exact hinv.append hactive hctx hmore
  | finished | refused => exact ⟨fun h => absurd h (by simp), fun _ => rfl⟩

end Preservation

/-! ## Rejected calls -/

/-- The call threw `invalid_input`, or it was the `begin` of a decryptor and threw
`invalid_packet`. -/
def Rejected (kind : Kind) (c : Call) (result : Except Error Bytes) : Bool :=
  match c, result with
  | _, .ok _ => false
  | .begin _, .error e =>
    e.code = .invalid_input || (kind = .decryptor && e.code = .invalid_packet)
  | _, .error e => e.code = .invalid_input

/-- A rejected call has changed nothing. -/
lemma Transition.unchanged {kind : Kind} {impl impl' : Impl} {lib lib' : Lib} {c : Call}
    {result : Except Error Bytes} (h : Transition kind impl lib c result impl' lib')
    (hrejected : Rejected kind c result = true) : impl' = impl ∧ lib' = lib := by
  cases h with
  | misplaced | oversized | malformed => exact ⟨rfl, rfl⟩
  | began | updated | finished => cases hrejected
  | notBegun => simp [Rejected, cipherFailure] at hrejected
  | @failed c _ _ _ _ hcall =>
    cases c with
    | begin packetPrefix => cases hcall
    | update text => simp [Rejected, cipherFailure] at hrejected
    | finalize tag => simp [Rejected, cipherFailure] at hrejected
  | refused _ _ herror =>
    rcases herror with rfl | rfl
    · simp [Rejected, invalidPacket] at hrejected
    · simp [Rejected, authenticationFailed] at hrejected

section Runs

variable {ssl : Openssl} {kind : Kind}

/-- An object without state, or with one that has the invariant. -/
def Object.Inv (kind : Kind) (o : Object) : Prop := ∀ impl, o.impl = some impl → impl.Inv kind

/-- A call keeps the invariant of the object, and if it is rejected, the object. -/
lemma answer_inv (ssl : Openssl) (c : Call) {o : Object} (h : o.Inv kind) :
    (answer ssl kind c o).2.Inv kind ∧
      (Rejected kind c (answer ssl kind c o).1 = true → (answer ssl kind c o).2 = o) := by
  obtain ⟨impl?, lib⟩ := o
  cases impl? with
  | none =>
    obtain ⟨message, hanswer⟩ := answer_none ssl kind c lib
    rw [hanswer]
    exact ⟨h, fun _ => rfl⟩
  | some impl =>
    have hinv := h impl rfl
    obtain ⟨impl', himpl, htransition⟩ :=
      transition_of_answer ssl kind c lib hinv.exists_context
    generalize answer ssl kind c ⟨some impl, lib⟩ = step at himpl htransition ⊢
    obtain ⟨result, impl'?, lib'⟩ := step
    obtain rfl : impl'? = some impl' := himpl
    constructor
    · intro impl'' himpl''
      cases himpl''
      exact htransition.inv hinv
    · intro hrejected
      obtain ⟨rfl, rfl⟩ := htransition.unchanged hrejected
      rfl

/-- The calls of a run that were not rejected, with their answers. -/
def accepted (ssl : Openssl) (kind : Kind) (cs : List Call) (o : Object) :
    List (Call × Except Error Bytes) :=
  (cs.zip (run ssl kind cs o).1).filter fun entry => !Rejected kind entry.1 entry.2

lemma run_accepted {cs : List Call} {o : Object} (h : o.Inv kind) :
    run ssl kind ((accepted ssl kind cs o).map Prod.fst) o =
      ((accepted ssl kind cs o).map Prod.snd, (run ssl kind cs o).2) := by
  induction cs generalizing o with
  | nil => rfl
  | cons c cs ih =>
    obtain ⟨hinv, hsame⟩ := answer_inv ssl c h
    have hrest := ih hinv
    unfold accepted at hrest ⊢
    simp only [run, List.zip_cons_cons, List.filter_cons]
    by_cases hrejected : Rejected kind c (answer ssl kind c o).1 = true
    · rw [hsame hrejected] at hrest ⊢
      rw [hrejected]
      exact hrest
    · rw [Bool.not_eq_true] at hrejected
      rw [hrejected]
      simp only [Bool.not_false, if_true, List.map_cons, run, hrest]

end Runs

/-- **Rejected calls are invisible.**  Without them, the other calls on an object answer the same. -/
theorem rejected_invisible (ssl : Openssl) (kind : Kind) (key : key256) (aad : Bytes)
    (h : aad.length ≤ intMax) (lib : Lib) (cs : List Call) :
    let o : Object := ⟨some { key, aad, aad_le := h }, lib⟩
    (run ssl kind ((accepted ssl kind cs o).map Prod.fst) o).1 =
      (accepted ssl kind cs o).map Prod.snd := by
  intro o
  have hinv : o.Inv kind := by
    intro impl himpl
    obtain rfl : _ = impl := Option.some.inj himpl
    exact .of_ready rfl
  rw [run_accepted hinv]

lemma length_sampleAad : ([0x41] : Bytes).length ≤ intMax := by decide

/-- An update that comes too early and a second `begin` are invisible to the others. -/
theorem rejected_invisible_encryptor :
    let o : Object := ⟨some { key := ByteArr.zeros 32, aad := [0x41], aad_le := length_sampleAad }, {}⟩
    let cs := [.update [0x61], .begin [], .begin [], .update [0x62], .finalize []]
    (run standardLibrary .encryptor ((accepted standardLibrary .encryptor cs o).map Prod.fst) o).1 =
      (accepted standardLibrary .encryptor cs o).map Prod.snd :=
  rejected_invisible standardLibrary .encryptor (ByteArr.zeros 32) [0x41] length_sampleAad {} _

end SecureKit.Packet
