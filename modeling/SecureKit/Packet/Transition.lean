import SecureKit.Packet.Stream

/-!
# What a call of a method can do

`Transition` lists what one call on an object with state can do to the state, whatever OpenSSL
answers, and `transition_of_answer` says that the list is complete.  Everything about sequences of
calls is derived from it.

The list speaks of the phase, the context and the kind of the answer.  A context is the history of
its calls, so "the context has absorbed the header and then the additional data" is the statement
`Absorbed` about the beginning of that history.  `After` says that the library was called, and
never on a null context.

There is a constructor for each way a method can end: out of order, too much text, a prefix that is
none, a failure of the library before and behind the place where the object changes, and success.
The phase decides first, since every method tests it before it does anything else.

What follows is by cases on the list and not by unfolding a method.  `Packet.Rejection` reads off
which calls leave everything as it was, `Packet.Lifecycle` which orders of calls there are, and
`Invocation` what a context has absorbed when text is passed to it.
-/

namespace SecureKit.Packet

open ByteString Effect Evp

/-! ## Calls on a context that is there -/

/-- The library after calls of which none was on a null context. -/
def After (lib lib' : Lib) : Prop :=
  ∃ more, lib'.calls = lib.calls ++ more ∧ ∀ c, LibCall.cipher none c ∉ more

lemma After.refl (lib : Lib) : After lib lib := ⟨[], by simp, by simp⟩

lemma After.trans {lib lib' lib'' : Lib} (h : After lib lib') (h' : After lib' lib'') :
    After lib lib'' := by
  obtain ⟨more, hcalls, hnone⟩ := h
  obtain ⟨more', hcalls', hnone'⟩ := h'
  refine ⟨more ++ more', by rw [hcalls', hcalls, List.append_assoc], fun c hc => ?_⟩
  rcases List.mem_append.mp hc with hc | hc
  · exact hnone c hc
  · exact hnone' c hc

/-- One more call that is not on a null context. -/
lemma After.call {lib lib' : Lib} (h : After lib lib') (entry : LibCall)
    (hentry : ∀ c, entry ≠ .cipher none c) : After lib { calls := lib'.calls ++ [entry] } := by
  refine h.trans ⟨[entry], rfl, fun c hc => ?_⟩
  exact hentry c (List.mem_singleton.mp hc).symm

section Live

variable {ssl : Openssl} {s : CipherState} {ctx : CipherCtx} {lib : Lib}

/-- A call on a context that is there is added to its history. -/
lemma outcome_cipher_live {c : CipherCall} {Q : Option Bytes → CipherState → Prop}
    {E : Error → CipherState → Prop} (hctx : s.context = some ctx) (hlib : After lib s.lib)
    (h : ∀ answer lib', After lib lib' →
      Q answer { context := some (ctx ++ [(c, answer.isSome)]), lib := lib' }) :
    Outcome (cipher ssl c) s Q E := by
  rw [cipher, outcome_modifyGet]
  simp only [hctx, Option.bind_some, Option.map_some]
  exact h _ _ (hlib.call _ fun c' => by simp)

lemma outcome_require_live {c : CipherCall} {Q : Bytes → CipherState → Prop}
    {E : Error → CipherState → Prop} (hctx : s.context = some ctx) (hlib : After lib s.lib)
    (hok : ∀ out lib', After lib lib' →
      Q out { context := some (ctx ++ [(c, true)]), lib := lib' })
    (hfail : ∀ lib', After lib lib' →
      E cipherFailure { context := some (ctx ++ [(c, false)]), lib := lib' }) :
    Outcome (require ssl c) s Q E := by
  rw [require, outcome_bind]
  apply outcome_cipher_live hctx hlib
  intro answer lib' hlib'
  cases answer with
  | some out => exact hok out lib' hlib'
  | none => exact hfail lib' hlib'

/-- The calls that pass additional data on. -/
def aadCalls (aad : Bytes) : CipherCtx := if aad = [] then [] else [(.aad aad, true)]

lemma outcome_updateAad_live {aad : Bytes} {name : String} {Q : Unit → CipherState → Prop}
    {E : Error → CipherState → Prop} (hle : aad.length ≤ intMax) (hctx : s.context = some ctx)
    (hlib : After lib s.lib)
    (hok : ∀ lib', After lib lib' → Q () { context := some (ctx ++ aadCalls aad), lib := lib' })
    (hfail : ∀ s', After lib s'.lib → E cipherFailure s') :
    Outcome (updateAad ssl aad name) s Q E := by
  simp only [updateAad, outcome_bind, outcome_intSize]
  refine ⟨fun hlong => absurd hle (not_le.mpr hlong), fun _ => ?_⟩
  unfold aadCalls at hok
  by_cases hnil : aad = []
  · subst hnil
    obtain ⟨context, lib₁⟩ := s
    obtain rfl : context = some ctx := hctx
    have hkept := hok lib₁ hlib
    rw [if_pos rfl, List.append_nil] at hkept
    exact hkept
  · have hlen : aad.length ≠ 0 := fun h => hnil (List.length_eq_zero_iff.mp h)
    rw [if_neg hnil] at hok
    simp only [hlen, if_false, outcome_bind, outcome_pure]
    exact outcome_require_live hctx hlib (fun _ lib' h => hok lib' h) fun lib' h => hfail _ h

lemma outcome_makeContext_live {Q : Unit → CipherState → Prop} {E : Error → CipherState → Prop}
    (hlib : After lib s.lib) (hok : ∀ lib', After lib lib' → Q () { context := some [], lib := lib' })
    (hfail : ∀ s', After lib s'.lib → E cipherFailure s') :
    Outcome (makeContext ssl) s Q E := by
  simp only [makeContext, Evp.onLib, outcome_bind, outcome_zoom, outcome_call, outcome_throwIf,
    outcome_modify]
  have hnew := hlib.call .ctxNew fun c => by simp
  have haes := hnew.call .aes256Gcm fun c => by simp
  exact ⟨fun _ => hfail _ hnew, fun _ => ⟨fun _ => hfail _ haes, fun _ => hok _ haes⟩⟩

/-- All three calls are made, on the context that is there. -/
lemma outcome_initializeContext_live {dir : Direction} {key : key256} {nonce : ByteArr kNonceSize}
    {Q : Bool → CipherState → Prop} {E : Error → CipherState → Prop} (hctx : s.context = some ctx)
    (hlib : After lib s.lib)
    (hok : ∀ lib', After lib lib' → Q true { context := some (ctx ++ [(.initCipher dir, true),
      (.setIvLen kNonceSize, true), (.initKey dir key nonce, true)]), lib := lib' })
    (hfail : ∀ s', After lib s'.lib → Q false s') :
    Outcome (initializeContext ssl dir key nonce) s Q E := by
  simp only [initializeContext, outcome_bind, outcome_pure]
  apply outcome_cipher_live hctx hlib
  intro first lib₁ h₁
  apply outcome_cipher_live rfl h₁
  intro second lib₂ h₂
  apply outcome_cipher_live rfl h₂
  intro third lib₃ h₃
  cases hall : first.isSome && second.isSome && third.isSome with
  | false => exact hfail _ h₃
  | true =>
    simp only [Bool.and_eq_true] at hall
    rw [hall.1.1, hall.1.2, hall.2, List.append_assoc, List.append_assoc]
    exact hok lib₃ h₃

/-- Text is passed on in at most one call. -/
lemma outcome_cryptChunk_live {dir : Direction} {name : String} {text : Bytes}
    {Q : Bytes → CipherState → Prop} {E : Error → CipherState → Prop} (hctx : s.context = some ctx)
    (hlib : After lib s.lib) (hlong : intMax < text.length → E (updateLimitError name) s)
    (hnil : text = [] → Q [] s)
    (hok : ∀ out lib', text.length ≤ intMax → After lib lib' →
      Q out { context := some (ctx ++ [(.update dir text, true)]), lib := lib' })
    (hfail : ∀ ok lib', After lib lib' →
      E cipherFailure { context := some (ctx ++ [(.update dir text, ok)]), lib := lib' }) :
    Outcome (cryptChunk ssl dir name text) s Q E := by
  simp only [cryptChunk, outcome_bind, outcome_intSize]
  refine ⟨hlong, fun hle => ?_⟩
  by_cases htext : text = []
  · rw [htext, List.length_nil, if_pos rfl]
    exact hnil htext
  · have hlen : text.length ≠ 0 := fun h => htext (List.length_eq_zero_iff.mp h)
    simp only [hlen, if_false, outcome_bind]
    refine outcome_require_live hctx hlib (fun out lib' h => ?_) fun lib' h => hfail false lib' h
    simp only [outcome_throwIf, outcome_pure]
    exact ⟨fun _ => hfail true lib' h, fun _ => hok out lib' hle h⟩

end Live

/-! ## The transitions of an object -/

/-- The direction in which a class uses the cipher. -/
def Kind.dir : Kind → Direction
  | .encryptor => .encrypt
  | .decryptor => .decrypt

/-- The history of a context that was given the key and one nonce, and has absorbed the header and
then the additional data, and nothing else yet. -/
def opening (kind : Kind) (key : key256) (aad : Bytes) (nonce : ByteArr kNonceSize) : CipherCtx :=
  [(.initCipher kind.dir, true), (.setIvLen kNonceSize, true), (.initKey kind.dir key nonce, true)] ++
    aadCalls makeHeader ++ aadCalls aad

/-- A call that leaves key, nonce and additional data alone. -/
def IsTextCall : CipherCall → Prop
  | .update .. | .setTag _ | .final _ | .getTag => True
  | _ => False

/-- The context was given the key and exactly one nonce, and has absorbed first the header and then
the additional data; what follows are calls on the text. -/
def Absorbed (kind : Kind) (key : key256) (aad : Bytes) (ctx : CipherCtx) : Prop :=
  ∃ nonce more, ctx = opening kind key aad nonce ++ more ∧ ∀ entry ∈ more, IsTextCall entry.1

lemma Absorbed.append {kind : Kind} {key : key256} {aad : Bytes} {ctx more : CipherCtx}
    (h : Absorbed kind key aad ctx) (hmore : ∀ entry ∈ more, IsTextCall entry.1) :
    Absorbed kind key aad (ctx ++ more) := by
  obtain ⟨nonce, more₀, rfl, hmore₀⟩ := h
  refine ⟨nonce, more₀ ++ more, List.append_assoc _ _ _, fun entry hentry => ?_⟩
  rcases List.mem_append.mp hentry with hentry | hentry
  · exact hmore₀ entry hentry
  · exact hmore entry hentry

/-- The phase a call needs. -/
def Call.phase : Call → Phase
  | .begin _ => .ready
  | _ => .active

/-- What a call on an object with the state `impl` can answer, and the state and the library it can
leave behind. -/
inductive Transition (kind : Kind) (impl : Impl) (lib : Lib) :
    Call → Except Error Bytes → Impl → Lib → Prop
  /-- The call is out of order. -/
  | misplaced {c message} (h : impl.phase ≠ c.phase) :
      Transition kind impl lib c (.error (invalidInput message)) impl lib
  /-- The text does not fit an `int`. -/
  | oversized {text name} (h : impl.phase = .active) (hlong : intMax < text.length) :
      Transition kind impl lib (.update text) (.error (updateLimitError name)) impl lib
  /-- The prefix is not that of a packet. -/
  | malformed {packetPrefix} (hkind : kind = .decryptor) (h : impl.phase = .ready) :
      Transition kind impl lib (.begin packetPrefix) (.error invalidPacket) impl lib
  | began {packetPrefix out lib'} (nonce : ByteArr kNonceSize) (h : impl.phase = .ready)
      (hlib : After lib lib') :
      Transition kind impl lib (.begin packetPrefix) (.ok out)
        { impl with context := some (opening kind impl.key impl.aad nonce), phase := .active } lib'
  /-- A failing `begin` leaves whatever context it has come to, and the phase as it was. -/
  | notBegun {packetPrefix context lib'} (h : impl.phase = .ready) (hlib : After lib lib') :
      Transition kind impl lib (.begin packetPrefix) (.error cipherFailure)
        { impl with context } lib'
  | updated {text out ctx more lib'} (h : impl.phase = .active) (hctx : impl.context = some ctx)
      (hle : text.length ≤ intMax) (hmore : ∀ entry ∈ more, IsTextCall entry.1)
      (hlib : After lib lib') :
      Transition kind impl lib (.update text) (.ok out)
        { impl with context := some (ctx ++ more) } lib'
  /-- A call on the text that fails leaves the phase as it was. -/
  | failed {c ctx more lib'} (h : impl.phase = .active) (hcall : c.phase = .active)
      (hctx : impl.context = some ctx) (hmore : ∀ entry ∈ more, IsTextCall entry.1)
      (hlib : After lib lib') :
      Transition kind impl lib c (.error cipherFailure)
        { impl with context := some (ctx ++ more) } lib'
  | finished {tag out lib'} (h : impl.phase = .active) (hlib : After lib lib') :
      Transition kind impl lib (.finalize tag) (.ok out)
        { impl with context := none, phase := .finished } lib'
  /-- A packet that is not authentic is finished as well. -/
  | refused {tag error lib'} (hkind : kind = .decryptor) (h : impl.phase = .active)
      (herror : error = invalidPacket ∨ error = authenticationFailed) (hlib : After lib lib') :
      Transition kind impl lib (.finalize tag) (.error error)
        { impl with context := none, phase := .finished } lib'

/-- No transition makes a call on a null context. -/
lemma Transition.after {kind : Kind} {impl impl' : Impl} {lib lib' : Lib} {c : Call}
    {result : Except Error Bytes} (h : Transition kind impl lib c result impl' lib') :
    After lib lib' := by
  cases h with
  | misplaced | oversized | malformed => exact .refl lib
  | began _ _ hlib => exact hlib
  | notBegun _ hlib => exact hlib
  | updated _ _ _ _ hlib => exact hlib
  | failed _ _ _ _ hlib => exact hlib
  | finished _ hlib => exact hlib
  | refused _ _ _ hlib => exact hlib

/-! ## The list is complete -/

section Complete

variable {ssl : Openssl} {kind : Kind} {impl : Impl} {lib : Lib}

/-- An answer and the object left behind are among the transitions. -/
def Leads (kind : Kind) (impl : Impl) (lib : Lib) (c : Call) (result : Except Error Bytes)
    (o : Object) : Prop :=
  ∃ impl', o.impl = some impl' ∧ Transition kind impl lib c result impl' o.lib

lemma Transition.leads {c : Call} {result : Except Error Bytes} {impl' : Impl} {lib' : Lib}
    (h : Transition kind impl lib c result impl' lib') :
    Leads kind impl lib c result ⟨some impl', lib'⟩ := ⟨impl', rfl, h⟩

/-- What both `begin()` do with a nonce either comes to an active phase or leaves the phase as it
was. -/
lemma outcome_start_live (kind : Kind) {s : PacketState} {nonce : ByteArr kNonceSize}
    {Q : Unit → PacketState → Prop} {E : Error → PacketState → Prop} (hlib : After lib s.lib)
    (hok : ∀ lib', After lib lib' → Q () ⟨{ s.impl with
      context := some (opening kind s.impl.key s.impl.aad nonce), phase := .active }, lib'⟩)
    (hfail : ∀ context lib', After lib lib' → E cipherFailure ⟨{ s.impl with context }, lib'⟩) :
    Outcome (start ssl (initializeContext ssl kind.dir s.impl.key nonce) makeHeader) s Q E := by
  simp only [start, outcome_bind, outcome_onContext, outcome_throwIf, outcome_get,
    outcome_activate]
  apply outcome_makeContext_live hlib
  · intro lib₁ h₁
    apply outcome_initializeContext_live rfl h₁
    · intro lib₂ h₂
      refine ⟨fun h => absurd h (by simp), fun _ => ?_⟩
      apply outcome_updateAad_live (by decide) rfl h₂
      · intro lib₃ h₃
        apply outcome_updateAad_live s.impl.aad_le rfl h₃
        · exact fun lib₄ h₄ => hok lib₄ h₄
        · exact fun s' h => hfail _ _ h
      · exact fun s' h => hfail _ _ h
    · exact fun s' h => ⟨fun _ => hfail _ _ h, fun h => absurd rfl h⟩
  · exact fun s' h => hfail _ _ h

lemma outcome_encryptor_begin {packetPrefix : Bytes} :
    Outcome (PacketEncryptor.begin ssl) ⟨some impl, lib⟩
      (fun out o => Leads .encryptor impl lib (.begin packetPrefix) (.ok out) o)
      (fun e o => Leads .encryptor impl lib (.begin packetPrefix) (.error e) o) := by
  simp only [PacketEncryptor.begin, outcome_onImpl_some, outcome_bind, outcome_requirePhase,
    outcome_onLib, outcome_call, outcome_get, outcome_pure]
  refine ⟨fun h => (Transition.misplaced h).leads, fun h => ?_⟩
  have hlib : After lib { calls := lib.calls ++ [.rand 0 kNonceSize] } :=
    (After.refl lib).call _ fun c => by simp
  cases hdraw : ssl.rand lib.clock kNonceSize with
  | none => exact (Transition.notBegun h hlib).leads
  | some nonce =>
    rw [outcome_orThrow_some]
    apply outcome_start_live .encryptor hlib
    · exact fun lib' h' => (Transition.began nonce h h').leads
    · exact fun context lib' h' => (Transition.notBegun h h').leads

lemma outcome_decryptor_begin {packetPrefix : Bytes} :
    Outcome (PacketDecryptor.begin ssl packetPrefix) ⟨some impl, lib⟩
      (fun _ o => Leads .decryptor impl lib (.begin packetPrefix) (.ok []) o)
      (fun e o => Leads .decryptor impl lib (.begin packetPrefix) (.error e) o) := by
  simp only [PacketDecryptor.begin, outcome_onImpl_some, outcome_bind, outcome_requirePhase,
    outcome_get]
  refine ⟨fun h => (Transition.misplaced h).leads, fun h => ?_⟩
  apply outcome_requireValidPrefix
  · rintro nonce rfl
    rw [take_makePacketPrefix, drop_makePacketPrefix]
    apply outcome_start_live .decryptor (After.refl lib)
    · exact fun lib' h' => (Transition.began nonce h h').leads
    · exact fun context lib' h' => (Transition.notBegun h h').leads
  · exact fun _ => (Transition.malformed rfl h).leads

/-- Both `update()` pass their text on in at most one call. -/
lemma outcome_crypt {text : Bytes} {name : String} {dir : Direction} (h : impl.phase = .active)
    {ctx : CipherCtx} (hctx : impl.context = some ctx) :
    Outcome (onContext (cryptChunk ssl dir name text)) ⟨impl, lib⟩
      (fun out s => Leads kind impl lib (.update text) (.ok out) ⟨some s.impl, s.lib⟩)
      (fun e s => Leads kind impl lib (.update text) (.error e) ⟨some s.impl, s.lib⟩) := by
  rw [outcome_onContext]
  have hone : ∀ ok : Bool, ∀ entry ∈ [(CipherCall.update dir text, ok)], IsTextCall entry.1 := by
    intro ok entry hentry
    rw [List.mem_singleton.mp hentry]
    trivial
  apply outcome_cryptChunk_live hctx (After.refl lib)
  · exact fun hlong => (Transition.oversized h hlong).leads
  · intro hnil
    have hupdated : Transition kind impl lib (.update text) (.ok [])
        { impl with context := some (ctx ++ []) } lib :=
      .updated h hctx (by rw [hnil]; exact Nat.zero_le _) (by simp) (After.refl lib)
    rw [List.append_nil, ← hctx] at hupdated
    exact hupdated.leads
  · exact fun out lib' hle h' => (Transition.updated h hctx hle (hone true) h').leads
  · exact fun ok lib' h' => (Transition.failed h rfl hctx (hone ok) h').leads

lemma outcome_encryptor_finalize {tag : Bytes} {ctx : CipherCtx}
    (hctx : impl.phase = .active → impl.context = some ctx) :
    Outcome (PacketEncryptor.finalize ssl) ⟨some impl, lib⟩
      (fun out o => Leads .encryptor impl lib (.finalize tag) (.ok out) o)
      (fun e o => Leads .encryptor impl lib (.finalize tag) (.error e) o) := by
  simp only [PacketEncryptor.finalize, outcome_onImpl_some, outcome_bind, outcome_requirePhase,
    outcome_onContext, outcome_throwIf, outcome_finish, outcome_pure]
  refine ⟨fun h => (Transition.misplaced h).leads, fun h => ?_⟩
  have hfinal : ∀ ok : Bool, ∀ entry ∈ [(CipherCall.final .encrypt, ok)], IsTextCall entry.1 := by
    intro ok entry hentry
    rw [List.mem_singleton.mp hentry]
    trivial
  apply outcome_require_live (hctx h) (After.refl lib)
  · intro final lib₁ h₁
    refine ⟨fun _ => (Transition.failed h rfl (hctx h) (hfinal true) h₁).leads, fun _ => ?_⟩
    apply outcome_require_live rfl h₁
    · exact fun out lib₂ h₂ => (Transition.finished h h₂).leads
    · intro lib₂ h₂
      rw [List.append_assoc]
      refine (Transition.failed h rfl (hctx h) (fun entry hentry => ?_) h₂).leads
      rcases List.mem_append.mp hentry with hentry | hentry
      · exact hfinal true entry hentry
      · rw [List.mem_singleton.mp hentry]
        trivial
  · exact fun lib₁ h₁ => (Transition.failed h rfl (hctx h) (hfinal false) h₁).leads

lemma outcome_decryptor_finalize {tag : Bytes} {ctx : CipherCtx}
    (hctx : impl.phase = .active → impl.context = some ctx) :
    Outcome (PacketDecryptor.finalize ssl tag) ⟨some impl, lib⟩
      (fun out o => Leads .decryptor impl lib (.finalize tag) (.ok out) o)
      (fun e o => Leads .decryptor impl lib (.finalize tag) (.error e) o) := by
  simp only [PacketDecryptor.finalize, outcome_onImpl_some, outcome_bind, outcome_requirePhase,
    outcome_ite, outcome_onContext, outcome_finish, outcome_throw]
  refine ⟨fun h => (Transition.misplaced h).leads, fun h => ⟨fun _ => ?_, fun _ => ?_⟩⟩
  · exact (Transition.refused rfl h (.inl rfl) (After.refl lib)).leads
  have htag : ∀ ok : Bool, ∀ entry ∈ [(CipherCall.setTag (ByteArr.ofBytes kTagSize tag), ok)],
      IsTextCall entry.1 := by
    intro ok entry hentry
    rw [List.mem_singleton.mp hentry]
    trivial
  apply outcome_require_live (hctx h) (After.refl lib)
  · intro _ lib₁ h₁
    apply outcome_cipher_live rfl h₁
    intro answer lib₂ h₂
    cases answer with
    | none => exact (Transition.refused rfl h (.inr rfl) h₂).leads
    | some trailing =>
      simp only [outcome_bind, outcome_throwIf, outcome_finish, outcome_pure]
      refine ⟨fun _ => ?_, fun _ => (Transition.finished h h₂).leads⟩
      rw [List.append_assoc]
      refine (Transition.failed h rfl (hctx h) (fun entry hentry => ?_) h₂).leads
      rcases List.mem_append.mp hentry with hentry | hentry
      · exact htag true entry hentry
      · rw [List.mem_singleton.mp hentry]
        trivial
  · exact fun lib₁ h₁ => (Transition.failed h rfl (hctx h) (htag false) h₁).leads

/-- A call on an object without state throws and does nothing. -/
lemma answer_none (ssl : Openssl) (kind : Kind) (c : Call) (lib : Lib) :
    ∃ message, answer ssl kind c ⟨none, lib⟩ = (.error (invalidInput message), ⟨none, lib⟩) := by
  cases kind <;> cases c <;> exact ⟨_, rfl⟩

/-- **A call on an object with state** is one of the transitions, provided that an active object has
a context. -/
theorem transition_of_answer (ssl : Openssl) (kind : Kind) (c : Call) (lib : Lib)
    (hctx : impl.phase = .active → ∃ ctx, impl.context = some ctx) :
    Leads kind impl lib c (answer ssl kind c ⟨some impl, lib⟩).1
      (answer ssl kind c ⟨some impl, lib⟩).2 := by
  have houtcome : Outcome (method ssl kind c) ⟨some impl, lib⟩
      (fun out o => Leads kind impl lib c (.ok out) o)
      (fun e o => Leads kind impl lib c (.error e) o) := by
    -- An object that is active has a context; the others do not need one.
    obtain ⟨ctx, hsome⟩ : ∃ ctx, impl.phase = .active → impl.context = some ctx := by
      by_cases hactive : impl.phase = .active
      · obtain ⟨ctx, hsome⟩ := hctx hactive
        exact ⟨ctx, fun _ => hsome⟩
      · exact ⟨[], fun h => absurd h hactive⟩
    cases kind with
    | encryptor =>
      cases c with
      | begin packetPrefix => exact outcome_encryptor_begin
      | update text =>
        simp only [method, PacketEncryptor.update, outcome_onImpl_some, outcome_bind,
          outcome_requirePhase]
        exact ⟨fun h => (Transition.misplaced h).leads, fun h => outcome_crypt h (hsome h)⟩
      | finalize tag => exact outcome_encryptor_finalize hsome
    | decryptor =>
      cases c with
      | begin packetPrefix =>
        simp only [method, outcome_bind, outcome_pure]
        exact outcome_decryptor_begin
      | update text =>
        simp only [method, PacketDecryptor.update, outcome_onImpl_some, outcome_bind,
          outcome_requirePhase]
        exact ⟨fun h => (Transition.misplaced h).leads, fun h => outcome_crypt h (hsome h)⟩
      | finalize tag => exact outcome_decryptor_finalize hsome
  unfold answer
  cases hrun : method ssl kind c ⟨some impl, lib⟩ with
  | ok out o => exact houtcome.of_ok hrun
  | error e o => exact houtcome.of_error hrun

end Complete

end SecureKit.Packet
