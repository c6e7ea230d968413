import SecureKit.Packet.Lifecycle
import SecureKit.Packet.Wire

/-!
# Each object is a session of its own

What a `packet_encryptor` or a `packet_decryptor` is for, without objects, contexts and a library: a
`Session` is a key and additional data, and `Session.reply` answers a call from the text the session
has absorbed (`Progress`).

`session_isolated` says that the objects of a program are nothing but such sessions: any number of
them, used and moved in any order, sharing one library.  Each state answers all calls that are ever
made on it like the session its constructor was given, whatever is done to the others.

A library that fails may make a decryptor refuse what it should accept (`Session.Runs.refused`), or
lose the text (`Lost`).  Only where it is available can neither happen.

## The argument

`Session.At` is the refinement relation between how far a session has come and the state of an
object: an active object has absorbed the header, the additional data and the text (`Keyed`).
`Session.Tracks.answer` is its step, for every call in every phase.  It is assembled from the
specifications of `Packet.Wire`, with a case for each method and phase.

`Isolated` is the invariant of a program.  Every state belongs to the session its constructor was
given, and is where the run of its history leads.  An operation appends to the history of at most
one state, and to that of the others it adds nothing.

The relation is lost at the first failure of the library in the middle of a packet, as the context
has then absorbed something else.  So `SessionsOf` is about the calls up to that failure: a
beginning of the history without one is a run of the session.  A library fails for texts longer
than it is `Available` for, which is why `offered` counts the text.
-/

namespace SecureKit.Packet

open ByteString Effect Evp

/-! ## Sessions -/

/-- What the constructor of an object is given. -/
structure Session where
  kind : Kind
  key : key256
  aad : Bytes

/-- How far a session has come: the nonce it was begun with, and the text it has absorbed. -/
inductive Progress
  | ready
  | active (nonce : ByteArr kNonceSize) (text : Bytes)
  | finished

def Progress.text : Progress → Bytes
  | .active _ text => text
  | _ => []

/-- The text a call adds. -/
def Call.text : Call → Bytes
  | .update text => text
  | _ => []

namespace Session

/-- The message for a call that is out of order. -/
def misplaced : Kind → Call → String
  | .encryptor, .begin _ => "packet encryptor begin() may only be called once"
  | .encryptor, .update _ => "packet encryptor update() requires begin() before finalize()"
  | .encryptor, .finalize _ => "packet encryptor finalize() requires begin() exactly once"
  | .decryptor, .begin _ => "packet decryptor begin() may only be called once"
  | .decryptor, .update _ => "packet decryptor update() requires begin() before finalize()"
  | .decryptor, .finalize _ => "packet decryptor finalize() requires begin() exactly once"

/-- What the text of a class is called. -/
def textName : Kind → String
  | .encryptor => "plaintext"
  | .decryptor => "ciphertext"

/-- The answer to the first `begin`.  An encryptor begins with the nonce `draw`. -/
def begun (s : Session) (draw : ByteArr kNonceSize) (packetPrefix : Bytes) : Result × Progress :=
  match s.kind with
  | .encryptor => (.ok (makePacketPrefix draw), .active draw [])
  | .decryptor =>
    let nonce := ByteArr.ofBytes kNonceSize (packetPrefix.drop (packetPrefix.length - kNonceSize))
    if packetPrefix = makePacketPrefix nonce then (.ok [], .active nonce [])
    else (.error invalidPacket, .ready)

/-- The answer to the first `finalize`. -/
def finalized (gcm : AesGcm) (s : Session) (nonce : ByteArr kNonceSize) (text tag : Bytes) : Result :=
  match s.kind with
  | .encryptor => .ok (gcm.tag s.key nonce ((makeHeader : Bytes) ++ s.aad) text)
  | .decryptor =>
    if tag.length ≠ kTagSize then .error invalidPacket
    else if gcm.verify s.key nonce ((makeHeader : Bytes) ++ s.aad) text
        (ByteArr.ofBytes kTagSize tag) then .ok []
    else .error authenticationFailed

/-- The answer to a call, and how far the session has come then. -/
def reply (gcm : AesGcm) (s : Session) (draw : ByteArr kNonceSize) :
    Progress → Call → Result × Progress
  | .ready, .begin packetPrefix => s.begun draw packetPrefix
  | .active nonce text, .update piece =>
    if intMax < piece.length then
      (.error (updateLimitError (textName s.kind)), .active nonce text)
    else
      (.ok (cryptPiece gcm s.kind.dir s.key nonce text piece), .active nonce (text ++ piece))
  | .active nonce text, .finalize tag => (s.finalized gcm nonce text tag, .finished)
  | p, c => (.error (invalidInput (misplaced s.kind c)), p)

/-- The nonce of an encryptor is one that the library draws. -/
def Drawn (ssl : Openssl) (s : Session) (p : Progress) (c : Call) (draw : ByteArr kNonceSize) : Prop :=
  s.kind = .encryptor → p = .ready → c.phase = .ready → ssl.Draws draw

/-- The calls on a session, with their answers, and how far they lead. -/
inductive Runs (ssl : Openssl) (gcm : AesGcm) (available : Prop) (s : Session) :
    List (Call × Result) → Progress → Prop
  | start : Runs ssl gcm available s [] .ready
  | replied {calls p} (c : Call) (draw : ByteArr kNonceSize) (h : Runs ssl gcm available s calls p)
    (hdraw : s.Drawn ssl p c draw) :
    Runs ssl gcm available s (calls ++ [(c, (s.reply gcm draw p c).1)]) (s.reply gcm draw p c).2
  /-- Without the library no tag verifies. -/
  | refused {calls nonce text} (tag : Bytes) (h : Runs ssl gcm available s calls (.active nonce text))
    (hkind : s.kind = .decryptor) (hnot : ¬ available) :
    Runs ssl gcm available s (calls ++ [(.finalize tag, .error authenticationFailed)]) .finished

/-- The state of an object that has come as far as a session. -/
def At (s : Session) : Progress → Impl → Prop
  | .ready, impl => impl.phase = .ready
  | .active nonce text, impl => Keyed s.kind.dir s.key s.aad nonce text impl
  | .finished, impl => impl.phase = .finished

/-- The state belongs to the session, and has come as far. -/
structure Tracks (s : Session) (p : Progress) (impl : Impl) : Prop where
  key : impl.key = s.key
  aad : impl.aad = s.aad
  progress : s.At p impl

end Session

/-! ## One call -/

section Step

variable {ssl : Openssl} {prim : Primitives} {cap : ℕ} {s : Session} {p : Progress} {impl : Impl}
  {lib : Lib} {c : Call}

lemma Transition.key_eq {kind : Kind} {impl' : Impl} {lib' : Lib} {result : Result}
    (h : Transition kind impl lib c result impl' lib') : impl'.key = impl.key := by
  cases h <;> rfl

lemma Transition.aad_eq {kind : Kind} {impl' : Impl} {lib' : Lib} {result : Result}
    (h : Transition kind impl lib c result impl' lib') : impl'.aad = impl.aad := by
  cases h <;> rfl

/-- A call that is out of order changes nothing. -/
lemma Transition.eq_of_misplaced {kind : Kind} {impl' : Impl} {lib' : Lib} {result : Result}
    (h : Transition kind impl lib c result impl' lib') (hne : impl.phase ≠ c.phase) :
    impl' = impl := by
  cases h with
  | misplaced => rfl
  | oversized => rfl
  | malformed => rfl
  | began _ hready => exact absurd hready hne
  | notBegun hready => exact absurd hready hne
  | updated hactive => exact absurd hactive hne
  | failed hactive hcall => exact absurd (hactive.trans hcall.symm) hne
  | finished hactive => exact absurd hactive hne
  | refused _ hactive => exact absurd hactive hne

/-- An error that is not one of the library ends a state or changes nothing. -/
lemma Transition.eq_or_finished {kind : Kind} {impl' : Impl} {lib' : Lib} {e : Error}
    (h : Transition kind impl lib c (.error e) impl' lib') (hne : e ≠ cipherFailure) :
    impl' = impl ∨ impl'.phase = .finished ∧ ∃ tag, c = .finalize tag := by
  cases h with
  | misplaced => exact .inl rfl
  | oversized => exact .inl rfl
  | malformed => exact .inl rfl
  | notBegun => exact absurd rfl hne
  | failed => exact absurd rfl hne
  | refused => exact .inr ⟨rfl, _, rfl⟩

/-- The first `finalize` that gets through to the end of the text is the last. -/
lemma Transition.finished_of_finalize {kind : Kind} {impl' : Impl} {lib' : Lib} {result : Result}
    {tag : Bytes} (h : Transition kind impl lib (.finalize tag) result impl' lib')
    (hactive : impl.phase = .active) (hne : result ≠ .error cipherFailure) :
    impl'.phase = .finished := by
  cases h with
  | misplaced hphase => exact absurd hactive hphase
  | failed => exact absurd rfl hne
  | finished => rfl
  | refused => rfl

/-- The phase of a state. -/
lemma Session.At.exists_context (h : s.At p impl) (hactive : impl.phase = .active) :
    ∃ ctx, impl.context = some ctx := by
  cases p with
  | ready => exact absurd (hactive.symm.trans h) (by simp)
  | active nonce text =>
    obtain ⟨-, ctx, hctx, -⟩ := h
    exact ⟨ctx, hctx⟩
  | finished => exact absurd (hactive.symm.trans h) (by simp)

/-- A session has no errors of a library. -/
lemma Session.reply_ne_cipherFailure (gcm : AesGcm) (s : Session) (draw : ByteArr kNonceSize)
    (p : Progress) (c : Call) : (s.reply gcm draw p c).1 ≠ .error cipherFailure := by
  have hcode : ∀ {e : Error}, e.code ≠ .backend_failure →
      (.error e : Result) ≠ .error cipherFailure := by
    intro e hne heq
    rw [Except.error.inj heq] at hne
    exact hne rfl
  fun_cases Session.reply gcm s draw p c with
  | case1 packetPrefix =>
    fun_cases Session.begun s draw packetPrefix with
    | case1 => simp
    | case2 => simp
    | case3 => exact hcode (by decide)
  | case2 => exact hcode (by simp [updateLimitError])
  | case3 => simp
  | case4 nonce text tag =>
    fun_cases Session.finalized gcm s nonce text tag with
    | case1 => simp
    | case2 => exact hcode (by decide)
    | case3 => simp
    | case4 => exact hcode (by decide)
  | case5 => exact hcode (by simp [invalidInput])

/-- What a call answers, and the object it leaves behind, where the session was. -/
inductive Session.Answers (ssl : Openssl) (gcm : AesGcm) (available : Prop) (s : Session)
    (p : Progress) (c : Call) (result : Result) (o : Object) : Prop
  | replied (draw : ByteArr kNonceSize) (hdraw : s.Drawn ssl p c draw)
    (hresult : result = (s.reply gcm draw p c).1)
    (hkeyed : ∀ nonce text out, s.reply gcm draw p c = (.ok out, .active nonce text) →
      ∀ impl', o.impl = some impl' → Keyed s.kind.dir s.key s.aad nonce text impl')
  | refused {nonce text tag} (hkind : s.kind = .decryptor) (hnot : ¬ available)
    (hactive : p = .active nonce text) (hcall : c = .finalize tag)
    (hresult : result = .error authenticationFailed)
  | failed (hnot : ¬ available) (hresult : result = .error cipherFailure)

/-- A reply behind which nothing is absorbed. -/
lemma Session.Answers.of_eq {gcm : AesGcm} {available : Prop} {result : Result} {o : Object}
    {p' : Progress} (draw : ByteArr kNonceSize) (hdraw : s.Drawn ssl p c draw)
    (h : s.reply gcm draw p c = (result, p')) (hp : ∀ nonce text, p' ≠ .active nonce text) :
    s.Answers ssl gcm available p c result o := by
  refine .replied draw hdraw (by rw [h]) fun nonce text out heq => ?_
  rw [h] at heq
  exact absurd (Prod.mk.inj heq).2 (hp nonce text)

/-- A reply that is an error. -/
lemma Session.Answers.of_error {gcm : AesGcm} {available : Prop} {e : Error} {o : Object}
    {p' : Progress} (draw : ByteArr kNonceSize) (hdraw : s.Drawn ssl p c draw)
    (h : s.reply gcm draw p c = (.error e, p')) : s.Answers ssl gcm available p c (.error e) o := by
  refine .replied draw hdraw (by rw [h]) fun nonce text out heq => ?_
  rw [h] at heq
  cases (Prod.mk.inj heq).1

/-- The answers of a method, in both ways to end. -/
def Session.Answered (ssl : Openssl) (prim : Primitives) (cap : ℕ) (s : Session) (p : Progress)
    (c : Call) (impl : Impl) (lib : Lib) : Prop :=
  Outcome (method ssl s.kind c) ⟨some impl, lib⟩
    (fun out o => s.Answers ssl prim.gcm (ssl.Available prim cap) p c (.ok out) o)
    (fun e o => s.Answers ssl prim.gcm (ssl.Available prim cap) p c (.error e) o)

lemma Session.answered_of_misplaced (hne : impl.phase ≠ c.phase)
    (hreply : ∀ draw, s.reply prim.gcm draw p c = (.error (invalidInput (misplaced s.kind c)), p))
    (hdraw : ∀ draw, s.Drawn ssl p c draw) : s.Answered ssl prim cap p c impl lib := by
  have hend : ∀ o, s.Answers ssl prim.gcm (ssl.Available prim cap) p c
      (.error (invalidInput (misplaced s.kind c))) o := fun o =>
    .of_error (ByteArr.zeros _) (hdraw _) (hreply _)
  unfold Session.Answered
  cases hkind : s.kind with
  | encryptor =>
    rw [hkind] at hend
    -- Every method checks the phase first.
    cases c with
    | begin packetPrefix =>
      simp only [method, PacketEncryptor.begin, outcome_onImpl_some, outcome_bind,
        outcome_requirePhase]
      exact ⟨fun _ => hend _, fun h => absurd h hne⟩
    | update text =>
      simp only [method, PacketEncryptor.update, outcome_onImpl_some, outcome_bind,
        outcome_requirePhase]
      exact ⟨fun _ => hend _, fun h => absurd h hne⟩
    | finalize tag =>
      simp only [method, PacketEncryptor.finalize, outcome_onImpl_some, outcome_bind,
        outcome_requirePhase]
      exact ⟨fun _ => hend _, fun h => absurd h hne⟩
  | decryptor =>
    rw [hkind] at hend
    cases c with
    | begin packetPrefix =>
      simp only [method, PacketDecryptor.begin, outcome_onImpl_some, outcome_bind,
        outcome_requirePhase]
      exact ⟨fun _ => hend _, fun h => absurd h hne⟩
    | update text =>
      simp only [method, PacketDecryptor.update, outcome_onImpl_some, outcome_bind,
        outcome_requirePhase]
      exact ⟨fun _ => hend _, fun h => absurd h hne⟩
    | finalize tag =>
      simp only [method, PacketDecryptor.finalize, outcome_onImpl_some, outcome_bind,
        outcome_requirePhase]
      exact ⟨fun _ => hend _, fun h => absurd h hne⟩

lemma Session.answered_begin (hs : ssl.Sound prim) {packetPrefix : Bytes}
    (h : s.Tracks .ready impl) :
    s.Answered ssl prim cap .ready (.begin packetPrefix) impl lib := by
  have hready : impl.phase = .ready := h.progress
  unfold Session.Answered
  cases hkind : s.kind with
  | encryptor =>
    have hreply : ∀ draw, s.reply prim.gcm draw .ready (.begin packetPrefix) =
        (.ok (makePacketPrefix draw), .active draw []) := by
      intro draw
      simp only [reply, begun, hkind]
    -- An encryptor draws its nonce.
    refine outcome_begin_encryptor hs hready (fun nonce impl' lib' hdraw hkeyed => ?_)
      fun hnot o => .failed hnot rfl
    refine .replied nonce ?_ (by rw [hreply]) fun nonce' text out heq impl'' himpl => ?_
    · exact fun _ _ _ => ⟨_, hdraw⟩
    · rw [hreply] at heq
      cases heq
      cases himpl
      rwa [hkind, ← h.key, ← h.aad]
  | decryptor =>
    have hdrawn : ∀ draw, s.Drawn ssl .ready (.begin packetPrefix) draw := by
      intro draw hencryptor
      rw [hkind] at hencryptor
      cases hencryptor
    simp only [method, outcome_bind, outcome_pure]
    -- A decryptor reads it from the prefix, and stays where it is if this is none.
    by_cases hvalid : ∃ nonce : ByteArr kNonceSize, packetPrefix = makePacketPrefix nonce
    · obtain ⟨nonce, rfl⟩ := hvalid
      have hreply : ∀ draw, s.reply prim.gcm draw .ready (.begin (makePacketPrefix nonce)) =
          (.ok [], .active nonce []) := by
        intro draw
        simp only [reply, begun, hkind, drop_makePacketPrefix, if_true]
      refine outcome_begin_decryptor hs hready (fun impl' lib' hkeyed => ?_)
        fun hnot o => .failed hnot rfl
      refine .replied (ByteArr.zeros _) (hdrawn _) (by rw [hreply])
        fun nonce' text out heq impl'' himpl => ?_
      rw [hreply] at heq
      cases heq
      cases himpl
      rwa [hkind, ← h.key, ← h.aad]
    · have hreply : ∀ draw, s.reply prim.gcm draw .ready (.begin packetPrefix) =
          (.error invalidPacket, .ready) := by
        intro draw
        simp only [reply, begun, hkind]
        exact if_neg fun hfirst => hvalid ⟨_, hfirst⟩
      simp only [PacketDecryptor.begin, outcome_onImpl_some, outcome_bind, outcome_requirePhase]
      refine ⟨fun hne => absurd hready hne, fun _ => ?_⟩
      apply outcome_requireValidPrefix
      · exact fun nonce hfirst => absurd ⟨nonce, hfirst⟩ hvalid
      · exact fun _ => .of_error (ByteArr.zeros _) (hdrawn _) (hreply _)

lemma Session.answered_update (hs : ssl.Sound prim) (hl : prim.gcm.Lengths)
    {nonce : ByteArr kNonceSize} {text piece : Bytes} (h : s.Tracks (.active nonce text) impl)
    (hcap : (text ++ piece).length ≤ cap) :
    s.Answered ssl prim cap (.active nonce text) (.update piece) impl lib := by
  have hdrawn : ∀ draw, s.Drawn ssl (.active nonce text) (.update piece) draw := by
    intro draw _ hready
    cases hready
  have hkeyed : Keyed s.kind.dir s.key s.aad nonce text impl := h.progress
  have hok : piece.length ≤ intMax → ∀ impl' lib',
      Keyed s.kind.dir s.key s.aad nonce (text ++ piece) impl' →
      s.Answers ssl prim.gcm (ssl.Available prim cap) (.active nonce text) (.update piece)
        (.ok (cryptPiece prim.gcm s.kind.dir s.key nonce text piece)) ⟨some impl', lib'⟩ := by
    intro hle impl' lib' hkeyed'
    have hreply : ∀ draw, s.reply prim.gcm draw (.active nonce text) (.update piece) =
        (.ok (cryptPiece prim.gcm s.kind.dir s.key nonce text piece), .active nonce (text ++ piece)) :=
      fun draw => if_neg (not_lt.mpr hle)
    refine .replied (ByteArr.zeros _) (hdrawn _) (by rw [hreply])
      fun nonce' text' out heq impl'' himpl => ?_
    rw [hreply] at heq
    cases heq
    cases himpl
    exact hkeyed'
  have hlong : intMax < piece.length → ∀ o,
      s.Answers ssl prim.gcm (ssl.Available prim cap) (.active nonce text) (.update piece)
        (.error (updateLimitError (textName s.kind))) o := fun hbig o =>
    .of_error (ByteArr.zeros _) (hdrawn _) (if_pos hbig)
  unfold Session.Answered
  cases hkind : s.kind with
  | encryptor =>
    rw [hkind] at hkeyed hok hlong
    exact absorbs_encryptor hs hl hkeyed hcap hok hlong fun hnot o => .failed hnot rfl
  | decryptor =>
    rw [hkind] at hkeyed hok hlong
    exact absorbs_decryptor hs hl hkeyed hcap hok hlong fun hnot o => .failed hnot rfl

lemma Session.answered_finalize (hs : ssl.Sound prim) {nonce : ByteArr kNonceSize}
    {text tag : Bytes} (h : s.Tracks (.active nonce text) impl) (hcap : text.length ≤ cap) :
    s.Answered ssl prim cap (.active nonce text) (.finalize tag) impl lib := by
  have hdrawn : ∀ draw, s.Drawn ssl (.active nonce text) (.finalize tag) draw := by
    intro draw _ hready
    cases hready
  have hkeyed : Keyed s.kind.dir s.key s.aad nonce text impl := h.progress
  have hanswer : ∀ {result o}, s.finalized prim.gcm nonce text tag = result →
      s.Answers ssl prim.gcm (ssl.Available prim cap) (.active nonce text) (.finalize tag)
        result o := by
    rintro result o rfl
    exact .of_eq (ByteArr.zeros _) (hdrawn _) rfl (by simp)
  unfold Session.Answered
  cases hkind : s.kind with
  | encryptor =>
    rw [hkind] at hkeyed
    refine outcome_finalize_encryptor hs hkeyed hcap (fun o => hanswer ?_)
      fun hnot o => .failed hnot rfl
    simp only [finalized, hkind]
  | decryptor =>
    rw [hkind] at hkeyed
    -- A tag of another size is no tag, and the session is over as well.
    by_cases hsize : tag.length = kTagSize
    · obtain ⟨bytes, rfl⟩ : ∃ bytes : ByteArr kTagSize, tag = bytes := ⟨⟨tag, hsize⟩, rfl⟩
      refine outcome_finalize_decryptor hs hkeyed hcap (fun hverify o => hanswer ?_)
        (fun hcause o => ?_) fun hnot o => .failed hnot rfl
      · simp only [finalized, hkind, ByteArr.ofBytes_coe, hverify, hsize]
        simp
      · -- The error does not tell a wrong tag from a library that fails.
        rcases hcause with hverify | hnot
        · apply hanswer
          simp only [finalized, hkind, ByteArr.ofBytes_coe, hverify, hsize]
          simp
        · exact .refused hkind hnot rfl rfl rfl
    · simp only [method, PacketDecryptor.finalize, outcome_onImpl_some, outcome_bind,
        outcome_requirePhase, outcome_ite, outcome_finish, outcome_throw]
      refine ⟨fun hne => absurd hkeyed.1 hne, fun _ => ⟨fun _ => hanswer ?_,
        fun hnot => absurd hsize hnot⟩⟩
      simp only [finalized, hkind]
      exact if_pos hsize

/-- Every method answers like the session. -/
lemma Session.Tracks.answered (hs : ssl.Sound prim) (hl : prim.gcm.Lengths) (h : s.Tracks p impl)
    (hcap : (p.text ++ c.text).length ≤ cap) : s.Answered ssl prim cap p c impl lib := by
  have hprogress := h.progress
  cases p with
  | ready =>
    cases c with
    | begin packetPrefix => exact answered_begin hs h
    | update piece =>
      refine answered_of_misplaced (fun hphase => ?_) (fun draw => rfl) fun draw => ?_
      · exact absurd (hphase.symm.trans hprogress) (by simp [Call.phase])
      · exact fun _ _ hbegin => by cases hbegin
    | finalize tag =>
      refine answered_of_misplaced (fun hphase => ?_) (fun draw => rfl) fun draw => ?_
      · exact absurd (hphase.symm.trans hprogress) (by simp [Call.phase])
      · exact fun _ _ hbegin => by cases hbegin
  | active nonce text =>
    cases c with
    | begin packetPrefix =>
      refine answered_of_misplaced (fun hphase => ?_) (fun draw => rfl) fun draw => ?_
      · exact absurd (hphase.symm.trans hprogress.1) (by simp [Call.phase])
      · exact fun _ hready => by cases hready
    | update piece => exact answered_update hs hl h hcap
    | finalize tag => exact answered_finalize hs h (by simpa [Progress.text, Call.text] using hcap)
  | finished =>
    refine answered_of_misplaced (fun hphase => ?_) (fun draw => ?_) fun draw => ?_
    · have hfinished := hphase.symm.trans hprogress
      cases c <;> simp [Call.phase] at hfinished
    · cases c <;> rfl
    · exact fun _ hready => by cases hready

lemma Session.begun_cases (s : Session) (draw : ByteArr kNonceSize) (packetPrefix : Bytes) :
    (∃ nonce out, s.begun draw packetPrefix = (.ok out, .active nonce [])) ∨
      s.begun draw packetPrefix = (.error invalidPacket, .ready) := by
  fun_cases Session.begun s draw packetPrefix with
  | case1 => exact .inl ⟨_, _, rfl⟩
  | case2 => exact .inl ⟨_, _, rfl⟩
  | case3 => exact .inr rfl

/-- What a reply leaves behind.  Only what a call has absorbed is not seen from its transition. -/
lemma Session.At.of_transition {kind : Kind} {gcm : AesGcm} {draw : ByteArr kNonceSize}
    {impl' : Impl} {lib' : Lib} (h : s.At p impl)
    (hmove : Transition kind impl lib c (s.reply gcm draw p c).1 impl' lib')
    (hkeyed : ∀ nonce text out, s.reply gcm draw p c = (.ok out, .active nonce text) →
      Keyed s.kind.dir s.key s.aad nonce text impl') :
    s.At (s.reply gcm draw p c).2 impl' := by
  have hne := s.reply_ne_cipherFailure gcm draw p c
  -- An error before the end of the text changes nothing.
  have hkept : ∀ e, (s.reply gcm draw p c).1 = .error e → (∀ tag, c ≠ .finalize tag) →
      impl' = impl := by
    intro e he hfinalize
    rw [he] at hmove hne
    rcases hmove.eq_or_finished fun heq => hne (by rw [heq]) with heq | ⟨-, tag, htag⟩
    · exact heq
    · exact absurd htag (hfinalize tag)
  cases p with
  | ready =>
    cases c with
    | begin packetPrefix =>
      rcases s.begun_cases draw packetPrefix with ⟨nonce, out, hreply⟩ | hreply
      · have hactive := hkeyed nonce [] out hreply
        rwa [show s.reply gcm draw .ready (.begin packetPrefix) = _ from hreply]
      · rw [hkept invalidPacket (by rw [reply, hreply]) (by simp),
          show s.reply gcm draw .ready (.begin packetPrefix) = _ from hreply]
        exact h
    | update piece =>
      rw [hmove.eq_of_misplaced (by rw [h]; simp [Call.phase])]
      exact h
    | finalize tag =>
      rw [hmove.eq_of_misplaced (by rw [h]; simp [Call.phase])]
      exact h
  | active nonce text =>
    cases c with
    | begin packetPrefix =>
      rw [hmove.eq_of_misplaced (by rw [h.1]; simp [Call.phase])]
      exact h
    | update piece =>
      by_cases hlong : intMax < piece.length
      · have hreply : s.reply gcm draw (.active nonce text) (.update piece) =
            (.error (updateLimitError (textName s.kind)), .active nonce text) := if_pos hlong
        rw [hkept _ (by rw [hreply]) (by simp), hreply]
        exact h
      · have hreply : s.reply gcm draw (.active nonce text) (.update piece) =
            (.ok (cryptPiece gcm s.kind.dir s.key nonce text piece),
              .active nonce (text ++ piece)) := if_neg hlong
        rw [hreply]
        exact hkeyed _ _ _ hreply
    | finalize tag => exact hmove.finished_of_finalize h.1 hne
  | finished =>
    have hsame : s.reply gcm draw .finished c =
        (.error (invalidInput (misplaced s.kind c)), .finished) := by
      cases c <;> rfl
    rw [hmove.eq_of_misplaced (by rw [h]; cases c <;> simp [Call.phase]), hsame]
    exact h

/-- **A call** on the state of a session: it answers like the session, and leaves the state where
the session is then; or the library was not available. -/
theorem Session.Tracks.answer (lib : Lib) (hs : ssl.Sound prim) (hl : prim.gcm.Lengths)
    (h : s.Tracks p impl) (hcap : (p.text ++ c.text).length ≤ cap) :
    ∃ impl', (Packet.answer ssl s.kind c ⟨some impl, lib⟩).2.impl = some impl' ∧
      ((∃ draw, s.Drawn ssl p c draw ∧
          (Packet.answer ssl s.kind c ⟨some impl, lib⟩).1 = (s.reply prim.gcm draw p c).1 ∧
          s.Tracks (s.reply prim.gcm draw p c).2 impl') ∨
        (¬ ssl.Available prim cap ∧
          (((∃ nonce text tag, s.kind = .decryptor ∧ p = .active nonce text ∧ c = .finalize tag) ∧
              (Packet.answer ssl s.kind c ⟨some impl, lib⟩).1 = .error authenticationFailed ∧
              s.Tracks .finished impl') ∨
            (Packet.answer ssl s.kind c ⟨some impl, lib⟩).1 = .error cipherFailure))) := by
  obtain ⟨impl', himpl, hmove⟩ :=
    transition_of_answer ssl s.kind c lib fun hactive => h.progress.exists_context hactive
  have hanswers : s.Answers ssl prim.gcm (ssl.Available prim cap) p c
      (Packet.answer ssl s.kind c ⟨some impl, lib⟩).1
      (Packet.answer ssl s.kind c ⟨some impl, lib⟩).2 := by
    have houtcome : s.Answered ssl prim cap p c impl lib := h.answered hs hl hcap
    unfold Packet.answer
    cases hrun : method ssl s.kind c ⟨some impl, lib⟩ with
    | ok out o => exact houtcome.of_ok hrun
    | error e o => exact houtcome.of_error hrun
  have hkey := hmove.key_eq.trans h.key
  have haad := hmove.aad_eq.trans h.aad
  refine ⟨impl', himpl, ?_⟩
  cases hanswers with
  | replied draw hdraw hresult hkeyed =>
    rw [hresult] at hmove
    refine .inl ⟨draw, hdraw, hresult, hkey, haad, h.progress.of_transition hmove ?_⟩
    exact fun nonce text out heq => hkeyed nonce text out heq impl' himpl
  | @refused nonce text tag hkind hnot hactive hcall hresult =>
    subst hactive hcall
    rw [hresult] at hmove
    have hfinished := hmove.finished_of_finalize h.progress.1
      (by simp [authenticationFailed, cipherFailure])
    exact .inr ⟨hnot, .inl ⟨⟨nonce, text, tag, hkind, rfl, rfl⟩, hresult, hkey, haad, hfinished⟩⟩
  | failed hnot hresult => exact .inr ⟨hnot, .inr hresult⟩

end Step

/-! ## All objects -/

/-- The session an operation opens.  The constructor throws for additional data that is too long. -/
def Op.opens : Op → Option Session
  | .construct kind _ key aad => if intMax < aad.length then none else some { kind, key, aad }
  | _ => none

/-- The sessions of a program, by the numbers of their states. -/
def sessions (ops : List Op) : List Session := ops.filterMap Op.opens

/-- The text that the calls on a state are given. -/
def offered (calls : List (Call × Result)) : ℕ := (calls.map fun entry => entry.1.text.length).sum

/-- The text an operation gives to a state. -/
def Op.given : Op → ℕ
  | .call _ _ c => c.text.length
  | _ => 0

/-- No call was answered with an error of the library. -/
def Unfailing (calls : List (Call × Result)) : Prop :=
  ∀ entry ∈ calls, entry.2 ≠ .error cipherFailure

section Histories

variable {ssl : Openssl} {gcm : AesGcm} {available : Prop} {s : Session} {p : Progress}
  {calls : List (Call × Result)}

lemma offered_append (calls : List (Call × Result)) (c : Call) (result : Result) :
    offered (calls ++ [(c, result)]) = offered calls + c.text.length := by
  simp [offered]

/-- A call adds no more than its text. -/
lemma Session.length_text_reply (gcm : AesGcm) (s : Session) (draw : ByteArr kNonceSize)
    (p : Progress) (c : Call) :
    (s.reply gcm draw p c).2.text.length ≤ p.text.length + c.text.length := by
  fun_cases Session.reply gcm s draw p c with
  | case1 packetPrefix =>
    rcases s.begun_cases draw packetPrefix with ⟨nonce, out, hbegun⟩ | hbegun
    · rw [hbegun]
      exact Nat.zero_le _
    · rw [hbegun]
      exact Nat.zero_le _
  | case2 => exact Nat.le_add_right _ _
  | case3 => exact (List.length_append).le
  | case4 => exact Nat.zero_le _
  | case5 => exact Nat.le_add_right _ _

/-- A session has not absorbed more than it was given. -/
lemma Session.Runs.length_text_le (h : s.Runs ssl gcm available calls p) :
    p.text.length ≤ offered calls := by
  induction h with
  | start => exact Nat.zero_le _
  | @replied calls p c draw h hdraw ih =>
    rw [offered_append]
    exact (s.length_text_reply gcm draw p c).trans (Nat.add_le_add_right ih _)
  | refused => exact Nat.zero_le _

end Histories

namespace System

section Isolation

variable {ssl : Openssl} {prim : Primitives} {cap : ℕ} {ops : List Op} {sys : System}

/-- What ties the objects of a program to its sessions. -/
structure Isolated (ssl : Openssl) (prim : Primitives) (cap : ℕ) (opened : List Session)
    (sys : System) : Prop where
  count : sys.count = opened.length
  object : ∀ kind slot id impl, sys.objects kind slot = some (id, impl) →
    ∃ s, opened[id]? = some s ∧ s.kind = kind ∧ (Unfailing (sys.history id) →
      ∃ p, s.Runs ssl prim.gcm (ssl.Available prim cap) (sys.history id) p ∧ s.Tracks p impl)
  run : ∀ id s, opened[id]? = some s → ∀ calls, calls <+: sys.history id → Unfailing calls →
    ∃ p, s.Runs ssl prim.gcm (ssl.Available prim cap) calls p
  available : ssl.Available prim cap → ∀ id, Unfailing (sys.history id)

/-- Who owns a state behind a move had it before, or was given it by another object of its class. -/
lemma owned_before_move {kind kind' : Kind} {slot source slot' : ℕ} {entry : ℕ × Impl}
    (h : (sys.moveTo kind slot source).objects kind' slot' = some entry) :
    ∃ slot'', sys.objects kind' slot'' = some entry := by
  rcases put_eq h with ⟨rfl, rfl, hold⟩ | ⟨-, h⟩
  · exact ⟨source, hold⟩
  · rcases put_eq h with ⟨-, -, hnone⟩ | ⟨-, hold⟩
    · cases hnone
    · exact ⟨slot', hold⟩

/-- A call on an object with a state. -/
lemma step_call_some {kind : Kind} {slot owner : ℕ} {impl impl' : Impl} {c : Call}
    (howned : sys.objects kind slot = some (owner, impl))
    (himpl : (answer ssl kind c ⟨some impl, sys.lib⟩).2.impl = some impl') :
    step ssl sys (.call kind slot c) = { sys with
      objects := put sys.objects kind slot (some (owner, impl')),
      lib := (answer ssl kind c ⟨some impl, sys.lib⟩).2.lib,
      events := sys.events ++
        [⟨some owner, c, (answer ssl kind c ⟨some impl, sys.lib⟩).1⟩] } := by
  simp only [step, howned, Option.map_some, Option.bind_some, himpl]

/-- A call on an object without one. -/
lemma history_step_none (ssl : Openssl) {kind : Kind} {slot : ℕ} (c : Call)
    (howned : sys.objects kind slot = none) (id : ℕ) :
    (step ssl sys (.call kind slot c)).history id = sys.history id := by
  simp [step, howned, history]

/-- What a call on the state with the number `owner` adds to the histories. -/
lemma history_step_some (ssl : Openssl) {kind : Kind} {slot owner : ℕ} {impl : Impl} (c : Call)
    (howned : sys.objects kind slot = some (owner, impl)) (id : ℕ) :
    (step ssl sys (.call kind slot c)).history id = sys.history id ++
      if owner = id then [(c, (answer ssl kind c ⟨some impl, sys.lib⟩).1)] else [] := by
  by_cases hid : owner = id
  · simp [step, howned, history, hid]
  · simp [step, howned, history, hid]

/-- Calls leave every state with its owner. -/
lemma Inv.owner_call (ssl : Openssl) (h : sys.Inv) (kind : Kind) (slot : ℕ) (c : Call) (kind' : Kind)
    (slot' : ℕ) :
    ((System.step ssl sys (.call kind slot c)).objects kind' slot').map Prod.fst =
      (sys.objects kind' slot').map Prod.fst := by
  cases howned : sys.objects kind slot with
  | none =>
    simp only [System.step, howned, Option.map_none, Option.bind_none, put]
    split
    · rename_i hsame
      rw [hsame.1, hsame.2, howned]
    · rfl
  | some owned =>
    obtain ⟨owner, impl⟩ := owned
    obtain ⟨hinv, -, -⟩ := h.object _ _ _ _ howned
    obtain ⟨impl', himpl, -⟩ := transition_of_answer ssl kind c sys.lib hinv.exists_context
    rw [step_call_some howned himpl]
    simp only [put]
    split
    · rename_i hsame
      rw [hsame.1, hsame.2, howned]
      rfl
    · rfl

/-- **What was called** on a state are the calls on the object that owns it. -/
lemma Inv.map_history (ssl : Openssl) (h : sys.Inv) (calls : List (Kind × ℕ × Call)) (id : ℕ) :
    (((calls.map fun x => Op.call x.1 x.2.1 x.2.2).foldl (System.step ssl) sys).history id).map Prod.fst =
      (sys.history id).map Prod.fst ++
        (calls.filter fun x => (sys.objects x.1 x.2.1).map Prod.fst = some id).map fun x => x.2.2 := by
  induction calls generalizing sys with
  | nil => simp
  | cons x calls ih =>
    obtain ⟨kind, slot, c⟩ := x
    rw [List.map_cons, List.foldl_cons, ih (h.call kind slot c)]
    simp only [h.owner_call ssl, List.filter_cons]
    cases howned : sys.objects kind slot with
    | none =>
      rw [history_step_none ssl c howned]
      simp
    | some owned =>
      rw [history_step_some ssl c howned]
      by_cases hid : owned.1 = id
      · simp [hid]
      · simp [hid]

lemma after_append (ops : List Op) (op : Op) :
    after ssl (ops ++ [op]) = step ssl (after ssl ops) op := by
  rw [after, after, List.foldl_append, List.foldl_cons, List.foldl_nil]

/-- A history is given no more text than the program has. -/
lemma offered_history_le (ssl : Openssl) (ops : List Op) (id : ℕ) :
    offered ((after ssl ops).history id) ≤ (ops.map Op.given).sum := by
  induction ops using List.reverseRecOn with
  | nil => exact Nat.zero_le _
  | append_singleton ops op ih =>
    rw [after_append, List.map_append, List.sum_append, List.map_singleton, List.sum_singleton]
    cases op with
    | construct kind slot key aad =>
      simp only [step]
      split
      · exact ih.trans (Nat.le_add_right _ _)
      · exact ih.trans (Nat.le_add_right _ _)
    | call kind slot c =>
      cases howned : (after ssl ops).objects kind slot with
      | none =>
        rw [history_step_none ssl c howned]
        exact ih.trans (Nat.le_add_right _ _)
      | some owned =>
        rw [history_step_some ssl c howned]
        by_cases hid : owned.1 = id
        · rw [if_pos hid, offered_append]
          exact Nat.add_le_add_right ih _
        · rw [if_neg hid, List.append_nil]
          exact ih.trans (Nat.le_add_right _ _)
    | moveConstruct => exact ih.trans (Nat.le_add_right _ _)
    | moveAssign => exact ih.trans (Nat.le_add_right _ _)

lemma unfailing_append {calls : List (Call × Result)} {c : Call} {result : Result} :
    Unfailing (calls ++ [(c, result)]) ↔ Unfailing calls ∧ result ≠ .error cipherFailure := by
  simp [Unfailing, or_imp, forall_and]

/-- **A constructed state** is at the beginning of its session. -/
lemma Isolated.construct {opened : List Session} (h : sys.Isolated ssl prim cap opened)
    (hinv : sys.Inv) {kind : Kind} {slot : ℕ} {key : key256} {aad : Bytes}
    (haad : aad.length ≤ intMax) :
    Isolated ssl prim cap (opened ++ [⟨kind, key, aad⟩]) { sys with
      objects := put sys.objects kind slot (some (sys.count, ⟨key, aad, none, .ready, haad⟩)),
      count := sys.count + 1 } where
  count := by rw [h.count, List.length_append, List.length_singleton]
  object kind' slot' id impl hput := by
    rcases put_eq hput with ⟨rfl, rfl, heq⟩ | ⟨-, hold⟩
    · cases heq
      refine ⟨_, by rw [h.count, List.getElem?_concat_length], rfl, fun _ => ⟨.ready, ?_, rfl, rfl, rfl⟩⟩
      have hnone : sys.history sys.count = [] := hinv.fresh _ le_rfl
      exact hnone ▸ .start
    · obtain ⟨s, hs, hkind, hrun⟩ := h.object _ _ _ _ hold
      exact ⟨s, List.getElem?_append_left (List.getElem?_eq_some_iff.mp hs).1 ▸ hs, hkind, hrun⟩
  run id s hs calls hcalls hclean := by
    by_cases hlt : id < opened.length
    · rw [List.getElem?_append_left hlt] at hs
      exact h.run id s hs calls hcalls hclean
    · have hnone : sys.history id = [] := hinv.fresh id (h.count ▸ not_lt.mp hlt)
      have hnil : calls = [] := List.prefix_nil.mp (hnone ▸ hcalls)
      exact ⟨.ready, hnil ▸ .start⟩
  available := h.available

/-- **A move** leaves everything with its session. -/
lemma Isolated.moveTo {opened : List Session} (h : sys.Isolated ssl prim cap opened) (kind : Kind)
    (slot source : ℕ) : (sys.moveTo kind slot source).Isolated ssl prim cap opened where
  count := h.count
  object kind' slot' id impl hput := by
    obtain ⟨slot'', hold⟩ := owned_before_move hput
    exact h.object kind' slot'' id impl hold
  run := h.run
  available := h.available

/-- A call on an object without state belongs to no session. -/
lemma Isolated.turnedDown {opened : List Session} (h : sys.Isolated ssl prim cap opened)
    {kind : Kind} {slot : ℕ} {c : Call} (howned : sys.objects kind slot = none) :
    (step ssl sys (.call kind slot c)).Isolated ssl prim cap opened := by
  have hhistory := fun id => history_step_none ssl c howned id
  constructor
  · exact h.count
  · intro kind' slot' id impl hput
    rw [hhistory]
    simp only [step, howned, Option.map_none, Option.bind_none] at hput
    rcases put_eq hput with ⟨-, -, hnone⟩ | ⟨-, hold⟩
    · cases hnone
    · exact h.object _ _ _ _ hold
  · intro id s hs
    rw [hhistory]
    exact h.run id s hs
  · intro havail id
    rw [hhistory]
    exact h.available havail id

/-- **A call** on a state takes its session one call further, and no other session. -/
lemma Isolated.call (hs : ssl.Sound prim) (hl : prim.gcm.Lengths) {opened : List Session}
    (h : sys.Isolated ssl prim cap opened) (hinv : sys.Inv) {kind : Kind} {slot owner : ℕ}
    {impl : Impl} {c : Call} (howned : sys.objects kind slot = some (owner, impl))
    (hcap : offered ((step ssl sys (.call kind slot c)).history owner) ≤ cap) :
    (step ssl sys (.call kind slot c)).Isolated ssl prim cap opened := by
  obtain ⟨himplInv, -, -⟩ := hinv.object _ _ _ _ howned
  obtain ⟨s, hsession, rfl, hrun⟩ := h.object _ _ _ _ howned
  obtain ⟨impl', himpl, -⟩ := transition_of_answer ssl s.kind c sys.lib himplInv.exists_context
  have hhistory := fun id => history_step_some ssl c howned id
  have howner : (step ssl sys (.call s.kind slot c)).history owner =
      sys.history owner ++ [(c, (answer ssl s.kind c ⟨some impl, sys.lib⟩).1)] := by
    rw [hhistory, if_pos rfl]
  have hother : ∀ id, owner ≠ id →
      (step ssl sys (.call s.kind slot c)).history id = sys.history id := by
    intro id hid
    rw [hhistory, if_neg hid, List.append_nil]
  rw [howner, offered_append] at hcap
  have hle : ∀ p, s.Runs ssl prim.gcm (ssl.Available prim cap) (sys.history owner) p →
      (p.text ++ c.text).length ≤ cap := by
    intro p hruns
    rw [List.length_append]
    exact (Nat.add_le_add_right hruns.length_text_le _).trans hcap
  -- The state that was called follows its session one step further.
  have hnext : Unfailing ((step ssl sys (.call s.kind slot c)).history owner) →
      ∃ p, s.Runs ssl prim.gcm (ssl.Available prim cap)
        ((step ssl sys (.call s.kind slot c)).history owner) p ∧ s.Tracks p impl' := by
    rw [howner, unfailing_append]
    rintro ⟨hclean, hne⟩
    obtain ⟨p, hruns, htracks⟩ := hrun hclean
    obtain ⟨left, hleft, hcases⟩ := htracks.answer sys.lib hs hl (hle p hruns)
    obtain rfl : impl' = left := Option.some.inj (himpl.symm.trans hleft)
    rcases hcases with ⟨draw, hdraw, hresult, htracks'⟩ | ⟨hnot, ⟨⟨nonce, text, tag, hkind, rfl, rfl⟩,
      hresult, htracks'⟩ | hfailure⟩
    · rw [hresult]
      exact ⟨_, .replied c draw hruns hdraw, htracks'⟩
    · rw [hresult]
      exact ⟨_, .refused tag hruns hkind hnot, htracks'⟩
    · exact absurd hfailure hne
  constructor
  · rw [step_call_some howned himpl]
    exact h.count
  · intro kind' slot' id left hput
    rw [step_call_some howned himpl] at hput
    rcases put_eq hput with ⟨rfl, rfl, heq⟩ | ⟨hslot, hold⟩
    · -- The object that was called.
      cases heq
      exact ⟨s, hsession, rfl, hnext⟩
    · -- Another object owns another state.
      have hid : owner ≠ id := by
        rintro rfl
        exact hslot (hinv.unique _ _ _ _ _ _ _ hold howned)
      rw [hother id hid]
      exact h.object _ _ _ _ hold
  · intro id s' hs' calls hcalls hclean
    by_cases hid : owner = id
    · subst hid
      -- Of the new history there is one run more, and the beginnings are old.
      obtain rfl : s = s' := Option.some.inj (hsession.symm.trans hs')
      rw [howner] at hcalls hnext
      rcases List.prefix_concat_iff.mp hcalls with rfl | hold
      · obtain ⟨p, hruns, -⟩ := hnext hclean
        exact ⟨p, hruns⟩
      · exact h.run owner s hsession calls hold hclean
    · rw [hother id hid] at hcalls
      exact h.run id s' hs' calls hcalls hclean
  · intro havail id
    by_cases hid : owner = id
    · subst hid
      have hclean := h.available havail owner
      obtain ⟨p, hruns, htracks⟩ := hrun hclean
      obtain ⟨left, -, hcases⟩ := htracks.answer sys.lib hs hl (hle p hruns)
      rw [howner, unfailing_append]
      refine ⟨hclean, ?_⟩
      -- No reply of a session is a failure of the library.
      rcases hcases with ⟨draw, -, hresult, -⟩ | ⟨hnot, -⟩
      · rw [hresult]
        exact s.reply_ne_cipherFailure _ _ _ _
      · exact absurd havail hnot
    · rw [hother id hid]
      exact h.available havail id

/-- A history only grows. -/
lemma history_prefix_step (ssl : Openssl) (sys : System) (op : Op) (id : ℕ) :
    sys.history id <+: (step ssl sys op).history id := by
  cases op with
  | construct kind slot key aad =>
    simp only [step]
    split
    · exact List.prefix_rfl
    · exact List.prefix_rfl
  | call kind slot c =>
    cases howned : sys.objects kind slot with
    | none => rw [history_step_none ssl c howned]
    | some owned =>
      rw [history_step_some ssl c howned]
      exact List.prefix_append _ _
  | moveConstruct => exact List.prefix_rfl
  | moveAssign => exact List.prefix_rfl

lemma Isolated.step (hs : ssl.Sound prim) (hl : prim.gcm.Lengths) {opened : List Session}
    (h : sys.Isolated ssl prim cap opened) (hinv : sys.Inv) (op : Op)
    (hcap : ∀ id, offered ((step ssl sys op).history id) ≤ cap) :
    (System.step ssl sys op).Isolated ssl prim cap (opened ++ op.opens.toList) := by
  cases op with
  | construct kind slot key aad =>
    by_cases hlong : intMax < aad.length
    · have hnew : (Impl.new key aad : Eff Unit Impl) () = .error (updateLimitError "AAD") () := by
        rw [Impl.new, dif_pos hlong]
        rfl
      simp only [System.step, hnew, Op.opens, if_pos hlong, Option.toList_none, List.append_nil]
      exact h
    · have hnew : (Impl.new key aad : Eff Unit Impl) () =
          .ok { key, aad, aad_le := not_lt.mp hlong } () := by
        rw [Impl.new, dif_neg hlong]
        rfl
      simp only [System.step, hnew, Op.opens, if_neg hlong, Option.toList_some]
      exact h.construct hinv _
  | call kind slot c =>
    simp only [Op.opens, Option.toList_none, List.append_nil]
    cases howned : sys.objects kind slot with
    | none => exact h.turnedDown howned
    | some owned =>
      obtain ⟨owner, impl⟩ := owned
      exact h.call hs hl hinv howned (hcap owner)
  | moveConstruct kind slot source =>
    simp only [Op.opens, Option.toList_none, List.append_nil]
    exact h.moveTo kind slot source
  | moveAssign kind slot source =>
    simp only [Op.opens, Option.toList_none, List.append_nil]
    exact h.moveTo kind slot source

lemma isolated_after (hs : ssl.Sound prim) (hl : prim.gcm.Lengths) (ops : List Op)
    (hcap : ∀ id, offered ((after ssl ops).history id) ≤ cap) :
    (after ssl ops).Isolated ssl prim cap (sessions ops) := by
  induction ops using List.reverseRecOn with
  | nil =>
    refine ⟨rfl, fun kind slot id impl howned => ?_, fun id s hs => ?_, fun _ id => ?_⟩
    · cases howned
    · cases hs
    · intro entry hentry
      cases hentry
  | append_singleton ops op ih =>
    rw [after_append] at hcap ⊢
    have hbefore := ih fun id => by
      obtain ⟨more, hmore⟩ := history_prefix_step ssl (after ssl ops) op id
      have hle := hcap id
      rw [← hmore, offered, List.map_append, List.sum_append] at hle
      exact (Nat.le_add_right _ _).trans hle
    have hopened : sessions (ops ++ [op]) = sessions ops ++ op.opens.toList := by
      rw [sessions, List.filterMap_append, List.filterMap_cons, List.filterMap_nil]
      cases op.opens <;> rfl
    rw [hopened]
    exact hbefore.step hs hl (inv_after ssl ops) op hcap

end Isolation

end System

/-! ## The result -/

/-- The calls on each state are those of a session, up to the first that was answered with an error
of the library; one that is available answers with none. -/
structure SessionsOf (ssl : Openssl) (prim : Primitives) (cap : ℕ) (opened : List Session)
    (sys : System) : Prop where
  runs : ∀ id s, opened[id]? = some s → ∀ calls, calls <+: sys.history id → Unfailing calls →
    ∃ p, s.Runs ssl prim.gcm (ssl.Available prim cap) calls p
  unfailing : ssl.Available prim cap → ∀ id, Unfailing (sys.history id)
  /-- There are no other calls on states. -/
  complete : ∀ id, opened[id]? = none → sys.history id = []

/-- **The objects of a program are sessions of their own**, whatever is done with them in whatever
order, and wherever they are moved to. -/
theorem session_isolated {ssl : Openssl} {prim : Primitives} {cap : ℕ} (hs : ssl.Sound prim)
    (hl : prim.gcm.Lengths) (ops : List Op)
    (hcap : ∀ id, offered ((System.after ssl ops).history id) ≤ cap) :
    SessionsOf ssl prim cap (sessions ops) (System.after ssl ops) := by
  have h := System.isolated_after hs hl ops hcap
  refine ⟨h.run, h.available, fun id hid => ?_⟩
  apply (System.inv_after ssl ops).fresh id
  rw [h.count]
  exact List.getElem?_eq_none_iff.mp hid

/-- An encryptor and a decryptor that take turns, and of which one moves. -/
def turns : List Op :=
  [.construct .encryptor 0 (ByteArr.zeros 32) [], .construct .decryptor 0 (ByteArr.zeros 32) [],
    .call .encryptor 0 (.begin []), .call .decryptor 0 (.begin (makePacketPrefix (ByteArr.zeros 12))),
    .moveConstruct .encryptor 1 0, .call .decryptor 0 (.update [0x61]),
    .call .encryptor 1 (.update [0x62]), .call .encryptor 0 (.update [0x63]),
    .call .encryptor 1 (.finalize []), .call .decryptor 0 (.finalize [])]

theorem session_isolated_turns :
    SessionsOf standardLibrary standard (2 ^ 20) (sessions turns)
      (System.after standardLibrary turns) :=
  session_isolated standardLibrary_sound standard_lengths turns fun id =>
    (System.offered_history_le standardLibrary turns id).trans (by decide)

end SecureKit.Packet
