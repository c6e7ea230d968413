import SecureKit.Packet.OneShot
import SecureKit.Packet.Session

/-!
# What goes from one object to another

`Packet.Session` says what the calls on one state are.  Here the bytes of these calls are put
together: what an object has `sent`, which text it has `absorbed`, and what it has `received`, and
the two ends of a transmission are compared.

* `streams_packets`: an encryptor whose `finalize` returns has sent the packet of the text it has
  absorbed, and a decryptor refuses what it has received unless it is the packet of what it has
  sent.  There may be any number of objects, which are called and moved in any order.
* `channel_integrity`: if tags verify only for packets that encryptors have sent, a decryptor that
  accepts has received exactly such a packet, under the same key and additional data, and has sent
  its text.  The bytes may have passed through any hands.

## The argument

`Session.Sends` and `Session.Receives` are invariants of the runs of one session: how far the packet
has come, in terms of what was sent, absorbed and received.  They are kept by every reply
(`Session.Replies`), and `session_isolated` carries them over to the objects of a program.  A piece
is encrypted from where the text before it ends, so the pieces put together are the encryption of
the whole text; that is the property `AesGcm.Incremental`.

## What is assumed

`Unfailing` is the assumption of `Streams` on a state: no call on it was answered with a failure of
the library.  Refused calls are admitted.  For `Streams.delivers` the library must be `Available`,
as a failing one may refuse the packet.  `AesGcm.Exact` says that a tag that verifies is the tag of
the decrypted text.

In `channel_integrity` the cipher is ideal.  `Unforged` says that a tag verifies only for what
encryptors of the first program have sent.  The library of the senders is `Available`, that of the
receivers need not be.

In `streams_packets_relay` a packet is sent by one object and accepted by another one, and in
`channel_integrity_sole` one decryptor accepts such a packet and one refuses it.
-/

namespace SecureKit.Packet

open ByteString Effect Evp

/-! ## Bytes of calls -/

/-- What a call put out. -/
def sentBy : Call × Result → Bytes
  | (_, .ok out) => out
  | _ => []

/-- The text a call has absorbed. -/
def absorbedBy : Call × Result → Bytes
  | (.update text, .ok _) => text
  | _ => []

/-- The part of a packet a call has taken. -/
def receivedBy : Call × Result → Bytes
  | (.begin packetPrefix, .ok _) => packetPrefix
  | (.update text, .ok _) => text
  | (.finalize tag, .ok _) => tag
  | (.finalize tag, .error e) =>
    if e.code = .authentication_failed ∨ e.code = .invalid_packet then tag else []
  | _ => []

def sent (calls : List (Call × Result)) : Bytes := calls.flatMap sentBy

def absorbed (calls : List (Call × Result)) : Bytes := calls.flatMap absorbedBy

def received (calls : List (Call × Result)) : Bytes := calls.flatMap receivedBy

/-- A `finalize` has returned. -/
def Accepted (calls : List (Call × Result)) : Prop := ∃ entry ∈ calls, IsFinalized entry = true

/-- A `finalize` has come to a decision. -/
def Decided (calls : List (Call × Result)) : Prop := ∃ entry ∈ calls, entry.1.Ends entry.2

section Bytes

variable {calls : List (Call × Result)} {entry : Call × Result}

@[simp] lemma sent_append : sent (calls ++ [entry]) = sent calls ++ sentBy entry := by
  simp [sent]

@[simp] lemma absorbed_append : absorbed (calls ++ [entry]) = absorbed calls ++ absorbedBy entry := by
  simp [absorbed]

@[simp] lemma received_append : received (calls ++ [entry]) = received calls ++ receivedBy entry := by
  simp [received]

lemma accepted_append : Accepted (calls ++ [entry]) ↔ Accepted calls ∨ IsFinalized entry = true := by
  simp [Accepted, or_and_right, exists_or]

lemma decided_append : Decided (calls ++ [entry]) ↔ Decided calls ∨ entry.1.Ends entry.2 := by
  simp only [Decided, List.mem_append, List.mem_singleton, or_and_right, exists_or, exists_eq_left]

/-- An error that decides nothing. -/
lemma receivedBy_error {c : Call} {e : Error} (h : ¬ c.Ends (.error e)) :
    receivedBy (c, .error e) = [] := by
  cases c with
  | begin packetPrefix => rfl
  | update text => rfl
  | finalize tag => exact if_neg h

/-- A decision takes the tag. -/
lemma receivedBy_finalize {tag : Bytes} {r : Result} (h : (Call.finalize tag).Ends r) :
    receivedBy (.finalize tag, r) = tag := by
  cases r with
  | ok out => rfl
  | error e => exact if_pos h

/-- What the three calls of a session take, and what they absorb. -/
lemma received_in_order {packetPrefix text tag out out' : Bytes} {r : Result}
    (h : (Call.finalize tag).Ends r) :
    received [(.begin packetPrefix, .ok out), (.update text, .ok out'), (.finalize tag, r)] =
      packetPrefix ++ text ++ tag := by
  simp only [received, List.flatMap_cons, List.flatMap_nil, List.append_nil, receivedBy_finalize h,
    List.append_assoc]
  rfl

lemma absorbed_in_order (packetPrefix text tag out out' : Bytes) (r : Result) :
    absorbed [(.begin packetPrefix, .ok out), (.update text, .ok out'), (.finalize tag, r)] = text := by
  simp [absorbed, absorbedBy]

lemma sentBy_error (c : Call) (e : Error) : sentBy (c, .error e) = [] := by
  cases c <;> rfl

lemma absorbedBy_error (c : Call) (e : Error) : absorbedBy (c, .error e) = [] := by
  cases c <;> rfl

lemma not_isFinalized_error (c : Call) (e : Error) : IsFinalized (c, .error e) = false := by
  cases c <;> rfl

end Bytes

/-! ## The replies of a session -/

section Replies

variable {ssl : Openssl} {gcm : AesGcm} {s : Session} {p : Progress} {c : Call}

/-- What a session does with a call. -/
inductive Session.Replies (gcm : AesGcm) (s : Session) (draw : ByteArr kNonceSize) :
    Progress → Call → Result × Progress → Prop
  | turned {p c e} (h : ¬ c.Ends (.error e)) : Replies gcm s draw p c (.error e, p)
  | opened {packetPrefix} (h : s.kind = .encryptor) :
      Replies gcm s draw .ready (.begin packetPrefix) (.ok (makePacketPrefix draw), .active draw [])
  | entered {nonce} (h : s.kind = .decryptor) :
      Replies gcm s draw .ready (.begin (makePacketPrefix nonce)) (.ok [], .active nonce [])
  | passed {nonce text piece} : Replies gcm s draw (.active nonce text) (.update piece)
      (.ok (cryptPiece gcm s.kind.dir s.key nonce text piece), .active nonce (text ++ piece))
  | sealed {nonce : ByteArr kNonceSize} {text tag} (h : s.kind = .encryptor) :
      Replies gcm s draw (.active nonce text) (.finalize tag)
        (.ok (gcm.tag s.key nonce ((makeHeader : Bytes) ++ s.aad) text), .finished)
  | verified {nonce : ByteArr kNonceSize} {text} {tag : ByteArr kTagSize} (h : s.kind = .decryptor)
      (hverify : gcm.verify s.key nonce ((makeHeader : Bytes) ++ s.aad) text tag = true) :
      Replies gcm s draw (.active nonce text) (.finalize tag) (.ok [], .finished)
  | rejected {nonce : ByteArr kNonceSize} {text tag e} (h : s.kind = .decryptor)
      (hends : (Call.finalize tag).Ends (.error e))
      (hverify : ∀ tag' : ByteArr kTagSize, tag = tag' →
        gcm.verify s.key nonce ((makeHeader : Bytes) ++ s.aad) text tag' = false) :
      Replies gcm s draw (.active nonce text) (.finalize tag) (.error e, .finished)

lemma Session.replies_reply (gcm : AesGcm) (s : Session) (draw : ByteArr kNonceSize) (p : Progress)
    (c : Call) : s.Replies gcm draw p c (s.reply gcm draw p c) := by
  fun_cases Session.reply gcm s draw p c with
  | case1 packetPrefix =>
    fun_cases Session.begun s draw packetPrefix with
    | case1 hkind => exact .opened hkind
    | case2 hkind nonce hfirst =>
      rw [hfirst]
      exact .entered hkind
    | case3 => exact .turned id
  | case2 => exact .turned id
  | case3 => exact .passed
  | case4 nonce text tag =>
    fun_cases Session.finalized gcm s nonce text tag with
    | case1 hkind => exact .sealed hkind
    | case2 hkind hsize =>
      refine .rejected hkind (.inr rfl) ?_
      rintro tag' rfl
      exact absurd (ByteArr.length_coe tag') hsize
    | case3 hkind hsize hverify =>
      obtain ⟨bytes, rfl⟩ : ∃ bytes : ByteArr kTagSize, tag = bytes := ⟨⟨tag, not_not.mp hsize⟩, rfl⟩
      rw [ByteArr.ofBytes_coe] at hverify
      exact .verified hkind hverify
    | case4 hkind hsize hverify =>
      refine .rejected hkind (.inl rfl) ?_
      rintro tag' rfl
      rwa [ByteArr.ofBytes_coe, Bool.not_eq_true] at hverify
  | case5 =>
    apply Session.Replies.turned
    exact not_ends_of_turnedDown ⟨_, rfl, rfl⟩

/-- What a piece adds to the text before it. -/
lemma cryptText_append_piece (dir : Direction) (key : key256) (nonce : Bytes) (hl : gcm.Lengths)
    (hi : gcm.Incremental) (text piece : Bytes) :
    cryptText gcm dir key nonce text ++ cryptPiece gcm dir key nonce text piece =
      cryptText gcm dir key nonce (text ++ piece) := by
  have happend := cryptPiece_append dir key nonce hl hi [] text piece
  rwa [cryptPiece_nil, List.nil_append, cryptPiece_nil] at happend

/-- What an encryptor has sent. -/
def Session.Sends (ssl : Openssl) (gcm : AesGcm) (s : Session) (calls : List (Call × Result)) :
    Progress → Prop
  | .ready => sent calls = [] ∧ absorbed calls = [] ∧ ¬ Accepted calls
  | .active nonce text => ssl.Draws nonce ∧ absorbed calls = text ∧
      sent calls = (makePacketPrefix nonce : Bytes) ++ gcm.encText s.key nonce text ∧
      ¬ Accepted calls
  | .finished => ∃ nonce : ByteArr kNonceSize, ssl.Draws nonce ∧
      sent calls = packetBytes gcm s.key s.aad nonce (absorbed calls)

/-- What a decryptor has received, and has sent. -/
def Session.Receives (gcm : AesGcm) (available : Prop) (s : Session) (calls : List (Call × Result)) :
    Progress → Prop
  | .ready => received calls = [] ∧ absorbed calls = [] ∧ sent calls = [] ∧ ¬ Decided calls
  | .active nonce text => received calls = (makePacketPrefix nonce : Bytes) ++ text ∧
      absorbed calls = text ∧ sent calls = gcm.decText s.key nonce text ∧ ¬ Decided calls
  | .finished => ∃ (nonce : ByteArr kNonceSize) (text tag : Bytes),
      received calls = (makePacketPrefix nonce : Bytes) ++ text ++ tag ∧ absorbed calls = text ∧
      sent calls = gcm.decText s.key nonce text ∧
      (Accepted calls → ∃ tag' : ByteArr kTagSize, tag = tag' ∧
        gcm.verify s.key nonce ((makeHeader : Bytes) ++ s.aad) text tag' = true) ∧
      (available → ∀ tag' : ByteArr kTagSize, tag = tag' →
        gcm.verify s.key nonce ((makeHeader : Bytes) ++ s.aad) text tag' = true → Accepted calls)

lemma decided_of_accepted {calls : List (Call × Result)} (h : Accepted calls) : Decided calls := by
  obtain ⟨entry, hentry, hfinalized⟩ := h
  exact ⟨entry, hentry, ends_of_isFinalized hfinalized⟩

section Runs

variable {available : Prop} {calls : List (Call × Result)}

/-- A call that is turned down changes nothing of what was sent. -/
lemma Session.Sends.turned {c : Call} {e : Error} (h : s.Sends ssl gcm calls p) :
    s.Sends ssl gcm (calls ++ [(c, .error e)]) p := by
  have hsent : sent (calls ++ [(c, .error e)]) = sent calls := by
    rw [sent_append, sentBy_error, List.append_nil]
  have habsorbed : absorbed (calls ++ [(c, .error e)]) = absorbed calls := by
    rw [absorbed_append, absorbedBy_error, List.append_nil]
  have haccepted : Accepted (calls ++ [(c, .error e)]) ↔ Accepted calls := by
    rw [accepted_append, not_isFinalized_error]
    simp
  cases p with
  | ready => exact ⟨hsent.trans h.1, habsorbed.trans h.2.1, fun hc => h.2.2 (haccepted.mp hc)⟩
  | active nonce text =>
    obtain ⟨hdraws, htext, hout, hnot⟩ := h
    exact ⟨hdraws, habsorbed.trans htext, hsent.trans hout, fun hc => hnot (haccepted.mp hc)⟩
  | finished =>
    obtain ⟨nonce, hdraws, hout⟩ := h
    exact ⟨nonce, hdraws, by rw [hsent, habsorbed, hout]⟩

/-- A call that decides nothing changes nothing of what was received. -/
lemma Session.Receives.turned {c : Call} {e : Error} (h : s.Receives gcm available calls p)
    (hends : ¬ c.Ends (.error e)) : s.Receives gcm available (calls ++ [(c, .error e)]) p := by
  have hsent : sent (calls ++ [(c, .error e)]) = sent calls := by
    rw [sent_append, sentBy_error, List.append_nil]
  have habsorbed : absorbed (calls ++ [(c, .error e)]) = absorbed calls := by
    rw [absorbed_append, absorbedBy_error, List.append_nil]
  have hreceived : received (calls ++ [(c, .error e)]) = received calls := by
    rw [received_append, receivedBy_error hends, List.append_nil]
  have hdecided : Decided (calls ++ [(c, .error e)]) ↔ Decided calls := by
    rw [decided_append]
    exact or_iff_left hends
  have haccepted : Accepted (calls ++ [(c, .error e)]) ↔ Accepted calls := by
    rw [accepted_append, not_isFinalized_error]
    simp
  cases p with
  | ready =>
    obtain ⟨hin, htext, hout, hnot⟩ := h
    exact ⟨hreceived.trans hin, habsorbed.trans htext, hsent.trans hout,
      fun hc => hnot (hdecided.mp hc)⟩
  | active nonce text =>
    obtain ⟨hin, htext, hout, hnot⟩ := h
    exact ⟨hreceived.trans hin, habsorbed.trans htext, hsent.trans hout,
      fun hc => hnot (hdecided.mp hc)⟩
  | finished =>
    obtain ⟨nonce, text, tag, hin, htext, hout, haccept, hrefuse⟩ := h
    exact ⟨nonce, text, tag, hreceived.trans hin, habsorbed.trans htext, hsent.trans hout,
      fun hc => haccept (haccepted.mp hc),
      fun havail tag' htag hverify => haccepted.mpr (hrefuse havail tag' htag hverify)⟩

/-- **An encryptor** sends the packet of its text, piece by piece. -/
lemma Session.Runs.sends (hl : gcm.Lengths) (hi : gcm.Incremental) (hkind : s.kind = .encryptor)
    (h : s.Runs ssl gcm available calls p) : s.Sends ssl gcm calls p := by
  have hnot : s.kind ≠ .decryptor := by rw [hkind]; simp
  induction h with
  | start => exact ⟨rfl, rfl, fun ⟨_, hentry, _⟩ => by cases hentry⟩
  | @replied calls p c draw h hdraw ih =>
    have hreply := s.replies_reply gcm draw p c
    generalize s.reply gcm draw p c = r at hreply ⊢
    cases hreply with
    -- A call that was turned down, and adds nothing.
    | turned => exact ih.turned
    -- `begin` puts out the header and the nonce that was drawn.
    | @opened packetPrefix =>
      obtain ⟨hsent, habsorbed, haccepted⟩ := ih
      have hnil : gcm.encText s.key draw [] = [] :=
        List.length_eq_zero_iff.mp (hl.length_encText _ _ _)
      refine ⟨hdraw hkind rfl rfl, ?_, ?_, ?_⟩
      · rw [absorbed_append, habsorbed]
        rfl
      · rw [sent_append, hsent, hnil, List.append_nil]
        rfl
      · rw [accepted_append]
        exact fun hc => hc.elim haccepted Bool.false_ne_true
    | entered hdecryptor => exact absurd hdecryptor hnot
    -- A piece is encrypted where the text before it ends.
    | @passed nonce text piece =>
      obtain ⟨hdraws, habsorbed, hsent, haccepted⟩ := ih
      refine ⟨hdraws, ?_, ?_, ?_⟩
      · rw [absorbed_append, habsorbed]
        rfl
      · rw [sent_append, hsent, List.append_assoc]
        refine congrArg ((makePacketPrefix nonce : Bytes) ++ ·) ?_
        have happend := cryptText_append_piece s.kind.dir s.key nonce hl hi text piece
        rw [hkind] at happend ⊢
        exact happend
      · rw [accepted_append]
        exact fun hc => hc.elim haccepted Bool.false_ne_true
    -- `finalize` puts out the tag of the whole text.
    | @sealed nonce text tag =>
      obtain ⟨hdraws, habsorbed, hsent, haccepted⟩ := ih
      refine ⟨nonce, hdraws, ?_⟩
      have htext : absorbed (calls ++ [(.finalize tag,
          .ok (gcm.tag s.key nonce ((makeHeader : Bytes) ++ s.aad) text))]) = text := by
        rw [absorbed_append, habsorbed]
        exact List.append_nil text
      rw [htext, sent_append, hsent]
      rfl
    | verified hdecryptor => exact absurd hdecryptor hnot
    | rejected hdecryptor => exact absurd hdecryptor hnot
  | refused tag h hdecryptor => exact absurd hdecryptor hnot

/-- **A decryptor** takes a packet apart, and its tag decides. -/
lemma Session.Runs.receives (hl : gcm.Lengths) (hi : gcm.Incremental) (hkind : s.kind = .decryptor)
    (h : s.Runs ssl gcm available calls p) : s.Receives gcm available calls p := by
  have hnot : s.kind ≠ .encryptor := by rw [hkind]; simp
  induction h with
  | start => exact ⟨rfl, rfl, rfl, fun ⟨_, hentry, _⟩ => by cases hentry⟩
  | @replied calls p c draw h hdraw ih =>
    have hreply := s.replies_reply gcm draw p c
    generalize s.reply gcm draw p c = r at hreply ⊢
    cases hreply with
    | turned hends => exact ih.turned hends
    | opened hencryptor => exact absurd hencryptor hnot
    -- `begin` takes header and nonce, and puts out nothing.
    | @entered nonce =>
      obtain ⟨hreceived, habsorbed, hsent, hdecided⟩ := ih
      have hnil : gcm.decText s.key nonce [] = [] :=
        List.length_eq_zero_iff.mp (hl.length_decText _ _ _)
      refine ⟨?_, ?_, ?_, ?_⟩
      · rw [received_append, hreceived, List.append_nil]
        rfl
      · rw [absorbed_append, habsorbed]
        rfl
      · rw [sent_append, hsent, hnil]
        rfl
      · rw [decided_append]
        exact fun hc => hc.elim hdecided id
    -- The plaintext of a piece is put out before the tag is known.
    | @passed nonce text piece =>
      obtain ⟨hreceived, habsorbed, hsent, hdecided⟩ := ih
      refine ⟨?_, ?_, ?_, ?_⟩
      · rw [received_append, hreceived, List.append_assoc]
        rfl
      · rw [absorbed_append, habsorbed]
        rfl
      · rw [sent_append, hsent]
        have happend := cryptText_append_piece s.kind.dir s.key nonce hl hi text piece
        rw [hkind] at happend ⊢
        exact happend
      · rw [decided_append]
        exact fun hc => hc.elim hdecided id
    | sealed hencryptor => exact absurd hencryptor hnot
    -- The two decisions: the tag verifies for the text that was absorbed, or it does not.
    | @verified nonce text tag _ hverify =>
      obtain ⟨hreceived, habsorbed, hsent, hdecided⟩ := ih
      refine ⟨nonce, text, tag, ?_, ?_, ?_, fun _ => ⟨tag, rfl, hverify⟩, fun _ _ _ _ => ?_⟩
      · rw [received_append, hreceived]
        rfl
      · rw [absorbed_append, habsorbed]
        exact List.append_nil _
      · rw [sent_append, hsent]
        exact List.append_nil _
      · exact accepted_append.mpr (.inr rfl)
    | @rejected nonce text tag e _ hends hverify =>
      obtain ⟨hreceived, habsorbed, hsent, hdecided⟩ := ih
      refine ⟨nonce, text, tag, ?_, ?_, ?_, fun haccepted => ?_, fun _ tag' htag htrue => ?_⟩
      · rw [received_append, hreceived]
        exact congrArg _ (if_pos hends)
      · rw [absorbed_append, habsorbed]
        exact List.append_nil _
      · rw [sent_append, hsent]
        exact List.append_nil _
      · rw [accepted_append, not_isFinalized_error] at haccepted
        exact absurd (decided_of_accepted (haccepted.resolve_right Bool.false_ne_true)) hdecided
      · rw [hverify tag' htag] at htrue
        cases htrue
  -- A library that fails at the tag is reported as a bad tag.
  | @refused calls nonce text tag h _ hunavailable ih =>
    obtain ⟨hreceived, habsorbed, hsent, hdecided⟩ := ih
    refine ⟨nonce, text, tag, ?_, ?_, ?_, fun haccepted => ?_, fun havail => absurd havail hunavailable⟩
    · rw [received_append, hreceived]
      rfl
    · rw [absorbed_append, habsorbed]
      exact List.append_nil _
    · rw [sent_append, hsent]
      exact List.append_nil _
    · rw [accepted_append, not_isFinalized_error] at haccepted
      exact absurd (decided_of_accepted (haccepted.resolve_right Bool.false_ne_true)) hdecided

end Runs

end Replies

/-! ## Two ends -/

/-- What the objects of a program make and accept. -/
structure Streams (ssl : Openssl) (prim : Primitives) (cap : ℕ) (opened : List Session)
    (sys : System) : Prop where
  /-- What an encryptor has sent when its `finalize` returns is the packet of its text. -/
  sends : ∀ id s, opened[id]? = some s → s.kind = .encryptor → Unfailing (sys.history id) →
    Accepted (sys.history id) → ∃ nonce : ByteArr kNonceSize, ssl.Draws nonce ∧
      sent (sys.history id) = packetBytes prim.gcm s.key s.aad nonce (absorbed (sys.history id))
  /-- What a decryptor accepts is the packet of what it has sent. -/
  accepts : ∀ id s, opened[id]? = some s → s.kind = .decryptor → Unfailing (sys.history id) →
    Accepted (sys.history id) → ∃ nonce : ByteArr kNonceSize,
      received (sys.history id) = packetBytes prim.gcm s.key s.aad nonce (sent (sys.history id))
  /-- A packet that a decryptor receives with its parts in their places is accepted. -/
  delivers : ∀ id s, opened[id]? = some s → s.kind = .decryptor → ssl.Available prim cap →
    Decided (sys.history id) → ∀ (nonce : ByteArr kNonceSize) (plaintext : Bytes),
      received (sys.history id) = packetBytes prim.gcm s.key s.aad nonce plaintext →
      absorbed (sys.history id) = prim.gcm.encText s.key nonce plaintext →
      Accepted (sys.history id) ∧ sent (sys.history id) = plaintext

section Ends

variable {ssl : Openssl} {prim : Primitives} {cap : ℕ} {available : Prop} {s : Session}
  {p : Progress} {calls : List (Call × Result)}

lemma Session.Sends.exists_packet (h : s.Sends ssl prim.gcm calls p) (haccepted : Accepted calls) :
    ∃ nonce : ByteArr kNonceSize, ssl.Draws nonce ∧
      sent calls = packetBytes prim.gcm s.key s.aad nonce (absorbed calls) := by
  cases p with
  | ready => exact absurd haccepted h.2.2
  | active nonce text => exact absurd haccepted h.2.2.2
  | finished => exact h

/-- What a decryptor that has come to a decision knows. -/
lemma Session.Receives.finished (h : s.Receives prim.gcm available calls p) (hdecided : Decided calls) :
    s.Receives prim.gcm available calls .finished := by
  cases p with
  | ready => exact absurd hdecided h.2.2.2
  | active nonce text => exact absurd hdecided h.2.2.2
  | finished => exact h

/-- **The objects of a program make and accept packets**, piece by piece, and in any order of their
calls and moves. -/
theorem streams_packets (hs : ssl.Sound prim) (hl : prim.gcm.Lengths) (hi : prim.gcm.Incremental)
    (hx : prim.gcm.Exact) (ops : List Op)
    (hcap : ∀ id, offered ((System.after ssl ops).history id) ≤ cap) :
    Streams ssl prim cap (sessions ops) (System.after ssl ops) := by
  have h := System.isolated_after hs hl ops hcap
  constructor
  · intro id s hopened hkind hclean haccepted
    obtain ⟨p, hruns⟩ := h.run id s hopened _ List.prefix_rfl hclean
    exact (hruns.sends hl hi hkind).exists_packet haccepted
  · intro id s hopened hkind hclean haccepted
    obtain ⟨p, hruns⟩ := h.run id s hopened _ List.prefix_rfl hclean
    obtain ⟨nonce, text, tag, hreceived, -, hsent, haccept, -⟩ :=
      (hruns.receives hl hi hkind).finished (decided_of_accepted haccepted)
    obtain ⟨tag', rfl, hverify⟩ := haccept haccepted
    obtain ⟨htext, htag⟩ := (hx.verify_iff _ _ _ _ _ _).mp ⟨hverify, hsent.symm⟩
    exact ⟨nonce, by rw [hreceived, packetBytes, htext, htag]⟩
  · intro id s hopened hkind havail hdecided nonce plaintext hpacket htext
    obtain ⟨p, hruns⟩ := h.run id s hopened _ List.prefix_rfl (h.available havail id)
    obtain ⟨nonce', text, tag, hreceived, habsorbed, hsent, -, hrefuse⟩ :=
      (hruns.receives hl hi hkind).finished hdecided
    rw [habsorbed] at htext
    subst htext
    rw [hreceived, packetBytes] at hpacket
    obtain ⟨hfront, htag⟩ := List.append_inj hpacket (by simp)
    have hfirst := List.append_cancel_right hfront
    rw [coe_makePacketPrefix, coe_makePacketPrefix] at hfirst
    obtain rfl := ByteArr.ext (List.append_cancel_left hfirst)
    have hcorrect := hx.correct
    exact ⟨hrefuse havail _ htag (hcorrect.verify_tag _ _ _ _),
      hsent.trans (hcorrect.decText_encText _ _ _)⟩

/-- The last call of a run is answered from where the calls before it have led. -/
lemma Session.Runs.exists_reply {gcm : AesGcm} {c : Call} {r : Result} (havail : available)
    (h : s.Runs ssl gcm available (calls ++ [(c, r)]) p) :
    ∃ draw q, s.Runs ssl gcm available calls q ∧ s.reply gcm draw q c = (r, p) := by
  generalize hall : calls ++ [(c, r)] = all at h
  cases h with
  | start => simp at hall
  | replied c' draw hbefore hdraw =>
    obtain ⟨rfl, hlast⟩ := List.append_inj' hall rfl
    obtain ⟨rfl, rfl⟩ := Prod.mk.inj (List.singleton_inj.mp hlast)
    exact ⟨draw, _, hbefore, rfl⟩
  | refused tag hbefore hkind hnot => exact absurd havail hnot

/-- Before the first call nothing was begun. -/
lemma Session.Runs.eq_ready {gcm : AesGcm} (h : s.Runs ssl gcm available [] p) : p = .ready := by
  generalize hall : ([] : List (Call × Result)) = all at h
  cases h with
  | start => rfl
  | replied | refused => simp at hall

/-- A decryptor that is begun with a prefix. -/
lemma Session.begun_makePacketPrefix (hkind : s.kind = .decryptor) (draw nonce : ByteArr kNonceSize) :
    s.begun draw (makePacketPrefix nonce) = (.ok [], .active nonce []) := by
  simp only [Session.begun, hkind, drop_makePacketPrefix, if_true]

/-- The first `finalize` of a decryptor comes to a decision. -/
lemma Session.ends_finalized {gcm : AesGcm} (hkind : s.kind = .decryptor) (nonce : ByteArr kNonceSize)
    (text tag : Bytes) : (Call.finalize tag).Ends (s.finalized gcm nonce text tag) := by
  simp only [Session.finalized, hkind]
  split
  · exact .inr rfl
  · split
    · trivial
    · exact .inl rfl

/-- A session that is called in order gives no errors but for the tag. -/
lemma Session.Runs.in_order {gcm : AesGcm} {packetPrefix text tag : Bytes} {r₁ r₂ r₃ : Result}
    (havail : available)
    (hbegin : ∀ draw, ∃ out nonce, s.begun draw packetPrefix = (.ok out, .active nonce []))
    (htext : text.length ≤ intMax)
    (h : s.Runs ssl gcm available
      [(.begin packetPrefix, r₁), (.update text, r₂), (.finalize tag, r₃)] p) :
    ∃ out out' nonce, r₁ = .ok out ∧ r₂ = .ok out' ∧ r₃ = s.finalized gcm nonce text tag := by
  have h₃ : s.Runs ssl gcm available
      ([(.begin packetPrefix, r₁), (.update text, r₂)] ++ [(.finalize tag, r₃)]) p := h
  obtain ⟨_, p₂, h₂, hfinalize⟩ := h₃.exists_reply havail
  have h₂' : s.Runs ssl gcm available ([(.begin packetPrefix, r₁)] ++ [(.update text, r₂)]) p₂ := h₂
  obtain ⟨_, p₁, h₁, hupdate⟩ := h₂'.exists_reply havail
  have h₁' : s.Runs ssl gcm available ([] ++ [(.begin packetPrefix, r₁)]) p₁ := h₁
  obtain ⟨draw, p₀, h₀, hbegun⟩ := h₁'.exists_reply havail
  obtain rfl := h₀.eq_ready
  obtain ⟨out, nonce, heq⟩ := hbegin draw
  obtain ⟨rfl, rfl⟩ := Prod.mk.inj (heq.symm.trans hbegun)
  simp only [Session.reply, if_neg (not_lt.mpr htext)] at hupdate
  obtain ⟨rfl, rfl⟩ := Prod.mk.inj hupdate
  obtain ⟨rfl, -⟩ := Prod.mk.inj hfinalize
  exact ⟨out, _, nonce, rfl, rfl, rfl⟩

/-- The ciphertext of the packet of the byte `a` under a zero key and nonce. -/
def soleText : Bytes := aes256Gcm.encText (ByteArr.zeros 32) (ByteArr.zeros kNonceSize) [0x61]

/-- The tag of this packet. -/
def soleTag : ByteArr 16 :=
  aes256Gcm.tag (ByteArr.zeros 32) (ByteArr.zeros kNonceSize) ((makeHeader : Bytes) ++ []) [0x61]

lemma packetBytes_sole : packetBytes standard.gcm (ByteArr.zeros 32) [] (ByteArr.zeros kNonceSize)
    [0x61] = (makePacketPrefix (ByteArr.zeros kNonceSize) : Bytes) ++ soleText ++ (soleTag : Bytes) :=
  rfl

/-- Calls on an encryptor, and on a decryptor that is given the packet of the byte `a`. -/
def relayCalls : List (Kind × ℕ × Call) :=
  [(.encryptor, 0, .begin []),
    (.decryptor, 0, .begin (makePacketPrefix (ByteArr.zeros kNonceSize))),
    (.encryptor, 0, .update [0x61]), (.decryptor, 0, .update soleText),
    (.encryptor, 0, .finalize []), (.decryptor, 0, .finalize soleTag)]

def relayObjects : List Op :=
  [.construct .encryptor 0 (ByteArr.zeros 32) [], .construct .decryptor 0 (ByteArr.zeros 32) []]

def relay : List Op := relayObjects ++ relayCalls.map fun x => .call x.1 x.2.1 x.2.2

lemma exists_answers {calls : List (Call × Result)} {c₁ c₂ c₃ : Call}
    (h : calls.map Prod.fst = [c₁, c₂, c₃]) :
    ∃ r₁ r₂ r₃, calls = [(c₁, r₁), (c₂, r₂), (c₃, r₃)] := by
  obtain ⟨⟨_, r₁⟩, rest₁, rfl, rfl, h₁⟩ := List.map_eq_cons_iff.mp h
  obtain ⟨⟨_, r₂⟩, rest₂, rfl, rfl, h₂⟩ := List.map_eq_cons_iff.mp h₁
  obtain ⟨⟨_, r₃⟩, rest₃, rfl, rfl, h₃⟩ := List.map_eq_cons_iff.mp h₂
  obtain rfl := List.map_eq_nil_iff.mp h₃
  exact ⟨r₁, r₂, r₃, rfl⟩

/-- The three calls on one of the two objects, with their answers. -/
lemma relay_history {id : ℕ} {c₁ c₂ c₃ : Call}
    (h : ((relayCalls.filter fun x => ((System.after standardLibrary relayObjects).objects x.1
      x.2.1).map Prod.fst = some id).map fun x => x.2.2) = [c₁, c₂, c₃]) :
    ∃ r₁ r₂ r₃, (System.after standardLibrary relay).history id = [(c₁, r₁), (c₂, r₂), (c₃, r₃)] := by
  have hmap := (System.inv_after standardLibrary relayObjects).map_history standardLibrary relayCalls id
  have hnone : ((System.after standardLibrary relayObjects).history id).map Prod.fst = [] := rfl
  have hrelay : System.after standardLibrary relay =
      (relayCalls.map fun x => .call x.1 x.2.1 x.2.2).foldl (System.step standardLibrary)
        (System.after standardLibrary relayObjects) := List.foldl_append
  rw [h, hnone, ← hrelay] at hmap
  exact exists_answers hmap

lemma relay_offered_le (id : ℕ) :
    offered ((System.after standardLibrary relay).history id) ≤ 2 ^ 20 := by
  have htext : soleText.length = 1 := standard_lengths.length_encText _ _ _
  apply (System.offered_history_le standardLibrary relay id).trans
  simp [relay, relayObjects, relayCalls, Op.given, Call.text, htext]

lemma relay_isolated : System.Isolated standardLibrary standard (2 ^ 20) (sessions relay)
    (System.after standardLibrary relay) :=
  System.isolated_after standardLibrary_sound standard_lengths relay relay_offered_le

lemma relay_unfailing (id : ℕ) : Unfailing ((System.after standardLibrary relay).history id) :=
  relay_isolated.available (standardLibrary_available _) id

lemma relay_sessions : (sessions relay)[0]? = some ⟨.encryptor, ByteArr.zeros 32, []⟩ ∧
    (sessions relay)[1]? = some ⟨.decryptor, ByteArr.zeros 32, []⟩ := ⟨rfl, rfl⟩

/-- The encryptor returns from every call. -/
lemma relay_sender : Accepted ((System.after standardLibrary relay).history 0) ∧
    absorbed ((System.after standardLibrary relay).history 0) = [0x61] := by
  obtain ⟨r₁, r₂, r₃, hhistory⟩ : ∃ r₁ r₂ r₃, (System.after standardLibrary relay).history 0 =
      [(.begin [], r₁), (.update [0x61], r₂), (.finalize [], r₃)] := relay_history rfl
  obtain ⟨p, hruns⟩ := relay_isolated.run 0 _ relay_sessions.1 _ List.prefix_rfl (relay_unfailing 0)
  rw [hhistory] at hruns ⊢
  obtain ⟨out, out', nonce, rfl, rfl, rfl⟩ := hruns.in_order (standardLibrary_available _)
    (fun draw => ⟨_, draw, rfl⟩) (by decide)
  constructor
  · simp [Accepted, IsFinalized, Session.finalized]
  · exact absorbed_in_order _ _ _ _ _ _

/-- The decryptor is given the packet, and comes to a decision. -/
lemma relay_receiver : Decided ((System.after standardLibrary relay).history 1) ∧
    received ((System.after standardLibrary relay).history 1) =
      packetBytes standard.gcm (ByteArr.zeros 32) [] (ByteArr.zeros kNonceSize) [0x61] ∧
    absorbed ((System.after standardLibrary relay).history 1) =
      standard.gcm.encText (ByteArr.zeros 32) (ByteArr.zeros kNonceSize) [0x61] := by
  obtain ⟨r₁, r₂, r₃, hhistory⟩ : ∃ r₁ r₂ r₃, (System.after standardLibrary relay).history 1 =
      [(.begin (makePacketPrefix (ByteArr.zeros kNonceSize)), r₁), (.update soleText, r₂),
        (.finalize soleTag, r₃)] := relay_history rfl
  obtain ⟨p, hruns⟩ := relay_isolated.run 1 _ relay_sessions.2 _ List.prefix_rfl (relay_unfailing 1)
  rw [hhistory] at hruns
  have hbegin : ∀ draw, ∃ out nonce, Session.begun ⟨.decryptor, ByteArr.zeros 32, []⟩ draw
      (makePacketPrefix (ByteArr.zeros kNonceSize)) = (.ok out, .active nonce []) := by
    intro draw
    exact ⟨[], _, Session.begun_makePacketPrefix rfl draw _⟩
  have hfits : soleText.length ≤ intMax := by
    have htext : soleText.length = 1 := standard_lengths.length_encText _ _ _
    rw [htext]
    decide
  obtain ⟨out₁, out₂, nonce, hr₁, hr₂, hr₃⟩ :=
    hruns.in_order (standardLibrary_available _) hbegin hfits
  have hends : (Call.finalize soleTag).Ends r₃ := by
    have hkind : (⟨.decryptor, ByteArr.zeros 32, []⟩ : Session).kind = .decryptor := rfl
    rw [hr₃]
    exact Session.ends_finalized hkind nonce soleText soleTag
  subst hr₁ hr₂
  refine ⟨?_, ?_, ?_⟩
  · rw [hhistory]
    exact ⟨(.finalize soleTag, r₃), by simp, hends⟩
  · exact (congrArg received hhistory).trans ((received_in_order hends).trans packetBytes_sole.symm)
  · exact (congrArg absorbed hhistory).trans (absorbed_in_order _ _ _ _ _ _)

/-- The packet is sent, received and accepted. -/
theorem streams_packets_relay :
    sent ((System.after standardLibrary relay).history 0) =
      packetBytes standard.gcm (ByteArr.zeros 32) [] (ByteArr.zeros kNonceSize) [0x61] ∧
    received ((System.after standardLibrary relay).history 1) =
      sent ((System.after standardLibrary relay).history 0) ∧
    Accepted ((System.after standardLibrary relay).history 1) ∧
    sent ((System.after standardLibrary relay).history 1) = [0x61] := by
  have hstreams := streams_packets standardLibrary_sound standard_lengths standard_incremental
    standard_exact relay relay_offered_le
  obtain ⟨haccepted, habsorbed⟩ := relay_sender
  obtain ⟨hdecided, hreceived, habsorbed'⟩ := relay_receiver
  obtain ⟨nonce, ⟨t, hdraws⟩, hsent⟩ :=
    hstreams.sends 0 _ relay_sessions.1 rfl (relay_unfailing 0) haccepted
  obtain rfl : ByteArr.zeros kNonceSize = nonce := Option.some.inj hdraws
  rw [habsorbed] at hsent
  obtain ⟨haccepts, hdelivered⟩ := hstreams.delivers 1 _ relay_sessions.2 rfl
    (standardLibrary_available _) hdecided _ _ hreceived habsorbed'
  exact ⟨hsent, hreceived.trans hsent.symm, haccepts, hdelivered⟩

/-- What it takes to come from an encryptor of a program. -/
def SentByEncryptor (opened : List Session) (sys : System) (key : key256)
    (nonce aad ciphertext : Bytes) (tag : ByteArr 16) : Prop :=
  ∃ id s, opened[id]? = some s ∧ s.kind = .encryptor ∧ s.key = key ∧
    (makeHeader : Bytes) ++ s.aad = aad ∧ Accepted (sys.history id) ∧
    sent (sys.history id) = (makeHeader : Bytes) ++ nonce ++ ciphertext ++ (tag : Bytes)

/-- Tags verify only for packets that encryptors of a program have sent. -/
def Unforged (gcm : AesGcm) (opened : List Session) (sys : System) : Prop :=
  ∀ key nonce aad ciphertext tag, gcm.verify key nonce aad ciphertext tag = true →
    SentByEncryptor opened sys key nonce aad ciphertext tag

/-- Every decryptor of `sys'` that accepts has received what an encryptor of `sys` with the same key
and additional data has sent, and has sent what that encryptor has absorbed. -/
def Authentic (opened opened' : List Session) (sys sys' : System) : Prop :=
  ∀ id s, opened'[id]? = some s → s.kind = .decryptor → Unfailing (sys'.history id) →
    Accepted (sys'.history id) →
    ∃ id' s', opened[id']? = some s' ∧ s'.kind = .encryptor ∧ s'.key = s.key ∧ s'.aad = s.aad ∧
      received (sys'.history id) = sent (sys.history id') ∧
      sent (sys'.history id) = absorbed (sys.history id')

/-- **Integrity of packet streams.**  The two programs may be one. -/
theorem channel_integrity {ssl' : Openssl} {cap' : ℕ} (hs : ssl.Sound prim) (hs' : ssl'.Sound prim)
    (ha : ssl.Available prim cap) (hl : prim.gcm.Lengths) (hi : prim.gcm.Incremental)
    (hdecrypts : ∀ key nonce text, prim.gcm.decText key nonce (prim.gcm.encText key nonce text) = text)
    (ops ops' : List Op) (hcap : ∀ id, offered ((System.after ssl ops).history id) ≤ cap)
    (hcap' : ∀ id, offered ((System.after ssl' ops').history id) ≤ cap')
    (hideal : Unforged prim.gcm (sessions ops) (System.after ssl ops)) :
    Authentic (sessions ops) (sessions ops') (System.after ssl ops) (System.after ssl' ops') := by
  intro id s hopened hkind hclean haccepted
  obtain ⟨p, hruns⟩ := (System.isolated_after hs' hl ops' hcap').run id s hopened _
    List.prefix_rfl hclean
  obtain ⟨nonce, text, tag, hreceived, -, hsent, haccept, -⟩ :=
    (hruns.receives hl hi hkind).finished (decided_of_accepted haccepted)
  obtain ⟨tag', rfl, hverify⟩ := haccept haccepted
  obtain ⟨id', s', hopened', hkind', hkey, haad, haccepted', hsent'⟩ := hideal _ _ _ _ _ hverify
  refine ⟨id', s', hopened', hkind', hkey, List.append_cancel_left haad, ?_, ?_⟩
  · rw [hreceived, hsent', coe_makePacketPrefix]
  -- The packet of the encryptor is that of its text, so its parts are those that were received.
  have h := System.isolated_after hs hl ops hcap
  obtain ⟨p', hruns'⟩ := h.run id' s' hopened' _ List.prefix_rfl (h.available ha id')
  obtain ⟨nonce', -, hpacket⟩ := (hruns'.sends hl hi hkind').exists_packet haccepted'
  rw [hsent', ← coe_makePacketPrefix] at hpacket
  obtain ⟨rfl, rfl, -⟩ := joined_injective (hpacket.trans (packetBytes_eq _ _ _ _ _))
  rw [hsent, ← hkey, hdecrypts]

end Ends

/-! ## One packet -/

section SolePacket

/-- The standard primitives, except that this is the only tag that verifies. -/
def soleTagPrimitives : Primitives where
  gcm :=
    { aes256Gcm with
      verify := fun key nonce aad ciphertext tag => decide (key = ByteArr.zeros 32 ∧
        nonce = ByteArr.zeros kNonceSize ∧ aad = (makeHeader : Bytes) ++ [] ∧
        ciphertext = soleText ∧ tag = soleTag) }
  hkdf := standard.hkdf
  scrypt := standard.scrypt

/-- A library that computes these and draws zeros. -/
def soleTagLibrary : Openssl := .reference soleTagPrimitives fun _ size => ByteArr.zeros size

lemma soleTagLibrary_sound : soleTagLibrary.Sound soleTagPrimitives := Openssl.reference_sound _ _

lemma soleTagPrimitives_lengths : soleTagPrimitives.gcm.Lengths where
  length_encText := standard_lengths.length_encText
  length_decText := standard_lengths.length_decText

lemma soleTagPrimitives_incremental : soleTagPrimitives.gcm.Incremental where
  encText_append := standard_incremental.encText_append
  decText_append := standard_incremental.decText_append

/-- The encryptor that sends the packet. -/
def sendSole : List Op :=
  [.construct .encryptor 0 (ByteArr.zeros 32) [], .call .encryptor 0 (.begin []),
    .call .encryptor 0 (.update [0x61]), .call .encryptor 0 (.finalize [])]

/-- A decryptor that receives it, and one that receives another tag. -/
def receiveSole : List Op :=
  [.construct .decryptor 0 (ByteArr.zeros 32) [], .construct .decryptor 1 (ByteArr.zeros 32) [],
    .call .decryptor 0 (.begin (makePacketPrefix (ByteArr.zeros kNonceSize))),
    .call .decryptor 1 (.begin (makePacketPrefix (ByteArr.zeros kNonceSize))),
    .call .decryptor 0 (.update soleText), .call .decryptor 1 (.update soleText),
    .call .decryptor 0 (.finalize soleTag), .call .decryptor 1 (.finalize [])]

lemma soleHistory : Accepted ((System.after soleTagLibrary sendSole).history 0) ∧
    absorbed ((System.after soleTagLibrary sendSole).history 0) = [0x61] := by
  refine ⟨?_, rfl⟩
  have hany : ((System.after soleTagLibrary sendSole).history 0).any IsFinalized = true := rfl
  simpa [Accepted] using hany

/-- It is the only packet there is. -/
lemma soleTag_unforged : Unforged soleTagPrimitives.gcm (sessions sendSole)
    (System.after soleTagLibrary sendSole) := by
  intro key nonce aad ciphertext tag hverify
  obtain ⟨rfl, rfl, rfl, rfl, rfl⟩ := of_decide_eq_true hverify
  obtain ⟨haccepted, habsorbed⟩ := soleHistory
  have h := System.isolated_after soleTagLibrary_sound soleTagPrimitives_lengths sendSole fun id =>
    System.offered_history_le soleTagLibrary sendSole id
  have hclean := h.available (Openssl.reference_available _ _ _) 0
  obtain ⟨p, hruns⟩ := h.run 0 _ rfl _ List.prefix_rfl hclean
  obtain ⟨nonce, ⟨t, hdraws⟩, hsent⟩ := (hruns.sends soleTagPrimitives_lengths
    soleTagPrimitives_incremental rfl).exists_packet haccepted
  obtain rfl : ByteArr.zeros kNonceSize = nonce := Option.some.inj hdraws
  refine ⟨0, _, rfl, rfl, rfl, rfl, haccepted, ?_⟩
  rw [hsent, habsorbed, packetBytes, coe_makePacketPrefix]
  rfl

theorem channel_integrity_sole :
    Authentic (sessions sendSole) (sessions receiveSole) (System.after soleTagLibrary sendSole)
      (System.after soleTagLibrary receiveSole) :=
  channel_integrity soleTagLibrary_sound soleTagLibrary_sound (Openssl.reference_available _ _ _)
    soleTagPrimitives_lengths soleTagPrimitives_incremental
    standard_exact.correct.decText_encText sendSole receiveSole
    (System.offered_history_le soleTagLibrary sendSole)
    (System.offered_history_le soleTagLibrary receiveSole) soleTag_unforged

end SolePacket

end SecureKit.Packet
