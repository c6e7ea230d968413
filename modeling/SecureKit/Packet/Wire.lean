import SecureKit.Base.Kdf
import SecureKit.Packet.Stream

/-!
# One packet, three implementations

The bytes of an `SKT1` packet as a function of key, nonce, additional data and plaintext
(`packetBytes`), and the three pieces of code that make or take them: the incremental encryptor, the
incremental decryptor, and the one-shot functions.

`Keyed` is the relation between an active object and the text it has absorbed, and each method has
one specification in terms of it.  The text reaches the context in pieces, cut by the caller;
`outcome_updateAll` is the induction over the pieces, and says that only their concatenation
matters.

## What a method does with the text

`Keyed dir key aad nonce text impl` says that the context of the object was given key and nonce, and
has absorbed the header of the packet, the additional data and `text`.  `begin` establishes it with
the empty text, `update` appends its piece and puts out what `cryptPiece` adds, and `finalize` makes
or tests the tag of all of it.  A call of the library that is not answered leaves the relation, and
the specifications say what is thrown then.

`outcome_encryptPieces` and `outcome_decryptPieces` are the whole uses of the two classes, and
`Packet.OneShot` compares them with `encrypt` and `decrypt`.  The cipher is used through
`AesGcm.Incremental`, which makes the output for a piece depend on the text before it, and a library
that is `Sound` answers with it or not at all.
-/

namespace SecureKit.Packet

open ByteString Effect Evp

/-! ## The packet -/

/-- The packet of a plaintext under a nonce. -/
def packetBytes (gcm : AesGcm) (key : key256) (aad : Bytes) (nonce : ByteArr kNonceSize)
    (plaintext : Bytes) : Bytes :=
  (makePacketPrefix nonce : Bytes) ++ gcm.encText key nonce plaintext ++
    (gcm.tag key nonce ((makeHeader : Bytes) ++ aad) plaintext : Bytes)

/-! ## Programs that use the classes -/

section Programs

variable (ssl : Openssl)

/-- `update` with one piece after the other, and what comes out of all. -/
def updateAll (update : Bytes → Eff Object Bytes) : List Bytes → Eff Object Bytes
  | [] => pure []
  | piece :: pieces => do
    let out ← update piece
    let rest ← updateAll update pieces
    return out ++ rest

/-- A whole use of a `packet_encryptor`: everything it returns, one behind the other. -/
def encryptPieces (pieces : List Bytes) (key : key256) (aad : Bytes) : Eff Lib Bytes := do
  let encryptor ← Impl.new key aad
  withObject encryptor do
    let packetPrefix ← PacketEncryptor.begin ssl
    let ciphertext ← updateAll (PacketEncryptor.update ssl) pieces
    let tag ← PacketEncryptor.finalize ssl
    return packetPrefix ++ ciphertext ++ tag

/-- A whole use of a `packet_decryptor`: what `update` and what `finalize` returns. -/
def decryptPieces (packetPrefix : Bytes) (pieces : List Bytes) (tag : Bytes) (key : key256)
    (aad : Bytes) : Eff Lib (Bytes × Bytes) := do
  let decryptor ← Impl.new key aad
  withObject decryptor do
    PacketDecryptor.begin ssl packetPrefix
    let plaintext ← updateAll (PacketDecryptor.update ssl) pieces
    let trailing ← PacketDecryptor.finalize ssl tag
    return (plaintext, trailing)

end Programs

/-! ## Text in pieces -/

/-- What a cipher makes of a text. -/
def cryptText (gcm : AesGcm) : Direction → key256 → (nonce text : Bytes) → Bytes
  | .encrypt => gcm.encText
  | .decrypt => gcm.decText

section CryptText

variable {gcm : AesGcm} (dir : Direction) (key : key256) (nonce : Bytes)

lemma length_cryptText (hl : gcm.Lengths) (text : Bytes) :
    (cryptText gcm dir key nonce text).length = text.length := by
  cases dir with
  | encrypt => exact hl.length_encText _ _ _
  | decrypt => exact hl.length_decText _ _ _

lemma cryptText_append (hi : gcm.Incremental) (front back : Bytes) :
    cryptText gcm dir key nonce front <+: cryptText gcm dir key nonce (front ++ back) := by
  cases dir with
  | encrypt => exact hi.encText_append _ _ _ _
  | decrypt => exact hi.decText_append _ _ _ _

/-- What a piece adds to the output for the text before it. -/
def cryptPiece (gcm : AesGcm) (dir : Direction) (key : key256) (nonce text piece : Bytes) : Bytes :=
  (cryptText gcm dir key nonce (text ++ piece)).drop text.length

lemma length_cryptPiece (hl : gcm.Lengths) (text piece : Bytes) :
    (cryptPiece gcm dir key nonce text piece).length = piece.length := by
  rw [cryptPiece, List.length_drop, length_cryptText dir key nonce hl, List.length_append,
    Nat.add_sub_cancel_left]

/-- **Pieces compose**: what two pieces add one after the other is what they add together. -/
lemma cryptPiece_append (hl : gcm.Lengths) (hi : gcm.Incremental) (text front back : Bytes) :
    cryptPiece gcm dir key nonce text front ++ cryptPiece gcm dir key nonce (text ++ front) back =
      cryptPiece gcm dir key nonce text (front ++ back) := by
  obtain ⟨rest, hrest⟩ := cryptText_append dir key nonce hi (text ++ front) back
  have hlen : (cryptText gcm dir key nonce (text ++ front)).length = (text ++ front).length :=
    length_cryptText dir key nonce hl _
  have hle : text.length ≤ (cryptText gcm dir key nonce (text ++ front)).length := by
    rw [hlen, List.length_append]
    exact Nat.le_add_right _ _
  unfold cryptPiece
  rw [← List.append_assoc text front back, ← hrest, ← hlen, List.drop_left,
    List.drop_append_of_le_length hle]

end CryptText

/-! ## What the methods do -/

/-- The object is active, and its context has absorbed the header, the additional data and the given
text. -/
def Keyed (dir : Direction) (key : key256) (aad : Bytes) (nonce : ByteArr kNonceSize)
    (text : Bytes) (impl : Impl) : Prop :=
  impl.phase = .active ∧ ∃ ctx, impl.context = some ctx ∧ stageOf ctx =
    some (.keyed { dir, key, nonce, aad := (makeHeader : Bytes) ++ aad, text })

section Methods

variable {ssl : Openssl} {prim : Primitives} {cap : ℕ} {impl : Impl} {lib : Lib}
  {key : key256} {aad text : Bytes} {nonce : ByteArr kNonceSize}

/-- The three calls of `initialize_encrypt_context` and its sibling, in the documented order. -/
lemma outcome_initializeContext (hs : ssl.Sound prim) {dir : Direction} {s : CipherState}
    {ctx : CipherCtx} {Q : Bool → CipherState → Prop} {E : Error → CipherState → Prop}
    (hctx : s.context = some ctx) (hstage : stageOf ctx = some .fresh)
    (hok : ∀ ctx' lib', stageOf ctx' = some (.keyed { dir, key, nonce }) →
      Q true { context := some ctx', lib := lib' })
    (hfail : ¬ ssl.Available prim cap → ∀ s', Q false s') :
    Outcome (initializeContext ssl dir key nonce) s Q E := by
  simp only [initializeContext, outcome_bind, outcome_pure]
  have hnonce : (Stage.sized dir kNonceSize).next (.initKey dir key nonce) =
      some (.keyed { dir, key, nonce }) := by simp [Stage.next]
  -- A call that fails is followed by the others, about which nothing needs to be known.
  have hrest : ∀ (c : CipherCall) (s' : CipherState) (Q' : Option Bytes → CipherState → Prop),
      (∀ answer s'', Q' answer s'') → Outcome (cipher ssl c) s' Q' E := by
    intro c s' Q' hQ
    rw [cipher, outcome_modifyGet]
    exact hQ _ _
  apply outcome_cipher hs hctx hstage rfl (Nat.zero_le _) (Nat.zero_le _)
  · intro out₁ ctx₁ lib₁ _ h₁
    apply outcome_cipher hs rfl h₁ rfl (Nat.zero_le _) (Nat.zero_le _)
    · intro out₂ ctx₂ lib₂ _ h₂
      apply outcome_cipher hs rfl h₂ hnonce (Nat.zero_le _) (Nat.zero_le _)
      · exact fun out₃ ctx₃ lib₃ _ h₃ => hok ctx₃ lib₃ h₃
      · intro ctx₃ lib₃ hcause
        exact hfail (hcause.resolve_left (by simp [AesGcm.expected])) _
    · intro ctx₂ lib₂ hcause
      have havail := hcause.resolve_left (by simp [AesGcm.expected])
      apply hrest
      exact fun answer s' => hfail havail s'
  · intro ctx₁ lib₁ hcause
    have havail := hcause.resolve_left (by simp [AesGcm.expected])
    apply hrest
    intro second s₂
    apply hrest
    exact fun answer s' => hfail havail s'

/-- What both `begin()` do with a nonce makes the object active. -/
lemma outcome_start (hs : ssl.Sound prim) {dir : Direction} {s : PacketState}
    {Q : Unit → PacketState → Prop} {E : Error → PacketState → Prop}
    (hok : ∀ impl' lib', Keyed dir s.impl.key s.impl.aad nonce [] impl' → Q () ⟨impl', lib'⟩)
    (hfail : ¬ ssl.Available prim cap → ∀ s', E cipherFailure s') :
    Outcome (start ssl (initializeContext ssl dir s.impl.key nonce) makeHeader) s Q E := by
  simp only [start, outcome_bind, outcome_onContext, outcome_throwIf, outcome_get,
    outcome_activate]
  refine outcome_makeContext (fun lib₁ => ?_) fun h s' => hfail h _
  apply outcome_initializeContext hs rfl stageOf_nil
  · intro ctx₂ lib₂ h₂
    refine ⟨fun h => absurd h (by simp), fun _ => ?_⟩
    refine outcome_updateAad hs rfl h₂ rfl (fun _ ctx₃ lib₃ h₃ => ?_)
      (fun hlong => absurd hlong (by decide)) fun h s' => hfail h _
    refine outcome_updateAad hs rfl h₃ rfl (fun _ ctx₄ lib₄ h₄ => ?_)
      (fun hlong => absurd s.impl.aad_le (not_le.mpr hlong)) fun h s' => hfail h _
    exact hok _ _ ⟨rfl, ctx₄, rfl, h₄⟩
  · exact fun h s' => ⟨fun _ => hfail h _, fun hnot => absurd rfl hnot⟩

lemma outcome_begin_encryptor (hs : ssl.Sound prim) (hready : impl.phase = .ready)
    {Q : Bytes → Object → Prop} {E : Error → Object → Prop}
    (hok : ∀ (nonce : ByteArr kNonceSize) impl' lib', ssl.rand lib.clock kNonceSize = some nonce →
      Keyed .encrypt impl.key impl.aad nonce [] impl' →
      Q (makePacketPrefix nonce) ⟨some impl', lib'⟩)
    (hfail : ¬ ssl.Available prim cap → ∀ o, E cipherFailure o) :
    Outcome (PacketEncryptor.begin ssl) ⟨some impl, lib⟩ Q E := by
  simp only [PacketEncryptor.begin, outcome_onImpl_some, outcome_bind, outcome_requirePhase,
    outcome_onLib, outcome_call, outcome_get, outcome_pure]
  refine ⟨fun h => absurd hready h, fun _ => ?_⟩
  cases hdraw : ssl.rand lib.clock kNonceSize with
  | none => exact hfail (fun ha => ha.rand _ _ (by decide) hdraw) _
  | some nonce =>
    rw [outcome_orThrow_some]
    apply outcome_start hs
    · exact fun impl' lib' hkeyed => hok nonce impl' lib' hdraw hkeyed
    · exact fun h s' => hfail h _

lemma outcome_begin_decryptor (hs : ssl.Sound prim) (hready : impl.phase = .ready)
    {Q : Unit → Object → Prop} {E : Error → Object → Prop}
    (hok : ∀ impl' lib', Keyed .decrypt impl.key impl.aad nonce [] impl' →
      Q () ⟨some impl', lib'⟩)
    (hfail : ¬ ssl.Available prim cap → ∀ o, E cipherFailure o) :
    Outcome (PacketDecryptor.begin ssl (makePacketPrefix nonce)) ⟨some impl, lib⟩ Q E := by
  simp only [PacketDecryptor.begin, outcome_onImpl_some, outcome_bind, outcome_requirePhase,
    outcome_get]
  refine ⟨fun h => absurd hready h, fun _ => ?_⟩
  apply outcome_requireValidPrefix
  · intro nonce' _
    rw [take_makePacketPrefix, drop_makePacketPrefix]
    apply outcome_start hs
    · exact fun impl' lib' hkeyed => hok impl' lib' hkeyed
    · exact fun h s' => hfail h _
  · exact fun hbad => absurd rfl (hbad nonce)

/-- Text of any length that fits an `int` is absorbed, and what it adds to the output comes out. -/
lemma outcome_cryptChunk (hs : ssl.Sound prim) (hl : prim.gcm.Lengths) {dir : Direction}
    {name : String} {piece : Bytes} {Q : Bytes → PacketState → Prop}
    {E : Error → PacketState → Prop} (hkeyed : Keyed dir key aad nonce text impl)
    (hcap : (text ++ piece).length ≤ cap)
    (hok : piece.length ≤ intMax → ∀ impl' lib', Keyed dir key aad nonce (text ++ piece) impl' →
      Q (cryptPiece prim.gcm dir key nonce text piece) ⟨impl', lib'⟩)
    (hlong : intMax < piece.length → ∀ s', E (updateLimitError name) s')
    (hfail : ¬ ssl.Available prim cap → ∀ s', E cipherFailure s') :
    Outcome (onContext (cryptChunk ssl dir name piece)) ⟨impl, lib⟩ Q E := by
  obtain ⟨hactive, ctx, hctx, hstage⟩ := hkeyed
  have hlen := length_cryptPiece dir key nonce hl text piece
  simp only [outcome_onContext, cryptChunk, outcome_bind, outcome_intSize]
  refine ⟨fun h => hlong h _, fun hle => ?_⟩
  by_cases hnil : piece = []
  · subst hnil
    have hout : cryptPiece prim.gcm dir key nonce text [] = [] := List.length_eq_zero_iff.mp hlen
    rw [hout, List.append_nil] at hok
    rw [List.length_nil, if_pos rfl]
    exact hok hle _ _ ⟨hactive, ctx, hctx, hstage⟩
  · have hne : piece.length ≠ 0 := fun h => hnil (List.length_eq_zero_iff.mp h)
    simp only [hne, if_false, outcome_bind, outcome_throwIf, outcome_pure]
    have hnext : (Stage.keyed { dir, key, nonce, aad := (makeHeader : Bytes) ++ aad, text }).next
        (.update dir piece) = some (.keyed
          { dir, key, nonce, aad := (makeHeader : Bytes) ++ aad, text := text ++ piece }) := by
      simp [Stage.next]
    have hexp : prim.gcm.expected
        (.keyed { dir, key, nonce, aad := (makeHeader : Bytes) ++ aad, text })
        (.update dir piece) = some (cryptPiece prim.gcm dir key nonce text piece) := by
      cases dir <;> rfl
    refine outcome_require hs hctx hstage hnext hcap hle hexp (fun ctx' lib' hstage' => ?_)
      fun h s' => hfail h _
    exact ⟨fun h => absurd hlen h, fun _ => hok hle _ _ ⟨hactive, ctx', rfl, hstage'⟩⟩

lemma outcome_finalize_encryptor (hs : ssl.Sound prim) {Q : Bytes → Object → Prop}
    {E : Error → Object → Prop} (hkeyed : Keyed .encrypt key aad nonce text impl)
    (hcap : text.length ≤ cap)
    (hok : ∀ o, Q (prim.gcm.tag key nonce ((makeHeader : Bytes) ++ aad) text) o)
    (hfail : ¬ ssl.Available prim cap → ∀ o, E cipherFailure o) :
    Outcome (PacketEncryptor.finalize ssl) ⟨some impl, lib⟩ Q E := by
  obtain ⟨hactive, ctx, hctx, hstage⟩ := hkeyed
  simp only [PacketEncryptor.finalize, outcome_onImpl_some, outcome_bind, outcome_requirePhase,
    outcome_onContext, outcome_throwIf, outcome_finish, outcome_pure]
  refine ⟨fun h => absurd hactive h, fun _ => ?_⟩
  refine outcome_require hs hctx hstage rfl hcap (Nat.zero_le _) rfl (fun ctx₁ lib₁ h₁ => ?_)
    fun h s' => hfail h _
  refine ⟨fun h => absurd rfl h, fun _ => ?_⟩
  refine outcome_require hs rfl h₁ rfl hcap (Nat.zero_le _) rfl (fun ctx₂ lib₂ h₂ => ?_)
    fun h s' => hfail h _
  have htag : ByteArr.ofBytes kTagSize
      (prim.gcm.tag key nonce ((makeHeader : Bytes) ++ aad) text : Bytes) =
      prim.gcm.tag key nonce ((makeHeader : Bytes) ++ aad) text := ByteArr.ofBytes_coe _
  rw [htag]
  exact hok _

/-- The tag decides, unless the library is not available. -/
lemma outcome_finalize_decryptor (hs : ssl.Sound prim) {tag : ByteArr kTagSize}
    {Q : Bytes → Object → Prop} {E : Error → Object → Prop}
    (hkeyed : Keyed .decrypt key aad nonce text impl) (hcap : text.length ≤ cap)
    (hok : prim.gcm.verify key nonce ((makeHeader : Bytes) ++ aad) text tag = true → ∀ o, Q [] o)
    (htag : prim.gcm.verify key nonce ((makeHeader : Bytes) ++ aad) text tag = false ∨
      ¬ ssl.Available prim cap → ∀ o, E authenticationFailed o)
    (hfail : ¬ ssl.Available prim cap → ∀ o, E cipherFailure o) :
    Outcome (PacketDecryptor.finalize ssl tag) ⟨some impl, lib⟩ Q E := by
  obtain ⟨hactive, ctx, hctx, hstage⟩ := hkeyed
  simp only [PacketDecryptor.finalize, outcome_onImpl_some, outcome_bind, outcome_requirePhase,
    outcome_ite, outcome_onContext, outcome_finish, outcome_throw]
  refine ⟨fun h => absurd hactive h, fun _ => ⟨fun h => absurd (ByteArr.length_coe tag) h,
    fun _ => ?_⟩⟩
  -- The tag is handed over, and the last call compares it.
  refine outcome_require hs hctx hstage rfl hcap (Nat.zero_le _) rfl (fun ctx₁ lib₁ h₁ => ?_)
    fun h s' => hfail h _
  refine outcome_cipher hs rfl h₁ rfl hcap (Nat.zero_le _) (fun out ctx₂ lib₂ hexp _ => ?_)
    fun ctx₂ lib₂ hcause => ?_
  · simp only [AesGcm.expected, ByteArr.ofBytes_coe] at hexp
    cases hverify : prim.gcm.verify key nonce ((makeHeader : Bytes) ++ aad) text tag with
    | false =>
      rw [hverify] at hexp
      cases hexp
    | true =>
      rw [hverify] at hexp
      cases hexp
      simp only [outcome_bind, outcome_throwIf, outcome_finish, outcome_pure]
      exact ⟨fun h => absurd h (by simp), fun _ => hok hverify _⟩
  · simp only [AesGcm.expected, ByteArr.ofBytes_coe] at hcause
    simp only [outcome_bind, outcome_finish, outcome_throw]
    apply htag
    refine hcause.imp_left fun hnone => ?_
    by_contra hcon
    rw [Bool.not_eq_false] at hcon
    rw [hcon] at hnone
    cases hnone

end Methods

/-! ## The three implementations -/

section Implementations

variable {ssl : Openssl} {prim : Primitives} {cap : ℕ} {lib : Lib} {key : key256} {aad : Bytes}
  {nonce : ByteArr kNonceSize}

/-- A method that absorbs the text it is given, and puts out what it adds. -/
def Absorbs (ssl : Openssl) (prim : Primitives) (cap : ℕ) (dir : Direction) (name : String)
    (update : Bytes → Eff Object Bytes) : Prop :=
  ∀ {key : key256} {aad text piece : Bytes} {nonce : ByteArr kNonceSize} {impl : Impl} {lib : Lib}
    {Q : Bytes → Object → Prop} {E : Error → Object → Prop},
    Keyed dir key aad nonce text impl → (text ++ piece).length ≤ cap →
    (piece.length ≤ intMax → ∀ impl' lib', Keyed dir key aad nonce (text ++ piece) impl' →
      Q (cryptPiece prim.gcm dir key nonce text piece) ⟨some impl', lib'⟩) →
    (intMax < piece.length → ∀ o, E (updateLimitError name) o) →
    (¬ ssl.Available prim cap → ∀ o, E cipherFailure o) →
    Outcome (update piece) ⟨some impl, lib⟩ Q E

lemma absorbs_encryptor (hs : ssl.Sound prim) (hl : prim.gcm.Lengths) :
    Absorbs ssl prim cap .encrypt "plaintext" (PacketEncryptor.update ssl) := by
  intro key aad text piece nonce impl lib Q E hkeyed hcap hok hlong hfail
  simp only [PacketEncryptor.update, outcome_onImpl_some, outcome_bind, outcome_requirePhase]
  refine ⟨fun h => absurd hkeyed.1 h, fun _ => ?_⟩
  exact outcome_cryptChunk hs hl hkeyed hcap hok (fun h s' => hlong h _) fun h s' => hfail h _

lemma absorbs_decryptor (hs : ssl.Sound prim) (hl : prim.gcm.Lengths) :
    Absorbs ssl prim cap .decrypt "ciphertext" (PacketDecryptor.update ssl) := by
  intro key aad text piece nonce impl lib Q E hkeyed hcap hok hlong hfail
  simp only [PacketDecryptor.update, outcome_onImpl_some, outcome_bind, outcome_requirePhase]
  refine ⟨fun h => absurd hkeyed.1 h, fun _ => ?_⟩
  exact outcome_cryptChunk hs hl hkeyed hcap hok (fun h s' => hlong h _) fun h s' => hfail h _

/-- **All pieces** are absorbed, and only their concatenation matters. -/
lemma outcome_updateAll (hl : prim.gcm.Lengths) (hi : prim.gcm.Incremental) {dir : Direction}
    {name : String} {update : Bytes → Eff Object Bytes}
    (hupdate : Absorbs ssl prim cap dir name update) {pieces : List Bytes} {text : Bytes}
    {impl : Impl} {Q : Bytes → Object → Prop} {E : Error → Object → Prop}
    (hkeyed : Keyed dir key aad nonce text impl) (hcap : (text ++ pieces.flatten).length ≤ cap)
    (hok : (∀ piece ∈ pieces, piece.length ≤ intMax) → ∀ impl' lib',
      Keyed dir key aad nonce (text ++ pieces.flatten) impl' →
      Q (cryptPiece prim.gcm dir key nonce text pieces.flatten) ⟨some impl', lib'⟩)
    (hlong : (∃ piece ∈ pieces, intMax < piece.length) → ∀ o, E (updateLimitError name) o)
    (hfail : ¬ ssl.Available prim cap → ∀ o, E cipherFailure o) :
    Outcome (updateAll update pieces) ⟨some impl, lib⟩ Q E := by
  induction pieces generalizing text impl lib Q with
  | nil =>
    have hout : cryptPiece prim.gcm dir key nonce text [] = [] :=
      List.length_eq_zero_iff.mp (length_cryptPiece dir key nonce hl text [])
    rw [updateAll, outcome_pure]
    rw [List.flatten_nil, hout, List.append_nil] at hok
    exact hok (by simp) _ _ hkeyed
  | cons piece pieces ih =>
    simp only [updateAll, outcome_bind, outcome_pure]
    rw [List.flatten_cons, ← List.append_assoc] at hcap
    have hle : (text ++ piece).length ≤ cap := by
      rw [List.length_append] at hcap
      omega
    -- The first piece, and then the others from where it has led.
    apply hupdate hkeyed hle
    · intro hpiece impl₁ lib₁ hkeyed₁
      apply ih hkeyed₁ hcap
      · intro hpieces impl₂ lib₂ hkeyed₂
        rw [cryptPiece_append dir key nonce hl hi, ← List.flatten_cons]
        rw [List.append_assoc, ← List.flatten_cons] at hkeyed₂
        refine hok (fun p hp => ?_) impl₂ lib₂ hkeyed₂
        rcases List.mem_cons.mp hp with rfl | hp
        · exact hpiece
        · exact hpieces p hp
      · rintro ⟨p, hp, hbig⟩ o
        exact hlong ⟨p, List.mem_cons_of_mem _ hp, hbig⟩ o
    · exact fun hbig o => hlong ⟨piece, List.mem_cons_self, hbig⟩ o
    · exact hfail

/-- What a piece adds in front of which nothing was absorbed. -/
lemma cryptPiece_nil (gcm : AesGcm) (dir : Direction) (key : key256) (nonce piece : Bytes) :
    cryptPiece gcm dir key nonce [] piece = cryptText gcm dir key nonce piece := by
  rw [cryptPiece, List.nil_append, List.length_nil, List.drop_zero]

/-- **The incremental encryptor** returns the packet of the concatenated pieces under the nonce it
draws.  It throws only for additional data or pieces that are too long, and where the library is
not available. -/
theorem outcome_encryptPieces (hs : ssl.Sound prim) (hl : prim.gcm.Lengths)
    (hi : prim.gcm.Incremental) {pieces : List Bytes} {Q : Bytes → Lib → Prop}
    {E : Error → Lib → Prop} (hcap : pieces.flatten.length ≤ cap)
    (hok : ∀ nonce : ByteArr kNonceSize, ssl.rand lib.clock kNonceSize = some nonce →
      aad.length ≤ intMax → ∀ lib', Q (packetBytes prim.gcm key aad nonce pieces.flatten) lib')
    (hlong : intMax < aad.length → ∀ lib', E (updateLimitError "AAD") lib')
    (hbig : (∃ piece ∈ pieces, intMax < piece.length) →
      ∀ lib', E (updateLimitError "plaintext") lib')
    (hfail : ¬ ssl.Available prim cap → ∀ lib', E cipherFailure lib') :
    Outcome (encryptPieces ssl pieces key aad) lib Q E := by
  simp only [encryptPieces, outcome_bind, outcome_withObject, outcome_pure]
  refine outcome_new (fun haad => ?_) fun h => hlong h lib
  refine outcome_begin_encryptor hs rfl (fun nonce impl₁ lib₁ hdraw hkeyed₁ => ?_)
    fun h o => hfail h _
  apply outcome_updateAll hl hi (absorbs_encryptor hs hl) hkeyed₁ hcap
  · intro _ impl₂ lib₂ hkeyed₂
    rw [List.nil_append] at hkeyed₂
    refine outcome_finalize_encryptor hs hkeyed₂ hcap (fun o => ?_) fun h o => hfail h _
    rw [cryptPiece_nil]
    exact hok nonce hdraw haad _
  · exact fun h o => hbig h _
  · exact fun h o => hfail h _

/-- **The incremental decryptor** returns the decrypted text and an empty tail if the tag verifies,
and reports a failed authentication otherwise. -/
theorem outcome_decryptPieces (hs : ssl.Sound prim) (hl : prim.gcm.Lengths)
    (hi : prim.gcm.Incremental) {pieces : List Bytes} {tag : ByteArr kTagSize}
    {Q : Bytes × Bytes → Lib → Prop} {E : Error → Lib → Prop} (hcap : pieces.flatten.length ≤ cap)
    (hok : prim.gcm.verify key nonce ((makeHeader : Bytes) ++ aad) pieces.flatten tag = true →
      ∀ lib', Q (prim.gcm.decText key nonce pieces.flatten, []) lib')
    (hlong : intMax < aad.length → ∀ lib', E (updateLimitError "AAD") lib')
    (hbig : (∃ piece ∈ pieces, intMax < piece.length) →
      ∀ lib', E (updateLimitError "ciphertext") lib')
    (htag : prim.gcm.verify key nonce ((makeHeader : Bytes) ++ aad) pieces.flatten tag = false ∨
      ¬ ssl.Available prim cap → ∀ lib', E authenticationFailed lib')
    (hfail : ¬ ssl.Available prim cap → ∀ lib', E cipherFailure lib') :
    Outcome (decryptPieces ssl (makePacketPrefix nonce) pieces tag key aad) lib Q E := by
  simp only [decryptPieces, outcome_bind, outcome_withObject, outcome_pure]
  refine outcome_new (fun _ => ?_) fun h => hlong h lib
  refine outcome_begin_decryptor hs rfl (fun impl₁ lib₁ hkeyed₁ => ?_) fun h o => hfail h _
  apply outcome_updateAll hl hi (absorbs_decryptor hs hl) hkeyed₁ hcap
  · intro _ impl₂ lib₂ hkeyed₂
    rw [List.nil_append] at hkeyed₂
    refine outcome_finalize_decryptor hs hkeyed₂ hcap (fun hverify o => ?_) (fun h o => htag h _)
      fun h o => hfail h _
    rw [cryptPiece_nil]
    exact hok hverify _
  · exact fun h o => hbig h _
  · exact fun h o => hfail h _

end Implementations

end SecureKit.Packet
