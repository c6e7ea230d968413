import SecureKit.Packet.Wire

/-!
# `encrypt` and `decrypt`

The one-shot functions against the packets of `SecureKit.Packet.Wire`.

* `packet_chunking` compares them with the incremental classes: however a text is cut, the packet is
  the same, and however the ciphertext of a packet is cut, the text comes back.
* `decrypt_encryptPieces` is about texts that are longer than an `int` can say.  The classes take
  such a text in pieces, the one-shot functions refuse it.
* `decrypt_exact` describes the byte strings `decrypt` accepts, and with which error it refuses the
  others.

## What is assumed

`Openssl.Sound` and `AesGcm.Lengths` stand behind everything: the library answers with what the
primitives compute, and ciphertexts are as long as plaintexts.  Further there are
`AesGcm.Incremental`, that pieces are encrypted like the whole, and `AesGcm.Correct`, that what was
encrypted verifies and decrypts.  Only the inverse needs `AesGcm.Exact`: what verifies was
encrypted.

The library is `Available` up to the length of the text, and it draws a nonce.  Then there is one
packet for every cut, since the nonce is drawn before the text is given.

## The limit

`decrypt` hands the whole ciphertext to one call of the library and refuses it where its length does
not fit an `int`.  `decrypt_refuses_streamed` is such a packet, made by the encryptor of two pieces,
the second of one byte.

A `joined` byte string has the parts of a packet in order, and `decrypt_exact` asks for the header first
and for the tag then, as the source does: a wrong header or too few bytes are an invalid packet,
and everything else that is refused is a failed authentication.
-/

namespace SecureKit.Packet

open ByteString Effect Evp

/-! ## The shape of a packet -/

section Shape

variable {nonce nonce' : ByteArr kNonceSize} {c c' : Bytes} {tag tag' : ByteArr kTagSize}

/-- A packet cut into its parts. -/
def joined (nonce : ByteArr kNonceSize) (c : Bytes) (tag : ByteArr kTagSize) : Bytes :=
  (makePacketPrefix nonce : Bytes) ++ c ++ (tag : Bytes)

@[simp] lemma length_joined : (joined nonce c tag).length = c.length + kOverhead := by
  simp only [joined, List.length_append, ByteArr.length_coe, kOverhead]
  omega

lemma take_joined : (joined nonce c tag).take kPrefixSize = makePacketPrefix nonce := by
  rw [joined, List.append_assoc]
  exact List.take_left' (ByteArr.length_coe _)

lemma mid_joined : ((joined nonce c tag).drop kPrefixSize).take
    ((joined nonce c tag).length - kOverhead) = c := by
  have hdrop : (joined nonce c tag).drop kPrefixSize = c ++ (tag : Bytes) := by
    rw [joined, List.append_assoc]
    exact List.drop_left' (ByteArr.length_coe _)
  rw [hdrop, length_joined, Nat.add_sub_cancel, List.take_left]

lemma drop_joined : (joined nonce c tag).drop ((joined nonce c tag).length - kTagSize) = tag := by
  have hlen : (joined nonce c tag).length - kTagSize =
      ((makePacketPrefix nonce : Bytes) ++ c).length := by
    simp only [joined, List.length_append, ByteArr.length_coe]
    omega
  rw [hlen, joined, List.drop_left]

/-- The parts of a packet can be read off it. -/
lemma joined_injective (h : joined nonce c tag = joined nonce' c' tag') :
    nonce = nonce' ∧ c = c' ∧ tag = tag' := by
  obtain ⟨hfront, htag⟩ := List.append_inj' h (by simp)
  obtain ⟨hpre, hc⟩ := List.append_inj hfront (by simp)
  rw [coe_makePacketPrefix, coe_makePacketPrefix] at hpre
  exact ⟨ByteArr.ext (List.append_cancel_left hpre), hc, ByteArr.ext htag⟩

/-- The byte strings that have the shape of a packet. -/
lemma exists_joined_iff (b : Bytes) :
    (∃ nonce c tag, b = joined nonce c tag) ↔
      kOverhead ≤ b.length ∧ b.take kHeaderSize = makeHeader := by
  constructor
  · rintro ⟨nonce, c, tag, rfl⟩
    refine ⟨by rw [length_joined]; exact Nat.le_add_left _ _, ?_⟩
    rw [joined, coe_makePacketPrefix, List.append_assoc, List.append_assoc]
    exact List.take_left' (ByteArr.length_coe _)
  · rintro ⟨hlen, hheader⟩
    simp only [kOverhead, kPrefixSize, kHeaderSize, kNonceSize, kTagSize] at hlen
    refine ⟨⟨(b.drop kHeaderSize).take kNonceSize, ?_⟩, (b.drop kPrefixSize).take (b.length - kOverhead),
      ⟨b.drop (b.length - kTagSize), ?_⟩, ?_⟩
    · simp only [List.length_take, List.length_drop, kHeaderSize, kNonceSize]
      omega
    · rw [List.length_drop, kTagSize]
      omega
    · have hend : b.length - kTagSize = kPrefixSize + (b.length - kOverhead) := by
        simp only [kOverhead, kPrefixSize, kHeaderSize, kNonceSize, kTagSize]
        omega
      rw [joined, coe_makePacketPrefix]
      dsimp only
      rw [hend, ← List.drop_drop, List.append_assoc _ (List.take _ _), List.take_append_drop]
      calc b = b.take kHeaderSize ++ b.drop kHeaderSize := (List.take_append_drop _ _).symm
        _ = (makeHeader : Bytes) ++ ((b.drop kHeaderSize).take kNonceSize ++
            (b.drop kHeaderSize).drop kNonceSize) := by
          rw [hheader, List.take_append_drop]
        _ = _ := by
          rw [List.drop_drop, List.append_assoc]
          rfl

lemma outcome_requireValidPacket {σ : Type} {b : Bytes} {s : σ} {Q : Unit → σ → Prop}
    {E : Error → σ → Prop} (hok : ∀ nonce c tag, b = joined nonce c tag → Q () s)
    (hbad : (∀ nonce c tag, b ≠ joined nonce c tag) → E invalidPacket s) :
    Outcome (requireValidPacket b) s Q E := by
  simp only [requireValidPacket, outcome_bind, outcome_throwIf]
  have hiff := exists_joined_iff b
  refine ⟨fun hshort => hbad fun nonce c tag heq => ?_, fun hlen => ?_⟩
  · have hle := (hiff.mp ⟨nonce, c, tag, heq⟩).1
    omega
  · apply outcome_requireValidPrefix
    · intro nonce hnonce
      have hheader : b.take kHeaderSize = makeHeader := by
        have htake : (b.take kPrefixSize).take kHeaderSize = b.take kHeaderSize := by
          rw [List.take_take]
          rfl
        rw [← htake, hnonce, take_makePacketPrefix]
      obtain ⟨nonce', c, tag, heq⟩ := hiff.mpr ⟨not_lt.mp hlen, hheader⟩
      exact hok nonce' c tag heq
    · intro hnone
      apply hbad
      rintro nonce c tag rfl
      exact hnone nonce take_joined

end Shape

/-! ## The one-shot functions -/

section OneShot

variable {ssl : Openssl} {prim : Primitives} {cap : ℕ} {lib : Lib} {key : key256} {aad : Bytes}
  {nonce : ByteArr kNonceSize}

lemma packetBytes_eq (gcm : AesGcm) (key : key256) (aad : Bytes) (nonce : ByteArr kNonceSize)
    (plaintext : Bytes) : packetBytes gcm key aad nonce plaintext =
      joined nonce (gcm.encText key nonce plaintext)
        (gcm.tag key nonce ((makeHeader : Bytes) ++ aad) plaintext) := rfl

/-- **`encrypt`** returns the packet of the plaintext under the nonce it draws. -/
theorem outcome_encrypt (hs : ssl.Sound prim) (hl : prim.gcm.Lengths) {plaintext : Bytes}
    {Q : Bytes → Lib → Prop} {E : Error → Lib → Prop} (hcap : plaintext.length ≤ cap)
    (hok : ∀ nonce : ByteArr kNonceSize, ssl.rand lib.clock kNonceSize = some nonce →
      aad.length ≤ intMax → plaintext.length ≤ intMax →
      ∀ lib', Q (packetBytes prim.gcm key aad nonce plaintext) lib')
    (hlong : intMax < aad.length → ∀ lib', E (updateLimitError "AAD") lib')
    (hbig : intMax < plaintext.length → ∀ lib', E (updateLimitError "plaintext") lib')
    (hfail : ¬ ssl.Available prim cap → ∀ lib', E cipherFailure lib') :
    Outcome (encrypt ssl plaintext key aad) lib Q E := by
  simp only [encrypt, outcome_bind, outcome_withObject, outcome_pure]
  refine outcome_new (fun haad => ?_) fun h => hlong h lib
  refine outcome_begin_encryptor hs rfl (fun nonce impl₁ lib₁ hdraw hkeyed₁ => ?_)
    fun h o => hfail h _
  refine absorbs_encryptor hs hl hkeyed₁ hcap (fun hsize impl₂ lib₂ hkeyed₂ => ?_)
    (fun h o => hbig h _) fun h o => hfail h _
  refine outcome_finalize_encryptor hs hkeyed₂ hcap (fun o => ?_) fun h o => hfail h _
  rw [cryptPiece_nil]
  exact hok nonce hdraw haad hsize _

/-- A text that does not fit an `int` is refused. -/
lemma outcome_update_of_long {impl : Impl} {piece : Bytes} {Q : Bytes → Object → Prop}
    {E : Error → Object → Prop} (hactive : impl.phase = .active) (hlong : intMax < piece.length)
    (h : ∀ o, E (updateLimitError "ciphertext") o) :
    Outcome (PacketDecryptor.update ssl piece) ⟨some impl, lib⟩ Q E := by
  simp only [PacketDecryptor.update, decryptChunk, cryptChunk, outcome_onImpl_some, outcome_bind,
    outcome_requirePhase, outcome_onContext, outcome_intSize]
  exact ⟨fun hnot => absurd hactive hnot, fun _ => ⟨fun _ => h _,
    fun hle => absurd hle (not_le.mpr hlong)⟩⟩

/-- What has not the shape of a packet is invalid. -/
lemma exists_decrypt_of_not_joined {b : Bytes} (h : ¬ ∃ nonce c tag, b = joined nonce c tag)
    (key : key256) (aad : Bytes) (lib : Lib) :
    ∃ lib', decrypt ssl b key aad lib = .error invalidPacket lib' := by
  have hthrows : Outcome (decrypt ssl b key aad) lib (fun _ _ => False)
      (fun e _ => e = invalidPacket) := by
    rw [decrypt, outcome_bind]
    apply outcome_requireValidPacket
    · intro nonce c tag heq
      exact absurd ⟨nonce, c, tag, heq⟩ h
    · exact fun _ => rfl
  obtain ⟨error, lib', hrun, rfl⟩ := hthrows.exists_error
  exact ⟨lib', hrun⟩

/-- **`decrypt`** of something that has the shape of a packet returns the decrypted text if the tag
verifies, and reports a failed authentication otherwise. -/
theorem outcome_decrypt (hs : ssl.Sound prim) (ha : ssl.Available prim intMax)
    (hl : prim.gcm.Lengths) {c : Bytes} {tag : ByteArr kTagSize} {Q : Bytes → Lib → Prop}
    {E : Error → Lib → Prop}
    (hok : c.length ≤ intMax →
      prim.gcm.verify key nonce ((makeHeader : Bytes) ++ aad) c tag = true →
      ∀ lib', Q (prim.gcm.decText key nonce c) lib')
    (hlong : intMax < aad.length → ∀ lib', E (updateLimitError "AAD") lib')
    (hbig : aad.length ≤ intMax → intMax < c.length → ∀ lib', E (updateLimitError "ciphertext") lib')
    (htag : aad.length ≤ intMax → c.length ≤ intMax →
      prim.gcm.verify key nonce ((makeHeader : Bytes) ++ aad) c tag = false →
      ∀ lib', E authenticationFailed lib') :
    Outcome (decrypt ssl (joined nonce c tag) key aad) lib Q E := by
  simp only [decrypt, outcome_bind, outcome_withObject, outcome_pure]
  refine outcome_requireValidPacket (fun _ _ _ _ => ?_) fun hbad => absurd rfl (hbad nonce c tag)
  rw [take_joined, mid_joined, drop_joined]
  refine outcome_new (fun haad => ?_) fun h => hlong h lib
  refine outcome_begin_decryptor hs rfl (fun impl₁ lib₁ hkeyed₁ => ?_) fun h o => absurd ha h
  by_cases hsize : c.length ≤ intMax
  · refine absorbs_decryptor hs hl hkeyed₁ hsize (fun _ impl₂ lib₂ hkeyed₂ => ?_)
      (fun h o => absurd hsize (not_le.mpr h)) fun h o => absurd ha h
    refine outcome_finalize_decryptor hs hkeyed₂ hsize (fun hverify o => ?_) (fun hcause o => ?_)
      fun h o => absurd ha h
    · rw [cryptPiece_nil, List.append_nil]
      exact hok hsize hverify _
    · exact htag haad hsize (hcause.resolve_right (not_not.mpr ha)) _
  · -- A text that does not fit an `int` is refused before OpenSSL sees it.
    have hlen : intMax < c.length := not_le.mp hsize
    exact outcome_update_of_long hkeyed₁.1 hlen fun o => hbig haad hlen _

end OneShot

/-! ## Chunking -/

section Chunking

variable {ssl : Openssl} {prim : Primitives} {lib : Lib} {key : key256} {aad : Bytes}
  {nonce : ByteArr kNonceSize}

/-- The pieces of a text, each of which fits an `int`. -/
structure CutOf (pieces : List Bytes) (text : Bytes) : Prop where
  flatten_eq : pieces.flatten = text
  piece_le : ∀ piece ∈ pieces, piece.length ≤ intMax

lemma CutOf.no_big {pieces : List Bytes} {text : Bytes} (h : CutOf pieces text) :
    ¬ ∃ piece ∈ pieces, intMax < piece.length := by
  rintro ⟨piece, hpiece, hbig⟩
  exact absurd (h.piece_le piece hpiece) (not_le.mpr hbig)

/-- **Packet streaming is independent of chunking.**  One byte string is what the encryptor returns
for every cut of the plaintext, what `encrypt` returns if the plaintext fits an `int`, and what the
decryptor takes back in every cut of the ciphertext. -/
theorem packet_chunking (hs : ssl.Sound prim) (hl : prim.gcm.Lengths) (hi : prim.gcm.Incremental)
    (hc : prim.gcm.Correct) (plaintext : Bytes) (ha : ssl.Available prim plaintext.length)
    (haad : aad.length ≤ intMax) (hnonce : ssl.rand lib.clock kNonceSize = some nonce) :
    ∃ packet : Bytes,
      (∀ pieces, CutOf pieces plaintext →
        ∃ lib', encryptPieces ssl pieces key aad lib = .ok packet lib') ∧
      (plaintext.length ≤ intMax → ∃ lib', encrypt ssl plaintext key aad lib = .ok packet lib') ∧
      ∀ (lib₂ : Lib) (pieces : List Bytes),
        CutOf pieces ((packet.drop kPrefixSize).take (packet.length - kOverhead)) →
        ∃ lib', decryptPieces ssl (packet.take kPrefixSize) pieces
          (packet.drop (packet.length - kTagSize)) key aad lib₂ = .ok (plaintext, []) lib' := by
  have hno : ¬ intMax < aad.length := not_lt.mpr haad
  have hdrawn : ∀ {nonce' : ByteArr kNonceSize},
      ssl.rand lib.clock kNonceSize = some nonce' → nonce' = nonce := by
    intro nonce' hdraw
    exact Option.some.inj (hdraw.symm.trans hnonce)
  refine ⟨packetBytes prim.gcm key aad nonce plaintext, fun pieces hcut => ?_, fun hle => ?_,
    fun lib₂ pieces hcut => ?_⟩
  · -- Sealing in pieces.
    have hreturns : Returns (encryptPieces ssl pieces key aad) lib
        (fun packet _ => packet = packetBytes prim.gcm key aad nonce plaintext) := by
      apply outcome_encryptPieces hs hl hi (congrArg List.length hcut.flatten_eq).le
      · intro nonce' hdraw _ lib'
        rw [hdrawn hdraw, hcut.flatten_eq]
      · exact fun h => absurd h hno
      · exact fun h => absurd h hcut.no_big
      · exact fun h => absurd ha h
    obtain ⟨packet, lib', hrun, rfl⟩ := hreturns.exists_ok
    exact ⟨lib', hrun⟩
  · -- Sealing at once, where the text is short enough for one update.
    have hreturns : Returns (encrypt ssl plaintext key aad) lib
        (fun packet _ => packet = packetBytes prim.gcm key aad nonce plaintext) := by
      apply outcome_encrypt hs hl le_rfl
      · intro nonce' hdraw _ _ lib'
        rw [hdrawn hdraw]
      · exact fun h => absurd h hno
      · exact fun h => absurd hle (not_le.mpr h)
      · exact fun h => absurd ha h
    obtain ⟨packet, lib', hrun, rfl⟩ := hreturns.exists_ok
    exact ⟨lib', hrun⟩
  · -- Opening in pieces, which need not be those of sealing.
    rw [packetBytes_eq, mid_joined] at hcut
    rw [packetBytes_eq, take_joined, drop_joined]
    have hlen : pieces.flatten.length ≤ plaintext.length := by
      rw [hcut.flatten_eq, hl.length_encText]
    have hverify := hc.verify_tag key nonce ((makeHeader : Bytes) ++ aad) plaintext
    have hreturns : Returns (decryptPieces ssl (makePacketPrefix nonce) pieces
        (prim.gcm.tag key nonce ((makeHeader : Bytes) ++ aad) plaintext) key aad) lib₂
        (fun out _ => out = (plaintext, [])) := by
      apply outcome_decryptPieces hs hl hi hlen
      · intro _ lib'
        rw [hcut.flatten_eq, hc.decText_encText]
      · exact fun h => absurd h hno
      · exact fun h => absurd h hcut.no_big
      · intro hcause
        rw [hcut.flatten_eq, hverify] at hcause
        exact absurd ha (hcause.resolve_left (by simp))
      · exact fun h => absurd ha h
    obtain ⟨out, lib', hrun, rfl⟩ := hreturns.exists_ok
    exact ⟨lib', hrun⟩

end Chunking

/-- The chunking of four bytes with the standard primitives. -/
theorem packet_chunking_standard : ∃ packet : Bytes,
    (∀ pieces, CutOf pieces [1, 2, 3, 4] → ∃ lib',
      encryptPieces standardLibrary pieces (ByteArr.zeros 32) [0x61] {} = .ok packet lib') ∧
    (4 ≤ intMax → ∃ lib',
      encrypt standardLibrary [1, 2, 3, 4] (ByteArr.zeros 32) [0x61] {} = .ok packet lib') ∧
    ∀ (lib₂ : Lib) (pieces : List Bytes),
      CutOf pieces ((packet.drop kPrefixSize).take (packet.length - kOverhead)) →
      ∃ lib', decryptPieces standardLibrary (packet.take kPrefixSize) pieces
        (packet.drop (packet.length - kTagSize)) (ByteArr.zeros 32) [0x61] lib₂ =
          .ok ([1, 2, 3, 4], []) lib' :=
  packet_chunking standardLibrary_sound standard_lengths standard_incremental
    standard_exact.correct [1, 2, 3, 4] (standardLibrary_available _) (by decide) rfl

/-! ## Texts longer than an `int` can say -/

section Long

variable {ssl ssl' : Openssl} {prim : Primitives} {lib : Lib} {key : key256} {aad : Bytes}

/-- Whatever a whole use of an encryptor returns is the packet of the text. -/
lemma eq_packetBytes_of_ok (hs : ssl.Sound prim) (hl : prim.gcm.Lengths)
    (hi : prim.gcm.Incremental) {pieces : List Bytes} {packet : Bytes} {lib' : Lib}
    (h : encryptPieces ssl pieces key aad lib = .ok packet lib') :
    aad.length ≤ intMax ∧
      ∃ nonce, packet = packetBytes prim.gcm key aad nonce pieces.flatten := by
  have houtcome : Outcome (encryptPieces ssl pieces key aad) lib
      (fun packet _ => aad.length ≤ intMax ∧
        ∃ nonce, packet = packetBytes prim.gcm key aad nonce pieces.flatten)
      fun _ _ => True := by
    apply outcome_encryptPieces hs hl hi le_rfl
    · exact fun nonce _ haad _ => ⟨haad, nonce, rfl⟩
    · exact fun _ _ => trivial
    · exact fun _ _ => trivial
    · exact fun _ _ => trivial
  exact houtcome.of_ok h

/-- What the encryptor makes of a text is decrypted, as long as the text fits an `int`, and is
refused otherwise. -/
def DecryptsUpToLimit (ssl' : Openssl) (key : key256) (aad packet text : Bytes) : Prop :=
  ∀ lib₂ : Lib,
    (text.length ≤ intMax → ∃ lib', decrypt ssl' packet key aad lib₂ = .ok text lib') ∧
      (intMax < text.length →
        ∃ lib', decrypt ssl' packet key aad lib₂ = .error (updateLimitError "ciphertext") lib')

/-- The packet of a text is decrypted up to the limit. -/
lemma decryptsUpToLimit_packetBytes (hs' : ssl'.Sound prim) (ha : ssl'.Available prim intMax)
    (hl : prim.gcm.Lengths) (hc : prim.gcm.Correct) (haad : aad.length ≤ intMax)
    (key : key256) (nonce : ByteArr kNonceSize) (text : Bytes) :
    DecryptsUpToLimit ssl' key aad (packetBytes prim.gcm key aad nonce text) text := by
  have hno : ¬ intMax < aad.length := not_lt.mpr haad
  have hlen := hl.length_encText key nonce text
  intro lib₂
  constructor
  · intro hle
    have hreturns : Returns (decrypt ssl' (packetBytes prim.gcm key aad nonce text) key aad) lib₂
        (fun out _ => out = text) := by
      apply outcome_decrypt hs' ha hl
      · exact fun _ _ _ => hc.decText_encText _ _ _
      · exact fun hlong => absurd hlong hno
      · intro _ hbig
        omega
      · intro _ _ hverify
        rw [hc.verify_tag] at hverify
        cases hverify
    obtain ⟨out, lib₃, hrun, rfl⟩ := hreturns.exists_ok
    exact ⟨lib₃, hrun⟩
  · intro hbig
    have hthrows : Outcome (decrypt ssl' (packetBytes prim.gcm key aad nonce text) key aad) lib₂
        (fun _ _ => False) (fun e _ => e = updateLimitError "ciphertext") := by
      apply outcome_decrypt hs' ha hl
      · intro hle
        omega
      · exact fun hlong => absurd hlong hno
      · exact fun _ _ _ => rfl
      · intro _ hle
        omega
    obtain ⟨error, lib₃, hrun, rfl⟩ := hthrows.exists_error
    exact ⟨lib₃, hrun⟩

/-- **One-shot decryption of streamed packets.** -/
theorem decrypt_encryptPieces (hs : ssl.Sound prim) (hs' : ssl'.Sound prim)
    (ha : ssl'.Available prim intMax) (hl : prim.gcm.Lengths) (hi : prim.gcm.Incremental)
    (hc : prim.gcm.Correct) (pieces : List Bytes) (packet : Bytes) (lib' : Lib)
    (h : encryptPieces ssl pieces key aad lib = .ok packet lib') :
    DecryptsUpToLimit ssl' key aad packet pieces.flatten := by
  obtain ⟨haad, nonce, rfl⟩ := eq_packetBytes_of_ok hs hl hi h
  exact decryptsUpToLimit_packetBytes hs' ha hl hc haad key nonce pieces.flatten

/-- An encryptor that can work completes its run on every cut of a text. -/
lemma encryptPieces_completes (hs : ssl.Sound prim) (hl : prim.gcm.Lengths)
    (hi : prim.gcm.Incremental) (key : key256) (aad : Bytes) (lib : Lib) (pieces : List Bytes)
    (ha : ssl.Available prim pieces.flatten.length)
    (haad : aad.length ≤ intMax) (hpieces : ∀ piece ∈ pieces, piece.length ≤ intMax) :
    ∃ packet lib', encryptPieces ssl pieces key aad lib = .ok packet lib' := by
  have hreturns : Returns (encryptPieces ssl pieces key aad) lib fun _ _ => True := by
    apply outcome_encryptPieces hs hl hi le_rfl
    · exact fun _ _ _ _ => trivial
    · exact fun hlong => absurd haad (not_le.mpr hlong)
    · rintro ⟨piece, hpiece, hbig⟩
      exact absurd (hpieces piece hpiece) (not_le.mpr hbig)
    · exact fun hnot => absurd ha hnot
  obtain ⟨packet, lib', hrun, -⟩ := hreturns.exists_ok
  exact ⟨packet, lib', hrun⟩

/-- A run of as many zeros as fit an `int`, and one more. -/
def zerosAndOne (n : ℕ) : List Bytes := [List.replicate n 0, [0]]

lemma length_zerosAndOne (n : ℕ) : (zerosAndOne n).flatten.length = n + 1 := by
  simp [zerosAndOne]

lemma piece_le_zerosAndOne {n : ℕ} (hn : 1 ≤ n) : ∀ piece ∈ zerosAndOne n, piece.length ≤ n := by
  intro piece hpiece
  simp only [zerosAndOne, List.mem_cons, List.not_mem_nil, or_false] at hpiece
  rcases hpiece with rfl | rfl
  · rw [List.length_replicate]
  · exact hn

end Long

/-- Of the packet of two bytes in two pieces, `decrypt` makes the two bytes. -/
theorem decrypt_encryptPieces_standard : ∃ packet lib',
    encryptPieces standardLibrary [[1], [2]] (ByteArr.zeros 32) [0x61] {} = .ok packet lib' ∧
      DecryptsUpToLimit standardLibrary (ByteArr.zeros 32) [0x61] packet [1, 2] := by
  obtain ⟨packet, lib', hrun⟩ := encryptPieces_completes standardLibrary_sound standard_lengths
    standard_incremental (ByteArr.zeros 32) [0x61] {} [[1], [2]] (standardLibrary_available _)
    (by decide) (by decide)
  exact ⟨packet, lib', hrun, decrypt_encryptPieces standardLibrary_sound standardLibrary_sound
    (standardLibrary_available _) standard_lengths standard_incremental standard_exact.correct
    [[1], [2]] packet lib' hrun⟩

/-- The encryptor takes `2 ^ 31` bytes in two pieces, and `decrypt` refuses the packet it makes of
them. -/
theorem decrypt_refuses_streamed : ¬ ∀ (key : key256) (aad : Bytes) (pieces : List Bytes)
    (packet : Bytes) (lib lib' lib₂ : Lib),
    encryptPieces standardLibrary pieces key aad lib = .ok packet lib' →
    ∃ lib₃, decrypt standardLibrary packet key aad lib₂ = .ok pieces.flatten lib₃ := by
  intro hall
  obtain ⟨packet, lib', hrun⟩ := encryptPieces_completes standardLibrary_sound standard_lengths
    standard_incremental (ByteArr.zeros 32) [] {} (zerosAndOne intMax) (standardLibrary_available _)
    (by decide) (piece_le_zerosAndOne (by decide))
  obtain ⟨lib₃, hok⟩ := hall (ByteArr.zeros 32) [] (zerosAndOne intMax) packet {} lib' {} hrun
  obtain ⟨haad, nonce, rfl⟩ := eq_packetBytes_of_ok standardLibrary_sound standard_lengths
    standard_incremental hrun
  have hlimit := decryptsUpToLimit_packetBytes standardLibrary_sound (standardLibrary_available _)
    standard_lengths standard_exact.correct haad (ByteArr.zeros 32) nonce
    (zerosAndOne intMax).flatten
  obtain ⟨lib₄, herror⟩ := (hlimit {}).2 (by rw [length_zerosAndOne]; exact Nat.lt_succ_self _)
  rw [herror] at hok
  cases hok

/-! ## The packets that decrypt -/

section Exact

variable {ssl : Openssl} {prim : Primitives} {key : key256} {aad b : Bytes}

/-- The bytes `b` are the packet that `encrypt` builds of the plaintext when it draws the nonce. -/
def Builds (prim : Primitives) (key : key256) (aad : Bytes) (nonce : ByteArr kNonceSize)
    (plaintext b : Bytes) : Prop :=
  ∀ (ssl : Openssl) (lib : Lib), ssl.Sound prim → ssl.Available prim intMax →
    ssl.rand lib.clock kNonceSize = some nonce →
    ∃ lib', encrypt ssl plaintext key aad lib = .ok b lib'

/-- `encrypt` builds the packet of the plaintext, if the plaintext fits an `int`. -/
lemma builds_iff (hl : prim.gcm.Lengths) (haad : aad.length ≤ intMax)
    {nonce : ByteArr kNonceSize} {plaintext : Bytes} :
    Builds prim key aad nonce plaintext b ↔
      plaintext.length ≤ intMax ∧ b = packetBytes prim.gcm key aad nonce plaintext := by
  have hno : ¬ intMax < aad.length := not_lt.mpr haad
  constructor
  · intro h
    let ssl := Openssl.reference prim fun _ size => ByteArr.ofBytes size (nonce : Bytes)
    have hdraw : ssl.rand (Lib.clock {}) kNonceSize = some nonce :=
      congrArg some (ByteArr.ofBytes_coe nonce)
    have hs : ssl.Sound prim := Openssl.reference_sound prim _
    obtain ⟨lib', hrun⟩ := h ssl {} hs (Openssl.reference_available prim _ _) hdraw
    have houtcome : Outcome (encrypt ssl plaintext key aad) {}
        (fun packet _ => plaintext.length ≤ intMax ∧
          packet = packetBytes prim.gcm key aad nonce plaintext) fun _ _ => True := by
      apply outcome_encrypt hs hl le_rfl
      · intro nonce' hdraw' _ hle lib'
        obtain rfl : nonce' = nonce := Option.some.inj (hdraw'.symm.trans hdraw)
        exact ⟨hle, rfl⟩
      · exact fun _ _ => trivial
      · exact fun _ _ => trivial
      · exact fun _ _ => trivial
    exact houtcome.of_ok hrun
  · rintro ⟨hle, rfl⟩ ssl lib hs ha hdraw
    have hreturns : Returns (encrypt ssl plaintext key aad) lib
        (fun packet _ => packet = packetBytes prim.gcm key aad nonce plaintext) := by
      apply outcome_encrypt hs hl hle
      · intro nonce' hdraw' _ _ lib'
        rw [Option.some.inj (hdraw'.symm.trans hdraw)]
      · exact fun hlong => absurd hlong hno
      · exact fun hbig => absurd hle (not_le.mpr hbig)
      · exact fun hnot => absurd ha hnot
    obtain ⟨packet, lib', hrun, rfl⟩ := hreturns.exists_ok
    exact ⟨lib', hrun⟩

/-- The bytes that `decrypt` accepts, and the errors it refuses the others with. -/
structure DecodesExactly (ssl : Openssl) (prim : Primitives) (key : key256) (aad b : Bytes)
    (lib : Lib) : Prop where
  accepted_iff : ∀ plaintext, (∃ lib', decrypt ssl b key aad lib = .ok plaintext lib') ↔
    ∃ (nonce : ByteArr kNonceSize) (c : Bytes) (tag : ByteArr kTagSize),
      b = (kMagic : Bytes) ++ [kVersion] ++ (nonce : Bytes) ++ c ++ (tag : Bytes) ∧
        Builds prim key aad nonce plaintext b
  malformed : b.length < kOverhead ∨ b.take kHeaderSize ≠ (kMagic : Bytes) ++ [kVersion] →
    ∃ lib', decrypt ssl b key aad lib = .error invalidPacket lib'
  refused : ¬ (b.length < kOverhead ∨ b.take kHeaderSize ≠ (kMagic : Bytes) ++ [kVersion]) →
    (∀ nonce plaintext, ¬ Builds prim key aad nonce plaintext b) →
    ∃ lib', decrypt ssl b key aad lib = .error authenticationFailed lib'

/-- What has the shape of a packet is accepted exactly if it is one. -/
lemma decrypt_joined (hs : ssl.Sound prim) (ha : ssl.Available prim intMax)
    (hl : prim.gcm.Lengths) (hx : prim.gcm.Exact) (key : key256) (haad : aad.length ≤ intMax)
    (nonce : ByteArr kNonceSize) {c : Bytes} (tag : ByteArr kTagSize) (hc : c.length ≤ intMax)
    (lib : Lib) :
    Outcome (decrypt ssl (joined nonce c tag) key aad) lib
      (fun plaintext _ => Builds prim key aad nonce plaintext (joined nonce c tag))
      (fun e _ => e = authenticationFailed ∧
        ∀ plaintext, ¬ Builds prim key aad nonce plaintext (joined nonce c tag)) := by
  have hlen := hl.length_decText key nonce c
  apply outcome_decrypt hs ha hl
  · intro _ hverify lib'
    obtain ⟨hciphertext, htag⟩ := (hx.verify_iff _ _ _ _ _ _).mp ⟨hverify, rfl⟩
    refine (builds_iff hl haad).mpr ⟨by omega, ?_⟩
    rw [packetBytes_eq, hciphertext, htag]
  · exact fun hlong => absurd haad (not_le.mpr hlong)
  · exact fun _ hbig => absurd hc (not_le.mpr hbig)
  · intro _ _ hverify lib'
    refine ⟨rfl, fun plaintext hbuilds => ?_⟩
    obtain ⟨-, heq⟩ := (builds_iff hl haad).mp hbuilds
    rw [packetBytes_eq] at heq
    obtain ⟨-, rfl, rfl⟩ := joined_injective heq
    rw [hx.correct.verify_tag] at hverify
    cases hverify

/-- No packet has two plaintexts. -/
lemma builds_unique (hl : prim.gcm.Lengths) (hx : prim.gcm.Exact) (haad : aad.length ≤ intMax)
    {nonce : ByteArr kNonceSize} {plaintext plaintext' : Bytes}
    (h : Builds prim key aad nonce plaintext b) (h' : Builds prim key aad nonce plaintext' b) :
    plaintext = plaintext' := by
  obtain ⟨-, heq⟩ := (builds_iff hl haad).mp h
  obtain ⟨-, heq'⟩ := (builds_iff hl haad).mp h'
  rw [heq, packetBytes_eq, packetBytes_eq] at heq'
  obtain ⟨-, hciphertext, -⟩ := joined_injective heq'
  have htext := congrArg (prim.gcm.decText key nonce) hciphertext
  rwa [hx.correct.decText_encText, hx.correct.decText_encText] at htext

/-- **`decrypt` is the exact inverse of `encrypt`.** -/
theorem decrypt_exact (hs : ssl.Sound prim) (ha : ssl.Available prim intMax)
    (hl : prim.gcm.Lengths) (hx : prim.gcm.Exact) (key : key256) (aad b : Bytes)
    (haad : aad.length ≤ intMax) (hb : b.length - kOverhead ≤ intMax) (lib : Lib) :
    DecodesExactly ssl prim key aad b lib := by
  have hshape : ∀ (nonce : ByteArr kNonceSize) (c : Bytes) (tag : ByteArr kTagSize),
      joined nonce c tag =
        (kMagic : Bytes) ++ [kVersion] ++ (nonce : Bytes) ++ c ++ (tag : Bytes) := by
    intro nonce c tag
    rw [joined, coe_makePacketPrefix, coe_makeHeader]
  have hiff := exists_joined_iff b
  rw [coe_makeHeader] at hiff
  by_cases hjoined : ∃ nonce c tag, b = joined nonce c tag
  · -- The bytes have the shape of a packet, and the tag decides.
    have hwell := hiff.mp hjoined
    obtain ⟨nonce, c, tag, rfl⟩ := hjoined
    rw [length_joined, Nat.add_sub_cancel] at hb
    have houtcome := decrypt_joined hs ha hl hx key haad nonce tag hb lib
    constructor
    · intro plaintext
      constructor
      · rintro ⟨lib', hrun⟩
        exact ⟨nonce, c, tag, hshape nonce c tag, houtcome.of_ok hrun⟩
      · rintro ⟨nonce', c', tag', heq, hbuilds⟩
        rw [← hshape] at heq
        obtain ⟨rfl, rfl, rfl⟩ := joined_injective heq
        cases hrun : decrypt ssl (joined nonce c tag) key aad lib with
        | ok plaintext' lib' =>
          rw [builds_unique hl hx haad hbuilds (houtcome.of_ok hrun)]
          exact ⟨lib', rfl⟩
        | error e lib' => exact absurd hbuilds ((houtcome.of_error hrun).2 plaintext)
    · rintro (hshort | hheader)
      · omega
      · exact absurd hwell.2 hheader
    · intro _ hnone
      cases hrun : decrypt ssl (joined nonce c tag) key aad lib with
      | ok plaintext lib' => exact absurd (houtcome.of_ok hrun) (hnone nonce plaintext)
      | error e lib' =>
        obtain rfl := (houtcome.of_error hrun).1
        exact ⟨lib', rfl⟩
  · -- They do not, and nothing is decrypted.
    obtain ⟨lib', hrun⟩ := exists_decrypt_of_not_joined hjoined key aad lib
    constructor
    · intro plaintext
      constructor
      · rintro ⟨lib'', hok⟩
        rw [hok] at hrun
        cases hrun
      · rintro ⟨nonce, c, tag, heq, -⟩
        rw [← hshape] at heq
        exact absurd ⟨nonce, c, tag, heq⟩ hjoined
    · exact fun _ => ⟨lib', hrun⟩
    · intro hwell
      push Not at hwell
      exact absurd (hiff.mpr hwell) hjoined

end Exact

/-- Decoding with the standard primitives: of the packet of a byte, of a packet whose tag is not that of
any plaintext, and of a byte string that is too short. -/
theorem decrypt_exact_standard :
    (∀ nonce,
      Builds standard (ByteArr.zeros 32) [0x61] nonce [0x62]
        (packetBytes standard.gcm (ByteArr.zeros 32) [0x61] nonce [0x62]) ∧
      DecodesExactly standardLibrary standard (ByteArr.zeros 32) [0x61]
        (packetBytes standard.gcm (ByteArr.zeros 32) [0x61] nonce [0x62]) {}) ∧
    (∀ nonce, ∃ tag,
      (∀ nonce' plaintext, ¬ Builds standard (ByteArr.zeros 32) [0x61] nonce' plaintext
        (joined nonce [0x62] tag)) ∧
      DecodesExactly standardLibrary standard (ByteArr.zeros 32) [0x61] (joined nonce [0x62] tag) {}) ∧
    DecodesExactly standardLibrary standard (ByteArr.zeros 32) [0x61] [0x53, 0x4b, 0x54, 0x31] {} := by
  have hdecodes := fun (b : Bytes) (hb : b.length - kOverhead ≤ intMax) => decrypt_exact
    standardLibrary_sound (standardLibrary_available _) standard_lengths standard_exact
    (ByteArr.zeros 32) [0x61] b (by decide) hb {}
  refine ⟨fun nonce => ⟨?_, ?_⟩, fun nonce => ?_, hdecodes _ (by decide)⟩
  · exact (builds_iff standard_lengths (by decide)).mpr ⟨by decide, rfl⟩
  · apply hdecodes
    rw [packetBytes_eq, length_joined, Nat.add_sub_cancel, standard_lengths.length_encText]
    decide
  · obtain ⟨tag, hunverified, -⟩ := standard_exact.exists_unverified (ByteArr.zeros 32)
      (ByteArr.zeros 32) nonce nonce ((makeHeader : Bytes) ++ [0x61]) ((makeHeader : Bytes) ++ [0x61])
      [0x62]
    refine ⟨tag, fun nonce' plaintext hbuilds => ?_, hdecodes _ ?_⟩
    · obtain ⟨-, heq⟩ := (builds_iff standard_lengths (by decide)).mp hbuilds
      rw [packetBytes_eq] at heq
      obtain ⟨rfl, hciphertext, rfl⟩ := joined_injective heq
      rw [hciphertext, standard_exact.correct.verify_tag] at hunverified
      cases hunverified
    · rw [length_joined, Nat.add_sub_cancel]
      decide

end SecureKit.Packet
