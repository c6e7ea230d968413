import SecureKit.File.Truncation
import SecureKit.Packet.OneShot

/-!
# What a failed authentication says about the secret

Nothing: two runs on the same bytes, with secrets that do not fit, end with the same error and have
written the same, which is nothing.  The error is a function of the bytes alone.  For a file it
depends on whether a header and a well-formed record are in front (`HasFirstRecord`), for a packet
on its length and its first five bytes; the secret is only used behind these tests.

## The argument

For files the two secrets give two envelopes for every header, and both have the same header bytes.
If no header is in front, or no well-formed record behind it, both calls throw the error of a
malformed file before they use a key.  Otherwise the first record does not verify under either
envelope (`FirstRecordFails`), and both throw that authentication has failed.  Nothing was written,
as a chunk is written behind its verification only.

A later record cannot tell the two apart as the first one is where both stop; a file whose first
record verifies under one of the secrets is not the subject.

## What is assumed

Both calls have the same library, in any two states, `Sound` and `Available`: a failure of OpenSSL
could tell them apart, and so could additional data that are too long for one of them.  The outputs
may be any two streams.

`failure_reveals_nothing_standard` has files of both formats with a complete first record, and a
packet of one byte, whose tags are wrong under both secrets.
-/

namespace SecureKit

open ByteString Effect Iostream Evp

/-! ## Files -/

namespace File

section Files

variable {ssl : Openssl} {prim : Primitives} {cap : ℕ} {format : FileFormat} {aad b : Bytes}

/-- Behind a header, the bytes start with a well-formed record, which is the only one if it is
final. -/
def HasFirstRecord (header : ByteArr kSaltSize → ByteArr kNoncePrefixSize → Bytes) (b : Bytes) :
    Prop :=
  ∃ salt noncePrefix flag chunk rest,
    b = header salt noncePrefix ++ (recordBytes 0 flag chunk ++ rest) ∧ WellFormed flag chunk ∧
      (flag = kFinal → rest = [])

/-- The first record of the bytes, if they have one, does not verify. -/
def FirstRecordFails (gcm : AesGcm) (envelope : Envelopes) (b : Bytes) : Prop :=
  ∀ salt noncePrefix flag chunk rest,
    b = (envelope salt noncePrefix).serialized ++ (recordBytes 0 flag chunk ++ rest) →
    WellFormed flag chunk → ¬ (envelope salt noncePrefix).Verifies gcm 0 flag chunk

/-- Both openings throw the same error, and have written nothing, whatever their outputs would take. -/
def FailAlike (opening₁ opening₂ : Eff (World OStream) Unit) (b : Bytes) : Prop :=
  ∀ (lib₁ lib₂ : Lib) (out₁ out₂ : OStream), ∃ error w₁ w₂,
    opening₁ { input := .ofBytes b, output := out₁, lib := lib₁ } = .error error w₁ ∧
      opening₂ { input := .ofBytes b, output := out₂, lib := lib₂ } = .error error w₂ ∧
      w₁.output.written = out₁.written ∧ w₂.output.written = out₂.written

/-- Opening refuses the bytes with the error, and has written nothing, whatever its output would take. -/
def TurnsDown (opening : Eff (World OStream) Unit) (b : Bytes) (error : Error) : Prop :=
  ∀ (lib : Lib) (out : OStream), ∃ w',
    opening { input := .ofBytes b, output := out, lib } = .error error w' ∧
      w'.output.written = out.written

/-- Openings that refuse the bytes with one error fail alike. -/
lemma failAlike_of_turnsDown {opening₁ opening₂ : Eff (World OStream) Unit} {error : Error}
    (h₁ : TurnsDown opening₁ b error) (h₂ : TurnsDown opening₂ b error) :
    FailAlike opening₁ opening₂ b := by
  intro lib₁ lib₂ out₁ out₂
  obtain ⟨w₁, hrun₁, hwritten₁⟩ := h₁ lib₁ out₁
  obtain ⟨w₂, hrun₂, hwritten₂⟩ := h₂ lib₂ out₂
  exact ⟨error, w₁, w₂, hrun₁, hrun₂, hwritten₁, hwritten₂⟩

/-- The first record of a file is the one behind its header. -/
lemma FileFormat.Lawful.exists_rest (law : format.Lawful ssl prim cap)
    {salt : ByteArr kSaltSize} {noncePrefix : ByteArr kNoncePrefixSize} {flag : UInt8}
    {chunk : EncryptedChunk}
    (hstarts : (Source.finite b .eof).StartsWith (law.envelope salt noncePrefix aad).serialized)
    (hrecord : RecordAt ((Source.finite b .eof).skip format.headerSize) 0 flag chunk) :
    ∃ rest, b = (law.envelope salt noncePrefix aad).serialized ++ (recordBytes 0 flag chunk ++ rest) ∧
      WellFormed flag chunk ∧ (flag = kFinal → rest = []) := by
  obtain ⟨body, rfl, hbody⟩ := law.exists_body hstarts
  rw [hbody] at hrecord
  obtain ⟨rest, rfl⟩ := Source.startsWith_finite.mp hrecord.startsWith
  refine ⟨rest, rfl, hrecord.wellFormed, fun hflag => ?_⟩
  have hends := hrecord.ends hflag
  rw [Source.skip_finite_append] at hends
  exact (Source.finite.inj hends).1

/-- A record behind a header is the first one. -/
lemma FileFormat.Lawful.recordAt_first (law : format.Lawful ssl prim cap) (salt : ByteArr kSaltSize)
    (noncePrefix : ByteArr kNoncePrefixSize) (aad : Bytes) {flag : UInt8} {chunk : EncryptedChunk}
    {rest : Bytes} (hwell : WellFormed flag chunk)
    (hends : flag = kFinal → rest = []) :
    RecordAt ((Source.finite ((law.envelope salt noncePrefix aad).serialized ++
      (recordBytes 0 flag chunk ++ rest)) .eof).skip format.headerSize) 0 flag chunk := by
  have hsize : (law.envelope salt noncePrefix aad).serialized.length = format.headerSize :=
    ByteArr.length_coe _
  rw [← hsize, Source.skip_finite_append]
  refine ⟨hwell, Source.startsWith_finite.mpr (List.prefix_append _ _), fun hflag => ?_⟩
  rw [Source.skip_finite_append, hends hflag]

/-- A file whose first record does not verify is refused, with the error that belongs to its bytes. -/
lemma outcome_openStream_of_firstRecordFails (law : format.Lawful ssl prim cap) (hs : ssl.Sound prim)
    (ha : ssl.Available prim cap) (hl : prim.gcm.Lengths) (hcap : 2 ^ 20 ≤ cap)
    (haad : format.headerSize + kRecordHeaderSize + aad.length ≤ intMax)
    (hfails : FirstRecordFails prim.gcm (fun salt noncePrefix => law.envelope salt noncePrefix aad) b)
    (lib : Lib) (out : OStream) :
    let header := fun salt noncePrefix => (law.envelope salt noncePrefix aad).serialized
    Outcome (openStream ssl format aad)
      ({ input := .ofBytes b, output := out, lib } : World OStream) (fun _ _ => False)
      (fun error w' => w'.output.written = out.written ∧
        ((error = authenticationFailed ∧ HasFirstRecord header b) ∨
          (error = invalidPacket ∧ ¬ HasFirstRecord header b))) := by
  intro header
  refine outcome_openStream_header law rfl (fun salt noncePrefix lib' hstarts => ?_)
    (fun hno w' houtput => ?_) (fun hfault => by cases hfault) fun hnot => absurd ha hnot
  · have hunverified : ∀ {flag chunk}, RecordAt ((Source.finite b .eof).skip format.headerSize) 0
        flag chunk → ¬ (law.envelope salt noncePrefix aad).Verifies prim.gcm 0 flag chunk := by
      intro flag chunk hrecord
      obtain ⟨rest, hbytes, hwell, -⟩ := law.exists_rest hstarts hrecord
      exact hfails salt noncePrefix flag chunk rest hbytes hwell
    refine (outcome_openFilePayload_of_fails hs hl hcap rfl fun _ _ => hunverified).mono
      (fun _ _ hfalse => hfalse) ?_
    rintro error w' ⟨hwritten, verdict, hreads, hreported⟩
    refine ⟨hwritten, ?_⟩
    generalize ([] : Bytes) = released at hreads
    cases hreads with
    | malformed hnone =>
      refine .inr ⟨hreported, ?_⟩
      rintro ⟨salt', noncePrefix', flag, chunk, rest, hbytes, hwell, hends⟩
      have hrecord := law.recordAt_first salt' noncePrefix' aad hwell hends
      rw [← hbytes] at hrecord
      exact hnone flag chunk hrecord
    | badTag hrecord hnot =>
      obtain ⟨rest, hbytes, hwell, hends⟩ := law.exists_rest hstarts hrecord
      exact .inl ⟨hreported, salt, noncePrefix, _, _, rest, hbytes, hwell, hends⟩
    | accepted hrecord hverify => exact absurd hverify (hunverified hrecord)
    | exhausted hrecord hverify _ => exact absurd hverify (hunverified hrecord)
    | next hrecord hverify _ _ => exact absurd hverify (hunverified hrecord)
    | interrupted =>
      -- Neither the input nor the library fails, and the additional data fit.
      rcases hreported with ⟨-, hfault⟩ | ⟨-, hlong⟩ | ⟨-, hnot⟩
      · rw [Source.faults_skip] at hfault
        cases hfault
      · have hsize : (law.envelope salt noncePrefix aad).serialized.length = format.headerSize :=
          ByteArr.length_coe _
        rw [hsize] at hlong
        exact absurd hlong (not_lt.mpr haad)
      · exact absurd ha hnot
  · refine ⟨by rw [houtput], .inr ⟨rfl, ?_⟩⟩
    rintro ⟨salt, noncePrefix, flag, chunk, rest, rfl, -⟩
    exact hno salt noncePrefix (Source.startsWith_finite.mpr (List.prefix_append _ _))

/-- The error of a file whose first record does not verify. -/
lemma turnsDown_of_firstRecordFails (law : format.Lawful ssl prim cap) (hs : ssl.Sound prim)
    (ha : ssl.Available prim cap) (hl : prim.gcm.Lengths) (hcap : 2 ^ 20 ≤ cap)
    (haad : format.headerSize + kRecordHeaderSize + aad.length ≤ intMax)
    (hfails : FirstRecordFails prim.gcm (fun salt noncePrefix => law.envelope salt noncePrefix aad) b) :
    let header := fun salt noncePrefix => (law.envelope salt noncePrefix aad).serialized
    (HasFirstRecord header b → TurnsDown (openStream ssl format aad) b authenticationFailed) ∧
    (¬ HasFirstRecord header b → TurnsDown (openStream ssl format aad) b invalidPacket) := by
  intro header
  have hthrows := outcome_openStream_of_firstRecordFails law hs ha hl hcap haad hfails
  constructor
  · intro hfirst lib out
    obtain ⟨error, w', hrun, hwritten, ⟨rfl, -⟩ | ⟨-, hnot⟩⟩ := (hthrows lib out).exists_error
    · exact ⟨w', hrun, hwritten⟩
    · exact absurd hfirst hnot
  · intro hnone lib out
    obtain ⟨error, w', hrun, hwritten, ⟨-, hfirst⟩ | ⟨rfl, -⟩⟩ := (hthrows lib out).exists_error
    · exact absurd hfirst hnone
    · exact ⟨w', hrun, hwritten⟩

/-- Two secrets for one format fail alike. -/
lemma failAlike_of_lawful {format' : FileFormat} {aad' : Bytes}
    (law : format.Lawful ssl prim cap) (law' : format'.Lawful ssl prim cap) (hs : ssl.Sound prim)
    (ha : ssl.Available prim cap) (hl : prim.gcm.Lengths) (hcap : 2 ^ 20 ≤ cap)
    (haad : format.headerSize + kRecordHeaderSize + aad.length ≤ intMax)
    (haad' : format'.headerSize + kRecordHeaderSize + aad'.length ≤ intMax)
    {envelope envelope' : Envelopes}
    (henvelope : ∀ salt noncePrefix, law.envelope salt noncePrefix aad = envelope salt noncePrefix)
    (henvelope' : ∀ salt noncePrefix,
      law'.envelope salt noncePrefix aad' = envelope' salt noncePrefix)
    (hheader : ∀ salt noncePrefix,
      (envelope' salt noncePrefix).serialized = (envelope salt noncePrefix).serialized)
    (hfails : FirstRecordFails prim.gcm envelope b)
    (hfails' : FirstRecordFails prim.gcm envelope' b) :
    FailAlike (openStream ssl format aad) (openStream ssl format' aad') b := by
  have hfirst := turnsDown_of_firstRecordFails law hs ha hl hcap haad
    (by simpa only [henvelope] using hfails)
  have hsecond := turnsDown_of_firstRecordFails law' hs ha hl hcap haad'
    (by simpa only [henvelope'] using hfails')
  simp only [henvelope] at hfirst
  simp only [henvelope', hheader] at hsecond
  by_cases hrecord : HasFirstRecord (fun salt noncePrefix => (envelope salt noncePrefix).serialized) b
  · exact failAlike_of_turnsDown (hfirst.1 hrecord) (hsecond.1 hrecord)
  · exact failAlike_of_turnsDown (hfirst.2 hrecord) (hsecond.2 hrecord)

end Files

end File

/-! ## Packets -/

namespace Packet

/-- The tag of the packet, if the bytes are one, does not verify. -/
def TagFails (gcm : AesGcm) (key : key256) (aad b : Bytes) : Prop :=
  ∀ (nonce : ByteArr kNonceSize) (c : Bytes) (tag : ByteArr kTagSize),
    b = (kMagic : Bytes) ++ [kVersion] ++ (nonce : Bytes) ++ c ++ (tag : Bytes) →
    gcm.verify key nonce ((makeHeader : Bytes) ++ aad) c tag = false

/-- Both decryptions throw the same error. -/
def FailAlike (decrypting₁ decrypting₂ : Eff Lib Bytes) : Prop :=
  ∀ lib₁ lib₂, ∃ error lib₁' lib₂',
    decrypting₁ lib₁ = .error error lib₁' ∧ decrypting₂ lib₂ = .error error lib₂'

section Packets

variable {ssl : Openssl} {prim : Primitives}

/-- The error of a packet whose tag does not verify: it is a function of the bytes. -/
lemma decrypt_of_tagFails (hs : ssl.Sound prim) (ha : ssl.Available prim intMax)
    (hl : prim.gcm.Lengths) {b : Bytes} :
    ∃ error, ∀ (key : key256) (aad : Bytes), aad.length ≤ intMax → TagFails prim.gcm key aad b →
      ∀ lib, ∃ lib', decrypt ssl b key aad lib = .error error lib' := by
  by_cases hjoined : ∃ nonce c tag, b = joined nonce c tag
  · obtain ⟨nonce, c, tag, rfl⟩ := hjoined
    -- The limit on the ciphertext is checked before the tag.
    refine ⟨if c.length ≤ intMax then authenticationFailed else updateLimitError "ciphertext", ?_⟩
    intro key aad haad hfails lib
    have hverify := hfails nonce c tag (by rw [joined, coe_makePacketPrefix, coe_makeHeader])
    have hthrows : Outcome (decrypt ssl (joined nonce c tag) key aad) lib (fun _ _ => False)
        (fun e _ => e = if c.length ≤ intMax then authenticationFailed
          else updateLimitError "ciphertext") := by
      apply outcome_decrypt hs ha hl
      · intro _ hyes
        rw [hverify] at hyes
        cases hyes
      · exact fun hlong => absurd haad (not_le.mpr hlong)
      · intro _ hbig lib'
        rw [if_neg (not_le.mpr hbig)]
      · intro _ hle _ lib'
        rw [if_pos hle]
    obtain ⟨error, lib', hrun, rfl⟩ := hthrows.exists_error
    exact ⟨lib', hrun⟩
  · -- What is no packet is rejected before the key is used.
    refine ⟨invalidPacket, fun key aad _ _ lib => ?_⟩
    exact exists_decrypt_of_not_joined hjoined key aad lib

end Packets

end Packet

/-- **A failed authentication reveals nothing** about which secret was wrong. -/
theorem failure_reveals_nothing {ssl : Openssl} {prim : Primitives} (hs : ssl.Sound prim)
    (ha : ssl.Available prim intMax) (hl : prim.gcm.Lengths) (b aad₁ aad₂ : Bytes) :
    (∀ key₁ key₂ : key256,
      File.kHeaderSize + File.kRecordHeaderSize + aad₁.length ≤ intMax →
      File.kHeaderSize + File.kRecordHeaderSize + aad₂.length ≤ intMax →
      File.FirstRecordFails prim.gcm
        (fun salt noncePrefix => File.keyEnvelope prim key₁ salt noncePrefix aad₁) b →
      File.FirstRecordFails prim.gcm
        (fun salt noncePrefix => File.keyEnvelope prim key₂ salt noncePrefix aad₂) b →
      File.FailAlike (File.openFile ssl key₁ aad₁) (File.openFile ssl key₂ aad₂) b) ∧
    (∀ password₁ password₂ : Bytes, password₁ ≠ [] → password₂ ≠ [] →
      File.kPasswordHeaderSize + File.kRecordHeaderSize + aad₁.length ≤ intMax →
      File.kPasswordHeaderSize + File.kRecordHeaderSize + aad₂.length ≤ intMax →
      File.FirstRecordFails prim.gcm
        (fun salt noncePrefix => File.passwordEnvelope prim password₁ salt noncePrefix aad₁) b →
      File.FirstRecordFails prim.gcm
        (fun salt noncePrefix => File.passwordEnvelope prim password₂ salt noncePrefix aad₂) b →
      File.FailAlike (File.openFileWithPassword ssl password₁ aad₁)
        (File.openFileWithPassword ssl password₂ aad₂) b) ∧
    ∀ key₁ key₂ : key256, aad₁.length ≤ intMax → aad₂.length ≤ intMax →
      Packet.TagFails prim.gcm key₁ aad₁ b → Packet.TagFails prim.gcm key₂ aad₂ b →
      Packet.FailAlike (Packet.decrypt ssl b key₁ aad₁) (Packet.decrypt ssl b key₂ aad₂) := by
  refine ⟨?_, ?_, ?_⟩
  · -- The headers do not depend on the secret, so both calls get to the first record.
    intro key₁ key₂ haad₁ haad₂ hfails₁ hfails₂
    refine File.failAlike_of_lawful (File.keyFormatLawful hs _ key₁) (File.keyFormatLawful hs _ key₂)
      hs ha hl (by decide) haad₁ haad₂ ?_ ?_ ?_ hfails₁ hfails₂
    · intro salt noncePrefix
      simp
    · intro salt noncePrefix
      simp
    · intro salt noncePrefix
      rfl
  · intro password₁ password₂ hpassword₁ hpassword₂ haad₁ haad₂ hfails₁ hfails₂
    rw [File.openFileWithPassword_eq aad₁ hpassword₁, File.openFileWithPassword_eq aad₂ hpassword₂]
    refine File.failAlike_of_lawful (File.passwordFormatLawful hs _ hpassword₁)
      (File.passwordFormatLawful hs _ hpassword₂) hs ha hl (by decide) haad₁ haad₂ ?_ ?_ ?_
      hfails₁ hfails₂
    · intro salt noncePrefix
      simp
    · intro salt noncePrefix
      simp
    · intro salt noncePrefix
      rfl
  · intro key₁ key₂ haad₁ haad₂ hfails₁ hfails₂ lib₁ lib₂
    -- The error depends on the bytes only.
    obtain ⟨error, hthrows⟩ := Packet.decrypt_of_tagFails (b := b) hs ha hl
    obtain ⟨lib₁', hrun₁⟩ := hthrows key₁ aad₁ haad₁ hfails₁ lib₁
    obtain ⟨lib₂', hrun₂⟩ := hthrows key₂ aad₂ haad₂ hfails₂ lib₂
    exact ⟨error, lib₁', lib₂', hrun₁, hrun₂⟩

/-! ## Wrong secrets -/

/-- There are bytes with a first record that verifies under neither of two families of envelopes with
the same headers. -/
lemma File.exists_firstRecordFails {gcm : AesGcm} (hx : gcm.Exact) (envelope₁ envelope₂ : File.Envelopes)
    (header : ByteArr File.kSaltSize → ByteArr File.kNoncePrefixSize → Bytes) {size : ℕ}
    (hheader₁ : ∀ salt noncePrefix, (envelope₁ salt noncePrefix).serialized = header salt noncePrefix)
    (hheader₂ : ∀ salt noncePrefix, (envelope₂ salt noncePrefix).serialized = header salt noncePrefix)
    (hsize : ∀ salt noncePrefix, (header salt noncePrefix).length = size)
    (hinjective : ∀ {salt noncePrefix salt' noncePrefix'},
      header salt noncePrefix = header salt' noncePrefix' → salt = salt' ∧ noncePrefix = noncePrefix') :
    ∃ b, File.HasFirstRecord header b ∧ File.FirstRecordFails gcm envelope₁ b ∧
      File.FirstRecordFails gcm envelope₂ b := by
  let salt : ByteArr File.kSaltSize := ByteArr.zeros _
  let noncePrefix : ByteArr File.kNoncePrefixSize := ByteArr.zeros _
  let e₁ := envelope₁ salt noncePrefix
  let e₂ := envelope₂ salt noncePrefix
  obtain ⟨tag, hunverified₁, hunverified₂⟩ := hx.exists_unverified e₁.fileKey e₂.fileKey (e₁.nonce 0)
    (e₂.nonce 0) (e₁.chunkAad 0 File.kFinal 1) (e₂.chunkAad 0 File.kFinal 1) [0x63]
  let chunk : File.EncryptedChunk := ⟨[0x63], tag⟩
  have hwell : File.WellFormed File.kFinal chunk := .inr ⟨rfl, (by decide : 1 ≤ 2 ^ 20)⟩
  -- The header and the first record can be read off the bytes.
  have hparse : ∀ {salt' noncePrefix' flag chunk' rest}, header salt noncePrefix ++
      (File.recordBytes 0 File.kFinal chunk ++ []) = header salt' noncePrefix' ++
        (File.recordBytes 0 flag chunk' ++ rest) → File.WellFormed flag chunk' →
      salt = salt' ∧ noncePrefix = noncePrefix' ∧ File.kFinal = flag ∧ chunk = chunk' := by
    intro salt' noncePrefix' flag chunk' rest hbytes hwell'
    obtain ⟨hheader, hrecords⟩ := List.append_inj hbytes (by rw [hsize, hsize])
    obtain ⟨hsalt, hprefix⟩ := hinjective hheader
    have hfront : (Source.finite (File.recordBytes 0 File.kFinal chunk ++ []) .eof).StartsWith
        (File.recordBytes 0 File.kFinal chunk) := Source.startsWith_finite.mpr (List.prefix_append _ _)
    have hfront' : (Source.finite (File.recordBytes 0 File.kFinal chunk ++ []) .eof).StartsWith
        (File.recordBytes 0 flag chunk') := by
      rw [hrecords]
      exact Source.startsWith_finite.mpr (List.prefix_append _ _)
    exact ⟨hsalt, hprefix, hwell.unique hwell' hfront hfront'⟩
  refine ⟨header salt noncePrefix ++ (File.recordBytes 0 File.kFinal chunk ++ []),
    ⟨salt, noncePrefix, File.kFinal, chunk, [], rfl, hwell, fun _ => rfl⟩, ?_, ?_⟩
  · intro salt' noncePrefix' flag chunk' rest hbytes hwell'
    rw [hheader₁] at hbytes
    obtain ⟨rfl, rfl, rfl, rfl⟩ := hparse hbytes hwell'
    exact Bool.eq_false_iff.mp hunverified₁
  · intro salt' noncePrefix' flag chunk' rest hbytes hwell'
    rw [hheader₂] at hbytes
    obtain ⟨rfl, rfl, rfl, rfl⟩ := hparse hbytes hwell'
    exact Bool.eq_false_iff.mp hunverified₂

/-- There is a packet whose tag verifies under neither of two keys. -/
lemma Packet.exists_tagFails {gcm : AesGcm} (hx : gcm.Exact) (key₁ key₂ : key256) (aad₁ aad₂ c : Bytes) :
    ∃ nonce tag, Packet.TagFails gcm key₁ aad₁ (Packet.joined nonce c tag) ∧
      Packet.TagFails gcm key₂ aad₂ (Packet.joined nonce c tag) := by
  let nonce : ByteArr Packet.kNonceSize := ByteArr.zeros _
  obtain ⟨tag, hunverified₁, hunverified₂⟩ := hx.exists_unverified key₁ key₂ nonce nonce
    ((Packet.makeHeader : Bytes) ++ aad₁) ((Packet.makeHeader : Bytes) ++ aad₂) c
  have hparse : ∀ {nonce' : ByteArr Packet.kNonceSize} {c'} {tag' : ByteArr Packet.kTagSize},
      Packet.joined nonce c tag =
        (Packet.kMagic : Bytes) ++ [Packet.kVersion] ++ (nonce' : Bytes) ++ c' ++ (tag' : Bytes) →
      nonce = nonce' ∧ c = c' ∧ tag = tag' := by
    intro nonce' c' tag' hbytes
    apply Packet.joined_injective
    rw [hbytes, Packet.joined, Packet.coe_makePacketPrefix, Packet.coe_makeHeader]
  refine ⟨nonce, tag, fun nonce' c' tag' hbytes => ?_, fun nonce' c' tag' hbytes => ?_⟩
  · obtain ⟨rfl, rfl, rfl⟩ := hparse hbytes
    exact hunverified₁
  · obtain ⟨rfl, rfl, rfl⟩ := hparse hbytes
    exact hunverified₂

/-- With the standard primitives, a file, a password-protected file and a packet that two secrets do not
fit are refused alike.  The files have a first record. -/
theorem failure_reveals_nothing_standard :
    (∃ b, File.HasFirstRecord File.headerBytes b ∧
      File.FailAlike (File.openFile standardLibrary (ByteArr.zeros 32) [])
        (File.openFile standardLibrary (ByteArr.ofBytes 32 [1]) [0x62]) b) ∧
    (∃ b, File.HasFirstRecord File.passwordHeaderBytes b ∧
      File.FailAlike (File.openFileWithPassword standardLibrary [0x63] [])
        (File.openFileWithPassword standardLibrary [0x64] [0x62]) b) ∧
    ∃ nonce tag,
      Packet.FailAlike
        (Packet.decrypt standardLibrary (Packet.joined nonce [0x61] tag) (ByteArr.zeros 32) [])
        (Packet.decrypt standardLibrary (Packet.joined nonce [0x61] tag) (ByteArr.ofBytes 32 [1])
          [0x62]) := by
  have hresult := fun b => failure_reveals_nothing standardLibrary_sound (standardLibrary_available _)
    standard_lengths b [] [0x62]
  refine ⟨?_, ?_, ?_⟩
  · -- A file with one record whose tag is wrong under both keys.
    let law := File.keyFormatLawful standardLibrary_sound (2 ^ 20) (ByteArr.zeros 32)
    obtain ⟨b, hfirst, hfails₁, hfails₂⟩ := File.exists_firstRecordFails standard_exact
      (fun salt noncePrefix => File.keyEnvelope standard (ByteArr.zeros 32) salt noncePrefix [])
      (fun salt noncePrefix =>
        File.keyEnvelope standard (ByteArr.ofBytes 32 [1]) salt noncePrefix [0x62]) File.headerBytes
      (fun _ _ => rfl) (fun _ _ => rfl)
      (fun salt noncePrefix => ByteArr.length_coe (File.fileHeader salt noncePrefix).serialized)
      fun hheader => law.serialized_injective (ByteArr.ext hheader)
    exact ⟨b, hfirst, (hresult b).1 _ _ (by decide) (by decide) hfails₁ hfails₂⟩
  · -- The same for two passwords.
    have hne : ([0x63] : Bytes) ≠ [] := by simp
    let law := File.passwordFormatLawful standardLibrary_sound (2 ^ 20) hne
    obtain ⟨b, hfirst, hfails₁, hfails₂⟩ := File.exists_firstRecordFails standard_exact
      (fun salt noncePrefix => File.passwordEnvelope standard [0x63] salt noncePrefix [])
      (fun salt noncePrefix => File.passwordEnvelope standard [0x64] salt noncePrefix [0x62])
      File.passwordHeaderBytes (fun _ _ => rfl) (fun _ _ => rfl)
      (fun salt noncePrefix => ByteArr.length_coe (File.passwordFileHeader salt noncePrefix).serialized)
      fun hheader => law.serialized_injective (ByteArr.ext hheader)
    exact ⟨b, hfirst, (hresult b).2.1 _ _ hne (by simp) (by decide) (by decide) hfails₁ hfails₂⟩
  · -- A packet of one byte whose tag is wrong under both keys.
    obtain ⟨nonce, tag, hfails₁, hfails₂⟩ := Packet.exists_tagFails standard_exact (ByteArr.zeros 32)
      (ByteArr.ofBytes 32 [1]) [] [0x62] [0x61]
    exact ⟨nonce, tag, (hresult _).2.2 _ _ (by decide) (by decide) hfails₁ hfails₂⟩

end SecureKit
