import SecureKit.Base.Kdf
import SecureKit.File.Seal
import SecureKit.File.Open

/-!
# What was sealed can be opened

The round trip of the stream overloads: opening the bytes that sealing wrote, with the same
secret and the same additional data, writes the plaintext.

The two loops are never compared with each other.  Sealing produces records of a certain shape
(`outcome_sealStream`), records of that shape have the plaintext as their meaning
(`Envelope.reads_sealed`), and opening follows the meaning of a body (`openStream_settled`).
What is needed of the cipher is collected in `Envelope.Recovers`, chunk by chunk.

## The parts

`sealStream_sealed` and `openStream_sealed` are about one format, a `FileFormat` that is `Lawful`:
its header is written and parsed as the envelope says, and its key is derived from the secret and
the salt.  `open_seal_roundTrip` takes the format of a key and that of a password.

`Envelope.Recovers` is all that the cipher is asked for: a sealed chunk verifies under its index
and flag, and decrypts to its plaintext.  It follows from `AesGcm.Correct`.  The two calls may use
different libraries, as long as both compute the same primitives (`Openssl.Sound`); each of them
must be `Available`, so that no failure of its own ends a call.

The bound on the plaintext, 2^52 bytes, is the one of the 32-bit chunk index.  Up to this bound the
input is arbitrary, and in `RoundTrips` so are the states of both libraries and what the two
outputs hold before the calls.
-/

namespace SecureKit.File

open ByteString Effect Iostream Evp

/-! ## Reading back sealed records -/

namespace Envelope

variable {gcm : AesGcm} {e : Envelope}

/-- The chunk sealed at an index verifies there and decrypts to its plaintext. -/
def Recovers (gcm : AesGcm) (e : Envelope) (i : ℕ) (flag : UInt8) (plaintext : Bytes) : Prop :=
  e.Verifies gcm i flag (e.sealed gcm i flag plaintext) ∧
    e.plaintext gcm i (e.sealed gcm i flag plaintext) = plaintext

/-- All chunks of a plaintext cut into full parts and a last one, from a given index on. -/
def RecoversAll (gcm : AesGcm) (e : Envelope) : ℕ → List Bytes → Bytes → Prop
  | i, [], last => e.Recovers gcm i kFinal last
  | i, part :: parts, last => e.Recovers gcm i kNotFinal part ∧ e.RecoversAll gcm (i + 1) parts last

lemma recovers_of_correct (hl : gcm.Lengths) (hc : gcm.Correct) (i : ℕ) (flag : UInt8)
    (plaintext : Bytes) : e.Recovers gcm i flag plaintext := by
  refine ⟨?_, hc.decText_encText _ _ _⟩
  have hlen : (e.sealed gcm i flag plaintext).ciphertext.length = plaintext.length :=
    hl.length_encText _ _ _
  rw [Verifies, hlen]
  exact hc.verify_tag _ _ _ _

lemma recoversAll_of_correct (hl : gcm.Lengths) (hc : gcm.Correct) (i : ℕ) (parts : List Bytes)
    (last : Bytes) : e.RecoversAll gcm i parts last := by
  induction parts generalizing i with
  | nil => exact recovers_of_correct hl hc i kFinal last
  | cons part parts ih => exact ⟨recovers_of_correct hl hc i kNotFinal part, ih (i + 1)⟩

/-- Sealed full parts are verified, they have the parts as their text, and the last one recovers
behind them. -/
lemma recoversAll_full (hl : gcm.Lengths) {i : ℕ} {parts : List Bytes} {last : Bytes}
    (hfull : ∀ part ∈ parts, part.length = 2 ^ 20) (h : e.RecoversAll gcm i parts last) :
    e.VerifiedFull gcm i (e.sealFull gcm i parts) ∧
      e.plaintexts gcm i (e.sealFull gcm i parts) = parts.flatten ∧
      e.Recovers gcm (i + parts.length) kFinal last := by
  induction parts generalizing i with
  | nil => exact ⟨trivial, rfl, h⟩
  | cons part parts ih =>
    obtain ⟨hpart, hrest⟩ := h
    obtain ⟨hverified, htext, hlast⟩ := ih (fun p hp => hfull p (by simp [hp])) hrest
    have hlen : (e.sealed gcm i kNotFinal part).ciphertext.length = 2 ^ 20 := by
      rw [← hfull part (by simp)]
      exact hl.length_encText _ _ _
    refine ⟨⟨hlen, hpart.1, hverified⟩, ?_, ?_⟩
    · rw [sealFull, plaintexts, hpart.2, htext, List.flatten_cons]
    · rwa [List.length_cons, Nat.add_comm parts.length, ← Nat.add_assoc]

/-- **The meaning of sealed records** is the plaintext they were made of. -/
theorem reads_sealed (hl : gcm.Lengths) {parts : List Bytes} {last : Bytes}
    (hfull : ∀ part ∈ parts, part.length = 2 ^ 20) (hlast : last.length ≤ 2 ^ 20)
    (hindex : parts.length < 2 ^ 32) (h : e.RecoversAll gcm 0 parts last) :
    e.Reads gcm 0 (.finite (e.sealedBody gcm 0 parts last) .eof) (parts.flatten ++ last)
      .accepted := by
  obtain ⟨hverified, htext, hrecovers⟩ := recoversAll_full hl hfull h
  have hlen : (e.sealed gcm (0 + parts.length) kFinal last).ciphertext.length ≤ 2 ^ 20 :=
    (hl.length_encText _ _ _).trans_le hlast
  refine (reads_accepted_iff (by decide)).mpr ⟨e.sealFull gcm 0 parts,
    e.sealed gcm (0 + parts.length) kFinal last, ⟨hverified, ?_, ?_, ?_⟩, ?_, ?_⟩
  · rw [Source.startsWith_finite]
    exact List.prefix_append _ _
  · rw [sealedBody, Source.skip_finite_append, length_sealFull]
    exact ⟨.inr ⟨rfl, hlen⟩, Source.startsWith_self _ _, fun _ => by simp [Source.skip]⟩
  · rwa [length_sealFull, Nat.zero_add]
  · rw [length_sealFull]
    exact hrecovers.1
  · rw [length_sealFull, htext, hrecovers.2]

end Envelope

/-! ## The round trip -/

section RoundTrip

variable {ssl ssl' : Openssl} {prim : Primitives} {cap : ℕ} {format format' : FileFormat}
  {aad : Bytes}

/-- **Opening a sealed file** returns and writes the plaintext. -/
theorem openStream_sealed (law : format.Lawful ssl prim cap) (hs : ssl.Sound prim)
    (ha : ssl.Available prim cap) (hl : prim.gcm.Lengths) (hcap : 2 ^ 20 ≤ cap)
    (haad : format.headerSize + kRecordHeaderSize + aad.length ≤ intMax)
    {e : Envelope} {salt : ByteArr kSaltSize} {noncePrefix : ByteArr kNoncePrefixSize}
    (he : law.envelope salt noncePrefix aad = e) {parts : List Bytes} {last : Bytes}
    {w : World OStream} (hw : w.input = .ofBytes (e.serialized ++ e.sealedBody prim.gcm 0 parts last))
    (hrel : w.output.Reliable) (hfull : ∀ part ∈ parts, part.length = 2 ^ 20)
    (hlast : last.length ≤ 2 ^ 20) (hindex : parts.length < 2 ^ 32)
    (h : e.RecoversAll prim.gcm 0 parts last) :
    Returns (openStream ssl format aad) w
      (fun _ w' => w'.output.written = w.output.written ++ (parts.flatten ++ last)) := by
  have hsource : w.input.source =
      .finite (e.serialized ++ e.sealedBody prim.gcm 0 parts last) .eof := by rw [hw]; rfl
  have hsize : format.headerSize = e.serialized.length := by
    rw [← he]
    exact (ByteArr.length_coe _).symm
  have hstarts : w.input.source.StartsWith e.serialized := by
    rw [hsource, Source.startsWith_finite]
    exact List.prefix_append _ _
  have hreads := Envelope.reads_sealed hl hfull hlast hindex h
  rw [← Source.skip_finite_append e.serialized, ← hsource, ← hsize] at hreads
  subst he
  refine (openStream_settled law hs ha hl hcap (by rw [hw]; rfl) (by rw [hw]; rfl) hrel haad
    hstarts hreads (by simp)).mono ?_ ?_
  · rintro ⟨⟩ w' ⟨-, -, hwritten⟩
    exact hwritten
  · rintro error w' ⟨hreported, -⟩
    exact hreported

/-- **Sealing without failure** returns, and has cut the input into parts and written their
records. -/
theorem sealStream_sealed (law : format.Lawful ssl prim cap) (hs : ssl.Sound prim)
    (ha : ssl.Available prim cap) (hl : prim.gcm.Lengths) (hcap : 2 ^ 20 ≤ cap)
    (haad : format.headerSize + kRecordHeaderSize + aad.length ≤ intMax) {plaintext : Bytes}
    (hplaintext : plaintext.length ≤ 2 ^ 52) {w : World OStream}
    (hw : w.input = .ofBytes plaintext) (hrel : w.output.Reliable) :
    Returns (sealStream ssl format aad) w (fun _ w' => ∃ salt noncePrefix parts last,
      (∀ part ∈ parts, part.length = 2 ^ 20) ∧ last.length ≤ 2 ^ 20 ∧ parts.length < 2 ^ 32 ∧
        plaintext = parts.flatten ++ last ∧
        w'.output.written = w.output.written ++
          ((law.envelope salt noncePrefix aad).serialized ++
            (law.envelope salt noncePrefix aad).sealedBody prim.gcm 0 parts last)) := by
  refine (outcome_sealStream law hs hl hcap (by rw [hw]; rfl)).mono ?_ ?_
  · rintro ⟨⟩ w' ⟨salt, noncePrefix, parts, last, -, -, h⟩
    have hsource := h.source
    rw [hw] at hsource
    cases hsource
    refine ⟨salt, noncePrefix, parts, last, h.full, h.last_le, by simpa using h.index_lt, rfl, ?_⟩
    exact h.handed.written_eq (h.reliable hrel).1
  · rintro error w' (⟨-, havail, -⟩ | ⟨salt, noncePrefix, parts, h⟩)
    · exact havail ha
    · have hsize : (law.envelope salt noncePrefix aad).serialized.length = format.headerSize :=
        ByteArr.length_coe _
      rcases h.cause with ⟨-, hf, -⟩ | ⟨-, hindex, -, hhas, -⟩ |
        ⟨⟨-, hlong⟩ | ⟨-, havail⟩ | ⟨-, hnot⟩, -⟩
      · rw [hw] at hf
        cases hf
      · rw [hw, IStream.ofBytes, Source.has_finite] at hhas
        omega
      · simp only [FileFormat.Lawful.envelope] at hlong hsize
        omega
      · exact havail ha
      · exact hnot hrel

/-- Sealing and then opening the bytes that sealing wrote gives the plaintext back, wherever the
two calls find the library and the output. -/
def RoundTrips (sealing opening : Eff (World OStream) Unit) (plaintext : Bytes) : Prop :=
  ∀ (lib lib' : Lib) (out out' : OStream), out.Reliable → out'.Reliable →
    ∃ file w₁ w₂,
      sealing { input := .ofBytes plaintext, output := out, lib } = .ok () w₁ ∧
      w₁.output.written = out.written ++ file ∧
      opening { input := .ofBytes file, output := out', lib := lib' } = .ok () w₂ ∧
      w₂.output.written = out'.written ++ plaintext

lemma roundTrips_of_lawful (law : format.Lawful ssl prim cap)
    (law' : format'.Lawful ssl' prim cap) (hs : ssl.Sound prim) (hs' : ssl'.Sound prim)
    (ha : ssl.Available prim cap) (ha' : ssl'.Available prim cap) (hl : prim.gcm.Lengths)
    (hc : prim.gcm.Correct) (hcap : 2 ^ 20 ≤ cap) {plaintext : Bytes}
    (hplaintext : plaintext.length ≤ 2 ^ 52) (hsize : format'.headerSize = format.headerSize)
    (henvelope : ∀ salt noncePrefix, law'.envelope salt noncePrefix aad =
      law.envelope salt noncePrefix aad)
    (haad : format.headerSize + kRecordHeaderSize + aad.length ≤ intMax) :
    RoundTrips (sealStream ssl format aad) (openStream ssl' format' aad) plaintext := by
  intro lib lib' out out' hout hout'
  obtain ⟨⟨⟩, w₁, hseal, salt, noncePrefix, parts, last, hfull, hlast, hindex, rfl, hwritten⟩ :=
    (sealStream_sealed law hs ha hl hcap haad hplaintext
      (w := { input := .ofBytes plaintext, output := out, lib }) rfl hout).exists_ok
  obtain ⟨⟨⟩, w₂, hopen, hwritten'⟩ :=
    (openStream_sealed law' hs' ha' hl hcap (hsize ▸ haad) (henvelope salt noncePrefix)
      (w := { input := .ofBytes _, output := out', lib := lib' }) rfl hout' hfull hlast hindex
      (Envelope.recoversAll_of_correct hl hc 0 parts last)).exists_ok
  exact ⟨_, w₁, w₂, hseal, hwritten, hopen, hwritten'⟩

/-- **File round trip.** -/
theorem open_seal_roundTrip (hs : ssl.Sound prim) (hs' : ssl'.Sound prim)
    (ha : ssl.Available prim (2 ^ 20)) (ha' : ssl'.Available prim (2 ^ 20))
    (hl : prim.gcm.Lengths) (hc : prim.gcm.Correct) (plaintext aad : Bytes)
    (hplaintext : plaintext.length ≤ 2 ^ 52) :
    (∀ key : key256, kHeaderSize + kRecordHeaderSize + aad.length ≤ intMax →
      RoundTrips (sealFile ssl key aad) (openFile ssl' key aad) plaintext) ∧
    ∀ password : Bytes, password ≠ [] →
      kPasswordHeaderSize + kRecordHeaderSize + aad.length ≤ intMax →
      RoundTrips (sealFileWithPassword ssl password aad) (openFileWithPassword ssl' password aad)
        plaintext := by
  constructor
  · intro key haad
    exact roundTrips_of_lawful (keyFormatLawful hs _ key) (keyFormatLawful hs' _ key) hs hs' ha ha'
      hl hc le_rfl hplaintext rfl (fun _ _ => by simp) haad
  · intro password hpassword haad
    rw [sealFileWithPassword_eq aad hpassword, openFileWithPassword_eq aad hpassword]
    exact roundTrips_of_lawful (passwordFormatLawful hs _ hpassword)
      (passwordFormatLawful hs' _ hpassword) hs hs' ha ha' hl hc le_rfl hplaintext rfl
      (fun _ _ => by simp) haad

end RoundTrip

/-- The round trip of one byte with the standard primitives. -/
theorem open_seal_roundTrip_standard :
    RoundTrips (sealFile standardLibrary (ByteArr.zeros 32) [0x61])
      (openFile standardLibrary (ByteArr.zeros 32) [0x61]) [0x62] ∧
    RoundTrips (sealFileWithPassword standardLibrary [0x70] [0x61])
      (openFileWithPassword standardLibrary [0x70] [0x61]) [0x62] := by
  have h := open_seal_roundTrip standardLibrary_sound standardLibrary_sound
    (standardLibrary_available _) (standardLibrary_available _) standard_lengths
    standard_exact.correct [0x62] [0x61] (by decide)
  exact ⟨h.1 (ByteArr.zeros 32) (by decide), h.2 [0x70] (by simp) (by decide)⟩

end SecureKit.File
