import SecureKit.File.Layout
import SecureKit.File.Truncation

/-!
# Sealing again what was opened

Which byte strings open to a given plaintext.  Where decryption yields exactly what encryption
takes (`AesGcm.Exact`), the chunks of an accepted file are the sealed chunks of their own plaintexts
(`Envelope.IsFile.bytes_eq`), so the file is determined by the way its plaintext is cut.  An
accepted file may use any cut into full chunks and a last one, sealing always uses the canonical
cut, and `Chunks.IsCut.eq_or_boundary` compares the two: they agree, unless the file ends in an
empty record that it does not need (`Envelope.IsOverlong`).

## The exception

It is real.  `open_file_payload` does not compare a final record with the one in front of it, so a
plaintext of full chunks only has two accepted files: the one that sealing makes, whose last full
chunk is final, and one with an empty final record behind it.  Sealing never makes the second one,
since it looks ahead behind a full read.

`Reseals` is stated for both formats at once.  A call that accepts `b` has read an envelope off its
header, and under this envelope `seal_stream_payload` makes `b` again of the plaintext that was
written, or else `b` is overlong.

`AesGcm.Exact` is needed for this direction only.  A round trip asks that decryption undoes
encryption; here encryption has to undo decryption, so that a verified chunk is the one that is
made of its plaintext.  A stream cipher with a tag computed from the ciphertext is of this kind.
-/

namespace SecureKit.File

open ByteString Effect Iostream Evp Chunks

namespace Envelope

variable {gcm : AesGcm} {e : Envelope} {b : Bytes} {full : List EncryptedChunk}
  {last : EncryptedChunk}

/-! ## Verified chunks are sealed chunks -/

/-- A chunk that verifies is what sealing makes of its plaintext. -/
lemma eq_sealed_of_verifies (hl : gcm.Lengths) (hx : gcm.Exact) {i : ℕ} {flag : UInt8}
    {chunk : EncryptedChunk} (hv : e.Verifies gcm i flag chunk) :
    e.sealed gcm i flag (e.plaintext gcm i chunk) = chunk := by
  have hlen : (e.plaintext gcm i chunk).length = chunk.ciphertext.length :=
    hl.length_decText _ _ _
  obtain ⟨hciphertext, htag⟩ := (hx.verify_iff _ _ _ _ _ _).mp ⟨hv, rfl⟩
  obtain ⟨ciphertext, tag⟩ := chunk
  unfold sealed chunkOf
  rw [hlen]
  exact congrArg₂ EncryptedChunk.mk hciphertext htag

/-- The decrypted texts of a run of chunks, from a given index on. -/
def texts (gcm : AesGcm) (e : Envelope) : ℕ → List EncryptedChunk → List Bytes
  | _, [] => []
  | first, chunk :: chunks => e.plaintext gcm first chunk :: texts gcm e (first + 1) chunks

@[simp] lemma length_texts (first : ℕ) (chunks : List EncryptedChunk) :
    (e.texts gcm first chunks).length = chunks.length := by
  induction chunks generalizing first with
  | nil => rfl
  | cons chunk chunks ih => rw [texts, List.length_cons, ih, List.length_cons]

lemma flatten_texts (first : ℕ) (chunks : List EncryptedChunk) :
    (e.texts gcm first chunks).flatten = e.plaintexts gcm first chunks := by
  induction chunks generalizing first with
  | nil => rfl
  | cons chunk chunks ih => rw [texts, List.flatten_cons, ih, plaintexts]

lemma length_of_mem_texts (hl : gcm.Lengths) {first : ℕ} {chunks : List EncryptedChunk}
    (h : ∀ chunk ∈ chunks, chunk.ciphertext.length = 2 ^ 20) :
    ∀ part ∈ e.texts gcm first chunks, part.length = 2 ^ 20 := by
  induction chunks generalizing first with
  | nil => simp [texts]
  | cons chunk chunks ih =>
    intro part hpart
    rcases List.mem_cons.mp hpart with rfl | hpart
    · exact (hl.length_decText _ _ _).trans (h chunk List.mem_cons_self)
    · exact ih (fun c hc => h c (List.mem_cons_of_mem _ hc)) part hpart

/-- Verified full chunks are what sealing makes of their texts. -/
lemma sealFull_texts (hl : gcm.Lengths) (hx : gcm.Exact) {first : ℕ}
    (h : e.VerifiedFull gcm first full) : e.sealFull gcm first (e.texts gcm first full) = full := by
  induction full generalizing first with
  | nil => rfl
  | cons chunk full ih =>
    obtain ⟨-, hv, hrest⟩ := h
    rw [texts, sealFull, eq_sealed_of_verifies hl hx hv, ih hrest]

/-- **The bytes of an accepted file** are those of its sealed texts. -/
lemma IsFile.bytes_eq (hl : gcm.Lengths) (hx : gcm.Exact) (h : e.IsFile gcm b full last) :
    b = e.serialized ++
      e.sealedBody gcm 0 (e.texts gcm 0 full) (e.plaintext gcm full.length last) := by
  rw [sealedBody, sealFull_texts hl hx h.verified, length_texts, Nat.zero_add,
    eq_sealed_of_verifies hl hx h.last_verifies]
  exact h.bytes

/-- The records of an accepted file cut its plaintext. -/
lemma IsFile.isCut (hl : gcm.Lengths) (h : e.IsFile gcm b full last) :
    IsCut (2 ^ 20) (e.texts gcm 0 full) (e.plaintext gcm full.length last)
      (e.text gcm full last) where
  eq_flatten := by rw [text, flatten_texts]
  full := length_of_mem_texts hl h.verified.length_eq
  last_le := (hl.length_decText _ _ _).trans_le h.last_le

/-- The file is that of a plaintext of `q` full chunks, with one more record, which is empty. -/
structure IsOverlong (gcm : AesGcm) (e : Envelope) (plaintext b : Bytes) (q : ℕ) : Prop where
  pos : 1 ≤ q
  length : plaintext.length = q * 2 ^ 20
  bytes : b = e.serialized ++
    (fullRecords 0 (e.sealFull gcm 0 ((List.range q).map (chunkAt (2 ^ 20) plaintext))) ++
      recordBytes q kFinal (e.sealed gcm q kFinal []))

/-- A file that is cut otherwise than sealing cuts has one empty record too many. -/
lemma IsFile.isOverlong (hl : gcm.Lengths) (hx : gcm.Exact) (h : e.IsFile gcm b full last)
    (hcanonical : ¬ (h.isCut hl).Canonical) :
    e.IsOverlong gcm (e.text gcm full last) b full.length := by
  have hcut := h.isCut hl
  have hshape : e.texts gcm 0 full ≠ [] ∧ e.plaintext gcm full.length last = [] := by
    unfold IsCut.Canonical at hcanonical
    push Not at hcanonical
    exact hcanonical
  obtain ⟨hne, hnil⟩ := hshape
  have hbytes := h.bytes_eq hl hx
  have hlen := hcut.length_eq
  have hparts := hcut.map_chunkAt
  rw [length_texts] at hlen hparts
  constructor
  · have hcount : (e.texts gcm 0 full).length = full.length := length_texts 0 full
    rw [← hcount]
    exact List.length_pos_iff.mpr hne
  · rw [hlen, hnil, List.length_nil]
    omega
  · rw [hnil, sealedBody, length_texts, Nat.zero_add] at hbytes
    rw [hparts]
    exact hbytes

end Envelope

/-! ## Sealing the plaintext of an accepted file -/

section Reseal

variable {ssl : Openssl} {prim : Primitives} {cap : ℕ} {format : FileFormat} {aad b : Bytes}

/-- What `seal_stream_payload` writes for the plaintext, with what the chunks of the file share, is
`b`. -/
def SealsTo (ssl : Openssl) (e : Envelope) (plaintext b : Bytes) : Prop :=
  ∀ (lib : Lib) (out : OStream), out.Reliable → ∃ w' : World OStream,
    sealStreamPayload ssl e.serialized e.noncePrefix e.fileKey e.aad
        { input := .ofBytes plaintext, output := out, lib } = .ok () w' ∧
      w'.output.written = out.written ++ b

/-- Sealing again recovers the file, or the file has one empty record too many. -/
def Reseals (ssl : Openssl) (opening : Eff (World OStream) Unit) (gcm : AesGcm)
    (envelope : Envelopes) (b : Bytes) : Prop :=
  ∀ (lib : Lib) (out : OStream) (w' : World OStream), out.Reliable →
    opening { input := .ofBytes b, output := out, lib } = .ok () w' →
    ∃ salt noncePrefix body plaintext, b = (envelope salt noncePrefix).serialized ++ body ∧
      w'.output.written = out.written ++ plaintext ∧
      (SealsTo ssl (envelope salt noncePrefix) plaintext b ∨
        ∃ q, (envelope salt noncePrefix).IsOverlong gcm plaintext b q)

/-- Sealing cuts a plaintext in the one way that is canonical. -/
lemma sealsTo_of_cut (hs : ssl.Sound prim) (ha : ssl.Available prim (2 ^ 20))
    (hl : prim.gcm.Lengths) {e : Envelope} {parts : List Bytes} {last plaintext : Bytes}
    (h : IsCut (2 ^ 20) parts last plaintext) (hc : h.Canonical) (hlen : plaintext.length ≤ 2 ^ 52)
    (haad : e.serialized.length + kRecordHeaderSize + e.aad.length ≤ intMax) :
    SealsTo ssl e plaintext (e.serialized ++ e.sealedBody prim.gcm 0 parts last) := by
  intro lib out hrel
  obtain ⟨⟨⟩, w', hrun, parts', last', h', hc', -, hwritten⟩ :=
    (returns_sealStreamPayload_cut hs ha hl (e := e)
      (w := { input := .ofBytes plaintext, output := out, lib }) rfl rfl hlen hrel haad).exists_ok
  refine ⟨w', hrun, ?_⟩
  rcases h'.eq_or_boundary hc' h (by decide) with ⟨rfl, rfl⟩ | ⟨rfl, rfl, -⟩
  · exact hwritten
  · exact absurd rfl (hc (by simp))

lemma reseals_of_lawful (law : format.Lawful ssl prim cap) (hs : ssl.Sound prim)
    (ha : ssl.Available prim (2 ^ 20)) (ha' : ssl.Available prim cap) (hl : prim.gcm.Lengths)
    (hx : prim.gcm.Exact) (hcap : 2 ^ 20 ≤ cap) {envelope : Envelopes}
    (henvelope : ∀ salt noncePrefix, law.envelope salt noncePrefix aad = envelope salt noncePrefix) :
    Reseals ssl (openStream ssl format aad) prim.gcm envelope b := by
  intro lib out w' hrel hrun
  have haad : format.headerSize + kRecordHeaderSize + aad.length ≤ intMax := by
    by_contra hlong
    exact (outcome_openStream_of_long (E := fun _ _ => True) law hs hl hcap rfl (not_le.mp hlong)
      (fun _ _ => trivial) (fun _ _ => trivial) fun _ _ _ => trivial).of_ok hrun
  obtain ⟨⟨salt, noncePrefix, full, last, hfile⟩, hwritten⟩ :=
    (outcome_openStream_bytes law hs ha' hl hcap haad rfl hrel).of_ok hrun
  refine ⟨salt, noncePrefix, fullRecords 0 full ++ recordBytes full.length kFinal last,
    (envelope salt noncePrefix).text prim.gcm full last, ?_⟩
  rw [← henvelope]
  refine ⟨hfile.bytes, hwritten _ _ _ _ hfile, ?_⟩
  -- Sealing cuts canonically, so it gives the file back unless this was cut in another way.
  by_cases hc : (hfile.isCut hl).Canonical
  · left
    have hcut := hfile.isCut hl
    have hlen := hcut.length_eq
    have hlast := hcut.last_le
    have hindex := hfile.index_le
    have hheader : (law.envelope salt noncePrefix aad).serialized.length = format.headerSize :=
      ByteArr.length_coe _
    rw [Envelope.length_texts] at hlen
    have hseals := sealsTo_of_cut hs ha hl hcut hc (by omega) (by rw [hheader]; exact haad)
    rw [← hfile.bytes_eq hl hx] at hseals
    exact hseals
  · exact .inr ⟨_, hfile.isOverlong hl hx hc⟩

/-- **Re-sealing recovers every accepted file** but those with one empty record too many. -/
theorem seal_open_reseals (hs : ssl.Sound prim) (ha : ssl.Available prim (2 ^ 20))
    (hl : prim.gcm.Lengths) (hx : prim.gcm.Exact) (b aad : Bytes) :
    (∀ key : key256, Reseals ssl (openFile ssl key aad) prim.gcm
      (fun salt noncePrefix => keyEnvelope prim key salt noncePrefix aad) b) ∧
    ∀ password : Bytes, Reseals ssl (openFileWithPassword ssl password aad) prim.gcm
      (fun salt noncePrefix => passwordEnvelope prim password salt noncePrefix aad) b := by
  constructor
  · intro key
    exact reseals_of_lawful (keyFormatLawful hs _ key) hs ha ha hl hx le_rfl fun _ _ => by simp
  · intro password
    by_cases hpassword : password = []
    · subst hpassword
      intro lib out w' hrel hrun
      cases hrun
    · rw [openFileWithPassword_eq aad hpassword]
      exact reseals_of_lawful (passwordFormatLawful hs _ hpassword) hs ha ha hl hx le_rfl
        fun _ _ => by simp

end Reseal

/-- With the standard primitives, the file of one byte is accepted, and sealing its plaintext again
recovers it. -/
theorem seal_open_reseals_standard : ∃ b w',
    openFile standardLibrary (ByteArr.zeros 32) [0x61]
      ({ input := .ofBytes b, output := {} } : World OStream) = .ok () w' ∧
    Reseals standardLibrary (openFile standardLibrary (ByteArr.zeros 32) [0x61]) standard.gcm
      (fun salt noncePrefix => keyEnvelope standard (ByteArr.zeros 32) salt noncePrefix [0x61])
      b := by
  let law := keyFormatLawful standardLibrary_sound (2 ^ 20) (ByteArr.zeros 32)
  have hround : RoundTrips (sealFile standardLibrary (ByteArr.zeros 32) [0x61])
      (openFile standardLibrary (ByteArr.zeros 32) [0x61]) [0x62] := roundTrips_of_lawful law law
    standardLibrary_sound standardLibrary_sound (standardLibrary_available _)
    (standardLibrary_available _) standard_lengths standard_exact.correct le_rfl (by decide) rfl
    (fun _ _ => rfl) (by decide)
  obtain ⟨b, -, w', -, -, hopen, -⟩ := hround {} {} {} {} ⟨rfl, rfl⟩ ⟨rfl, rfl⟩
  have h := seal_open_reseals standardLibrary_sound (standardLibrary_available _) standard_lengths
    standard_exact b [0x61]
  exact ⟨b, w', hopen, h.1 (ByteArr.zeros 32)⟩

end SecureKit.File
