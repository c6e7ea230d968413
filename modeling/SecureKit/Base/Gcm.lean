import SecureKit.Base.Evp

/-!
# AES-256-GCM as pure functions

What `EVP_aes_256_gcm` computes, written out: the AES block cipher with a 256-bit key, counter
mode over it, and the GHASH authenticator.

The laws of `Evp.AesGcm` hold of any cipher of this shape.  `AesGcm.ofStream` builds one from a
key stream and a function that authenticates ciphertexts, and `ofStream_lengths`,
`ofStream_incremental` and `ofStream_exact` are proved for all of these; `aes256Gcm` is the
instance with the counter-mode key stream of AES and its GHASH.
-/

namespace Evp

open ByteString

/-! ## Ciphers made of a key stream and an authenticator -/

namespace AesGcm

variable (keystream : Key256 → (nonce : Bytes) → ℕ → UInt8)
  (mac : Key256 → (nonce aad ciphertext : Bytes) → ByteArr 16)

/-- A text with the key stream added to it. -/
def addStream (key : Key256) (nonce text : Bytes) : Bytes :=
  text.mapIdx fun i b => b ^^^ keystream key nonce i

/-- The cipher that adds a key stream and authenticates the ciphertext. -/
def ofStream : AesGcm where
  encText := addStream keystream
  decText := addStream keystream
  tag key nonce aad text := mac key nonce aad (addStream keystream key nonce text)
  verify key nonce aad ciphertext tag := mac key nonce aad ciphertext = tag

/-- Adding the key stream twice gives the text back. -/
@[simp] lemma addStream_addStream (key : Key256) (nonce text : Bytes) :
    addStream keystream key nonce (addStream keystream key nonce text) = text := by
  simp only [addStream, List.mapIdx_mapIdx, Function.comp_def]
  refine List.ext_getElem (by simp) fun i _ _ => ?_
  rw [List.getElem_mapIdx, UInt8.xor_assoc, UInt8.xor_self, UInt8.xor_zero]

lemma ofStream_lengths : (ofStream keystream mac).Lengths where
  length_encText _ _ _ := List.length_mapIdx
  length_decText _ _ _ := List.length_mapIdx

lemma addStream_append (key : Key256) (nonce front back : Bytes) :
    addStream keystream key nonce front <+: addStream keystream key nonce (front ++ back) := by
  rw [addStream, addStream, List.mapIdx_append]
  exact List.prefix_append _ _

lemma ofStream_incremental : (ofStream keystream mac).Incremental where
  encText_append := addStream_append keystream
  decText_append := addStream_append keystream

lemma ofStream_exact : (ofStream keystream mac).Exact where
  verify_iff key nonce aad ciphertext tag text := by
    simp only [ofStream, decide_eq_true_eq]
    constructor
    · rintro ⟨rfl, rfl⟩
      rw [addStream_addStream]
      exact ⟨rfl, rfl⟩
    · rintro ⟨rfl, rfl⟩
      rw [addStream_addStream]
      exact ⟨rfl, rfl⟩

end AesGcm

/-! ## The block cipher -/

namespace Aes

/-- The substitution table of AES. -/
def sbox : List UInt8 :=
  [0x63, 0x7c, 0x77, 0x7b, 0xf2, 0x6b, 0x6f, 0xc5, 0x30, 0x01, 0x67, 0x2b, 0xfe, 0xd7, 0xab, 0x76,
   0xca, 0x82, 0xc9, 0x7d, 0xfa, 0x59, 0x47, 0xf0, 0xad, 0xd4, 0xa2, 0xaf, 0x9c, 0xa4, 0x72, 0xc0,
   0xb7, 0xfd, 0x93, 0x26, 0x36, 0x3f, 0xf7, 0xcc, 0x34, 0xa5, 0xe5, 0xf1, 0x71, 0xd8, 0x31, 0x15,
   0x04, 0xc7, 0x23, 0xc3, 0x18, 0x96, 0x05, 0x9a, 0x07, 0x12, 0x80, 0xe2, 0xeb, 0x27, 0xb2, 0x75,
   0x09, 0x83, 0x2c, 0x1a, 0x1b, 0x6e, 0x5a, 0xa0, 0x52, 0x3b, 0xd6, 0xb3, 0x29, 0xe3, 0x2f, 0x84,
   0x53, 0xd1, 0x00, 0xed, 0x20, 0xfc, 0xb1, 0x5b, 0x6a, 0xcb, 0xbe, 0x39, 0x4a, 0x4c, 0x58, 0xcf,
   0xd0, 0xef, 0xaa, 0xfb, 0x43, 0x4d, 0x33, 0x85, 0x45, 0xf9, 0x02, 0x7f, 0x50, 0x3c, 0x9f, 0xa8,
   0x51, 0xa3, 0x40, 0x8f, 0x92, 0x9d, 0x38, 0xf5, 0xbc, 0xb6, 0xda, 0x21, 0x10, 0xff, 0xf3, 0xd2,
   0xcd, 0x0c, 0x13, 0xec, 0x5f, 0x97, 0x44, 0x17, 0xc4, 0xa7, 0x7e, 0x3d, 0x64, 0x5d, 0x19, 0x73,
   0x60, 0x81, 0x4f, 0xdc, 0x22, 0x2a, 0x90, 0x88, 0x46, 0xee, 0xb8, 0x14, 0xde, 0x5e, 0x0b, 0xdb,
   0xe0, 0x32, 0x3a, 0x0a, 0x49, 0x06, 0x24, 0x5c, 0xc2, 0xd3, 0xac, 0x62, 0x91, 0x95, 0xe4, 0x79,
   0xe7, 0xc8, 0x37, 0x6d, 0x8d, 0xd5, 0x4e, 0xa9, 0x6c, 0x56, 0xf4, 0xea, 0x65, 0x7a, 0xae, 0x08,
   0xba, 0x78, 0x25, 0x2e, 0x1c, 0xa6, 0xb4, 0xc6, 0xe8, 0xdd, 0x74, 0x1f, 0x4b, 0xbd, 0x8b, 0x8a,
   0x70, 0x3e, 0xb5, 0x66, 0x48, 0x03, 0xf6, 0x0e, 0x61, 0x35, 0x57, 0xb9, 0x86, 0xc1, 0x1d, 0x9e,
   0xe1, 0xf8, 0x98, 0x11, 0x69, 0xd9, 0x8e, 0x94, 0x9b, 0x1e, 0x87, 0xe9, 0xce, 0x55, 0x28, 0xdf,
   0x8c, 0xa1, 0x89, 0x0d, 0xbf, 0xe6, 0x42, 0x68, 0x41, 0x99, 0x2d, 0x0f, 0xb0, 0x54, 0xbb, 0x16]

/-- The substitution of one byte. -/
def subByte (b : UInt8) : UInt8 := sbox.getD b.toNat 0

/-- Multiplication by the indeterminate in the field of 256 elements. -/
def xtime (b : UInt8) : UInt8 := (b <<< 1) ^^^ (if b &&& 0x80 = 0 then 0 else 0x1b)

/-- Bytewise addition. -/
def addBytes (a b : Bytes) : Bytes := List.zipWith (· ^^^ ·) a b

/-- The rows of a state, which is stored column by column, each shifted by its number. -/
def shiftRows (s : Bytes) : Bytes :=
  (List.range 16).map fun i => s.getD ((i + 4 * (i % 4)) % 16) 0

/-- The columns of a state multiplied by the matrix of AES. -/
def mixColumns (s : Bytes) : Bytes :=
  (List.range 16).map fun i =>
    let row := fun k => s.getD (4 * (i / 4) + (i + k) % 4) 0
    xtime (row 0) ^^^ xtime (row 1) ^^^ row 1 ^^^ row 2 ^^^ row 3

/-- The next eight words of the key schedule. -/
def nextKey (rcon : UInt8) (key : Bytes) : Bytes :=
  let word := fun i => (key.drop (4 * i)).take 4
  let w0 := addBytes (word 0) (addBytes (((word 7).rotate 1).map subByte) [rcon, 0, 0, 0])
  let w1 := addBytes (word 1) w0
  let w2 := addBytes (word 2) w1
  let w3 := addBytes (word 3) w2
  let w4 := addBytes (word 4) (w3.map subByte)
  let w5 := addBytes (word 5) w4
  let w6 := addBytes (word 6) w5
  let w7 := addBytes (word 7) w6
  w0 ++ w1 ++ w2 ++ w3 ++ w4 ++ w5 ++ w6 ++ w7

/-- The key schedule behind a given part of it. -/
def schedule : ℕ → UInt8 → Bytes → Bytes
  | 0, _, key => key
  | n + 1, rcon, key => key ++ schedule n (xtime rcon) (nextKey rcon key)

/-- The AES encryption of a block of 16 bytes under a 256-bit key. -/
def encryptBlock (key : Key256) (block : Bytes) : Bytes :=
  let keys := schedule 7 1 key
  let roundKey := fun r => (keys.drop (16 * r)).take 16
  let rounds := (List.range 13).foldl
    (fun s r => addBytes (mixColumns (shiftRows (s.map subByte))) (roundKey (r + 1)))
    (addBytes block (roundKey 0))
  addBytes (shiftRows (rounds.map subByte)) (roundKey 14)

end Aes

/-! ## Counter mode and authentication -/

namespace Gcm

/-- A block as an element of the field of 2^128 elements. -/
def ofBlock (block : Bytes) : BitVec 128 :=
  BitVec.ofNat 128 (block.foldl (fun n b => n * 256 + b.toNat) 0)

/-- An element of the field as a block. -/
def toBlock (v : BitVec 128) : Bytes :=
  (List.range 16).map fun i => UInt8.ofNat (v.toNat / 256 ^ (15 - i))

/-- Multiplication in the field, where the leftmost bit belongs to the constant term. -/
def mul (x y : BitVec 128) : BitVec 128 :=
  ((List.range 128).foldl (fun (z, v) i =>
    (if x.getMsbD i then z ^^^ v else z,
     if v.getLsbD 0 then (v >>> 1) ^^^ (0xe1#128 <<< 120) else v >>> 1)) (0#128, y)).1

/-- GHASH of whole blocks. -/
def ghash (h : BitVec 128) (blocks : Bytes) : BitVec 128 :=
  (blocks.toChunks 16).foldl (fun y block => mul (y ^^^ ofBlock block) h) 0#128

/-- Filled up with zeros to whole blocks. -/
def pad (bytes : Bytes) : Bytes := bytes ++ List.replicate ((16 - bytes.length % 16) % 16) 0

/-- A number as eight bytes. -/
def be64 (n : ℕ) : Bytes := (List.range 8).map fun i => UInt8.ofNat (n / 256 ^ (7 - i))

/-- The hash key. -/
def hashKey (key : Key256) : BitVec 128 := ofBlock (Aes.encryptBlock key (List.replicate 16 0))

/-- The counter block a nonce stands for. -/
def initialBlock (key : Key256) (nonce : Bytes) : Bytes :=
  if nonce.length = 12 then nonce ++ [0, 0, 0, 1]
  else toBlock (ghash (hashKey key) (pad nonce ++ be64 0 ++ be64 (8 * nonce.length)))

/-- A counter block with its last four bytes advanced. -/
def advance (block : Bytes) (n : ℕ) : Bytes :=
  let counter := (block.drop 12).foldl (fun n b => n * 256 + b.toNat) 0
  block.take 12 ++ (be32 (UInt32.ofNat (counter + n)) : Bytes)

/-- The key stream of counter mode. -/
def keystream (key : Key256) (nonce : Bytes) (i : ℕ) : UInt8 :=
  (Aes.encryptBlock key (advance (initialBlock key nonce) (i / 16 + 1))).getD (i % 16) 0

/-- The tag of a ciphertext. -/
def mac (key : Key256) (nonce aad ciphertext : Bytes) : ByteArr 16 :=
  let lengths := be64 (8 * aad.length) ++ be64 (8 * ciphertext.length)
  let hash := ghash (hashKey key) (pad aad ++ pad ciphertext ++ lengths)
  ByteArr.ofBytes 16
    (Aes.addBytes (toBlock hash) (Aes.encryptBlock key (initialBlock key nonce)))

end Gcm

/-- AES-256-GCM. -/
def aes256Gcm : AesGcm := AesGcm.ofStream Gcm.keystream Gcm.mac

/-- The tag of nothing under a zero key and a zero nonce. -/
example : (aes256Gcm.tag (ByteArr.zeros 32) (List.replicate 12 0) [] []).toBytes =
    [0x53, 0x0f, 0x8a, 0xfb, 0xc7, 0x45, 0x36, 0xb9, 0xa9, 0x63, 0xb4, 0xf1, 0xc4, 0xcb, 0x73,
      0x8b] := by
  decide +kernel

end Evp
