import SecureKit.Base.Gcm

/-!
# HKDF-SHA-256 and scrypt as pure functions

What `EVP_KDF_derive` and `EVP_PBE_scrypt` compute, written out: SHA-256, HMAC, HKDF in its
extract-and-expand mode, and scrypt over PBKDF2.  With AES-256-GCM they make up `standard`, the
primitives of the real library; `standard_lengths` and its companions are the laws that theorems
take as hypotheses, proved for them.
-/

namespace Evp

open ByteString

/-! ## SHA-256 -/

namespace Sha256

/-- The round constants of SHA-256. -/
def constants : List UInt32 :=
  [0x428a2f98, 0x71374491, 0xb5c0fbcf, 0xe9b5dba5, 0x3956c25b, 0x59f111f1, 0x923f82a4, 0xab1c5ed5,
   0xd807aa98, 0x12835b01, 0x243185be, 0x550c7dc3, 0x72be5d74, 0x80deb1fe, 0x9bdc06a7, 0xc19bf174,
   0xe49b69c1, 0xefbe4786, 0x0fc19dc6, 0x240ca1cc, 0x2de92c6f, 0x4a7484aa, 0x5cb0a9dc, 0x76f988da,
   0x983e5152, 0xa831c66d, 0xb00327c8, 0xbf597fc7, 0xc6e00bf3, 0xd5a79147, 0x06ca6351, 0x14292967,
   0x27b70a85, 0x2e1b2138, 0x4d2c6dfc, 0x53380d13, 0x650a7354, 0x766a0abb, 0x81c2c92e, 0x92722c85,
   0xa2bfe8a1, 0xa81a664b, 0xc24b8b70, 0xc76c51a3, 0xd192e819, 0xd6990624, 0xf40e3585, 0x106aa070,
   0x19a4c116, 0x1e376c08, 0x2748774c, 0x34b0bcb5, 0x391c0cb3, 0x4ed8aa4a, 0x5b9cca4f, 0x682e6ff3,
   0x748f82ee, 0x78a5636f, 0x84c87814, 0x8cc70208, 0x90befffa, 0xa4506ceb, 0xbef9a3f7, 0xc67178f2]

/-- The chaining value of SHA-256. -/
structure State where
  a : UInt32 := 0x6a09e667
  b : UInt32 := 0xbb67ae85
  c : UInt32 := 0x3c6ef372
  d : UInt32 := 0xa54ff53a
  e : UInt32 := 0x510e527f
  f : UInt32 := 0x9b05688c
  g : UInt32 := 0x1f83d9ab
  h : UInt32 := 0x5be0cd19

/-- Rotation to the right. -/
def rotr (x n : UInt32) : UInt32 := (x >>> n) ||| (x <<< (32 - n))

/-- A round with the given schedule word and constant. -/
def round (s : State) (wk : UInt32 × UInt32) : State :=
  let sum1 := rotr s.e 6 ^^^ rotr s.e 11 ^^^ rotr s.e 25
  let choice := (s.e &&& s.f) ^^^ (~~~s.e &&& s.g)
  let t1 := s.h + sum1 + choice + wk.2 + wk.1
  let sum0 := rotr s.a 2 ^^^ rotr s.a 13 ^^^ rotr s.a 22
  let majority := (s.a &&& s.b) ^^^ (s.a &&& s.c) ^^^ (s.b &&& s.c)
  { a := t1 + sum0 + majority, b := s.a, c := s.b, d := s.c, e := s.d + t1, f := s.e, g := s.f,
    h := s.g }

/-- The message schedule: 48 more words behind the 16 of the block. -/
def schedule (words : List UInt32) : List UInt32 :=
  (List.range 48).foldl (fun w t =>
    let x := w.getD (t + 1) 0
    let y := w.getD (t + 14) 0
    let sigma0 := rotr x 7 ^^^ rotr x 18 ^^^ (x >>> 3)
    let sigma1 := rotr y 17 ^^^ rotr y 19 ^^^ (y >>> 10)
    w ++ [w.getD t 0 + sigma0 + w.getD (t + 9) 0 + sigma1]) words

/-- The compression of a block into the chaining value. -/
def compress (s : State) (block : Bytes) : State :=
  let words := (block.toChunks 4).map fun word => ofBe32 (ByteArr.ofBytes 4 word)
  let s' := ((schedule words).zip constants).foldl round s
  { a := s.a + s'.a, b := s.b + s'.b, c := s.c + s'.c, d := s.d + s'.d, e := s.e + s'.e,
    f := s.f + s'.f, g := s.g + s'.g, h := s.h + s'.h }

/-- A message filled up to whole blocks, its length in bits at the end. -/
def pad (message : Bytes) : Bytes :=
  message ++ [0x80] ++ List.replicate ((119 - message.length % 64) % 64) 0 ++
    Gcm.be64 (8 * message.length)

/-- SHA-256. -/
def hash (message : Bytes) : Bytes :=
  let s := ((pad message).toChunks 64).foldl compress {}
  [s.a, s.b, s.c, s.d, s.e, s.f, s.g, s.h].flatMap fun word => (be32 word : Bytes)

/-- HMAC-SHA-256. -/
def hmac (key message : Bytes) : Bytes :=
  let key := if 64 < key.length then hash key else key
  let block := key ++ List.replicate (64 - key.length) 0
  hash (block.map (· ^^^ 0x5c) ++ hash (block.map (· ^^^ 0x36) ++ message))

/-- The blocks of HKDF behind a given one. -/
def expand (prk info : Bytes) : ℕ → UInt8 → Bytes → Bytes
  | 0, _, _ => []
  | n + 1, counter, previous =>
    let block := hmac prk (previous ++ info ++ [counter])
    block ++ expand prk info n (counter + 1) block

/-- HKDF-SHA-256. -/
def hkdf (key salt info : Bytes) (size : ℕ) : ByteArr size :=
  ByteArr.ofBytes size (expand (hmac salt key) info ((size + 31) / 32) 1 [])

/-- PBKDF2-HMAC-SHA-256 with one iteration. -/
def pbkdf2 (password salt : Bytes) (size : ℕ) : Bytes :=
  ((List.range ((size + 31) / 32)).flatMap fun i =>
    hmac password (salt ++ (be32 (UInt32.ofNat (i + 1)) : Bytes))).take size

end Sha256

/-! ## scrypt -/

namespace Scrypt

/-- A word at a position, in little-endian order. -/
def wordAt (bytes : Bytes) (i : ℕ) : UInt32 :=
  ofBe32 (ByteArr.ofBytes 4 ((bytes.drop (4 * i)).take 4).reverse)

/-- The quarter round of Salsa20 on the words at four positions. -/
def quarterRound (w : List UInt32) (at4 : ℕ × ℕ × ℕ × ℕ) : List UInt32 :=
  let (a, b, c, d) := at4
  let rotl := fun (x n : UInt32) => (x <<< n) ||| (x >>> (32 - n))
  let step := fun (w : List UInt32) (i j k : ℕ) (n : UInt32) =>
    w.set i (w.getD i 0 ^^^ rotl (w.getD j 0 + w.getD k 0) n)
  step (step (step (step w b a d 7) c b a 9) d c b 13) a d c 18

/-- Salsa20/8 on a block of 64 bytes. -/
def salsa20 (block : Bytes) : Bytes :=
  let start := (List.range 16).map (wordAt block)
  let columns := [(0, 4, 8, 12), (5, 9, 13, 1), (10, 14, 2, 6), (15, 3, 7, 11)]
  let rows := [(0, 1, 2, 3), (5, 6, 7, 4), (10, 11, 8, 9), (15, 12, 13, 14)]
  let mixed := (List.range 4).foldl (fun w _ => (columns ++ rows).foldl quarterRound w) start
  (List.zipWith (· + ·) start mixed).flatMap fun word => (be32 word : Bytes).reverse

/-- The block mix of scrypt. -/
def blockMix (bytes : Bytes) : Bytes :=
  let chunks := bytes.toChunks 64
  let (_, mixed) := chunks.foldl (fun (x, out) chunk =>
    let x' := salsa20 (Aes.addBytes x chunk)
    (x', out ++ [x'])) (chunks.getLastD [], [])
  let every := fun k => ((List.range (chunks.length / 2)).map fun i => mixed.getD (2 * i + k) []).flatten
  every 0 ++ every 1

/-- The memory-hard mixing of scrypt. -/
def roMix (n : ℕ) (bytes : Bytes) : Bytes :=
  let (table, x) := (List.range n).foldl (fun (table, x) _ => (table.push x, blockMix x))
    ((#[] : Array Bytes), bytes)
  (List.range n).foldl (fun x _ =>
    let last := x.drop (x.length - 64)
    let j := (wordAt last 0).toNat + 2 ^ 32 * (wordAt last 1).toNat
    blockMix (Aes.addBytes x (table.getD (j % n) []))) x

/-- scrypt. -/
def scrypt (password salt : Bytes) (n r p : UInt32) (size : ℕ) : ByteArr size :=
  let width := 128 * r.toNat
  let blocks := (Sha256.pbkdf2 password salt (p.toNat * width)).toChunks width
  ByteArr.ofBytes size
    (Sha256.pbkdf2 password (blocks.flatMap (roMix n.toNat)) size)

end Scrypt

/-! ## The primitives of the library -/

/-- AES-256-GCM, HKDF-SHA-256 and scrypt. -/
def standard : Primitives where
  gcm := aes256Gcm
  hkdf := Sha256.hkdf
  scrypt password salt n r p _ size := Scrypt.scrypt password salt n r p size

lemma standard_lengths : standard.gcm.Lengths := AesGcm.ofStream_lengths _ _

lemma standard_incremental : standard.gcm.Incremental := AesGcm.ofStream_incremental _ _

lemma standard_exact : standard.gcm.Exact := AesGcm.ofStream_exact _ _

/-- A library that computes the standard and draws zeros. -/
def standardLibrary : Openssl := Openssl.reference standard fun _ size => ByteArr.zeros size

lemma standardLibrary_sound : standardLibrary.Sound standard := Openssl.reference_sound _ _

lemma standardLibrary_available (cap : ℕ) : standardLibrary.Available standard cap :=
  Openssl.reference_available _ _ cap

end Evp
