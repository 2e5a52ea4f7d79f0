import StateChannels.Bytes

/-!
# `StateChannels.Hash.Sha256`: SHA-256 and its keyed form

SHA-256 and HMAC over it. Signing draws its nonces from the keyed
form, nothing else in the library uses this digest.
-/

set_option autoImplicit false

namespace StateChannels.Sha256

/-- The eight chained words. -/
abbrev Chain := Vector UInt32 8

/-- The first chained words. -/
def initial : Chain :=
  #v[0x6a09e667, 0xbb67ae85, 0x3c6ef372, 0xa54ff53a,
     0x510e527f, 0x9b05688c, 0x1f83d9ab, 0x5be0cd19]

/-- One constant a round. -/
def roundConstants : List UInt32 :=
  [0x428a2f98, 0x71374491, 0xb5c0fbcf, 0xe9b5dba5, 0x3956c25b, 0x59f111f1, 0x923f82a4,
   0xab1c5ed5, 0xd807aa98, 0x12835b01, 0x243185be, 0x550c7dc3, 0x72be5d74, 0x80deb1fe,
   0x9bdc06a7, 0xc19bf174, 0xe49b69c1, 0xefbe4786, 0x0fc19dc6, 0x240ca1cc, 0x2de92c6f,
   0x4a7484aa, 0x5cb0a9dc, 0x76f988da, 0x983e5152, 0xa831c66d, 0xb00327c8, 0xbf597fc7,
   0xc6e00bf3, 0xd5a79147, 0x06ca6351, 0x14292967, 0x27b70a85, 0x2e1b2138, 0x4d2c6dfc,
   0x53380d13, 0x650a7354, 0x766a0abb, 0x81c2c92e, 0x92722c85, 0xa2bfe8a1, 0xa81a664b,
   0xc24b8b70, 0xc76c51a3, 0xd192e819, 0xd6990624, 0xf40e3585, 0x106aa070, 0x19a4c116,
   0x1e376c08, 0x2748774c, 0x34b0bcb5, 0x391c0cb3, 0x4ed8aa4a, 0x5b9cca4f, 0x682e6ff3,
   0x748f82ee, 0x78a5636f, 0x84c87814, 0x8cc70208, 0x90befffa, 0xa4506ceb, 0xbef9a3f7,
   0xc67178f2]

/-- Rotation of a word to the right. -/
def rotate (w n : UInt32) : UInt32 := w >>> n ||| w <<< (32 - n)

/-- The 16 words of a block of 64 bytes. -/
def blockWords (block : Bytes) : Vector UInt32 16 :=
  .ofFn fun i => UInt32.ofNat (Bytes.toNat ((block.drop (4 * i.val)).take 4))

/-- The window of 16 message words, one round later. -/
def nextWindow (w : Vector UInt32 16) : Vector UInt32 16 :=
  let s0 := rotate w[1] 7 ^^^ rotate w[1] 18 ^^^ w[1] >>> 3
  let s1 := rotate w[14] 17 ^^^ rotate w[14] 19 ^^^ w[14] >>> 10
  let word := w[0] + s0 + w[9] + s1
  .ofFn fun i => if h : i.val + 1 < 16 then w[i.val + 1] else word

/-- One round on the working words, with its constant and word. -/
def round (v : Chain) (constant word : UInt32) : Chain :=
  let s1 := rotate v[4] 6 ^^^ rotate v[4] 11 ^^^ rotate v[4] 25
  let choice := (v[4] &&& v[5]) ^^^ (~~~ v[4] &&& v[6])
  let t1 := v[7] + s1 + choice + constant + word
  let s0 := rotate v[0] 2 ^^^ rotate v[0] 13 ^^^ rotate v[0] 22
  let majority := (v[0] &&& v[1]) ^^^ (v[0] &&& v[2]) ^^^ (v[1] &&& v[2])
  #v[t1 + (s0 + majority), v[0], v[1], v[2], v[3] + t1, v[4], v[5], v[6]]

/-- Takes a block into the chained words. -/
def compress (chain : Chain) (block : Bytes) : Chain :=
  let last := roundConstants.foldl
    (fun (v, w) constant => (round v constant w[0], nextWindow w)) (chain, blockWords block)
  .ofFn fun i => chain[i] + last.1[i]

/-- Takes in `blocks` blocks from the front of `input`. -/
def absorb (chain : Chain) : (blocks : Nat) → (input : Bytes) → Chain
  | 0, _ => chain
  | k + 1, input => absorb (compress chain (input.take 64)) k (input.drop 64)

/-- The message with a one bit, zeros, and its length in bits. -/
def pad (message : Bytes) : Bytes :=
  message ++ 0x80 :: Bytes.zeros ((119 - message.length % 64) % 64)
    ++ Bytes.ofNat 8 (8 * message.length)

/-- The SHA-256 digest of a byte string. -/
def digest (message : Bytes) : Bytes :=
  let input := pad message
  (absorb initial (input.length / 64) input).toList.flatMap fun w => Bytes.ofNat 4 w.toNat

/-- The keyed digest (HMAC) of a message. -/
def keyed (key message : Bytes) : Bytes :=
  let key := if key.length ≤ 64 then key else digest key
  let key := key ++ Bytes.zeros (64 - key.length)
  digest (key.map (· ^^^ 0x5c) ++ digest (key.map (· ^^^ 0x36) ++ message))

end StateChannels.Sha256
