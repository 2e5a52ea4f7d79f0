import StateChannels.Identifier

/-!
# `StateChannels.Hash.Keccak`: the digest function

Keccak-256 as the contracts use it: the padding starts with the byte
`01`, where SHA3-256 has `06`. The state is 25 lanes of 64 bits: five
planes, one for each `y`, of five lanes each, one for each `x`. Each
step of a round is written as the value of every lane of the result.

A plane is a structure of five fields and not a vector, so that the
kernel computes a digest within a fraction of a second.

What is proved about digests holds for any function from byte strings
to 32 bytes. Only `Proofs.Hash.Numbers` looks inside `keccak256`, to
compute the digests of samples.
-/

set_option autoImplicit false

namespace StateChannels

namespace Keccak

/-- Five values, at the coordinates 0 to 4. -/
structure Five (α : Type) where
  zeroth : α
  first : α
  second : α
  third : α
  fourth : α

namespace Five

variable {α β γ : Type}

/-- The values of a function at the five coordinates. -/
def ofFn (f : Nat → α) : Five α := ⟨f 0, f 1, f 2, f 3, f 4⟩

/-- The value at a coordinate, taken modulo 5. -/
def get (a : Five α) (i : Nat) : α :=
  match i % 5 with
  | 0 => a.zeroth
  | 1 => a.first
  | 2 => a.second
  | 3 => a.third
  | _ => a.fourth

/-- At each coordinate the value from the one after it. -/
def next (a : Five α) : Five α := ⟨a.first, a.second, a.third, a.fourth, a.zeroth⟩

/-- At each coordinate the value from the one before it. -/
def prev (a : Five α) : Five α := ⟨a.fourth, a.zeroth, a.first, a.second, a.third⟩

/-- The function on each of the five. -/
def map (f : α → β) (a : Five α) : Five β :=
  ⟨f a.zeroth, f a.first, f a.second, f a.third, f a.fourth⟩

/-- The function on the five pairs. -/
def zipWith (f : α → β → γ) (a : Five α) (b : Five β) : Five γ :=
  ⟨f a.zeroth b.zeroth, f a.first b.first, f a.second b.second, f a.third b.third,
    f a.fourth b.fourth⟩

end Five

/-- Five lanes with the same `y`. -/
abbrev Plane := Five UInt64

/-- The permutation state. -/
abbrev Lanes := Five Plane

/-- The lanes of the values of a function at `x` and `y`. -/
def Lanes.ofFn (f : (x y : Nat) → UInt64) : Lanes := Five.ofFn fun y => Five.ofFn fun x => f x y

/-- The lane at the coordinates `(x, y)`, each taken modulo 5. -/
def lane (a : Lanes) (x y : Nat) : UInt64 := (a.get y).get x

/-- Bytes taken in per application of the permutation. -/
def rate : Nat := 136

/-- The constants that break the symmetry of the rounds. -/
def roundConstants : List UInt64 :=
  [0x0000000000000001, 0x0000000000008082, 0x800000000000808a, 0x8000000080008000,
   0x000000000000808b, 0x0000000080000001, 0x8000000080008081, 0x8000000000008009,
   0x000000000000008a, 0x0000000000000088, 0x0000000080008009, 0x000000008000000a,
   0x000000008000808b, 0x800000000000008b, 0x8000000000008089, 0x8000000000008003,
   0x8000000000008002, 0x8000000000000080, 0x000000000000800a, 0x800000008000000a,
   0x8000000080008081, 0x8000000000008080, 0x0000000080000001, 0x8000000080008008]

/-- How far each lane is rotated. -/
def rotations : Lanes :=
  ⟨⟨0, 1, 62, 28, 27⟩, ⟨36, 44, 6, 55, 20⟩, ⟨3, 10, 43, 25, 39⟩, ⟨41, 45, 15, 21, 8⟩,
    ⟨18, 2, 61, 56, 14⟩⟩

/-- Rotation of a lane to the left. -/
def rotate (w n : UInt64) : UInt64 := w <<< n ||| w >>> (64 - n)

/-- Exclusive or, lane by lane. -/
def xor (a b : Plane) : Plane := a.zipWith (· ^^^ ·) b

/-- Every lane takes in the parity of two columns. -/
def theta (a : Lanes) : Lanes :=
  let parity := xor (xor (xor (xor a.zeroth a.first) a.second) a.third) a.fourth
  let both := parity.prev.zipWith (fun before after => before ^^^ rotate after 1) parity.next
  a.map fun plane => xor plane both

/-- Lanes are rotated and moved: what stood at `(x, y)` stands at
`(y, 2x + 3y)` afterwards. -/
def rhoPi (a : Lanes) : Lanes :=
  let turned := a.zipWith (fun plane turns => plane.zipWith rotate turns) rotations
  .ofFn fun x y => lane turned (x + 3 * y) x

/-- The only step that is not linear, along each row. -/
def chi (a : Lanes) : Lanes :=
  a.map fun plane =>
    xor plane (plane.next.zipWith (fun u v => ~~~u &&& v) plane.next.next)

/-- One round with its constant. -/
def round (a : Lanes) (constant : UInt64) : Lanes :=
  let b := chi (rhoPi (theta a))
  { b with zeroth := { b.zeroth with zeroth := b.zeroth.zeroth ^^^ constant } }

/-- The permutation: 24 rounds. -/
def permute (a : Lanes) : Lanes := roundConstants.foldl round a

/-- The lane that at most 8 bytes spell, least significant byte
first. -/
def laneOfBytes (bs : Bytes) : UInt64 := UInt64.ofNat (Bytes.toNat bs.reverse)

/-- Takes a block of `rate` bytes into the first 17 lanes. The others
take in the empty string, which is zero. -/
def absorbBlock (a : Lanes) (block : Bytes) : Lanes :=
  permute (.ofFn fun x y =>
    lane a x y ^^^ laneOfBytes ((block.drop (8 * (x + 5 * y))).take 8))

/-- Takes in `blocks` blocks from the front of `input`. -/
def absorb (a : Lanes) : (blocks : Nat) → (input : Bytes) → Lanes
  | 0, _ => a
  | k + 1, input => absorb (absorbBlock a (input.take rate)) k (input.drop rate)

/-- The message with a one bit, zeros, and a one bit at the end of
the last block. Both may fall into one byte. -/
def pad (message : Bytes) : Bytes :=
  match rate - 1 - message.length % rate with
  | 0 => message ++ [0x81]
  | k + 1 => message ++ 0x01 :: Bytes.zeros k ++ [0x80]

/-- The 32 bytes of the first four lanes. -/
def squeeze (a : Lanes) : Vector UInt8 32 :=
  .ofFn fun i => (lane a (i.val / 8) 0 >>> UInt64.ofNat (8 * (i.val % 8))).toUInt8

end Keccak

/-- The Keccak-256 digest of a byte string. It is irreducible, so that no
tactic starts to compute a digest. The kernel does, where it is asked
to. -/
@[irreducible] def keccak256 (message : Bytes) : Hash :=
  let input := Keccak.pad message
  ⟨Keccak.squeeze (Keccak.absorb (.ofFn fun _ _ => 0) (input.length / Keccak.rate) input)⟩

end StateChannels
