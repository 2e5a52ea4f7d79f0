import StateChannels.Signing.Signer

/-!
# `StateChannels.Proofs.Hash.Numbers`: Keccak-256 on numbers

The kernel has arithmetic of its own for natural numbers, and none for
machine words. Here the lanes are numbers, the operations on them are
those that the kernel knows, and the moves of `rhoPi` are written out.
So a digest takes a fraction of the time and of the memory.

Each step of a round does the same to the lanes as its counterpart
does to their numbers (`numbers_theta` to `numbers_round`), and from
that the whole digest follows.

* `keccak256_eq`: the digest is the digest on numbers.
* `recoverSigner_of_recovers`: so signers can be recovered with digests
  on numbers.
-/

set_option autoImplicit false

namespace StateChannels

namespace Keccak

/-- The move of `rhoPi`, written out. -/
def Five.moved {α : Type} (a : Five (Five α)) : Five (Five α) :=
  ⟨⟨a.zeroth.zeroth, a.first.first, a.second.second, a.third.third, a.fourth.fourth⟩,
    ⟨a.zeroth.third, a.first.fourth, a.second.zeroth, a.third.first, a.fourth.second⟩,
    ⟨a.zeroth.first, a.first.second, a.second.third, a.third.fourth, a.fourth.zeroth⟩,
    ⟨a.zeroth.fourth, a.first.zeroth, a.second.first, a.third.second, a.fourth.third⟩,
    ⟨a.zeroth.second, a.first.third, a.second.fourth, a.third.zeroth, a.fourth.first⟩⟩

/-- If `h` carries `op` over to `op'`, it does so for five pairs. -/
theorem Five.map_zipWith {α β γ δ ε ζ : Type} {op : α → β → γ} {op' : δ → ε → ζ} {f : α → δ}
    {g : β → ε} {h : γ → ζ} (carries : ∀ u v, h (op u v) = op' (f u) (g v)) (a : Five α)
    (b : Five β) : (a.zipWith op b).map h = (a.map f).zipWith op' (b.map g) := by
  simp only [Five.map, Five.zipWith, carries]

/-- The lanes as numbers. -/
abbrev Numbers := Five (Five Nat)

/-- The numbers that the lanes are. -/
def Lanes.numbers (a : Lanes) : Numbers := a.map fun plane => plane.map UInt64.toNat

namespace Numbers

/-- The lanes that the numbers stand for. -/
def lanes (a : Numbers) : Lanes := a.map fun plane => plane.map UInt64.ofNat

/-- Rotation of a lane to the left. The bits that leave it are cut off, and
come back on the other side. -/
def rotate (w n : Nat) : Nat :=
  Nat.lor (Nat.mod (Nat.shiftLeft w (Nat.mod n 64)) 0x10000000000000000)
    (Nat.shiftRight w (Nat.mod (Nat.sub 64 (Nat.mod n 64)) 64))

/-- Exclusive or, lane by lane. -/
def xor (a b : Five Nat) : Five Nat := a.zipWith Nat.xor b

/-- Every lane takes in the parity of two columns. -/
def theta (a : Numbers) : Numbers :=
  let parity := xor (xor (xor (xor a.zeroth a.first) a.second) a.third) a.fourth
  let both := parity.prev.zipWith (fun before after => Nat.xor before (rotate after 1)) parity.next
  a.map fun plane => xor plane both

/-- How far each lane is rotated. -/
def rotations : Numbers := Lanes.numbers Keccak.rotations

/-- Lanes are rotated and moved. -/
def rhoPi (a : Numbers) : Numbers :=
  (a.zipWith (fun plane turns => plane.zipWith rotate turns) rotations).moved

/-- The only step that is not linear, along each row. -/
def chi (a : Numbers) : Numbers :=
  a.map fun plane =>
    xor plane (plane.next.zipWith (fun u v => Nat.land (Nat.sub 0xffffffffffffffff u) v)
      plane.next.next)

/-- One round with its constant. -/
def round (a : Numbers) (constant : UInt64) : Numbers :=
  let b := chi (rhoPi (theta a))
  { b with zeroth := { b.zeroth with zeroth := Nat.xor b.zeroth.zeroth constant.toNat } }

/-- The permutation: 24 rounds. -/
def permute (a : Numbers) : Numbers := roundConstants.foldl round a

/-- The next `count` lanes that a byte string spells, in order. -/
def words : (count : Nat) → Bytes → List Nat
  | 0, _ => []
  | k + 1, bs =>
    Nat.mod (Bytes.toNat (bs.take 8).reverse) 0x10000000000000000 :: words k (bs.drop 8)

/-- Takes in a block. -/
def absorbBlock (a : Numbers) (block : Bytes) : Numbers :=
  permute (.ofFn fun y => .ofFn fun x =>
    Nat.xor ((a.get y).get x) ((words 25 block).getD (x + 5 * y) 0))

/-- Takes in so many blocks from the front of a byte string. -/
def absorb (a : Numbers) : (blocks : Nat) → (input : Bytes) → Numbers
  | 0, _ => a
  | k + 1, input => absorb (absorbBlock a (input.take rate)) k (input.drop rate)

end Numbers

/-- The digest, computed on numbers. -/
def digestByNumbers (message : Bytes) : Hash :=
  let input := pad message
  ⟨squeeze (Numbers.lanes
    (Numbers.absorb (.ofFn fun _ => .ofFn fun _ => 0) (input.length / rate) input))⟩

/-! ### Step by step -/

/-- Lanes are those of their numbers. -/
theorem lanes_numbers (a : Lanes) : a.numbers.lanes = a := by
  simp only [Lanes.numbers, Numbers.lanes, Five.map, UInt64.ofNat_toNat]

/-- The number of a rotated lane. -/
theorem toNat_rotate (w n : UInt64) :
    (rotate w n).toNat = Numbers.rotate w.toNat n.toNat := by
  -- The two shifts together are 64, and a shift by 64 is one by nothing.
  have back : (64 - n).toNat % 64 = (64 - n.toNat % 64) % 64 := by
    rw [UInt64.toNat_sub]
    have := n.toNat_lt
    show (2 ^ 64 - n.toNat + 64) % 2 ^ 64 % 64 = _
    omega
  rw [rotate, UInt64.toNat_or, UInt64.toNat_shiftLeft, UInt64.toNat_shiftRight, back]
  rfl

/-- The number of a lane that keeps the bits which another lane has not. -/
theorem toNat_not_and (u v : UInt64) :
    (~~~u &&& v).toNat = Nat.land (Nat.sub 0xffffffffffffffff u.toNat) v.toNat := by
  rw [UInt64.toNat_and, UInt64.toNat_not]
  rfl

/-- `theta` on numbers. -/
theorem numbers_theta (a : Lanes) : (theta a).numbers = Numbers.theta a.numbers := by
  simp only [theta, Lanes.numbers, xor, Five.map, Five.zipWith, Five.prev, Five.next,
    UInt64.toNat_xor, toNat_rotate]
  rfl

/-- `rhoPi` on numbers. -/
theorem numbers_rhoPi (a : Lanes) : (rhoPi a).numbers = Numbers.rhoPi a.numbers := by
  have turned :
      Lanes.numbers (a.zipWith (fun plane turns => plane.zipWith rotate turns) rotations) =
      a.numbers.zipWith (fun plane turns => plane.zipWith Numbers.rotate turns)
        Numbers.rotations :=
    Five.map_zipWith (fun plane turns => Five.map_zipWith toNat_rotate plane turns) a rotations
  -- What is left is to move the lanes, which does not look at them.
  rw [Numbers.rhoPi, ← turned]
  rfl

/-- `chi` on numbers. -/
theorem numbers_chi (a : Lanes) : (chi a).numbers = Numbers.chi a.numbers := by
  simp only [chi, Lanes.numbers, xor, Five.map, Five.zipWith, Five.next, UInt64.toNat_xor,
    toNat_not_and]
  rfl

/-- A round on numbers. -/
theorem numbers_round (a : Lanes) (constant : UInt64) :
    (round a constant).numbers = Numbers.round a.numbers constant := by
  rw [Numbers.round, ← numbers_theta, ← numbers_rhoPi, ← numbers_chi]
  simp only [round, Lanes.numbers, Five.map, UInt64.toNat_xor]
  rfl

/-- The permutation on numbers. -/
theorem numbers_permute (a : Lanes) : (permute a).numbers = Numbers.permute a.numbers :=
  (List.foldl_hom Lanes.numbers fun a constant => (numbers_round a constant).symm).symm

/-- The lanes of a byte string stand eight bytes apart. -/
theorem getD_words {count i : Nat} (inside : i < count) (bs : Bytes) :
    (Numbers.words count bs).getD i 0 = (laneOfBytes ((bs.drop (8 * i)).take 8)).toNat := by
  induction count generalizing i bs with
  | zero => cases inside
  | succ k ih =>
    cases i with
    | zero => exact (UInt64.toNat_ofNat').symm
    | succ i =>
      rw [Numbers.words, List.getD_cons_succ, ih (Nat.lt_of_succ_lt_succ inside), List.drop_drop,
        Nat.mul_succ, Nat.add_comm]

/-- A block is taken in on numbers. -/
theorem numbers_absorbBlock (a : Lanes) (block : Bytes) :
    (absorbBlock a block).numbers = Numbers.absorbBlock a.numbers block := by
  rw [absorbBlock, numbers_permute, Numbers.absorbBlock]
  congr 1
  simp (disch := decide) only [Lanes.ofFn, Five.ofFn, Lanes.numbers, Five.map, UInt64.toNat_xor,
    getD_words]
  rfl

/-- Blocks are taken in on numbers. -/
theorem numbers_absorb (a : Lanes) (blocks : Nat) (input : Bytes) :
    (absorb a blocks input).numbers = Numbers.absorb a.numbers blocks input := by
  induction blocks generalizing a input with
  | zero => rfl
  | succ k ih => rw [absorb, ih, numbers_absorbBlock, Numbers.absorb]

end Keccak

/-- The digest is the one on numbers. -/
theorem keccak256_eq (message : Bytes) : keccak256 message = Keccak.digestByNumbers message := by
  rw [keccak256, Keccak.digestByNumbers]
  rw [← Keccak.lanes_numbers (Keccak.absorb _ _ _), Keccak.numbers_absorb]
  rfl

/-! ### Signers -/

/-- Whether a signature is that of an account, with digests on numbers. -/
def Recovers (message : Hash) (signature : Signature) (a : Address) : Prop :=
  (signature.v = 27 ∨ signature.v = 28) ∧
    (Ecdsa.recover?
      (Keccak.digestByNumbers
        (0x19 :: Bytes.ofText "Ethereum Signed Message:\n32" ++ message.toBytes)).toBytes.toNat
      ⟨signature.r, signature.s, signature.v == 28⟩).map
        (fun key => (⟨(Keccak.digestByNumbers
          (Bytes.ofNat 32 key.x ++ Bytes.ofNat 32 key.y)).bytes.drop 12⟩ : Address)) = some a

/-- Whose a signature is can be computed. -/
instance {message : Hash} {signature : Signature} {a : Address} :
    Decidable (Recovers message signature a) :=
  inferInstanceAs (Decidable (_ ∧ _))

/-- The account is the one that is recovered. -/
theorem recoverSigner_of_recovers {message : Hash} {signature : Signature} {a : Address}
    (h : Recovers message signature a) : recoverSigner message signature = .ok a := by
  obtain ⟨mark, recovered⟩ := h
  simp only [← keccak256_eq] at recovered
  obtain ⟨key, isKey, isAccount⟩ := Option.map_eq_some_iff.1 recovered
  exact recoverSigner_eq_ok_iff.2 ⟨mark, key, isKey, isAccount⟩

end StateChannels
