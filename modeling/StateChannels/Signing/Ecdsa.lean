import StateChannels.Hash.Sha256
import StateChannels.Signing.Curve

/-!
# `StateChannels.Signing.Ecdsa`: signatures on numbers

ECDSA over the curve of the library, with the nonce derived from key
and digest (RFC 6979) instead of drawn at random, and with the lower
of the two possible values of `s`. A signature keeps the parity of
the nonce point, from which the public key is computed back.
-/

set_option autoImplicit false

namespace StateChannels.Ecdsa

open Curve

/-- A signature: two scalars, and whether the nonce point has an odd
second coordinate. -/
structure Scalars where
  r : Nat
  s : Nat
  odd : Bool
deriving DecidableEq

/-- The state of the nonce generator. -/
structure Drbg where
  key : Bytes
  value : Bytes

namespace Drbg

/-- Mixes `input` into the state. -/
def update (g : Drbg) (input : Bytes) : Drbg :=
  let key := Sha256.keyed g.key (g.value ++ input)
  ⟨key, Sha256.keyed key g.value⟩

/-- The generator for a secret and a digest of 32 bytes each. -/
def seed (secret digest : Bytes) : Drbg :=
  let start : Drbg := ⟨Bytes.zeros 32, List.replicate 32 1⟩
  (start.update (0 :: secret ++ digest)).update (1 :: secret ++ digest)

/-- The first of the next `attempts` outputs that is a scalar other
than zero. -/
def nonce? (g : Drbg) : (attempts : Nat) → Option Nat
  | 0 => none
  | k + 1 =>
    let value := Sha256.keyed g.key g.value
    let candidate := Bytes.toNat value
    if 0 < candidate ∧ candidate < order then some candidate
    else nonce? (update ⟨g.key, value⟩ [0]) k

end Drbg

/-- The nonce for signing `digest` with `secret`. One output in
about `2 ^ 128` is refused, so the search is never long. -/
def nonce? (secret digest : Nat) : Option Nat :=
  (Drbg.seed (Bytes.ofNat 32 secret) (Bytes.ofNat 32 (digest % order))).nonce? 64

/-- Signs a digest. There is no result if no nonce is found, or if
one of the scalars would be zero. -/
def sign? (secret digest : Nat) : Option Scalars := do
  let k ← nonce? secret digest
  let point ← (generator.scale 256 k).point?
  let r := point.x % order
  let s := inverse order k * ((digest + r * secret) % order) % order
  if r = 0 ∨ s = 0 then none
  else
    let odd := point.y % 2 == 1
    if s ≤ order / 2 then some ⟨r, s, odd⟩ else some ⟨r, order - s, !odd⟩

/-- Both scalars are between zero and the order of the group. -/
def Scalars.InRange (sig : Scalars) : Prop :=
  0 < sig.r ∧ sig.r < order ∧ 0 < sig.s ∧ sig.s < order

/-- Whether the scalars are in range can be computed. -/
instance {sig : Scalars} : Decidable sig.InRange :=
  inferInstanceAs (Decidable (_ ∧ _ ∧ _ ∧ _))

/-- The point that the public key comes out as, from the nonce point:
`r⁻¹ • (s • nonce - digest • generator)`. -/
def keyPoint (nonce : Projective) (digest : Nat) (sig : Scalars) : Projective :=
  let inv := inverse order sig.r
  (nonce.scale 256 (inv * sig.s % order)).add
    (generator.scale 256 (inv * (order - digest % order) % order))

/-- The public key under which `sig` is a signature of the digest.
Both scalars have to be in range, and the nonce point on the
curve. -/
def recover? (digest : Nat) (sig : Scalars) : Option Point :=
  if sig.InRange then do
    let nonce ← liftX? sig.r sig.odd
    (keyPoint nonce digest sig).point?
  else none

/-- When there is no key: a scalar is out of range, no point has the
coordinate `r`, or the key would be the neutral point.

The last case is an assumption about the library that recovers keys.
The neutral point is no public key, and the library answers an error
for it, as it does in the first two cases. -/
theorem recover?_eq_none_iff {digest : Nat} {sig : Scalars} :
    recover? digest sig = none ↔
      ¬sig.InRange ∨ liftX? sig.r sig.odd = none ∨
        ∃ nonce, liftX? sig.r sig.odd = some nonce ∧ (keyPoint nonce digest sig).z = 0 := by
  unfold recover?
  by_cases inRange : sig.InRange
  · rw [if_pos inRange, Option.bind_eq_bind, Option.bind_eq_none_iff]
    cases liftX? sig.r sig.odd with
    | none => simp
    | some nonce => simp [inRange, Projective.point?_eq_none_iff]
  · simp [inRange]

end StateChannels.Ecdsa
