import StateChannels.Bytes

/-!
# `StateChannels.Signing.Curve`: the group of the signatures

The curve `y² = x³ + 7` over a prime field (secp256k1). Field
elements are natural numbers below the prime. Sums of points are
computed in projective coordinates `(x, y, z)`, which stand for
`(x / z², y / z³)`, so that only the last step divides.
-/

set_option autoImplicit false

namespace StateChannels.Curve

/-- The prime of the field. -/
def prime : Nat := 2 ^ 256 - 2 ^ 32 - 977

/-- The number of points. It is prime too. -/
def order : Nat := 0xfffffffffffffffffffffffffffffffebaaedce6af48a03bbfd25e8cd0364141

/-- `base ^ exponent` modulo `m`, for an exponent of at most `bits`
bits. -/
def powMod (m : Nat) : (bits base exponent : Nat) → Nat
  | 0, _, _ => 1 % m
  | k + 1, base, exponent =>
    let rest := powMod m k (base * base % m) (exponent / 2)
    if exponent % 2 = 1 then base * rest % m else rest

/-- The inverse of `a` modulo a prime `m`, by Fermat's little
theorem. -/
def inverse (m a : Nat) : Nat := powMod m 256 a (m - 2)

/-- Difference of field elements. -/
def sub (a b : Nat) : Nat := (a + (prime - b % prime)) % prime

/-- Product of field elements. -/
def mul (a b : Nat) : Nat := a * b % prime

/-- A point of the curve other than the neutral one. -/
structure Point where
  x : Nat
  y : Nat
deriving DecidableEq

/-- A point in projective coordinates. It is the neutral point if
`z` is zero. -/
structure Projective where
  x : Nat
  y : Nat
  z : Nat
deriving DecidableEq

/-- The point that generates the group. -/
def generator : Projective where
  x := 0x79be667ef9dcbbac55a06295ce870b07029bfcdb2dce28d959f2815b16f81798
  y := 0x483ada7726a3c4655da4fbfc0e1108a8fd17b448a68554199c47d08ffb10d4b8
  z := 1

namespace Projective

/-- The neutral point. -/
def neutral : Projective := ⟨1, 1, 0⟩

/-- The point itself, if it is not neutral. -/
def point? (q : Projective) : Option Point :=
  if q.z = 0 then none
  else
    let inv := inverse prime q.z
    let inv2 := mul inv inv
    some ⟨mul q.x inv2, mul q.y (mul inv2 inv)⟩

/-- Just the neutral point has no coordinates. -/
theorem point?_eq_none_iff {q : Projective} : q.point? = none ↔ q.z = 0 := by
  unfold point?
  split <;> simp [*]

/-- Twice a point. -/
def double (q : Projective) : Projective :=
  let a := mul q.x q.x
  let b := mul q.y q.y
  let c := mul b b
  let d := 2 * sub (mul (q.x + b) (q.x + b)) (a + c) % prime
  let e := 3 * a % prime
  let x := sub (mul e e) (2 * d)
  ⟨x, sub (mul e (sub d x)) (8 * c), 2 * mul q.y q.z % prime⟩

/-- The sum of two points. -/
def add (q r : Projective) : Projective :=
  if q.z = 0 then r
  else if r.z = 0 then q
  else
    let qz2 := mul q.z q.z
    let rz2 := mul r.z r.z
    let u := mul q.x rz2
    let s := mul q.y (mul r.z rz2)
    let h := sub (mul r.x qz2) u
    let t := sub (mul r.y (mul q.z qz2)) s
    if h = 0 then
      if t = 0 then double q else neutral
    else
      let h2 := mul h h
      let h3 := mul h h2
      let v := mul u h2
      let x := sub (mul t t) (h3 + 2 * v)
      ⟨x, sub (mul t (sub v x)) (mul s h3), mul h (mul q.z r.z)⟩

/-- The multiple `n • q`, for `n` of at most `bits` bits. -/
def scale : (bits n : Nat) → Projective → Projective
  | 0, _, _ => neutral
  | k + 1, n, q =>
    let rest := scale k (n / 2) (double q)
    if n % 2 = 1 then add q rest else rest

end Projective

/-- The point with the coordinate `x` whose other coordinate is odd
or even as asked, if there is one. -/
def liftX? (x : Nat) (odd : Bool) : Option Projective :=
  if x < prime then
    let square := (mul x (mul x x) + 7) % prime
    let root := powMod prime 256 square ((prime + 1) / 4)
    if mul root root = square then
      let y := if (root % 2 == 1) = odd then root else sub 0 root
      some ⟨x, y, 1⟩
    else none
  else none

end StateChannels.Curve
