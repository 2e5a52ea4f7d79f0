import StateChannels.Bytes

/-!
# `StateChannels.Uint256`: amounts and other 256 bit numbers

The number type of the contracts: a natural number below `2 ^ 256`.
Sums and differences are checked. They have no result where the
number would leave the range, so no operation of this file wraps.

Main statements: `add?_eq_some_iff` and `sub?_eq_some_iff` say that
a result is the sum or the difference of the natural numbers.
-/

set_option autoImplicit false

namespace StateChannels

/-- A natural number below `2 ^ 256`. -/
@[ext] structure Uint256 where
  toNat : Nat
  toNat_lt : toNat < 2 ^ 256
deriving DecidableEq

namespace Uint256

/-- The number `n`, if it is in range. -/
def ofNat? (n : Nat) : Option Uint256 :=
  if h : n < 2 ^ 256 then some ⟨n, h⟩ else none

/-- The number zero. -/
def zero : Uint256 := ⟨0, by decide⟩

/-- The number one. -/
def one : Uint256 := ⟨1, by decide⟩

/-- The number zero. -/
instance : Inhabited Uint256 := ⟨zero⟩

/-- Words are ordered as numbers. -/
instance : LT Uint256 := ⟨fun a b => a.toNat < b.toNat⟩

/-- Words are ordered as numbers. -/
instance : LE Uint256 := ⟨fun a b => a.toNat ≤ b.toNat⟩

/-- Which of two words is less can be computed. -/
instance (a b : Uint256) : Decidable (a < b) := Nat.decLt a.toNat b.toNat

/-- Whether a word is at most another one can be computed. -/
instance (a b : Uint256) : Decidable (a ≤ b) := Nat.decLe a.toNat b.toNat

/-- The lesser of two words. -/
instance : Min Uint256 := ⟨fun a b => if a ≤ b then a else b⟩

/-- The sum, if it is in range. -/
def add? (a b : Uint256) : Option Uint256 := ofNat? (a.toNat + b.toNat)

/-- The difference, if it is not negative. -/
def sub? (a b : Uint256) : Option Uint256 :=
  if b ≤ a then ofNat? (a.toNat - b.toNat) else none

/-- What is left of `a` after taking `b`, or zero if `b` is more. -/
def monus (a b : Uint256) : Uint256 :=
  ⟨a.toNat - b.toNat, Nat.lt_of_le_of_lt (Nat.sub_le _ _) a.toNat_lt⟩

/-- The 32 bytes of the number, most significant byte first. -/
def toBytes (a : Uint256) : Bytes := Bytes.ofNat 32 a.toNat

/-- The number that at most 32 bytes spell. -/
def ofBytes? (bs : Bytes) : Option Uint256 :=
  if bs.length ≤ 32 then ofNat? bs.toNat else none

/-! ### Values -/

/-- Numbers are compared by their values. -/
theorem le_iff {a b : Uint256} : a ≤ b ↔ a.toNat ≤ b.toNat := Iff.rfl

/-- So they are strictly. -/
theorem lt_iff {a b : Uint256} : a < b ↔ a.toNat < b.toNat := Iff.rfl

/-- The value of zero. -/
@[simp] theorem toNat_zero : zero.toNat = 0 := rfl

/-- The value of one. -/
@[simp] theorem toNat_one : one.toNat = 1 := rfl

/-- Subtraction that stops at zero is that of natural numbers. -/
@[simp] theorem toNat_monus (a b : Uint256) : (a.monus b).toNat = a.toNat - b.toNat := rfl

/-- The smaller number has the smaller value. -/
@[simp] theorem toNat_min (a b : Uint256) : (min a b).toNat = min a.toNat b.toNat := by
  change (if a ≤ b then a else b).toNat = _
  split
  · rename_i h
    exact (Nat.min_eq_left h).symm
  · rename_i h
    exact (Nat.min_eq_right (Nat.le_of_not_le h)).symm

/-- A natural number that is in range is the number with this value. -/
theorem ofNat?_eq_some_iff {n : Nat} {a : Uint256} : ofNat? n = some a ↔ a.toNat = n := by
  unfold ofNat?
  split
  · rw [Option.some.injEq, Uint256.ext_iff]
    exact eq_comm
  · rename_i h
    simp only [reduceCtorEq, false_iff]
    exact fun e => h (e ▸ a.toNat_lt)

/-- Out of range it is none. -/
theorem ofNat?_eq_none_iff {n : Nat} : ofNat? n = none ↔ 2 ^ 256 ≤ n := by
  unfold ofNat?
  split <;> simp <;> omega

/-- A checked sum is the sum of the numbers. -/
theorem add?_eq_some_iff {a b c : Uint256} :
    a.add? b = some c ↔ c.toNat = a.toNat + b.toNat := ofNat?_eq_some_iff

/-- There is no sum exactly if the numbers add up to too much. -/
theorem add?_eq_none_iff {a b : Uint256} :
    a.add? b = none ↔ 2 ^ 256 ≤ a.toNat + b.toNat := ofNat?_eq_none_iff

/-- A checked difference is what has to be added to get back. -/
theorem sub?_eq_some_iff {a b c : Uint256} :
    a.sub? b = some c ↔ a.toNat = b.toNat + c.toNat := by
  unfold sub?
  split
  · rename_i h
    rw [ofNat?_eq_some_iff]
    have := le_iff.1 h
    omega
  · rename_i h
    simp only [reduceCtorEq, false_iff]
    exact fun e => h (le_iff.2 (by omega))

/-- There is no difference exactly if more is taken than there is. -/
theorem sub?_eq_none_iff {a b : Uint256} : a.sub? b = none ↔ a.toNat < b.toNat := by
  cases h : a.sub? b with
  | none =>
    simp only [true_iff]
    refine Nat.lt_of_not_le fun le => ?_
    have : a.sub? b = some ⟨a.toNat - b.toNat, by have := a.toNat_lt; omega⟩ :=
      sub?_eq_some_iff.2 (by simp; omega)
    simp [h] at this
  | some c =>
    have := sub?_eq_some_iff.1 h
    simp
    omega

/-- A number takes all 32 bytes. -/
@[simp] theorem length_toBytes (a : Uint256) : a.toBytes.length = 32 := by
  simp [toBytes]

/-- The bytes of a number spell it. -/
@[simp] theorem toNat_toBytes (a : Uint256) : a.toBytes.toNat = a.toNat :=
  Bytes.toNat_ofNat (by simpa using a.toNat_lt)

/-- A number is read back from its bytes. -/
@[simp] theorem ofBytes?_toBytes (a : Uint256) : ofBytes? a.toBytes = some a := by
  simp [ofBytes?, ofNat?_eq_some_iff]

end Uint256

end StateChannels
