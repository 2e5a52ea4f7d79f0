/-!
# `StateChannels.Bytes`: byte strings

A byte string is a list of bytes, so that every codec of the library
is a function on lists. This file has the views that the codecs
share: big-endian numbers of a fixed width, zero padding to a slot,
and the hexadecimal text.

Main statements: a written number has its width (`length_ofNat`), and
reading it back gives the number when it fits (`toNat_ofNat`).
-/

set_option autoImplicit false

-- Powers of numbers are those of the core library, also where a wider library is in scope.
-- So a bound such as `2 ^ 64` is the same term in every module.
attribute [instance (20000), default_instance 20000] instPowNat

namespace StateChannels

/-- A byte string. -/
abbrev Bytes := List UInt8

namespace Bytes

/-- The big-endian form of `n` in `width` bytes. Higher digits of a
number that does not fit are dropped. -/
def ofNat : (width n : Nat) → Bytes
  | 0, _ => []
  | w + 1, n => ofNat w (n / 256) ++ [UInt8.ofNat n]

/-- The number that a byte string spells, most significant byte
first. -/
def toNat (bs : Bytes) : Nat :=
  bs.foldl (fun n b => 256 * n + b.toNat) 0

/-- A string of `n` zero bytes. -/
def zeros (n : Nat) : Bytes := List.replicate n 0

/-- The bytes of a text in UTF-8. -/
def ofText (s : String) : Bytes := s.toUTF8.toList

/-- The bytes as a vector of length `n`, if they are that many. -/
def toVector? (n : Nat) (bs : Bytes) : Option (Vector UInt8 n) :=
  if h : bs.length = n then some ⟨bs.toArray, by simpa using h⟩ else none

/-- The digit of a number below sixteen. -/
private def hexDigit (n : Nat) : Char :=
  if n < 10 then Char.ofNat ('0'.toNat + n) else Char.ofNat ('a'.toNat + (n - 10))

/-- Lower-case hexadecimal text with the mark `0x`. -/
def hex (bs : Bytes) : String :=
  "0x" ++ String.ofList
    (bs.flatMap fun b => [hexDigit (b.toNat / 16), hexDigit (b.toNat % 16)])

/-- The number that a lower-case digit stands for. -/
private def hexValue? (c : Char) : Option Nat :=
  if '0' ≤ c ∧ c ≤ '9' then some (c.toNat - '0'.toNat)
  else if 'a' ≤ c ∧ c ≤ 'f' then some (c.toNat - 'a'.toNat + 10)
  else none

/-- The bytes that digits in pairs spell. -/
private def ofDigits? : List Char → Option Bytes
  | [] => some []
  | [_] => none
  | a :: b :: rest => do
    let high ← hexValue? a
    let low ← hexValue? b
    let bs ← ofDigits? rest
    return UInt8.ofNat (16 * high + low) :: bs

/-- The bytes that a text in lower-case hexadecimal spells. -/
def ofHex? (s : String) : Option Bytes :=
  match s.toList with
  | '0' :: 'x' :: digits => ofDigits? digits
  | _ => none

/-! ### Widths and values -/

/-- A number takes the width asked for. -/
@[simp] theorem length_ofNat (width n : Nat) : (ofNat width n).length = width := by
  induction width generalizing n with
  | zero => rfl
  | succ w ih => simp [ofNat, ih]

/-- There are as many zero bytes as asked for. -/
@[simp] theorem length_zeros (n : Nat) : (zeros n).length = n := by
  simp [zeros]

/-- No bytes spell zero. -/
@[simp] theorem toNat_nil : toNat [] = 0 := rfl

/-- A byte behind the others is the least significant one. -/
@[simp] theorem toNat_concat (bs : Bytes) (b : UInt8) :
    toNat (bs ++ [b]) = 256 * toNat bs + b.toNat := by
  simp [toNat]

/-- A written number reads back as its remainder at the width. -/
theorem toNat_ofNat_mod (width n : Nat) : toNat (ofNat width n) = n % 256 ^ width := by
  induction width generalizing n with
  | zero => simp [ofNat, Nat.mod_one]
  | succ w ih =>
    rw [ofNat, toNat_concat, ih, Nat.pow_succ, Nat.mul_comm (256 ^ w) 256,
      Nat.mod_mul, UInt8.toNat_ofNat']
    omega

/-- A number that fits its width reads back. -/
theorem toNat_ofNat {width n : Nat} (h : n < 256 ^ width) : toNat (ofNat width n) = n := by
  rw [toNat_ofNat_mod, Nat.mod_eq_of_lt h]

/-- A number to begin with stands before the bytes. -/
private theorem foldl_from (bs : Bytes) (n : Nat) :
    bs.foldl (fun n b => 256 * n + b.toNat) n = n * 256 ^ bs.length + toNat bs := by
  induction bs generalizing n with
  | nil => simp
  | cons b bs ih =>
    rw [toNat, List.foldl_cons, List.foldl_cons, ih, ih (256 * 0 + b.toNat),
      List.length_cons, Nat.pow_succ]
    grind

/-- The first part of a byte string holds the higher digits. -/
theorem toNat_append (as bs : Bytes) :
    toNat (as ++ bs) = toNat as * 256 ^ bs.length + toNat bs := by
  rw [toNat, List.foldl_append, foldl_from]
  rfl

/-- A byte string spells a number below the bound of its length. -/
theorem toNat_lt (bs : Bytes) : toNat bs < 256 ^ bs.length := by
  induction bs with
  | nil => simp
  | cons b bs ih =>
    have hb := b.toNat_lt
    have step : toNat (b :: bs) = b.toNat * 256 ^ bs.length + toNat bs := by
      simpa [toNat] using toNat_append [b] bs
    have : b.toNat * 256 ^ bs.length ≤ 255 * 256 ^ bs.length :=
      Nat.mul_le_mul_right _ (by omega)
    rw [step, List.length_cons, Nat.pow_succ]
    omega

/-- The bytes of a vector are as many as its length. -/
@[simp] theorem toVector?_toList {n : Nat} (v : Vector UInt8 n) :
    toVector? n v.toList = some v := by
  simp [toVector?, ← Vector.toList_inj]

/-- A vector is read from its own bytes and from no others. -/
theorem toVector?_eq_some_iff {n : Nat} {bs : Bytes} {v : Vector UInt8 n} :
    toVector? n bs = some v ↔ v.toList = bs := by
  constructor
  · intro h
    unfold toVector? at h
    split at h
    · simp only [Option.some.injEq] at h
      simp [← h]
    · simp at h
  · rintro rfl
    exact toVector?_toList v

/-- Padding on the right with zeros to a whole number of slots of
`slot` bytes. -/
def padRight (slot : Nat) (bs : Bytes) : Bytes :=
  if bs.length % slot = 0 then bs else bs ++ zeros (slot - bs.length % slot)

end Bytes

end StateChannels
