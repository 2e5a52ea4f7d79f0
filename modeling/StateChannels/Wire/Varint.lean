import StateChannels.Bytes

/-!
# `StateChannels.Wire.Varint`: numbers of variable length

A number is written in digits of seven bits, least significant first.
Every byte but the last has its high bit set. A reader takes numbers
below `2 ^ 64`: at most ten bytes, of which the tenth is 0 or 1.

Main statement: what is written reads back, whatever bytes follow
(`read_write`).
-/

set_option autoImplicit false

namespace StateChannels.Wire.Varint

/-- The digits of a number. -/
def write (n : Nat) : Bytes :=
  if n < 128 then [UInt8.ofNat n]
  else UInt8.ofNat (n % 128 + 128) :: write (n / 128)

/-- Reads a number of at most `room` bytes, the last of which may
hold one bit only. The result is the number and the bytes behind
it. -/
def readWithin : (room : Nat) → Bytes → Option (Nat × Bytes)
  | 0, _ => none
  | _ + 1, [] => none
  | room + 1, b :: rest =>
    if b.toNat < 128 then
      if room = 0 ∧ 1 < b.toNat then none else some (b.toNat, rest)
    else do
      let (high, rest) ← readWithin room rest
      return (b.toNat - 128 + 128 * high, rest)

/-- Reads a number from the front of a byte string. -/
def read (input : Bytes) : Option (Nat × Bytes) := readWithin 10 input

/-! ### Reading what was written -/

/-- Every number takes a byte. -/
theorem write_ne_nil (n : Nat) : write n ≠ [] := by
  rw [write]
  split <;> simp

/-- A number that fits into the room is read back, and the rest is left. -/
theorem readWithin_write {n room : Nat} (h : n < 2 * 128 ^ room) (rest : Bytes) :
    readWithin (room + 1) (write n ++ rest) = some (n, rest) := by
  induction room generalizing n with
  | zero =>
    have : n < 128 := by omega
    have toNat : (UInt8.ofNat n).toNat = n := by simp; omega
    rw [write, if_pos this, List.singleton_append, readWithin, toNat, if_pos this,
      if_neg (by omega)]
  | succ room ih =>
    rw [write]
    split
    · rename_i small
      have toNat : (UInt8.ofNat n).toNat = n := by simp; omega
      rw [List.singleton_append, readWithin, toNat]
      simp [small]
    · rename_i large
      have toNat : (UInt8.ofNat (n % 128 + 128)).toNat = n % 128 + 128 := by simp; omega
      have high : n / 128 < 2 * 128 ^ room := by
        rw [Nat.pow_succ, ← Nat.mul_assoc] at h
        exact Nat.div_lt_of_lt_mul (by rw [Nat.mul_comm]; exact h)
      rw [List.cons_append, readWithin, toNat, if_neg (by omega), ih high]
      simp
      omega

/-- A number below `2 ^ 64` reads back from its digits. -/
theorem read_write {n : Nat} (h : n < 2 ^ 64) (rest : Bytes) :
    read (write n ++ rest) = some (n, rest) :=
  readWithin_write (by simpa using h) rest

/-- A number read within some room fits into it, and reading takes a byte at
least. -/
theorem readWithin_bound {room n : Nat} {input rest : Bytes}
    (h : readWithin (room + 1) input = some (n, rest)) :
    n < 2 * 128 ^ room ∧ rest.length < input.length := by
  induction room generalizing n input with
  | zero =>
    cases input with
    | nil => simp [readWithin] at h
    | cons b tail =>
      rw [readWithin] at h
      by_cases small : b.toNat < 128
      · by_cases one : 1 < b.toNat
        · rw [if_pos small, if_pos ⟨rfl, one⟩] at h
          cases h
        · rw [if_pos small, if_neg fun both => one both.2] at h
          cases h
          rw [Nat.pow_zero, List.length_cons]
          omega
      -- There is no room for another digit.
      · rw [if_neg small, readWithin] at h
        cases h
  | succ room ih =>
    cases input with
    | nil => simp [readWithin] at h
    | cons b tail =>
      rw [readWithin] at h
      split at h
      · simp only [Nat.add_eq_zero_iff, Nat.succ_ne_self, and_false, false_and, if_false,
          Option.some.injEq, Prod.mk.injEq] at h
        obtain ⟨rfl, rfl⟩ := h
        have : 1 ≤ 128 ^ (room + 1) := Nat.one_le_pow _ _ (by omega)
        have : 128 ≤ 128 ^ (room + 1) := by
          rw [Nat.pow_succ]
          exact Nat.le_mul_of_pos_left _ (Nat.pow_pos (by omega))
        simp
        omega
      · cases hr : readWithin (room + 1) tail with
        | none => simp [hr] at h
        | some found =>
          obtain ⟨high, behind⟩ := found
          simp only [hr, Option.pure_def, Option.bind_eq_bind, Option.bind_some,
            Option.some.injEq, Prod.mk.injEq] at h
          obtain ⟨rfl, rfl⟩ := h
          obtain ⟨bound, shorter⟩ := ih hr
          have := b.toNat_lt
          rw [Nat.pow_succ, List.length_cons]
          omega

/-- A number that was read is below `2 ^ 64`, and bytes were used. -/
theorem read_bound {n : Nat} {input rest : Bytes} (h : read input = some (n, rest)) :
    n < 2 ^ 64 ∧ rest.length < input.length := by
  simpa using readWithin_bound h

end StateChannels.Wire.Varint
