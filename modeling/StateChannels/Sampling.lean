import StateChannels.Identifier
import StateChannels.Uint256

/-!
# `StateChannels.Sampling`: random values

Random identifiers and numbers out of a stream of random bytes. A
byte of a value is the first byte of the next four of the stream.

Main statements:

* `sample?_eq_some_iff`: which bytes of the stream are taken, and that
  there is a value exactly if the stream has four bytes for each.
* `Uint256.sample?_eq_some_iff`: a random number is what 32 of them
  spell. Any 32 bytes spell one.
-/

set_option autoImplicit false

namespace StateChannels

/-! ### Random bytes -/

/-- The first of every four bytes of a stream. -/
def Bytes.everyFourth : Bytes → Bytes
  | b :: _ :: _ :: _ :: rest => b :: everyFourth rest
  | _ => []

/-- Of a stream that does not end with four bytes, the end is not
used. -/
@[simp] theorem Bytes.length_everyFourth (stream : Bytes) :
    stream.everyFourth.length = stream.length / 4 := by
  fun_induction everyFourth stream with
  | case1 b _ _ _ rest ih =>
    simp only [List.length_cons, ih]
    omega
  | case2 stream short =>
    -- Four bytes would have been taken.
    match stream, short with
    | [], _ | [_], _ | [_, _], _ | [_, _, _], _ => simp
    | b :: b1 :: b2 :: b3 :: rest, short => exact absurd rfl (short b b1 b2 b3 rest)

/-- Every fourth byte is taken, as long as there are enough. -/
theorem Bytes.getElem?_everyFourth {stream : Bytes} {i : Nat} (enough : 4 * i + 3 < stream.length) :
    stream.everyFourth[i]? = stream[4 * i]? := by
  fun_induction everyFourth stream generalizing i with
  | case1 b b1 b2 b3 rest ih =>
    cases i with
    | zero => rfl
    | succ i =>
      simp only [List.length_cons] at enough
      rw [List.getElem?_cons_succ, ih (by omega)]
      rfl
  | case2 stream short =>
    match stream, short with
    | [], _ | [_], _ | [_, _], _ | [_, _, _], _ =>
      simp only [List.length_cons, List.length_nil] at enough
      omega
    | b :: b1 :: b2 :: b3 :: rest, short => exact absurd rfl (short b b1 b2 b3 rest)

/-- The next `n` random bytes, if the stream has enough. -/
def sample? (n : Nat) (stream : Bytes) : Option (Vector UInt8 n) :=
  Bytes.toVector? n ((Bytes.everyFourth stream).take n)

/-- There are `n` random bytes exactly if the stream has four for each,
and they are those at the places 0, 4, 8 and so on. -/
theorem sample?_eq_some_iff {n : Nat} {stream : Bytes} {v : Vector UInt8 n} :
    sample? n stream = some v ↔
      4 * n ≤ stream.length ∧ ∀ i, i < n → stream[4 * i]? = v[i]? := by
  rw [sample?, Bytes.toVector?_eq_some_iff]
  constructor
  · intro same
    have length := congrArg List.length same
    rw [Vector.length_toList, List.length_take, Bytes.length_everyFourth] at length
    have enough : 4 * n ≤ stream.length := by omega
    refine ⟨enough, fun i small => ?_⟩
    rw [← Bytes.getElem?_everyFourth (by omega), ← List.getElem?_take_of_lt small, ← same]
    simp
  · rintro ⟨enough, each⟩
    refine List.ext_getElem? fun i => ?_
    by_cases small : i < n
    · rw [List.getElem?_take_of_lt small, Bytes.getElem?_everyFourth (by omega), each i small]
      simp
    · rw [List.getElem?_take_eq_none (by omega), List.getElem?_eq_none (by simpa using small)]

/-- So a short stream gives none, and no other does. -/
theorem isSome_sample? {n : Nat} {stream : Bytes} :
    (sample? n stream).isSome ↔ 4 * n ≤ stream.length := by
  constructor
  · intro some
    obtain ⟨v, taken⟩ := Option.isSome_iff_exists.1 some
    exact (sample?_eq_some_iff.1 taken).1
  · intro enough
    have length : (stream.everyFourth.take n).length = n := by
      rw [List.length_take, Bytes.length_everyFourth]
      omega
    rw [sample?, Bytes.toVector?, dif_pos length]
    rfl

/-! ### Random values -/

/-- A random digest. -/
def Hash.sample? (stream : Bytes) : Option Hash := (StateChannels.sample? 32 stream).map .mk

/-- A random address. -/
def Address.sample? (stream : Bytes) : Option Address :=
  (StateChannels.sample? 20 stream).map .mk

/-- A random signature. -/
def Signature.sample? (stream : Bytes) : Option Signature :=
  (StateChannels.sample? 65 stream).map .mk

/-- A random number: 32 random bytes, most significant first. -/
def Uint256.sample? (stream : Bytes) : Option Uint256 :=
  (StateChannels.sample? 32 stream).bind fun bs => ofBytes? bs.toList

/-- Every 32 random bytes spell a number, so none of them is refused. -/
theorem Uint256.sample?_eq_some_iff {stream : Bytes} {a : Uint256} :
    sample? stream = some a ↔
      ∃ bs, StateChannels.sample? 32 stream = some bs ∧ a.toNat = Bytes.toNat bs.toList := by
  rw [sample?, Option.bind_eq_some_iff]
  refine exists_congr fun bs => and_congr_right fun _ => ?_
  rw [ofBytes?, if_pos (by simp), ofNat?_eq_some_iff]

/-- A word is sampled when the stream has 128 bytes. -/
theorem Uint256.isSome_sample? {stream : Bytes} :
    (sample? stream).isSome ↔ 4 * 32 ≤ stream.length := by
  rw [← StateChannels.isSome_sample?, Option.isSome_iff_exists, Option.isSome_iff_exists]
  constructor
  · rintro ⟨a, taken⟩
    obtain ⟨bs, isSome, -⟩ := sample?_eq_some_iff.1 taken
    exact ⟨bs, isSome⟩
  · rintro ⟨bs, taken⟩
    have small := Bytes.toNat_lt bs.toList
    rw [Vector.length_toList] at small
    exact ⟨⟨Bytes.toNat bs.toList, small⟩, sample?_eq_some_iff.2 ⟨bs, taken, rfl⟩⟩

end StateChannels
