import Mathlib.Tactic.IntervalCases
import StateChannels.Hash.Sha256

/-!
# `StateChannels.Proofs.Hash.Schedule`: SHA-256 by its message schedule

The standard gives every round a message word of its own. The first 16 words
are the block, and each later one is computed from those 16, 15, 7 and 2
places before it. `Sha256.compress` keeps a window of 16 words, which moves by
one place with every round. Here the words are in one list, the latest first,
that only grows, so no word is moved, and a digest is computed in a tenth of
the steps.

* `foldl_eq_rounds`: the rounds with a window are the rounds by the schedule.
* `digest_eq`, `keyed_eq`: so digests and keyed digests can be computed by
  the schedule, for a message of so many blocks.
-/

set_option autoImplicit false

namespace StateChannels.Sha256

/-- A message word, from those 16, 15, 7 and 2 places before it. -/
def scheduled (w16 w15 w7 w2 : UInt32) : UInt32 :=
  w16 + (rotate w15 7 ^^^ rotate w15 18 ^^^ w15 >>> 3) + w7 +
    (rotate w2 17 ^^^ rotate w2 19 ^^^ w2 >>> 10)

/-- One round for each constant, on eight working words. The message words
are all that there are by now, the latest first, and the round takes the one
16 places before the next. -/
def rounds : (constants words : List UInt32) → (a b c d e f g h : UInt32) → Chain
  | constant :: constants, w1 :: w2 :: w3 :: w4 :: w5 :: w6 :: w7 :: w8 :: w9 :: w10 :: w11 ::
      w12 :: w13 :: w14 :: w15 :: w16 :: words, a, b, c, d, e, f, g, h =>
    let t := h + (rotate e 6 ^^^ rotate e 11 ^^^ rotate e 25) + ((e &&& f) ^^^ (~~~ e &&& g)) +
      constant + w16
    rounds constants (scheduled w16 w15 w7 w2 :: w1 :: w2 :: w3 :: w4 :: w5 :: w6 :: w7 :: w8 ::
      w9 :: w10 :: w11 :: w12 :: w13 :: w14 :: w15 :: w16 :: words)
      (t + ((rotate a 2 ^^^ rotate a 13 ^^^ rotate a 22) +
        ((a &&& b) ^^^ (a &&& c) ^^^ (b &&& c)))) a b c (d + t) e f g
  | _, _, a, b, c, d, e, f, g, h => #v[a, b, c, d, e, f, g, h]

/-- A round of `compress`, on the working words and the window. -/
def windowRound (x : Chain × Vector UInt32 16) (constant : UInt32) : Chain × Vector UInt32 16 :=
  (round x.1 constant (x.2.get 0), nextWindow x.2)

/-- The window moves over the words: it has the latest 16 of them. -/
theorem foldl_eq_rounds (constants words : List UInt32) (a b c d e f g h : UInt32)
    (w1 w2 w3 w4 w5 w6 w7 w8 w9 w10 w11 w12 w13 w14 w15 w16 : UInt32) :
    (constants.foldl windowRound
      (#v[a, b, c, d, e, f, g, h],
        #v[w16, w15, w14, w13, w12, w11, w10, w9, w8, w7, w6, w5, w4, w3, w2, w1])).1 =
    rounds constants (w1 :: w2 :: w3 :: w4 :: w5 :: w6 :: w7 :: w8 :: w9 :: w10 :: w11 :: w12 ::
      w13 :: w14 :: w15 :: w16 :: words) a b c d e f g h := by
  induction constants generalizing words a b c d e f g h
    w1 w2 w3 w4 w5 w6 w7 w8 w9 w10 w11 w12 w13 w14 w15 w16 with
  | nil => rfl
  | cons constant constants ih =>
    -- The next window and the next working words are what the equations of the two say.
    rw [List.foldl_cons, rounds]
    exact ih ..

/-- The rounds of a block, from any window on. -/
theorem foldl_window_eq_rounds (constants : List UInt32) (v : Chain) (w : Vector UInt32 16) :
    (constants.foldl windowRound (v, w)).1 =
      rounds constants w.toList.reverse (v.get 0) (v.get 1) (v.get 2) (v.get 3) (v.get 4)
        (v.get 5) (v.get 6) (v.get 7) := by
  have working : #v[v[0], v[1], v[2], v[3], v[4], v[5], v[6], v[7]] = v := by
    ext i inside
    interval_cases i <;> rfl
  have window : #v[w[0], w[1], w[2], w[3], w[4], w[5], w[6], w[7], w[8], w[9], w[10], w[11],
      w[12], w[13], w[14], w[15]] = w := by
    ext i inside
    interval_cases i <;> rfl
  have latestFirst : [w[15], w[14], w[13], w[12], w[11], w[10], w[9], w[8], w[7], w[6], w[5],
      w[4], w[3], w[2], w[1], w[0]] = w.toList.reverse := by
    conv_rhs => rw [← window]
    rfl
  have moved := foldl_eq_rounds constants [] v[0] v[1] v[2] v[3] v[4] v[5] v[6] v[7] w[15] w[14]
    w[13] w[12] w[11] w[10] w[9] w[8] w[7] w[6] w[5] w[4] w[3] w[2] w[1] w[0]
  rw [working, window, latestFirst] at moved
  exact moved

/-- `compress` by the schedule. -/
def compressRounds (chain : Chain) (block : Bytes) : Chain :=
  let last := rounds roundConstants (blockWords block).toList.reverse
    (chain.get 0) (chain.get 1) (chain.get 2) (chain.get 3) (chain.get 4) (chain.get 5)
    (chain.get 6) (chain.get 7)
  .ofFn fun i => chain.get i + last.get i

/-- Compression by the schedule is compression. -/
theorem compress_eq_compressRounds (chain : Chain) (block : Bytes) :
    compress chain block = compressRounds chain block := by
  rw [compressRounds, ← foldl_window_eq_rounds]
  rfl

/-- `absorb` by the schedule. -/
def absorbRounds (chain : Chain) : (blocks : Nat) → (input : Bytes) → Chain
  | 0, _ => chain
  | k + 1, input => absorbRounds (compressRounds chain (input.take 64)) k (input.drop 64)

/-- Absorption by the schedule is absorption. -/
theorem absorb_eq_absorbRounds (chain : Chain) (blocks : Nat) (input : Bytes) :
    absorb chain blocks input = absorbRounds chain blocks input := by
  induction blocks generalizing chain input with
  | zero => rfl
  | succ k ih => rw [absorb, compress_eq_compressRounds, ih, absorbRounds]

/-- The digest of a message of so many blocks, by the schedule. -/
def digestOf (blocks : Nat) (message : Bytes) : Bytes :=
  (absorbRounds initial blocks (pad message)).toList.flatMap fun w => Bytes.ofNat 4 w.toNat

/-- A bit, zeros and eight bytes for the length go into the last block, or
make a new one. -/
theorem length_pad_div (message : Bytes) :
    (pad message).length / 64 = (message.length + 72) / 64 := by
  simp only [pad, Bytes.zeros, List.length_append, List.length_cons, List.length_replicate,
    Bytes.length_ofNat]
  omega

/-- The digest by the schedule is the digest, if the number of blocks is
right. -/
theorem digest_eq {message : Bytes} {blocks : Nat} (h : (message.length + 72) / 64 = blocks) :
    digest message = digestOf blocks message := by
  rw [digest, absorb_eq_absorbRounds, digestOf, length_pad_div, h]

/-- A digest has 32 bytes. -/
theorem length_digestOf (blocks : Nat) (message : Bytes) :
    (digestOf blocks message).length = 32 := by
  simp only [digestOf, List.length_flatMap, Bytes.length_ofNat, List.map_const',
    List.sum_replicate_nat, Vector.length_toList]

/-- With a key of at most one block, the keyed digest is one of two blocks,
over one that starts with the key. -/
theorem keyed_eq {key message : Bytes} {blocks : Nat} (short : key.length ≤ 64)
    (h : (message.length + 136) / 64 = blocks) :
    keyed key message =
      digestOf 2 ((key ++ Bytes.zeros (64 - key.length)).map (· ^^^ 0x5c) ++
        digestOf blocks ((key ++ Bytes.zeros (64 - key.length)).map (· ^^^ 0x36) ++ message)) := by
  have block : (key ++ Bytes.zeros (64 - key.length)).length = 64 := by
    rw [List.length_append, Bytes.zeros, List.length_replicate]
    omega
  have inner : digest ((key ++ Bytes.zeros (64 - key.length)).map (· ^^^ 0x36) ++ message) =
      digestOf blocks ((key ++ Bytes.zeros (64 - key.length)).map (· ^^^ 0x36) ++ message) := by
    refine digest_eq ?_
    rw [List.length_append, List.length_map, block, ← h]
    omega
  rw [keyed, if_pos short, inner]
  refine digest_eq ?_
  rw [List.length_append, List.length_map, block, length_digestOf]

end StateChannels.Sha256
