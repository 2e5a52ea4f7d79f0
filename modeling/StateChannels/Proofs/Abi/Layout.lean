import Mathlib.Data.List.Forall2
import StateChannels.Abi.Token

/-!
# `StateChannels.Proofs.Abi.Layout`: the layout can be read back

The layout of a token does not say what the token is. A reader has to know
the kind of the value: how many slots it takes, or that it is a byte string,
a list or a tuple. `Kind.read` is such a reader. It reads static members of a
sequence in place, and dynamic ones at the offset that the head has in their
place.

* `Token.Fits`: the token is a value of the kind. Then the kind says whether
  the token is dynamic and what it takes of the head.
* `Token.read_encode`: the reader finds the token again, whatever bytes
  follow.
* `Token.eq_of_encode_eq`: so two values of one kind with the same bytes are
  the same.

Lengths and offsets are written in one slot each, so the layout has to be
shorter than a bound. It is `2 ^ 64` here, as for everything in memory.
-/

set_option autoImplicit false

namespace StateChannels.Abi

/-- A slot has its size. -/
@[simp] theorem length_slot (n : Nat) : (slot n).length = slotSize :=
  Bytes.length_ofNat slotSize n

/-- The kinds of values, as far as the layout tells them apart. -/
inductive Kind where
  /-- So many slots, which are written in place. -/
  | static (slots : Nat)
  | bytes
  | array (item : Kind)
  | tuple (items : List Kind)

namespace Kind

mutual

/-- Whether values of the kind stand in the tail. -/
def isDynamic : Kind → Bool
  | static _ => false
  | bytes => true
  | array _ => true
  | tuple items => anyDynamic items

/-- Whether one of the kinds is dynamic. -/
def anyDynamic : List Kind → Bool
  | [] => false
  | k :: ks => k.isDynamic || anyDynamic ks

end

mutual

/-- What a value of the kind takes of the head. -/
def headSize : Kind → Nat
  | static slots => slotSize * slots
  | bytes => slotSize
  | array _ => slotSize
  | tuple items => if anyDynamic items then slotSize else headsSize items

/-- What values of the kinds take of the head together. -/
def headsSize : List Kind → Nat
  | [] => 0
  | k :: ks => k.headSize + headsSize ks

end

/-! ### Reading -/

/-- The number in the first slot. -/
def number? (input : Bytes) : Option Nat :=
  if slotSize ≤ input.length then some (Bytes.toNat (input.take slotSize)) else none

/-- Reads a member of the sequence `whole`, whose part of the head is at the
front of `head`. -/
def member? (dynamic : Bool) (read : Bytes → Option Token) (whole head : Bytes) : Option Token :=
  if dynamic then do
    let offset ← number? head
    read (whole.drop offset)
  else read head

/-- Reads so many members, each of which takes `size` bytes of the head. -/
def repeat? (size : Nat) (read : Bytes → Option Token) : Nat → Bytes → Option (List Token)
  | 0, _ => some []
  | count + 1, head => do
    let t ← read head
    let ts ← repeat? size read count (head.drop size)
    return t :: ts

mutual

/-- Reads a value of the kind from the front of a byte string. -/
def read : Kind → Bytes → Option Token
  | static slots, input =>
    if slotSize * slots ≤ input.length then some (.static (input.take (slotSize * slots)))
    else none
  | bytes, input => do
    let length ← number? input
    let content := (input.drop slotSize).take length
    if content.length = length then some (.bytes content) else none
  | array item, input => do
    let count ← number? input
    let whole := input.drop slotSize
    .array <$> repeat? item.headSize (member? item.isDynamic item.read whole) count whole
  | tuple items, input => .tuple <$> readAll items input input

/-- Reads the members of the sequence `whole`, the first of which has its
part of the head at the front of `head`. -/
def readAll : List Kind → Bytes → Bytes → Option (List Token)
  | [], _, _ => some []
  | k :: ks, whole, head => do
    let t ← member? k.isDynamic k.read whole head
    let ts ← readAll ks whole (head.drop k.headSize)
    return t :: ts

end

/-- The members of a list are read as those of a tuple of one kind. -/
theorem readAll_replicate (item : Kind) (whole : Bytes) (count : Nat) (head : Bytes) :
    readAll (List.replicate count item) whole head =
      repeat? item.headSize (member? item.isDynamic item.read whole) count head := by
  induction count generalizing head with
  | zero => rfl
  | succ count ih =>
    rw [List.replicate_succ, readAll, repeat?]
    simp only [ih]

/-- A number is read back from its slot. -/
theorem number?_slot {n : Nat} (small : n < 2 ^ 256) (rest : Bytes) :
    number? (slot n ++ rest) = some n := by
  have value : Bytes.toNat (slot n) = n := Bytes.toNat_ofNat (by simpa [slotSize] using small)
  rw [number?, if_pos (by rw [List.length_append, length_slot]; exact Nat.le_add_right _ _),
    List.take_left' (length_slot n), value]

end Kind

namespace Part

variable {p : Part} {ps : List Part}

/-- A sequence has the bytes of its members, and a slot more for each of those
that stand in the tail. -/
theorem length_assemble_cons (p : Part) (ps : List Part) :
    (assemble (p :: ps)).length =
      (if p.dynamic then slotSize else 0) + p.content.length + (assemble ps).length := by
  rw [length_assemble, length_assemble, headsSize, headSize, tails]
  split
  · rw [List.length_append]
    omega
  · omega

/-- A member is no longer than the sequence. -/
theorem length_content_le (member : p ∈ ps) : p.content.length ≤ (assemble ps).length := by
  induction ps with
  | nil => cases member
  | cons q ps ih =>
    rw [length_assemble_cons]
    rcases List.mem_cons.1 member with rfl | later
    · omega
    · have rest := ih later
      omega

end Part

namespace Token

/-! ### Values of a kind -/

/-- The token is a value of the kind. A list has to be short enough to be
counted. -/
inductive Fits : Token → Kind → Prop
  | static {slots : Bytes} {count : Nat} (length : slots.length = slotSize * count) :
    Fits (static slots) (.static count)
  | bytes (content : Bytes) : Fits (bytes content) .bytes
  | array {items : List Token} {item : Kind} (countable : items.length < 2 ^ 64)
    (each : ∀ t ∈ items, Fits t item) : Fits (array items) (.array item)
  | tuple {items : List Token} {kinds : List Kind} (each : List.Forall₂ Fits items kinds) :
    Fits (tuple items) (.tuple kinds)

variable {t u : Token} {ts : List Token} {k : Kind} {ks : List Kind}

/-- A list is a tuple of members of one kind. -/
theorem forall₂_replicate {fits : Token → Kind → Prop} (each : ∀ t ∈ ts, fits t k) :
    List.Forall₂ fits ts (List.replicate ts.length k) := by
  induction ts with
  | nil => exact .nil
  | cons t ts ih =>
    obtain ⟨first, others⟩ := List.forall_mem_cons.1 each
    exact .cons first (ih others)

/-- What holds for each member and its kind holds along the lists. -/
theorem forall₂_of_fits {holds : Token → Kind → Prop} (each : List.Forall₂ Fits ts ks)
    (member : ∀ t ∈ ts, ∀ k, t.Fits k → holds t k) : List.Forall₂ holds ts ks :=
  ((List.forall₂_and_left _ _).2 ⟨member, each⟩).imp fun _ k h => h.1 k h.2

/-- A member of a tuple is a value of some kind. -/
theorem exists_fits_of_mem (each : List.Forall₂ Fits ts ks) (member : t ∈ ts) : ∃ k, t.Fits k := by
  induction each with
  | nil => cases member
  | @cons _ k _ _ first _ ih =>
    rcases List.mem_cons.1 member with rfl | later
    · exact ⟨k, first⟩
    · exact ih later

/-- Members are dynamic where their kinds are. -/
theorem anyDynamic_eq (each : List.Forall₂ (fun t k => t.isDynamic = k.isDynamic) ts ks) :
    anyDynamic ts = Kind.anyDynamic ks := by
  induction each with
  | nil => rfl
  | cons first _ ih => rw [anyDynamic, Kind.anyDynamic, first, ih]

/-- The kind says whether a token is dynamic. -/
theorem Fits.isDynamic_eq (fits : t.Fits k) : t.isDynamic = k.isDynamic := by
  induction t using Token.induction generalizing k with
  | static => cases fits; rfl
  | bytes => cases fits; rfl
  | array => cases fits; rfl
  | tuple items ih =>
    cases fits with
    | tuple each =>
      exact anyDynamic_eq (forall₂_of_fits each fun t member _ fits => ih t member fits)

/-- Members take as much of the head as their kinds. -/
theorem headsSize_eq (each : List.Forall₂ (fun t k => t.headSize = k.headSize) ts ks) :
    headsSize ts = Kind.headsSize ks := by
  induction each with
  | nil => rfl
  | cons first _ ih => rw [headsSize, Kind.headsSize, first, ih]

/-- The kind says what a token takes of the head. -/
theorem Fits.headSize_eq (fits : t.Fits k) : t.headSize = k.headSize := by
  induction t using Token.induction generalizing k with
  | static =>
    cases fits with
    | static length => exact length
  | bytes => cases fits; rfl
  | array => cases fits; rfl
  | tuple items ih =>
    cases fits with
    | @tuple _ kinds each =>
      have dynamic : anyDynamic items = Kind.anyDynamic kinds :=
        anyDynamic_eq (each.imp fun _ _ fits => fits.isDynamic_eq)
      have heads : headsSize items = Kind.headsSize kinds :=
        headsSize_eq (forall₂_of_fits each fun t member _ fits => ih t member fits)
      rw [headSize, Kind.headSize, dynamic, heads]

/-! ### Lengths -/

/-- The kind says how long a static token is. -/
theorem Fits.length_encode (fits : t.Fits k) (static : k.isDynamic = false) :
    t.encode.length = k.headSize := by
  have size := (headSize_part t).trans fits.headSize_eq
  rwa [Part.headSize, fits.isDynamic_eq, static, if_neg Bool.false_ne_true] at size

/-- A list whose items take room is shorter than its bytes. -/
theorem length_le_headsSize (each : ∀ t ∈ ts, t.Fits k) (room : 0 < k.headSize) :
    ts.length ≤ headsSize ts := by
  induction ts with
  | nil => exact Nat.le_refl 0
  | cons t ts ih =>
    obtain ⟨first, others⟩ := List.forall_mem_cons.1 each
    have rest := ih others
    rw [headsSize, first.headSize_eq, List.length_cons]
    omega

/-- Items that take room make a list that can be counted. -/
theorem Fits.of_items (each : ∀ t ∈ ts, t.Fits k) (room : 0 < k.headSize)
    (short : (Token.array ts).encode.length < 2 ^ 64) : (Token.array ts).Fits (.array k) := by
  have count := length_le_headsSize each room
  rw [encode_array, List.length_append, Part.length_assemble, headsSize_parts] at short
  exact .array (by omega) each

/-- A member of a sequence is no longer than the sequence. -/
theorem length_encode_le (member : t ∈ ts) :
    t.encode.length ≤ (Part.assemble (parts ts)).length := by
  have isPart : ⟨t.isDynamic, t.encode⟩ ∈ parts ts := by
    rw [parts_eq_map]
    exact List.mem_map_of_mem member
  exact Part.length_content_le isPart

/-- A member is no longer than the tuple. -/
theorem length_encode_le_tuple {items : List Token} (member : t ∈ items) :
    t.encode.length ≤ (tuple items).encode.length := by
  rw [encode_tuple]
  exact length_encode_le member

/-- A byte string is no longer than its form. -/
theorem length_content_le (content : Bytes) : content.length ≤ (bytes content).encode.length := by
  rw [encode, List.length_append, Bytes.padRight]
  split
  · omega
  · rw [List.length_append]
    omega

/-! ### Reading back -/

/-- A byte string is read back whatever follows it. -/
theorem read_bytes {content : Bytes} (short : content.length < 2 ^ 64) (rest : Bytes) :
    Kind.read .bytes ((bytes content).encode ++ rest) = some (bytes content) := by
  have taken : (content.padRight slotSize ++ rest).take content.length = content := by
    unfold Bytes.padRight
    split
    · exact List.take_left
    · rw [List.append_assoc]
      exact List.take_left
  rw [encode, Kind.read, List.append_assoc, Kind.number?_slot (by omega)]
  simp only [Option.bind_eq_bind, Option.bind_some, List.drop_left' (length_slot _), taken,
    if_true]

/-- The members of a sequence are read back, if the tail is at the offset
that the head is made with. -/
theorem readAll_heads
    (each : List.Forall₂ (fun t k => t.Fits k ∧ ∀ rest, k.read (t.encode ++ rest) = some t) ts ks)
    {whole rest : Bytes} {offset : Nat} (tail : whole.drop offset = Part.tails (parts ts) ++ rest)
    (small : offset + (Part.tails (parts ts)).length < 2 ^ 256) (behind : Bytes) :
    Kind.readAll ks whole (Part.heads offset (parts ts) ++ behind) = some ts := by
  induction each generalizing offset with
  | nil => rfl
  | @cons t k ts ks first others ih =>
    obtain ⟨fits, reads⟩ := first
    have size := (headSize_part t).trans fits.headSize_eq
    rw [Part.headSize] at size
    rw [parts, Part.tails] at tail small
    rw [parts, Part.heads, Kind.readAll, Kind.member?, ← fits.isDynamic_eq]
    cases dynamic : t.isDynamic with
    | true =>
      -- The head has the offset of the member, and the tail goes on behind the member.
      simp only [dynamic, if_true, List.append_assoc, List.length_append] at tail small size ⊢
      have slotLength : (slot offset).length = k.headSize :=
        (length_slot offset).trans size
      have next : whole.drop (offset + t.encode.length) = Part.tails (parts ts) ++ rest := by
        rw [← List.drop_drop, tail, List.drop_left]
      have others := ih next (by omega)
      rw [Kind.number?_slot (by omega), List.drop_left' slotLength, others]
      simp only [Option.bind_eq_bind, Option.bind_some, tail, reads]
      rfl
    | false =>
      simp only [dynamic, Bool.false_eq_true, if_false, List.append_assoc] at tail small size ⊢
      rw [reads, List.drop_left' size, ih tail small]
      rfl

/-- The members are read back from what they assemble to. -/
theorem readAll_assemble
    (each : List.Forall₂ (fun t k => t.Fits k ∧ ∀ rest, k.read (t.encode ++ rest) = some t) ts ks)
    (short : (Part.assemble (parts ts)).length < 2 ^ 64) (rest : Bytes) :
    Kind.readAll ks (Part.assemble (parts ts) ++ rest) (Part.assemble (parts ts) ++ rest) =
      some ts := by
  rw [Part.length_assemble] at short
  have tail : (Part.assemble (parts ts) ++ rest).drop (Part.headsSize (parts ts)) =
      Part.tails (parts ts) ++ rest := by
    rw [Part.assemble, Part.layout, List.append_assoc, List.drop_left' (Part.length_heads _ _)]
  have read := readAll_heads each tail (by omega) (Part.tails (parts ts) ++ rest)
  rwa [← List.append_assoc, ← Part.layout, ← Part.assemble] at read

/-- A value is read back from its bytes, whatever bytes follow. -/
theorem read_encode (fits : t.Fits k) (short : t.encode.length < 2 ^ 64) (rest : Bytes) :
    k.read (t.encode ++ rest) = some t := by
  induction t using Token.induction generalizing k rest with
  | static slots =>
    cases fits with
    | static length =>
      rw [encode, Kind.read, List.length_append, if_pos (by omega), List.take_left' length]
  | bytes content =>
    cases fits
    exact read_bytes (Nat.lt_of_le_of_lt (length_content_le content) short) rest
  | array items ih =>
    cases fits with
    -- The number of items stands in front, and the items are read as so many of one kind.
    | @array _ item countable each =>
      rw [encode_array, List.length_append] at short
      have reads : ∀ t ∈ items, t.Fits item ∧ ∀ rest, item.read (t.encode ++ rest) = some t := by
        intro t member
        have part := length_encode_le member
        exact ⟨each t member, ih t member (each t member) (by omega)⟩
      have row := readAll_assemble (forall₂_replicate reads) (by omega) rest
      rw [Kind.readAll_replicate] at row
      rw [encode_array, Kind.read, List.append_assoc, Kind.number?_slot (by omega)]
      simp only [Option.bind_eq_bind, Option.bind_some, List.drop_left' (length_slot _), row]
      rfl
  | tuple items ih =>
    cases fits with
    -- The members are read by their kinds, where each is short since the tuple is.
    | @tuple _ kinds each =>
      rw [encode_tuple] at short
      have reads : List.Forall₂
          (fun t k => t.Fits k ∧ ∀ rest, k.read (t.encode ++ rest) = some t) items kinds := by
        refine forall₂_of_fits each fun t member k fits => ?_
        have part := length_encode_le member
        exact ⟨fits, ih t member fits (by omega)⟩
      rw [encode_tuple, Kind.read, readAll_assemble reads short]
      rfl

/-- Two values of one kind with the same bytes are the same. -/
theorem eq_of_encode_eq (fits : t.Fits k) (fits' : u.Fits k) (short : t.encode.length < 2 ^ 64)
    (same : t.encode = u.encode) : t = u := by
  have read := read_encode fits short []
  have read' := read_encode fits' (same ▸ short) []
  rw [same, read'] at read
  exact (Option.some.inj read).symm

end Token

end StateChannels.Abi
