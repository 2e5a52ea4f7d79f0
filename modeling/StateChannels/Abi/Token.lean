import StateChannels.Hash.Keccak
import StateChannels.Uint256

/-!
# `StateChannels.Abi.Token`: the layout of contract calls

What is hashed and signed has the byte layout of the contract ABI. A
value is first a tree of tokens, which knows nothing of the types
it came from. The layout then writes a sequence in two sections: a
static member stands in the head in place, a dynamic member stands
in the tail, and its offset from the start of the sequence stands in
the head.

What a token takes of the head is known from the tree alone
(`Token.headSize`), before any bytes are written.

Main statements:

* `Part.length_heads`: the head of a sequence is as long as its members
  take, so that the offsets lead into the tail.
* `Token.headSize_part`: what the tree says a token takes of the head is
  what its bytes take.
-/

set_option autoImplicit false

namespace StateChannels.Abi

/-- The size of a slot in bytes. -/
def slotSize : Nat := 32

/-- A number in one slot. -/
def slot (n : Nat) : Bytes := Bytes.ofNat slotSize n

/-- A member of a sequence: its bytes, and whether they stand in the
tail. -/
structure Part where
  dynamic : Bool
  content : Bytes
deriving DecidableEq

namespace Part

/-- What the member takes of the head. -/
def headSize (p : Part) : Nat := if p.dynamic then slotSize else p.content.length

/-- What all members take of the head. -/
def headsSize : List Part → Nat
  | [] => 0
  | p :: ps => p.headSize + headsSize ps

/-- The head of a sequence, whose next dynamic member is at
`offset`. -/
def heads (offset : Nat) : List Part → Bytes
  | [] => []
  | p :: ps =>
    if p.dynamic then slot offset ++ heads (offset + p.content.length) ps
    else p.content ++ heads offset ps

/-- The tail of a sequence: its dynamic members. -/
def tails : List Part → Bytes
  | [] => []
  | p :: ps => if p.dynamic then p.content ++ tails ps else tails ps

/-- The two sections of a sequence, for a head of `size` bytes: the
offsets start behind it. -/
def layout (size : Nat) (ps : List Part) : Bytes := heads size ps ++ tails ps

/-- A sequence: the head, whose offsets start behind it, then the
tail. -/
def assemble (ps : List Part) : Bytes := layout (headsSize ps) ps

/-- The head is as long as its members take. -/
theorem length_heads (offset : Nat) (ps : List Part) :
    (heads offset ps).length = headsSize ps := by
  induction ps generalizing offset with
  | nil => rfl
  | cons p ps ih =>
    unfold heads
    split <;> simp_all [headSize, headsSize, slot]

/-- A sequence is its head and its tail. -/
theorem length_assemble (ps : List Part) :
    (assemble ps).length = headsSize ps + (tails ps).length := by
  rw [assemble, layout, List.length_append, length_heads]

end Part

/-- A value, ready for the layout. -/
inductive Token where
  /-- Slots that are written in place. -/
  | static (slots : Bytes)
  /-- A byte string: its length, then the bytes in whole slots. -/
  | bytes (content : Bytes)
  /-- A list of any length: the length, then a sequence. -/
  | array (items : List Token)
  /-- A fixed number of members: a sequence. -/
  | tuple (items : List Token)

namespace Token

/-- A number in one slot. -/
def ofNat (n : Nat) : Token := static (slot n)

/-- A truth value is the number 0 or 1. -/
def ofBool (b : Bool) : Token := ofNat b.toNat

/-- An integer in one slot, in two's complement. -/
def ofInt (z : Int) : Token := ofNat (z % (2 ^ 256 : Int)).toNat

/-- Bytes of a fixed number, padded on the right to whole slots. -/
def ofFixed (bs : Bytes) : Token := static (bs.padRight slotSize)

/-- The text as a byte string. -/
def ofText (s : String) : Token := bytes (Bytes.ofText s)

/-- An amount as one slot. -/
def ofUint256 (n : Uint256) : Token := static n.toBytes

/-- A hash as one slot. -/
def ofHash (h : Hash) : Token := static h.toBytes

/-- A destination as one slot. -/
def ofDestination (d : Destination) : Token := static d.toBytes

/-- An address stands at the end of its slot. -/
def ofAddress (a : Address) : Token := static (Bytes.zeros 12 ++ a.toBytes)

mutual

/-- Whether the size of the token depends on its content. -/
def isDynamic : Token → Bool
  | static _ => false
  | bytes _ => true
  | array _ => true
  | tuple items => anyDynamic items

/-- Whether a member of a sequence is dynamic. -/
def anyDynamic : List Token → Bool
  | [] => false
  | t :: ts => t.isDynamic || anyDynamic ts

end

mutual

/-- What the token takes of the head of the sequence that it is in: a
slot for its offset if it is dynamic, and else its own bytes. -/
def headSize : Token → Nat
  | static slots => slots.length
  | bytes _ => slotSize
  | array _ => slotSize
  | tuple items => if anyDynamic items then slotSize else headsSize items

/-- What the members of a sequence take of its head. -/
def headsSize : List Token → Nat
  | [] => 0
  | t :: ts => t.headSize + headsSize ts

end

mutual

/-- The bytes of the token. -/
def encode : Token → Bytes
  | static slots => slots
  | bytes content => slot content.length ++ content.padRight slotSize
  | array items => slot items.length ++ Part.layout (headsSize items) (parts items)
  | tuple items => Part.layout (headsSize items) (parts items)

/-- The members of a sequence, each with its bytes. -/
def parts : List Token → List Part
  | [] => []
  | t :: ts => ⟨t.isDynamic, t.encode⟩ :: parts ts

end

/-- The two sections of a sequence of tokens. -/
def sequence (items : List Token) : Bytes := Part.layout (headsSize items) (parts items)

mutual

/-- What holds for a token if it holds for its members, holds for all
tokens. -/
@[elab_as_elim]
theorem induction {motive : Token → Prop} (static : ∀ slots, motive (.static slots))
    (bytes : ∀ content, motive (.bytes content))
    (array : ∀ items, (∀ t ∈ items, motive t) → motive (.array items))
    (tuple : ∀ items, (∀ t ∈ items, motive t) → motive (.tuple items)) :
    ∀ t, motive t
  | .static slots => static slots
  | .bytes content => bytes content
  | .array items => array items (inductionAll static bytes array tuple items)
  | .tuple items => tuple items (inductionAll static bytes array tuple items)

/-- What holds for a token if it holds for its members, holds for all tokens
of a list. -/
theorem inductionAll {motive : Token → Prop} (static : ∀ slots, motive (.static slots))
    (bytes : ∀ content, motive (.bytes content))
    (array : ∀ items, (∀ t ∈ items, motive t) → motive (.array items))
    (tuple : ∀ items, (∀ t ∈ items, motive t) → motive (.tuple items)) :
    ∀ items : List Token, ∀ t ∈ items, motive t
  | [] => fun _ none => nomatch none
  | t :: ts => List.forall_mem_cons.2
      ⟨induction static bytes array tuple t, inductionAll static bytes array tuple ts⟩

end

/-- The parts of a sequence are those of its members. -/
theorem parts_eq_map (ts : List Token) : parts ts = ts.map fun t => ⟨t.isDynamic, t.encode⟩ := by
  induction ts with
  | nil => rfl
  | cons t ts ih => rw [parts, ih, List.map_cons]

/-- Without dynamic members there is no tail. -/
theorem tails_eq_nil {ts : List Token} (none : anyDynamic ts = false) :
    Part.tails (parts ts) = [] := by
  induction ts with
  | nil => rfl
  | cons t ts ih =>
    rw [anyDynamic, Bool.or_eq_false_iff] at none
    rw [parts, Part.tails, none.1, if_neg Bool.false_ne_true, ih none.2]

/-- The members take as many bytes of the head as their parts, if each does. -/
theorem headsSize_parts_of {ts : List Token}
    (each : ∀ t ∈ ts, Part.headSize ⟨t.isDynamic, t.encode⟩ = t.headSize) :
    Part.headsSize (parts ts) = headsSize ts := by
  induction ts with
  | nil => rfl
  | cons t ts ih =>
    obtain ⟨first, others⟩ := List.forall_mem_cons.1 each
    rw [parts, Part.headsSize, headsSize, first, ih others]

/-- The tree says what the token takes of the head: as many bytes as
the token has, if these are written in place. -/
theorem headSize_part (t : Token) : Part.headSize ⟨t.isDynamic, t.encode⟩ = t.headSize := by
  induction t using Token.induction with
  | static slots => rfl
  | bytes content => rfl
  | array items => rfl
  | tuple items ih =>
    have size := headsSize_parts_of ih
    rw [Part.headSize, isDynamic, headSize]
    cases dynamic : anyDynamic items with
    | true => rfl
    -- A tuple without dynamic members is its head, which is as long as they take.
    | false =>
      rw [if_neg Bool.false_ne_true, if_neg Bool.false_ne_true, encode, ← size]
      show (Part.assemble (parts items)).length = _
      rw [Part.length_assemble, tails_eq_nil dynamic, List.length_nil, Nat.add_zero]

/-- The members take as many bytes of the head as their parts. -/
theorem headsSize_parts (ts : List Token) : Part.headsSize (parts ts) = headsSize ts :=
  headsSize_parts_of fun t _ => headSize_part t

/-- So a sequence is the one that its members assemble to. -/
theorem sequence_eq (items : List Token) : sequence items = Part.assemble (parts items) := by
  rw [sequence, Part.assemble, headsSize_parts]

/-- An array is its length and what its members assemble to. -/
theorem encode_array (items : List Token) :
    (array items).encode = slot items.length ++ Part.assemble (parts items) := by
  rw [encode, Part.assemble, headsSize_parts]

/-- A tuple is what its members assemble to. -/
theorem encode_tuple (items : List Token) :
    (tuple items).encode = Part.assemble (parts items) := sequence_eq items

/-- The bytes of a value that stands alone: a sequence of one. -/
def toBytes (t : Token) : Bytes := sequence [t]

/-- The bytes of a list of arguments. -/
def toArgsBytes : Token → Bytes
  | tuple items => sequence items
  | t => sequence [t]

/-- The digest of a value that stands alone. -/
def hash (t : Token) : Hash := keccak256 t.toBytes

/-- The digest of a list of arguments. -/
def argsHash (t : Token) : Hash := keccak256 t.toArgsBytes

end Token

end StateChannels.Abi
