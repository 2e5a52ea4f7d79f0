import StateChannels.Wire.Varint

/-!
# `StateChannels.Wire.Field`: numbered fields

A record on the wire is a row of fields. Each one has a number and a
payload, of which the key says the kind: a number of variable length,
a byte string, four or eight bytes, or the start or the end of a
group. Groups belong to an older form of the format. Their contents
are read and left out.

Main statements: `readAll_writeAll`, a written row of fields reads
back, and `outermost_eq_self`, a row without groups loses nothing.
-/

set_option autoImplicit false

namespace StateChannels.Wire

/-- What a field holds. -/
inductive Payload where
  | number (n : UInt64)
  | fixed64 (bs : Vector UInt8 8)
  | bytes (bs : Bytes)
  | groupStart
  | groupEnd
  | fixed32 (bs : Vector UInt8 4)
deriving DecidableEq

/-- A field of a record. -/
structure Field where
  number : Nat
  payload : Payload
deriving DecidableEq

namespace Payload

/-- The kind of payload, as the key says it. -/
def kind : Payload → Nat
  | number _ => 0
  | fixed64 _ => 1
  | bytes _ => 2
  | groupStart => 3
  | groupEnd => 4
  | fixed32 _ => 5

/-- The bytes of the payload. -/
def write : Payload → Bytes
  | number n => Varint.write n.toNat
  | fixed64 bs => bs.toList
  | bytes bs => Varint.write bs.length ++ bs
  | groupStart => []
  | groupEnd => []
  | fixed32 bs => bs.toList

/-- Reads a payload of a kind from the front of a byte string. -/
def read (kind : Nat) (input : Bytes) : Option (Payload × Bytes) :=
  match kind with
  | 0 => do
    let (n, rest) ← Varint.read input
    return (number (UInt64.ofNat n), rest)
  | 1 => do
    let bs ← Bytes.toVector? 8 (input.take 8)
    return (fixed64 bs, input.drop 8)
  | 2 => do
    let (n, rest) ← Varint.read input
    let bs := rest.take n
    if bs.length = n then some (bytes bs, rest.drop n) else none
  | 3 => some (groupStart, input)
  | 4 => some (groupEnd, input)
  | 5 => do
    let bs ← Bytes.toVector? 4 (input.take 4)
    return (fixed32 bs, input.drop 4)
  | _ => none

/-- Whether the length of the payload can be written. -/
def Writable : Payload → Prop
  | bytes bs => bs.length < 2 ^ 64
  | _ => True

/-- A payload reads back. -/
theorem read_write {p : Payload} (h : p.Writable) (rest : Bytes) :
    read p.kind (p.write ++ rest) = some (p, rest) := by
  cases p with
  | number n => simp [kind, write, read, Varint.read_write n.toNat_lt]
  | fixed64 bs => simp [kind, write, read]
  | bytes bs =>
    have h : bs.length < 2 ^ 64 := h
    simp [kind, write, read, Varint.read_write h]
  | groupStart => rfl
  | groupEnd => rfl
  | fixed32 bs => simp [kind, write, read]

/-- What is behind a payload is no longer than what was read. -/
theorem length_of_read {kind : Nat} {input rest : Bytes} {p : Payload}
    (h : read kind input = some (p, rest)) : rest.length ≤ input.length := by
  unfold read at h
  split at h
  -- The payload is a number, or is made of bytes that were asked for or counted, or is nothing.
  · obtain ⟨⟨n, behind⟩, isNumber, isPayload⟩ := Option.bind_eq_some_iff.1 h
    cases isPayload
    exact Nat.le_of_lt (Varint.read_bound isNumber).2
  · obtain ⟨bs, -, isPayload⟩ := Option.bind_eq_some_iff.1 h
    cases isPayload
    exact (List.drop_sublist _ _).length_le
  · obtain ⟨⟨n, behind⟩, isNumber, isPayload⟩ := Option.bind_eq_some_iff.1 h
    simp only at isPayload
    split at isPayload
    · cases isPayload
      exact Nat.le_trans (List.drop_sublist _ _).length_le
        (Nat.le_of_lt (Varint.read_bound isNumber).2)
    · cases isPayload
  · cases h
    exact Nat.le_refl _
  · cases h
    exact Nat.le_refl _
  · obtain ⟨bs, -, isPayload⟩ := Option.bind_eq_some_iff.1 h
    cases isPayload
    exact (List.drop_sublist _ _).length_le
  · cases h

end Payload

namespace Field

/-- The key of a field: its number and the kind of its payload. -/
def key (f : Field) : Nat := 8 * f.number + f.payload.kind

/-- The bytes of a field. -/
def write (f : Field) : Bytes := Varint.write f.key ++ f.payload.write

/-- Reads a field from the front of a byte string. A key has at most
32 bits, and numbers start at 1. -/
def read (input : Bytes) : Option (Field × Bytes) := do
  let (key, rest) ← Varint.read input
  if key < 2 ^ 32 ∧ 0 < key / 8 then do
    let (payload, rest) ← Payload.read (key % 8) rest
    return (⟨key / 8, payload⟩, rest)
  else none

/-- Whether the key and the length of the field can be written. -/
def Writable (f : Field) : Prop := 0 < f.number ∧ f.number < 2 ^ 29 ∧ f.payload.Writable

/-- A field reads back. -/
theorem read_write {f : Field} (h : f.Writable) (rest : Bytes) :
    read (f.write ++ rest) = some (f, rest) := by
  obtain ⟨pos, small, payload⟩ := h
  have kind : f.payload.kind < 8 := by cases f.payload <;> simp [Payload.kind]
  have number : f.key / 8 = f.number := by unfold key; omega
  have remainder : f.key % 8 = f.payload.kind := by unfold key; omega
  have bound : f.key < 2 ^ 32 := by unfold key; omega
  rw [read, write, List.append_assoc, Varint.read_write (by omega)]
  simp only [Option.bind_eq_bind, Option.bind_some]
  rw [if_pos ⟨bound, by omega⟩, remainder, number, Payload.read_write payload]
  rfl

/-- Reading a field uses bytes. -/
theorem length_of_read {input rest : Bytes} {f : Field} (h : read input = some (f, rest)) :
    rest.length < input.length := by
  obtain ⟨⟨key, behind⟩, isKey, h⟩ := Option.bind_eq_some_iff.1 h
  simp only at h
  split at h
  · obtain ⟨⟨payload, last⟩, isPayload, isField⟩ := Option.bind_eq_some_iff.1 h
    cases isField
    exact Nat.lt_of_le_of_lt (Payload.length_of_read isPayload) (Varint.read_bound isKey).2
  · cases h

/-- The fields that make up a byte string. -/
def readAll (input : Bytes) : Option (List Field) :=
  if input = [] then some []
  else
    match found : read input with
    | none => none
    | some (f, rest) =>
      have := length_of_read found
      (f :: ·) <$> readAll rest
termination_by input.length

/-- The bytes of a row of fields. -/
def writeAll (fs : List Field) : Bytes := fs.flatMap write

/-- Every field takes bytes. -/
theorem write_ne_nil (f : Field) : f.write ≠ [] := by
  simp [write, Varint.write_ne_nil]

/-- A row of fields reads back. -/
theorem readAll_writeAll {fs : List Field} (h : ∀ f ∈ fs, f.Writable) :
    readAll (writeAll fs) = some fs := by
  induction fs with
  | nil => simp [writeAll, readAll]
  | cons f fs ih =>
    rw [List.forall_mem_cons] at h
    have found := read_write h.1 (writeAll fs)
    have nonempty : f.write ++ writeAll fs ≠ [] := by simp [write_ne_nil]
    rw [writeAll, List.flatMap_cons, ← writeAll, readAll, if_neg nonempty]
    split
    · simp_all
    · rename_i g rest hr
      rw [found] at hr
      simp only [Option.some.injEq, Prod.mk.injEq] at hr
      obtain ⟨rfl, rfl⟩ := hr
      simp [ih h.2]

/-- The outermost fields, where a group counts as one field, its
start. Every group has to end with its own number, and the numbers of
the groups that are open are `opened`, innermost first. No field may
stand inside `budget` groups or more. -/
def outermostFrom (budget : Nat) : (opened : List Nat) → List Field → Option (List Field)
  | [], [] => some []
  | _ :: _, [] => none
  | opened, f :: fs =>
    if f.payload = .groupEnd then
      match opened with
      | [] => none
      | n :: outer => if f.number = n then outermostFrom budget outer fs else none
    else if budget ≤ opened.length then none
    else
      let inside := if f.payload = .groupStart then f.number :: opened else opened
      if opened = [] then (f :: ·) <$> outermostFrom budget inside fs
      else outermostFrom budget inside fs

/-- The fields of a record itself. What is inside a group is left
out. The start of the group stays, so that a record can refuse a group
where it has a field of another kind. -/
def outermost (budget : Nat) (fs : List Field) : Option (List Field) :=
  outermostFrom budget [] fs

/-- In a row without groups all fields are outermost. -/
theorem outermost_eq_self {budget : Nat} (pos : 0 < budget) {fs : List Field}
    (h : ∀ f ∈ fs, f.payload ≠ .groupStart ∧ f.payload ≠ .groupEnd) :
    outermost budget fs = some fs := by
  induction fs with
  | nil => rfl
  | cons f fs ih =>
    rw [List.forall_mem_cons] at h
    have rest : outermostFrom budget [] fs = some fs := ih h.2
    simp [outermost, outermostFrom, h.1, rest, Nat.pos_iff_ne_zero.1 pos]

end Field

end StateChannels.Wire
