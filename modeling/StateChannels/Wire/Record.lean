import StateChannels.Wire.Field

/-!
# `StateChannels.Wire.Record`: records on the wire

The messages of the protocol are records in the format of protocol
buffers, version 3. A record starts empty, and its fields are merged
into it one by one. So fields may come in any order, unknown ones are
skipped, and of a field that is given twice the later value counts. A
part that is a record itself is merged into the part read before. A
known field with a payload of another kind, a group included, is
refused.

A record is written with its fields in ascending order, without
those at their default value. Parts are written also when empty.
-/

set_option autoImplicit false

namespace StateChannels.Wire

/-- A type of records: the empty record, how a field is merged into a
record, and the fields that a record is written with. The budget is
how many records or groups may lie in each other from here on. -/
class Record (ρ : Type) where
  empty : ρ
  merge : (budget : Nat) → ρ → Field → Option ρ
  fields : ρ → List Field

namespace Field

/-- The byte string that the field holds. -/
def bytes? (f : Field) : Option Bytes :=
  match f.payload with
  | .bytes bs => some bs
  | _ => none

/-- The number that the field holds. -/
def number? (f : Field) : Option UInt64 :=
  match f.payload with
  | .number n => some n
  | _ => none

/-- A byte string, if it is not empty. -/
def ofBytes (number : Nat) (bs : Bytes) : List Field :=
  if bs = [] then [] else [⟨number, .bytes bs⟩]

/-- A number, if it is not zero. -/
def ofNumber (number : Nat) (n : UInt64) : List Field :=
  if n = 0 then [] else [⟨number, .number n⟩]

end Field

namespace Record

variable {ρ : Type} [Record ρ]

/-- The record with the fields of a byte string merged into it. -/
def mergeBytes (budget : Nat) (r : ρ) (input : Bytes) : Option ρ := do
  let fs ← Field.readAll input
  let fs ← Field.outermost budget fs
  fs.foldlM (merge budget) r

/-- The record with the part that a field holds merged into it. -/
def mergePart (budget : Nat) (part : ρ) (f : Field) : Option ρ := do
  let bs ← f.bytes?
  mergeBytes (budget - 1) part bs

/-- How many records and groups may lie in each other. -/
def nestingLimit : Nat := 100

/-- The record that a byte string holds. -/
def decode? (input : Bytes) : Option ρ := mergeBytes nestingLimit empty input

/-- The bytes of a record. -/
def encode (r : ρ) : Bytes := Field.writeAll (fields r)

/-- A part of a record, which is written also when it is empty. -/
def part (number : Nat) (r : ρ) : Field := ⟨number, .bytes (encode r)⟩

end Record

end StateChannels.Wire
