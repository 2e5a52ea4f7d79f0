import StateChannels.Consensus

/-!
# `StateChannels.Proofs.Wire.RoundTrip`: records that read back

A record is read by merging its fields into an empty record one after the
other. The fields that a record is written with put it back together, as
long as the lengths of its parts can be written, and the reader's budget is
enough for the records that lie in each other.

* `Record.Grows`: how a row of fields changes a record. There is one lemma
  for each kind of field, and rows are put together with `Grows.append`.
* `Record.Grows.mergeBytes_encode`: reading the bytes of a record merges its
  fields, for any type of records.
* `OutcomeRecord.reads`: the record of an outcome reads back.
* `ConsensusData.decode?_encode`: so does the data of a vote on a valid
  outcome.
-/

set_option autoImplicit false

namespace StateChannels

namespace Wire

/-! ### Fields -/

namespace Field

variable {f : Field} {fs gs : List Field} {number : Nat} {bs : Bytes} {n : UInt64}

/-- The field is a number or a byte string, under a number that fields may
have. -/
def Regular (f : Field) : Prop :=
  (0 < f.number ∧ f.number < 2 ^ 29) ∧ (f.payload.kind = 0 ∨ f.payload.kind = 2)

/-- A regular field neither opens nor closes a group. -/
theorem Regular.payload (h : f.Regular) :
    f.payload ≠ .groupStart ∧ f.payload ≠ .groupEnd := by
  constructor <;> intro group <;> have kind := h.2 <;> rw [group] at kind <;>
    rcases kind with kind | kind <;> cases kind

/-- What is shorter than `2 ^ 64` as a whole has no longer part. -/
theorem Regular.writable (h : f.Regular) (member : f ∈ fs)
    (short : (writeAll fs).length < 2 ^ 64) : f.Writable := by
  refine ⟨h.1.1, h.1.2, ?_⟩
  cases payload : f.payload with
  | bytes bs =>
    have inField : bs.length ≤ f.write.length := by
      rw [write, payload, Payload.write, List.length_append, List.length_append]
      omega
    have inRow : f.write.length ≤ (writeAll fs).length :=
      (List.sublist_flatten_of_mem (List.mem_map_of_mem member)).length_le
    show bs.length < 2 ^ 64
    omega
  | number | fixed64 | groupStart | groupEnd | fixed32 => trivial

/-- A field of bytes with a number in range is regular. -/
theorem regular_bytes (inRange : 0 < number ∧ number < 2 ^ 29) :
    Regular ⟨number, .bytes bs⟩ :=
  ⟨inRange, .inr rfl⟩

/-- A field with a number in range is regular. -/
theorem regular_number (inRange : 0 < number ∧ number < 2 ^ 29) :
    Regular ⟨number, .number n⟩ :=
  ⟨inRange, .inl rfl⟩

/-- A number is written as at most one field, which has that number. -/
theorem eq_of_mem_ofNumber (member : f ∈ ofNumber number n) : f = ⟨number, .number n⟩ := by
  unfold ofNumber at member
  split at member
  · cases member
  · exact List.mem_singleton.1 member

end Field

/-! ### Records -/

namespace Record

variable {ρ σ : Type} [Record ρ] [Record σ] {budget number : Nat} {r s t : ρ}
  {fs gs : List Field} {f : Field}

/-- A nested record with a number in range is a regular field. -/
theorem regular_part (inRange : 0 < number ∧ number < 2 ^ 29) : (part number r).Regular :=
  Field.regular_bytes inRange

/-- The part that is there is written as a field. -/
theorem mem_optional {x : Option σ} {y : σ} (isPart : y ∈ x) :
    part number y ∈ (x.map (part number)).toList := by
  rw [Option.mem_def.1 isPart]
  exact List.mem_singleton_self _

/-- The fields are such as a record is written with. Merged one after
the other, they make the one record the other. -/
structure Grows (budget : Nat) (r : ρ) (fs : List Field) (s : ρ) : Prop where
  regular : ∀ f ∈ fs, f.Regular
  merged : fs.foldlM (merge budget) r = some s

namespace Grows

/-- Without fields a record stays as it is. -/
theorem nil (r : ρ) : Grows budget r [] r where
  regular := by simp
  merged := rfl

/-- A single field takes a record to the one it merges to. -/
theorem one (regular : f.Regular) (merges : merge budget r f = some s) :
    Grows budget r [f] s where
  regular := by
    intro f' member
    rwa [List.mem_singleton.1 member]
  merged := by
    rw [List.foldlM_cons, merges]
    rfl

/-- Rows of fields that follow each other. -/
theorem append (h : Grows budget r fs s) (h' : Grows budget s gs t) :
    Grows budget r (fs ++ gs) t where
  regular := List.forall_mem_append.2 ⟨h.regular, h'.regular⟩
  merged := by
    rw [List.foldlM_append, h.merged]
    exact h'.merged

/-- A byte string that is written only where it is not empty. -/
theorem ofBytes (set : Bytes → ρ) (bs : Bytes) (inRange : 0 < number ∧ number < 2 ^ 29)
    (default : set [] = r) (merges : merge budget r ⟨number, .bytes bs⟩ = some (set bs)) :
    Grows budget r (Field.ofBytes number bs) (set bs) := by
  unfold Field.ofBytes
  split
  · rename_i none
    rw [none, default]
    exact nil r
  · exact one (Field.regular_bytes inRange) merges

/-- A number that is written only where it is not zero. -/
theorem ofNumber (set : UInt64 → ρ) (n : UInt64) (inRange : 0 < number ∧ number < 2 ^ 29)
    (default : set 0 = r) (merges : merge budget r ⟨number, .number n⟩ = some (set n)) :
    Grows budget r (Field.ofNumber number n) (set n) := by
  unfold Field.ofNumber
  split
  · rename_i none
    rw [none, default]
    exact nil r
  · exact one (Field.regular_number inRange) merges

/-- A field that is written only where there is something. -/
theorem optional {α : Type} {field : α → Field} (set : Option α → ρ) (x : Option α)
    (regular : ∀ y, (field y).Regular) (default : set none = r)
    (merges : ∀ y ∈ x, merge budget r (field y) = some (set (some y))) :
    Grows budget r (x.map field).toList (set x) := by
  cases x with
  | none =>
    rw [default]
    exact nil r
  | some y => exact one (regular y) (merges y rfl)

/-- Fields that each append a member to a list append their list. -/
theorem all {α : Type} (ofList : List α → ρ) (field : α → Field) (xs : List α)
    (regular : ∀ x, (field x).Regular)
    (merges : ∀ x ∈ xs, ∀ before,
      merge budget (ofList before) (field x) = some (ofList (before ++ [x])))
    (before : List α) :
    Grows budget (ofList before) (xs.map field) (ofList (before ++ xs)) := by
  induction xs generalizing before with
  | nil =>
    rw [List.append_nil]
    exact nil _
  | cons x xs ih =>
    obtain ⟨first, others⟩ := List.forall_mem_cons.1 merges
    have rest := ih others (before ++ [x])
    rw [List.append_assoc, List.singleton_append] at rest
    exact (one (regular x) (first before)).append rest

/-- The bytes of a record, read into another record, merge the fields. -/
theorem mergeBytes_encode_of_writable {x : ρ} (h : Grows budget r (fields x) s)
    (positive : 0 < budget) (writable : ∀ f ∈ fields x, f.Writable) :
    mergeBytes budget r (encode x) = some s := by
  have read : Field.readAll (encode x) = some (fields x) := Field.readAll_writeAll writable
  have outermost : Field.outermost budget (fields x) = some (fields x) :=
    Field.outermost_eq_self positive fun f member => (h.regular f member).payload
  rw [mergeBytes, read, Option.bind_eq_bind, Option.bind_some, outermost]
  exact h.merged

/-- This is so for every record that is not too long as a whole. -/
theorem mergeBytes_encode {x : ρ} (h : Grows budget r (fields x) s) (positive : 0 < budget)
    (short : (encode x).length < 2 ^ 64) : mergeBytes budget r (encode x) = some s :=
  h.mergeBytes_encode_of_writable positive fun f member =>
    (h.regular f member).writable member short

end Grows

/-- A part is no longer than the record that it is in. -/
theorem length_encode_of_part {x : σ} (member : part number r ∈ fields x)
    (short : (encode x).length < 2 ^ 64) (inRange : 0 < number ∧ number < 2 ^ 29) :
    (encode r).length < 2 ^ 64 :=
  (Field.Regular.writable (regular_part inRange) member short).2.2

/-- The bytes of the record read back, for a reader with so large a
budget. -/
def Reads (depth : Nat) (r : ρ) : Prop :=
  ∀ budget, depth ≤ budget → mergeBytes budget empty (encode r) = some r

/-- A part reads back with one more in the budget. -/
theorem Reads.mergePart {depth : Nat} (h : Reads depth r) (enough : depth + 1 ≤ budget) :
    mergePart budget empty (part number r) = some r :=
  h (budget - 1) (by omega)

/-- So what the reader makes of the part, it makes of the record. -/
theorem Reads.map_mergePart {α : Type} {depth : Nat} (h : Reads depth r)
    (enough : depth + 1 ≤ budget) (set : ρ → α) :
    set <$> Record.mergePart budget empty (part number r) = some (set r) := by
  rw [h.mergePart enough]
  rfl

end Record

open Record

/-! ### The records of an outcome -/

/-- The record of an allocation item is read back. -/
theorem ItemRecord.reads (r : ItemRecord) (short : (encode r).length < 2 ^ 64) :
    Reads 1 r := by
  intro budget enough
  have destination : Grows budget empty (Field.ofBytes 1 r.destination)
      (ItemRecord.mk r.destination []) :=
    .ofBytes (ItemRecord.mk · []) r.destination (by decide) rfl rfl
  have amount : Grows budget _ (Field.ofBytes 2 r.amount) r :=
    .ofBytes (ItemRecord.mk r.destination) r.amount (by decide) rfl rfl
  have grows : Grows budget empty (fields r) r := destination.append amount
  exact grows.mergeBytes_encode enough short

/-- The record of an allocation is read back. -/
theorem AllocationRecord.reads (r : AllocationRecord) (short : (encode r).length < 2 ^ 64) :
    Reads 2 r := by
  intro budget enough
  have grows : Grows budget empty (fields r) r := by
    refine .all AllocationRecord.mk (part 1) r.items (fun _ => regular_part (by decide)) ?_ []
    intro item member before
    have itemShort : (encode item).length < 2 ^ 64 :=
      length_encode_of_part (List.mem_map_of_mem member) short (by decide)
    exact (item.reads itemShort).map_mergePart enough fun item =>
      AllocationRecord.mk (before ++ [item])
  exact grows.mergeBytes_encode (by omega) short

/-- The record of a guarantee is read back. -/
theorem GuaranteeRecord.reads (r : GuaranteeRecord) (short : (encode r).length < 2 ^ 64) :
    Reads 1 r := by
  intro budget enough
  have target : Grows budget empty (Field.ofBytes 1 r.target) (GuaranteeRecord.mk r.target []) :=
    .ofBytes (GuaranteeRecord.mk · []) r.target (by decide) rfl rfl
  have destinations : Grows budget (GuaranteeRecord.mk r.target [])
      (r.destinations.map fun d => Field.mk 2 (.bytes d)) r :=
    .all (GuaranteeRecord.mk r.target) _ r.destinations
      (fun _ => Field.regular_bytes (by decide)) (fun _ _ _ => rfl) []
  have grows : Grows budget empty (fields r) r := target.append destinations
  exact grows.mergeBytes_encode enough short

/-- The record of an asset is read back. -/
theorem AssetRecord.reads (r : AssetRecord) (short : (encode r).length < 2 ^ 64) :
    Reads 3 r := by
  intro budget enough
  obtain ⟨assetHolder, content⟩ := r
  have holder : Grows budget empty (Field.ofBytes 1 assetHolder)
      (AssetRecord.mk assetHolder none) :=
    .ofBytes (AssetRecord.mk · none) assetHolder (by decide) rfl rfl
  have grows : Grows budget empty (fields (AssetRecord.mk assetHolder content))
      (AssetRecord.mk assetHolder content) := by
    refine holder.append ?_
    -- Which of the two contents there is decides what is nested.
    rcases content with _ | allocation | guarantee
    · exact .nil _
    · have partShort : (encode allocation).length < 2 ^ 64 :=
        length_encode_of_part (List.mem_append_right _ (List.mem_singleton_self _)) short
          (by decide)
      refine .one (regular_part (by decide)) ?_
      exact (allocation.reads partShort).map_mergePart enough fun part =>
        AssetRecord.mk assetHolder (some (.allocation part))
    · have partShort : (encode guarantee).length < 2 ^ 64 :=
        length_encode_of_part (List.mem_append_right _ (List.mem_singleton_self _)) short
          (by decide)
      refine .one (regular_part (by decide)) ?_
      exact (guarantee.reads partShort).map_mergePart (by omega) fun part =>
        AssetRecord.mk assetHolder (some (.guarantee part))
  exact grows.mergeBytes_encode (by omega) short

/-- The record of an outcome is read back. -/
theorem OutcomeRecord.reads (r : OutcomeRecord) (short : (encode r).length < 2 ^ 64) :
    Reads 4 r := by
  intro budget enough
  have grows : Grows budget empty (fields r) r := by
    refine .all OutcomeRecord.mk (part 1) r.assets (fun _ => regular_part (by decide)) ?_ []
    intro asset member before
    have assetShort : (encode asset).length < 2 ^ 64 :=
      length_encode_of_part (List.mem_map_of_mem member) short (by decide)
    exact (asset.reads assetShort).map_mergePart enough fun asset =>
      OutcomeRecord.mk (before ++ [asset])
  exact grows.mergeBytes_encode (by omega) short

/-- The record of a vote reads back if its outcome does. -/
theorem ConsensusRecord.reads (votes : UInt32) (outcome : Option OutcomeRecord)
    (short : ∀ r ∈ outcome, (encode r).length < 2 ^ 64) :
    Reads 5 (ConsensusRecord.mk votes outcome) := by
  intro budget enough
  have number : Grows budget empty (Field.ofNumber 1 votes.toUInt64)
      (ConsensusRecord.mk votes.toUInt64.toUInt32 none) :=
    .ofNumber (ConsensusRecord.mk ·.toUInt32 none) votes.toUInt64 (by decide) rfl rfl
  rw [UInt32.toUInt32_toUInt64] at number
  have proposed : Grows budget (ConsensusRecord.mk votes none) (outcome.map (part 2)).toList
      (ConsensusRecord.mk votes outcome) := by
    refine .optional (ConsensusRecord.mk votes) outcome (fun _ => regular_part (by decide)) rfl ?_
    intro r isOutcome
    exact (r.reads (short r isOutcome)).map_mergePart enough fun part =>
      ConsensusRecord.mk votes (some part)
  have grows : Grows budget empty (fields (ConsensusRecord.mk votes outcome))
      (ConsensusRecord.mk votes outcome) := number.append proposed
  -- The record as a whole may be long. Only the length of the outcome is written.
  refine grows.mergeBytes_encode_of_writable (by omega) ?_
  intro f member
  refine ⟨(grows.regular f member).1.1, (grows.regular f member).1.2, ?_⟩
  rcases List.mem_append.1 member with member | member
  · rw [Field.eq_of_mem_ofNumber member]
    trivial
  · cases outcome with
    | none => cases member
    | some r =>
      rw [List.mem_singleton.1 member]
      exact short r rfl

end Wire

/-! ### The data of a vote -/

/-- The length of the record of the outcome can be written. -/
def Outcome.Writable (o : Outcome) : Prop := (Wire.Record.encode o.toRecord).length < 2 ^ 64

namespace ConsensusData

variable {c : ConsensusData}

/-- Where no vote is running, the data says so. -/
theorem decode?_idle : decode? idle.encode = .ok idle := by
  have read : Wire.Record.decode? idle.encode = some (Wire.ConsensusRecord.mk 0 none) :=
    Wire.ConsensusRecord.reads 0 none (fun _ none => nomatch none) _ (by decide)
  rw [decode?, read]
  rfl

/-- While a vote is running, the outcome is a part of the data. -/
theorem writable_of_encode (running : c.furtherVotes ≠ 0) (fits : c.encode.length < 2 ^ 64) :
    c.proposed.Writable := by
  have votes : c.isIdle = false := decide_eq_false running
  rw [encode, votes] at fits
  exact Wire.Record.length_encode_of_part
    (List.mem_append_right _ (List.mem_singleton_self _)) fits (by decide)

/-- While a vote is running, the data is read as it was written. -/
theorem record_of_encode (running : c.furtherVotes ≠ 0) (writable : c.proposed.Writable) :
    Wire.Record.decode? c.encode =
      some (Wire.ConsensusRecord.mk c.furtherVotes (some c.proposed.toRecord)) := by
  have votes : c.isIdle = false := decide_eq_false running
  rw [encode, votes]
  refine Wire.ConsensusRecord.reads c.furtherVotes (some c.proposed.toRecord) ?_ _ (by decide)
  intro r isOutcome
  cases isOutcome
  exact writable

/-- The data of a vote on a valid outcome reads back. -/
theorem decode?_encode (running : c.furtherVotes ≠ 0) (valid : c.proposed.Valid)
    (writable : c.proposed.Writable) : decode? c.encode = .ok c := by
  have proposed : proposedOf? (some c.proposed.toRecord) = .ok c.proposed := by
    rw [proposedOf?, Outcome.ofRecord?_toRecord, Outcome.validated,
      Outcome.validate_eq_ok_iff.2 valid]
    rfl
  rw [decode?, record_of_encode running writable]
  simp only [proposed]
  show (if c.furtherVotes = 0 ∧ c.proposed.assets ≠ [] then _ else _) = _
  rw [if_neg fun none => running none.1]
  rfl

/-- The data of a vote on any other outcome is refused. -/
theorem decode?_encode_of_invalid {e : OutcomeError} (running : c.furtherVotes ≠ 0)
    (invalid : c.proposed.validate = .error e) (writable : c.proposed.Writable) :
    decode? c.encode = .error (.conversion (.invalidOutcome e)) := by
  have proposed : proposedOf? (some c.proposed.toRecord) = .error (.invalidOutcome e) := by
    rw [proposedOf?, Outcome.ofRecord?_toRecord, Outcome.validated, invalid]
    rfl
  rw [decode?, record_of_encode running writable]
  simp only [proposed]
  rfl

end ConsensusData

end StateChannels
