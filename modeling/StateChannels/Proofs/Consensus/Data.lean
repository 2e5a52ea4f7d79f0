import StateChannels.Proofs.Wire.Envelope
import StateChannels.Proofs.Wire.Lengths

/-!
# `StateChannels.Proofs.Consensus.Data`: reading the data of a vote

Application data may have come from anyone. It may be written in another way
than this library writes it, so the same data may have many forms. What is
read from any of them is a valid outcome with a number of votes, and nothing
is lost where it is written and read again.

Amounts are the one thing that may grow. A reader takes amounts of fewer bytes
than 32, with a destination beside each. So an outcome takes at most twice the
bytes of the record that it was read from.

* `Outcome.length_encode_toRecord_le`: the bound for outcomes.
* `ConsensusData.decode?_eq_ok_iff`, `ConsensusData.eq_idle_of_decode?`,
  `ConsensusData.valid_of_decode?`, `ConsensusData.writable_of_decode?`: what is
  read.
* `ConsensusData.decode?_encode_eq_ok_iff`: when the data of a running vote
  reads back.
* `ConsensusData.round_trips`: what is written is read again but for a proposal
  that no one votes on, and what is read is written and read again.
-/

set_option autoImplicit false

namespace StateChannels

open Wire Record

/-! ### The records of values -/

section Fields

variable {field : String} {bs : Bytes}

/-- A value passes if it was found with the right length. -/
theorem orByteLength_eq_ok_iff {α : Type} {expected actual : Nat} {found : Option α} {a : α} :
    orByteLength field expected actual found = .ok a ↔ found = some a := by
  cases found <;> simp [orByteLength]

/-- A value passes if it was found. -/
theorem orMissing_eq_ok_iff {α : Type} {found : Option α} {a : α} :
    orMissing field found = .ok a ↔ found = some a := by
  cases found <;> simp [orMissing]

/-- A digest is read from its own bytes and from no others. -/
theorem Hash.toBytes_of_ofField? {h : Hash} (read : ofField? field bs = .ok h) :
    h.toBytes = bs := by
  obtain ⟨v, isVector, rfl⟩ := Option.map_eq_some_iff.1 (orByteLength_eq_ok_iff.1 read)
  exact Bytes.toVector?_eq_some_iff.1 isVector

/-- An address that is read from a field has its bytes. -/
theorem Address.toBytes_of_ofField? {a : Address} (read : ofField? field bs = .ok a) :
    a.toBytes = bs := by
  obtain ⟨v, isVector, rfl⟩ := Option.map_eq_some_iff.1 (orByteLength_eq_ok_iff.1 read)
  exact Bytes.toVector?_eq_some_iff.1 isVector

/-- A destination that is read from a field has its bytes. -/
theorem Destination.toBytes_of_ofField? {d : Destination} (read : ofField? bs = .ok d) :
    d.toBytes = bs := by
  obtain ⟨v, isVector, rfl⟩ := Option.map_eq_some_iff.1 (orByteLength_eq_ok_iff.1 read)
  exact Bytes.toVector?_eq_some_iff.1 isVector

end Fields

/-- Only an amount may have been read from fewer bytes than its record
has. -/
theorem AllocationItem.length_encode_toRecord_le {r : ItemRecord} {item : AllocationItem}
    (h : ofRecord? r = .ok item) :
    (Record.encode item.toRecord).length ≤ 2 * (Record.encode r).length := by
  obtain ⟨destination, isDestination, h⟩ := bind_eq_ok_iff.1 h
  obtain ⟨amount, isAmount, isItem⟩ := bind_eq_ok_iff.1 h
  cases isItem
  have same := Destination.toBytes_of_ofField? isDestination
  have first := Field.length_ofBytes_word (by decide : 1 < 15) destination.length_toBytes
  have second := Field.length_ofBytes_word (by decide : 2 < 15) amount.length_toBytes
  simp only [toRecord, Record.encode, fields, Field.length_writeAll_append, ← same]
  omega

/-- If each member is read from its own record, so is the list. -/
theorem map_eq_of_mapM_eq_ok {α β ε : Type} {read : β → Except ε α} {write : α → β}
    (own : ∀ b a, read b = .ok a → write a = b) {bs : List β} {as : List α}
    (h : bs.mapM read = .ok as) : as.map write = bs := by
  induction bs generalizing as with
  | nil =>
    cases h
    rfl
  | cons b bs ih =>
    rw [List.mapM_cons] at h
    obtain ⟨a, isRead, h⟩ := bind_eq_ok_iff.1 h
    obtain ⟨others, areRead, isRow⟩ := bind_eq_ok_iff.1 h
    cases isRow
    rw [List.map_cons, own b a isRead, ih areRead]

/-- A guarantee is read from its own record. -/
theorem Guarantee.toRecord_of_ofRecord? {r : GuaranteeRecord} {g : Guarantee}
    (h : ofRecord? r = .ok g) : g.toRecord = r := by
  obtain ⟨target, isTarget, h⟩ := bind_eq_ok_iff.1 h
  obtain ⟨destinations, areRead, isGuarantee⟩ := bind_eq_ok_iff.1 h
  cases isGuarantee
  have row : destinations.map Destination.toBytes = r.destinations :=
    map_eq_of_mapM_eq_ok (fun _ _ => Destination.toBytes_of_ofField?) areRead
  rw [toRecord, row, Hash.toBytes_of_ofField? isTarget]

/-- An allocation is written with at most twice the bytes it is read from. -/
theorem Allocation.length_encode_toRecord_le {r : AllocationRecord} {a : Allocation}
    (h : ofRecord? r = .ok a) :
    (Record.encode a.toRecord).length ≤ 2 * (Record.encode r).length := by
  obtain ⟨items, areRead, isAllocation⟩ := bind_eq_ok_iff.1 h
  cases isAllocation
  exact length_writeAll_map_part_le (fun _ _ => AllocationItem.length_encode_toRecord_le) areRead

/-- An asset is written with at most twice the bytes it is read from. -/
theorem AssetOutcome.length_encode_toRecord_le {r : AssetRecord} {o : AssetOutcome}
    (h : ofRecord? r = .ok o) :
    (Record.encode o.toRecord).length ≤ 2 * (Record.encode r).length := by
  obtain ⟨holder, record⟩ := r
  obtain ⟨record, isThere, h⟩ := bind_eq_ok_iff.1 h
  obtain ⟨content, isContent, h⟩ := bind_eq_ok_iff.1 h
  obtain ⟨assetHolder, isHolder, isOutcome⟩ := bind_eq_ok_iff.1 h
  cases isOutcome
  cases orMissing_eq_ok_iff.1 isThere
  have same : assetHolder.toBytes = holder := Address.toBytes_of_ofField? isHolder
  -- The content is written with at most twice the bytes, and the holder with its own.
  cases record with
  | allocation r =>
    obtain ⟨a, isRead, rfl⟩ := map_eq_ok_iff.1 isContent
    have part := length_part_double 2 (Allocation.length_encode_toRecord_le isRead)
    simp only [toRecord, AssetContent.toRecord, Record.encode, fields, Field.length_writeAll_append,
      Field.length_writeAll_singleton, same]
    omega
  | guarantee r =>
    obtain ⟨g, isRead, rfl⟩ := map_eq_ok_iff.1 isContent
    rw [AssetOutcome.toRecord, AssetContent.toRecord, Guarantee.toRecord_of_ofRecord? isRead,
      same]
    omega

/-- An outcome takes at most twice the bytes of the record it was read
from. -/
theorem Outcome.length_encode_toRecord_le {r : OutcomeRecord} {o : Outcome}
    (h : ofRecord? r = .ok o) :
    (Record.encode o.toRecord).length ≤ 2 * (Record.encode r).length := by
  obtain ⟨assets, areRead, h⟩ := bind_eq_ok_iff.1 h
  obtain ⟨⟨⟩, -, isOutcome⟩ := bind_eq_ok_iff.1 h
  cases isOutcome
  exact length_writeAll_map_part_le (fun _ _ => AssetOutcome.length_encode_toRecord_le) areRead

/-! ### The data of a vote -/

namespace ConsensusData

variable {b c : ConsensusData} {appData : Bytes}

/-- What is read: an outcome only while a vote is running, and no other part
of the record. -/
theorem decode?_eq_ok_iff :
    decode? appData = .ok c ↔
      ∃ r : ConsensusRecord, Record.decode? appData = some r ∧ r.furtherVotes = c.furtherVotes ∧
        proposedOf? r.proposedOutcome = .ok c.proposed ∧
        (c.furtherVotes = 0 → c.proposed.assets = []) := by
  unfold decode?
  constructor
  · intro read
    split at read
    · cases read
    · rename_i r isRecord
      obtain ⟨proposed, isProposed, read⟩ := bind_eq_ok_iff.1 read
      split at read
      · cases read
      -- Without further votes a proposal would have been refused.
      · rename_i notAtRest
        cases read
        refine ⟨r, isRecord, rfl, mapError_eq_ok_iff.1 isProposed, fun atRest => ?_⟩
        exact Decidable.not_not.1 fun some => notAtRest ⟨atRest, some⟩
  · rintro ⟨⟨votes, part⟩, isRecord, rfl, isProposed, atRest⟩
    rw [isRecord]
    have proposed := mapError_eq_ok_iff (f := ConsensusError.conversion).2 isProposed
    simp only [proposed]
    show (if c.furtherVotes = 0 ∧ c.proposed.assets ≠ [] then _ else _) = _
    rw [if_neg fun proposal => proposal.2 (atRest proposal.1)]
    rfl

/-- Where no vote is running, there is no proposal. -/
theorem eq_idle_of_decode? (h : decode? appData = .ok c) (atRest : c.furtherVotes = 0) :
    c = idle := by
  obtain ⟨-, -, -, -, none⟩ := decode?_eq_ok_iff.1 h
  obtain ⟨votes, ⟨assets⟩⟩ := c
  cases atRest
  cases none rfl
  rfl

/-- The outcome that is voted on is valid. -/
theorem valid_of_decode? (h : decode? appData = .ok c) : c.proposed.Valid := by
  obtain ⟨⟨votes, part⟩, -, -, isProposed, -⟩ := decode?_eq_ok_iff.1 h
  refine Outcome.validate_eq_ok_iff.1 ?_
  cases part with
  | none =>
    rw [← Except.ok.inj isProposed]
    rfl
  | some r => exact Outcome.valid_of_ofRecord? isProposed

/-- The outcome in data of less than `2 ^ 63` bytes can be written. -/
theorem writable_of_decode? (h : decode? appData = .ok c) (short : appData.length < 2 ^ 63) :
    c.proposed.Writable := by
  obtain ⟨⟨votes, part⟩, isRecord, -, isProposed, -⟩ := decode?_eq_ok_iff.1 h
  have record := ConsensusRecord.tight.length_decode?_le rfl isRecord
  unfold Outcome.Writable
  cases part with
  | none =>
    rw [← Except.ok.inj isProposed]
    show 0 < 2 ^ 64
    decide
  | some r =>
    have outcome := Outcome.length_encode_toRecord_le isProposed
    have part : (Record.encode r).length ≤
        (Record.encode (ConsensusRecord.mk votes (some r))).length :=
      length_encode_le_of_part (List.mem_append_right _ (List.mem_singleton_self _))
    omega

/-- Data with a longer outcome does not read back. -/
theorem decode?_encode_of_long (running : c.furtherVotes ≠ 0) (long : ¬c.proposed.Writable) :
    decode? c.encode = .error .malformed := by
  have votes : c.isIdle = false := decide_eq_false running
  have writable : ∀ f ∈ Field.ofNumber 1 c.furtherVotes.toUInt64, f.Writable := by
    intro f member
    rw [Field.eq_of_mem_ofNumber member]
    exact ⟨Nat.one_pos, (by decide : 1 < 2 ^ 29), trivial⟩
  have isPart : c.encode = Field.writeAll (Field.ofNumber 1 c.furtherVotes.toUInt64) ++
      (Record.part 2 c.proposed.toRecord).write := by
    rw [encode, votes]
    simp [Record.encode, fields, Field.writeAll]
  have unread : Field.readAll c.encode = none := by
    have nonempty := Field.write_ne_nil (Record.part 2 c.proposed.toRecord)
    have part := Field.read_write_eq_none (by decide : 0 < 2 ∧ 2 < 2 ^ 29)
      (Nat.le_of_not_lt long) []
    rw [List.append_nil] at part
    rw [isPart, Field.readAll_append writable, Field.readAll, if_neg nonempty]
    split
    · rfl
    · rename_i isRead
      rw [Record.part, part] at isRead
      cases isRead
  rw [decode?, Record.decode?, mergeBytes, unread]
  rfl

/-- While a vote is running, the data is read as it was written, or not at
all. -/
theorem decode?_encode_eq_ok_iff (running : c.furtherVotes ≠ 0) :
    decode? c.encode = .ok b ↔ b = c ∧ c.proposed.Valid ∧ c.proposed.Writable := by
  constructor
  · intro read
    by_cases writable : c.proposed.Writable
    · cases valid : c.proposed.validate with
      | error e =>
        rw [decode?_encode_of_invalid running valid writable] at read
        cases read
      | ok =>
        have isValid := Outcome.validate_eq_ok_iff.1 valid
        rw [decode?_encode running isValid writable] at read
        cases read
        exact ⟨rfl, isValid, writable⟩
    · rw [decode?_encode_of_long running writable] at read
      cases read
  · rintro ⟨rfl, valid, writable⟩
    exact decode?_encode running valid writable

/-! ### There and back -/

/-- Where no vote is running, no proposal is written. -/
theorem decode?_encode_of_atRest (atRest : c.furtherVotes = 0) : decode? c.encode = .ok idle := by
  have written : c.encode = idle.encode := by
    simp [encode, isIdle, atRest, idle]
  rw [written]
  exact decode?_idle

/-- What was read is read again after it is written, in whatever way it was
written before. -/
theorem decode?_encode_of_decode? (h : decode? appData = .ok c)
    (short : appData.length < 2 ^ 63) : decode? c.encode = .ok c := by
  by_cases atRest : c.furtherVotes = 0
  · rw [eq_idle_of_decode? h atRest]
    exact decode?_idle
  · exact decode?_encode atRest (valid_of_decode? h) (writable_of_decode? h short)

/-- The data of a vote goes there and back.

Data with a valid outcome is read as it was written, if a vote is running or
nothing is proposed. If not, the proposal was not written, and what is read is
that no vote is running. The other way round, what is read from a byte string
of any form is valid, has a proposal only while a vote is running, and is read
again after it is written. No byte string in memory has `2 ^ 63` bytes. -/
theorem round_trips :
    (∀ c : ConsensusData, c.proposed.validate = .ok () → c.encode.length < 2 ^ 64 →
      decode? c.encode =
        .ok (if c.furtherVotes ≠ 0 ∨ c.proposed.assets = [] then c else idle)) ∧
    ∀ (appData : Bytes) (c : ConsensusData), decode? appData = .ok c →
      c.proposed.validate = .ok () ∧ (c.furtherVotes = 0 → c.proposed.assets = []) ∧
        (appData.length < 2 ^ 63 → decode? c.encode = .ok c) := by
  constructor
  · intro c valid short
    by_cases atRest : c.furtherVotes = 0
    · rw [decode?_encode_of_atRest atRest]
      split
      case isTrue kept =>
        -- Without a proposal there was nothing to leave out.
        have none : c.proposed.assets = [] := kept.resolve_left (not_not_intro atRest)
        rw [show c = idle from ConsensusData.ext atRest (Outcome.ext none)]
      case isFalse => rfl
    · rw [if_pos (.inl atRest)]
      exact decode?_encode atRest (Outcome.validate_eq_ok_iff.1 valid)
        (writable_of_encode atRest short)
  · intro appData c read
    obtain ⟨-, -, -, -, none⟩ := decode?_eq_ok_iff.1 read
    exact ⟨Outcome.validate_eq_ok_iff.2 (valid_of_decode? read), none,
      decode?_encode_of_decode? read⟩

namespace Sample

/-- A vote on an outcome with an allocation and a guarantee. -/
def pending : ConsensusData where
  furtherVotes := 2
  proposed := ⟨[⟨.zero, .allocation ⟨[⟨.zero, .one⟩]⟩⟩,
    ⟨⟨.replicate 20 1⟩, .guarantee ⟨.zero, [.zero]⟩⟩]⟩

/-- A proposal that was left where no vote is running. -/
def leftover : ConsensusData := { pending with furtherVotes := 0 }

/-- The first entry of the outcome, with one byte for the amount. -/
def firstPiece : OutcomeRecord :=
  ⟨[⟨Address.zero.toBytes, some (.allocation ⟨[⟨Destination.zero.toBytes, [1]⟩]⟩)⟩]⟩

/-- The second entry. -/
def secondPiece : OutcomeRecord := ⟨pending.proposed.toRecord.assets.drop 1⟩

/-- The vote as this library does not write it: the outcome comes first and in
two pieces, the votes are given twice, and there is a field that no one
knows. -/
def scattered : Bytes :=
  Field.writeAll [part 2 firstPiece, ⟨1, .number 7⟩, ⟨9, .number 1⟩, ⟨1, .number 2⟩,
    part 2 secondPiece]

/-- The vote is read from the scattered bytes and from its own, and of the
leftover proposal nothing is read. -/
theorem round_trips_scattered :
    decode? scattered = .ok pending ∧ scattered.length < 2 ^ 63 ∧
      decode? pending.encode = .ok pending ∧ scattered ≠ pending.encode ∧
      leftover.encode.length < 2 ^ 64 ∧ decode? leftover.encode = .ok idle := by
  obtain ⟨written, read⟩ := round_trips
  have isRead : decode? scattered = .ok pending := by decide +kernel
  have short : scattered.length < 2 ^ 63 := by decide +kernel
  have differ : scattered ≠ pending.encode := by decide +kernel
  have leftoverShort : leftover.encode.length < 2 ^ 64 := by decide +kernel
  obtain ⟨valid, -, again⟩ := read scattered pending isRead
  have dropped := written leftover valid leftoverShort
  rw [if_neg (by decide)] at dropped
  exact ⟨isRead, short, again short, differ, leftoverShort, dropped⟩

end Sample

end ConsensusData

end StateChannels
