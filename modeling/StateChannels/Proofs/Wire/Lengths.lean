import Mathlib.Data.List.Flatten
import StateChannels.Proofs.Wire.RoundTrip

/-!
# `StateChannels.Proofs.Wire.Lengths`: what was read can be written

A record may be written in more bytes than it needs. Numbers may have digits
of zero at the end, fields may be unknown or given twice, parts may come in
pieces. A reader takes all of this, and what it makes of it is written with
the least bytes. So what was read from some bytes needs no more of them.

A length counts for `2 ^ 64` at most, so a longer byte string can be written as
a field, but it does not read back.

* `Varint.length_write_le_of_readWithin`, `Field.length_writeAll_le_of_readAll`:
  numbers and rows of fields.
* `Record.Tight`: a record grows by no more than the field that is merged into
  it. Each type of records for a vote is proved tight.
* `Record.Tight.length_decode?_le`: what was read, for any such type.
* `Varint.read_write_eq_none`, `Field.read_write_eq_none`: what does not read back.
-/

set_option autoImplicit false

namespace StateChannels.Wire

/-! ### Numbers -/

namespace Varint

/-- A number of seven bits takes one byte. -/
theorem length_write_of_lt {n : Nat} (small : n < 128) : (write n).length = 1 := by
  rw [write, if_pos small]
  rfl

/-- A longer number takes one byte more than its part above the seven lowest
bits. -/
theorem length_write_of_le {n : Nat} (large : 128 ≤ n) :
    (write n).length = (write (n / 128)).length + 1 := by
  rw [write, if_neg (Nat.not_lt.2 large)]
  rfl

/-- Every number takes at least one byte. -/
theorem length_write_pos (n : Nat) : 0 < (write n).length :=
  List.length_pos_iff.2 (write_ne_nil n)

/-- A greater number takes no fewer bytes. -/
theorem length_write_mono {m n : Nat} (le : m ≤ n) : (write m).length ≤ (write n).length := by
  induction m using Nat.strongRecOn generalizing n with
  | ind m ih =>
    by_cases small : m < 128
    · rw [length_write_of_lt small]
      exact length_write_pos n
    · have fewer := ih (m / 128) (by omega) (Nat.div_le_div_right (c := 128) le)
      rw [length_write_of_le (by omega), length_write_of_le (by omega : 128 ≤ n)]
      omega

/-- Twice the number takes one more digit at most. -/
theorem length_write_double (n : Nat) : (write (2 * n + 1)).length ≤ (write n).length + 1 := by
  induction n using Nat.strongRecOn with
  | ind n ih =>
    by_cases small : 2 * n + 1 < 128
    · rw [length_write_of_lt small]
      omega
    · rw [length_write_of_le (by omega)]
      by_cases one : n < 128
      · have first := length_write_of_lt one
        have rest := length_write_of_lt (by omega : (2 * n + 1) / 128 < 128)
        omega
      · have half := ih (n / 128) (by omega)
        have rest := length_write_mono (by omega : (2 * n + 1) / 128 ≤ 2 * (n / 128) + 1)
        rw [length_write_of_le (by omega : 128 ≤ n)]
        omega

/-- A sum takes no more digits than the two numbers. -/
theorem length_write_add (m n : Nat) :
    (write (m + n)).length ≤ (write m).length + (write n).length := by
  rcases Nat.le_total m n with le | le
  · have first := length_write_pos m
    have double := length_write_double n
    have rest := length_write_mono (by omega : m + n ≤ 2 * n + 1)
    omega
  · have second := length_write_pos n
    have double := length_write_double m
    have rest := length_write_mono (by omega : m + n ≤ 2 * m + 1)
    omega

/-- A number that was read is written in as many bytes, or fewer. -/
theorem length_write_le_of_readWithin {room n : Nat} {input rest : Bytes}
    (h : readWithin room input = some (n, rest)) :
    (write n).length + rest.length ≤ input.length := by
  induction room generalizing n input with
  | zero => cases h
  | succ room ih =>
    cases input with
    | nil => cases h
    | cons b tail =>
      rw [readWithin] at h
      split at h
      · rename_i small
        split at h
        · cases h
        · cases h
          rw [length_write_of_lt small, List.length_cons]
          omega
      · obtain ⟨⟨high, behind⟩, read, isNumber⟩ := Option.bind_eq_some_iff.1 h
        cases isNumber
        have others := ih read
        rw [List.length_cons]
        by_cases small : b.toNat - 128 + 128 * high < 128
        · rw [length_write_of_lt small]
          have some := length_write_pos high
          omega
        · have low := b.toNat_lt
          rw [length_write_of_le (by omega),
            (by omega : (b.toNat - 128 + 128 * high) / 128 = high)]
          omega

/-- A number written anew takes no more bytes than it was read from. -/
theorem length_write_le_of_read {n : Nat} {input rest : Bytes}
    (h : read input = some (n, rest)) : (write n).length + rest.length ≤ input.length :=
  length_write_le_of_readWithin h

/-- A number below 256 fits a byte. -/
theorem toNat_digit {n : Nat} (small : n < 256) : (UInt8.ofNat n).toNat = n :=
  UInt8.toNat_ofNat_of_lt' small

/-- The last digit may be one at most, so a number with more digits or a larger
last one is not read. -/
theorem readWithin_write_eq_none {n room : Nat} (large : 2 * 128 ^ room ≤ n) (rest : Bytes) :
    readWithin (room + 1) (write n ++ rest) = none := by
  induction room generalizing n with
  | zero =>
    rw [write]
    split
    · rename_i small
      rw [List.singleton_append, readWithin, toNat_digit (by omega), if_pos small,
        if_pos ⟨rfl, by omega⟩]
    · rw [List.cons_append, readWithin, toNat_digit (by omega), if_neg (by omega)]
      rfl
  | succ room ih =>
    rw [Nat.pow_succ] at large
    have positive : 0 < 128 ^ room := Nat.pow_pos (by decide)
    rw [write, if_neg (by omega), List.cons_append, readWithin, toNat_digit (by omega),
      if_neg (by omega), ih (by omega)]
    rfl

/-- A number from `2 ^ 64` on does not read back. -/
theorem read_write_eq_none {n : Nat} (large : 2 ^ 64 ≤ n) (rest : Bytes) :
    read (write n ++ rest) = none :=
  readWithin_write_eq_none (by simpa using large) rest

end Varint

/-! ### Fields -/

/-- A vector from the front of a byte string, and what is behind it. -/
theorem append_drop_of_toVector? {n : Nat} {input : Bytes} {v : Vector UInt8 n}
    (h : Bytes.toVector? n (input.take n) = some v) : v.toList ++ input.drop n = input := by
  rw [Bytes.toVector?_eq_some_iff.1 h, List.take_append_drop]

/-- A payload written anew takes no more bytes than it was read from, and is
of the kind asked for. -/
theorem Payload.length_write_le_of_read {kind : Nat} {input rest : Bytes} {p : Payload}
    (h : read kind input = some (p, rest)) :
    p.kind = kind ∧ p.write.length + rest.length ≤ input.length := by
  unfold read at h
  split at h
  -- A number, eight bytes, bytes with their length in front, the marks of a group, and four
  -- bytes.
  · obtain ⟨⟨n, behind⟩, isNumber, isPayload⟩ := Option.bind_eq_some_iff.1 h
    cases isPayload
    have bound := (Varint.read_bound isNumber).1
    refine ⟨rfl, ?_⟩
    rw [write, UInt64.toNat_ofNat_of_lt' bound]
    exact Varint.length_write_le_of_read isNumber
  · obtain ⟨bs, isVector, isPayload⟩ := Option.bind_eq_some_iff.1 h
    cases isPayload
    have whole := congrArg List.length (append_drop_of_toVector? isVector)
    rw [List.length_append] at whole
    exact ⟨rfl, Nat.le_of_eq whole⟩
  · obtain ⟨⟨n, behind⟩, isNumber, isPayload⟩ := Option.bind_eq_some_iff.1 h
    simp only at isPayload
    split at isPayload
    · rename_i whole
      cases isPayload
      have number := Varint.length_write_le_of_read isNumber
      have taken := whole
      rw [List.length_take] at taken
      refine ⟨rfl, ?_⟩
      rw [write, whole, List.length_append, whole, List.length_drop]
      omega
    · cases isPayload
  · cases h
    exact ⟨rfl, by simp [write]⟩
  · cases h
    exact ⟨rfl, by simp [write]⟩
  · obtain ⟨bs, isVector, isPayload⟩ := Option.bind_eq_some_iff.1 h
    cases isPayload
    have whole := congrArg List.length (append_drop_of_toVector? isVector)
    rw [List.length_append] at whole
    exact ⟨rfl, Nat.le_of_eq whole⟩
  · cases h

namespace Field

variable {f : Field} {fs gs : List Field} {input rest bs : Bytes} {number : Nat} {n : UInt64}

/-- The fields of two lists take as many bytes as those of each together. -/
@[simp] theorem length_writeAll_append (fs gs : List Field) :
    (writeAll (fs ++ gs)).length = (writeAll fs).length + (writeAll gs).length := by
  simp [writeAll]

/-- A further field in front adds its own bytes. -/
@[simp] theorem length_writeAll_cons (f : Field) (fs : List Field) :
    (writeAll (f :: fs)).length = f.write.length + (writeAll fs).length := by
  simp [writeAll]

/-- A single field takes its own bytes. -/
@[simp] theorem length_writeAll_singleton (f : Field) : (writeAll [f]).length = f.write.length := by
  simp [writeAll]

/-- No field takes more bytes than the list it is in. -/
theorem length_write_le_of_mem (member : f ∈ fs) : f.write.length ≤ (writeAll fs).length :=
  (List.sublist_flatten_of_mem (List.mem_map_of_mem member)).length_le

/-- A field written anew takes no more bytes than it was read from. -/
theorem length_write_le_of_read (h : read input = some (f, rest)) :
    f.write.length + rest.length ≤ input.length := by
  obtain ⟨⟨key, behind⟩, isKey, h⟩ := Option.bind_eq_some_iff.1 h
  simp only at h
  split at h
  · obtain ⟨⟨p, last⟩, isPayload, isField⟩ := Option.bind_eq_some_iff.1 h
    cases isField
    obtain ⟨kind, payload⟩ := Payload.length_write_le_of_read isPayload
    have first := Varint.length_write_le_of_read isKey
    have same : (Field.mk (key / 8) p).key = key := by
      show 8 * (key / 8) + p.kind = key
      omega
    rw [write, List.length_append, same]
    show _ + p.write.length + last.length ≤ _
    omega
  · cases h

/-- A row of fields that was read is written in as many bytes, or fewer. -/
theorem length_writeAll_le_of_readAll (h : readAll input = some fs) :
    (writeAll fs).length ≤ input.length := by
  induction fs generalizing input with
  | nil => exact Nat.zero_le _
  | cons f fs ih =>
    rw [readAll] at h
    split at h
    · cases h
    · split at h
      · cases h
      · rename_i g rest isRead
        obtain ⟨others, readsOthers, isRow⟩ := Option.map_eq_some_iff.1 h
        cases isRow
        have first := length_write_le_of_read isRead
        have later := ih readsOthers
        rw [length_writeAll_cons]
        omega

/-- What is inside a group is left out, and nothing else changes. -/
theorem outermostFrom_sublist {budget : Nat} {opened : List Nat}
    (h : outermostFrom budget opened fs = some gs) : gs.Sublist fs := by
  fun_induction outermostFrom budget opened fs generalizing gs with
  | case1 =>
    cases h
    exact List.Sublist.refl _
  | case2 | case3 | case5 | case6 => cases h
  | case4 f fs _ _ ih => exact (ih h).cons f
  | case7 f fs =>
    rename_i others
    obtain ⟨row, isOutermost, rfl⟩ := Option.map_eq_some_iff.1 h
    exact (others isOutermost).cons_cons f
  | case8 _ f fs =>
    rename_i others
    exact (others h).cons f

/-- Fields left out save their bytes. -/
theorem length_writeAll_le_of_sublist (h : gs.Sublist fs) :
    (writeAll gs).length ≤ (writeAll fs).length := by
  unfold writeAll
  exact (h.flatMap write).length_le

/-- A field with bytes is that of its number and these bytes. -/
theorem eq_of_bytes? (h : f.bytes? = some bs) : f = ⟨f.number, .bytes bs⟩ := by
  obtain ⟨number, payload⟩ := f
  cases payload <;> simp_all [bytes?]

/-- A field with a number is that of its field number and this number. -/
theorem eq_of_number? (h : f.number? = some n) : f = ⟨f.number, .number n⟩ := by
  obtain ⟨number, payload⟩ := f
  cases payload <;> simp_all [number?]

/-- A field of bytes takes its tag, its length and the bytes. -/
theorem length_write_bytes (number : Nat) (bs : Bytes) :
    (Field.mk number (.bytes bs)).write.length =
      (Varint.write (8 * number + 2)).length + (Varint.write bs.length).length + bs.length := by
  simp [write, key, Payload.kind, Payload.write]
  omega

/-- What a field holds is written in the bytes of the field at most. -/
theorem length_ofBytes_le (h : f.bytes? = some bs) :
    (writeAll (ofBytes f.number bs)).length ≤ f.write.length := by
  rw [eq_of_bytes? h]
  unfold ofBytes
  split
  · exact Nat.zero_le _
  · exact Nat.le_of_eq (length_writeAll_singleton _)

/-- A smaller number takes no more bytes. -/
theorem length_ofNumber_le {m : UInt64} (h : f.number? = some n) (le : m.toNat ≤ n.toNat) :
    (writeAll (ofNumber f.number m)).length ≤ f.write.length := by
  rw [eq_of_number? h]
  unfold ofNumber
  split
  · exact Nat.zero_le _
  · have digits := Varint.length_write_mono le
    simp only [length_writeAll_singleton, write, key, Payload.kind, Payload.write,
      List.length_append]
    omega

/-- A field of 32 bytes, with a small number, takes two bytes more. -/
theorem length_ofBytes_word (small : number < 15)
    (word : bs.length = 32) : (writeAll (ofBytes number bs)).length = 34 := by
  have nonempty : bs ≠ [] := by
    rintro rfl
    cases word
  rw [ofBytes, if_neg nonempty, length_writeAll_singleton, length_write_bytes, word,
    Varint.length_write_of_lt (by omega), Varint.length_write_of_lt (by omega)]

/-- A field of fewer than 128 bytes, with a small number, takes two bytes more
at most. -/
theorem length_ofBytes_short (small : number < 15) (short : bs.length < 128) :
    (writeAll (ofBytes number bs)).length ≤ bs.length + 2 := by
  unfold ofBytes
  split
  · exact Nat.zero_le _
  · rw [length_writeAll_singleton, length_write_bytes, Varint.length_write_of_lt (by omega),
      Varint.length_write_of_lt short]
    omega

/-- A number takes ten bytes at most, and the field one more for a small key. -/
theorem length_ofNumber_word (small : number < 16) (n : UInt64) :
    (writeAll (ofNumber number n)).length ≤ 11 := by
  have digits := Varint.length_write_mono (Nat.le_sub_one_of_lt n.toNat_lt)
  have most : (Varint.write (2 ^ 64 - 1)).length = 10 := by decide +kernel
  rw [most] at digits
  unfold ofNumber
  split
  · exact Nat.zero_le _
  · have key := Varint.length_write_of_lt (by omega : 8 * number + 0 < 128)
    simp only [length_writeAll_singleton, write, Field.key, Payload.kind, Payload.write,
      List.length_append]
    omega

/-- A byte string of `2 ^ 64` bytes or more has a length that does not read
back. -/
theorem read_write_eq_none (inRange : 0 < number ∧ number < 2 ^ 29)
    (long : 2 ^ 64 ≤ bs.length) (rest : Bytes) :
    read ((Field.mk number (.bytes bs)).write ++ rest) = none := by
  obtain ⟨positive, small⟩ := inRange
  have key : (Field.mk number (.bytes bs)).key = 8 * number + 2 := rfl
  rw [read, write, List.append_assoc, key, Varint.read_write (by omega)]
  simp only [Option.bind_eq_bind, Option.bind_some]
  rw [if_pos ⟨by omega, by omega⟩, (by omega : (8 * number + 2) % 8 = 2), Payload.read,
    Payload.write, List.append_assoc, Varint.read_write_eq_none long]
  rfl

/-- Fields in front are read, whatever the reader makes of the rest. -/
theorem readAll_append (writable : ∀ f ∈ fs, f.Writable) (rest : Bytes) :
    readAll (writeAll fs ++ rest) = (fs ++ ·) <$> readAll rest := by
  induction fs with
  | nil => simp [writeAll]
  | cons f fs ih =>
    rw [List.forall_mem_cons] at writable
    have first := read_write writable.1 (writeAll fs ++ rest)
    have nonempty : f.write ++ (writeAll fs ++ rest) ≠ [] := by simp [write_ne_nil]
    rw [writeAll, List.flatMap_cons, ← writeAll, List.append_assoc, readAll, if_neg nonempty]
    split
    · simp_all
    · rename_i isRead
      rw [first] at isRead
      cases isRead
      rw [ih writable.2, Option.map_eq_map, Option.map_eq_map, Option.map_map]
      rfl

end Field

/-! ### Records -/

namespace Record

variable {ρ σ : Type} [Record ρ] [Record σ] {budget number : Nat} {r s : ρ} {f : Field}
  {input : Bytes}

/-- A record grows by no more than the field that is merged into it. -/
def Tight (ρ : Type) [Record ρ] : Prop :=
  ∀ (budget : Nat) (r : ρ) (f : Field) (s : ρ), merge budget r f = some s →
    (encode s).length ≤ (encode r).length + f.write.length

/-- Fields merged in turn add at most the bytes they take. -/
theorem Tight.length_foldlM_le {fs : List Field} (tight : Tight ρ)
    (h : fs.foldlM (merge budget) r = some s) :
    (encode s).length ≤ (encode r).length + (Field.writeAll fs).length := by
  induction fs generalizing r with
  | nil =>
    cases h
    exact Nat.le_add_right _ _
  | cons f fs ih =>
    rw [List.foldlM_cons] at h
    obtain ⟨between, first, others⟩ := Option.bind_eq_some_iff.1 h
    have step := tight budget r f between first
    have later := ih others
    rw [Field.length_writeAll_cons]
    omega

/-- Then it grows by no more than the bytes that are merged into it. -/
theorem Tight.length_mergeBytes_le (tight : Tight ρ) (h : mergeBytes budget r input = some s) :
    (encode s).length ≤ (encode r).length + input.length := by
  obtain ⟨fs, isRead, h⟩ := Option.bind_eq_some_iff.1 h
  obtain ⟨gs, isOutermost, merged⟩ := Option.bind_eq_some_iff.1 h
  have grows := tight.length_foldlM_le merged
  have outer := Field.length_writeAll_le_of_sublist (Field.outermostFrom_sublist isOutermost)
  have row := Field.length_writeAll_le_of_readAll isRead
  omega

/-- A part that grew is no longer than the part and the field. -/
theorem Tight.length_part_le (tight : Tight ρ) (h : mergePart budget r f = some s) :
    (part f.number s).write.length ≤ (part f.number r).write.length + f.write.length := by
  obtain ⟨bs, isBytes, merged⟩ := Option.bind_eq_some_iff.1 h
  have grows := tight.length_mergeBytes_le merged
  have number := Field.length_write_bytes f.number bs
  rw [← Field.eq_of_bytes? isBytes] at number
  have digits := Varint.length_write_mono grows
  have sum := Varint.length_write_add (encode r).length bs.length
  rw [Record.part, Record.part, Field.length_write_bytes, Field.length_write_bytes]
  omega

/-- A new part is no longer than the field. -/
theorem Tight.length_newPart_le (tight : Tight ρ) (empty : encode r = [])
    (h : mergePart budget r f = some s) : (part f.number s).write.length ≤ f.write.length := by
  obtain ⟨bs, isBytes, merged⟩ := Option.bind_eq_some_iff.1 h
  have grows := tight.length_mergeBytes_le merged
  rw [empty, List.length_nil, Nat.zero_add] at grows
  have number := Field.length_write_bytes f.number bs
  rw [← Field.eq_of_bytes? isBytes] at number
  have digits := Varint.length_write_mono grows
  rw [Record.part, Field.length_write_bytes]
  omega

/-- A row of parts grows by no more than the field that a part is added
for. -/
theorem Tight.length_concat_part_le (tight : Tight ρ) (empty : encode r = []) (rs : List ρ)
    (h : mergePart budget r f = some s) :
    (Field.writeAll ((rs ++ [s]).map (part f.number))).length ≤
      (Field.writeAll (rs.map (part f.number))).length + f.write.length := by
  have new := tight.length_newPart_le empty h
  rw [List.map_append, List.map_singleton, Field.length_writeAll_append,
    Field.length_writeAll_singleton]
  omega

/-- Twice the bytes in a part are at most twice the bytes of the part. -/
theorem length_part_double (number : Nat) {t : σ}
    (h : (encode t).length ≤ 2 * (encode r).length) :
    (part number t).write.length ≤ 2 * (part number r).write.length := by
  have digits := Varint.length_write_mono h
  have sum := Varint.length_write_add (encode r).length (encode r).length
  rw [part, part, Field.length_write_bytes, Field.length_write_bytes]
  rw [Nat.two_mul] at digits
  omega

/-- The bound passes from parts to the row of their fields. -/
theorem length_writeAll_map_part_le {α ε : Type} {read : ρ → Except ε α} {write : α → ρ}
    (bound : ∀ r a, read r = .ok a → (encode (write a)).length ≤ 2 * (encode r).length)
    {rs : List ρ} {as : List α} (h : rs.mapM read = .ok as) :
    (Field.writeAll ((as.map write).map (part number))).length ≤
      2 * (Field.writeAll (rs.map (part number))).length := by
  induction rs generalizing as with
  | nil =>
    cases h
    exact Nat.zero_le _
  | cons r rs ih =>
    rw [List.mapM_cons] at h
    obtain ⟨a, isRead, h⟩ := bind_eq_ok_iff.1 h
    obtain ⟨others, areRead, isRow⟩ := bind_eq_ok_iff.1 h
    cases isRow
    have first := length_part_double number (bound r a isRead)
    have later := ih areRead
    simp only [List.map_cons, Field.length_writeAll_cons]
    omega

/-- A record nested in another takes no more bytes than the one around it. -/
theorem length_encode_le_of_part {t : σ} (member : part number r ∈ fields t) :
    (encode r).length ≤ (encode t).length := by
  have inRow := Field.length_write_le_of_mem member
  rw [part, Field.length_write_bytes] at inRow
  unfold encode at *
  omega

/-- What was read takes no more bytes than it was read from. -/
theorem Tight.length_decode?_le (tight : Tight ρ) (none : encode (empty : ρ) = [])
    (h : decode? input = some r) : (encode r).length ≤ input.length := by
  have grows := tight.length_mergeBytes_le h
  rwa [none, List.length_nil, Nat.zero_add] at grows

end Record

open Record

/-- The record of an allocation item grows by no more than is merged in. -/
theorem ItemRecord.tight : Tight ItemRecord := by
  intro budget r f s h
  simp only [merge] at h
  split at h
  · rename_i number
    obtain ⟨bs, isBytes, rfl⟩ := Option.map_eq_some_iff.1 h
    have field := Field.length_ofBytes_le isBytes
    rw [number] at field
    simp only [encode, fields, Field.length_writeAll_append]
    omega
  · rename_i number
    obtain ⟨bs, isBytes, rfl⟩ := Option.map_eq_some_iff.1 h
    have field := Field.length_ofBytes_le isBytes
    rw [number] at field
    simp only [encode, fields, Field.length_writeAll_append]
    omega
  · cases h
    exact Nat.le_add_right _ _

/-- The record of an allocation grows by no more than is merged in. -/
theorem AllocationRecord.tight : Tight AllocationRecord := by
  intro budget r f s h
  simp only [merge] at h
  split at h
  · rename_i number
    obtain ⟨item, isPart, rfl⟩ := Option.map_eq_some_iff.1 h
    have row := ItemRecord.tight.length_concat_part_le rfl r.items isPart
    rwa [number] at row
  · cases h
    exact Nat.le_add_right _ _

/-- The record of a guarantee grows by no more than is merged in. -/
theorem GuaranteeRecord.tight : Tight GuaranteeRecord := by
  intro budget r f s h
  simp only [merge] at h
  split at h
  · rename_i number
    obtain ⟨bs, isBytes, rfl⟩ := Option.map_eq_some_iff.1 h
    have field := Field.length_ofBytes_le isBytes
    rw [number] at field
    simp only [encode, fields, Field.length_writeAll_append]
    omega
  · rename_i number
    obtain ⟨bs, isBytes, rfl⟩ := Option.map_eq_some_iff.1 h
    rw [Field.eq_of_bytes? isBytes, number]
    simp only [encode, fields, List.map_append, List.map_singleton, Field.length_writeAll_append,
      Field.length_writeAll_singleton]
    omega
  · cases h
    exact Nat.le_add_right _ _

namespace AssetRecord

variable {budget : Nat} {assetHolder : Bytes} {content : Option ContentRecord} {f : Field}

/-- An allocation is merged into the allocation before it, or it takes the
place of a guarantee. -/
theorem length_allocation_le {part : AllocationRecord} (number : f.number = 2)
    (isPart : mergePart budget (ContentRecord.allocationPart content) f = some part) :
    (encode (mk assetHolder (some (.allocation part)))).length ≤
      (encode (mk assetHolder content)).length + f.write.length := by
  simp only [encode, fields, Field.length_writeAll_append, Field.length_writeAll_singleton]
  rcases content with _ | old | old
  · have new := AllocationRecord.tight.length_newPart_le rfl isPart
    rw [number] at new
    omega
  · have grows := AllocationRecord.tight.length_part_le isPart
    rw [number] at grows
    simp only [ContentRecord.allocationPart, Field.length_writeAll_singleton] at grows ⊢
    omega
  · have new := AllocationRecord.tight.length_newPart_le rfl isPart
    rw [number] at new
    omega

/-- A guarantee is merged into the guarantee before it, or it takes the
place of an allocation. -/
theorem length_guarantee_le {part : GuaranteeRecord} (number : f.number = 3)
    (isPart : mergePart budget (ContentRecord.guaranteePart content) f = some part) :
    (encode (mk assetHolder (some (.guarantee part)))).length ≤
      (encode (mk assetHolder content)).length + f.write.length := by
  simp only [encode, fields, Field.length_writeAll_append, Field.length_writeAll_singleton]
  rcases content with _ | old | old
  · have new := GuaranteeRecord.tight.length_newPart_le rfl isPart
    rw [number] at new
    omega
  · have new := GuaranteeRecord.tight.length_newPart_le rfl isPart
    rw [number] at new
    omega
  · have grows := GuaranteeRecord.tight.length_part_le isPart
    rw [number] at grows
    simp only [ContentRecord.guaranteePart, Field.length_writeAll_singleton] at grows ⊢
    omega

/-- The record of an asset grows by no more than is merged in: a content of
the other kind takes the place of the one before. -/
theorem tight : Tight AssetRecord := by
  intro budget r f s h
  simp only [merge] at h
  split at h
  · rename_i number
    obtain ⟨bs, isBytes, rfl⟩ := Option.map_eq_some_iff.1 h
    have field := Field.length_ofBytes_le isBytes
    rw [number] at field
    simp only [encode, fields, Field.length_writeAll_append]
    omega
  · rename_i number
    obtain ⟨part, isPart, rfl⟩ := Option.map_eq_some_iff.1 h
    exact length_allocation_le number isPart
  · rename_i number
    obtain ⟨part, isPart, rfl⟩ := Option.map_eq_some_iff.1 h
    exact length_guarantee_le number isPart
  · cases h
    exact Nat.le_add_right _ _

end AssetRecord

/-- The record of an outcome grows by no more than is merged in. -/
theorem OutcomeRecord.tight : Tight OutcomeRecord := by
  intro budget r f s h
  simp only [merge] at h
  split at h
  · rename_i number
    obtain ⟨asset, isPart, rfl⟩ := Option.map_eq_some_iff.1 h
    have row := AssetRecord.tight.length_concat_part_le rfl r.assets isPart
    rwa [number] at row
  · cases h
    exact Nat.le_add_right _ _

/-- The record of consensus data grows by no more than is merged in. -/
theorem ConsensusRecord.tight : Tight ConsensusRecord := by
  intro budget r f s h
  obtain ⟨votes, outcome⟩ := r
  simp only [merge] at h
  split at h
  · rename_i number
    obtain ⟨n, isNumber, rfl⟩ := Option.map_eq_some_iff.1 h
    have le : n.toUInt32.toUInt64.toNat ≤ n.toNat := by
      rw [UInt32.toNat_toUInt64, UInt64.toNat_toUInt32]
      exact Nat.mod_le _ _
    have field := Field.length_ofNumber_le isNumber le
    rw [number] at field
    simp only [encode, fields, Field.length_writeAll_append]
    omega
  · rename_i number
    obtain ⟨part, isPart, rfl⟩ := Option.map_eq_some_iff.1 h
    simp only [encode, fields, Field.length_writeAll_append]
    rcases outcome with _ | old
    · have new := OutcomeRecord.tight.length_newPart_le rfl isPart
      rw [number] at new
      simp only [Option.map_some, Option.map_none, Option.toList_some, Option.toList_none,
        Field.length_writeAll_singleton]
      omega
    · have grows := OutcomeRecord.tight.length_part_le isPart
      rw [number] at grows
      simp only [Option.map_some, Option.toList_some, Option.getD_some,
        Field.length_writeAll_singleton] at grows ⊢
      omega
  · cases h
    exact Nat.le_add_right _ _

end StateChannels.Wire
