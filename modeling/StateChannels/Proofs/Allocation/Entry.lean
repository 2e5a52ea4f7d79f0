import Mathlib.Data.List.Forall2
import StateChannels.Allocation
import StateChannels.Proofs.Wire.RoundTrip

/-!
# `StateChannels.Proofs.Allocation.Entry`: replacing an entry of an outcome

Funds of one asset holder are moved by replacing its entry in the outcome.
The entries of all other asset holders stay what and where they are.

* `Outcome.allocation?_eq_some_iff`, `Outcome.assets_set`: where the entry of an
  asset holder stands, and that a new one stands there.
* `Outcome.reserve_eq_ok_iff_set`: a reserve is such a replacement.
* `Outcome.SameBut`: two outcomes with the same entries, but perhaps for one
  asset holder. Replacing an entry makes such an outcome (`sameBut_set`).
* `Outcome.valid_set`, `Outcome.validate_set_of_invalid`: the outcome stays
  valid if the new allocation is, and is refused for what that is refused for.
* `Outcome.length_encode_set`: another order of the items does not change the
  length of the record of the outcome.
-/

set_option autoImplicit false

namespace StateChannels

/-- An allocation is found just in the content that is one. -/
theorem AssetContent.allocation?_eq_some_iff {content : AssetContent} {a : Allocation} :
    content.allocation? = some a ↔ content = .allocation a := by
  cases content <;> simp [allocation?]

namespace Outcome

variable {o o' : Outcome} {assetHolder : Address} {a : Allocation} {asset entry : AssetOutcome}
  {assets : List AssetOutcome}

/-- The outcomes have entries of the same asset holders in the same order,
and these are the same entries, but perhaps for one asset holder. -/
def SameBut (assetHolder : Address) (o o' : Outcome) : Prop :=
  List.Forall₂ (fun x y => x.assetHolder = y.assetHolder ∧ (x.assetHolder ≠ assetHolder → x = y))
    o.assets o'.assets

/-- Outcomes that differ in one asset have the same asset holders. -/
theorem SameBut.map_assetHolder (h : SameBut assetHolder o o') :
    o.assets.map AssetOutcome.assetHolder = o'.assets.map AssetOutcome.assetHolder := by
  unfold SameBut at h
  generalize o.assets = xs, o'.assets = ys at h ⊢
  induction h with
  | nil => rfl
  | cons first _ ih => rw [List.map_cons, List.map_cons, first.1, ih]

/-- An asset is the one that was set, or was there before. -/
theorem mem_setEntry (h : asset ∈ setEntry entry assets) : asset = entry ∨ asset ∈ assets := by
  induction assets with
  | nil => exact .inl (List.mem_singleton.1 h)
  | cons first assets ih =>
    unfold setEntry at h
    split at h
    · rcases List.mem_cons.1 h with same | later
      · exact .inl same
      · exact .inr (List.mem_cons_of_mem _ later)
    · rcases List.mem_cons.1 h with same | later
      · exact .inr (same ▸ List.mem_cons_self)
      · exact (ih later).imp_right (List.mem_cons_of_mem _)

/-- The entry that is replaced is the first one of its asset holder. -/
theorem setEntry_append {front back : List AssetOutcome}
    (others : ∀ asset ∈ front, asset.assetHolder ≠ entry.assetHolder)
    (same : asset.assetHolder = entry.assetHolder) :
    setEntry entry (front ++ asset :: back) = front ++ entry :: back := by
  induction front with
  | nil =>
    rw [List.nil_append, setEntry, if_pos same]
    rfl
  | cons first front ih =>
    rw [List.forall_mem_cons] at others
    rw [List.cons_append, setEntry, if_neg others.1, ih others.2]
    rfl

/-- The allocation of an asset holder stands in its first entry. -/
theorem allocation?_eq_some_iff :
    o.allocation? assetHolder = some a ↔
      ∃ front back, o.assets = front ++ ⟨assetHolder, .allocation a⟩ :: back ∧
        ∀ asset ∈ front, asset.assetHolder ≠ assetHolder := by
  rw [allocation?, Option.bind_eq_some_iff]
  simp only [find?, List.find?_eq_some_iff_append, decide_eq_true_eq, Bool.not_eq_true',
    decide_eq_false_iff_not]
  constructor
  · rintro ⟨⟨holder, content⟩, ⟨rfl, front, back, split, others⟩, isAllocation⟩
    cases content with
    | allocation b =>
      cases isAllocation
      exact ⟨front, back, split, others⟩
    | guarantee g => cases isAllocation
  · rintro ⟨front, back, split, others⟩
    exact ⟨_, ⟨rfl, front, back, split, others⟩, rfl⟩

/-- What is put in place of an allocation stands where this stood. -/
theorem assets_set (found : o.allocation? assetHolder = some a) :
    ∃ front back, o.assets = front ++ ⟨assetHolder, .allocation a⟩ :: back ∧
      (∀ asset ∈ front, asset.assetHolder ≠ assetHolder) ∧
      ∀ content, (o.set ⟨assetHolder, content⟩).assets =
        front ++ ⟨assetHolder, content⟩ :: back := by
  obtain ⟨front, back, split, others⟩ := allocation?_eq_some_iff.1 found
  refine ⟨front, back, split, others, fun content => ?_⟩
  rw [set, split]
  exact setEntry_append others rfl

/-- A reserve puts what is left of an allocation in its place. -/
theorem reserve_eq_ok_iff_set {target : Allocation} {id : Hash} :
    o.reserve assetHolder target id = .ok o' ↔
      ∃ before during, o.allocation? assetHolder = some before ∧
        before.reserve target id = .ok during ∧ o' = o.set ⟨assetHolder, .allocation during⟩ := by
  unfold Outcome.reserve
  cases found : o.allocation? assetHolder with
  | none => simp
  | some before =>
    simp only [bind_eq_ok_iff]
    constructor
    · rintro ⟨during, reserves, ⟨⟩⟩
      exact ⟨before, during, rfl, reserves, rfl⟩
    · rintro ⟨_, during, ⟨⟩, reserves, rfl⟩
      exact ⟨during, reserves, rfl⟩

/-- The new entry is the first one of its asset holder. -/
theorem find?_set (o : Outcome) (entry : AssetOutcome) :
    (o.set entry).find? entry.assetHolder = some entry := by
  obtain ⟨assets⟩ := o
  show (setEntry entry assets).find? _ = some entry
  induction assets with
  | nil => simp [setEntry]
  | cons first assets ih =>
    unfold setEntry
    split
    · simp
    · rename_i other
      rw [List.find?_cons_of_neg (by simpa using other)]
      exact ih

/-- Of two replacements the second one counts. -/
theorem set_set {first second : AssetOutcome} (same : first.assetHolder = second.assetHolder) :
    (o.set first).set second = o.set second := by
  obtain ⟨assets⟩ := o
  show Outcome.mk (setEntry second (setEntry first assets)) = ⟨setEntry second assets⟩
  congr 1
  induction assets with
  | nil => exact if_pos same
  | cons asset assets ih =>
    by_cases here : asset.assetHolder = first.assetHolder
    · rw [setEntry, if_pos here, setEntry, if_pos same, setEntry, if_pos (here.trans same)]
    · rw [setEntry, if_neg here, setEntry, if_neg (same ▸ here), setEntry, if_neg (same ▸ here), ih]

/-- The allocation that was set is found again. -/
theorem allocation?_set (o : Outcome) (assetHolder : Address) (a : Allocation) :
    (o.set ⟨assetHolder, .allocation a⟩).allocation? assetHolder = some a := by
  rw [allocation?, find?_set o ⟨assetHolder, .allocation a⟩]
  rfl

/-- Replacing an entry leaves the others as they are. -/
theorem sameBut_set (entry : AssetOutcome) (found : (o.find? entry.assetHolder).isSome) :
    SameBut entry.assetHolder o (o.set entry) := by
  obtain ⟨assets⟩ := o
  have isFound : ∃ asset ∈ assets, asset.assetHolder = entry.assetHolder := by
    simpa [find?] using found
  clear found
  show List.Forall₂ _ assets (setEntry entry assets)
  induction assets with
  | nil =>
    obtain ⟨asset, none, -⟩ := isFound
    cases none
  | cons first assets ih =>
    unfold setEntry
    split
    case isTrue here =>
      refine .cons ⟨here, fun other => absurd here other⟩ ?_
      exact List.forall₂_same.2 fun _ _ => ⟨rfl, fun _ => rfl⟩
    case isFalse other =>
      obtain ⟨asset, member, isHolder⟩ := isFound
      have later : asset ∈ assets := by
        rcases List.mem_cons.1 member with same | later
        · exact absurd (same ▸ isHolder) other
        · exact later
      exact .cons ⟨rfl, fun _ => rfl⟩ (ih ⟨asset, later, isHolder⟩)

/-- An asset holder with an allocation has an asset. -/
theorem isSome_find?_of_allocation? (found : o.allocation? assetHolder = some a) :
    (o.find? assetHolder).isSome := by
  cases entry : o.find? assetHolder with
  | none => simp [allocation?, entry] at found
  | some _ => rfl

/-- In a valid outcome an allocation has distinct destinations. -/
theorem distinct_of_allocation? (valid : o.Valid) (found : o.allocation? assetHolder = some a) :
    (a.items.map AllocationItem.destination).Nodup := by
  obtain ⟨asset, isEntry, isAllocation⟩ := Option.bind_eq_some_iff.1 found
  exact valid.2 asset (List.mem_of_find?_eq_some isEntry) a
    (AssetContent.allocation?_eq_some_iff.1 isAllocation)

/-- With a valid allocation in place of another entry, an outcome stays
valid. -/
theorem valid_set (valid : o.Valid) (found : (o.find? assetHolder).isSome)
    (distinct : (a.items.map AllocationItem.destination).Nodup) :
    (o.set ⟨assetHolder, .allocation a⟩).Valid := by
  have same : SameBut assetHolder o (o.set ⟨assetHolder, .allocation a⟩) :=
    sameBut_set ⟨assetHolder, .allocation a⟩ found
  constructor
  · rw [← same.map_assetHolder]
    exact valid.1
  · intro asset member b isAllocation
    rcases mem_setEntry member with rfl | old
    · cases isAllocation
      exact distinct
    · exact valid.2 asset old b isAllocation

/-- With an allocation of repeated destinations set, the check fails for
that allocation. -/
theorem validateFrom_setEntry {e : OutcomeError} {seen : List Address}
    (valid : validateFrom seen assets = .ok ())
    (found : ∃ asset ∈ assets, asset.assetHolder = assetHolder)
    (invalid : a.checkDistinct = .error e) :
    validateFrom seen (setEntry ⟨assetHolder, .allocation a⟩ assets) = .error e := by
  induction assets generalizing seen with
  | nil =>
    obtain ⟨asset, none, -⟩ := found
    cases none
  | cons first assets ih =>
    rw [validateFrom] at valid
    split at valid
    · cases valid
    rename_i new
    split at valid
    · cases valid
    rename_i fine
    unfold setEntry
    split
    · -- The new entry is the first one that is looked at and not fine.
      rename_i here
      have content : (AssetContent.allocation a).allocation?.map Allocation.checkDistinct =
          some (.error e) := congrArg some invalid
      rw [validateFrom, if_neg (here ▸ new)]
      simp only [content]
    · rename_i other
      have later : ∃ asset ∈ assets, asset.assetHolder = assetHolder := by
        obtain ⟨asset, member, isHolder⟩ := found
        rcases List.mem_cons.1 member with same | member
        · exact absurd (same ▸ isHolder) other
        · exact ⟨asset, member, isHolder⟩
      rw [validateFrom, if_neg new]
      split
      · rename_i faulty
        exact (fine _ faulty).elim
      · exact ih valid later

/-- An allocation that is not valid makes the outcome so. -/
theorem validate_set_of_invalid {e : OutcomeError} (valid : o.Valid)
    (found : (o.find? assetHolder).isSome) (invalid : a.checkDistinct = .error e) :
    (o.set ⟨assetHolder, .allocation a⟩).validate = .error e := by
  have isFound : ∃ asset ∈ o.assets, asset.assetHolder = assetHolder := by
    simpa [find?] using found
  exact validateFrom_setEntry (validate_eq_ok_iff.2 valid) isFound invalid

end Outcome

/-! ### Lengths -/

open Wire

/-- A part is as long as its record makes it. -/
theorem Wire.Record.length_write_part {ρ : Type} [Record ρ] {r r' : ρ} (number : Nat)
    (same : (Record.encode r).length = (Record.encode r').length) :
    (Record.part number r).write.length = (Record.part number r').write.length := by
  simp [Record.part, Field.write, Field.key, Payload.kind, Payload.write, same]

/-- In another order the items of an allocation take as many bytes, and so
does its entry. -/
theorem AssetOutcome.length_encode_of_perm {a b : Allocation} (assetHolder : Address)
    (perm : a.items.Perm b.items) :
    (Record.encode (toRecord ⟨assetHolder, .allocation a⟩)).length =
      (Record.encode (toRecord ⟨assetHolder, .allocation b⟩)).length := by
  have allocations : (Record.encode a.toRecord).length = (Record.encode b.toRecord).length :=
    (((perm.map AllocationItem.toRecord).map (Record.part 1)).flatMap_right Field.write).length_eq
  show (Field.writeAll (Field.ofBytes 1 assetHolder.toBytes ++ [Record.part 2 a.toRecord])).length =
    (Field.writeAll (Field.ofBytes 1 assetHolder.toBytes ++ [Record.part 2 b.toRecord])).length
  simp [Field.writeAll, Record.length_write_part 2 allocations]

/-- Replacing an allocation by its items in another order leaves the record
of an outcome as long as it was. -/
theorem Outcome.length_encode_set {o : Outcome} {assetHolder : Address} {a b : Allocation}
    (found : o.allocation? assetHolder = some a) (perm : b.items.Perm a.items) :
    (Record.encode (o.set ⟨assetHolder, .allocation b⟩).toRecord).length =
      (Record.encode o.toRecord).length := by
  obtain ⟨front, back, split, -, replaced⟩ := assets_set found
  have entry := Record.length_write_part 1 (AssetOutcome.length_encode_of_perm assetHolder perm)
  -- The record is the row of the entries, one part for each.
  show (Field.writeAll (((o.set _).assets.map AssetOutcome.toRecord).map (Record.part 1))).length =
    (Field.writeAll ((o.assets.map AssetOutcome.toRecord).map (Record.part 1))).length
  rw [replaced, split]
  simp [Field.writeAll, entry]

end StateChannels
