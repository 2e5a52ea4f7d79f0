import StateChannels.Proofs.Allocation.Conservation

/-!
# `StateChannels.Proofs.Allocation.Remainder`: what a reserve leaves

A reserve goes through the items of the target one by one and changes the
ledger with each. What it leaves in the end can be said at once, from what the
target has for each destination in all (`remainder`). The items stay in their
order, with that much less, and those that are emptied are missing. So neither
the order of the target's items counts nor how an amount is split among them.

* `remainder_append`: what is left of what is left. With this the steps of
  the loop add up.
* `take_eq_ok_iff_remainder`, `takeAll_eq_ok_iff_remainder`: the single step,
  and the loop.
* `reserve_exact`: when a reserve succeeds, and with which result.
-/

set_option autoImplicit false

namespace StateChannels.Allocation

variable {ledger target rest left : Allocation} {id : Hash} {d : Destination}
  {items taken later : List AllocationItem} {item : AllocationItem} {sum total : Uint256}

/-! ### What is left -/

/-- The amounts take something from the item's destination, and leave nothing
of the item. -/
def Drained (taken : List AllocationItem) (item : AllocationItem) : Prop :=
  amountFor taken item.destination ≠ 0 ∧ item.amount.toNat ≤ amountFor taken item.destination

/-- Whether an item is used up can be computed. -/
instance (taken : List AllocationItem) : DecidablePred (Drained taken) :=
  fun item => inferInstanceAs (Decidable (amountFor taken item.destination ≠ 0 ∧
    item.amount.toNat ≤ amountFor taken item.destination))

/-- The item without what the amounts take from its destination. -/
def lessened (taken : List AllocationItem) (item : AllocationItem) : AllocationItem where
  destination := item.destination
  amount := ⟨item.amount.toNat - amountFor taken item.destination,
    Nat.lt_of_le_of_lt (Nat.sub_le ..) item.amount.toNat_lt⟩

/-- The items in their order, without what the amounts take from their
destinations, and without those that this empties. -/
def remainder (items taken : List AllocationItem) : List AllocationItem :=
  (items.filter fun item => ¬Drained taken item).map (lessened taken)

/-- An item that is used up is left out. -/
theorem remainder_cons_of_drained (drained : Drained taken item) :
    remainder (item :: items) taken = remainder items taken := by
  rw [remainder, List.filter_cons_of_neg (by simpa using drained)]
  rfl

/-- An item that is not used up stays with what is left of it. -/
theorem remainder_cons_of_not_drained (remains : ¬Drained taken item) :
    remainder (item :: items) taken = lessened taken item :: remainder items taken := by
  rw [remainder, List.filter_cons_of_pos (by simpa using remains)]
  rfl

/-- What remains of two lists is what remains of each, one after the other. -/
theorem remainder_append_left (before after taken : List AllocationItem) :
    remainder (before ++ after) taken = remainder before taken ++ remainder after taken := by
  rw [remainder, List.filter_append, List.map_append]
  rfl

/-- Items of destinations from which nothing is taken stay as they are. -/
theorem remainder_eq_self (untouched : ∀ item ∈ items, amountFor taken item.destination = 0) :
    remainder items taken = items := by
  induction items with
  | nil => rfl
  | cons item items ih =>
    rw [List.forall_mem_cons] at untouched
    have same : lessened taken item = item := by
      refine AllocationItem.ext rfl (Uint256.ext ?_)
      show item.amount.toNat - amountFor taken item.destination = item.amount.toNat
      rw [untouched.1, Nat.sub_zero]
    have remains : ¬Drained taken item := fun drained => drained.1 untouched.1
    rw [remainder_cons_of_not_drained remains, same, ih untouched.2]

/-- Only what is taken from each destination counts. -/
theorem remainder_congr (same : ∀ d, amountFor taken d = amountFor later d) :
    remainder items taken = remainder items later := by
  have drained : ∀ item, Drained taken item ↔ Drained later item := by
    intro item
    rw [Drained, Drained, same]
  have amounts : lessened taken = lessened later := by
    funext item
    rw [AllocationItem.ext_iff, Uint256.ext_iff]
    exact ⟨rfl, congrArg (item.amount.toNat - ·) (same item.destination)⟩
  rw [remainder, remainder, amounts]
  simp only [drained]

/-- An item is emptied by the first amounts, or by others what those left of
it. -/
theorem drained_append :
    Drained (taken ++ later) item ↔ Drained taken item ∨ Drained later (lessened taken item) := by
  have left : (lessened taken item).amount.toNat =
      item.amount.toNat - amountFor taken item.destination := rfl
  have place : (lessened taken item).destination = item.destination := rfl
  unfold Drained
  rw [amountFor_append, left, place]
  omega

/-- What is left of what is left. -/
theorem remainder_append :
    remainder (remainder items taken) later = remainder items (taken ++ later) := by
  induction items with
  | nil => rfl
  | cons item items ih =>
    by_cases drained : Drained taken item
    · rw [remainder_cons_of_drained drained, ih,
        remainder_cons_of_drained (drained_append.2 (.inl drained))]
    · rw [remainder_cons_of_not_drained drained]
      by_cases emptied : Drained later (lessened taken item)
      · rw [remainder_cons_of_drained emptied, ih,
          remainder_cons_of_drained (drained_append.2 (.inr emptied))]
      · have remains : ¬Drained (taken ++ later) item := by
          rw [drained_append, not_or]
          exact ⟨drained, emptied⟩
        have twice : lessened later (lessened taken item) = lessened (taken ++ later) item := by
          refine AllocationItem.ext rfl (Uint256.ext ?_)
          show item.amount.toNat - amountFor taken item.destination -
            amountFor later item.destination = item.amount.toNat - _
          rw [amountFor_append, Nat.sub_sub]
        rw [remainder_cons_of_not_drained emptied, remainder_cons_of_not_drained remains, ih, twice]

/-- What remains is for the destinations that are not used up, in their
order. -/
theorem destinations_remainder : destinations (remainder items taken) =
    destinations (items.filter fun item => ¬Drained taken item) := by
  rw [destinations, remainder, List.map_map]
  rfl

/-- What remains is for distinct destinations when the items were. -/
theorem nodup_remainder (distinct : (destinations items).Nodup) :
    (destinations (remainder items taken)).Nodup := by
  rw [destinations_remainder]
  exact (List.filter_sublist.map AllocationItem.destination).nodup distinct

/-! ### The loop -/

/-- One amount is taken out of the one item of its destination. -/
theorem remainder_singleton {before after : List AllocationItem} {own : AllocationItem}
    {some : Uint256} (distinct : (destinations (before ++ own :: after)).Nodup)
    (place : own.destination = item.destination) (positive : item.amount ≠ .zero)
    (difference : own.amount.toNat = item.amount.toNat + some.toNat) :
    remainder (before ++ own :: after) [item] =
      before ++ (if some = .zero then after else { own with amount := some } :: after) := by
  rw [destinations_append, destinations_cons, List.nodup_append] at distinct
  obtain ⟨-, after_distinct, apart⟩ := distinct
  have taken : amountFor [item] item.destination = item.amount.toNat := by
    rw [amountFor_cons, if_pos rfl, amountFor_nil, Nat.add_zero]
  -- The other items have other destinations.
  have untouched : ∀ {others : List AllocationItem}, item.destination ∉ destinations others →
      remainder others [item] = others := by
    intro others missing
    refine remainder_eq_self fun other member => amountFor_eq_zero ?_
    intro same
    rw [← List.mem_singleton.1 same] at missing
    exact missing (List.mem_map_of_mem member)
  have before_missing : item.destination ∉ destinations before := fun member =>
    apart _ member _ List.mem_cons_self place.symm
  have after_missing : item.destination ∉ destinations after :=
    place ▸ (List.nodup_cons.1 after_distinct).1
  rw [remainder_append_left, untouched before_missing]
  by_cases none : some = .zero
  · have drained : Drained [item] own := by
      rw [Drained, place, taken, difference, none, Uint256.toNat_zero, Nat.add_zero]
      exact ⟨fun zero => positive (Uint256.ext zero), Nat.le_refl _⟩
    rw [if_pos none, remainder_cons_of_drained drained, untouched after_missing]
  · have remains : ¬Drained [item] own := by
      have more : some.toNat ≠ 0 := fun zero => none (Uint256.ext zero)
      rw [Drained, place, taken, difference]
      omega
    have less : lessened [item] own = { own with amount := some } := by
      refine AllocationItem.ext rfl (Uint256.ext ?_)
      show own.amount.toNat - amountFor [item] own.destination = some.toNat
      rw [place, taken, difference, Nat.add_sub_cancel_left]
    rw [if_neg none, remainder_cons_of_not_drained remains, less, untouched after_missing]

/-- Where destinations are distinct, an amount can be taken exactly if there
is so much, and what is left is the remainder. -/
theorem take_eq_ok_iff_remainder (distinct : (destinations ledger.items).Nodup) :
    ledger.take item.amount item.destination = .ok rest ↔
      item.amount.toNat ≤ amountFor ledger.items item.destination ∧
        rest.items = remainder ledger.items [item] := by
  rw [take_eq_ok_iff]
  by_cases none : item.amount = .zero
  · -- An amount of zero is always there, and changes nothing.
    have untouched : remainder ledger.items [item] = ledger.items :=
      remainder_eq_self fun _ _ => by simp [none]
    rw [untouched, none]
    simp [Allocation.ext_iff]
  · simp only [none, ne_eq, not_false_eq_true, true_and, false_and, false_or]
    rw [takeFrom_eq_ok_iff]
    constructor
    · -- The item that was found is the only one of its destination, so it has all that is there.
      rintro ⟨before, own, after, some, whole, missing, place, difference, remains⟩
      rw [whole] at distinct ⊢
      have has : amountFor (before ++ own :: after) item.destination = own.amount.toNat := by
        rw [← place]
        exact amountFor_of_mem distinct (List.mem_append_right _ List.mem_cons_self)
      refine ⟨?_, ?_⟩
      · rw [has, difference]
        exact Nat.le_add_right _ _
      · rw [remains, remainder_singleton distinct place none difference]
    · -- And there is such an item, since something has to be there.
      rintro ⟨enough, remains⟩
      have positive : item.amount.toNat ≠ 0 := fun zero => none (Uint256.ext zero)
      have member : item.destination ∈ destinations ledger.items :=
        mem_of_amountFor_ne_zero (by omega)
      obtain ⟨own, member, place⟩ := List.mem_map.1 member
      rw [← place, amountFor_of_mem distinct member] at enough
      obtain ⟨before, after, whole⟩ := List.append_of_mem member
      have difference : own.amount.toNat =
          item.amount.toNat + (own.amount.monus item.amount).toNat := by
        rw [Uint256.toNat_monus]
        omega
      rw [whole] at distinct remains
      refine ⟨before, own, after, _, whole, ?_, place, difference, ?_⟩
      · intro earlier
        rw [destinations_append, destinations_cons, List.nodup_append] at distinct
        exact distinct.2.2 _ earlier _ List.mem_cons_self place.symm
      · rw [remains, remainder_singleton distinct place none difference]

/-- So all amounts of a list can be taken exactly if each destination has what
the list takes from it in all, and their sum is an amount. What is left is the
remainder. -/
theorem takeAll_eq_ok_iff_remainder (distinct : (destinations ledger.items).Nodup) :
    ledger.takeAll sum taken = .ok (left, total) ↔
      (∀ d, amountFor taken d ≤ amountFor ledger.items d) ∧
        left.items = remainder ledger.items taken ∧ total.toNat = sum.toNat + sumOf taken := by
  -- Each step is the remainder of the one before, so the remainders add up.
  induction taken generalizing ledger sum with
  | nil =>
    have untouched : remainder ledger.items [] = ledger.items := remainder_eq_self fun _ _ => rfl
    rw [untouched, takeAll, sumOf_nil, Nat.add_zero, ← Allocation.ext_iff, ← Uint256.ext_iff,
      Except.ok.injEq, Prod.mk.injEq]
    simp [eq_comm]
  | cons item taken ih =>
    rw [takeAll_cons_eq_ok_iff]
    constructor
    · rintro ⟨rest, sum', takes, added, others⟩
      obtain ⟨-, rest_items⟩ := (take_eq_ok_iff_remainder distinct).1 takes
      have rest_distinct : (destinations rest.items).Nodup := by
        rw [rest_items]
        exact nodup_remainder distinct
      obtain ⟨covered, left_items, whole⟩ := (ih rest_distinct).1 others
      refine ⟨fun d => ?_, ?_, ?_⟩
      · rw [← amountFor_take takes, ← amountFor_singleton_add, Nat.add_comm]
        exact Nat.add_le_add_right (covered d) _
      · rw [left_items, rest_items, remainder_append, List.singleton_append]
      · rw [whole, added, sumOf_cons, Nat.add_assoc]
    · -- What the first amount leaves still covers the others.
      rintro ⟨covered, left_items, whole⟩
      rw [sumOf_cons, ← Nat.add_assoc] at whole
      have enough : item.amount.toNat ≤ amountFor ledger.items item.destination := by
        have all := covered item.destination
        rw [amountFor_cons, if_pos rfl] at all
        omega
      have takes : ledger.take item.amount item.destination =
          .ok ⟨remainder ledger.items [item]⟩ :=
        (take_eq_ok_iff_remainder distinct).2 ⟨enough, rfl⟩
      have small : sum.toNat + item.amount.toNat < 2 ^ 256 :=
        Nat.lt_of_le_of_lt (Nat.le_add_right _ _) (whole ▸ total.toNat_lt)
      have rest_distinct : (destinations
          (Allocation.mk (remainder ledger.items [item])).items).Nodup := nodup_remainder distinct
      refine ⟨_, ⟨_, small⟩, takes, rfl, (ih rest_distinct).2 ⟨fun d => ?_, ?_, whole⟩⟩
      · have before : amountFor (remainder ledger.items [item]) d + amountFor [item] d =
            amountFor ledger.items d := amountFor_take takes d
        have all := covered d
        rw [← amountFor_singleton_add] at all
        show amountFor taken d ≤ amountFor (remainder ledger.items [item]) d
        omega
      · show left.items = remainder (remainder ledger.items [item]) taken
        rw [left_items, remainder_append, List.singleton_append]

/-! ### Reserves -/

/-- Where destinations are distinct, each has what it has in its item. -/
theorem toNat_amountOf? (distinct : (destinations ledger.items).Nodup) (d : Destination) :
    ((ledger.amountOf? d).getD .zero).toNat = amountFor ledger.items d := by
  rw [amountOf?]
  cases found : ledger.items.find? fun item => item.destination = d with
  | none =>
    rw [List.find?_eq_none] at found
    refine (amountFor_eq_zero fun member => ?_).symm
    obtain ⟨item, member, place⟩ := List.mem_map.1 member
    exact found item member (decide_eq_true place)
  | some item =>
    have place : item.destination = d := by simpa using List.find?_some found
    rw [← place, amountFor_of_mem distinct (List.mem_of_find?_eq_some found)]
    rfl

/-- A reservation succeeds when every destination can give what the target
allocates to it, and leaves the remainder followed by the channel's entry. -/
theorem reserve_eq_ok_iff_remainder (distinct : (destinations ledger.items).Nodup) :
    ledger.reserve target id = .ok rest ↔
      (∀ d, amountFor target.items d ≤ amountFor ledger.items d) ∧
        ∃ sum : Uint256, sum.toNat = sumOf target.items ∧
          rest.items = remainder ledger.items target.items ++ [⟨.ofChannel id, sum⟩] := by
  unfold reserve
  rw [bind_eq_ok_iff]
  constructor
  · rintro ⟨⟨left, sum⟩, takes, reserved⟩
    obtain ⟨covered, left_items, whole⟩ := (takeAll_eq_ok_iff_remainder distinct).1 takes
    rw [Uint256.toNat_zero, Nat.zero_add] at whole
    refine ⟨covered, sum, whole, ?_⟩
    rw [← Except.ok.inj reserved, left_items]
  · rintro ⟨covered, sum, whole, items⟩
    refine ⟨(⟨remainder ledger.items target.items⟩, sum), ?_, congrArg Except.ok ?_⟩
    · refine (takeAll_eq_ok_iff_remainder distinct).2 ⟨covered, rfl, ?_⟩
      rw [Uint256.toNat_zero, Nat.zero_add, whole]
    · exact Allocation.ext items.symm

/-- Out of a ledger with distinct destinations, a reserve succeeds exactly if
each destination has as much as the target takes from it in all, and the sum of
the target's amounts is an amount. Then it leaves the remainder and one more
item, which has that sum for the channel. Another target with the same amounts
for each destination, in another order or split in another way, has the same
success and the same result. -/
theorem reserve_exact (distinct : (destinations ledger.items).Nodup) (target : Allocation)
    (id : Hash) :
    ((∃ reserved, ledger.reserve target id = .ok reserved) ↔
      (∀ d, amountFor target.items d ≤ ((ledger.amountOf? d).getD .zero).toNat) ∧
        sumOf target.items < 2 ^ 256) ∧
    (∀ reserved, ledger.reserve target id = .ok reserved →
      ∃ sum : Uint256, sum.toNat = sumOf target.items ∧
        reserved.items = remainder ledger.items target.items ++ [⟨.ofChannel id, sum⟩]) ∧
    ∀ other : Allocation, (∀ d, amountFor other.items d = amountFor target.items d) →
      (ledger.reserve other id).toOption = (ledger.reserve target id).toOption := by
  simp only [toNat_amountOf? distinct, reserve_eq_ok_iff_remainder distinct]
  refine ⟨?_, fun reserved h => h.2, fun other same => ?_⟩
  · constructor
    · rintro ⟨_, covered, sum, whole, -⟩
      exact ⟨covered, whole ▸ sum.toNat_lt⟩
    · rintro ⟨covered, small⟩
      exact ⟨⟨_⟩, covered, ⟨_, small⟩, rfl, rfl⟩
  · -- Both targets pass the same conditions and leave the same.
    have sums : sumOf other.items = sumOf target.items := sumOf_congr same
    refine Option.ext fun reserved => ?_
    rw [toOption_eq_some_iff, toOption_eq_some_iff, reserve_eq_ok_iff_remainder distinct,
      reserve_eq_ok_iff_remainder distinct, sums, remainder_congr same]
    simp only [same]

/-! ### A target in pieces -/

namespace Sample

/-- A pool of three entries. -/
def pool : Allocation := ⟨[⟨alice, units 5⟩, ⟨bob, units 3⟩, ⟨carol, units 4⟩]⟩

/-- All that Bob and Carol have, in pieces, and some of Alice. -/
def scattered : Allocation :=
  ⟨[⟨bob, units 0⟩, ⟨carol, units 1⟩, ⟨bob, units 3⟩, ⟨carol, units 3⟩, ⟨alice, units 2⟩]⟩

/-- The same amounts, one item each. -/
def gathered : Allocation := ⟨[⟨alice, units 2⟩, ⟨bob, units 3⟩, ⟨carol, units 4⟩]⟩

/-- The pool once the channel's part is taken. -/
def pooled : Allocation := ⟨[⟨alice, units 3⟩, ⟨.ofChannel channel, units 9⟩]⟩

/-- The pool's entries are for distinct destinations. -/
theorem nodup_pool : (destinations pool.items).Nodup := by
  decide +kernel

/-- Entries in another order, and one of them in two parts, are taken from
the pool. -/
theorem reserve_scattered : pool.reserve scattered channel = .ok pooled := by
  rw [← toOption_eq_some_iff]
  decide +kernel

/-- The gathered entries allocate what the scattered ones do. -/
theorem amountFor_gathered (d : Destination) :
    amountFor gathered.items d = amountFor scattered.items d := by
  have amounts : (units 0).toNat = 0 ∧ (units 4).toNat = (units 1).toNat + (units 3).toNat := by
    decide
  simp only [gathered, scattered, amountFor_cons, amountFor_nil, amounts.1, amounts.2]
  split <;> split <;> split <;> omega

/-- The gathered amounts are reserved with the result of the scattered ones. -/
theorem reserve_exact_scattered :
    (destinations pool.items).Nodup ∧ pool.reserve scattered channel = .ok pooled ∧
    ((∀ d, amountFor scattered.items d ≤ ((pool.amountOf? d).getD .zero).toNat) ∧
      sumOf scattered.items < 2 ^ 256) ∧
    (∃ sum : Uint256, sum.toNat = sumOf scattered.items ∧
      pooled.items = remainder pool.items scattered.items ++ [⟨.ofChannel channel, sum⟩]) ∧
    (pool.reserve gathered channel).toOption = some pooled := by
  obtain ⟨succeeds, result, independent⟩ := reserve_exact nodup_pool scattered channel
  have same := independent gathered amountFor_gathered
  rw [toOption_eq_some_iff.2 reserve_scattered] at same
  exact ⟨nodup_pool, reserve_scattered, succeeds.1 ⟨pooled, reserve_scattered⟩,
    result pooled reserve_scattered, same⟩

end Sample

end StateChannels.Allocation
