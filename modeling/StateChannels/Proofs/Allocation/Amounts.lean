import Mathlib.Algebra.GroupWithZero.Nat
import Mathlib.Data.List.Nodup
import StateChannels.Allocation
import StateChannels.Checked

/-!
# `StateChannels.Proofs.Allocation.Amounts`: what each destination has

Taking and giving moves amounts of single items. What counts is how much a
destination has in all, and which destinations have an item.

* `takeFrom_eq_ok_iff`, `creditTo_eq_ok_iff`: the item that is changed, and
  what becomes of it.
* `amountFor_takeAll`, `exists_creditAll`: what a list of amounts changes
  for each destination. Nothing is lost, in any list of items.
* `mem_destinations_takeAll`: where destinations are distinct, those are
  missing afterwards from which all was taken.
* `perm_of_amountFor`: items with distinct destinations are told by the
  destinations and their amounts, up to their order.
-/

set_option autoImplicit false

namespace StateChannels.Allocation

variable {items before after left result : List AllocationItem} {item credit : AllocationItem}
  {d e : Destination} {amount : Uint256}

/-- The destinations of the items, in order. -/
def destinations (items : List AllocationItem) : List Destination :=
  items.map AllocationItem.destination

/-- The sum of all amounts of a destination, as a number. -/
def amountFor (items : List AllocationItem) (d : Destination) : Nat :=
  (items.map fun item => if item.destination = d then item.amount.toNat else 0).sum

/-- The sum of all amounts, as a number. -/
def sumOf (items : List AllocationItem) : Nat :=
  (items.map fun item => item.amount.toNat).sum

/-- Nothing is allocated by no items. -/
@[simp] theorem amountFor_nil (d : Destination) : amountFor [] d = 0 := rfl

/-- A further item adds its amount for its own destination. -/
@[simp] theorem amountFor_cons (item : AllocationItem) (items : List AllocationItem)
    (d : Destination) :
    amountFor (item :: items) d =
      (if item.destination = d then item.amount.toNat else 0) + amountFor items d := by
  simp [amountFor]

/-- The amounts of two lists add up for every destination. -/
@[simp] theorem amountFor_append (before after : List AllocationItem) (d : Destination) :
    amountFor (before ++ after) d = amountFor before d + amountFor after d := by
  simp [amountFor]

/-- No items allocate nothing. -/
@[simp] theorem sumOf_nil : sumOf [] = 0 := rfl

/-- A further item adds its amount to the sum. -/
@[simp] theorem sumOf_cons (item : AllocationItem) (items : List AllocationItem) :
    sumOf (item :: items) = item.amount.toNat + sumOf items := by
  simp [sumOf]

/-- The sums of two lists add up. -/
@[simp] theorem sumOf_append (before after : List AllocationItem) :
    sumOf (before ++ after) = sumOf before + sumOf after := by
  simp [sumOf]

/-- A further item adds its destination in front. -/
@[simp] theorem destinations_cons (item : AllocationItem) (items : List AllocationItem) :
    destinations (item :: items) = item.destination :: destinations items := rfl

/-- The destinations of two lists stand one after the other. -/
@[simp] theorem destinations_append (before after : List AllocationItem) :
    destinations (before ++ after) = destinations before ++ destinations after :=
  List.map_append

/-- A destination without an item is allocated nothing. -/
theorem amountFor_eq_zero (missing : d ∉ destinations items) : amountFor items d = 0 := by
  induction items with
  | nil => rfl
  | cons item items ih =>
    rw [destinations_cons, List.mem_cons, not_or] at missing
    rw [amountFor_cons, if_neg (Ne.symm missing.1), ih missing.2]

/-- A destination with an amount has an item. -/
theorem mem_of_amountFor_ne_zero (some : amountFor items d ≠ 0) : d ∈ destinations items := by
  by_contra missing
  exact some (amountFor_eq_zero missing)

/-! ### Distinct destinations -/

/-- A destination has what its item holds. -/
theorem amountFor_of_mem (distinct : (destinations items).Nodup) (member : item ∈ items) :
    amountFor items item.destination = item.amount.toNat := by
  induction items with
  | nil => cases member
  | cons first items ih =>
    rw [destinations_cons, List.nodup_cons] at distinct
    rcases List.mem_cons.1 member with rfl | later
    · rw [amountFor_cons, if_pos rfl, amountFor_eq_zero distinct.1, Nat.add_zero]
    · have other : first.destination ≠ item.destination := by
        intro same
        exact distinct.1 (same ▸ List.mem_map_of_mem later)
      rw [amountFor_cons, if_neg other, ih distinct.2 later, Nat.zero_add]

/-- With distinct destinations, what each is allocated fits a word. -/
theorem amountFor_lt (distinct : (destinations items).Nodup) (d : Destination) :
    amountFor items d < 2 ^ 256 := by
  by_cases member : d ∈ destinations items
  · obtain ⟨item, isItem, rfl⟩ := List.mem_map.1 member
    rw [amountFor_of_mem distinct isItem]
    exact item.amount.toNat_lt
  · rw [amountFor_eq_zero member]
    decide

/-- Items with distinct destinations are told by the destinations and what
each has, up to their order. -/
theorem perm_of_amountFor (distinct : (destinations before).Nodup)
    (distinct' : (destinations after).Nodup)
    (same : ∀ d, d ∈ destinations before ↔ d ∈ destinations after)
    (amounts : ∀ d, amountFor before d = amountFor after d) : before.Perm after := by
  -- An item of the one list has a destination of the other, with the same amount there.
  have found : ∀ {xs ys : List AllocationItem}, (destinations xs).Nodup → (destinations ys).Nodup →
      (∀ d ∈ destinations xs, d ∈ destinations ys) → (∀ d, amountFor xs d = amountFor ys d) →
      ∀ item ∈ xs, item ∈ ys := by
    intro xs ys distinct distinct' among amounts item member
    obtain ⟨other, member', sameDestination⟩ :=
      List.mem_map.1 (among _ (List.mem_map_of_mem member))
    have sameAmount : item.amount.toNat = other.amount.toNat := by
      rw [← amountFor_of_mem distinct member, ← amountFor_of_mem distinct' member',
        sameDestination, amounts]
    have equal : item = other :=
      AllocationItem.ext sameDestination.symm (Uint256.ext sameAmount)
    rw [equal]
    exact member'
  refine (List.perm_ext_iff_of_nodup (distinct.of_map _) (distinct'.of_map _)).2 fun item => ?_
  constructor
  · exact found distinct distinct' (fun d => (same d).1) amounts item
  · exact found distinct' distinct (fun d => (same d).2) (fun d => (amounts d).symm) item

/-! ### Taking from a destination -/

/-- Where the first item is one for the destination, nothing comes before the
first one. -/
theorem split_at_first {first : AllocationItem} (here : first.destination = d)
    (whole : first :: items = before ++ item :: after) (missing : d ∉ destinations before) :
    before = [] ∧ item = first ∧ after = items := by
  cases before with
  | nil =>
    cases whole
    exact ⟨rfl, rfl, rfl⟩
  | cons other before =>
    obtain rfl : first = other := (List.cons.inj whole).1
    exact absurd (here ▸ List.mem_cons_self) missing

/-- Taking reduces the first item of the destination, and leaves it out when
nothing is left. -/
theorem takeFrom_eq_ok_iff :
    takeFrom d amount items = .ok left ↔
      ∃ before item after rest, items = before ++ item :: after ∧ d ∉ destinations before ∧
        item.destination = d ∧ item.amount.toNat = amount.toNat + rest.toNat ∧
        left = before ++
          (if rest = .zero then after else { item with amount := rest } :: after) := by
  induction items generalizing left with
  | nil => simp [takeFrom]
  | cons first items ih =>
    by_cases here : first.destination = d
    -- The first item is the one to take from, so nothing stands before it.
    · rw [takeFrom, if_pos here]
      cases enough : first.amount.sub? amount with
      | none =>
        refine iff_of_false (by simp) ?_
        rintro ⟨before, item, after, rest, whole, missing, -, difference, -⟩
        obtain ⟨-, rfl, -⟩ := split_at_first here whole missing
        rw [Uint256.sub?_eq_some_iff.2 difference] at enough
        cases enough
      | some rest =>
        constructor
        · intro taken
          refine ⟨[], first, items, rest, rfl, List.not_mem_nil, here,
            Uint256.sub?_eq_some_iff.1 enough, ?_⟩
          exact (Except.ok.inj taken).symm
        · rintro ⟨before, item, after, rest', whole, missing, -, difference, rfl⟩
          obtain ⟨rfl, rfl, rfl⟩ := split_at_first here whole missing
          obtain rfl : rest = rest' := by
            rw [Uint256.sub?_eq_some_iff.2 difference] at enough
            exact (Option.some.inj enough).symm
          rfl
    -- The item to take from is further down, so the first one stands before it either way.
    · rw [takeFrom, if_neg here, map_eq_ok_iff]
      constructor
      · rintro ⟨left, taken, rfl⟩
        obtain ⟨before, item, after, rest, rfl, missing, isAt, difference, rfl⟩ := ih.1 taken
        refine ⟨first :: before, item, after, rest, rfl, ?_, isAt, difference, rfl⟩
        rw [destinations_cons, List.mem_cons, not_or]
        exact ⟨Ne.symm here, missing⟩
      · rintro ⟨before, item, after, rest, whole, missing, isAt, difference, rfl⟩
        cases before with
        | nil =>
          obtain rfl : first = item := (List.cons.inj whole).1
          exact absurd isAt here
        | cons other before =>
          obtain ⟨rfl, rfl⟩ := List.cons.inj whole
          rw [destinations_cons, List.mem_cons, not_or] at missing
          exact ⟨_, ih.2 ⟨before, item, after, rest, rfl, missing.2, isAt, difference, rfl⟩, rfl⟩

/-- What is taken is missing at the destination, and nothing else is. -/
theorem amountFor_takeFrom (taken : takeFrom d amount items = .ok left) (e : Destination) :
    amountFor left e + (if d = e then amount.toNat else 0) = amountFor items e := by
  obtain ⟨before, item, after, rest, rfl, -, rfl, difference, rfl⟩ := takeFrom_eq_ok_iff.1 taken
  by_cases none : rest = .zero
  · rw [none, Uint256.toNat_zero, Nat.add_zero] at difference
    simp only [none, if_true, amountFor_append, amountFor_cons, difference]
    omega
  · simp only [none, if_false, amountFor_append, amountFor_cons, difference]
    split <;> omega

/-- What is taken and what is left make up the sum. -/
theorem sumOf_takeFrom (taken : takeFrom d amount items = .ok left) :
    sumOf left + amount.toNat = sumOf items := by
  obtain ⟨before, item, after, rest, rfl, -, rfl, difference, rfl⟩ := takeFrom_eq_ok_iff.1 taken
  by_cases none : rest = .zero
  · rw [none, Uint256.toNat_zero, Nat.add_zero] at difference
    simp only [none, if_true, sumOf_append, sumOf_cons, difference]
    omega
  · simp only [none, if_false, sumOf_append, sumOf_cons, difference]
    omega

/-- No destination is added, and the others stay in order. -/
theorem destinations_takeFrom_sublist (taken : takeFrom d amount items = .ok left) :
    (destinations left).Sublist (destinations items) := by
  obtain ⟨before, item, after, rest, rfl, -, rfl, -, rfl⟩ := takeFrom_eq_ok_iff.1 taken
  by_cases none : rest = .zero
  · rw [if_pos none, destinations_append, destinations_append, destinations_cons]
    exact (List.Sublist.refl _).append (List.sublist_cons_self ..)
  · rw [if_neg none, destinations_append, destinations_append, destinations_cons]
    exact List.Sublist.refl _

/-- Where destinations are distinct, the destination is missing afterwards
if all was taken. -/
theorem mem_destinations_takeFrom (distinct : (destinations items).Nodup)
    (taken : takeFrom d amount items = .ok left) :
    e ∈ destinations left ↔ e ∈ destinations items ∧ (d = e → amountFor left e ≠ 0) := by
  obtain ⟨before, item, after, rest, rfl, missing, rfl, -, rfl⟩ := takeFrom_eq_ok_iff.1 taken
  rw [destinations_append, destinations_cons] at distinct
  -- The destinations are distinct, so there is no other item for this one.
  have missing' : item.destination ∉ destinations after :=
    (List.nodup_cons.1 (List.nodup_append.1 distinct).2.1).1
  by_cases none : rest = .zero
  · have gone : item.destination ∉ destinations (before ++ after) := by
      rw [destinations_append, List.mem_append, not_or]
      exact ⟨missing, missing'⟩
    rw [if_pos none]
    by_cases here : item.destination = e
    · subst here
      exact iff_of_false gone fun both => both.2 rfl (amountFor_eq_zero gone)
    · simp [here, Ne.symm here]
  · have some : rest.toNat ≠ 0 := fun zero => none (Uint256.ext zero)
    rw [if_neg none]
    by_cases here : item.destination = e
    · subst here
      simp [some]
    · simp [here]

/-! ### Giving to a destination -/

/-- Giving adds to the first item of the destination, or appends an item. -/
theorem creditTo_eq_ok_iff :
    creditTo credit items = .ok result ↔
      credit.destination ∉ destinations items ∧ result = items ++ [credit] ∨
      ∃ before item after sum, items = before ++ item :: after ∧
        credit.destination ∉ destinations before ∧ item.destination = credit.destination ∧
        sum.toNat = item.amount.toNat + credit.amount.toNat ∧
        result = before ++ { item with amount := sum } :: after := by
  induction items generalizing result with
  | nil => simp [creditTo, destinations, eq_comm]
  | cons first items ih =>
    by_cases here : first.destination = credit.destination
    -- The credit goes to the first item, so nothing stands before it.
    · rw [creditTo, if_pos here, bind_eq_ok_iff]
      constructor
      · rintro ⟨sum, added, credited⟩
        right
        refine ⟨[], first, items, sum, rfl, List.not_mem_nil, here,
          Uint256.addOrRefuse_eq_ok_iff.1 added, ?_⟩
        exact (Except.ok.inj credited).symm
      · rintro (⟨missing, -⟩ | ⟨before, item, after, sum, whole, missing, -, added, rfl⟩)
        · exact absurd (here ▸ List.mem_cons_self) missing
        · obtain ⟨rfl, rfl, rfl⟩ := split_at_first here whole missing
          exact ⟨sum, Uint256.addOrRefuse_eq_ok_iff.2 added, rfl⟩
    -- The credit goes further down, so the first item stands before it either way.
    · rw [creditTo, if_neg here, map_eq_ok_iff]
      constructor
      · rintro ⟨result, credited, rfl⟩
        rcases ih.1 credited with ⟨missing, rfl⟩ |
          ⟨before, item, after, sum, rfl, missing, isAt, added, rfl⟩
        · left
          rw [destinations_cons, List.mem_cons, not_or]
          exact ⟨⟨Ne.symm here, missing⟩, rfl⟩
        · right
          refine ⟨first :: before, item, after, sum, rfl, ?_, isAt, added, rfl⟩
          rw [destinations_cons, List.mem_cons, not_or]
          exact ⟨Ne.symm here, missing⟩
      · rintro (⟨missing, rfl⟩ | ⟨before, item, after, sum, whole, missing, isAt, added, rfl⟩)
        · rw [destinations_cons, List.mem_cons, not_or] at missing
          exact ⟨_, ih.2 (.inl ⟨missing.2, rfl⟩), rfl⟩
        · cases before with
          | nil =>
            obtain rfl : first = item := (List.cons.inj whole).1
            exact absurd isAt here
          | cons other before =>
            obtain ⟨rfl, rfl⟩ := List.cons.inj whole
            rw [destinations_cons, List.mem_cons, not_or] at missing
            exact ⟨_, ih.2 (.inr ⟨before, item, after, sum, rfl, missing.2, isAt, added, rfl⟩),
              rfl⟩

/-- What is given is added at the destination, and nowhere else. -/
theorem amountFor_creditTo (credited : creditTo credit items = .ok result) (e : Destination) :
    amountFor result e = amountFor items e + amountFor [credit] e := by
  rcases creditTo_eq_ok_iff.1 credited with ⟨-, rfl⟩ |
    ⟨before, item, after, sum, rfl, -, isAt, added, rfl⟩
  · rw [amountFor_append]
  · simp only [amountFor_append, amountFor_cons, amountFor_nil, added, isAt]
    split <;> omega

/-- A destination that has no item gets one at the end. -/
theorem destinations_creditTo (credited : creditTo credit items = .ok result) :
    destinations result = if credit.destination ∈ destinations items then destinations items
      else destinations items ++ [credit.destination] := by
  rcases creditTo_eq_ok_iff.1 credited with ⟨missing, rfl⟩ |
    ⟨before, own, after, sum, rfl, -, isAt, -, rfl⟩
  · rw [if_neg missing, destinations_append]
    rfl
  · have listed : credit.destination ∈ destinations (before ++ own :: after) := by
      rw [destinations_append, destinations_cons, isAt]
      exact List.mem_append_right _ List.mem_cons_self
    rw [if_pos listed, destinations_append, destinations_append]
    rfl

/-- So it has an item afterwards, and nothing else changes. -/
theorem mem_destinations_creditTo (credited : creditTo credit items = .ok result) :
    e ∈ destinations result ↔ e ∈ destinations items ∨ e = credit.destination := by
  rw [destinations_creditTo credited]
  split
  · rename_i listed
    exact ⟨.inl, fun either => either.elim id fun same => same ▸ listed⟩
  · rw [List.mem_append, List.mem_singleton]

/-- A credit keeps the destinations distinct. -/
theorem nodup_destinations_creditTo (distinct : (destinations items).Nodup)
    (credited : creditTo credit items = .ok result) : (destinations result).Nodup := by
  rw [destinations_creditTo credited]
  split
  · exact distinct
  · rename_i missing
    rw [List.nodup_append]
    refine ⟨distinct, List.nodup_singleton _, ?_⟩
    rintro d member e new rfl
    rw [List.mem_singleton.1 new] at member
    exact missing member

/-- What fits can be given. -/
theorem exists_creditTo
    (fits : amountFor items credit.destination + credit.amount.toNat < 2 ^ 256) :
    ∃ result, creditTo credit items = .ok result := by
  induction items with
  | nil => exact ⟨_, rfl⟩
  | cons first items ih =>
    rw [amountFor_cons] at fits
    by_cases here : first.destination = credit.destination
    · rw [if_pos here] at fits
      have small : first.amount.toNat + credit.amount.toNat < 2 ^ 256 := by omega
      rw [creditTo, if_pos here]
      have added : first.amount.addOrRefuse credit.amount = .ok ⟨_, small⟩ :=
        Uint256.addOrRefuse_eq_ok_iff.2 rfl
      rw [added]
      exact ⟨_, rfl⟩
    · rw [if_neg here, Nat.zero_add] at fits
      obtain ⟨result, credited⟩ := ih fits
      rw [creditTo, if_neg here, credited]
      exact ⟨_, rfl⟩

/-! ### Lists of amounts -/

variable {ledger remaining : Allocation} {sum total : Uint256} {taken : List AllocationItem}

/-- One item and the rest make up the list with that item in front. -/
theorem amountFor_singleton_add (item : AllocationItem) (items : List AllocationItem)
    (d : Destination) : amountFor [item] d + amountFor items d = amountFor (item :: items) d :=
  (amountFor_append [item] items d).symm

/-- One amount is taken from the items, if there is anything to take. -/
theorem take_eq_ok_iff :
    ledger.take amount d = .ok remaining ↔
      amount = .zero ∧ remaining = ledger ∨
        amount ≠ .zero ∧ takeFrom d amount ledger.items = .ok remaining.items := by
  unfold take
  split
  · rename_i none
    simp [none, eq_comm]
  · rename_i some
    rw [map_eq_ok_iff]
    simp [some, Allocation.ext_iff]

/-- What an item takes from an allocation is taken from its own destination. -/
theorem amountFor_take (h : ledger.take item.amount item.destination = .ok remaining)
    (e : Destination) :
    amountFor remaining.items e + amountFor [item] e = amountFor ledger.items e := by
  rcases take_eq_ok_iff.1 h with ⟨none, rfl⟩ | ⟨-, takes⟩
  · simp [none]
  · rw [← amountFor_takeFrom takes e, amountFor_cons, amountFor_nil, Nat.add_zero]

/-- What an item takes and what remains make up the allocation's sum. -/
theorem sumOf_take (h : ledger.take amount d = .ok remaining) :
    sumOf remaining.items + amount.toNat = sumOf ledger.items := by
  rcases take_eq_ok_iff.1 h with ⟨rfl, rfl⟩ | ⟨-, takes⟩
  · rfl
  · exact sumOf_takeFrom takes

/-- The destinations stay distinct, and one disappears only when its amount
is used up. -/
theorem mem_destinations_take (distinct : (destinations ledger.items).Nodup)
    (h : ledger.take item.amount item.destination = .ok remaining) :
    (destinations remaining.items).Nodup ∧ ∀ e, e ∈ destinations remaining.items ↔
      e ∈ destinations ledger.items ∧
        (amountFor [item] e ≠ 0 → amountFor remaining.items e ≠ 0) := by
  rcases take_eq_ok_iff.1 h with ⟨none, rfl⟩ | ⟨some, takes⟩
  · simp [none, distinct]
  · refine ⟨(destinations_takeFrom_sublist takes).nodup distinct, fun e => ?_⟩
    have positive : item.amount.toNat ≠ 0 := fun zero => some (Uint256.ext zero)
    rw [mem_destinations_takeFrom distinct takes]
    simp [positive]

/-- Taking several items takes the first of them and then the others, and
their sum has to fit a word. -/
theorem takeAll_cons_eq_ok_iff :
    ledger.takeAll sum (item :: taken) = .ok (remaining, total) ↔
      ∃ rest sum', ledger.take item.amount item.destination = .ok rest ∧
        sum'.toNat = sum.toNat + item.amount.toNat ∧
        rest.takeAll sum' taken = .ok (remaining, total) := by
  rw [takeAll, bind_eq_ok_iff]
  simp only [bind_eq_ok_iff, Uint256.addOrRefuse_eq_ok_iff]
  constructor
  · rintro ⟨rest, takes, sum', adds, others⟩
    exact ⟨rest, sum', takes, adds, others⟩
  · rintro ⟨rest, sum', takes, adds, others⟩
    exact ⟨rest, takes, sum', adds, others⟩

/-- Taking all amounts of a list takes from each destination what the list
has for it, and adds up what is taken. -/
theorem amountFor_takeAll (h : ledger.takeAll sum taken = .ok (remaining, total)) :
    (∀ d, amountFor remaining.items d + amountFor taken d = amountFor ledger.items d) ∧
      total.toNat = sum.toNat + sumOf taken := by
  induction taken generalizing ledger sum with
  | nil =>
    cases h
    exact ⟨fun _ => rfl, rfl⟩
  | cons item taken ih =>
    obtain ⟨rest, sum', takes, adds, others⟩ := takeAll_cons_eq_ok_iff.1 h
    obtain ⟨amounts, adds'⟩ := ih others
    refine ⟨fun d => ?_, ?_⟩
    · rw [← amountFor_take takes d, ← amounts d, ← amountFor_singleton_add item taken]
      omega
    · rw [adds', adds, sumOf_cons, Nat.add_assoc]

/-- So what is left and what was taken are the items of before, as a sum. -/
theorem sumOf_takeAll (h : ledger.takeAll sum taken = .ok (remaining, total)) :
    sumOf remaining.items + sumOf taken = sumOf ledger.items := by
  induction taken generalizing ledger sum with
  | nil =>
    cases h
    rfl
  | cons item taken ih =>
    obtain ⟨rest, sum', takes, -, others⟩ := takeAll_cons_eq_ok_iff.1 h
    have first := sumOf_take takes
    have later := ih others
    rw [sumOf_cons]
    omega

/-- A reserve keeps the sum of all items. -/
theorem sumOf_reserve {target reserved : Allocation} {id : Hash}
    (h : ledger.reserve target id = .ok reserved) : sumOf reserved.items = sumOf ledger.items := by
  obtain ⟨⟨left, sum⟩, takes, result⟩ := bind_eq_ok_iff.1 h
  have added : sum.toNat = Uint256.zero.toNat + sumOf target.items := (amountFor_takeAll takes).2
  rw [← Except.ok.inj result, sumOf_append, sumOf_cons, sumOf_nil, ← sumOf_takeAll takes, added,
    Uint256.toNat_zero, Nat.zero_add, Nat.add_zero]

/-- Of distinct destinations those are missing afterwards from which
something was taken and nothing is left. -/
theorem mem_destinations_takeAll (distinct : (destinations ledger.items).Nodup)
    (h : ledger.takeAll sum taken = .ok (remaining, total)) :
    (destinations remaining.items).Nodup ∧ ∀ d, d ∈ destinations remaining.items ↔
      d ∈ destinations ledger.items ∧
        (amountFor taken d ≠ 0 → amountFor remaining.items d ≠ 0) := by
  induction taken generalizing ledger sum with
  | nil =>
    cases h
    simp [distinct]
  | cons item taken ih =>
    obtain ⟨rest, sum', takes, -, others⟩ := takeAll_cons_eq_ok_iff.1 h
    obtain ⟨distinct', first⟩ := mem_destinations_take distinct takes
    obtain ⟨distinct'', later⟩ := ih distinct' others
    refine ⟨distinct'', fun d => ?_⟩
    -- What is left after the first amount is what is left in the end and what the others take.
    have amounts := (amountFor_takeAll others).1 d
    rw [later, first, ← amountFor_singleton_add item taken, and_assoc]
    refine and_congr_right fun _ => ?_
    rw [← amounts]
    omega

/-- Giving all amounts of a list, none of which is too much for its
destination. -/
theorem exists_creditAll (credits : List AllocationItem)
    (fits : ∀ d, amountFor items d + amountFor credits d < 2 ^ 256)
    (distinct : (destinations items).Nodup) :
    ∃ result, credits.foldlM (fun items credit => creditTo credit items) items = .ok result ∧
      (destinations result).Nodup ∧
      (∀ d, amountFor result d = amountFor items d + amountFor credits d) ∧
      ∀ d, d ∈ destinations result ↔ d ∈ destinations items ∨ d ∈ destinations credits := by
  induction credits generalizing items with
  | nil => exact ⟨items, rfl, distinct, fun _ => rfl, fun _ => by simp [destinations]⟩
  | cons credit credits ih =>
    -- One destination after the other: the first credit fits, and leaves room for the others.
    have room : amountFor items credit.destination + credit.amount.toNat < 2 ^ 256 := by
      have whole := fits credit.destination
      rw [amountFor_cons, if_pos rfl] at whole
      omega
    obtain ⟨first, credited⟩ := exists_creditTo room
    have amounts := amountFor_creditTo credited
    have left : ∀ d, amountFor first d + amountFor credits d < 2 ^ 256 := by
      intro d
      rw [amounts, Nat.add_assoc, amountFor_singleton_add]
      exact fits d
    obtain ⟨result, others, distinct', amounts', members⟩ :=
      ih left (nodup_destinations_creditTo distinct credited)
    refine ⟨result, ?_, distinct', fun d => ?_, fun d => ?_⟩
    · rw [List.foldlM_cons, credited]
      exact others
    · rw [amounts', amounts, Nat.add_assoc, amountFor_singleton_add]
    · rw [members, mem_destinations_creditTo credited, destinations_cons, List.mem_cons, or_assoc]

/-- The total of an allocation is the sum of its amounts, as long as that is
an amount. -/
theorem total_eq_ok_iff : ledger.total = .ok total ↔ total.toNat = sumOf ledger.items := by
  have fromSum : ∀ (items : List AllocationItem) (sum : Uint256),
      items.foldlM (fun sum item => sum.addOrRefuse item.amount) sum = .ok total ↔
        total.toNat = sum.toNat + sumOf items := by
    intro items
    induction items with
    | nil =>
      intro sum
      rw [sumOf_nil, Nat.add_zero, ← Uint256.ext_iff]
      exact ⟨fun same => (Except.ok.inj same).symm, fun same => congrArg _ same.symm⟩
    | cons item items ih =>
      intro sum
      have bound := total.toNat_lt
      rw [List.foldlM_cons, bind_eq_ok_iff, sumOf_cons]
      constructor
      · rintro ⟨sum', added, others⟩
        rw [(ih sum').1 others, Uint256.addOrRefuse_eq_ok_iff.1 added, Nat.add_assoc]
      · intro whole
        refine ⟨⟨sum.toNat + item.amount.toNat, by omega⟩,
          Uint256.addOrRefuse_eq_ok_iff.2 rfl, (ih _).2 ?_⟩
        rw [whole, Nat.add_assoc]
  rw [Allocation.total, fromSum, Uint256.toNat_zero, Nat.zero_add]

end StateChannels.Allocation
