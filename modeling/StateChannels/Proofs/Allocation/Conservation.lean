import Mathlib.Algebra.BigOperators.Group.Finset.Piecewise
import StateChannels.Proofs.Allocation.Entry
import StateChannels.Proofs.Allocation.Release

/-!
# `StateChannels.Proofs.Allocation.Conservation`: funds are only relabelled

Whether funds are reserved for a channel or released again, no destination
gets or loses anything but what the target allocation names, and the channel
has the rest of it. This is so in any list of items, with a destination named
several times, with amounts of zero, and with the channel itself among the
destinations.

* `Relabelled`: amounts went from their destinations to a single one, told
  by what each destination has.
* `relabelled_reserve`, `relabelled_release`: a reserve relabels in the one
  direction and a release in the other.
* `Relabelled.total_eq`: the checked total stays what it was, also where it
  is too large to be an amount.
* `only_relabelled`: the three together, and for an outcome that one entry
  changes and no other.
-/

set_option autoImplicit false

namespace StateChannels

/-- A checked sum is refused only for its size. -/
theorem Uint256.addOrRefuse_eq_error_iff {a b : Uint256} {e : AllocationError} :
    a.addOrRefuse b = .error e ↔ e = .overflow ∧ 2 ^ 256 ≤ a.toNat + b.toNat := by
  unfold addOrRefuse
  rw [← add?_eq_none_iff]
  cases a.add? b <;> simp [eq_comm]

namespace Allocation

variable {ledger target result : Allocation} {id : Hash} {t d : Destination}
  {items moved before after credits : List AllocationItem}

/-! ### Sums over destinations -/

/-- All amounts are the amounts of all destinations. -/
theorem sumOf_eq_sum {s : Finset Destination} (among : ∀ d ∈ destinations items, d ∈ s) :
    sumOf items = ∑ d ∈ s, amountFor items d := by
  induction items with
  | nil =>
    simp only [sumOf_nil, amountFor_nil, Finset.sum_const_zero]
  | cons item items ih =>
    rw [destinations_cons, List.forall_mem_cons] at among
    simp only [sumOf_cons, amountFor_cons, Finset.sum_add_distrib, Finset.sum_ite_eq,
      if_pos among.1, ih among.2]

/-- Where each destination has the same, the sum of all is the same. -/
theorem sumOf_congr (same : ∀ d, amountFor before d = amountFor after d) :
    sumOf before = sumOf after := by
  -- Destinations that only one of the two names have nothing in the other.
  let s : Finset Destination := (destinations (before ++ after)).toFinset
  have among : ∀ d ∈ destinations (before ++ after), d ∈ s :=
    fun d member => List.mem_toFinset.2 member
  simp only [destinations_append, List.mem_append, or_imp, forall_and] at among
  rw [sumOf_eq_sum among.1, sumOf_eq_sum among.2]
  exact Finset.sum_congr rfl fun d _ => same d

/-- What `moved` has for each destination went from there to the
destination `t`. -/
def Relabelled (moved : List AllocationItem) (t : Destination)
    (before after : List AllocationItem) : Prop :=
  ∀ d, amountFor after d + amountFor moved d =
    amountFor before d + if t = d then sumOf moved else 0

/-- What went away arrived, so the sum of all amounts is the same. -/
theorem Relabelled.sumOf_eq (h : Relabelled moved t before after) :
    sumOf after = sumOf before := by
  -- Enough destinations to sum over: all that are named anywhere, and `t`.
  let s : Finset Destination := insert t (destinations (after ++ moved ++ before)).toFinset
  have among : ∀ d ∈ destinations (after ++ moved ++ before), d ∈ s := by
    intro d member
    exact Finset.mem_insert_of_mem (List.mem_toFinset.2 member)
  simp only [destinations_append, List.mem_append, or_imp, forall_and] at among
  obtain ⟨⟨after_among, moved_among⟩, before_among⟩ := among
  have arrives : ∑ d ∈ s, (if t = d then sumOf moved else 0) = sumOf moved := by
    rw [Finset.sum_ite_eq, if_pos (Finset.mem_insert_self _ _)]
  have sums : ∑ d ∈ s, (amountFor after d + amountFor moved d) =
      ∑ d ∈ s, (amountFor before d + if t = d then sumOf moved else 0) :=
    Finset.sum_congr rfl fun d _ => h d
  rw [Finset.sum_add_distrib, Finset.sum_add_distrib, arrives, ← sumOf_eq_sum after_among,
    ← sumOf_eq_sum moved_among, ← sumOf_eq_sum before_among] at sums
  exact Nat.add_right_cancel sums

/-! ### Totals -/

/-- There is no total exactly if the amounts add up to too much. -/
theorem total_eq_error_iff {e : AllocationError} :
    ledger.total = .error e ↔ e = .overflow ∧ 2 ^ 256 ≤ sumOf ledger.items := by
  -- Induction on the items, from any sum of those before.
  have fromSum : ∀ (items : List AllocationItem) (sum : Uint256),
      items.foldlM (fun sum item => sum.addOrRefuse item.amount) sum = .error e ↔
        e = .overflow ∧ 2 ^ 256 ≤ sum.toNat + sumOf items := by
    intro items
    induction items with
    | nil =>
      intro sum
      have small := sum.toNat_lt
      refine iff_of_false (fun ended => by cases ended) ?_
      rintro ⟨-, large⟩
      exact Nat.not_lt.2 large small
    | cons item items ih =>
      intro sum
      rw [List.foldlM_cons, bind_eq_error_iff, sumOf_cons, ← Nat.add_assoc]
      constructor
      · rintro (refused | ⟨sum', added, later⟩)
        · obtain ⟨isOverflow, large⟩ := Uint256.addOrRefuse_eq_error_iff.1 refused
          exact ⟨isOverflow, Nat.le_trans large (Nat.le_add_right ..)⟩
        · rw [ih, Uint256.addOrRefuse_eq_ok_iff.1 added] at later
          exact later
      · rintro ⟨isOverflow, large⟩
        by_cases fits : sum.toNat + item.amount.toNat < 2 ^ 256
        · exact .inr ⟨⟨_, fits⟩, Uint256.addOrRefuse_eq_ok_iff.2 rfl,
            (ih _).2 ⟨isOverflow, large⟩⟩
        · exact .inl (Uint256.addOrRefuse_eq_error_iff.2 ⟨isOverflow, Nat.not_lt.1 fits⟩)
  rw [Allocation.total, fromSum, Uint256.toNat_zero, Nat.zero_add]

/-- So relabelling changes no total, nor the lack of one. -/
theorem Relabelled.total_eq (h : Relabelled moved t ledger.items result.items) :
    result.total = ledger.total := by
  cases whole : ledger.total with
  | ok total =>
    rw [total_eq_ok_iff] at whole ⊢
    rw [whole, h.sumOf_eq]
  | error e =>
    rw [total_eq_error_iff] at whole ⊢
    rwa [h.sumOf_eq]

/-! ### Reserving and releasing -/

/-- A reserve relabels the amounts of the target as the channel's. -/
theorem relabelled_reserve (h : ledger.reserve target id = .ok result) :
    Relabelled target.items (.ofChannel id) ledger.items result.items := by
  obtain ⟨⟨left, sum⟩, takes, reserved⟩ := bind_eq_ok_iff.1 h
  obtain ⟨amounts, added⟩ := amountFor_takeAll takes
  rw [Uint256.toNat_zero, Nat.zero_add] at added
  intro d
  have arrives : amountFor [⟨.ofChannel id, sum⟩] d =
      if Destination.ofChannel id = d then sumOf target.items else 0 := by
    rw [amountFor_cons, amountFor_nil, added, Nat.add_zero]
  rw [← Except.ok.inj reserved, amountFor_append, arrives, ← amounts d, Nat.add_right_comm]

/-- Every credit goes to its destination. -/
theorem amountFor_creditAll
    (h : credits.foldlM (fun items credit => creditTo credit items) items = .ok after)
    (d : Destination) : amountFor after d = amountFor items d + amountFor credits d := by
  induction credits generalizing items with
  | nil =>
    cases h
    rfl
  | cons credit credits ih =>
    rw [List.foldlM_cons, bind_eq_ok_iff] at h
    obtain ⟨first, credited, others⟩ := h
    rw [ih others, amountFor_creditTo credited, Nat.add_assoc, amountFor_singleton_add]

/-- The items of one destination and those of the others make up all. -/
theorem amountFor_split (items : List AllocationItem) (t d : Destination) :
    amountFor items d = amountFor (items.filter fun item => item.destination = t) d +
      amountFor (items.filter fun item => item.destination ≠ t) d := by
  induction items with
  | nil => rfl
  | cons item items ih =>
    by_cases here : item.destination = t
    · rw [List.filter_cons_of_pos (by simpa using here),
        List.filter_cons_of_neg (by simpa using here), amountFor_cons, amountFor_cons, ih,
        Nat.add_assoc]
    · rw [List.filter_cons_of_neg (by simpa using here),
        List.filter_cons_of_pos (by simpa using here), amountFor_cons, amountFor_cons, ih,
        Nat.add_left_comm]

/-- A release is undone by relabelling the amounts of the target as the
channel's. -/
theorem relabelled_release (h : ledger.release id target = .ok result) :
    Relabelled target.items (.ofChannel id) result.items ledger.items := by
  obtain ⟨held, isHeld, total, credited⟩ := release_eq_ok_iff.1 h
  have isAt : held.destination = .ofChannel id := by
    have member : held ∈ ledger.items.filter fun item => item.destination = .ofChannel id :=
      isHeld ▸ List.mem_singleton_self held
    exact of_decide_eq_true (List.mem_filter.1 member).2
  intro d
  rw [amountFor_creditAll credited, amountFor_filter_some, amountFor_split ledger.items
    (.ofChannel id), isHeld, amountFor_cons, amountFor_nil, isAt, total_eq_ok_iff.1 total]
  omega

end Allocation

/-! ### Outcomes -/

namespace Outcome

variable {o o' : Outcome} {assetHolder : Address} {target : Allocation} {id : Hash}

/-- A reserve out of an outcome changes the first entry of the asset holder,
which has to be an allocation, and no other. -/
theorem reserve_eq_ok_iff :
    o.reserve assetHolder target id = .ok o' ↔
      ∃ before ledger after reserved,
        o.assets = before ++ ⟨assetHolder, .allocation ledger⟩ :: after ∧
        (∀ asset ∈ before, asset.assetHolder ≠ assetHolder) ∧
        ledger.reserve target id = .ok reserved ∧
        o'.assets = before ++ ⟨assetHolder, .allocation reserved⟩ :: after := by
  rw [reserve_eq_ok_iff_set]
  constructor
  · rintro ⟨ledger, reserved, found, reserves, rfl⟩
    obtain ⟨before, after, split, others, replaced⟩ := assets_set found
    exact ⟨before, ledger, after, reserved, split, others, reserves, replaced _⟩
  · rintro ⟨before, ledger, after, reserved, split, others, reserves, changed⟩
    have found := allocation?_eq_some_iff.2 ⟨before, after, split, others⟩
    refine ⟨ledger, reserved, found, reserves, Outcome.ext ?_⟩
    rw [changed, set, split]
    symm
    exact setEntry_append others rfl

end Outcome

namespace Allocation

/-- Funds are only relabelled, whatever items the ledger and the target have.
A reserve takes from each destination what the target has for it, and the
channel gets the sum of that. A release does the opposite. The total of the
ledger stays, and if it is too large to be an amount, it stays so. In an
outcome, a reserve changes the first entry of the asset holder and leaves all
other entries as they are. -/
theorem only_relabelled (ledger target : Allocation) (id : Hash) :
    (∀ result, ledger.reserve target id = .ok result →
      Relabelled target.items (.ofChannel id) ledger.items result.items ∧
        result.total = ledger.total) ∧
    (∀ result, ledger.release id target = .ok result →
      Relabelled target.items (.ofChannel id) result.items ledger.items ∧
        result.total = ledger.total) ∧
    ∀ (o o' : Outcome) (assetHolder : Address), o.reserve assetHolder target id = .ok o' →
      ∃ before own after reserved,
        o.assets = before ++ ⟨assetHolder, .allocation own⟩ :: after ∧
        (∀ asset ∈ before, asset.assetHolder ≠ assetHolder) ∧
        own.reserve target id = .ok reserved ∧
        o'.assets = before ++ ⟨assetHolder, .allocation reserved⟩ :: after := by
  refine ⟨fun result reserves => ?_, fun result releases => ?_, fun o o' assetHolder reserves => ?_⟩
  · have relabelled := relabelled_reserve reserves
    exact ⟨relabelled, relabelled.total_eq⟩
  · have relabelled := relabelled_release releases
    exact ⟨relabelled, relabelled.total_eq.symm⟩
  · exact Outcome.reserve_eq_ok_iff.1 reserves

/-! ### A ledger with repeated destinations -/

namespace Sample

/-- Alice's destination. -/
def alice : Destination := ⟨.replicate 32 1⟩

/-- Bob's destination. -/
def bob : Destination := ⟨.replicate 32 2⟩

/-- Carol's destination. -/
def carol : Destination := ⟨.replicate 32 3⟩

/-- The channel for which amounts are reserved. -/
def channel : Hash := ⟨.replicate 32 4⟩

/-- A small amount. -/
def units (n : UInt8) : Uint256 := ⟨n.toNat, Nat.lt_trans n.toNat_lt (by decide)⟩

/-- The largest amount. -/
def most : Uint256 := ⟨2 ^ 256 - 1, by decide⟩

/-- Two items for Alice, one of them empty, one for the channel itself, and
with the last one more than an amount can count. -/
def repeated : Allocation :=
  ⟨[⟨alice, units 5⟩, ⟨.ofChannel channel, units 2⟩, ⟨alice, units 0⟩, ⟨bob, most⟩]⟩

/-- Amounts of Alice and of the channel, and two of zero. -/
def share : Allocation :=
  ⟨[⟨alice, units 5⟩, ⟨bob, units 0⟩, ⟨.ofChannel channel, units 1⟩, ⟨alice, units 0⟩]⟩

/-- The repeated items after the share is taken from them. -/
def reserved : Allocation :=
  ⟨[⟨.ofChannel channel, units 1⟩, ⟨alice, units 0⟩, ⟨bob, most⟩, ⟨.ofChannel channel, units 6⟩]⟩

/-- A ledger that holds the share for the channel. -/
def holding : Allocation :=
  ⟨[⟨alice, units 5⟩, ⟨.ofChannel channel, units 6⟩, ⟨bob, units 3⟩]⟩

/-- The ledger after the share is given back. -/
def released : Allocation :=
  ⟨[⟨alice, units 10⟩, ⟨bob, units 3⟩, ⟨.ofChannel channel, units 1⟩]⟩

/-- The share is taken from the repeated items. -/
theorem reserve_repeated : repeated.reserve share channel = .ok reserved := by
  rw [← toOption_eq_some_iff]
  decide +kernel

/-- The share is given back out of the channel's item. -/
theorem release_holding : holding.release channel share = .ok released := by
  rw [← toOption_eq_some_iff]
  decide +kernel

/-- Two entries for one asset holder. -/
def twice : Outcome := ⟨[⟨.zero, .allocation repeated⟩, ⟨.zero, .allocation holding⟩]⟩

/-- The first entry of the asset holder gives the share, and the second one
stays. -/
theorem reserve_twice : twice.reserve .zero share channel =
    .ok ⟨[⟨.zero, .allocation reserved⟩, ⟨.zero, .allocation holding⟩]⟩ :=
  Outcome.reserve_eq_ok_iff.2
    ⟨[], repeated, [⟨.zero, .allocation holding⟩], reserved, rfl, by simp, reserve_repeated, rfl⟩

/-- The ledger has no total, and what is reserved out of it has none either.
What is released relabels the other way. -/
theorem only_relabelled_repeated :
    (repeated.reserve share channel = .ok reserved ∧
      Relabelled share.items (.ofChannel channel) repeated.items reserved.items ∧
      reserved.total = .error .overflow) ∧
    (holding.release channel share = .ok released ∧
      Relabelled share.items (.ofChannel channel) released.items holding.items ∧
      released.total = .ok (units 14)) ∧
    ∃ before own after reserved', twice.assets = before ++ ⟨.zero, .allocation own⟩ :: after ∧
      (∀ asset ∈ before, asset.assetHolder ≠ .zero) ∧
      own.reserve share channel = .ok reserved' ∧
      [⟨.zero, .allocation reserved⟩, ⟨.zero, .allocation holding⟩] =
        before ++ ⟨.zero, .allocation reserved'⟩ :: after := by
  obtain ⟨reserves, -, changes⟩ := only_relabelled repeated share channel
  obtain ⟨-, releases, -⟩ := only_relabelled holding share channel
  obtain ⟨relabelled, total⟩ := reserves reserved reserve_repeated
  obtain ⟨relabelled', total'⟩ := releases released release_holding
  have tooMuch : repeated.total = .error .overflow :=
    total_eq_error_iff.2 ⟨rfl, by decide +kernel⟩
  have enough : holding.total = .ok (units 14) := total_eq_ok_iff.2 rfl
  exact ⟨⟨reserve_repeated, relabelled, total.trans tooMuch⟩,
    ⟨release_holding, relabelled', total'.trans enough⟩, changes twice _ .zero reserve_twice⟩

end Sample

end Allocation

end StateChannels
