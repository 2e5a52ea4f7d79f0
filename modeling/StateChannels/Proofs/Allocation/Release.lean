import StateChannels.Proofs.Allocation.Amounts

/-!
# `StateChannels.Proofs.Allocation.Release`: what was reserved can be given back

Funds that were reserved for a channel out of a ledger with distinct
destinations can be given back the same way. Then every destination has what
it had. Only the order may be another one: a destination from which all was
taken comes back at the end.

* `Reduced`: items from which amounts were taken, with distinct
  destinations. `reserve_eq_ok` finds them in what a reserve leaves.
* `Reduced.restore`: giving the amounts back makes the items of before, in
  some order.
* `release_eq_ok_iff`: when a release succeeds.
* `exists_release`: so a reserve can be undone.
-/

set_option autoImplicit false

namespace StateChannels

namespace Allocation

variable {ledger target reserved result : Allocation} {id : Hash} {d : Destination}
  {items taken left : List AllocationItem}

/-- What is left of items after taking amounts, where destinations are
distinct. Those from which all was taken are missing. -/
structure Reduced (items taken left : List AllocationItem) : Prop where
  distinct : (destinations left).Nodup
  amounts : ∀ d, amountFor left d + amountFor taken d = amountFor items d
  members : ∀ d, d ∈ destinations left ↔
    d ∈ destinations items ∧ (amountFor taken d ≠ 0 → amountFor left d ≠ 0)

/-- A reserve puts what it takes into one item at the end. -/
theorem reserve_eq_ok (distinct : (destinations ledger.items).Nodup)
    (h : ledger.reserve target id = .ok reserved) :
    ∃ left sum, reserved.items = left ++ [⟨.ofChannel id, sum⟩] ∧ target.total = .ok sum ∧
      Reduced ledger.items target.items left := by
  obtain ⟨⟨left, sum⟩, takes, result⟩ := bind_eq_ok_iff.1 h
  obtain ⟨amounts, added⟩ := amountFor_takeAll takes
  obtain ⟨distinct', members⟩ := mem_destinations_takeAll distinct takes
  refine ⟨left.items, sum, ?_, total_eq_ok_iff.2 ?_, distinct', amounts, members⟩
  · rw [← Except.ok.inj result]
  · rw [added, Uint256.toNat_zero, Nat.zero_add]

/-- What is given back does not include amounts of zero. -/
theorem amountFor_filter_some (items : List AllocationItem) (d : Destination) :
    amountFor (items.filter fun item => item.amount ≠ .zero) d = amountFor items d := by
  induction items with
  | nil => rfl
  | cons item items ih =>
    by_cases none : item.amount = .zero
    · rw [List.filter_cons_of_neg (by simp [none]), ih, amountFor_cons]
      simp [none]
    · rw [List.filter_cons_of_pos (by simp [none]), amountFor_cons, amountFor_cons, ih]

/-- So a destination gets something back just if something was taken from
it. -/
theorem mem_destinations_filter_some :
    d ∈ destinations (items.filter fun item => item.amount ≠ .zero) ↔ amountFor items d ≠ 0 := by
  constructor
  · intro member
    obtain ⟨item, isItem, rfl⟩ := List.mem_map.1 member
    obtain ⟨isItem, some⟩ := List.mem_filter.1 isItem
    have positive : item.amount.toNat ≠ 0 := fun zero => of_decide_eq_true some (Uint256.ext zero)
    obtain ⟨before, after, rfl⟩ := List.append_of_mem isItem
    rw [amountFor_append, amountFor_cons, if_pos rfl]
    omega
  · intro some
    rw [← amountFor_filter_some] at some
    exact mem_of_amountFor_ne_zero some

/-- Giving everything back makes the items of before, in some order. -/
theorem Reduced.restore (h : Reduced items taken left) (distinct : (destinations items).Nodup) :
    ∃ result, (taken.filter fun item => item.amount ≠ .zero).foldlM
        (fun items credit => creditTo credit items) left = .ok result ∧ result.Perm items := by
  have fits : ∀ d, amountFor left d +
      amountFor (taken.filter fun item => item.amount ≠ .zero) d < 2 ^ 256 := by
    intro d
    rw [amountFor_filter_some, h.amounts]
    exact amountFor_lt distinct d
  obtain ⟨result, credited, distinct', amounts, members⟩ := exists_creditAll _ fits h.distinct
  refine ⟨result, credited, perm_of_amountFor distinct' distinct (fun d => ?_) fun d => ?_⟩
  · rw [members, mem_destinations_filter_some, h.members]
    -- From a missing destination nothing was taken.
    have listed : amountFor taken d ≠ 0 → d ∈ destinations items := by
      intro some
      have whole := h.amounts d
      exact mem_of_amountFor_ne_zero (by omega)
    by_cases some : amountFor taken d ≠ 0
    · simp [some, listed some]
    · simp [some]
  · rw [amounts, amountFor_filter_some, h.amounts]

/-- A release finds one item of the channel, which holds the total of the
target, and gives the amounts to what is left without it. -/
theorem release_eq_ok_iff :
    ledger.release id target = .ok result ↔
      ∃ held, (ledger.items.filter fun item => item.destination = .ofChannel id) = [held] ∧
        target.total = .ok held.amount ∧
        (target.items.filter fun item => item.amount ≠ .zero).foldlM
            (fun items credit => creditTo credit items)
            (ledger.items.filter fun item => item.destination ≠ .ofChannel id) =
          .ok result.items := by
  simp only [release]
  generalize (ledger.items.filter fun item => item.destination = .ofChannel id) = own
  -- Only a list of one item gets past the first check.
  rcases own with _ | ⟨held, _ | ⟨other, others⟩⟩
  · simp
  · simp only [bind_eq_ok_iff, List.cons.injEq, and_true, exists_eq_left']
    constructor
    · rintro ⟨expected, total, credited⟩
      split at credited
      · rename_i covered
        obtain ⟨items, gives, rfl⟩ := map_eq_ok_iff.1 credited
        exact ⟨covered ▸ total, gives⟩
      · cases credited
    · rintro ⟨total, credited⟩
      refine ⟨held.amount, total, ?_⟩
      rw [if_pos rfl]
      exact map_eq_ok_iff.2 ⟨result.items, credited, rfl⟩
  · simp

/-- A channel that has no item yet has one after a reserve. -/
structure Holds (reserved : Allocation) (id : Hash) (sum : Uint256)
    (left : List AllocationItem) : Prop where
  items : reserved.items = left ++ [⟨.ofChannel id, sum⟩]
  new : .ofChannel id ∉ destinations left

/-- What was left is not for the channel. -/
theorem Holds.ne {sum : Uint256} (h : reserved.Holds id sum left) :
    ∀ item ∈ left, item.destination ≠ .ofChannel id := by
  intro item member same
  exact h.new (same ▸ List.mem_map_of_mem member)

/-- The item of the channel is the only one for it. -/
theorem Holds.filter_eq {sum : Uint256} (h : reserved.Holds id sum left) :
    reserved.items.filter (fun item => item.destination = .ofChannel id) =
      [⟨.ofChannel id, sum⟩] := by
  rw [h.items, List.filter_append, List.filter_eq_nil_iff.2 (by simpa using h.ne)]
  simp

/-- And the others are what was left. -/
theorem Holds.filter_ne {sum : Uint256} (h : reserved.Holds id sum left) :
    reserved.items.filter (fun item => item.destination ≠ .ofChannel id) = left := by
  rw [h.items, List.filter_append, List.filter_eq_self.2 (by simpa using h.ne)]
  simp

/-- The channel is found with the sum. -/
theorem Holds.amountOf? {sum : Uint256} (h : reserved.Holds id sum left) :
    reserved.amountOf? (.ofChannel id) = some sum := by
  have none : left.find? (fun item => item.destination = .ofChannel id) = none :=
    List.find?_eq_none.2 (by simpa using h.ne)
  rw [Allocation.amountOf?, h.items, List.find?_append, none]
  simp

/-- The destinations are distinct if those left are. -/
theorem Holds.distinct {sum : Uint256} (h : reserved.Holds id sum left)
    (distinct : (destinations left).Nodup) : (destinations reserved.items).Nodup := by
  rw [h.items, destinations_append, List.nodup_append]
  refine ⟨distinct, List.nodup_singleton _, ?_⟩
  rintro d member e single rfl
  rw [List.mem_singleton.1 single] at member
  exact h.new member

/-- A destination without an item gets none when items are taken. -/
theorem Reduced.new (h : Reduced items taken left) (missing : d ∉ destinations items) :
    d ∉ destinations left :=
  fun member => missing ((h.members d).1 member).1

/-- What was reserved for a channel is given back. The destinations have
what they had, in some order. -/
theorem exists_release {sum : Uint256} (holds : reserved.Holds id sum left)
    (reduced : Reduced items target.items left) (total : target.total = .ok sum)
    (distinct : (destinations items).Nodup) :
    ∃ released, reserved.release id target = .ok released ∧ released.items.Perm items := by
  obtain ⟨result, credited, perm⟩ := reduced.restore distinct
  refine ⟨⟨result⟩, release_eq_ok_iff.2 ⟨_, holds.filter_eq, total, ?_⟩, perm⟩
  rw [holds.filter_ne]
  exact credited

end Allocation

end StateChannels
