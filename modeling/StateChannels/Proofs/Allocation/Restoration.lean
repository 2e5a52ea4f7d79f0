import StateChannels.Proofs.Allocation.Remainder

/-!
# `StateChannels.Proofs.Allocation.Restoration`: the order of what comes back

Funds that were reserved for a channel can be given back, and every item of
the ledger is there again. Those from which not all was taken are still where
they were. The others come back behind them, each where the target first has
some amount for it.

* `firstFor`: the place of that amount in the target.
* `destinations_creditAll`: what the destinations are after giving amounts
  back, and in which order.
* `release_reserve`: what a release after a reserve gives.
-/

set_option autoImplicit false

namespace StateChannels.Allocation

variable {ledger target reserved : Allocation} {id : Hash} {d : Destination}
  {items result taken before after : List AllocationItem} {item : AllocationItem}

/-- The index of the first amount for a destination that is not zero. -/
def firstFor (taken : List AllocationItem) (d : Destination) : Nat :=
  taken.findIdx fun item => item.destination = d ∧ item.amount ≠ .zero

/-- An item with an amount is the first one of its own destination. -/
theorem firstFor_cons_self (some : item.amount ≠ .zero) :
    firstFor (item :: taken) item.destination = 0 := by
  simp [firstFor, List.findIdx_cons, some]

/-- An item for another destination puts off the first one. -/
theorem firstFor_cons_of_ne (other : item.destination ≠ d) :
    firstFor (item :: taken) d = firstFor taken d + 1 := by
  simp [firstFor, List.findIdx_cons, other]

/-- An item of nothing puts off the first one. -/
theorem firstFor_cons_of_zero (none : item.amount = .zero) :
    firstFor (item :: taken) d = firstFor taken d + 1 := by
  simp [firstFor, List.findIdx_cons, none]

/-- After giving amounts back, the destinations are those of before and behind
them new ones, in the order of their first amounts. -/
theorem destinations_creditAll
    (credited : (taken.filter fun item => item.amount ≠ .zero).foldlM
      (fun items credit => creditTo credit items) items = .ok result) :
    ∃ new, destinations result = destinations items ++ new ∧
      (∀ d ∈ new, d ∉ destinations items) ∧
      new.Pairwise fun a b => firstFor taken a < firstFor taken b := by
  -- An amount in front moves the first amounts of the other destinations back by one.
  induction taken generalizing items with
  | nil =>
    cases credited
    exact ⟨[], (List.append_nil _).symm, by simp, .nil⟩
  | cons item taken ih =>
    by_cases none : item.amount = .zero
    · rw [List.filter_cons_of_neg (by simp [none])] at credited
      obtain ⟨new, whole, fresh, sorted⟩ := ih credited
      refine ⟨new, whole, fresh, ?_⟩
      simpa only [firstFor_cons_of_zero none, Nat.add_lt_add_iff_right] using sorted
    · rw [List.filter_cons_of_pos (by simp [none]), List.foldlM_cons, bind_eq_ok_iff] at credited
      obtain ⟨first, gives, others⟩ := credited
      obtain ⟨new, whole, fresh, sorted⟩ := ih others
      have first_destinations := destinations_creditTo gives
      have later : (∀ d ∈ new, item.destination ≠ d) →
          new.Pairwise fun a b => firstFor (item :: taken) a < firstFor (item :: taken) b := by
        intro other
        refine sorted.imp_of_mem fun {a b} isA isB before => ?_
        rw [firstFor_cons_of_ne (other a isA), firstFor_cons_of_ne (other b isB)]
        exact Nat.succ_lt_succ before
      by_cases listed : item.destination ∈ destinations items
      · -- The destination is no new one.
        rw [if_pos listed] at first_destinations
        rw [first_destinations] at whole fresh
        refine ⟨new, whole, fresh, later ?_⟩
        rintro d isNew rfl
        exact fresh _ isNew listed
      · -- It is new, and its first amount is before that of any other new one.
        rw [if_neg listed] at first_destinations
        rw [first_destinations] at whole fresh
        simp only [List.mem_append, List.mem_singleton, not_or] at fresh
        refine ⟨item.destination :: new, ?_, ?_, ?_⟩
        · rw [whole, List.append_assoc, List.singleton_append]
        · exact List.forall_mem_cons.2 ⟨listed, fun d isNew => (fresh d isNew).1⟩
        · have other : ∀ d ∈ new, item.destination ≠ d :=
            fun d isNew => Ne.symm (fresh d isNew).2
          refine List.pairwise_cons.2 ⟨fun d isNew => ?_, later other⟩
          rw [firstFor_cons_self none, firstFor_cons_of_ne (other d isNew)]
          exact Nat.succ_pos _

/-- Of items with distinct destinations, the destinations tell which they
are. -/
theorem eq_of_destinations (distinct : (destinations items).Nodup) (among : before ⊆ items)
    (among' : after ⊆ items) (same : destinations before = destinations after) :
    before = after := by
  induction before generalizing after with
  | nil => exact (List.map_eq_nil_iff.1 same.symm).symm
  | cons item before ih =>
    cases after with
    | nil => cases same
    | cons item' after =>
      rw [destinations_cons, destinations_cons, List.cons.injEq] at same
      rw [List.cons_subset] at among among'
      rw [List.inj_on_of_nodup_map distinct among.1 among'.1 same.1,
        ih among.2 among'.2 same.2]

/-- A release undoes a reserve out of a ledger with distinct destinations that
had no item for the channel. The items are those of the ledger. If none was
emptied, they are also in the same order. Otherwise those that were not emptied
come first, in their order, and then the emptied ones, in the order of their
first amounts in the target. -/
theorem release_reserve (distinct : (destinations ledger.items).Nodup)
    (missing : .ofChannel id ∉ destinations ledger.items)
    (reserves : ledger.reserve target id = .ok reserved) :
    ∃ released, reserved.release id target = .ok released ∧
      released.items.Perm ledger.items ∧
      ((∀ item ∈ ledger.items, ¬Drained target.items item) → released = ledger) ∧
      ∃ back,
        released.items = (ledger.items.filter fun item => ¬Drained target.items item) ++ back ∧
        back.Perm (ledger.items.filter fun item => Drained target.items item) ∧
        back.Pairwise fun a b =>
          firstFor target.items a.destination < firstFor target.items b.destination := by
  obtain ⟨left, sum, reserved_items, total, reduced⟩ := reserve_eq_ok distinct reserves
  have holds : reserved.Holds id sum left := ⟨reserved_items, reduced.new missing⟩
  obtain ⟨released, releases, perm⟩ := exists_release holds reduced total distinct
  refine ⟨released, releases, perm, ?_⟩
  -- The release begins with the destinations that were not emptied.
  have left_items : left = remainder ledger.items target.items := by
    obtain ⟨-, sum', -, items⟩ := (reserve_eq_ok_iff_remainder distinct).1 reserves
    rw [reserved_items] at items
    exact List.append_inj_left' items rfl
  obtain ⟨-, -, -, credited⟩ := release_eq_ok_iff.1 releases
  rw [holds.filter_ne] at credited
  obtain ⟨new, order, -, sorted⟩ := destinations_creditAll credited
  rw [left_items, destinations_remainder] at order
  obtain ⟨front, back, split, front_destinations, rfl⟩ := List.map_eq_append_iff.1 order
  -- Those are the items of the ledger again, and so the others are the ones that were emptied.
  have front_items : front = ledger.items.filter fun item => ¬Drained target.items item := by
    refine eq_of_destinations distinct ?_ (List.filter_subset_self _) front_destinations
    intro item member
    exact perm.subset (split ▸ List.mem_append_left back member)
  rw [front_items] at split
  have back_perm : back.Perm (ledger.items.filter fun item => Drained target.items item) := by
    rw [split] at perm
    have both := List.filter_append_perm (fun item => Drained target.items item) ledger.items
    simp only [← decide_not] at both
    exact (List.perm_append_left_iff _).1 (perm.trans (both.symm.trans List.perm_append_comm))
  rw [List.pairwise_map] at sorted
  refine ⟨fun kept => ?_, back, split, back_perm, sorted⟩
  have none : (ledger.items.filter fun item => Drained target.items item) = [] :=
    List.filter_eq_nil_iff.2 (by simpa using kept)
  have all : (ledger.items.filter fun item => ¬Drained target.items item) = ledger.items :=
    List.filter_eq_self.2 (by simpa using kept)
  rw [none] at back_perm
  rw [back_perm.eq_nil, all, List.append_nil] at split
  exact Allocation.ext split

/-! ### A target in pieces, given back -/

namespace Sample

/-- Carol has her first amount before Bob, whose first item has none. -/
def returned : Allocation := ⟨[⟨alice, units 5⟩, ⟨carol, units 4⟩, ⟨bob, units 3⟩]⟩

/-- The scattered entries come back to the places where they were taken. -/
theorem release_pooled : pooled.release channel scattered = .ok returned := by
  rw [← toOption_eq_some_iff]
  decide +kernel

/-- The pool has no entry for the channel to begin with. -/
theorem channel_not_mem_pool : .ofChannel channel ∉ destinations pool.items := by
  decide +kernel

/-- What was reserved in pieces comes back behind Alice's item, Carol first. -/
theorem release_reserve_scattered :
    ((destinations pool.items).Nodup ∧ .ofChannel channel ∉ destinations pool.items ∧
      pool.reserve scattered channel = .ok pooled) ∧
    pooled.release channel scattered = .ok returned ∧ returned.items.Perm pool.items ∧
    ∃ back,
      returned.items = (pool.items.filter fun item => ¬Drained scattered.items item) ++ back ∧
      back.Perm (pool.items.filter fun item => Drained scattered.items item) ∧
      back.Pairwise fun a b =>
        firstFor scattered.items a.destination < firstFor scattered.items b.destination := by
  obtain ⟨released, releases, perm, -, back⟩ :=
    release_reserve nodup_pool channel_not_mem_pool reserve_scattered
  obtain rfl : released = returned := Except.ok.inj (releases.symm.trans release_pooled)
  exact ⟨⟨nodup_pool, channel_not_mem_pool, reserve_scattered⟩, release_pooled, perm, back⟩

end Sample

end StateChannels.Allocation
