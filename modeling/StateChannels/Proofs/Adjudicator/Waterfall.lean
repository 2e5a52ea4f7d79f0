import StateChannels.Proofs.Adjudicator.Holdings

/-!
# `StateChannels.Proofs.Adjudicator.Waterfall`: an allocation paid in rounds

A payout serves the items of an allocation in order, and what is not
paid remains as the items of the next payout. An item that is paid in
full is dropped, so the items of later payouts are no longer those of
the allocation. A `Standing` keeps an item together with what all
payouts so far have paid for it and with what is left of it.

* `Standing.balanced_settled`: what an item was paid and what is left
  of it make up its amount.
* `Payment.serve_again`: two rounds, with some new funds between them,
  pay each item what one round would that starts with all of the funds.
  For the first item that is not paid in full takes all that is there,
  and those after it nothing, so the second round starts where the
  first one stopped.
* `Standing.Interim`: after any number of rounds, one round more makes
  them all equal to a single one. New funds keep this, and so does a
  round (`Interim.add`, `Interim.settled`).
-/

set_option autoImplicit false

namespace StateChannels

/-- An item of an allocation after some payouts: what they paid for it,
and what is left of it, if anything. -/
structure Standing where
  item : AllocationItem
  paid : Nat
  left? : Option AllocationItem
deriving DecidableEq

namespace Standing

/-- The items before the first payout. -/
def initial (items : List AllocationItem) : List Standing :=
  items.map fun item => ⟨item, 0, some item⟩

/-- An item after the first payout. -/
def ofPayment (p : Payment) : Standing := ⟨p.item, p.paid.toNat, p.unpaid?⟩

/-- What is left of the items. This is what the next payout serves. -/
def lefts (standings : List Standing) : List AllocationItem := standings.filterMap left?

/-- The items after a payout of what was left of them. -/
def pay : List Standing → List Payment → List Standing
  | [], _ => []
  | ⟨item, paid, some _⟩ :: standings, p :: payments =>
    ⟨item, paid + p.paid.toNat, p.unpaid?⟩ :: pay standings payments
  | s :: standings, payments => s :: pay standings payments

/-- What the items that go to a destination were paid. -/
def paidTo (d : Destination) (standings : List Standing) : Nat :=
  ((standings.filter fun s => s.item.destination = d).map paid).sum

/-- What was paid and what is left make up the amount of the item, and
what is left goes where the item goes. -/
structure Balanced (s : Standing) : Prop where
  amount : s.paid + (s.left?.map fun left => left.amount.toNat).getD 0 = s.item.amount.toNat
  destination : ∀ left ∈ s.left?, left.destination = s.item.destination

/-- The items after a payout with these funds. -/
def settled (available : Uint256) (standings : List Standing) : List Standing :=
  pay standings (Payment.serve available (lefts standings)).1

end Standing

namespace Payment

/-- What the payments give to a destination. -/
def paidTo (d : Destination) (payments : List Payment) : Nat :=
  ((payments.filter fun p => p.item.destination = d).map fun p => p.paid.toNat).sum

/-- A further payment adds what it pays to its own destination. -/
theorem paidTo_cons (d : Destination) (p : Payment) (payments : List Payment) :
    paidTo d (p :: payments) =
      (if p.item.destination = d then p.paid.toNat else 0) + paidTo d payments := by
  by_cases here : p.item.destination = d <;> simp [paidTo, here]

/-- The payments go where the items go. -/
theorem paidTo_serve_of_forall_ne {d : Destination} {items : List AllocationItem}
    (others : ∀ item ∈ items, item.destination ≠ d) {available : Uint256} :
    paidTo d (serve available items).1 = 0 := by
  induction items generalizing available with
  | nil => rfl
  | cons item items ih =>
    obtain ⟨first, rest⟩ := List.forall_mem_cons.1 others
    rw [serve, paidTo_cons, if_neg first, ih rest]

/-! ### One round -/

variable {available : Uint256} {item : AllocationItem} {items : List AllocationItem}

/-- While the funds last, an item is paid in full. -/
theorem serve_cons_of_le (enough : item.amount ≤ available) :
    serve available (item :: items) =
      (⟨item, item.amount⟩ :: (serve (available.monus item.amount) items).1,
        (serve (available.monus item.amount) items).2) := by
  have all : min item.amount available = item.amount :=
    Uint256.ext (by rw [Uint256.toNat_min]; exact Nat.min_eq_left enough)
  rw [serve, all]

/-- The first item that is not takes what is left. -/
theorem serve_cons_of_lt (short : available < item.amount) :
    serve available (item :: items) =
      (⟨item, available⟩ :: (serve .zero items).1, (serve .zero items).2) := by
  have all : min item.amount available = available :=
    Uint256.ext (by rw [Uint256.toNat_min]; exact Nat.min_eq_right (Nat.le_of_lt short))
  have nothing : available.monus available = .zero := Uint256.ext (Nat.sub_self _)
  rw [serve, all, nothing]

/-- An item paid in full leaves nothing. -/
theorem unpaid?_full (item : AllocationItem) : unpaid? ⟨item, item.amount⟩ = none :=
  if_neg (Nat.lt_irrefl _)

/-- An item paid in part leaves the rest for the same destination. -/
theorem unpaid?_of_lt {paid : Uint256} (short : paid < item.amount) :
    unpaid? ⟨item, paid⟩ = some ⟨item.destination, item.amount.monus paid⟩ := if_pos short

/-- What is left depends on how much it is and where it goes. -/
theorem unpaid?_congr {p q : Payment} (destination : p.item.destination = q.item.destination)
    (rest : p.item.amount.toNat - p.paid.toNat = q.item.amount.toNat - q.paid.toNat) :
    p.unpaid? = q.unpaid? := by
  have some : p.paid < p.item.amount ↔ q.paid < q.item.amount := by
    rw [Uint256.lt_iff, Uint256.lt_iff]
    omega
  have same : p.item.amount.monus p.paid = q.item.amount.monus q.paid := Uint256.ext rest
  by_cases short : q.paid < q.item.amount
  · rw [unpaid?, if_pos (some.2 short), unpaid?, if_pos short, destination, same]
  · rw [unpaid?, if_neg (short ∘ some.1), unpaid?, if_neg short]

/-- A payment of at most the amount leaves the rest. -/
theorem paid_add_unpaid {p : Payment} (le : p.paid.toNat ≤ p.item.amount.toNat) :
    p.paid.toNat + (p.unpaid?.map fun left => left.amount.toNat).getD 0 =
      p.item.amount.toNat := by
  by_cases short : p.paid < p.item.amount
  · rw [unpaid?, if_pos short, Option.map_some, Option.getD_some, Uint256.toNat_monus]
    omega
  · have full : ¬p.paid.toNat < p.item.amount.toNat := short
    rw [unpaid?, if_neg short, Option.map_none, Option.getD_none]
    omega

/-- What is left is for the destination of the payment. -/
theorem destination_unpaid {p : Payment} : ∀ left ∈ p.unpaid?,
    left.destination = p.item.destination := by
  intro left isLeft
  unfold unpaid? at isLeft
  split at isLeft
  · cases isLeft
    rfl
  · cases isLeft

end Payment

namespace Standing

variable {available : Uint256} {standings : List Standing} {items : List AllocationItem}

/-- No deposits leave the standings as they are. -/
@[simp] theorem pay_nil (standings : List Standing) : pay standings [] = standings := by
  induction standings with
  | nil => rfl
  | cons s standings ih =>
    obtain ⟨item, paid, _ | left⟩ := s <;> rw [pay, ih] <;> simp

/-- A standing with nothing left takes nothing of what is available. -/
theorem settled_cons_none (item : AllocationItem) (paid : Nat) :
    settled available (⟨item, paid, none⟩ :: standings) =
      ⟨item, paid, none⟩ :: settled available standings := by
  show pay (_ :: _) (Payment.serve available (lefts standings)).1 = _
  rw [pay, settled]
  simp

/-- A standing with something left takes what it can and leaves the others
the rest. -/
theorem settled_cons_some (item left : AllocationItem) (paid : Nat) :
    settled available (⟨item, paid, some left⟩ :: standings) =
      ⟨item, paid + (min left.amount available).toNat,
          Payment.unpaid? ⟨left, min left.amount available⟩⟩ ::
        settled (available.monus (min left.amount available)) standings := rfl

/-- In the beginning everything is left. -/
@[simp] theorem lefts_initial (items : List AllocationItem) : lefts (initial items) = items := by
  simp [lefts, initial, List.filterMap_map]

/-- The standings start from the items in their order. -/
@[simp] theorem map_item_initial (items : List AllocationItem) :
    (initial items).map item = items := by
  simp [initial, Function.comp_def]

/-- In the beginning every standing is balanced: all is left and nothing is
paid. -/
theorem balanced_initial : ∀ s ∈ initial items, s.Balanced := by
  intro s member
  obtain ⟨item, -, rfl⟩ := List.mem_map.1 member
  refine ⟨Nat.zero_add _, ?_⟩
  intro left isLeft
  cases isLeft
  rfl

/-- In the beginning nobody is paid. -/
theorem paidTo_initial (d : Destination) : paidTo d (initial items) = 0 := by
  refine List.sum_eq_zero_iff.2 ?_
  intro n member
  obtain ⟨s, kept, rfl⟩ := List.mem_map.1 member
  obtain ⟨item, -, rfl⟩ := List.mem_map.1 (List.mem_filter.1 kept).1
  rfl

/-- A further standing adds what it paid to its own destination. -/
theorem paidTo_cons (d : Destination) (s : Standing) (standings : List Standing) :
    paidTo d (s :: standings) =
      (if s.item.destination = d then s.paid else 0) + paidTo d standings := by
  by_cases here : s.item.destination = d <;> simp [paidTo, here]

/-! ### What a round does to the standings -/

/-- Settling changes no item. -/
theorem map_item_settled : (settled available standings).map item = standings.map item := by
  induction standings generalizing available with
  | nil => rfl
  | cons s standings ih =>
    obtain ⟨item, paid, _ | left⟩ := s
    · rw [settled_cons_none, List.map_cons, ih, List.map_cons]
    · rw [settled_cons_some, List.map_cons, ih, List.map_cons]

/-- What is left after a round is what the payments leave. -/
theorem lefts_settled : lefts (settled available standings) =
    (Payment.serve available (lefts standings)).1.filterMap Payment.unpaid? := by
  induction standings generalizing available with
  | nil => rfl
  | cons s standings ih =>
    obtain ⟨item, paid, _ | left⟩ := s
    · rw [settled_cons_none]
      exact ih
    · rw [settled_cons_some]
      have rest := @ih (available.monus (min left.amount available))
      unfold lefts at rest ⊢
      rw [List.filterMap_cons, List.filterMap_cons, rest, Payment.serve, List.filterMap_cons]

/-- Settling keeps every standing balanced. -/
theorem balanced_settled (balanced : ∀ s ∈ standings, s.Balanced) :
    ∀ s ∈ settled available standings, s.Balanced := by
  induction standings generalizing available with
  | nil => exact balanced
  | cons s standings ih =>
    obtain ⟨first, rest⟩ := List.forall_mem_cons.1 balanced
    obtain ⟨item, paid, _ | left⟩ := s
    · rw [settled_cons_none]
      exact List.forall_mem_cons.2 ⟨first, ih rest⟩
    · rw [settled_cons_some]
      refine List.forall_mem_cons.2 ⟨⟨?_, ?_⟩, ih rest⟩
      · -- What was left is split into what is paid now and what is left now.
        have before : paid + left.amount.toNat = item.amount.toNat := first.amount
        have most : (min left.amount available).toNat ≤ left.amount.toNat := by
          rw [Uint256.toNat_min]
          exact Nat.min_le_left _ _
        have now := Payment.paid_add_unpaid (p := ⟨left, min left.amount available⟩) most
        dsimp only at now ⊢
        omega
      · intro rest isRest
        exact (Payment.destination_unpaid rest isRest).trans (first.destination left rfl)

/-- A round adds its payments to what was paid. -/
theorem paidTo_settled (balanced : ∀ s ∈ standings, s.Balanced) (d : Destination) :
    paidTo d (settled available standings) =
      paidTo d standings + Payment.paidTo d (Payment.serve available (lefts standings)).1 := by
  induction standings generalizing available with
  | nil => rfl
  | cons s standings ih =>
    obtain ⟨first, rest⟩ := List.forall_mem_cons.1 balanced
    obtain ⟨item, paid, _ | left⟩ := s
    · rw [settled_cons_none, paidTo_cons, paidTo_cons, ih rest, Nat.add_assoc]
      rfl
    · have same : left.destination = item.destination := first.destination left rfl
      rw [settled_cons_some, paidTo_cons, paidTo_cons, ih rest]
      show _ = _ + Payment.paidTo d (Payment.serve available (left :: lefts standings)).1
      rw [Payment.serve, Payment.paidTo_cons]
      dsimp only
      rw [same]
      by_cases here : item.destination = d
      · simp only [if_pos here]
        omega
      · simp only [if_neg here]
        omega

/-- Settling from the beginning serves the items as a payout does. -/
theorem settled_initial : settled available (initial items) =
    (Payment.serve available items).1.map ofPayment := by
  induction items generalizing available with
  | nil => rfl
  | cons item items ih =>
    show settled available (⟨item, 0, some item⟩ :: initial items) = _
    rw [settled_cons_some, ih, Nat.zero_add]
    rfl

end Standing

/-! ### Two rounds and one -/

open Standing in
/-- Items are served with some funds, new funds come in, and what is
left is served. Each item then stands as if it had been served once,
with all of the funds, and as much is left of them. -/
theorem Payment.serve_again (items : List AllocationItem) {first second all : Uint256}
    (kept : (serve first items).2.toNat ≤ second.toNat)
    (sum : all.toNat + (serve first items).2.toNat = first.toNat + second.toNat) :
    settled second ((serve first items).1.map ofPayment) = (serve all items).1.map ofPayment ∧
      (serve second ((serve first items).1.filterMap unpaid?)).2 = (serve all items).2 := by
  induction items generalizing first second all with
  | nil =>
    refine ⟨rfl, Uint256.ext ?_⟩
    change all.toNat + first.toNat = _ at sum
    show second.toNat = all.toNat
    omega
  | cons item items ih =>
    by_cases enough : item.amount ≤ first
    · -- Paid in full by the first round, and so by the only one.
      have before : serve first (item :: items) = _ := serve_cons_of_le enough
      rw [before] at kept sum ⊢
      dsimp only at kept sum
      have after : item.amount ≤ all := Nat.le_trans enough (by omega)
      have sum' : (all.monus item.amount).toNat +
          (serve (first.monus item.amount) items).2.toNat =
          (first.monus item.amount).toNat + second.toNat := by
        have le := Uint256.le_iff.1 enough
        have le' := Uint256.le_iff.1 after
        rw [Uint256.toNat_monus, Uint256.toNat_monus]
        omega
      obtain ⟨rest, left⟩ := ih kept sum'
      rw [serve_cons_of_le after]
      refine ⟨?_, ?_⟩
      · rw [List.map_cons, List.map_cons, ← rest, ofPayment, unpaid?_full, settled_cons_none]
      · rw [List.filterMap_cons, unpaid?_full]
        exact left
    · -- The first round stops here and the second one takes over.
      have short : first < item.amount := Nat.lt_of_not_le enough
      have before : serve first (item :: items) = _ := serve_cons_of_lt short
      have nothing : (serve .zero items).2.toNat = 0 := by
        rw [left_serve, Uint256.toNat_zero, Nat.zero_sub]
      have missing : first.toNat < item.amount.toNat := short
      rw [before] at kept sum ⊢
      dsimp only at kept sum
      have sum' : (all.monus (min item.amount all)).toNat + (serve .zero items).2.toNat =
          Uint256.zero.toNat + (second.monus (min (item.amount.monus first) second)).toNat := by
        simp only [Uint256.toNat_monus, Uint256.toNat_min, Uint256.toNat_zero]
        omega
      obtain ⟨rest, left⟩ := ih (by omega) sum'
      have paid : first.toNat + (min (item.amount.monus first) second).toNat =
          (min item.amount all).toNat := by
        simp only [Uint256.toNat_monus, Uint256.toNat_min]
        omega
      have unpaid : unpaid? ⟨⟨item.destination, item.amount.monus first⟩,
          min (item.amount.monus first) second⟩ = unpaid? ⟨item, min item.amount all⟩ :=
        unpaid?_congr rfl (by
          simp only [Uint256.toNat_monus, Uint256.toNat_min]
          omega)
      refine ⟨?_, ?_⟩
      · rw [List.map_cons, ofPayment, unpaid?_of_lt short, settled_cons_some, paid, unpaid, rest]
        rfl
      · rw [List.filterMap_cons, unpaid?_of_lt short, serve]
        exact left

namespace Standing

variable {items : List AllocationItem} {standings : List Standing} {held funds : Nat}

/-- Some payouts were made of the items. Whatever comes in from now on,
after one payout more each item stands as if that had been the only
one, with all the funds that ever came in, and as much is left.

`held` is what is there now, and `funds` is what came in so far. -/
def Interim (items : List AllocationItem) (standings : List Standing) (held funds : Nat) : Prop :=
  ∀ (new : Nat) (available all : Uint256),
    available.toNat = held + new → all.toNat = funds + new →
      settled available standings = (Payment.serve all items).1.map ofPayment ∧
        (Payment.serve available (lefts standings)).2 = (Payment.serve all items).2

/-- The beginning is an interim state in which nothing is paid out. -/
theorem interim_initial (items : List AllocationItem) (funds : Nat) :
    Interim items (initial items) funds funds := by
  intro new available all isAvailable isAll
  obtain rfl : available = all := Uint256.ext (isAvailable.trans isAll.symm)
  rw [lefts_initial]
  exact ⟨settled_initial, rfl⟩

/-- New funds come in. -/
theorem Interim.add (h : Interim items standings held funds) (new : Nat) :
    Interim items standings (held + new) (funds + new) := by
  intro more available all isAvailable isAll
  exact h (new + more) available all (by omega) (by omega)

/-- A payout is made. -/
theorem Interim.settled {available all : Uint256} (h : Interim items standings held funds)
    (isAvailable : available.toNat = held) (isAll : all.toNat = funds) :
    Interim items (settled available standings)
      (Payment.serve available (lefts standings)).2.toNat funds := by
  obtain ⟨stand, left⟩ := h 0 available all isAvailable isAll
  rw [stand, left]
  intro new second all' isSecond isAll'
  have row : lefts ((Payment.serve all items).1.map ofPayment) =
      (Payment.serve all items).1.filterMap Payment.unpaid? := by
    rw [lefts, List.filterMap_map]
    rfl
  rw [row]
  exact Payment.serve_again items (by omega) (by omega)

end Standing

end StateChannels
