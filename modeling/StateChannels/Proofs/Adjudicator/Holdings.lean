import Mathlib.Algebra.BigOperators.Finprod
import StateChannels.Proofs.Adjudicator.Calls

/-!
# `StateChannels.Proofs.Adjudicator.Holdings`: what the calls do to the funds

The funds of an asset holder are its holdings for all destinations
(`totalIn`) and what was withdrawn (`withdrawnIn`). A deposit adds to
the holdings what the caller pays. A payout moves funds. It takes them
from the channel, and gives them to external addresses and to other
channels.

A payout serves each allocation of the outcome from what the channel
holds before the payout. When the outcome has several allocations for
one asset holder, each is served from the same funds, and the channel
is left with what the last one leaves. So what the others pay is paid
from nothing (`overpaid`). `balance_payout` says that this is all that
a payout adds to the funds.
-/

set_option autoImplicit false

namespace StateChannels

/-- The sum of the amounts. -/
def Allocation.amount (allocation : Allocation) : Nat :=
  (allocation.items.map fun item => item.amount.toNat).sum

/-- The allocations of an outcome for one asset holder. -/
def Outcome.allocationsOf (outcome : Outcome) (a : Address) : List Allocation :=
  (outcome.assets.filter fun asset => asset.assetHolder = a).filterMap
    fun asset => asset.content.allocation?

/-! ### Serving items -/

/-- The items are paid what is there, up to what they are worth. -/
theorem Payment.paid_serve (available : Uint256) (items : List AllocationItem) :
    ((serve available items).1.map fun p => p.paid.toNat).sum =
      min available.toNat (items.map fun item => item.amount.toNat).sum := by
  induction items generalizing available with
  | nil => simp [serve]
  | cons item items ih =>
    rw [serve, List.map_cons, List.sum_cons, ih, List.map_cons, List.sum_cons,
      Uint256.toNat_monus, Uint256.toNat_min]
    omega

/-- Serving items leaves what their amounts do not use up. -/
theorem Payment.left_serve (available : Uint256) (items : List AllocationItem) :
    (serve available items).2.toNat =
      available.toNat - (items.map fun item => item.amount.toNat).sum := by
  induction items generalizing available with
  | nil => simp [serve]
  | cons item items ih =>
    rw [serve, ih, List.map_cons, List.sum_cons, Uint256.toNat_monus, Uint256.toNat_min]
    omega

/-- What a payout in one asset pays, to whomever. -/
def AssetPayout.paid (p : AssetPayout) : Nat := (p.payments.map fun m => m.paid.toNat).sum

/-- The credits that a payout in one asset gives to channels. -/
def AssetPayout.credits (p : AssetPayout) : List ((Address × Destination) × Uint256) :=
  p.payments.filterMap (Payment.credit? p.assetHolder)

namespace Adjudicator

/-! ### Sums over all destinations -/

/-- What the table has for a destination with an asset holder. -/
def amountIn (t : Table (Address × Destination) Uint256) (a : Address) (d : Destination) : Nat :=
  ((t.get? (a, d)).getD .zero).toNat

/-- What the table has with an asset holder, over all destinations. -/
noncomputable def totalIn (t : Table (Address × Destination) Uint256) (a : Address) : Nat :=
  ∑ᶠ d, amountIn t a d

variable (t : Table (Address × Destination) Uint256) (a : Address) (d : Destination)

/-- Only destinations with a row in the table count. -/
theorem finite_support_amountIn : (Function.support (amountIn t a)).Finite := by
  refine (t.keys.map Prod.snd).finite_toSet.subset ?_
  intro d nonzero
  cases row : t.rows.find? fun row => row.1 = (a, d) with
  | none => simp [amountIn, Table.get?, row] at nonzero
  | some r =>
    have key : r.1 = (a, d) := by simpa using List.find?_some row
    have member : r.1 ∈ t.keys := List.mem_map_of_mem (List.mem_of_find?_eq_some row)
    exact List.mem_map.2 ⟨r.1, member, by rw [key]⟩

/-- When a function changes at one point, its sum changes by as much. -/
theorem finsum_add_of_eq_elsewhere {ι : Type} {f g : ι → Nat} {i : ι}
    (finite : (Function.support f).Finite) (same : ∀ j, j ≠ i → g j = f j) :
    ∑ᶠ j, g j + f i = ∑ᶠ j, f j + g i := by
  classical
  -- Both sums range over the support of `f` and the one point more.
  have inside : Function.support f ⊆ (insert i finite.toFinset : Finset ι) := by
    intro j nonzero
    simp [Function.mem_support.1 nonzero]
  have inside' : Function.support g ⊆ (insert i finite.toFinset : Finset ι) := by
    intro j nonzero
    by_cases here : j = i
    · simp [here]
    · rw [Function.mem_support, same j here] at nonzero
      simp [nonzero]
  have rest : ∑ j ∈ (insert i finite.toFinset).erase i, g j =
      ∑ j ∈ (insert i finite.toFinset).erase i, f j :=
    Finset.sum_congr rfl fun j member => same j (Finset.ne_of_mem_erase member)
  rw [finsum_eq_sum_of_support_subset f inside, finsum_eq_sum_of_support_subset g inside',
    ← Finset.add_sum_erase _ f (Finset.mem_insert_self i _),
    ← Finset.add_sum_erase _ g (Finset.mem_insert_self i _), rest]
  omega

/-- Setting an amount changes it for its own asset holder and destination. -/
theorem amountIn_insert (a' : Address) (d' : Destination) (v : Uint256) :
    amountIn (t.insert (a', d') v) a d =
      if a = a' ∧ d = d' then v.toNat else amountIn t a d := by
  unfold amountIn
  rw [Table.get?_insert]
  by_cases same : a = a' ∧ d = d'
  · rw [if_pos (Prod.ext same.1 same.2), if_pos same]
    rfl
  · rw [if_neg fun e => same (Prod.mk.inj e), if_neg same]

/-- A new amount takes the place of the old one in the total. -/
theorem totalIn_insert (v : Uint256) :
    totalIn (t.insert (a, d) v) a + amountIn t a d = totalIn t a + v.toNat := by
  have h := finsum_add_of_eq_elsewhere (g := amountIn (t.insert (a, d) v) a)
    (finite_support_amountIn t a) (i := d) fun j other => by
      rw [amountIn_insert, if_neg fun same => other same.2]
  rwa [amountIn_insert t a d, if_pos ⟨rfl, rfl⟩] at h

/-- Setting an amount leaves the totals of other asset holders. -/
theorem totalIn_insert_of_ne {a' : Address} (ne : a ≠ a') (v : Uint256) :
    totalIn (t.insert (a', d) v) a = totalIn t a := by
  have same : amountIn (t.insert (a', d) v) a = amountIn t a := by
    funext j
    rw [amountIn_insert, if_neg fun same => ne same.1]
  rw [totalIn, same, totalIn]

/-! ### Debits and credits -/

/-- What was withdrawn from an asset holder. -/
def withdrawnIn (a : Address) (withdrawals : List Withdrawal) : Nat :=
  ((withdrawals.filter fun w => w.assetHolder = a).map fun w => w.amount.toNat).sum

/-- What the credits give to the channels that an asset holder keeps
funds for. -/
def creditedIn (a : Address) (credits : List ((Address × Destination) × Uint256)) : Nat :=
  ((credits.filter fun credit => credit.1.1 = a).map fun credit => credit.2.toNat).sum

/-- The holdings after the channel `id` is left with what a payout
leaves. -/
def debit (id : Hash) (t : Table (Address × Destination) Uint256) (p : AssetPayout) :
    Table (Address × Destination) Uint256 :=
  t.insert (p.assetHolder, .ofChannel id) p.left

variable {t : Table (Address × Destination) Uint256} {a : Address} {id : Hash}

/-- A credit is added when the sum fits a word. -/
theorem addCredit_eq_ok_iff {d : Destination} {amount : Uint256}
    {t' : Table (Address × Destination) Uint256} :
    addCredit t ((a, d), amount) = .ok t' ↔
      ∃ sum : Uint256, sum.toNat = amountIn t a d + amount.toNat ∧ t' = t.insert (a, d) sum := by
  simp only [addCredit, bind_eq_ok_iff, Uint256.addOrRefuse_eq_ok_iff, amountIn, pure,
    Except.pure, Except.ok.injEq, @eq_comm _ t']

/-- Credits raise the total of an asset holder by what they are worth there. -/
theorem totalIn_addCredits {credits : List ((Address × Destination) × Uint256)}
    {t' : Table (Address × Destination) Uint256} (h : credits.foldlM addCredit t = .ok t') :
    totalIn t' a = totalIn t a + creditedIn a credits := by
  induction credits generalizing t with
  | nil =>
    cases h
    rfl
  | cons credit credits ih =>
    obtain ⟨⟨b, d⟩, amount⟩ := credit
    rw [List.foldlM_cons, bind_eq_ok_iff] at h
    obtain ⟨t₁, added, rest⟩ := h
    obtain ⟨sum, sum_eq, rfl⟩ := addCredit_eq_ok_iff.1 added
    rw [ih rest]
    by_cases same : a = b
    · subst same
      have step := totalIn_insert t a d sum
      have first : creditedIn a (((a, d), amount) :: credits) =
          amount.toNat + creditedIn a credits := by
        simp [creditedIn]
      omega
    · rw [totalIn_insert_of_ne t a d same]
      simp [creditedIn, Ne.symm same]

/-- Debits change the total by as much as the funds of the channel. -/
theorem totalIn_debits (payouts : List AssetPayout) :
    totalIn (payouts.foldl (debit id) t) a + amountIn t a (.ofChannel id) =
      totalIn t a + amountIn (payouts.foldl (debit id) t) a (.ofChannel id) := by
  -- Both sides change alike when a debit is in this asset, and not at all otherwise.
  induction payouts generalizing t with
  | nil => rfl
  | cons p payouts ih =>
    have rest := @ih (debit id t p)
    rw [List.foldl_cons]
    by_cases same : a = p.assetHolder
    · have step := totalIn_insert t p.assetHolder (.ofChannel id) p.left
      have stored := amountIn_insert t p.assetHolder (.ofChannel id) p.assetHolder
        (.ofChannel id) p.left
      rw [if_pos ⟨rfl, rfl⟩] at stored
      rw [← same] at step stored
      unfold debit at rest ⊢
      rw [← same] at rest ⊢
      omega
    · have step := totalIn_insert_of_ne t a (.ofChannel id) same p.left
      have stored := amountIn_insert t a (.ofChannel id) p.assetHolder (.ofChannel id) p.left
      rw [if_neg fun both => same both.1] at stored
      unfold debit at rest ⊢
      omega

/-- The last payout in the asset counts. -/
theorem amountIn_debits (payouts : List AssetPayout) :
    amountIn (payouts.foldl (debit id) t) a (.ofChannel id) =
      ((payouts.filter fun p => p.assetHolder = a).getLast?.map fun p => p.left.toNat).getD
        (amountIn t a (.ofChannel id)) := by
  induction payouts generalizing t with
  | nil => rfl
  | cons p payouts ih =>
    rw [List.foldl_cons, ih, debit, amountIn_insert]
    by_cases same : a = p.assetHolder
    · rw [if_pos ⟨same, rfl⟩, List.filter_cons_of_pos (by simp [same]), List.getLast?_cons,
        Option.map_some, Option.getD_some, Option.getD_map]
    · rw [if_neg fun both => same both.1, List.filter_cons_of_neg (by simp [Ne.symm same])]

/-! ### A payout -/

variable {adj next : Adjudicator} {outcome left : Outcome}

/-- What a payout pays from nothing: what it pays under the allocations
for the asset holder other than the last. -/
def overpaid (adj : Adjudicator) (id : Hash) (outcome : Outcome) (a : Address) : Nat :=
  ((outcome.allocationsOf a).dropLast.map fun allocation =>
    min (adj.held a (.ofChannel id)).toNat allocation.amount).sum

/-- The payout under one allocation. -/
def payoutUnder (adj : Adjudicator) (id : Hash) (a : Address) (allocation : Allocation) :
    AssetPayout :=
  let served := Payment.serve (adj.held a (.ofChannel id)) allocation.items
  ⟨a, served.1, served.2⟩

/-- An allocation is paid out of the channel's holdings, as far as these go. -/
theorem paid_payoutUnder (adj : Adjudicator) (id : Hash) (a : Address) (allocation : Allocation) :
    (adj.payoutUnder id a allocation).paid =
      min (adj.held a (.ofChannel id)).toNat allocation.amount :=
  Payment.paid_serve _ _

/-- A payout leaves what the allocation does not use up. -/
theorem left_payoutUnder (adj : Adjudicator) (id : Hash) (a : Address) (allocation : Allocation) :
    (adj.payoutUnder id a allocation).left.toNat =
      (adj.held a (.ofChannel id)).toNat - allocation.amount :=
  Payment.left_serve _ _

/-- The payouts for one asset holder all start from the same funds. -/
theorem filter_payouts (adj : Adjudicator) (id : Hash) (outcome : Outcome) (a : Address) :
    ((adj.payouts id outcome).filter fun p => p.assetHolder = a) =
      (outcome.allocationsOf a).map (adj.payoutUnder id a) := by
  unfold payouts Outcome.allocationsOf
  induction outcome.assets with
  | nil => rfl
  | cons asset assets ih =>
    obtain ⟨b, content⟩ := asset
    by_cases same : b = a <;> cases content <;>
      simpa [List.filterMap_cons, assetPayout?, payoutUnder, AssetContent.allocation?, same]
        using ih

/-- The withdrawals of two lists add up. -/
theorem withdrawnIn_append (a : Address) (ws ws' : List Withdrawal) :
    withdrawnIn a (ws ++ ws') = withdrawnIn a ws + withdrawnIn a ws' := by
  simp [withdrawnIn]

/-- The credits of two lists add up. -/
theorem creditedIn_append (a : Address) (cs cs' : List ((Address × Destination) × Uint256)) :
    creditedIn a (cs ++ cs') = creditedIn a cs + creditedIn a cs' := by
  simp [creditedIn]

/-- Every payment is a withdrawal, or a credit, or zero. -/
theorem withdrawnIn_payment (a b : Address) (id : Hash) (m : Payment) :
    withdrawnIn a (m.withdrawal? b id).toList + creditedIn a (m.credit? b).toList =
      if b = a then m.paid.toNat else 0 := by
  unfold Payment.withdrawal? Payment.credit? Destination.isExternal
  by_cases nothing : m.paid = .zero
  · simp [nothing, withdrawnIn, creditedIn]
  · by_cases same : b = a <;> cases m.item.destination.address? <;>
      simp [nothing, same, withdrawnIn, creditedIn]

/-- What payments withdraw and credit at an asset holder is what they pay
there. -/
theorem withdrawnIn_payments (a b : Address) (id : Hash) (payments : List Payment) :
    withdrawnIn a (payments.filterMap (Payment.withdrawal? b id)) +
        creditedIn a (payments.filterMap (Payment.credit? b)) =
      if b = a then (payments.map fun m => m.paid.toNat).sum else 0 := by
  induction payments with
  | nil => simp [withdrawnIn, creditedIn]
  | cons m payments ih =>
    -- `filterMap` splits on the value of the function, the sums want it as a list.
    have cut : ∀ {β : Type} (f : Payment → Option β),
        (m :: payments).filterMap f = (f m).toList ++ payments.filterMap f := by
      intro β f
      cases value : f m <;> simp [value]
    have first := withdrawnIn_payment a b id m
    rw [cut, cut, withdrawnIn_append, creditedIn_append, List.map_cons, List.sum_cons]
    by_cases same : b = a
    · rw [if_pos same] at first ih ⊢
      omega
    · rw [if_neg same] at first ih ⊢
      omega

/-- What payouts withdraw and credit at an asset holder is what they pay
there. -/
theorem withdrawnIn_payouts (a : Address) (id : Hash) (payouts : List AssetPayout) :
    withdrawnIn a (payouts.flatMap (AssetPayout.withdrawals id)) +
        creditedIn a (payouts.flatMap AssetPayout.credits) =
      ((payouts.filter fun p => p.assetHolder = a).map AssetPayout.paid).sum := by
  induction payouts with
  | nil => rfl
  | cons p payouts ih =>
    have first := withdrawnIn_payments a p.assetHolder id p.payments
    rw [List.flatMap_cons, List.flatMap_cons, withdrawnIn_append, creditedIn_append]
    by_cases same : p.assetHolder = a
    · rw [List.filter_cons_of_pos (by simp [same]), List.map_cons, List.sum_cons, ← ih]
      rw [if_pos same] at first
      unfold AssetPayout.withdrawals AssetPayout.credits AssetPayout.paid at *
      omega
    · rw [List.filter_cons_of_neg (by simp [same]), ← ih]
      rw [if_neg same] at first
      unfold AssetPayout.withdrawals AssetPayout.credits at *
      omega

/-- Each allocation is served from the same funds, and the last one
decides what is left of them. -/
theorem sum_min_add_left (funds : Nat) (allocations : List Allocation) :
    (allocations.map fun allocation => min funds allocation.amount).sum +
        (allocations.getLast?.map fun allocation => funds - allocation.amount).getD funds =
      (allocations.dropLast.map fun allocation => min funds allocation.amount).sum + funds := by
  -- Taking the last one off leaves the others, and what it is paid and what it leaves is
  -- all of the funds.
  rcases List.eq_nil_or_concat allocations with rfl | ⟨others, last, rfl⟩
  · rfl
  · rw [List.concat_eq_append, List.getLast?_concat, List.dropLast_concat, List.map_append,
      List.sum_append, List.map_singleton, List.sum_singleton, Option.map_some, Option.getD_some]
    omega

/-- What an asset holder pays and what its last payout leaves are its funds
and what it overpays. -/
theorem paid_add_left (adj : Adjudicator) (id : Hash) (outcome : Outcome) (a : Address) :
    let mine := (adj.payouts id outcome).filter fun p => p.assetHolder = a
    let funds := (adj.held a (.ofChannel id)).toNat
    (mine.map AssetPayout.paid).sum + (mine.getLast?.map fun p => p.left.toNat).getD funds =
      adj.overpaid id outcome a + funds := by
  intro mine funds
  have paid : mine.map AssetPayout.paid = (outcome.allocationsOf a).map fun allocation =>
      min funds allocation.amount := by
    unfold mine
    rw [filter_payouts, List.map_map]
    exact List.map_congr_left fun allocation _ => paid_payoutUnder adj id a allocation
  have left : (mine.getLast?.map fun p => p.left.toNat) =
      (outcome.allocationsOf a).getLast?.map fun allocation => funds - allocation.amount := by
    unfold mine
    rw [filter_payouts, List.getLast?_map, Option.map_map]
    exact Option.map_congr fun allocation _ => left_payoutUnder adj id a allocation
  rw [paid, left]
  exact sum_min_add_left funds (outcome.allocationsOf a)

/-- What a payout takes from the channel, and gives away, before the two
are put together: the debited funds, the credits and the withdrawals
are the funds of before and what is paid from nothing. -/
theorem debited_add_given (adj : Adjudicator) (id : Hash) (outcome : Outcome) (a : Address) :
    totalIn ((adj.payouts id outcome).foldl (debit id) adj.holdings) a +
        creditedIn a ((adj.payouts id outcome).flatMap AssetPayout.credits) +
        withdrawnIn a ((adj.payouts id outcome).flatMap (AssetPayout.withdrawals id)) =
      totalIn adj.holdings a + adj.overpaid id outcome a := by
  have debited : totalIn ((adj.payouts id outcome).foldl (debit id) adj.holdings) a +
      (adj.held a (.ofChannel id)).toNat =
      totalIn adj.holdings a + (((adj.payouts id outcome).filter fun p =>
        p.assetHolder = a).getLast?.map fun p => p.left.toNat).getD
          (adj.held a (.ofChannel id)).toNat := by
    have := @totalIn_debits adj.holdings a id (adj.payouts id outcome)
    rwa [amountIn_debits] at this
  -- What the payouts give away is what they pay, and all but the last pay it from nothing.
  have given := withdrawnIn_payouts a id (adj.payouts id outcome)
  have served := paid_add_left adj id outcome a
  dsimp only at served
  omega

/-- A payout adds to the funds what it pays from nothing. -/
theorem balance_payout (h : adj.payout id outcome = .ok (left, next)) (a : Address) :
    totalIn next.holdings a + withdrawnIn a next.withdrawals =
      totalIn adj.holdings a + withdrawnIn a adj.withdrawals + adj.overpaid id outcome a := by
  obtain ⟨-, -, holdings, succeeds, -, rfl⟩ := payout_eq_ok_iff.1 h
  have credited : totalIn holdings a =
      totalIn ((adj.payouts id outcome).foldl (debit id) adj.holdings) a +
        creditedIn a ((adj.payouts id outcome).flatMap AssetPayout.credits) :=
    totalIn_addCredits succeeds
  have given := debited_add_given adj id outcome a
  show totalIn holdings a + withdrawnIn a (adj.withdrawals ++ _) = _
  rw [withdrawnIn_append, credited]
  omega

/-- A deposit adds to the funds what is paid. -/
theorem balance_deposit {b : Address} {d : Destination} {expected amount paid : Uint256}
    (h : adj.deposit b d expected amount = .ok (paid, next)) (a : Address) :
    totalIn next.holdings a + withdrawnIn a next.withdrawals =
      totalIn adj.holdings a + withdrawnIn a adj.withdrawals +
        if b = a then paid.toNat else 0 := by
  obtain ⟨-, -, target, -, more, rfl, rfl⟩ := deposit_eq_ok_iff.1 h
  have more : (adj.held b d).toNat < target.toNat := more
  show totalIn (adj.holdings.insert (b, d) target) a + withdrawnIn a adj.withdrawals = _
  by_cases same : a = b
  · subst same
    have step : totalIn (adj.holdings.insert (a, d) target) a + (adj.held a d).toNat =
        totalIn adj.holdings a + target.toNat := totalIn_insert adj.holdings a d target
    rw [if_pos rfl, Uint256.toNat_monus]
    omega
  · rw [totalIn_insert_of_ne _ _ _ same, if_neg (Ne.symm same)]
    rfl

/-- A deposit adds to what is held for its destination, and to nothing
else. -/
theorem held_deposit {b : Address} {d : Destination} {expected amount paid : Uint256}
    (h : adj.deposit b d expected amount = .ok (paid, next)) (a : Address) :
    (next.held a d).toNat = (adj.held a d).toNat + (if b = a then paid.toNat else 0) ∧
      ∀ e, e ≠ d → next.held a e = adj.held a e := by
  obtain ⟨-, -, target, -, more, rfl, rfl⟩ := deposit_eq_ok_iff.1 h
  have more : (adj.held b d).toNat < target.toNat := more
  constructor
  · show amountIn (adj.holdings.insert (b, d) target) a d = _
    rw [amountIn_insert, Uint256.toNat_monus]
    by_cases same : a = b
    · subst same
      rw [if_pos ⟨rfl, rfl⟩, if_pos rfl]
      omega
    · rw [if_neg fun both => same both.1, if_neg (Ne.symm same)]
      rfl
  · intro e other
    refine Uint256.ext ?_
    show amountIn (adj.holdings.insert (b, d) target) a e = _
    rw [amountIn_insert, if_neg fun both => other both.2]
    rfl

end Adjudicator

end StateChannels
