import Mathlib.Data.List.Basic
import StateChannels.Proofs.Adjudicator.Payments
import StateChannels.Proofs.Allocation.Amounts

/-!
# `StateChannels.Proofs.Adjudicator.Shares`: what each item is paid

A payout serves items one after the other, and hands on what is left of the
funds. What an item is paid can be said without that: it is paid its amount,
or what the amounts of the items before it leave of the funds.

* `Payment.shares`: the payments of all items in this form.
  `Payment.serve_eq_shares` says that they are those of a payout.
* `Adjudicator.heldAfter`: what is held for a destination after a payout, by
  the shares alone. `exists_addCredits_iff` says that credits can be added
  exactly if what they make for each destination is in range.
* `Adjudicator.payout_waterfall`: what a payout returns and writes, and when
  there is none.
-/

set_option autoImplicit false

namespace StateChannels

open Allocation (sumOf)

namespace Payment

/-- What an item is paid, if the items before it ask for so much. -/
def inTurn (funds : Uint256) (before : Nat) (item : AllocationItem) : Payment :=
  ⟨item, min item.amount.toNat (funds.toNat - before),
    Nat.lt_of_le_of_lt (Nat.min_le_left ..) item.amount.toNat_lt⟩

/-- What each of the items is paid. -/
def shares (funds : Uint256) (items : List AllocationItem) : List Payment :=
  items.mapIdx fun j item => inTurn funds (sumOf (items.take j)) item

/-- What is left of the items that are not paid in full. -/
def remainder (payments : List Payment) : List AllocationItem :=
  (payments.filter fun p => p.paid < p.item.amount).map fun p =>
    ⟨p.item.destination, p.item.amount.monus p.paid⟩

/-- The payments to external addresses. -/
def toAddresses (assetHolder : Address) (id : Hash) (payments : List Payment) :
    List Withdrawal :=
  (payments.filter fun p => p.paid ≠ .zero).filterMap fun p =>
    p.item.destination.address?.map fun recipient => ⟨assetHolder, id, recipient, p.paid⟩

variable {funds : Uint256} {items : List AllocationItem} {payments : List Payment}

/-- Serving items in order pays each its share. -/
theorem serve_eq_shares : (serve funds items).1 = shares funds items := by
  induction items generalizing funds with
  | nil => rfl
  | cons item items ih =>
    have first : (⟨item, min item.amount funds⟩ : Payment) = inTurn funds 0 item :=
      congrArg (Payment.mk item) (Uint256.ext (Uint256.toNat_min ..))
    -- The items after the first one ask for as much less as it was paid.
    have later : ∀ before next, inTurn (funds.monus (min item.amount funds)) before next =
        inTurn funds (item.amount.toNat + before) next := by
      intro before next
      have rest : (funds.monus (min item.amount funds)).toNat - before =
          funds.toNat - (item.amount.toNat + before) := by
        rw [Uint256.toNat_monus, Uint256.toNat_min]
        omega
      simp only [inTurn, rest]
    rw [serve, ih, shares, shares, List.mapIdx_cons, List.take_zero, Allocation.sumOf_nil, ← first]
    simp only [later, List.take_succ_cons, Allocation.sumOf_cons]

/-- What payments leave is the remainder. -/
theorem filterMap_unpaid? : payments.filterMap unpaid? = remainder payments := by
  induction payments with
  | nil => rfl
  | cons p payments ih =>
    by_cases short : p.paid < p.item.amount <;> simp [remainder, unpaid?, short] at ih ⊢ <;>
      exact ih

/-- The withdrawals of payments are those to addresses. -/
theorem filterMap_withdrawal? (assetHolder : Address) (id : Hash) :
    payments.filterMap (withdrawal? assetHolder id) = toAddresses assetHolder id payments := by
  unfold toAddresses
  rw [List.filterMap_filter]
  refine List.filterMap_congr fun p _ => ?_
  unfold withdrawal?
  by_cases none : p.paid = .zero <;> simp [none]

end Payment

/-- The entry after a payout with these funds. -/
def AssetOutcome.afterPayout (funds : Uint256) (asset : AssetOutcome) : AssetOutcome :=
  match asset.content with
  | .allocation a =>
    { asset with
      content := .allocation ⟨Payment.remainder (Payment.shares funds a.items)⟩ }
  | .guarantee _ => asset

/-- What a payout with these funds gives to external addresses. -/
def AssetOutcome.withdrawals (id : Hash) (funds : Uint256) (asset : AssetOutcome) :
    List Withdrawal :=
  match asset.content with
  | .allocation a => Payment.toAddresses asset.assetHolder id (Payment.shares funds a.items)
  | .guarantee _ => []

namespace Adjudicator

open Transaction (commit_look_bind commit_see_bind)

variable {adj next : Adjudicator} {id : Hash} {o left : Outcome} {a : Address} {d : Destination}
  {t : Table (Address × Destination) Uint256}

/-- What the items of an asset holder are paid out of the funds of the
channel. -/
def sharesOf (adj : Adjudicator) (id : Hash) (o : Outcome) (a : Address) : List Payment :=
  Payment.shares (adj.held a (.ofChannel id)) (o.itemsOf a)

/-- What is held for a destination after a payout. The channel is left with
what is not paid, and has what is paid to it. Other channels have more by what
is paid to them. What goes to an external address is not held any more. -/
def heldAfter (adj : Adjudicator) (id : Hash) (o : Outcome) (a : Address) (d : Destination) :
    Nat :=
  let held := (adj.held a d).toNat
  let shares := adj.sharesOf id o a
  if d = .ofChannel id then
    held - (shares.map fun p => p.paid.toNat).sum + Payment.paidTo d shares
  else if d.isExternal then held
  else held + Payment.paidTo d shares

/-- The outcome that a payout leaves, entry by entry. -/
theorem remaining_eq_afterPayout (adj : Adjudicator) (id : Hash) (o : Outcome) :
    (adj.remaining id o).assets = o.assets.map fun asset =>
      asset.afterPayout (adj.held asset.assetHolder (.ofChannel id)) := by
  refine List.map_congr_left ?_
  rintro ⟨b, content⟩ -
  cases content with
  | allocation allocation =>
    show AssetOutcome.mk b (.allocation ⟨List.filterMap _ (Payment.serve _ _).1⟩) = _
    rw [Payment.serve_eq_shares, Payment.filterMap_unpaid?]
    rfl
  | guarantee => rfl

/-- The withdrawals that a payout makes, entry by entry. -/
theorem withdrawals_payouts (adj : Adjudicator) (id : Hash) (o : Outcome) :
    (adj.payouts id o).flatMap (AssetPayout.withdrawals id) = o.assets.flatMap fun asset =>
      asset.withdrawals id (adj.held asset.assetHolder (.ofChannel id)) := by
  unfold payouts
  induction o.assets with
  | nil => rfl
  | cons asset assets ih =>
    obtain ⟨b, content⟩ := asset
    rw [List.flatMap_cons, ← ih]
    cases content with
    | allocation allocation =>
      show (Payment.serve _ _).1.filterMap _ ++ _ = _
      rw [Payment.serve_eq_shares, Payment.filterMap_withdrawal?]
      rfl
    | guarantee => rfl

/-! ### Credits -/

/-- Credits can be added exactly if what they make for each destination is in
range. -/
theorem exists_addCredits_iff {credits : List ((Address × Destination) × Uint256)} :
    (∃ t', credits.foldlM addCredit t = .ok t') ↔
      ∀ a d, amountIn t a d + (credits.map (creditFor a d)).sum < 2 ^ 256 := by
  constructor
  · rintro ⟨t', added⟩ a d
    rw [← amountIn_addCredits added]
    exact Uint256.toNat_lt _
  · intro small
    induction credits generalizing t with
    | nil => exact ⟨t, rfl⟩
    | cons credit credits ih =>
      obtain ⟨⟨b, e⟩, amount⟩ := credit
      have room : amountIn t b e + amount.toNat < 2 ^ 256 := by
        have here : creditFor b e ((b, e), amount) = amount.toNat := if_pos rfl
        have whole := small b e
        rw [List.map_cons, List.sum_cons, here] at whole
        omega
      have first : addCredit t ((b, e), amount) = .ok (t.insert (b, e) ⟨_, room⟩) :=
        addCredit_eq_ok_iff.2 ⟨_, rfl, rfl⟩
      -- One credit and the others make what they all make together.
      have same : ∀ a d, amountIn (t.insert (b, e) ⟨_, room⟩) a d =
          amountIn t a d + creditFor a d ((b, e), amount) := by
        intro a d
        have one : [((b, e), amount)].foldlM addCredit t = .ok (t.insert (b, e) ⟨_, room⟩) :=
          bind_eq_ok_iff.2 ⟨_, first, rfl⟩
        simpa using amountIn_addCredits one a d
      obtain ⟨t', others⟩ := ih (t := t.insert (b, e) ⟨_, room⟩) fun a d => by
        rw [same, Nat.add_assoc]
        exact small a d
      exact ⟨t', bind_eq_ok_iff.2 ⟨_, first, others⟩⟩

/-- If they can not be added, then because of an amount. -/
theorem overflow_of_addCredits {credits : List ((Address × Destination) × Uint256)}
    {e : AllocationError} (failed : credits.foldlM addCredit t = .error e) : e = .overflow := by
  induction credits generalizing t with
  | nil => cases failed
  | cons credit credits ih =>
    rw [List.foldlM_cons, bind_eq_error_iff] at failed
    rcases failed with first | ⟨t', -, others⟩
    · rcases bind_eq_error_iff.1 first with added | ⟨sum, -, inserted⟩
      · unfold Uint256.addOrRefuse at added
        split at added
        · cases added
        · exact (Except.error.inj added).symm
      · cases inserted
    · exact ih others

/-! ### The funds -/

/-- What the debits leave and what the credits add make what is held after a
payout. -/
theorem debits_add_credits (internal : (Destination.ofChannel id).isExternal = false)
    (distinct : (o.assets.map AssetOutcome.assetHolder).Nodup) (a : Address) (d : Destination) :
    amountIn ((adj.payouts id o).foldl (debit id) adj.holdings) a d +
        (((adj.payouts id o).flatMap AssetPayout.credits).map (creditFor a d)).sum =
      adj.heldAfter id o a d := by
  have paid : ((adj.payouts id o).filter fun p => p.assetHolder = a).flatMap
      AssetPayout.payments = adj.sharesOf id o a :=
    (payments_eq distinct a).trans Payment.serve_eq_shares
  rw [creditFor_credits, paid]
  by_cases own : d = .ofChannel id
  · subst own
    -- What the items are paid is missing in the end.
    have served := Payment.paid_serve (adj.held a (.ofChannel id)) (o.itemsOf a)
    have left := Payment.left_serve (adj.held a (.ofChannel id)) (o.itemsOf a)
    rw [Payment.serve_eq_shares] at served
    have rest : (Payment.serve (adj.held a (.ofChannel id)) (o.itemsOf a)).2.toNat =
        (adj.held a (.ofChannel id)).toNat -
          ((adj.sharesOf id o a).map fun p => p.paid.toNat).sum := by
      rw [left, sharesOf, served]
      omega
    rw [amountIn_debits_self distinct, rest, heldAfter, if_pos rfl, internal]
    rfl
  · rw [amountIn_debits_of_ne _ own, heldAfter, if_neg own]
    show (adj.held a d).toNat + _ = _
    split <;> rfl

/-- There are holdings after a payout if all of them are in range. -/
theorem exists_holdingsAfter_iff (internal : (Destination.ofChannel id).isExternal = false)
    (distinct : (o.assets.map AssetOutcome.assetHolder).Nodup) :
    (∃ t, adj.holdingsAfter id (adj.payouts id o) = .ok t) ↔
      ∀ a d, adj.heldAfter id o a d < 2 ^ 256 := by
  simp only [← debits_add_credits internal distinct]
  exact exists_addCredits_iff

/-- What a payout returns and writes: `left` remains of the outcome `o`, and
`next` is the chain after it. -/
structure PaidOut (adj : Adjudicator) (id : Hash) (o left : Outcome) (next : Adjudicator) :
    Prop where
  /-- The entries stay in their order. Of an allocation there remains what is
  not paid. -/
  remains : left.assets = o.assets.map fun asset =>
    asset.afterPayout (adj.held asset.assetHolder (.ofChannel id))
  /-- What is paid to external addresses is withdrawn, in the order of the
  items. -/
  withdrawals : next.withdrawals = adj.withdrawals ++ o.assets.flatMap fun asset =>
    asset.withdrawals id (adj.held asset.assetHolder (.ofChannel id))
  holdings : ∀ a d, (next.held a d).toNat = adj.heldAfter id o a d
  /-- The digest of what remains takes the place of the old one. -/
  storage : next.storage id = { adj.storage id with outcomeHash := left.hash }
  others : ∀ other, other ≠ id → next.storage other = adj.storage other
  clock : next.clock = adj.clock
  apps : next.apps = adj.apps

/-- Every payout that succeeds pays out as described. -/
theorem paidOut_of_payout (internal : (Destination.ofChannel id).isExternal = false)
    (distinct : (o.assets.map AssetOutcome.assetHolder).Nodup)
    (paid : adj.payout id o = .ok (left, next)) : adj.PaidOut id o left next := by
  have storage := storage_payout paid
  obtain ⟨-, -, t, added, rfl, rfl⟩ := payout_eq_ok_iff.1 paid
  exact {
    remains := remaining_eq_afterPayout adj id o
    withdrawals := congrArg (adj.withdrawals ++ ·) (withdrawals_payouts adj id o)
    holdings := fun a d =>
      (amountIn_addCredits added a d).trans (debits_add_credits internal distinct a d)
    storage := (storage id).trans (if_pos rfl)
    others := fun other ne => (storage other).trans (if_neg ne)
    clock := rfl
    apps := rfl }

/-- The payout of a final channel under the stored outcome can fail only for
an amount. -/
theorem payout_eq_overflow (final : adj.status id = .finalized)
    (stored : o.hash = (adj.storage id).outcomeHash)
    (none : ¬∃ t, adj.holdingsAfter id (adj.payouts id o) = .ok t) :
    adj.payout id o = .error (.refused (.allocation .overflow)) := by
  cases added : adj.holdingsAfter id (adj.payouts id o) with
  | ok t => exact absurd ⟨t, added⟩ none
  | error e =>
    obtain rfl := overflow_of_addCredits added
    unfold payout Transaction.payout
    -- Neither check refuses, so the amounts are what is looked up next.
    rw [commit_see_bind, commit_see_bind, if_neg (not_not_intro final),
      if_neg (not_not_intro stored), commit_see_bind, commit_see_bind, commit_look_bind,
      show adj.holdingsAfter id (o.assets.filterMap (adj.assetPayout? id)) = _ from added]
    rfl

/-- A payout is a waterfall. Let a channel be final, with an id that is not
the form of an address, and let `o` be the stored outcome, with distinct asset
holders. If what the waterfall makes is in range for each destination, then
the payout succeeds, and returns and writes what the waterfall makes. If it is
not, the payout is refused for that. -/
theorem payout_waterfall (internal : (Destination.ofChannel id).isExternal = false)
    (final : adj.status id = .finalized) (stored : o.hash = (adj.storage id).outcomeHash)
    (distinct : (o.assets.map AssetOutcome.assetHolder).Nodup) :
    (∀ left next, adj.payout id o = .ok (left, next) → adj.PaidOut id o left next) ∧
      ((∃ left next, adj.payout id o = .ok (left, next)) ↔
        ∀ a d, adj.heldAfter id o a d < 2 ^ 256) ∧
      (adj.payout id o = .error (.refused (.allocation .overflow)) ↔
        ∃ a d, 2 ^ 256 ≤ adj.heldAfter id o a d) := by
  have inRange : (∃ t, adj.holdingsAfter id (adj.payouts id o) = .ok t) ↔
      ∀ a d, adj.heldAfter id o a d < 2 ^ 256 :=
    exists_holdingsAfter_iff internal distinct
  have succeeds : (∃ left next, adj.payout id o = .ok (left, next)) ↔
      ∀ a d, adj.heldAfter id o a d < 2 ^ 256 := by
    rw [← inRange]
    constructor
    · rintro ⟨left, next, paid⟩
      obtain ⟨-, -, t, added, -, -⟩ := payout_eq_ok_iff.1 paid
      exact ⟨t, added⟩
    · rintro ⟨t, added⟩
      exact ⟨_, _, payout_eq_ok_iff.2 ⟨final, stored, t, added, rfl, rfl⟩⟩
  refine ⟨fun _ _ => paidOut_of_payout internal distinct, succeeds, ?_⟩
  constructor
  -- A payout that is refused for its sums has a sum that is too large, since else it would
  -- succeed.
  · intro refused
    by_contra small
    simp only [not_exists, Nat.not_le] at small
    obtain ⟨left, next, paid⟩ := succeeds.2 small
    rw [refused] at paid
    cases paid
  · rintro ⟨a, d, large⟩
    refine payout_eq_overflow final stored fun added => ?_
    exact absurd (inRange.1 added a d) (Nat.not_lt.2 large)

namespace Sample

/-- A channel that is final. -/
def basin : Hash := ⟨.replicate 32 3⟩

/-- A channel that it pays. -/
def sea : Destination := ⟨.replicate 32 4⟩

/-- Ten units for Alice, two for the channel itself and ten for another one. -/
def cascade : Outcome :=
  ⟨[⟨.zero, .allocation
    ⟨[⟨.ofAddress alice, ten⟩, ⟨.ofChannel basin, ⟨2, by decide⟩⟩, ⟨sea, ten⟩]⟩⟩]⟩

/-- The chain on which the channel was concluded, with sixteen units. -/
def filled : Adjudicator :=
  { chain.setStorage basin (.concluded 1 cascade) with
    holdings := Table.insert ∅ (.zero, .ofChannel basin) ⟨16, by decide⟩ }

/-- Alice is paid, and two units stay with the channel. Four are left for the
other channel, so six remain. -/
theorem payout_waterfall_sixteen :
    ∃ left next, filled.payout basin cascade = .ok (left, next) ∧
      left.assets = [⟨.zero, .allocation ⟨[⟨sea, ⟨6, by decide⟩⟩]⟩⟩] ∧
      next.withdrawals = [⟨.zero, basin, alice, ten⟩] ∧
      (next.held .zero (.ofChannel basin)).toNat = 2 ∧ (next.held .zero sea).toNat = 4 := by
  have isConcluded : filled.storage basin = .concluded 1 cascade :=
    (storage_setStorage chain basin basin (.concluded 1 cascade)).trans (if_pos rfl)
  have final : filled.status basin = .finalized := by
    rw [status, isConcluded]
    rfl
  have stored : cascade.hash = (filled.storage basin).outcomeHash := by
    rw [isConcluded]
    rfl
  have distinct : (cascade.assets.map AssetOutcome.assetHolder).Nodup := by decide
  have paid : filled.payout basin cascade = .ok _ :=
    payout_eq_ok_iff.2 ⟨final, stored, _, by rfl, rfl, rfl⟩
  obtain ⟨paidOut, -, -⟩ := payout_waterfall (by decide) final stored distinct
  have written := paidOut _ _ paid
  refine ⟨_, _, paid, written.remains.trans ?_, written.withdrawals.trans ?_,
    (written.holdings _ _).trans ?_, (written.holdings _ _).trans ?_⟩
  · decide +kernel
  · decide +kernel
  · decide +kernel
  · decide +kernel

end Sample

end Adjudicator

end StateChannels
