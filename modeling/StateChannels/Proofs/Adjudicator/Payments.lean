import StateChannels.Proofs.Adjudicator.Conservation
import StateChannels.Proofs.Adjudicator.Waterfall

/-!
# `StateChannels.Proofs.Adjudicator.Payments`: whom a payout pays

A payout of an outcome whose asset holders are distinct serves one list
of items for each asset holder (`Outcome.itemsOf`). What is paid to an
external address is a withdrawal, and what is paid to a channel is
added to what is held for it. So for each asset holder and destination
the payments alone say how the holdings and the withdrawals change
(`held_payout`, `withdrawnFor_payout`).

* `Outcome.withItems` is an outcome with other items in its
  allocations, and `remaining_eq` says that a payout leaves such a one.
* `exists_payout`: if what an asset holder holds for all destinations
  is in range, the payout succeeds. It gives away what it takes.
-/

set_option autoImplicit false

namespace StateChannels

/-- A destination with an address is the one of that address. -/
theorem Destination.ofAddress_of_address? {d : Destination} {recipient : Address}
    (h : d.address? = some recipient) : .ofAddress recipient = d := by
  unfold address? at h
  split at h
  · rename_i zeros
    have rest : recipient.toBytes = d.toBytes.drop 12 := by
      obtain ⟨v, read, rfl⟩ := Option.map_eq_some_iff.1 h
      exact Bytes.toVector?_eq_some_iff.1 read
    rw [← toBytes_inj, toBytes_ofAddress, rest, ← zeros, List.take_append_drop]
  · cases h

/-! ### The items of an outcome -/

/-- The entry with other items, if it is an allocation. -/
def AssetOutcome.withItems (items : Address → List AllocationItem) (asset : AssetOutcome) :
    AssetOutcome :=
  match asset.content with
  | .allocation _ => { asset with content := .allocation ⟨items asset.assetHolder⟩ }
  | .guarantee _ => asset

namespace Outcome

/-- The items of the allocation for an asset holder. Without one there
are none. -/
def itemsOf (o : Outcome) (a : Address) : List AllocationItem :=
  (o.allocationsOf a).flatMap Allocation.items

/-- The outcome with other items in its allocations. -/
def withItems (o : Outcome) (items : Address → List AllocationItem) : Outcome :=
  ⟨o.assets.map (AssetOutcome.withItems items)⟩

variable {o : Outcome} {a : Address} {items : Address → List AllocationItem}

/-- Other items leave the asset holder. -/
@[simp] theorem assetHolder_withItems (asset : AssetOutcome) :
    (asset.withItems items).assetHolder = asset.assetHolder := by
  obtain ⟨b, content⟩ := asset
  cases content <;> rfl

/-- Of two changes of the items the later one counts. -/
@[simp] theorem withItems_withItems (o : Outcome) (items' items : Address → List AllocationItem) :
    (o.withItems items').withItems items = o.withItems items := by
  unfold withItems
  rw [List.map_map]
  congr 2
  funext asset
  obtain ⟨b, content⟩ := asset
  cases content <;> rfl

/-- Other items leave the asset holders. -/
@[simp] theorem holders_withItems :
    (o.withItems items).assets.map AssetOutcome.assetHolder =
      o.assets.map AssetOutcome.assetHolder := by
  simp [withItems]

/-- Every allocation of an asset holder gets the new items. -/
theorem allocationsOf_withItems (o : Outcome) (a : Address)
    (items : Address → List AllocationItem) :
    (o.withItems items).allocationsOf a = (o.allocationsOf a).map fun _ => ⟨items a⟩ := by
  unfold withItems allocationsOf
  induction o.assets with
  | nil => rfl
  | cons asset assets ih =>
    obtain ⟨b, content⟩ := asset
    by_cases same : b = a <;> cases content <;>
      simpa [AssetOutcome.withItems, AssetContent.allocation?, same] using ih

/-- With distinct asset holders there is one allocation at most. -/
theorem allocationsOf_cases (distinct : (o.assets.map AssetOutcome.assetHolder).Nodup)
    (a : Address) :
    (o.allocationsOf a = [] ∧ o.itemsOf a = []) ∨
      ∃ allocation, o.allocationsOf a = [allocation] ∧ o.itemsOf a = allocation.items := by
  have few := Adjudicator.length_allocationsOf a distinct
  unfold itemsOf
  match o.allocationsOf a, few with
  | [], _ => exact .inl ⟨rfl, rfl⟩
  | [allocation], _ => exact .inr ⟨allocation, rfl, List.append_nil _⟩

/-- Where there were no items, there may be none now. -/
theorem itemsOf_withItems (distinct : (o.assets.map AssetOutcome.assetHolder).Nodup)
    (none : o.itemsOf a = [] → items a = []) : (o.withItems items).itemsOf a = items a := by
  rw [itemsOf, allocationsOf_withItems]
  rcases allocationsOf_cases distinct a with ⟨no, empty⟩ | ⟨allocation, one, -⟩
  · rw [no, none empty]
    rfl
  · rw [one]
    exact List.append_nil _

/-- The items of an allocation of the outcome are those of its asset
holder. -/
theorem itemsOf_of_mem (distinct : (o.assets.map AssetOutcome.assetHolder).Nodup)
    {allocation : Allocation} (member : ⟨a, .allocation allocation⟩ ∈ o.assets) :
    o.itemsOf a = allocation.items := by
  have isOne : allocation ∈ o.allocationsOf a :=
    List.mem_filterMap.2 ⟨_, List.mem_filter.2 ⟨member, by simp⟩, rfl⟩
  rcases allocationsOf_cases distinct a with ⟨no, -⟩ | ⟨other, one, isItems⟩
  · rw [no] at isOne
    cases isOne
  · rw [one] at isOne
    cases List.mem_singleton.1 isOne
    exact isItems

/-- An outcome is the one with its own items. -/
theorem withItems_itemsOf (distinct : (o.assets.map AssetOutcome.assetHolder).Nodup) :
    o.withItems o.itemsOf = o := by
  refine Outcome.ext ((List.map_congr_left ?_).trans (List.map_id _))
  rintro ⟨b, content⟩ member
  cases content with
  | allocation allocation =>
    show AssetOutcome.mk b (.allocation ⟨o.itemsOf b⟩) = _
    rw [itemsOf_of_mem distinct member]
    rfl
  | guarantee => rfl

end Outcome

namespace Adjudicator

variable {adj next : Adjudicator} {id : Hash} {o left : Outcome} {a : Address} {d : Destination}

/-- What is paid under the outcome with an asset holder. -/
def payments (adj : Adjudicator) (id : Hash) (o : Outcome) (a : Address) : List Payment :=
  ((adj.payouts id o).filter fun p => p.assetHolder = a).flatMap AssetPayout.payments

/-- With distinct asset holders, the items of each are served once. -/
theorem payments_eq (distinct : (o.assets.map AssetOutcome.assetHolder).Nodup) (a : Address) :
    adj.payments id o a =
      (Payment.serve (adj.held a (.ofChannel id)) (o.itemsOf a)).1 := by
  rw [payments, filter_payouts]
  rcases Outcome.allocationsOf_cases distinct a with ⟨no, empty⟩ | ⟨allocation, one, isItems⟩
  · rw [no, empty]
    rfl
  · rw [one, isItems]
    exact List.append_nil _

/-- What remains of an outcome is what is left of the items. -/
theorem remaining_eq (distinct : (o.assets.map AssetOutcome.assetHolder).Nodup) :
    adj.remaining id o = o.withItems fun a => (adj.payments id o a).filterMap Payment.unpaid? := by
  refine Outcome.ext (List.map_congr_left ?_)
  rintro ⟨b, content⟩ member
  cases content with
  | allocation allocation =>
    show _ = AssetOutcome.mk b (.allocation ⟨(adj.payments id o b).filterMap Payment.unpaid?⟩)
    rw [payments_eq distinct, Outcome.itemsOf_of_mem distinct member]
    rfl
  | guarantee => rfl

/-! ### Credits and withdrawals for one destination -/

/-- What a credit gives to a destination. -/
def creditFor (a : Address) (d : Destination) (credit : (Address × Destination) × Uint256) : Nat :=
  if credit.1 = (a, d) then credit.2.toNat else 0

/-- What a withdrawal from a channel gives to a destination. -/
def withdrawalFor (id : Hash) (a : Address) (d : Destination) (w : Withdrawal) : Nat :=
  if w.assetHolder = a ∧ w.channelId = id ∧ .ofAddress w.recipient = d then w.amount.toNat else 0

/-- What was withdrawn from a channel for a destination. -/
def withdrawnFor (adj : Adjudicator) (id : Hash) (a : Address) (d : Destination) : Nat :=
  (adj.withdrawals.map (withdrawalFor id a d)).sum

/-- Some payments are written down in a list of their own. If each that
counts is written with what it pays, the list has for a destination
what the payments give to it. -/
theorem sum_written {β : Type} {write? : Address → Payment → Option β} {amount : β → Nat}
    (counts : Prop) [Decidable counts]
    (written : ∀ b m, ((write? b m).map amount).getD 0 =
      if b = a ∧ m.item.destination = d ∧ counts then m.paid.toNat else 0)
    (payouts : List AssetPayout) :
    ((payouts.flatMap fun p => p.payments.filterMap (write? p.assetHolder)).map amount).sum =
      if counts then
        Payment.paidTo d ((payouts.filter fun p => p.assetHolder = a).flatMap AssetPayout.payments)
      else 0 := by
  -- First the payments of one payout, then all payouts.
  have one : ∀ (b : Address) (ms : List Payment), ((ms.filterMap (write? b)).map amount).sum =
      if b = a ∧ counts then Payment.paidTo d ms else 0 := by
    intro b ms
    induction ms with
    | nil => simp [Payment.paidTo]
    | cons m ms ih =>
      have cut : (((m :: ms).filterMap (write? b)).map amount).sum =
          ((write? b m).map amount).getD 0 + ((ms.filterMap (write? b)).map amount).sum := by
        cases value : write? b m <;> simp [value]
      rw [cut, written, ih, Payment.paidTo_cons]
      by_cases here : b = a ∧ counts
      · simp [here]
      · rw [if_neg here, if_neg here, if_neg fun all => here ⟨all.1, all.2.2⟩]
  induction payouts with
  | nil => simp [Payment.paidTo]
  | cons p payouts ih =>
    rw [List.flatMap_cons, List.map_append, List.sum_append, one, ih]
    by_cases same : p.assetHolder = a
    · by_cases counted : counts <;> simp [same, counted, Payment.paidTo]
    · simp [same]

/-- What payouts credit to a destination in the chain is what they pay to
it. -/
theorem creditFor_credits (payouts : List AssetPayout) :
    ((payouts.flatMap AssetPayout.credits).map (creditFor a d)).sum =
      if d.isExternal then 0 else
        Payment.paidTo d
          ((payouts.filter fun p => p.assetHolder = a).flatMap AssetPayout.payments) := by
  have written : ∀ b m, ((Payment.credit? b m).map (creditFor a d)).getD 0 =
      if b = a ∧ m.item.destination = d ∧ ¬d.isExternal then m.paid.toNat else 0 := by
    intro b m
    unfold Payment.credit? creditFor
    by_cases none : m.paid = .zero
    · simp [none]
    · by_cases here : m.item.destination = d
      · subst here
        by_cases isExternal : m.item.destination.isExternal <;> simp [none, isExternal]
      · split <;> simp [here]
  exact (sum_written _ written payouts).trans (ite_not _ _ _)

/-- What payouts withdraw for an external destination is what they pay to
it. -/
theorem withdrawalFor_withdrawals (payouts : List AssetPayout) :
    ((payouts.flatMap (AssetPayout.withdrawals id)).map (withdrawalFor id a d)).sum =
      if d.isExternal then
        Payment.paidTo d
          ((payouts.filter fun p => p.assetHolder = a).flatMap AssetPayout.payments)
      else 0 := by
  -- A single payment is withdrawn just if it goes to an external destination.
  have written : ∀ b m, ((Payment.withdrawal? b id m).map (withdrawalFor id a d)).getD 0 =
      if b = a ∧ m.item.destination = d ∧ d.isExternal then m.paid.toNat else 0 := by
    intro b m
    unfold Payment.withdrawal? withdrawalFor
    by_cases none : m.paid = .zero
    · simp [none]
    · cases isRecipient : m.item.destination.address? with
      | none =>
        have channel : m.item.destination = d → ¬d.isExternal := by
          rintro rfl
          simp [Destination.isExternal, isRecipient]
        simp only [if_neg none, Option.map_none, Option.getD_none]
        exact (if_neg fun all => channel all.2.1 all.2.2).symm
      | some recipient =>
        have address := Destination.ofAddress_of_address? isRecipient
        have isExternal : m.item.destination = d → d.isExternal := by
          rintro rfl
          simp [Destination.isExternal, isRecipient]
        simp only [if_neg none, Option.map_some, Option.getD_some, address, true_and]
        exact if_congr (and_congr_right fun _ => ⟨fun h => ⟨h, isExternal h⟩, And.left⟩) rfl rfl
  exact sum_written _ written payouts

/-! ### The funds after a payout -/

variable {t t' : Table (Address × Destination) Uint256}

/-- Credits raise what a destination holds by their amounts for it. -/
theorem amountIn_addCredits {credits : List ((Address × Destination) × Uint256)}
    (h : credits.foldlM addCredit t = .ok t') (a : Address) (d : Destination) :
    amountIn t' a d = amountIn t a d + (credits.map (creditFor a d)).sum := by
  induction credits generalizing t with
  | nil =>
    cases h
    rfl
  | cons credit credits ih =>
    obtain ⟨⟨b, e⟩, amount⟩ := credit
    rw [List.foldlM_cons, bind_eq_ok_iff] at h
    obtain ⟨t₁, added, rest⟩ := h
    obtain ⟨sum, sum_eq, rfl⟩ := addCredit_eq_ok_iff.1 added
    rw [ih rest, amountIn_insert, List.map_cons, List.sum_cons]
    by_cases here : a = b ∧ d = e
    · obtain ⟨rfl, rfl⟩ := here
      simp only [creditFor, and_self, if_true]
      omega
    · have other : ¬(b, e) = (a, d) := by
        rintro ⟨⟩
        exact here ⟨rfl, rfl⟩
      simp only [creditFor, if_neg here, if_neg other, Nat.zero_add]

/-- What a destination holds is part of the asset holder's total. -/
theorem amountIn_le_totalIn (t : Table (Address × Destination) Uint256) (a : Address)
    (d : Destination) : amountIn t a d ≤ totalIn t a :=
  single_le_finsum d (finite_support_amountIn t a) fun _ => Nat.zero_le _

/-- Credits can be added if the totals stay in range. -/
theorem exists_addCredits {credits : List ((Address × Destination) × Uint256)}
    (small : ∀ a, totalIn t a + creditedIn a credits < 2 ^ 256) :
    ∃ t', credits.foldlM addCredit t = .ok t' := by
  induction credits generalizing t with
  | nil => exact ⟨t, rfl⟩
  | cons credit credits ih =>
    obtain ⟨⟨b, e⟩, amount⟩ := credit
    have first : creditedIn b (((b, e), amount) :: credits) =
        amount.toNat + creditedIn b credits := by
      simp [creditedIn]
    have part := amountIn_le_totalIn t b e
    have bound := small b
    let sum : Uint256 := ⟨amountIn t b e + amount.toNat, by omega⟩
    -- The first credit uses up its own part of the room, and leaves the others theirs.
    have after : ∀ a, totalIn (t.insert (b, e) sum) a + creditedIn a credits < 2 ^ 256 := by
      intro a
      by_cases same : a = b
      · subst same
        have step : totalIn (t.insert (a, e) sum) a + amountIn t a e =
            totalIn t a + (amountIn t a e + amount.toNat) := totalIn_insert t a e sum
        omega
      · have others := small a
        rw [totalIn_insert_of_ne t a e same]
        simpa [creditedIn, Ne.symm same] using others
    obtain ⟨t', rest⟩ := ih after
    refine ⟨t', ?_⟩
    rw [List.foldlM_cons, bind_eq_ok_iff]
    exact ⟨_, addCredit_eq_ok_iff.2 ⟨sum, rfl, rfl⟩, rest⟩

/-- Debits are for the channel that is paid out. -/
theorem amountIn_debits_of_ne (payouts : List AssetPayout) (other : d ≠ .ofChannel id) :
    amountIn (payouts.foldl (debit id) t) a d = amountIn t a d := by
  induction payouts generalizing t with
  | nil => rfl
  | cons p payouts ih =>
    rw [List.foldl_cons, ih, debit, amountIn_insert, if_neg fun both => other both.2]

/-- What was withdrawn is what was before and what was paid to external
addresses. -/
theorem withdrawnFor_payout (h : adj.payout id o = .ok (left, next)) (a : Address)
    (d : Destination) :
    next.withdrawnFor id a d = adj.withdrawnFor id a d +
      if d.isExternal then Payment.paidTo d (adj.payments id o a) else 0 := by
  obtain ⟨-, -, _, -, -, rfl⟩ := payout_eq_ok_iff.1 h
  show ((adj.withdrawals ++ _).map _).sum = _
  rw [List.map_append, List.sum_append, withdrawalFor_withdrawals]
  rfl

/-- The funds after a payout are those that the debits leave, and the
payments that are credits. -/
theorem held_payout_eq (h : adj.payout id o = .ok (left, next)) (a : Address) (d : Destination) :
    (next.held a d).toNat = amountIn ((adj.payouts id o).foldl (debit id) adj.holdings) a d +
      if d.isExternal then 0 else Payment.paidTo d (adj.payments id o a) := by
  obtain ⟨-, -, holdings, succeeds, -, rfl⟩ := payout_eq_ok_iff.1 h
  have credited : amountIn holdings a d =
      amountIn ((adj.payouts id o).foldl (debit id) adj.holdings) a d +
        (((adj.payouts id o).flatMap AssetPayout.credits).map (creditFor a d)).sum :=
    amountIn_addCredits succeeds a d
  rw [creditFor_credits] at credited
  exact credited

/-- What is held for another channel is what was before and what was
paid to it. -/
theorem held_payout (h : adj.payout id o = .ok (left, next)) (a : Address)
    (other : d ≠ .ofChannel id) :
    (next.held a d).toNat = (adj.held a d).toNat +
      if d.isExternal then 0 else Payment.paidTo d (adj.payments id o a) := by
  rw [held_payout_eq h, amountIn_debits_of_ne _ other]
  rfl

/-- With distinct asset holders, the debits leave the channel with what the
payments leave. -/
theorem amountIn_debits_self (distinct : (o.assets.map AssetOutcome.assetHolder).Nodup)
    (a : Address) :
    amountIn ((adj.payouts id o).foldl (debit id) adj.holdings) a (.ofChannel id) =
      (Payment.serve (adj.held a (.ofChannel id)) (o.itemsOf a)).2.toNat := by
  rw [amountIn_debits, filter_payouts]
  rcases Outcome.allocationsOf_cases distinct a with ⟨no, empty⟩ | ⟨allocation, one, isItems⟩
  · rw [no, empty]
    rfl
  · rw [one, isItems]
    rfl

/-- If no item goes to the channel itself, that is what it has. -/
theorem held_payout_self (h : adj.payout id o = .ok (left, next))
    (distinct : (o.assets.map AssetOutcome.assetHolder).Nodup)
    (apart : ∀ item ∈ o.itemsOf a, item.destination ≠ .ofChannel id) :
    next.held a (.ofChannel id) =
      (Payment.serve (adj.held a (.ofChannel id)) (o.itemsOf a)).2 := by
  have none : Payment.paidTo (.ofChannel id) (adj.payments id o a) = 0 := by
    rw [payments_eq distinct]
    exact Payment.paidTo_serve_of_forall_ne apart
  refine Uint256.ext ?_
  rw [held_payout_eq h, amountIn_debits_self distinct, none, ite_self, Nat.add_zero]

/-! ### When a payout succeeds -/

/-- A payout under the stored outcome succeeds if what each asset
holder holds for all destinations is in range. -/
theorem exists_payout (final : adj.status id = .finalized)
    (same : o.hash = (adj.storage id).outcomeHash)
    (distinct : (o.assets.map AssetOutcome.assetHolder).Nodup)
    (small : ∀ a, totalIn adj.holdings a < 2 ^ 256) :
    ∃ next, adj.payout id o = .ok (adj.remaining id o, next) := by
  -- The debits make room for the credits: what is given was taken before.
  have room : ∀ a, totalIn ((adj.payouts id o).foldl (debit id) adj.holdings) a +
      creditedIn a ((adj.payouts id o).flatMap AssetPayout.credits) < 2 ^ 256 := by
    intro a
    have given := debited_add_given adj id o a
    have bound := small a
    rw [overpaid_of_nodup distinct] at given
    omega
  obtain ⟨holdings, succeeds⟩ := exists_addCredits room
  exact ⟨_, payout_eq_ok_iff.2 ⟨final, same, holdings, succeeds, rfl, rfl⟩⟩

/-- What is held for all destinations does not grow. -/
theorem totalIn_payout_le (h : adj.payout id o = .ok (left, next))
    (distinct : (o.assets.map AssetOutcome.assetHolder).Nodup) (a : Address) :
    totalIn next.holdings a ≤ totalIn adj.holdings a := by
  have balance := balance_payout h a
  obtain ⟨-, -, _, -, -, rfl⟩ := payout_eq_ok_iff.1 h
  have grows := withdrawnIn_append a adj.withdrawals
    ((adj.payouts id o).flatMap (AssetPayout.withdrawals id))
  rw [overpaid_of_nodup distinct] at balance
  simp only [setStorage] at balance ⊢
  omega

end Adjudicator

end StateChannels
