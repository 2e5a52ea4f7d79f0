import StateChannels.Proofs.Adjudicator.Finality
import StateChannels.Proofs.Adjudicator.Payments

/-!
# `StateChannels.Proofs.Adjudicator.Settlement`: payouts at any time

A channel is final and its funds come in bit by bit. Anyone may pay it
out at any time, and as often as they like, each time under the outcome
that the payout before left. A `Settlement` is such a run: deposits to
the channel and payouts of it, with the clock going forward.

`settles_alike` says that the times of the payouts do not matter. Two
settlements with the same deposits, each with one payout more at the
end, pay the same to everyone and leave the same. One of the two can be
a single payout after all the deposits.

The proof follows the items of each asset holder through the run
(`account`). `Position` says how the chain and the accounts belong
together, there is one lemma on it for each kind of event, and
`Settlement.position` is the induction over the run. The part that is
about payouts is `Standing.Interim`: one payout more would make all of
them equal to a single one.

Payouts do not fail on the way. They move what the channel holds, and
that and the deposits are in range (`Position.exists_payout`).
-/

set_option autoImplicit false

namespace StateChannels.Adjudicator

/-! ### Settlements -/

/-- What a call paid under the outcome of a channel with an asset
holder, if it was a payout of the channel. -/
def Entry.payments (id : Hash) (a : Address) (m : Entry) : List Payment :=
  match m.call with
  | .payout other o => if other = id then m.before.payments id o a else []
  | _ => []

/-- The items of an outcome for one asset holder, and what the payouts
of a run paid for each. -/
def account (adj : Adjudicator) (id : Hash) (o : Outcome) (a : Address) (events : List Event) :
    List Standing :=
  ((adj.journal events).map (Entry.payments id a)).foldl Standing.pay
    (Standing.initial (o.itemsOf a))

/-- What came in with an asset holder during a run. -/
def depositedIn (adj : Adjudicator) (a : Address) (events : List Event) : Nat :=
  ((adj.journal events).map (Entry.deposited a)).sum

/-- A run of deposits to a channel and of payouts of it. The first
payout is under the outcome `o`, and each one after it under the outcome
that the one before returned. The last argument is the outcome that the
next payout will be under. -/
inductive Settlement (adj : Adjudicator) (id : Hash) (o : Outcome) : List Event → Outcome → Prop
  | start : Settlement adj id o [] o
  | tick {events : List Event} {due : Outcome} {clock : Seconds}
      (h : Settlement adj id o events due) (le : (adj.run events).clock ≤ clock) :
      Settlement adj id o (events ++ [.tick clock]) due
  | deposit {events : List Event} {due : Outcome} {a : Address} {expected amount : Uint256}
      (h : Settlement adj id o events due) :
      Settlement adj id o (events ++ [.call (.deposit a (.ofChannel id) expected amount)]) due
  | payout {events : List Event} {due left : Outcome} {next : Adjudicator}
      (h : Settlement adj id o events due)
      (paid : (adj.run events).payout id due = .ok (left, next)) :
      Settlement adj id o (events ++ [.call (.payout id due)]) left

/-- The events are deposits to the channel. -/
def Deposits (id : Hash) (events : List Event) : Prop :=
  ∀ e ∈ events, ∃ a expected amount, e = .call (.deposit a (.ofChannel id) expected amount)

/-- How the chain stands in a settlement of the outcome `o` that
started on `adj`: what is still due, how the items of each asset holder
stand, and what came in. -/
structure Position (adj : Adjudicator) (id : Hash) (o : Outcome) (now : Adjudicator)
    (due : Outcome) (accounts : Address → List Standing) (came : Address → Nat) : Prop where
  final : now.status id = .finalized
  stored : due.hash = (now.storage id).outcomeHash
  due_eq : due = o.withItems fun a => Standing.lefts (accounts a)
  items : ∀ a, (accounts a).map Standing.item = o.itemsOf a
  balanced : ∀ a, ∀ s ∈ accounts a, s.Balanced
  interim : ∀ a, Standing.Interim (o.itemsOf a) (accounts a) (now.held a (.ofChannel id)).toNat
    ((adj.held a (.ofChannel id)).toNat + came a)
  held : ∀ a d, d ≠ .ofChannel id → (now.held a d).toNat =
    (adj.held a d).toNat + if d.isExternal then 0 else Standing.paidTo d (accounts a)
  withdrawn : ∀ a d, now.withdrawnFor id a d =
    adj.withdrawnFor id a d + if d.isExternal then Standing.paidTo d (accounts a) else 0
  total : ∀ a, totalIn now.holdings a ≤ totalIn adj.holdings a + came a

variable {adj now next : Adjudicator} {id : Hash} {o due left : Outcome} {events : List Event}
  {accounts : Address → List Standing} {came : Address → Nat}

/-! ### One event -/

/-- A channel that is final stays so over a call. -/
theorem finalized_submit {x : Call} {receipt : Receipt} (final : now.status id = .finalized)
    (made : now.submit x = .ok (receipt, next)) : next.status id = .finalized := by
  have still : (now.step (.call x)).status id = .finalized := by
    refine finalized_step final ?_
    rw [step_of_ok made, clock_submit made]
    exact UInt64.le_refl _
  rwa [step_of_ok made] at still

/-- Before the first event everything is due and nothing came in. -/
theorem Position.initial (final : adj.status id = .finalized)
    (stored : o.hash = (adj.storage id).outcomeHash)
    (distinct : (o.assets.map AssetOutcome.assetHolder).Nodup) :
    Position adj id o adj o (fun a => Standing.initial (o.itemsOf a)) fun _ => 0 where
  final := final
  stored := stored
  due_eq := by
    simp only [Standing.lefts_initial]
    exact (Outcome.withItems_itemsOf distinct).symm
  items := fun a => Standing.map_item_initial _
  balanced := fun a => Standing.balanced_initial
  interim := fun a => Standing.interim_initial _ _
  held := by
    intro a d _
    rw [Standing.paidTo_initial, ite_self, Nat.add_zero]
  withdrawn := by
    intro a d
    rw [Standing.paidTo_initial, ite_self, Nat.add_zero]
  total := fun a => Nat.le_refl _

/-- Time does not change how the chain stands. -/
theorem Position.tick {clock : Seconds} (p : Position adj id o now due accounts came)
    (le : now.clock ≤ clock) : Position adj id o (now.atTime clock) due accounts came where
  final := finalized_step (e := .tick clock) p.final le
  stored := p.stored
  due_eq := p.due_eq
  items := p.items
  balanced := p.balanced
  interim := p.interim
  held := p.held
  withdrawn := p.withdrawn
  total := p.total

/-- What was paid by a deposit can be paid again on another chain, on top
of what is held there. -/
theorem exists_deposit_again (now' : Adjudicator) {b : Address} {d : Destination}
    {expected amount paid : Uint256} (h : now.deposit b d expected amount = .ok (paid, next))
    (small : (now'.held b d).toNat + paid.toNat < 2 ^ 256) :
    ∃ next', now'.deposit b d (now'.held b d) paid = .ok (paid, next') := by
  obtain ⟨channel, -, target, -, more, isPaid, -⟩ := deposit_eq_ok_iff.1 h
  have some : 0 < paid.toNat := by
    rw [isPaid]
    exact Nat.sub_pos_of_lt more
  -- The deposit expects what is held on the other chain, so that all of it is new.
  let sum : Uint256 := ⟨(now'.held b d).toNat + paid.toNat, small⟩
  have difference : paid = sum.monus (now'.held b d) :=
    Uint256.ext (Nat.add_sub_cancel_left ..).symm
  exact ⟨_, deposit_eq_ok_iff.2 ⟨channel, Nat.le_refl _, sum, rfl, Nat.lt_add_of_pos_right some,
    difference, rfl⟩⟩

/-- A deposit to the channel adds to what came in, and changes nothing that
is due. -/
theorem Position.deposit {b : Address} {expected amount paid : Uint256}
    (p : Position adj id o now due accounts came)
    (h : now.deposit b (.ofChannel id) expected amount = .ok (paid, next)) :
    Position adj id o next due accounts fun a => came a + if b = a then paid.toNat else 0 := by
  have made : now.submit (.deposit b (.ofChannel id) expected amount) =
      .ok (.deposited (.ofChannel id) paid, next) := submit_of_deposit h
  have same : next.withdrawals = now.withdrawals := by
    obtain ⟨-, -, _, -, -, -, rfl⟩ := deposit_eq_ok_iff.1 h
    rfl
  -- What is due and how the items stand is the same, and the rest moves by what was paid.
  refine
    { final := ?_, stored := ?_, due_eq := p.due_eq, items := p.items, balanced := p.balanced
      interim := ?_, held := ?_, withdrawn := ?_, total := ?_ }
  · exact finalized_submit p.final made
  · rw [storage_deposit h]
    exact p.stored
  · intro a
    rw [(held_deposit h a).1, ← Nat.add_assoc]
    exact (p.interim a).add _
  · intro a d other
    rw [(held_deposit h a).2 d other]
    exact p.held a d other
  · intro a d
    rw [withdrawnFor, same]
    exact p.withdrawn a d
  · intro a
    have balance := balance_deposit h a
    have before := p.total a
    rw [same] at balance
    omega

section

variable (distinct : (o.assets.map AssetOutcome.assetHolder).Nodup)
  (p : Position adj id o now due accounts came)
include distinct p

/-! ### A payout

What is due has the asset holders of `o`, and its items are those of
which something is left. -/

/-- What is due has distinct asset holders. -/
theorem Position.distinct_due : (due.assets.map AssetOutcome.assetHolder).Nodup := by
  rw [p.due_eq, Outcome.holders_withItems]
  exact distinct

/-- What is due to the items of an asset holder is what is left of them. -/
theorem Position.itemsOf_due (a : Address) : due.itemsOf a = Standing.lefts (accounts a) := by
  rw [p.due_eq]
  refine Outcome.itemsOf_withItems distinct ?_
  intro none
  have empty : accounts a = [] := List.map_eq_nil_iff.1 ((p.items a).trans none)
  rw [empty]
  rfl

/-- The payments of what is due serve what is left of the items. -/
theorem Position.payments_eq (a : Address) : now.payments id due a =
    (Payment.serve (now.held a (.ofChannel id)) (Standing.lefts (accounts a))).1 := by
  rw [Adjudicator.payments_eq (p.distinct_due distinct), p.itemsOf_due distinct]

/-- A payout of what is due succeeds, if the funds are in range. -/
theorem Position.exists_payout (small : ∀ a, totalIn adj.holdings a + came a < 2 ^ 256) :
    ∃ left next, now.payout id due = .ok (left, next) := by
  obtain ⟨next, paid⟩ := Adjudicator.exists_payout p.final p.stored (p.distinct_due distinct)
    fun a => Nat.lt_of_le_of_lt (p.total a) (small a)
  exact ⟨_, next, paid⟩

variable (apart : ∀ a, ∀ item ∈ o.itemsOf a, item.destination ≠ .ofChannel id)
include apart

/-- What is left of an item goes where the item goes, so not to the
channel either. -/
theorem Position.apart_due (a : Address) :
    ∀ item ∈ due.itemsOf a, item.destination ≠ .ofChannel id := by
  intro item member
  rw [p.itemsOf_due distinct] at member
  obtain ⟨s, isStanding, isItem⟩ := List.mem_filterMap.1 member
  rw [(p.balanced a s isStanding).destination item isItem]
  refine apart a _ ?_
  rw [← p.items a]
  exact List.mem_map_of_mem isStanding

/-- What a payout leaves belongs to the accounts with its payments. -/
theorem Position.payout (small : ∀ a, totalIn adj.holdings a + came a < 2 ^ 256)
    (h : now.payout id due = .ok (left, next)) :
    Position adj id o next left
      (fun a => Standing.settled (now.held a (.ofChannel id)) (accounts a)) came := by
  have made : now.submit (.payout id due) = .ok (.paidOut id left, next) :=
    submit_of_payout h
  have isLeft : left = now.remaining id due := by
    obtain ⟨-, -, _, -, isLeft, -⟩ := payout_eq_ok_iff.1 h
    exact isLeft
  -- The accounts grow by the payments of this payout.
  have paid : ∀ a d, Standing.paidTo d
      (Standing.settled (now.held a (.ofChannel id)) (accounts a)) =
      Standing.paidTo d (accounts a) + Payment.paidTo d (now.payments id due a) := by
    intro a d
    rw [Standing.paidTo_settled (p.balanced a), p.payments_eq distinct]
  refine
    { final := finalized_submit p.final made
      stored := ?_, due_eq := ?_
      items := fun a => Standing.map_item_settled.trans (p.items a)
      balanced := fun a => Standing.balanced_settled (p.balanced a)
      interim := ?_, held := ?_, withdrawn := ?_, total := ?_ }
  · rw [storage_payout h, if_pos rfl]
    rfl
  · rw [isLeft, remaining_eq (p.distinct_due distinct)]
    simp only [p.payments_eq distinct, Standing.lefts_settled]
    rw [p.due_eq, Outcome.withItems_withItems]
  · intro a
    have bound := small a
    have part : amountIn adj.holdings a (.ofChannel id) ≤ totalIn adj.holdings a :=
      amountIn_le_totalIn _ _ _
    rw [held_payout_self h (p.distinct_due distinct) (p.apart_due distinct apart a),
      p.itemsOf_due distinct]
    let all : Uint256 := ⟨amountIn adj.holdings a (.ofChannel id) + came a, by omega⟩
    have isAll : all.toNat = (adj.held a (.ofChannel id)).toNat + came a := rfl
    exact (p.interim a).settled rfl isAll
  · intro a d other
    rw [held_payout h a other, p.held a d other, paid]
    split <;> omega
  · intro a d
    rw [withdrawnFor_payout h, p.withdrawn a d, paid]
    split <;> omega
  · intro a
    exact (totalIn_payout_le h (p.distinct_due distinct) a).trans (p.total a)

/-- After the payout each item stands as if it had been the only payout,
with all the funds that came in, and as much is left of them. -/
theorem Position.payout_once (h : now.payout id due = .ok (left, next)) (a : Address)
    {all : Uint256} (isAll : all.toNat = (adj.held a (.ofChannel id)).toNat + came a) :
    Standing.settled (now.held a (.ofChannel id)) (accounts a) =
        (Payment.serve all (o.itemsOf a)).1.map Standing.ofPayment ∧
      next.held a (.ofChannel id) = (Payment.serve all (o.itemsOf a)).2 := by
  rw [held_payout_self h (p.distinct_due distinct) (p.apart_due distinct apart a),
    p.itemsOf_due distinct]
  exact p.interim a 0 _ all rfl isAll

/-- Two positions in settlements of the same outcome, after the same
deposits. The next payout brings both to the same point. -/
theorem Position.payout_alike {now' next' : Adjudicator} {due' left' : Outcome}
    {accounts' : Address → List Standing} (p' : Position adj id o now' due' accounts' came)
    (small : ∀ a, totalIn adj.holdings a + came a < 2 ^ 256)
    (h : now.payout id due = .ok (left, next)) (h' : now'.payout id due' = .ok (left', next')) :
    left' = left ∧ (∀ a d, next'.held a d = next.held a d) ∧
      (∀ a d, next'.withdrawnFor id a d = next.withdrawnFor id a d) ∧
      ∀ a, Standing.settled (now'.held a (.ofChannel id)) (accounts' a) =
        Standing.settled (now.held a (.ofChannel id)) (accounts a) := by
  have after := p.payout distinct apart small h
  have after' := p'.payout distinct apart small h'
  -- Both stand where a single payout of all the funds would have led.
  have once : ∀ a, Standing.settled (now'.held a (.ofChannel id)) (accounts' a) =
        Standing.settled (now.held a (.ofChannel id)) (accounts a) ∧
      next'.held a (.ofChannel id) = next.held a (.ofChannel id) := by
    intro a
    have bound := small a
    have part : amountIn adj.holdings a (.ofChannel id) ≤ totalIn adj.holdings a :=
      amountIn_le_totalIn _ _ _
    let all : Uint256 := ⟨amountIn adj.holdings a (.ofChannel id) + came a, by omega⟩
    have isAll : all.toNat = (adj.held a (.ofChannel id)).toNat + came a := rfl
    obtain ⟨stand, kept⟩ := p.payout_once distinct apart h a isAll
    obtain ⟨stand', kept'⟩ := p'.payout_once distinct apart h' a isAll
    exact ⟨stand'.trans stand.symm, kept'.trans kept.symm⟩
  refine ⟨?_, ?_, ?_, fun a => (once a).1⟩
  · rw [after'.due_eq, after.due_eq]
    simp only [(once _).1]
  · intro a d
    by_cases self : d = .ofChannel id
    · rw [self, (once a).2]
    · refine Uint256.ext ?_
      rw [after'.held a d self, after.held a d self, (once a).1]
  · intro a d
    rw [after'.withdrawn a d, after.withdrawn a d, (once a).1]

end

/-! ### Runs -/

/-- A further event pays on the account what it paid out, if it did. -/
theorem account_concat (adj : Adjudicator) (id : Hash) (o : Outcome) (a : Address)
    (events : List Event) (e : Event) :
    adj.account id o a (events ++ [e]) =
      (((adj.run events).noted? e).map (Entry.payments id a)).elim (adj.account id o a events)
        (Standing.pay (adj.account id o a events)) := by
  unfold account
  rw [journal_concat, List.map_append, List.foldl_append]
  cases (adj.run events).noted? e <;> rfl

/-- A further event adds what it deposited, if it did. -/
theorem depositedIn_concat (adj : Adjudicator) (a : Address) (events : List Event) (e : Event) :
    adj.depositedIn a (events ++ [e]) = adj.depositedIn a events +
      (((adj.run events).noted? e).map (Entry.deposited a)).getD 0 := by
  unfold depositedIn
  rw [journal_concat, List.map_append, List.sum_append]
  cases (adj.run events).noted? e <;> simp

/-- What is in range with a deposit more is in range without it. -/
theorem small_of_concat {e : Event}
    (small : ∀ a, totalIn adj.holdings a + adj.depositedIn a (events ++ [e]) < 2 ^ 256) :
    ∀ a, totalIn adj.holdings a + adj.depositedIn a events < 2 ^ 256 := by
  intro a
  have bound := small a
  rw [depositedIn_concat] at bound
  omega

/-- An event that is not noted in the journal: the clock, or a call that
fails. -/
theorem concat_of_noted?_eq_none (id : Hash) (o : Outcome) {e : Event}
    (silent : (adj.run events).noted? e = none) :
    (∀ a, adj.account id o a (events ++ [e]) = adj.account id o a events) ∧
      ∀ a, adj.depositedIn a (events ++ [e]) = adj.depositedIn a events := by
  constructor
  · intro a
    rw [account_concat, silent]
    rfl
  · intro a
    rw [depositedIn_concat, silent]
    rfl

/-- A deposit that fails is a call that fails. -/
theorem submit_deposit_of_error {b : Address} {d : Destination} {expected amount : Uint256}
    {failure : Failure AdjudicatorError} (h : now.deposit b d expected amount = .error failure) :
    now.submit (.deposit b d expected amount) = .error failure := by
  rw [submit_eq]
  exact map_eq_error_iff.2 h

/-- A deposit that succeeds. -/
theorem concat_deposit (id : Hash) (o : Outcome) {b : Address} {d : Destination}
    {expected amount paid : Uint256}
    (h : (adj.run events).deposit b d expected amount = .ok (paid, next)) :
    let events' := events ++ [.call (.deposit b d expected amount)]
    adj.run events' = next ∧
      (∀ a, adj.account id o a events' = adj.account id o a events) ∧
      ∀ a, adj.depositedIn a events' =
        adj.depositedIn a events + if b = a then paid.toNat else 0 := by
  intro events'
  have made : (adj.run events).submit (.deposit b d expected amount) =
      .ok (.deposited d paid, next) := submit_of_deposit h
  refine ⟨(run_concat ..).trans (step_of_ok made), ?_, ?_⟩
  · intro a
    rw [account_concat, noted?_of_ok made]
    exact Standing.pay_nil _
  · intro a
    rw [depositedIn_concat, noted?_of_ok made]
    rfl

/-- A payout that succeeds. -/
theorem concat_payout (h : (adj.run events).payout id due = .ok (left, next)) :
    let events' := events ++ [.call (.payout id due)]
    adj.run events' = next ∧
      (∀ a, adj.account id o a events' =
        Standing.pay (adj.account id o a events) ((adj.run events).payments id due a)) ∧
      ∀ a, adj.depositedIn a events' = adj.depositedIn a events := by
  intro events'
  have made : (adj.run events).submit (.payout id due) = .ok (.paidOut id left, next) :=
    submit_of_payout h
  refine ⟨(run_concat ..).trans (step_of_ok made), ?_, ?_⟩
  · intro a
    rw [account_concat, noted?_of_ok made]
    show Standing.pay _ (if id = id then _ else _) = _
    rw [if_pos rfl]
  · intro a
    rw [depositedIn_concat, noted?_of_ok made]
    rfl

section

variable (final : adj.status id = .finalized) (stored : o.hash = (adj.storage id).outcomeHash)
  (distinct : (o.assets.map AssetOutcome.assetHolder).Nodup)
  (apart : ∀ a, ∀ item ∈ o.itemsOf a, item.destination ≠ .ofChannel id)
include final stored distinct apart

/-- Every settlement stands as the events on it tell. -/
theorem Settlement.position (settles : Settlement adj id o events due)
    (small : ∀ a, totalIn adj.holdings a + adj.depositedIn a events < 2 ^ 256) :
    Position adj id o (adj.run events) due (fun a => adj.account id o a events)
      fun a => adj.depositedIn a events := by
  -- Induction on the settlement, with one lemma on positions for each way to go on.
  induction settles with
  | start => exact .initial final stored distinct
  | @tick events due clock _ le ih =>
    obtain ⟨same, came⟩ := concat_of_noted?_eq_none id o
      (show (adj.run events).noted? (.tick clock) = none from rfl)
    rw [run_concat]
    simp only [same, came]
    exact (ih (small_of_concat small)).tick le
  | @deposit events due b expected amount _ ih =>
    have p := ih (small_of_concat small)
    cases made : (adj.run events).deposit b (.ofChannel id) expected amount with
    | ok result =>
      obtain ⟨ran, same, came⟩ := concat_deposit id o made
      rw [ran]
      simp only [same, came]
      exact p.deposit made
    | error failure =>
      have failed := submit_deposit_of_error made
      obtain ⟨same, came⟩ := concat_of_noted?_eq_none id o (noted?_of_error failed)
      rw [run_concat, step_of_error failed]
      simp only [same, came]
      exact p
  | @payout events due left next _ paid ih =>
    have p := ih (small_of_concat small)
    obtain ⟨ran, same, came⟩ := concat_payout (o := o) paid
    rw [ran]
    simp only [same, came, p.payments_eq distinct]
    simp only [came] at small
    exact p.payout distinct apart small paid

/-- The deposits of a settlement can be made without its payouts. -/
theorem Settlement.exists_deposits (settles : Settlement adj id o events due)
    (small : ∀ a, totalIn adj.holdings a + adj.depositedIn a events < 2 ^ 256) :
    ∃ once, Deposits id once ∧ Settlement adj id o once o ∧
      ∀ a, adj.depositedIn a once = adj.depositedIn a events := by
  induction settles with
  | start => exact ⟨[], by simp [Deposits], .start, fun _ => rfl⟩
  | @tick events due clock _ _ ih =>
    obtain ⟨once, deposits, settles, same⟩ := ih (small_of_concat small)
    obtain ⟨-, came⟩ := concat_of_noted?_eq_none id o
      (show (adj.run events).noted? (.tick clock) = none from rfl)
    exact ⟨once, deposits, settles, fun a => (same a).trans (came a).symm⟩
  | @deposit events due b expected amount _ ih =>
    obtain ⟨once, deposits, settles, same⟩ := ih (small_of_concat small)
    cases made : (adj.run events).deposit b (.ofChannel id) expected amount with
    | ok result =>
      obtain ⟨paid, next⟩ := result
      obtain ⟨-, -, came⟩ := concat_deposit id o made
      have p := settles.position final stored distinct apart fun a => by
        rw [same]
        exact small_of_concat small a
      have room : ((adj.run once).held b (.ofChannel id)).toNat + paid.toNat < 2 ^ 256 := by
        have most := p.total b
        have bound := small b
        rw [came, if_pos rfl, ← same] at bound
        have part : ((adj.run once).held b (.ofChannel id)).toNat ≤
          totalIn (adj.run once).holdings b := amountIn_le_totalIn _ _ _
        omega
      -- The same increase, from whatever is held without the payouts.
      obtain ⟨next', made'⟩ := exists_deposit_again (adj.run once) made room
      obtain ⟨-, -, came'⟩ := concat_deposit id o made'
      refine ⟨once ++ [.call (.deposit b (.ofChannel id)
        ((adj.run once).held b (.ofChannel id)) paid)], ?_, settles.deposit, ?_⟩
      · intro e member
        rcases List.mem_append.1 member with earlier | last
        · exact deposits e earlier
        · exact ⟨_, _, _, List.mem_singleton.1 last⟩
      · intro a
        rw [came', came, same]
    | error failure =>
      have failed := submit_deposit_of_error made
      obtain ⟨-, came⟩ := concat_of_noted?_eq_none id o (noted?_of_error failed)
      exact ⟨once, deposits, settles, fun a => (same a).trans (came a).symm⟩
  | @payout events due left next _ paid ih =>
    obtain ⟨once, deposits, settles, same⟩ := ih (small_of_concat small)
    obtain ⟨-, -, came⟩ := concat_payout (o := o) paid
    exact ⟨once, deposits, settles, fun a => (same a).trans (came a).symm⟩

/-- A channel is final on the chain `adj`, and the outcome `o` has the
digest that is stored for it. The asset holders of `o` are distinct and
no item goes to the channel itself. Along `events` deposits to the
channel are made and payouts of it, and what is held at the start and
the deposits are in range.

Then one payout more succeeds. By then, what an item was paid in all
and what is left of it make up its amount, and what the items to
a destination were paid is what the destination has more: withdrawn, if
it is an external address, and else held for it.

Every other such run with the same deposits ends alike, whenever its
payouts are made: what remains of the outcome, what is held, what was
withdrawn, and the account of each item. There is such a run that makes
the deposits first, and then only the one payout of `o`. -/
theorem settles_alike (settles : Settlement adj id o events due)
    (small : ∀ a, (∑ᶠ d, (adj.held a d).toNat) + adj.depositedIn a events < 2 ^ 256) :
    ∃ left last, (adj.run events).payout id due = .ok (left, last) ∧
      (∀ a, let account := adj.account id o a (events ++ [.call (.payout id due)])
        account.map Standing.item = o.itemsOf a ∧ (∀ s ∈ account, s.Balanced) ∧
        left.itemsOf a = Standing.lefts account ∧
        ∀ d, d ≠ .ofChannel id →
          (last.held a d).toNat =
            (adj.held a d).toNat + (if d.isExternal then 0 else Standing.paidTo d account) ∧
          last.withdrawnFor id a d =
            adj.withdrawnFor id a d + if d.isExternal then Standing.paidTo d account else 0) ∧
      (∃ once, Deposits id once ∧ Settlement adj id o once o ∧
        ∀ a, adj.depositedIn a once = adj.depositedIn a events) ∧
      ∀ events' due', Settlement adj id o events' due' →
        (∀ a, adj.depositedIn a events' = adj.depositedIn a events) →
        ∃ last', (adj.run events').payout id due' = .ok (left, last') ∧
          (∀ a d, last'.held a d = last.held a d) ∧
          (∀ a d, last'.withdrawnFor id a d = last.withdrawnFor id a d) ∧
          ∀ a, adj.account id o a (events' ++ [.call (.payout id due')]) =
            adj.account id o a (events ++ [.call (.payout id due)]) := by
  have p := settles.position final stored distinct apart small
  -- The last payout, as one more step of the run.
  obtain ⟨left, last, paid⟩ := p.exists_payout distinct small
  have after := p.payout distinct apart small paid
  obtain ⟨-, account, -⟩ := concat_payout (o := o) paid
  simp only [p.payments_eq distinct] at account
  refine ⟨left, last, paid, ?_, settles.exists_deposits final stored distinct apart small, ?_⟩
  · intro a
    dsimp only
    rw [account]
    exact ⟨after.items a, after.balanced a, after.itemsOf_due distinct a,
      fun d other => ⟨after.held a d other, after.withdrawn a d⟩⟩
  · intro events' due' settles' same
    have p' := settles'.position final stored distinct apart fun a => by
      rw [same]
      exact small a
    simp only [same] at p'
    obtain ⟨left', last', paid'⟩ := p'.exists_payout distinct small
    obtain ⟨-, account', -⟩ := concat_payout (o := o) paid'
    obtain ⟨rfl, held, withdrawn, stand⟩ := p.payout_alike distinct apart p' small paid paid'
    simp only [p'.payments_eq distinct] at account'
    exact ⟨last', paid', held, withdrawn, fun a =>
      (account' a).trans ((stand a).trans (account a).symm)⟩

end

namespace Sample

/-- A channel that is final. -/
def pool : Hash := ⟨.replicate 32 3⟩

/-- Ten units for Alice, and then ten for another channel. -/
def shares : Outcome :=
  ⟨[⟨.zero, .allocation ⟨[⟨.ofAddress alice, ten⟩, ⟨.ofChannel ⟨.replicate 32 4⟩, ten⟩]⟩⟩]⟩

/-- The chain on which the channel was concluded. -/
def concluded : Adjudicator := chain.setStorage pool (.concluded 1 shares)

/-- A deposit that is not enough for all. -/
def sip : Event := .call (.deposit .zero (.ofChannel pool) .zero ⟨13, by decide⟩)

/-- Two payouts after the deposit, or one: the end is the same. -/
theorem settles_alike_twice :
    ∃ left next, (concluded.run [sip]).payout pool shares = .ok (left, next) ∧
      ∃ least last last', (concluded.run [sip, .call (.payout pool shares)]).payout pool left =
          .ok (least, last) ∧
        (concluded.run [sip]).payout pool shares = .ok (least, last') ∧
        ∀ a d, last'.held a d = last.held a d := by
  have final : concluded.status pool = .finalized := by
    rw [concluded, status, storage_setStorage, if_pos rfl]
    rfl
  have stored : shares.hash = (concluded.storage pool).outcomeHash := by
    rw [concluded, storage_setStorage, if_pos rfl]
    rfl
  have distinct : (shares.assets.map AssetOutcome.assetHolder).Nodup := by decide
  have apart : ∀ a, ∀ item ∈ shares.itemsOf a, item.destination ≠ .ofChannel pool := by
    intro a item member
    obtain ⟨allocation, isOne, isItem⟩ := List.mem_flatMap.1 member
    obtain ⟨asset, kept, isContent⟩ := List.mem_filterMap.1 isOne
    cases List.mem_singleton.1 (List.mem_filter.1 kept).1
    cases isContent
    have others : ∀ item ∈ ([⟨.ofAddress alice, ten⟩, ⟨.ofChannel ⟨.replicate 32 4⟩, ten⟩] :
        List AllocationItem), item.destination ≠ .ofChannel pool := by decide
    exact others item isItem
  -- Thirteen units came in, and nothing was there before.
  have small : ∀ a, (∑ᶠ d, (concluded.held a d).toNat) + concluded.depositedIn a [sip] <
      2 ^ 256 := by
    intro a
    have made : (concluded.run []).deposit .zero (.ofChannel pool) .zero ⟨13, by decide⟩ =
        .ok (⟨13, by decide⟩, _) :=
      deposit_eq_ok_iff.2 ⟨by decide, by decide, ⟨13, by decide⟩, rfl, by decide, rfl, rfl⟩
    have came : concluded.depositedIn a [sip] = 0 + if Address.zero = a then 13 else 0 :=
      (concat_deposit pool shares made).2.2 a
    have nothing : (∑ᶠ d, (concluded.held a d).toNat) = 0 := finsum_zero
    rw [nothing, came]
    split <;> decide
  -- One settlement pays before the deposits are over, and the other one after them.
  have first : Settlement concluded pool shares [sip] shares := .deposit .start
  obtain ⟨left, next, paid, -⟩ := settles_alike final stored distinct apart first small
  obtain ⟨-, -, came⟩ := concat_payout (o := shares) paid
  obtain ⟨least, last, paid', -, -, alike⟩ :=
    settles_alike final stored distinct apart (first.payout paid) fun a => by
      rw [came]
      exact small a
  obtain ⟨last', once, held, -⟩ := alike [sip] shares first fun a => (came a).symm
  exact ⟨left, next, paid, least, last, last', paid', once, held⟩

end Sample

end StateChannels.Adjudicator
