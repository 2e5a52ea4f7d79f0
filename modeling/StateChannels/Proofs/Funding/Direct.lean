import StateChannels.Funding.Direct
import StateChannels.Proofs.Adjudicator.Holdings
import StateChannels.Proofs.Adjudicator.History
import StateChannels.Proofs.Allocation.Amounts

/-!
# `StateChannels.Proofs.Funding.Direct`: deposits in order

The participants of a channel fund it one after another. Participant
number `i` pays from the level `a.upTo i`, what those in front of them
pay together, to `a.upTo (i + 1)`. At every holdings below the total
exactly one of them is to pay (`exists_upTo_le`, `upTo_unique`), and the
call to make tops the holdings up to the next level.

A participant may make the call long after asking, and more than once.
Others may have paid meanwhile. But the call names the level that it
starts from, and `of_submit_call` says that it only succeeds below the
next level. When the holdings are at a level, this is the level of the
participant (`eq_upTo_of_level`), and after the call they are at the
next one, where the same call fails. So a `FundingRun` goes from level to
level, and no one pays twice (`FundingRun.progress`).
-/

set_option autoImplicit false

namespace StateChannels

/-! ### Levels -/

namespace Allocation

/-- The sum of the amounts before item number `i`. -/
def upTo (a : Allocation) (i : Nat) : Nat := sumOf (a.items.take i)

variable {a : Allocation} {i j h : Nat} {item : AllocationItem}

/-- Nothing comes before the first item. -/
@[simp] theorem upTo_zero (a : Allocation) : a.upTo 0 = 0 := rfl

/-- Before the end comes the whole sum. -/
@[simp] theorem upTo_length (a : Allocation) : a.upTo a.items.length = sumOf a.items := by
  rw [upTo, List.take_length]

/-- The next level is higher by the amount of the item. -/
theorem upTo_succ (isItem : a.items[i]? = some item) :
    a.upTo (i + 1) = a.upTo i + item.amount.toNat := by
  rw [upTo, List.take_add_one, isItem, sumOf_append]
  simp [upTo]

/-- A later level is no lower. -/
theorem upTo_mono (a : Allocation) (le : i ≤ j) : a.upTo i ≤ a.upTo j := by
  obtain ⟨more, rfl⟩ := Nat.exists_eq_add_of_le le
  rw [upTo, upTo, List.take_add, sumOf_append]
  exact Nat.le_add_right _ _

/-- No level is above the sum. -/
theorem upTo_le (a : Allocation) (i : Nat) : a.upTo i ≤ sumOf a.items := by
  have whole := sumOf_append (a.items.take i) (a.items.drop i)
  rw [List.take_append_drop] at whole
  rw [upTo, whole]
  exact Nat.le_add_right _ _

/-- Below the total there is an item that the number falls into. -/
theorem exists_upTo_le (below : h < sumOf a.items) :
    ∃ i item, a.items[i]? = some item ∧ a.upTo i ≤ h ∧ h < a.upTo (i + 1) := by
  -- The first level above `h` comes after an item.
  have reached : ∃ n, h < a.upTo n := ⟨a.items.length, by rwa [upTo_length]⟩
  have above := Nat.find_spec reached
  obtain ⟨i, isSucc⟩ : ∃ i, Nat.find reached = i + 1 := by
    refine Nat.exists_eq_succ_of_ne_zero ?_
    intro none
    rw [none, upTo_zero] at above
    omega
  have here : a.upTo i ≤ h := by
    have := Nat.find_min reached (m := i) (by omega)
    omega
  rw [isSucc] at above
  cases isItem : a.items[i]? with
  | some item => exact ⟨i, item, isItem, here, above⟩
  | none =>
    have last : a.items.length ≤ i := List.getElem?_eq_none_iff.1 isItem
    rw [upTo, List.take_of_length_le last] at here
    omega

/-- A number falls into one item only. -/
theorem upTo_unique (le : a.upTo i ≤ h) (lt : h < a.upTo (i + 1)) (le' : a.upTo j ≤ h)
    (lt' : h < a.upTo (j + 1)) : i = j := by
  rcases Nat.lt_trichotomy i j with before | rfl | after
  · have := a.upTo_mono (show i + 1 ≤ j from before)
    omega
  · rfl
  · have := a.upTo_mono (show j + 1 ≤ i from after)
    omega

/-- The levels that fall into an item are its own. -/
theorem eq_upTo_of_level {k : Nat} (level : h = a.upTo k) (le : a.upTo i ≤ h)
    (lt : h < a.upTo (i + 1)) : h = a.upTo i := by
  rcases Nat.lt_or_ge i k with after | before
  · have := a.upTo_mono (show i + 1 ≤ k from after)
    omega
  · have := a.upTo_mono before
    omega

end Allocation

open Allocation (sumOf)

namespace DirectFunding

/-- The call by which the participant pays. -/
def call (f : DirectFunding) : Call :=
  .deposit f.assetHolder (.ofChannel f.channelId) f.safeToDeposit f.requiredDeposit

variable {id : Hash} {holder : Address} {a : Allocation} {i : Nat} {f : DirectFunding}
  {total held : Uint256} {adj next : Adjudicator}

/-- The part of a participant: it starts at the level of its item. -/
theorem ofAllocation_eq_ok_iff (isTotal : a.total = .ok total) :
    ofAllocation id holder a i = .ok f ↔
      ∃ item, a.items[i]? = some item ∧ f.channelId = id ∧ f.assetHolder = holder ∧
        f.safeToDeposit.toNat = a.upTo i ∧ f.requiredDeposit = item.amount ∧ f.total = total := by
  unfold ofAllocation
  cases isItem : a.items[i]? with
  | none => simp
  | some item =>
    simp only [isTotal, bind_eq_ok_iff, mapError_eq_ok_iff, Allocation.total_eq_ok_iff]
    constructor
    · rintro ⟨level, isLevel, _, ⟨⟩, ⟨⟩⟩
      exact ⟨item, rfl, rfl, rfl, isLevel, rfl, rfl⟩
    · rintro ⟨_, ⟨⟩, rfl, rfl, isLevel, amount, rfl⟩
      refine ⟨f.safeToDeposit, isLevel, _, rfl, ?_⟩
      rw [← amount]
      rfl

/-- There is a part for every item. -/
theorem exists_ofAllocation (id : Hash) (holder : Address) (isTotal : a.total = .ok total)
    (lt : i < a.items.length) :
    ∃ f, ofAllocation id holder a i = .ok f := by
  have most := a.upTo_le i
  rw [← Allocation.total_eq_ok_iff.1 isTotal] at most
  have level : a.upTo i < 2 ^ 256 := Nat.lt_of_le_of_lt most total.toNat_lt
  exact ⟨⟨id, holder, ⟨a.upTo i, level⟩, a.items[i].amount, total⟩,
    (ofAllocation_eq_ok_iff isTotal).2
      ⟨_, List.getElem?_eq_getElem lt, rfl, rfl, rfl, rfl, rfl⟩⟩

section

variable (isTotal : a.total = .ok total) (isPart : ofAllocation id holder a i = .ok f)
include isTotal isPart

/-- What the participant pays leads to the next level. -/
theorem upTo_succ : a.upTo (i + 1) = f.safeToDeposit.toNat + f.requiredDeposit.toNat := by
  obtain ⟨item, isItem, -, -, level, amount, -⟩ := (ofAllocation_eq_ok_iff isTotal).1 isPart
  rw [Allocation.upTo_succ isItem, level, amount]

/-- With the total there is nothing left to do. -/
theorem status_of_le (enough : total ≤ held) : f.status held = .funded := by
  obtain ⟨-, -, -, -, -, -, rfl⟩ := (ofAllocation_eq_ok_iff isTotal).1 isPart
  exact if_pos enough

/-- Before, it is the turn of the participant if the holdings fall into
its item. -/
theorem status_of_lt (missing : held < total) :
    f.status held =
      if a.upTo i ≤ held.toNat ∧ held.toNat < a.upTo (i + 1) then
        .deposit f.safeToDeposit f.requiredDeposit
      else .waitForTurn := by
  have next := upTo_succ isTotal isPart
  obtain ⟨item, -, -, -, level, -, rfl⟩ := (ofAllocation_eq_ok_iff isTotal).1 isPart
  have short : ¬f.total ≤ held := Nat.not_le_of_lt missing
  have turn : (held < f.safeToDeposit ∨
      f.safeToDeposit.toNat + f.requiredDeposit.toNat ≤ held.toNat) ↔
      ¬(a.upTo i ≤ held.toNat ∧ held.toNat < a.upTo (i + 1)) := by
    rw [Uint256.lt_iff]
    omega
  rw [status, if_neg short, if_congr turn rfl rfl, ite_not]

end

/-- A participant is funded, waits for its turn, or has a deposit to make. -/
theorem status_cases (f : DirectFunding) (held : Uint256) :
    f.status held = .funded ∨ f.status held = .waitForTurn ∨
      f.status held = .deposit f.safeToDeposit f.requiredDeposit := by
  unfold status
  split
  · exact .inl rfl
  · split
    · exact .inr (.inl rfl)
    · exact .inr (.inr rfl)

/-- When asked on the chain, the participant looks at the holdings. It is
told to pay exactly if that is the status, and then by its own call. -/
theorem poll_eq (f : DirectFunding) (adj : Adjudicator) :
    let status := f.status (adj.held f.assetHolder (.ofChannel f.channelId))
    f.poll adj = (status,
      if status = .deposit f.safeToDeposit f.requiredDeposit then some f.call else none) := by
  intro status
  rcases f.status_cases (adj.held f.assetHolder (.ofChannel f.channelId)) with is | is | is <;>
    simp [status, poll, is, call]

/-- Whatever call it is told to make, it is its own. -/
theorem eq_call_of_poll {x : Call} (polled : (f.poll adj).2 = some x) : x = f.call := by
  rw [poll_eq] at polled
  exact (Option.some.inj (Option.ite_none_right_eq_some.1 polled).2).symm

/-! ### The call -/

section

variable (isTotal : a.total = .ok total) (isPart : ofAllocation id holder a i = .ok f)
include isTotal isPart

/-- The call succeeds only from the level of the participant up to the
next level, and it leads to the next level. -/
theorem of_submit_call {receipt : Receipt} (h : adj.submit f.call = .ok (receipt, next)) :
    a.upTo i ≤ (adj.held holder (.ofChannel id)).toNat ∧
      (adj.held holder (.ofChannel id)).toNat < a.upTo (i + 1) ∧
      ∃ paid, receipt = .deposited (.ofChannel id) paid ∧
        paid.toNat = a.upTo (i + 1) - (adj.held holder (.ofChannel id)).toNat ∧
        (next.held holder (.ofChannel id)).toNat = a.upTo (i + 1) := by
  have sum := upTo_succ isTotal isPart
  obtain ⟨item, -, rfl, rfl, level, -, -⟩ := (ofAllocation_eq_ok_iff isTotal).1 isPart
  obtain ⟨⟨paid, _⟩, made, ⟨⟩⟩ := map_eq_ok_iff.1 ((Adjudicator.submit_eq _).symm.trans h)
  have after := (Adjudicator.held_deposit made f.assetHolder).1
  -- The target of the deposit is the next level, as a sum that does not overflow.
  obtain ⟨-, enough, target, isTarget, more, rfl, -⟩ := Adjudicator.deposit_eq_ok_iff.1 made
  have enough := Uint256.le_iff.1 enough
  have more := Uint256.lt_iff.1 more
  rw [if_pos rfl, Uint256.toNat_monus] at after
  refine ⟨by omega, by omega, _, rfl, ?_, ?_⟩
  · rw [Uint256.toNat_monus]
    omega
  · dsimp only
    omega

/-- There it does succeed. -/
theorem exists_submit_call (channel : (Destination.ofChannel id).isExternal = false)
    (le : a.upTo i ≤ (adj.held holder (.ofChannel id)).toNat)
    (lt : (adj.held holder (.ofChannel id)).toNat < a.upTo (i + 1)) :
    ∃ receipt next, adj.submit f.call = .ok (receipt, next) := by
  have sum := upTo_succ isTotal isPart
  have most := a.upTo_le (i + 1)
  rw [← Allocation.total_eq_ok_iff.1 isTotal] at most
  have small := total.toNat_lt
  obtain ⟨item, -, rfl, rfl, level, -, -⟩ := (ofAllocation_eq_ok_iff isTotal).1 isPart
  have made : adj.deposit f.assetHolder (.ofChannel f.channelId) f.safeToDeposit
      f.requiredDeposit = .ok _ :=
    Adjudicator.deposit_eq_ok_iff.2 ⟨channel, Uint256.le_iff.2 (level ▸ le),
      ⟨a.upTo (i + 1), by omega⟩, sum, lt, rfl, rfl⟩
  exact ⟨_, _, Adjudicator.submit_of_deposit made⟩

end

end DirectFunding

open DirectFunding (ofAllocation)

/-! ### Runs -/

/-- An event that leaves alone what an asset holder keeps for
a destination: no payout, and no deposit there. -/
def Adjudicator.Event.Spares (holder : Address) (d : Destination) : Adjudicator.Event → Prop
  | .call (.deposit holder' d' ..) => ¬(holder' = holder ∧ d' = d)
  | .call (.payout ..) => False
  | _ => True

/-- A run in which the participants fund a channel. Each event spares
the funds of the channel, or it is a call that a participant was told to
make at some earlier point. They may ask at any point, and make a call
as late and as often as they like. -/
inductive FundingRun (adj : Adjudicator) (id : Hash) (holder : Address) (a : Allocation) :
    List Adjudicator.Event → Prop
  | start : FundingRun adj id holder a []
  | other {events : List Adjudicator.Event} {e : Adjudicator.Event}
      (h : FundingRun adj id holder a events) (spares : e.Spares holder (.ofChannel id)) :
      FundingRun adj id holder a (events ++ [e])
  | submit {earlier later : List Adjudicator.Event} {i : Nat} {f : DirectFunding} {x : Call}
      (h : FundingRun adj id holder a (earlier ++ later))
      (isPart : ofAllocation id holder a i = .ok f)
      (polled : (f.poll (adj.run earlier)).2 = some x) :
      FundingRun adj id holder a (earlier ++ later ++ [.call x])

section

variable {adj next : Adjudicator} {id : Hash} {holder : Address} {a : Allocation} {total : Uint256}
  {events : List Adjudicator.Event} {e : Adjudicator.Event}

namespace Adjudicator

/-- An entry is about the chain on which the call was made. -/
theorem before_of_noted? {m : Entry} (noted : adj.noted? e = some m) : m.before = adj := by
  rcases step_cases adj e with ⟨clock, rfl, -, none⟩ | ⟨x, receipt, next, rfl, -, -, isNoted⟩ |
    ⟨x, failure, rfl, -, -, none⟩
  · cases none.symm.trans noted
  · cases isNoted.symm.trans noted
    rfl
  · cases none.symm.trans noted

/-- An event that spares the holdings leaves them and makes no deposit to
them. -/
theorem held_step_of_spares {d : Destination} (spares : e.Spares holder d) :
    (adj.step e).held holder d = adj.held holder d ∧
      ∀ m ∈ adj.noted? e, ∀ expected amount, m.call ≠ .deposit holder d expected amount := by
  rcases step_cases adj e with ⟨clock, rfl, stepped, noted⟩ |
    ⟨x, receipt, next, rfl, made, stepped, noted⟩ | ⟨x, failure, rfl, -, stepped, noted⟩
  · rw [stepped, noted]
    exact ⟨rfl, by simp⟩
  · rw [stepped, noted]
    rcases submit_cases made with ⟨disputes, s, -, rfl⟩ |
      ⟨holder', d', expected, amount, paid, rfl, -, made⟩ | ⟨_, _, _, rfl, -, -⟩
    · refine ⟨rfl, ?_⟩
      rintro _ ⟨⟩ expected amount rfl
      cases disputes
    · have other : ¬(holder' = holder ∧ d' = d) := spares
      constructor
      · -- The deposit is for another destination or with another asset holder.
        by_cases same : d' = d
        · have after := (held_deposit made holder).1
          rw [same, if_neg fun e => other ⟨e, same⟩, Nat.add_zero] at after
          exact Uint256.ext after
        · exact (held_deposit made holder).2 d (Ne.symm same)
      · rintro _ ⟨⟩ _ _ ⟨⟩
        exact other ⟨rfl, rfl⟩
    · exact spares.elim
  · rw [stepped, noted]
    exact ⟨rfl, by simp⟩

end Adjudicator

namespace FundingRun

/-- How far the funding is along a run: it was at a level all the time,
and every part was paid once at most, at its level and in full. -/
structure Progress (adj : Adjudicator) (id : Hash) (holder : Address) (a : Allocation)
    (events : List Adjudicator.Event) : Prop where
  level : ∀ before, before <+: events → ∃ k ≤ a.items.length,
    ((adj.run before).held holder (.ofChannel id)).toNat = a.upTo k
  paid : ∀ m ∈ adj.journal events, ∀ i f, ofAllocation id holder a i = .ok f → m.call = f.call →
    (m.before.held holder (.ofChannel id)).toNat = a.upTo i ∧
      m.receipt = .deposited (.ofChannel id) f.requiredDeposit ∧
      a.upTo (i + 1) ≤ ((adj.run events).held holder (.ofChannel id)).toNat
  once : ∀ i f, ofAllocation id holder a i = .ok f →
    (adj.journal events).countP (fun m => m.call = f.call) ≤ 1

/-- Before the first event nothing is paid, so the holdings are at the
lowest level. -/
theorem Progress.start (none : adj.held holder (.ofChannel id) = .zero) :
    Progress adj id holder a [] where
  level := by
    intro before isPrefix
    rw [List.prefix_nil.1 isPrefix]
    exact ⟨0, Nat.zero_le _, by rw [Adjudicator.run_nil, none]; rfl⟩
  paid := by
    intro m member
    cases member
  once := fun i f _ => Nat.zero_le _

/-- One event more. If it is a payment of a part, the holdings are at its
level before and at the next one after. -/
theorem Progress.concat (p : Progress adj id holder a events)
    (level : ∃ k ≤ a.items.length,
      (((adj.run events).step e).held holder (.ofChannel id)).toNat = a.upTo k)
    (grows : ((adj.run events).held holder (.ofChannel id)).toNat ≤
      (((adj.run events).step e).held holder (.ofChannel id)).toNat)
    (pays : ∀ m ∈ (adj.run events).noted? e, ∀ i f, ofAllocation id holder a i = .ok f →
      m.call = f.call →
      ((adj.run events).held holder (.ofChannel id)).toNat = a.upTo i ∧
        m.receipt = .deposited (.ofChannel id) f.requiredDeposit ∧
        a.upTo i < a.upTo (i + 1) ∧
        a.upTo (i + 1) ≤ (((adj.run events).step e).held holder (.ofChannel id)).toNat) :
    Progress adj id holder a (events ++ [e]) := by
  constructor
  -- The levels before the event are those of `p`, and `level` is the one after it.
  · intro before isPrefix
    rcases List.prefix_concat_iff.1 isPrefix with rfl | earlier
    · rw [Adjudicator.run_concat]
      exact level
    · exact p.level before earlier
  -- What was paid before the event is paid still, since the holdings have only grown.
  · intro m member i f isPart isCall
    rw [Adjudicator.journal_concat] at member
    rw [Adjudicator.run_concat]
    rcases List.mem_append.1 member with earlier | last
    · obtain ⟨before, receipt, after⟩ := p.paid m earlier i f isPart isCall
      exact ⟨before, receipt, Nat.le_trans after grows⟩
    · have noted := Option.mem_toList.1 last
      obtain ⟨before, receipt, -, after⟩ := pays m noted i f isPart isCall
      rw [Adjudicator.before_of_noted? noted]
      exact ⟨before, receipt, after⟩
  · intro i f isPart
    have before := p.once i f isPart
    rw [Adjudicator.journal_concat, List.countP_append]
    cases noted : (adj.run events).noted? e with
    | none => exact before
    | some m =>
      by_cases isCall : m.call = f.call
      · -- The holdings are below the next level, so the part was not paid before.
        obtain ⟨here, -, lt, -⟩ := pays m noted i f isPart isCall
        have never : (adj.journal events).countP (fun m => m.call = f.call) = 0 := by
          refine List.countP_eq_zero.2 ?_
          intro m' member isCall'
          obtain ⟨-, -, after⟩ := p.paid m' member i f isPart (of_decide_eq_true isCall')
          omega
        rw [never, Nat.zero_add]
        exact List.countP_le_length
      · simpa [isCall] using before

section

variable (isTotal : a.total = .ok total)
include isTotal

/-- A part is paid, or the call for it fails. -/
theorem Progress.submit (p : Progress adj id holder a events) {i : Nat} {f : DirectFunding}
    (isPart : ofAllocation id holder a i = .ok f) :
    Progress adj id holder a (events ++ [.call f.call]) := by
  cases made : (adj.run events).submit f.call with
  | error failure =>
    have same := Adjudicator.step_of_error made
    have noted := Adjudicator.noted?_of_error made
    refine p.concat ?_ ?_ ?_
    · rw [same]
      exact p.level events (List.prefix_refl _)
    · rw [same]
    · rw [noted]
      simp
  | ok result =>
    obtain ⟨receipt, next⟩ := result
    obtain ⟨k, -, level⟩ := p.level events (List.prefix_refl _)
    -- Said for any part with this call, as the entry in the journal only shows the call.
    have paid : ∀ {j : Nat} {g : DirectFunding}, ofAllocation id holder a j = .ok g →
        f.call = g.call → _ := fun isPart isCall =>
      DirectFunding.of_submit_call isTotal isPart (isCall ▸ made)
    obtain ⟨le, lt, -, -, -, after⟩ := paid isPart rfl
    rw [← Adjudicator.step_of_ok made] at after
    refine p.concat ?_ ?_ ?_
    · obtain ⟨item, isItem, -⟩ := (DirectFunding.ofAllocation_eq_ok_iff isTotal).1 isPart
      exact ⟨i + 1, (List.getElem?_eq_some_iff.1 isItem).1, after⟩
    · omega
    · rw [Adjudicator.noted?_of_ok made]
      rintro _ ⟨⟩ j g isPart' isCall
      obtain ⟨le', lt', amount, isReceipt, isAmount, after'⟩ := paid isPart' isCall
      rw [← Adjudicator.step_of_ok made] at after'
      have here := Allocation.eq_upTo_of_level level le' lt'
      have sum := DirectFunding.upTo_succ isTotal isPart'
      obtain ⟨-, -, -, -, start, -, -⟩ := (DirectFunding.ofAllocation_eq_ok_iff isTotal).1 isPart'
      have exact' : amount = g.requiredDeposit := Uint256.ext (by omega)
      exact ⟨here, isReceipt.trans (by rw [exact']), by omega, by omega⟩

/-- Every funding run goes from level to level. -/
theorem progress (none : adj.held holder (.ofChannel id) = .zero)
    (h : FundingRun adj id holder a events) : Progress adj id holder a events := by
  induction h with
  | start => exact .start none
  | other _ spares p =>
    obtain ⟨same, others⟩ := Adjudicator.held_step_of_spares spares
    refine p.concat ?_ ?_ ?_
    · rw [same]
      exact p.level _ (List.prefix_refl _)
    · rw [same]
    · intro m noted i f isPart isCall
      obtain ⟨-, -, rfl, rfl, -⟩ := (DirectFunding.ofAllocation_eq_ok_iff isTotal).1 isPart
      exact absurd isCall (others m noted _ _)
  | submit _ isPart polled p =>
    -- What the participant was told to do depends on the time, but not the call.
    rw [DirectFunding.eq_call_of_poll polled]
    exact p.submit isTotal isPart

end

end FundingRun

/-- An allocation whose amounts have a sum, and a channel whose id does
not start with 12 zeros, so that its destination is no external address.

There is a part for every item. With the total everyone has the status
`funded`. Below it, one part is to be paid, that of the item that the
holdings fall into, and all others wait. The call that the participant
is told to make then succeeds on every chain with these holdings. It
pays what is missing up to the next level, and leaves the holdings
there.

In a run that starts without holdings, where the participants ask and
call as they like and nobody else pays in or out, the holdings are at
a level all the time, the total being the last one. A call for a part
that succeeds finds the holdings at the level of the part and pays its
amount, and there is no second one. -/
theorem funds_in_order (isTotal : a.total = .ok total)
    (outside : id.toBytes.take 12 ≠ Bytes.zeros 12) :
    (∀ i < a.items.length, ∃ f, ofAllocation id holder a i = .ok f) ∧
    (∀ held, total ≤ held → ∀ i f, ofAllocation id holder a i = .ok f →
      f.status held = .funded) ∧
    (∀ held, held < total → ∃ i item f, a.items[i]? = some item ∧
      ofAllocation id holder a i = .ok f ∧ f.safeToDeposit.toNat = a.upTo i ∧
      f.status held = .deposit f.safeToDeposit item.amount ∧
      a.upTo i ≤ held.toNat ∧ held.toNat < a.upTo i + item.amount.toNat ∧
      (∀ j g, j ≠ i → ofAllocation id holder a j = .ok g → g.status held = .waitForTurn) ∧
      ∀ adj : Adjudicator, adj.held holder (.ofChannel id) = held →
        (f.poll adj).2 = some f.call ∧
        ∃ paid next, adj.submit f.call = .ok (.deposited (.ofChannel id) paid, next) ∧
          paid.toNat = a.upTo i + item.amount.toNat - held.toNat ∧
          (next.held holder (.ofChannel id)).toNat = a.upTo (i + 1)) ∧
    ∀ (adj : Adjudicator) (events : List Adjudicator.Event),
      adj.held holder (.ofChannel id) = .zero → FundingRun adj id holder a events →
      (∀ before, before <+: events → ∃ k ≤ a.items.length,
        ((adj.run before).held holder (.ofChannel id)).toNat = a.upTo k) ∧
      ∀ i item f, a.items[i]? = some item → ofAllocation id holder a i = .ok f →
        (∀ m ∈ adj.journal events, m.call = f.call →
          (m.before.held holder (.ofChannel id)).toNat = a.upTo i ∧
            m.receipt = .deposited (.ofChannel id) item.amount) ∧
        (adj.journal events).countP (fun m => m.call = f.call) ≤ 1 := by
  have channel : (Destination.ofChannel id).isExternal = false := by
    simp [Destination.isExternal, Destination.address?, outside]
  refine ⟨fun i => DirectFunding.exists_ofAllocation id holder isTotal,
    fun held enough i f isPart => DirectFunding.status_of_le isTotal isPart enough, ?_, ?_⟩
  -- Below the total the holdings lie in the range of exactly one part, whose turn it is.
  · intro held missing
    obtain ⟨i, item, isItem, le, lt⟩ := Allocation.exists_upTo_le
      (Allocation.total_eq_ok_iff.1 isTotal ▸ Uint256.lt_iff.1 missing)
    obtain ⟨f, isPart⟩ := DirectFunding.exists_ofAllocation id holder isTotal
      (List.getElem?_eq_some_iff.1 isItem).1
    obtain ⟨_, isItem', rfl, rfl, level, amount, -⟩ :=
      (DirectFunding.ofAllocation_eq_ok_iff isTotal).1 isPart
    obtain rfl := Option.some.inj (isItem.symm.trans isItem')
    have status := DirectFunding.status_of_lt isTotal isPart missing
    rw [if_pos ⟨le, lt⟩] at status
    refine ⟨i, item, f, isItem, isPart, level, amount ▸ status, le,
      Allocation.upTo_succ isItem ▸ lt, ?_, ?_⟩
    · intro j g other isPart'
      rw [DirectFunding.status_of_lt isTotal isPart' missing, if_neg]
      rintro ⟨le', lt'⟩
      exact other (Allocation.upTo_unique le' lt' le lt)
    · rintro adj rfl
      refine ⟨by rw [DirectFunding.poll_eq, status, if_pos rfl], ?_⟩
      obtain ⟨receipt, next, made⟩ := DirectFunding.exists_submit_call isTotal isPart channel le lt
      obtain ⟨-, -, paid, rfl, isPaid, after⟩ := DirectFunding.of_submit_call isTotal isPart made
      exact ⟨paid, next, made, Allocation.upTo_succ isItem ▸ isPaid, after⟩
  -- What a run does is read off the invariant that every run keeps.
  · intro adj events none run
    have p := run.progress isTotal none
    refine ⟨p.level, ?_⟩
    intro i item f isItem isPart
    obtain ⟨_, isItem', -, -, -, amount, -⟩ :=
      (DirectFunding.ofAllocation_eq_ok_iff isTotal).1 isPart
    obtain rfl := Option.some.inj (isItem.symm.trans isItem')
    refine ⟨?_, p.once i f isPart⟩
    intro m member isCall
    obtain ⟨before, receipt, -⟩ := p.paid m member i f isPart isCall
    exact ⟨before, amount ▸ receipt⟩

end

namespace DirectFunding.Sample

/-- The channel that is funded. -/
def channelId : Hash := ⟨.replicate 32 9⟩

/-- Three items, and the one in the middle is nothing. -/
def allocation : Allocation :=
  ⟨[⟨⟨.replicate 32 1⟩, ⟨20, by decide⟩⟩, ⟨⟨.replicate 32 2⟩, .zero⟩,
    ⟨⟨.replicate 32 3⟩, ⟨30, by decide⟩⟩]⟩

/-- The part of the first item. -/
def first : DirectFunding := ⟨channelId, .zero, .zero, ⟨20, by decide⟩, ⟨50, by decide⟩⟩

/-- A chain without deposits. -/
def chain : Adjudicator := .start 0 ∅

/-- The first participant asks, and makes the call twice. It pays once. -/
theorem funds_in_order_twice :
    FundingRun chain channelId .zero allocation [.call first.call, .call first.call] ∧
      (chain.journal [.call first.call, .call first.call]).countP (fun m => m.call = first.call) ≤
        1 := by
  have isPart : ofAllocation channelId .zero allocation 0 = .ok first := by rfl
  have polled : (first.poll (chain.run [])).2 = some first.call := by rfl
  have run : FundingRun chain channelId .zero allocation [.call first.call, .call first.call] :=
    @FundingRun.submit _ _ _ _ [] [.call first.call] _ _ _
      (@FundingRun.submit _ _ _ _ [] [] _ _ _ .start isPart polled) isPart polled
  have isTotal : allocation.total = .ok ⟨50, by decide⟩ := by rfl
  have outside : channelId.toBytes.take 12 ≠ Bytes.zeros 12 := by decide
  obtain ⟨-, -, -, runs⟩ := funds_in_order isTotal outside
  exact ⟨run, ((runs chain _ rfl run).2 0 _ first rfl isPart).2⟩

end DirectFunding.Sample

end StateChannels
