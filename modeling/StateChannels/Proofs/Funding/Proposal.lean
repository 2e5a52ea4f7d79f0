import StateChannels.Proofs.Funding.Ledger

/-!
# `StateChannels.Proofs.Funding.Proposal`: which funding proposals can be voted on

A funding proposal puts an outcome to the vote in which the channel to fund
has a new item, at the end of an allocation. When the proposal is written,
nothing looks at the outcome. When it is read, an outcome in which an
allocation names a destination twice is refused. So it matters whether the
channel had an item before, as a channel has that is funded a second time.

* `Allocation.Admits`: the channel has no item, or all of it is taken.
* `Outcome.validate_of_admits`, `Outcome.validate_of_not_admits`: just then
  the outcome of a reserve is valid.
* `Store.votable_iff`: just then the others can read the proposal, and the
  rule of the ledger channel lets it follow. No state follows a proposal that
  can not be read.
-/

set_option autoImplicit false

namespace StateChannels

namespace Allocation

/-- There is room for a new item of the channel `id`: there is no item of it
yet, or it holds something and `target` takes all of that. -/
def Admits (a target : Allocation) (id : Hash) : Prop :=
  .ofChannel id ∈ destinations a.items →
    amountFor a.items (.ofChannel id) ≠ 0 ∧
      amountFor target.items (.ofChannel id) = amountFor a.items (.ofChannel id)

/-- Whether there is room can be computed. -/
instance (a target : Allocation) (id : Hash) : Decidable (a.Admits target id) :=
  inferInstanceAs (Decidable (_ → _))

variable {a target : Allocation} {id : Hash} {left : List AllocationItem} {sum : Uint256}

/-- There is room if no item of the channel is left. -/
theorem Reduced.admits_iff (h : Reduced a.items target.items left) :
    a.Admits target id ↔ .ofChannel id ∉ destinations left := by
  have whole := h.amounts (.ofChannel id)
  rw [h.members]
  constructor
  · intro admits remains
    obtain ⟨some, all⟩ := admits remains.1
    have rest := remains.2 (by omega)
    omega
  · -- An item that is gone was taken from, and nothing remained of it.
    intro gone member
    have taken : amountFor target.items (.ofChannel id) ≠ 0 := by
      intro none
      exact gone ⟨member, fun some => absurd none some⟩
    have none : amountFor left (.ofChannel id) = 0 := by
      by_contra some
      exact gone ⟨member, fun _ => some⟩
    omega

/-- An item beside another one of the channel is one too many. -/
theorem checkDistinct_of_mem {reserved : Allocation}
    (items : reserved.items = left ++ [⟨.ofChannel id, sum⟩])
    (distinct : (destinations left).Nodup) (again : .ofChannel id ∈ destinations left) :
    reserved.checkDistinct = .error (.duplicateDestination (.ofChannel id)) := by
  have row : reserved.items.map AllocationItem.destination =
      destinations left ++ [.ofChannel id] := by
    rw [items, List.map_append]
    rfl
  rw [checkDistinct, row, firstRepeat?_concat distinct again]

end Allocation

namespace Outcome

variable {o o' : Outcome} {assetHolder : Address} {id : Hash} {target before : Allocation}

/-- With room for the new item the outcome stays valid. -/
theorem validate_of_admits (valid : o.Valid) (found : o.allocation? assetHolder = some before)
    (reserves : o.reserve assetHolder target id = .ok o') (admits : before.Admits target id) :
    o'.validate = .ok () := by
  obtain ⟨before', during, found', reserved, rfl⟩ := reserve_eq_ok_iff_set.1 reserves
  obtain rfl : before = before' := Option.some.inj (found.symm.trans found')
  obtain ⟨left, sum, items, -, reduced⟩ :=
    Allocation.reserve_eq_ok (distinct_of_allocation? valid found) reserved
  have holds : during.Holds id sum left := ⟨items, reduced.admits_iff.1 admits⟩
  exact validate_eq_ok_iff.2
    (valid_set valid (isSome_find?_of_allocation? found) (holds.distinct reduced.distinct))

/-- Without room the new item repeats the channel's destination. -/
theorem validate_of_not_admits (valid : o.Valid)
    (found : o.allocation? assetHolder = some before)
    (reserves : o.reserve assetHolder target id = .ok o') (full : ¬before.Admits target id) :
    o'.validate = .error (.duplicateDestination (.ofChannel id)) := by
  obtain ⟨before', during, found', reserved, rfl⟩ := reserve_eq_ok_iff_set.1 reserves
  obtain rfl : before = before' := Option.some.inj (found.symm.trans found')
  obtain ⟨left, sum, items, -, reduced⟩ :=
    Allocation.reserve_eq_ok (distinct_of_allocation? valid found) reserved
  have again : .ofChannel id ∈ Allocation.destinations left := by
    by_contra gone
    exact full (reduced.admits_iff.2 gone)
  exact validate_set_of_invalid valid (isSome_find?_of_allocation? found)
    (Allocation.checkDistinct_of_mem items reduced.distinct again)

end Outcome

/-! ### What becomes of a proposal -/

namespace State

open ConsensusData (ofState?)

variable {s p : State} {c : ConsensusData} {size : Nat} {t : TurnNum}

/-- After the first two rounds the rule of the application alone decides on
the next step of a state that is not final. -/
theorem validTransition_step (app : App) (running : s.isFinal = false) (size_lt : size < 2 ^ 32)
    (turns : 2 * size - 1 ≤ s.turnNum.toNat) (later : t.toNat = s.turnNum.toNat + 1) :
    app.validTransition s (s.step t c) size = app.accepts s (s.step t c) size := by
  have follows : (s.step t c).follows s := follows_iff.2 ⟨rfl, later⟩
  have runs : ¬(s.step t c).isFinal = true := by
    show ¬s.isFinal = true
    rw [running]
    decide
  have rounds : App.setupTurns size = .ok (2 * size) := if_pos (by omega)
  have past : ¬t.toNat < 2 * size := by omega
  rw [App.validTransition, if_neg (not_not_intro ⟨follows, rfl, rfl⟩), if_neg runs,
    if_neg (running ▸ Bool.false_ne_true), rounds]
  exact if_neg past

/-- A state whose data can not be read does not follow another one. -/
theorem not_accepted_of_unreadable {e : ConsensusError} (unreadable : ofState? p = .error e)
    (s : State) : App.consensus.accepts s p size = .ok false := by
  simp only [App.consensus, unreadable]
  split
  · rename_i isRead _
    cases isRead
  · rfl

/-- No state follows it either. -/
theorem not_accepts_of_unreadable {e : ConsensusError} (unreadable : ofState? p = .error e)
    (next : State) : App.consensus.accepts p next size = .ok false := by
  simp only [App.consensus, unreadable]

end State

namespace Store

open ConsensusData (ofState?)

section

variable {store : Store} {ledger channelId : Hash} {assetHolder : Address} {target : Allocation}
  {s proposal : State} {c : Channel}

/-- Let all participants of a ledger channel have signed a state after the
first two rounds that is not final, with a valid outcome. If there is a
proposal to fund the channel `channelId` (so no vote is running, and there are
at least two participants and less than `2 ^ 32`), then it starts a vote on
the outcome with the reserve. The others can read this vote, and the rule
lets the proposal follow, exactly if there is room for an item of the channel.
If there is none, the outcome names the channel twice and the data is refused.
Then no state at all may follow the proposal, and so nobody could vote on it
or stop the vote.

`fits` says that lengths can be written in 64 bits, as they can for everything
that is held in memory. -/
theorem votable_iff (isChannel : store.channel ledger = .ok c)
    (isLatest : store.latestState ledger = .ok (some s)) (running : s.isFinal = false)
    (valid : s.outcome.validate = .ok ()) (turns : 2 * c.size - 1 ≤ s.turnNum.toNat)
    (proposes : store.ledgerFundingProposal ledger assetHolder channelId target = .ok proposal)
    (fits : proposal.appData.length < 2 ^ 64) :
    ∃ before o votes, s.outcome.allocation? assetHolder = some before ∧
      s.outcome.reserve assetHolder target channelId = .ok o ∧ votes.toNat + 1 = c.size ∧
      (ofState? proposal = .ok ⟨votes, o⟩ ↔ before.Admits target channelId) ∧
      (App.consensus.validTransition s proposal c.size = .ok true ↔
        before.Admits target channelId) ∧
      (¬before.Admits target channelId →
        ofState? proposal = .error
          (.conversion (.invalidOutcome (.duplicateDestination (.ofChannel channelId)))) ∧
        ∀ next, App.consensus.accepts proposal next c.size = .ok false) := by
  have valid : s.outcome.Valid := Outcome.validate_eq_ok_iff.1 valid
  obtain ⟨s', c', o, isLatest', isChannel', reserves, proposed⟩ :=
    ledgerFundingProposal_eq_ok_iff.1 proposes
  obtain rfl : c = c' := Except.ok.inj (isChannel.symm.trans isChannel')
  obtain rfl : s = s' := Option.some.inj (Except.ok.inj (isLatest.symm.trans isLatest'))
  cases found : s.outcome.allocation? assetHolder with
  | none => simp [Outcome.reserve, found] at reserves
  | some before =>
    have writable : o.Writable := State.writable_of_propose proposed fits
    obtain ⟨a, votes, t, inState, atRest, restart, later, rfl⟩ :=
      State.propose_eq_ok_iff.1 proposed
    obtain ⟨-, size_lt, count⟩ := ConsensusData.votesFor?_eq_ok_iff.1 restart
    have some : votes ≠ 0 := (ConsensusData.votes_bounds restart).1
    have decides := State.validTransition_step (c := ⟨votes, o⟩) App.consensus running size_lt
      turns later
    refine ⟨before, o, votes, rfl, reserves, count, ?_⟩
    rw [decides]
    -- The proposal is written either way. It is the reader that looks at the outcome.
    by_cases admits : before.Admits target channelId
    · have readable : ofState? (s.step t ⟨votes, o⟩) = .ok ⟨votes, o⟩ :=
        ConsensusData.decode?_encode some
          (Outcome.validate_eq_ok_iff.1 (Outcome.validate_of_admits valid found reserves admits))
          writable
      have accepted : App.consensus.accepts s (s.step t ⟨votes, o⟩) c.size = .ok true :=
        (App.accepts_consensus_eq inState readable restart).2 (.opened atRest rfl rfl)
      exact ⟨iff_of_true readable admits, iff_of_true accepted admits, absurd admits⟩
    · have refused : ofState? (s.step t ⟨votes, o⟩) = .error
          (.conversion (.invalidOutcome (.duplicateDestination (.ofChannel channelId)))) :=
        ConsensusData.decode?_encode_of_invalid some
          (Outcome.validate_of_not_admits valid found reserves admits) writable
      refine ⟨iff_of_false ?_ admits, iff_of_false ?_ admits, fun _ => ⟨refused, ?_⟩⟩
      · rw [refused]
        simp
      · rw [State.not_accepted_of_unreadable refused]
        simp
      · intro next
        exact State.not_accepts_of_unreadable refused next

end

namespace Sample

/-- The state of the ledger channel at turn 5, after four units were reserved
for the new channel. -/
def reserved : State :=
  { state with
    turnNum := 5
    outcome := outcome [⟨alice, seven⟩, ⟨bob, seven⟩, ⟨.ofChannel newChannel, four⟩] }

/-- What the new channel gets when its own item is taken, with four units of
Bob's. -/
def merged : Allocation := ⟨[⟨.ofChannel newChannel, four⟩, ⟨bob, four⟩]⟩

/-- What it gets on top of its item otherwise. -/
def second : Allocation := ⟨[⟨bob, four⟩]⟩

/-- The proposal to reserve `items` and seven units for Alice. -/
def renewal (items : List AllocationItem) : State :=
  reserved.step 6 ⟨2, outcome (⟨alice, seven⟩ :: ⟨bob, seven.monus four⟩ :: items)⟩

/-- What the ledger reserves for the channel is proposed. -/
theorem proposal_renewal {target : Allocation} {items : List AllocationItem}
    (reserves : reserved.outcome.reserve .zero target newChannel =
      .ok (outcome (⟨alice, seven⟩ :: ⟨bob, seven.monus four⟩ :: items))) :
    (store reserved).ledgerFundingProposal .zero .zero newChannel target =
      .ok (renewal items) := by
  refine ledgerFundingProposal_eq_ok_iff.2 ⟨reserved, channel, _, latestState_store reserved,
    channel_store reserved, reserves, ?_⟩
  exact State.propose_eq_ok_iff.2
    ⟨.idle, 2, 6, ConsensusData.decode?_idle, rfl, rfl, rfl, rfl⟩

/-- A channel that is funded a second time has one item after it if its first
one is taken. Then the proposal can be read and may follow. -/
theorem votable_iff_merged :
    (store reserved).ledgerFundingProposal .zero .zero newChannel merged =
        .ok (renewal [⟨.ofChannel newChannel, ⟨8, by decide⟩⟩]) ∧
      App.consensus.validTransition reserved (renewal [⟨.ofChannel newChannel, ⟨8, by decide⟩⟩])
        channel.size = .ok true := by
  have proposes : (store reserved).ledgerFundingProposal .zero .zero newChannel merged =
      .ok (renewal [⟨.ofChannel newChannel, ⟨8, by decide⟩⟩]) := proposal_renewal (by rfl)
  obtain ⟨before, -, -, found, -, -, -, follows, -⟩ := votable_iff (channel_store reserved)
    (latestState_store reserved) rfl (by decide) (by decide) proposes (by decide +kernel)
  cases found
  exact ⟨proposes, follows.2 (by decide)⟩

/-- When it is not taken, there is a proposal too, but it can not be read and
may not follow. -/
theorem unreadable_second :
    reserved.outcome.validate = .ok () ∧ ofState? reserved = .ok .idle ∧
      reserved.isFinal = false ∧ 2 * channel.size - 1 ≤ reserved.turnNum.toNat ∧
      ∃ p, (store reserved).ledgerFundingProposal .zero .zero newChannel second = .ok p ∧
        ofState? p = .error
          (.conversion (.invalidOutcome (.duplicateDestination (.ofChannel newChannel)))) ∧
        App.consensus.validTransition reserved p channel.size = .ok false := by
  have refused : ofState? (renewal [⟨.ofChannel newChannel, four⟩, ⟨.ofChannel newChannel, four⟩]) =
      .error (.conversion (.invalidOutcome (.duplicateDestination (.ofChannel newChannel)))) :=
    ConsensusData.decode?_encode_of_invalid (by decide) (by rfl)
      (by unfold Outcome.Writable; decide +kernel)
  refine ⟨by decide, ConsensusData.decode?_idle, rfl, by decide, _, proposal_renewal (by rfl),
    refused, ?_⟩
  rw [renewal, State.validTransition_step App.consensus rfl (by decide) (by decide) rfl]
  exact State.not_accepted_of_unreadable refused reserved

end Sample

end Store

end StateChannels
