import StateChannels.Funding.Ledger
import StateChannels.Proofs.Allocation.Entry
import StateChannels.Proofs.Allocation.Release
import StateChannels.Proofs.Consensus.Vote

/-!
# `StateChannels.Proofs.Funding.Ledger`: funds go out of a ledger channel and come back

To fund a channel, the participants of a ledger channel vote on an outcome in
which the funds are reserved for it. To close it they vote on one in which
the funds are given back. If the first proposal can be made at all, then both
votes can be carried, the channel is funded in between, and in the end
everybody has what they had.

* `ledgerFundingProposal_eq_ok_iff`, `ledgerDefundingProposal_eq_ok_iff`: when
  there is a proposal, and which one it is.
* `Outcome.Reservation`: the allocation of an asset holder before a reserve,
  while it lasts, and after it was given back.
* `ledger_round_trip`: the whole way, there and back.
-/

set_option autoImplicit false

namespace StateChannels

/-! ### The outcomes -/

/-- The allocations of an asset holder around a reserve: before it, while the
funds are reserved, and after they were given back. -/
structure Outcome.Reservation (o o' : Outcome) (assetHolder : Address) (id : Hash)
    (target : Allocation) (sum : Uint256) (before during after : Allocation) : Prop where
  found : o.allocation? assetHolder = some before
  total : target.total = .ok sum
  replaced : o' = o.set ⟨assetHolder, .allocation during⟩
  distinct : (during.items.map AllocationItem.destination).Nodup
  held : during.amountOf? (.ofChannel id) = some sum
  released : during.release id target = .ok after
  perm : after.items.Perm before.items

namespace Outcome.Reservation

variable {o o' : Outcome} {assetHolder : Address} {id : Hash} {sum : Uint256}
  {target before during after : Allocation}

/-- In a valid outcome, what can be reserved for a new channel can be given
back. -/
theorem of_reserve (valid : o.Valid)
    (new : ∀ a, o.allocation? assetHolder = some a →
      .ofChannel id ∉ a.items.map AllocationItem.destination)
    (reserves : o.reserve assetHolder target id = .ok o') :
    ∃ sum before during after,
      Reservation o o' assetHolder id target sum before during after := by
  obtain ⟨before, during, found, reserved, rfl⟩ := reserve_eq_ok_iff_set.1 reserves
  have distinct := distinct_of_allocation? valid found
  obtain ⟨left, sum, items, total, reduced⟩ := Allocation.reserve_eq_ok distinct reserved
  have holds : during.Holds id sum left := ⟨items, reduced.new (new before found)⟩
  obtain ⟨after, released, perm⟩ := Allocation.exists_release holds reduced total distinct
  exact ⟨sum, before, during, after, found, total, rfl, holds.distinct reduced.distinct,
    holds.amountOf?, released, perm⟩

variable (r : Reservation o o' assetHolder id target sum before during after)
include r

/-- While the target is funded, the asset has the allocation with the
reserved entry. -/
theorem allocation?_during : o'.allocation? assetHolder = some during := by
  rw [r.replaced, allocation?_set]

/-- The reservation changes the asset's allocation alone. -/
theorem sameBut_during : SameBut assetHolder o o' := by
  rw [r.replaced]
  exact sameBut_set ⟨assetHolder, .allocation during⟩ (isSome_find?_of_allocation? r.found)

/-- The reservation keeps the outcome valid. -/
theorem valid_during (valid : o.Valid) : o'.Valid := by
  rw [r.replaced]
  exact valid_set valid (isSome_find?_of_allocation? r.found) r.distinct

/-- Giving back makes an outcome that does not depend on the reserve. -/
theorem set_after :
    o'.set ⟨assetHolder, .allocation after⟩ = o.set ⟨assetHolder, .allocation after⟩ := by
  rw [r.replaced]
  exact set_set rfl

/-- The release changes the asset's allocation alone. -/
theorem sameBut_after : SameBut assetHolder o (o.set ⟨assetHolder, .allocation after⟩) :=
  sameBut_set ⟨assetHolder, .allocation after⟩ (isSome_find?_of_allocation? r.found)

/-- The release keeps the outcome valid. -/
theorem valid_after (valid : o.Valid) : (o.set ⟨assetHolder, .allocation after⟩).Valid := by
  refine valid_set valid (isSome_find?_of_allocation? r.found) ?_
  exact (r.perm.map _).nodup_iff.2 (distinct_of_allocation? valid r.found)

/-- The release keeps the outcome writable. -/
theorem writable_after (writable : o.Writable) :
    (o.set ⟨assetHolder, .allocation after⟩).Writable := by
  rw [Writable, length_encode_set r.found r.perm]
  exact writable

end Outcome.Reservation

/-! ### The proposals -/

namespace Store

open ConsensusData (ofState? decode?_idle)

section

variable {store : Store} {ledger channelId : Hash} {assetHolder : Address}
  {target a : Allocation} {s proposal : State} {c : Channel} {sum : Uint256}

/-- The ledger's state is the latest one of its channel, which has to be
there. -/
theorem ledgerState_eq_ok_iff :
    store.ledgerState ledger = .ok s ↔ store.latestState ledger = .ok (some s) := by
  rw [ledgerState, bind_eq_ok_iff]
  simp only [mapError_eq_ok_iff]
  constructor
  · rintro ⟨latest, isLatest, found⟩
    cases latest with
    | none => cases found
    | some state =>
      cases found
      exact isLatest
  · intro isLatest
    exact ⟨_, isLatest, rfl⟩

/-- The funding proposal starts a vote on the outcome with the reserve. -/
theorem ledgerFundingProposal_eq_ok_iff :
    store.ledgerFundingProposal ledger assetHolder channelId target = .ok proposal ↔
      ∃ s c outcome, store.latestState ledger = .ok (some s) ∧ store.channel ledger = .ok c ∧
        s.outcome.reserve assetHolder target channelId = .ok outcome ∧
        s.propose outcome c.size = .ok proposal := by
  rw [ledgerFundingProposal]
  simp only [bind_eq_ok_iff, Failure.ofRule_eq_ok_iff, ledgerState_eq_ok_iff, mapError_eq_ok_iff]
  constructor
  · rintro ⟨s, isLatest, c, isChannel, outcome, reserved, proposed⟩
    exact ⟨s, c, outcome, isLatest, isChannel, reserved, proposed⟩
  · rintro ⟨s, c, outcome, isLatest, isChannel, reserved, proposed⟩
    exact ⟨s, isLatest, c, isChannel, outcome, reserved, proposed⟩

/-- The proposal to give funds back starts a vote on the outcome with the
release. -/
theorem ledgerDefundingProposal_eq_ok_iff :
    store.ledgerDefundingProposal ledger assetHolder channelId target = .ok proposal ↔
      ∃ s c a released, store.latestState ledger = .ok (some s) ∧ store.channel ledger = .ok c ∧
        s.outcome.allocation? assetHolder = some a ∧ a.release channelId target = .ok released ∧
        s.propose (s.outcome.set ⟨assetHolder, .allocation released⟩) c.size = .ok proposal := by
  rw [ledgerDefundingProposal]
  simp only [bind_eq_ok_iff, Failure.ofRule_eq_ok_iff, ledgerState_eq_ok_iff]
  constructor
  · rintro ⟨s, isLatest, c, isChannel, proposed⟩
    cases found : s.outcome.allocation? assetHolder with
    | none =>
      rw [found] at proposed
      cases proposed
    | some a =>
      rw [found] at proposed
      simp only [bind_eq_ok_iff, Failure.ofRule_eq_ok_iff, mapError_eq_ok_iff] at proposed
      obtain ⟨released, releases, proposed⟩ := proposed
      exact ⟨s, c, a, released, isLatest, isChannel, found, releases, proposed⟩
  · rintro ⟨s, c, a, released, isLatest, isChannel, found, releases, proposed⟩
    refine ⟨s, isLatest, c, isChannel, ?_⟩
    rw [found]
    simp only [bind_eq_ok_iff, Failure.ofRule_eq_ok_iff, mapError_eq_ok_iff]
    exact ⟨released, releases, proposed⟩

/-- A channel is funded with as much as its item holds. -/
theorem isFundedByLedger_of_held (isLatest : store.latestState ledger = .ok (some s))
    (found : s.outcome.allocation? assetHolder = some a)
    (held : a.amountOf? (.ofChannel channelId) = some sum) :
    store.isFundedByLedger ledger assetHolder channelId sum = .ok true := by
  rw [isFundedByLedger, isLatest]
  have enough : sum ≤ sum := Nat.le_refl _
  show Except.ok (((s.outcome.allocation? assetHolder).bind fun a =>
    a.amountOf? (.ofChannel channelId)).any fun held => sum ≤ held) = .ok true
  rw [found, Option.bind_some, held, Option.any_some, decide_eq_true enough]

/-! ### There and back -/

/-- Let all participants of a ledger channel have signed a state with a valid
outcome in which there is no item of the channel `channelId`. If they can
propose to fund the channel, then the votes of all others carry the proposal,
and in a store that supports the result the channel is funded. From there they
can propose to give the funds back, and carry it. In the end no vote is
running, the items of the asset holder are those of before in some order, and
the entries of other asset holders never change.

That there is a proposal means that no vote is running at the start, and that
there are at least two participants and less than `2 ^ 32`. `writable` and
`fits` say that lengths can be written in 64 bits, as they can for everything
that is held in memory. -/
theorem ledger_round_trip (isChannel : store.channel ledger = .ok c)
    (isLatest : store.latestState ledger = .ok (some s)) (valid : s.outcome.validate = .ok ())
    (turns : s.turnNum.toNat + 2 * c.size < 2 ^ 64)
    (new : ∀ a, s.outcome.allocation? assetHolder = some a →
      .ofChannel channelId ∉ a.items.map AllocationItem.destination)
    (proposes : store.ledgerFundingProposal ledger assetHolder channelId target = .ok proposal)
    (writable : s.outcome.Writable) (fits : proposal.appData.length < 2 ^ 64) :
    ∃ funded sum, proposal.carry (c.size - 2) = .ok funded ∧ target.total = .ok sum ∧
      s.outcome.SameBut assetHolder funded.outcome ∧
      ∀ store' : Store, store'.channel ledger = .ok c →
        store'.latestState ledger = .ok (some funded) →
        store'.isFundedByLedger ledger assetHolder channelId sum = .ok true ∧
        ∃ reversal settled,
          store'.ledgerDefundingProposal ledger assetHolder channelId target = .ok reversal ∧
          reversal.carry (c.size - 2) = .ok settled ∧ ofState? settled = .ok .idle ∧
          s.outcome.SameBut assetHolder settled.outcome ∧
          ∃ before after, s.outcome.allocation? assetHolder = some before ∧
            settled.outcome.allocation? assetHolder = some after ∧
            after.items.Perm before.items := by
  have valid : s.outcome.Valid := Outcome.validate_eq_ok_iff.1 valid
  obtain ⟨s', c', o', isLatest', isChannel', reserves, proposed⟩ :=
    ledgerFundingProposal_eq_ok_iff.1 proposes
  obtain rfl : c = c' := Except.ok.inj (isChannel.symm.trans isChannel')
  obtain rfl : s = s' := Option.some.inj (Except.ok.inj (isLatest.symm.trans isLatest'))
  obtain ⟨sum, before, during, after, r⟩ := Outcome.Reservation.of_reserve valid new reserves
  -- The first vote.
  obtain ⟨t, later, carried⟩ := State.carry_of_propose proposed (r.valid_during valid)
    (State.writable_of_propose proposed fits) (by omega)
  refine ⟨_, sum, carried, r.total, r.sameBut_during, ?_⟩
  intro store' isChannel' isFunded
  refine ⟨isFundedByLedger_of_held isFunded r.allocation?_during r.held, ?_⟩
  -- The second vote starts where the first one ended.
  obtain ⟨two_le, size_lt⟩ := State.size_of_propose proposed
  have turn : ({ s.step t .idle with outcome := o' } : State).turnNum.toNat =
      s.turnNum.toNat + c.size := later
  obtain ⟨reversal, reverses⟩ := State.exists_propose (s := { s.step t .idle with outcome := o' })
    decode?_idle (o'.set ⟨assetHolder, .allocation after⟩) two_le size_lt (by omega)
  have given := reverses
  rw [r.set_after] at given
  obtain ⟨t', -, settles⟩ := State.carry_of_propose given (r.valid_after valid)
    (r.writable_after writable) (by omega)
  refine ⟨reversal, _, ledgerDefundingProposal_eq_ok_iff.2 ⟨_, c, during, after, isFunded,
    isChannel', r.allocation?_during, r.released, reverses⟩, settles, decode?_idle,
    r.sameBut_after, before, after, r.found, Outcome.allocation?_set _ _ _, r.perm⟩

end

namespace Sample

/-- Alice's destination. -/
def alice : Destination := ⟨.replicate 32 1⟩

/-- Bob's destination. -/
def bob : Destination := ⟨.replicate 32 2⟩

/-- What Bob gives to the new channel. -/
def four : Uint256 := ⟨4, by decide⟩

/-- What Alice and Bob each have on the ledger. -/
def seven : Uint256 := ⟨7, by decide⟩

/-- What the new channel gets. -/
def eleven : Uint256 := ⟨11, by decide⟩

/-- A ledger channel of three participants. -/
def channel : Channel where
  chainId := .one
  participants := [⟨.replicate 20 1⟩, ⟨.replicate 20 2⟩, ⟨.replicate 20 3⟩]
  nonce := .zero
  ne_nil := by simp
  nodup := by decide

/-- Two asset holders. The first one has seven units for Alice and for Bob. -/
def outcome (items : List AllocationItem) : Outcome :=
  ⟨[⟨.zero, .allocation ⟨items⟩⟩, ⟨⟨.replicate 20 1⟩, .allocation ⟨[⟨bob, seven⟩]⟩⟩]⟩

/-- The state of the ledger channel at turn 4, with no vote running. -/
def state : State where
  channelId := .zero
  turnNum := 4
  isFinal := false
  outcome := outcome [⟨alice, seven⟩, ⟨bob, seven⟩]
  appDefinition := .zero
  appData := ConsensusData.idle.encode
  challengeDuration := 60

/-- A store in which all participants signed a state of the channel. -/
def store (s : State) : Store :=
  ⟨.insert ∅ .zero ⟨channel, some ⟨s, [], .ofState s⟩, []⟩⟩

/-- The channel to fund. -/
def newChannel : Hash := ⟨.replicate 32 3⟩

/-- It takes all of what Alice has, and a part of what Bob has. -/
def target : Allocation := ⟨[⟨alice, seven⟩, ⟨bob, four⟩]⟩

/-- The proposal, on which the other two participants have to vote. -/
def proposal : State :=
  state.step 5 ⟨2, outcome [⟨bob, ⟨3, by decide⟩⟩, ⟨.ofChannel newChannel, eleven⟩]⟩

/-- The store keeps the ledger channel. -/
theorem channel_store (s : State) : (store s).channel .zero = .ok channel := by
  simp [store, Store.channel, entry]

/-- The ledger's only state is its latest one. -/
theorem latestState_store (s : State) : (store s).latestState .zero = .ok (some s) := by
  simp [store, latestState, latest, entry]

/-- One vote and a last vote fund the new channel, and after one vote and a
last vote more Alice and Bob have what they had. -/
theorem ledger_round_trip_three :
    (store state).ledgerFundingProposal .zero .zero newChannel target = .ok proposal ∧
      ∃ funded, proposal.carry 1 = .ok funded ∧
        (store funded).isFundedByLedger .zero .zero newChannel eleven = .ok true ∧
        ∃ reversal settled,
          (store funded).ledgerDefundingProposal .zero .zero newChannel target = .ok reversal ∧
          reversal.carry 1 = .ok settled ∧ ofState? settled = .ok .idle := by
  have proposes : (store state).ledgerFundingProposal .zero .zero newChannel target =
      .ok proposal := by
    refine ledgerFundingProposal_eq_ok_iff.2 ⟨state, channel, _, latestState_store state,
      channel_store state, by rfl, ?_⟩
    exact State.propose_eq_ok_iff.2 ⟨.idle, 2, 5, decode?_idle, rfl, rfl, rfl, rfl⟩
  have new : ∀ a, state.outcome.allocation? .zero = some a →
      .ofChannel newChannel ∉ a.items.map AllocationItem.destination := by
    rintro a ⟨⟩
    decide
  obtain ⟨funded, sum, carried, total, -, back⟩ := ledger_round_trip (channel_store state)
    (latestState_store state) (by decide) (by decide) new proposes
    (by unfold Outcome.Writable; decide +kernel) (by decide +kernel)
  obtain rfl : eleven = sum := Except.ok.inj total
  obtain ⟨isFunded, reversal, settled, reverses, settles, idle, -⟩ :=
    back (store funded) (channel_store funded) (latestState_store funded)
  exact ⟨proposes, funded, carried, isFunded, reversal, settled, reverses, settles, idle⟩

end Sample

end Store

end StateChannels
