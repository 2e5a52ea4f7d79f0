import StateChannels.Funding.Virtual
import StateChannels.Proofs.Consensus.Data
import StateChannels.Proofs.Funding.Ledger

/-!
# `StateChannels.Proofs.Funding.Virtual`: virtual funding balances

Virtual funding moves money in three channels at once. The hub pays into two
guarantor channels what the leaves have in the joint channel, and has as much
there itself. It is safe only if the amounts of the two plans fit together,
and nothing is lost on the way.

* `JointShares.Split`: the items of the joint channel, of which the hub has
  what the leaves have together.
* `Store.planVirtualFunding_eq_ok_iff`: when there is a plan, and which one.
* `Store.virtual_funding_balances`: what is taken, reserved and reallocated,
  for one leaf and for both.
-/

set_option autoImplicit false

namespace StateChannels

open Allocation (sumOf amountFor destinations)

/-! ### Totals -/

/-- What the content promises to destinations. A guarantee promises
nothing. -/
def AssetContent.amount : AssetContent → Nat
  | allocation a => sumOf a.items
  | guarantee _ => 0

namespace Outcome

variable {o o' : Outcome} {assetHolder : Address} {before after target : Allocation} {id : Hash}

/-- What an outcome promises to destinations in one asset. -/
def totalFor (o : Outcome) (assetHolder : Address) : Nat :=
  (o.assets.map fun asset => if asset.assetHolder = assetHolder then asset.content.amount
    else 0).sum

/-- Replacing an allocation by one with the same sum keeps the total. -/
theorem totalFor_set (found : o.allocation? assetHolder = some before)
    (same : sumOf after.items = sumOf before.items) :
    (o.set ⟨assetHolder, .allocation after⟩).totalFor assetHolder = o.totalFor assetHolder := by
  obtain ⟨front, back, split, -, replaced⟩ := assets_set found
  rw [totalFor, totalFor, replaced, split]
  simp [AssetContent.amount, same]

/-- A reserve moves funds of one asset holder, and loses nothing of them. -/
theorem totalFor_reserve (reserves : o.reserve assetHolder target id = .ok o') :
    o'.totalFor assetHolder = o.totalFor assetHolder ∧ SameBut assetHolder o o' := by
  obtain ⟨before, during, found, reserved, rfl⟩ := reserve_eq_ok_iff_set.1 reserves
  exact ⟨totalFor_set found (Allocation.sumOf_reserve reserved),
    sameBut_set ⟨assetHolder, .allocation during⟩ (isSome_find?_of_allocation? found)⟩

end Outcome

/-! ### The joint channel -/

/-- Different addresses have different destinations. -/
theorem Destination.ofAddress_inj {a b : Address} (same : Destination.ofAddress a = .ofAddress b) :
    a = b := by
  have found := congrArg Destination.address? same
  rw [Destination.address?_ofAddress, Destination.address?_ofAddress] at found
  exact Option.some.inj found

/-- The items of a joint channel, for A, for the hub and for B. They go to
three destinations, and the hub has what the others have together. -/
structure JointShares.Split (a h b : AllocationItem) : Prop where
  distinct : [a.destination, h.destination, b.destination].Nodup
  sum : a.amount.toNat + b.amount.toNat = h.amount.toNat

namespace JointShares

variable {joint : Channel} {allocation : Allocation} {shares : JointShares}
  {a h b : AllocationItem}

/-- What passes the check is split, and goes to the participants. The items
say what the leaves take, and what the joint channel is changed to. -/
theorem of?_eq_some (found : of? joint allocation = some shares) :
    ∃ a h b, allocation = ⟨[a, h, b]⟩ ∧
      [a, h, b].map AllocationItem.destination = joint.participants.map .ofAddress ∧
      Split a h b ∧ shares.deductions 0 = ⟨[⟨h.destination, b.amount⟩, a]⟩ ∧
      shares.deductions 2 = ⟨[⟨h.destination, a.amount⟩, b]⟩ ∧
      ∀ target, shares.update target =
        ⟨[⟨.ofChannel target, h.amount⟩, ⟨h.destination, h.amount⟩]⟩ := by
  unfold of? at found
  split at found
  · rename_i pa ph pb a h b participants items
    split at found
    · rename_i fits
      obtain ⟨destinations, sum⟩ := fits
      -- The destinations are those of the participants, who are distinct.
      have distinct : ([a, h, b].map AllocationItem.destination).Nodup := by
        rw [destinations]
        exact (participants ▸ joint.nodup).map fun _ _ => Destination.ofAddress_inj
      have hub : h.destination = .ofAddress ph :=
        (List.cons.inj (List.cons.inj destinations).2).1
      cases found
      refine ⟨a, h, b, Allocation.ext items, participants ▸ destinations,
        ⟨distinct, (Uint256.add?_eq_some_iff.1 sum).symm⟩, ?_⟩
      rw [hub]
      exact ⟨rfl, rfl, fun _ => rfl⟩
    · cases found
  · cases found

namespace Split

variable (split : Split a h b)
include split

/-- The two leaves may be swapped. -/
theorem symm : Split b h a where
  distinct := by simpa [and_comm, eq_comm, and_assoc] using split.distinct
  sum := (Nat.add_comm _ _).trans split.sum

/-- A leaf takes as much as the hub has: its own amount, and that of the
other leaf from the hub. -/
theorem total_deductions :
    (Allocation.mk [⟨h.destination, b.amount⟩, a]).total = .ok h.amount := by
  rw [Allocation.total_eq_ok_iff, ← split.sum]
  simp
  omega

/-- From the hub it takes what the other leaf has. -/
theorem amountFor_hub_deductions :
    amountFor [⟨h.destination, b.amount⟩, a] h.destination = b.amount.toNat := by
  have other : a.destination ≠ h.destination := fun same => by
    simpa [same] using split.distinct
  simp [other]

/-- The target and the hub get as much together as the three had. -/
theorem sumOf_update (target : Hash) :
    sumOf [⟨.ofChannel target, h.amount⟩, ⟨h.destination, h.amount⟩] = sumOf [a, h, b] := by
  have sum := split.sum
  simp
  omega

end Split

end JointShares

/-! ### Balance -/

open ConsensusData (ofState?)

/-- The plan of the leaf at `index` balances in the joint channel, whose state
`s` allocates the items `a`, `h` and `b`. -/
structure VirtualFundingPlan.JointBalanced (plan : VirtualFundingPlan) (index : Nat)
    (assetHolder : Address) (target : Hash) (s : State) (a h b : AllocationItem) : Prop where
  found : s.outcome.allocation? assetHolder = some ⟨[a, h, b]⟩
  /-- The hub has what the leaves have together. -/
  split : JointShares.Split a h b
  /-- The leaf pays its own amount, and the hub that of the other leaf. -/
  deductions : index = 0 ∧ plan.deductions = ⟨[⟨h.destination, b.amount⟩, a]⟩ ∨
    index = 2 ∧ plan.deductions = ⟨[⟨h.destination, a.amount⟩, b]⟩
  /-- Together they pay what the hub has. -/
  total : plan.deductions.total = .ok h.amount
  /-- The target gets this amount, and the hub as well. -/
  update : ∃ t : TurnNum, t.toNat = s.turnNum.toNat + 1 ∧
    plan.jointUpdate = { s with
      turnNum := t
      outcome := s.outcome.set ⟨assetHolder,
        .allocation ⟨[⟨.ofChannel target, h.amount⟩, ⟨h.destination, h.amount⟩]⟩⟩ }
  given : plan.jointUpdate.outcome.allocation? assetHolder =
    some ⟨[⟨.ofChannel target, h.amount⟩, ⟨h.destination, h.amount⟩]⟩
  /-- Nothing is lost, in this asset or another one. -/
  kept : plan.jointUpdate.outcome.totalFor assetHolder = s.outcome.totalFor assetHolder
  others : s.outcome.SameBut assetHolder plan.jointUpdate.outcome

/-- A proposal in the ledger channel `c` to reserve an amount for the channel
`channelId` balances: it proposes the outcome `o` after the state `s`. -/
structure LedgerBalanced (assetHolder : Address) (channelId : Hash) (amount : Uint256)
    (proposal s : State) (c : Channel) (o : Outcome) : Prop where
  proposed : s.propose o c.size = .ok proposal
  /-- Nothing is lost, in this asset or another one. -/
  kept : o.totalFor assetHolder = s.outcome.totalFor assetHolder
  others : s.outcome.SameBut assetHolder o
  /-- Whoever can read the proposal reads this outcome. -/
  read : ∀ c, ofState? proposal = .ok c → c.proposed = o
  /-- It can be read if the channel is new to a valid outcome. Then the amount
  is reserved for it. -/
  held : proposal.appData.length < 2 ^ 64 → s.outcome.validate = .ok () →
    (∀ a, s.outcome.allocation? assetHolder = some a →
      .ofChannel channelId ∉ destinations a.items) →
    ∃ votes during, ofState? proposal = .ok ⟨votes, o⟩ ∧
      o.allocation? assetHolder = some during ∧
      during.amountOf? (.ofChannel channelId) = some amount

/-- The plans of both leaves for the same state change the joint channel
alike, and together they take from the hub what it has there. -/
theorem VirtualFundingPlan.JointBalanced.pair {plan plan' : VirtualFundingPlan} {index index' : Nat}
    {assetHolder : Address} {target : Hash} {s : State} {a h b a' h' b' : AllocationItem}
    (balanced : plan.JointBalanced index assetHolder target s a h b)
    (balanced' : plan'.JointBalanced index' assetHolder target s a' h' b')
    (leaves : index + index' = 2) :
    plan'.jointUpdate = plan.jointUpdate ∧
      amountFor plan.deductions.items h.destination +
        amountFor plan'.deductions.items h.destination = h.amount.toNat := by
  have same := balanced.found.symm.trans balanced'.found
  obtain ⟨rfl, rfl, rfl⟩ : a = a' ∧ h = h' ∧ b = b' := by simpa using same
  obtain ⟨t, later, update⟩ := balanced.update
  obtain ⟨t', later', update'⟩ := balanced'.update
  obtain rfl : t = t' := UInt64.toNat_inj.1 (later.trans later'.symm)
  refine ⟨update'.trans update.symm, ?_⟩
  -- The hub puts in for each leaf what the other leaf has, and so its own amount in all.
  have forA := balanced.split.amountFor_hub_deductions
  have forB := balanced.split.symm.amountFor_hub_deductions
  have sum := balanced.split.sum
  rcases balanced.deductions with ⟨rfl, isA⟩ | ⟨rfl, isB⟩
  · rcases balanced'.deductions with ⟨rfl, -⟩ | ⟨-, isB⟩
    · cases leaves
    · rw [isA, isB, forA, forB]
      omega
  · rcases balanced'.deductions with ⟨-, isA⟩ | ⟨rfl, -⟩
    · rw [isA, isB, forA, forB]
      omega
    · cases leaves

namespace Store

variable {store : Store} {jointId ledger target channelId : Hash} {index : Nat}
  {assetHolder : Address} {nonce h : Uint256} {duration : Seconds} {plan : VirtualFundingPlan}
  {deductions : Allocation} {proposal : State}

/-- A plan is made out of the shares in the joint channel, for one of the
leaves. -/
theorem planVirtualFunding_eq_ok_iff :
    store.planVirtualFunding jointId index ledger assetHolder target nonce duration = .ok plan ↔
      ∃ joint s allocation shares guarantor proposal, ∃ me : Fin 3, ∃ t : TurnNum,
        store.channel jointId = .ok joint ∧ store.latestState jointId = .ok (some s) ∧
        s.outcome.allocation? assetHolder = some allocation ∧
        JointShares.of? joint allocation = some shares ∧ me.val = index ∧
        index ≠ VirtualRole.hub.index ∧ shares.guarantor joint me nonce = .ok guarantor ∧
        store.ledgerFundingProposal ledger assetHolder guarantor.id (shares.deductions me) =
          .ok proposal ∧
        t.toNat = s.turnNum.toNat + 1 ∧
        plan = {
          guarantor
          guarantorState := guarantorState guarantor jointId assetHolder duration
          deductions := shares.deductions me
          ledgerProposal := proposal
          jointUpdate := { s with
            turnNum := t
            outcome := s.outcome.set ⟨assetHolder, .allocation (shares.update target)⟩ } } := by
  simp only [planVirtualFunding, bind_eq_ok_iff, Failure.ofRule_eq_ok_iff]
  constructor
  -- Each lookup that finds nothing ends the planning, so in a plan all of them succeeded.
  · rintro ⟨joint, isJoint, planned⟩
    split at planned
    · rename_i inRange
      split at planned
      · cases planned
      · rename_i isLeaf
        obtain ⟨latest, isLatest, planned⟩ := bind_eq_ok_iff.1 planned
        cases latest with
        | none => cases planned
        | some s =>
          cases found : s.outcome.allocation? assetHolder with
          | none => simp [found] at planned
          | some allocation =>
            cases isShares : JointShares.of? joint allocation with
            | none => simp [found, isShares] at planned
            | some shares =>
              simp only [found, isShares, bind_eq_ok_iff, Failure.ofRule_eq_ok_iff,
                Failure.ofCounter_eq_ok_iff, State.next, TurnNum.succ_eq_ok_iff] at planned
              obtain ⟨guarantor, created, proposal, proposed, _, ⟨t, later, ⟨⟩⟩, ⟨⟩⟩ := planned
              exact ⟨joint, s, allocation, shares, guarantor, proposal, ⟨index, inRange⟩, t,
                isJoint, Failure.ofRule_eq_ok_iff.1 isLatest, found, isShares, rfl, isLeaf, created,
                proposed, later, rfl⟩
    · cases planned
  · rintro ⟨joint, s, allocation, shares, guarantor, proposal, me, t, isJoint, isLatest, found,
      isShares, rfl, isLeaf, created, proposed, later, rfl⟩
    refine ⟨joint, isJoint, ?_⟩
    rw [dif_pos me.isLt, if_neg isLeaf]
    refine bind_eq_ok_iff.2 ⟨some s, Failure.ofRule_eq_ok_iff.2 isLatest, ?_⟩
    simp only [found, isShares, bind_eq_ok_iff, Failure.ofRule_eq_ok_iff,
      Failure.ofCounter_eq_ok_iff, State.next, TurnNum.succ_eq_ok_iff]
    exact ⟨guarantor, created, proposal, proposed, _, ⟨t, later, rfl⟩, rfl⟩

/-- A funding proposal moves the sum of the deductions, and reads as what it
proposes. -/
theorem ledgerFundingProposal_balanced
    (proposes : store.ledgerFundingProposal ledger assetHolder channelId deductions =
      .ok proposal)
    (sum : deductions.total = .ok h) :
    ∃ s c o, store.latestState ledger = .ok (some s) ∧ store.channel ledger = .ok c ∧
      LedgerBalanced assetHolder channelId h proposal s c o := by
  obtain ⟨s, c, o, isLatest, isChannel, reserves, proposed⟩ :=
    ledgerFundingProposal_eq_ok_iff.1 proposes
  obtain ⟨kept, others⟩ := Outcome.totalFor_reserve reserves
  refine ⟨s, c, o, isLatest, isChannel, proposed, kept, others, ?_, ?_⟩
  · intro c' isRead
    obtain ⟨-, votes, t, -, -, restart, -, rfl⟩ := State.propose_eq_ok_iff.1 proposed
    have running := (ConsensusData.votes_bounds restart).1
    obtain ⟨rfl, -, -⟩ := (ConsensusData.decode?_encode_eq_ok_iff running).1 isRead
    rfl
  · intro fits valid new
    have valid : s.outcome.Valid := Outcome.validate_eq_ok_iff.1 valid
    obtain ⟨sum', before, during, after, r⟩ := Outcome.Reservation.of_reserve valid new reserves
    obtain rfl : h = sum' := Except.ok.inj (sum.symm.trans r.total)
    have writable := State.writable_of_propose proposed fits
    obtain ⟨-, votes, t, -, -, restart, -, rfl⟩ := State.propose_eq_ok_iff.1 proposed
    have running := (ConsensusData.votes_bounds restart).1
    exact ⟨votes, during, ConsensusData.decode?_encode running (r.valid_during valid) writable,
      r.allocation?_during, r.held⟩

/-- A plan balances in the joint channel, and takes the deductions out of the
ledger channel. -/
theorem planVirtualFunding_balanced
    (planned : store.planVirtualFunding jointId index ledger assetHolder target nonce duration =
      .ok plan) :
    ∃ joint s a h b, store.channel jointId = .ok joint ∧
      store.latestState jointId = .ok (some s) ∧
      [a, h, b].map AllocationItem.destination = joint.participants.map .ofAddress ∧
      plan.JointBalanced index assetHolder target s a h b ∧
      store.ledgerFundingProposal ledger assetHolder plan.guarantor.id plan.deductions =
        .ok plan.ledgerProposal := by
  obtain ⟨joint, s, allocation, shares, guarantor, proposal, me, t, isJoint, isLatest, found,
    isShares, rfl, isLeaf, -, proposed, later, rfl⟩ := planVirtualFunding_eq_ok_iff.1 planned
  obtain ⟨a, h, b, rfl, participants, split, forA, forB, updated⟩ :=
    JointShares.of?_eq_some isShares
  -- The hub, in the middle, is not allowed to plan.
  have bySide : me.val = 0 ∧ shares.deductions me = ⟨[⟨h.destination, b.amount⟩, a]⟩ ∨
      me.val = 2 ∧ shares.deductions me = ⟨[⟨h.destination, a.amount⟩, b]⟩ := by
    match me with
    | 0 => exact .inl ⟨rfl, forA⟩
    | 1 => exact absurd rfl isLeaf
    | 2 => exact .inr ⟨rfl, forB⟩
  have total : (shares.deductions me).total = .ok h.amount := by
    rcases bySide with ⟨-, isA⟩ | ⟨-, isB⟩
    · rw [isA]
      exact split.total_deductions
    · rw [isB]
      exact split.symm.total_deductions
  refine ⟨joint, s, a, h, b, isJoint, isLatest, participants, ?_, proposed⟩
  rw [updated]
  exact {
    found, split, total
    deductions := bySide
    update := ⟨t, later, rfl⟩
    given := Outcome.allocation?_set _ _ _
    kept := Outcome.totalFor_set found (split.sumOf_update target)
    others := Outcome.sameBut_set ⟨assetHolder, _⟩ (Outcome.isSome_find?_of_allocation? found) }

/-- A plan for virtual funding balances. In the joint channel the hub has what
the leaves have together. The leaf and the hub pay as much into the guarantor
channel, out of a ledger channel in which nothing else is lost. The target and
the hub get as much each, out of a joint channel in which nothing else is
lost. The plans that the leaves make apart from each other for one state of
the joint channel change it alike, and take from the hub together what it
has. -/
theorem virtual_funding_balances
    (planned : store.planVirtualFunding jointId index ledger assetHolder target nonce duration =
      .ok plan) :
    ∃ joint s a h b, store.channel jointId = .ok joint ∧
      store.latestState jointId = .ok (some s) ∧
      [a, h, b].map AllocationItem.destination = joint.participants.map .ofAddress ∧
      plan.JointBalanced index assetHolder target s a h b ∧
      (∃ current c o, store.latestState ledger = .ok (some current) ∧
        store.channel ledger = .ok c ∧
        LedgerBalanced assetHolder plan.guarantor.id h.amount plan.ledgerProposal current c o) ∧
      ∀ (store' : Store) index' ledger' nonce' duration' plan',
        store'.latestState jointId = store.latestState jointId → index + index' = 2 →
        store'.planVirtualFunding jointId index' ledger' assetHolder target nonce' duration' =
          .ok plan' →
        plan'.jointUpdate = plan.jointUpdate ∧
          amountFor plan.deductions.items h.destination +
            amountFor plan'.deductions.items h.destination = h.amount.toNat := by
  obtain ⟨joint, s, a, h, b, isJoint, isLatest, participants, balanced, proposed⟩ :=
    planVirtualFunding_balanced planned
  refine ⟨joint, s, a, h, b, isJoint, isLatest, participants, balanced,
    ledgerFundingProposal_balanced proposed balanced.total, ?_⟩
  intro store' index' ledger' nonce' duration' plan' sameState leaves planned'
  obtain ⟨-, s', a', h', b', -, isLatest', -, balanced', -⟩ := planVirtualFunding_balanced planned'
  have same := isLatest'.symm.trans (sameState.trans isLatest)
  obtain rfl : s' = s := Option.some.inj (Except.ok.inj same)
  exact balanced.pair balanced' leaves

namespace Sample

/-- The first leaf. -/
def leafA : Address := ⟨.replicate 20 1⟩

/-- The hub between the leaves. -/
def hub : Address := ⟨.replicate 20 2⟩

/-- The second leaf. -/
def leafB : Address := ⟨.replicate 20 3⟩

/-- A channel of a leaf with the hub. -/
def withHub (leaf : Address) (distinct : [leaf, hub].Nodup) : Channel :=
  ⟨.one, [leaf, hub], .zero, by simp, distinct⟩

/-- The shares in the joint channel: four units for A and seven for B. -/
def shares : JointShares where
  participants := #v[leafA, hub, leafB]
  items := #v[⟨.ofAddress leafA, four⟩, ⟨.ofAddress hub, eleven⟩, ⟨.ofAddress leafB, seven⟩]

/-- The state of the joint channel. -/
def jointState : State :=
  { state with outcome := .single .zero ⟨shares.items.toList⟩ }

/-- What a leaf has in its ledger channel, and what the hub has there. -/
def ledgerItems (leaf : Address) : Allocation :=
  ⟨[⟨.ofAddress leaf, seven⟩, ⟨.ofAddress hub, eleven⟩]⟩

/-- The state of the ledger channel, with no vote running. -/
def ledgerState (leaf : Address) : State :=
  { state with outcome := .single .zero (ledgerItems leaf) }

/-- The store of a leaf, with the joint channel and a ledger channel with the
hub. -/
def leafStore (leaf : Address) (distinct : [leaf, hub].Nodup) : Store :=
  let joint : StoreEntry := ⟨channel, some ⟨jointState, [], .ofState jointState⟩, []⟩
  let ledger : StoreEntry :=
    ⟨withHub leaf distinct, some ⟨ledgerState leaf, [], .ofState (ledgerState leaf)⟩, []⟩
  ⟨Table.insert (.insert ∅ .zero joint) newChannel ledger⟩

/-- The joint state is the latest one in the store of a leaf. -/
theorem latestState_leafStore (leaf : Address) (distinct : [leaf, hub].Nodup) :
    (leafStore leaf distinct).latestState .zero = .ok (some jointState) := rfl

/-- A leaf has a plan if the reserve can be made out of its ledger channel. -/
theorem exists_plan {leaf : Address} (distinct : [leaf, hub].Nodup) {o : Outcome} (me : Fin 3)
    (isLeaf : me.val ≠ VirtualRole.hub.index) (isMe : shares.participants.get me = leaf)
    (reserves : (ledgerState leaf).outcome.reserve .zero (shares.deductions me)
      (withHub leaf distinct).id = .ok o) :
    ∃ plan, (leafStore leaf distinct).planVirtualFunding .zero me.val newChannel .zero newChannel
      .zero 60 = .ok plan := by
  have isMe : shares.participants[me] = leaf := isMe
  have created : shares.guarantor channel me .zero = .ok (withHub leaf distinct) :=
    Channel.create_eq_ok_iff.2 ⟨by simp, by rw [isMe]; exact distinct, rfl, by rw [isMe]; rfl, rfl⟩
  have proposed : (leafStore leaf distinct).ledgerFundingProposal newChannel .zero
      (withHub leaf distinct).id (shares.deductions me) =
        .ok ((ledgerState leaf).step 5 ⟨1, o⟩) :=
    ledgerFundingProposal_eq_ok_iff.2 ⟨ledgerState leaf, withHub leaf distinct, o, rfl, rfl,
      reserves,
      State.propose_eq_ok_iff.2 ⟨.idle, 1, 5, ConsensusData.decode?_idle, rfl, rfl, rfl, rfl⟩⟩
  exact ⟨_, planVirtualFunding_eq_ok_iff.2 ⟨channel, jointState, _, shares, withHub leaf distinct,
    _, me, 5, rfl, rfl, rfl, rfl, rfl, isLeaf, created, proposed, rfl, rfl⟩⟩

/-- Both leaves plan the same update of the joint channel. The hub pays seven
units for B and four for A, which is what it gets there. -/
theorem virtual_funding_balances_eleven :
    ∃ planA planB,
      (leafStore leafA (by decide)).planVirtualFunding .zero 0 newChannel .zero newChannel .zero
        60 = .ok planA ∧
      (leafStore leafB (by decide)).planVirtualFunding .zero 2 newChannel .zero newChannel .zero
        60 = .ok planB ∧
      planB.jointUpdate = planA.jointUpdate ∧
      amountFor planA.deductions.items (.ofAddress hub) +
        amountFor planB.deductions.items (.ofAddress hub) = 11 := by
  obtain ⟨planA, plannedA⟩ := exists_plan (by decide) 0 (by decide) rfl (by rfl)
  obtain ⟨planB, plannedB⟩ := exists_plan (by decide) 2 (by decide) rfl (by rfl)
  obtain ⟨-, s, a, h, b, -, isLatest, -, balanced, -, pair⟩ := virtual_funding_balances plannedA
  obtain rfl : jointState = s :=
    Option.some.inj (Except.ok.inj ((latestState_leafStore leafA _).symm.trans isLatest))
  cases balanced.found
  have sameState : (leafStore leafB (by decide)).latestState .zero =
      (leafStore leafA (by decide)).latestState .zero :=
    (latestState_leafStore leafB _).trans (latestState_leafStore leafA _).symm
  obtain ⟨update, hubPays⟩ := pair _ 2 _ _ _ planB sameState rfl plannedB
  exact ⟨planA, planB, plannedA, plannedB, update, hubPays⟩

end Sample

end Store

end StateChannels
