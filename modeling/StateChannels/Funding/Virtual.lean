import StateChannels.Funding.Ledger

/-!
# `StateChannels.Funding.Virtual`: funds through a hub

Two leaves without a ledger channel of their own fund a channel
through a hub that both have one with. The three share a joint channel
that allocates `[A: a, Hub: a + b, B: b]`. Each leaf opens a guarantor
channel with the hub, which guarantees the joint channel and is funded
out of their ledger channel. Then the joint channel is reallocated to
`[target: a + b, Hub: a + b]`.
-/

set_option autoImplicit false

namespace StateChannels

/-- A place in the joint channel. -/
inductive VirtualRole where
  | leafA
  | hub
  | leafB
deriving DecidableEq

namespace VirtualRole

/-- The index of the participant in this role. -/
def index : VirtualRole → Nat
  | leafA => 0
  | hub => 1
  | leafB => 2

/-- The role of the participant at an index. -/
def ofIndex? : Nat → Option VirtualRole
  | 0 => some leafA
  | 1 => some hub
  | 2 => some leafB
  | _ => none

/-- What a role is called. -/
def name : VirtualRole → String
  | leafA => "A"
  | hub => "Hub"
  | leafB => "B"

end VirtualRole

/-- What a leaf has to get supported, in this order. -/
@[ext] structure VirtualFundingPlan where
  guarantor : Channel
  /-- The first state of the guarantor channel. -/
  guarantorState : State
  /-- What the ledger channel reserves for the guarantor channel. -/
  deductions : Allocation
  /-- The proposal in the ledger channel. -/
  ledgerProposal : State
  /-- The state of the joint channel that funds the target. -/
  jointUpdate : State
deriving DecidableEq

/-- The three participants and the three amounts of a joint
channel. -/
structure JointShares where
  participants : Vector Address 3
  items : Vector AllocationItem 3
deriving DecidableEq

/-- The shares in a joint channel: three participants, who are the
destinations of the allocation in their order, and the hub has what
the leaves have together. -/
def JointShares.of? (joint : Channel) (a : Allocation) : Option JointShares :=
  match joint.participants, a.items with
  | [pa, ph, pb], [ia, ih, ib] =>
    if [ia, ih, ib].map AllocationItem.destination = [pa, ph, pb].map Destination.ofAddress ∧
        ia.amount.add? ib.amount = some ih.amount then
      some ⟨#v[pa, ph, pb], #v[ia, ih, ib]⟩
    else none
  | _, _ => none

/-- Checks the allocation of a joint channel. -/
def validateJointAllocation (joint : Channel) (a : Allocation) : Except FundingError Unit :=
  match JointShares.of? joint a with
  | some _ => .ok ()
  | none => .error .invalidJointAllocation

/-- The guarantor channel of a leaf with the hub. -/
def JointShares.guarantor (shares : JointShares) (joint : Channel) (me : Fin 3)
    (nonce : Uint256) : Except ChannelError Channel :=
  Channel.create joint.chainId [shares.participants[me], shares.participants[1]] nonce

/-- The first state of the guarantor channel: a guarantee for the
joint channel. -/
def guarantorState (guarantor : Channel) (jointId : Hash) (assetHolder : Address)
    (challengeDuration : Seconds) : State :=
  .first guarantor
    ⟨[⟨assetHolder, .guarantee ⟨jointId, guarantor.participants.map .ofAddress⟩⟩]⟩
    .zero [] challengeDuration

/-- What the ledger channel of a leaf reserves: the hub covers the
share of the other leaf, the leaf its own. -/
def JointShares.deductions (shares : JointShares) (me : Fin 3) : Allocation :=
  ⟨[⟨.ofAddress shares.participants[1], shares.items[2 - me].amount⟩, shares.items[me]]⟩

/-- The allocation that funds the target: all of it for the target,
and as much again for the hub. -/
def JointShares.update (shares : JointShares) (target : Hash) : Allocation :=
  ⟨[⟨.ofChannel target, shares.items[1].amount⟩,
    ⟨.ofAddress shares.participants[1], shares.items[1].amount⟩]⟩

/-- Plans the virtual funding of a target channel for the leaf at
`index` of the joint channel. The joint channel and the ledger channel
need a supported state, and the latter may not be in a vote. -/
def Store.planVirtualFunding (s : Store) (jointId : Hash) (index : Nat) (ledger : Hash)
    (assetHolder : Address) (target : Hash) (nonce : Uint256) (challengeDuration : Seconds) :
    Except (Failure FundingError) VirtualFundingPlan := do
  let refuse (e : FundingError) : Except (Failure FundingError) VirtualFundingPlan :=
    .error (.refused e)
  let joint ← Failure.ofRule .store (s.channel jointId)
  if h : index < 3 then
    if index = VirtualRole.hub.index then refuse .hubIsNotALeaf
    else
      match ← Failure.ofRule .store (s.latestState jointId) with
      | none => refuse (.noSupportedState jointId)
      | some jointState =>
        match jointState.outcome.allocation? assetHolder with
        | none => refuse (.notAnAllocation assetHolder)
        | some a =>
          match JointShares.of? joint a with
          | none => refuse .invalidJointAllocation
          | some shares =>
            let me : Fin 3 := ⟨index, h⟩
            let guarantor ← Failure.ofRule .channel (shares.guarantor joint me nonce)
            let deductions := shares.deductions me
            let ledgerProposal ←
              s.ledgerFundingProposal ledger assetHolder guarantor.id deductions
            let next ← Failure.ofCounter jointState.next
            return {
              guarantor, deductions, ledgerProposal
              guarantorState := guarantorState guarantor jointId assetHolder challengeDuration
              jointUpdate := { next with
                outcome := next.outcome.set
                  ⟨assetHolder, .allocation (shares.update target)⟩ } }
  else refuse (.participantIndex index joint.size)

end StateChannels
