import StateChannels.Allocation
import StateChannels.Consensus
import StateChannels.Store

/-!
# `StateChannels.Funding.Error`: why a channel is not funded

The errors of all ways to fund a channel, and of the negotiation about
them.
-/

set_option autoImplicit false

namespace StateChannels

/-- Why a channel is not funded. -/
inductive FundingError where
  | negotiationFailed (target : Hash) (attempts : UInt32)
  | proposalOpen (target : Hash)
  | wrongTarget (expected actual : Hash)
  | notAParticipant (address : Address)
  | noSupportedState (id : Hash)
  | participantIndex (index participants : Nat)
  | notAnAllocation (assetHolder : Address)
  | invalidJointAllocation
  | hubIsNotALeaf
  | store (error : StoreError)
  | consensus (error : ConsensusError)
  | allocation (error : AllocationError)
  | channel (error : ChannelError)
deriving DecidableEq

/-- The text of the error. -/
def FundingError.message : FundingError → String
  | negotiationFailed target attempts =>
    "no agreement on a funding strategy for " ++ target.text
      ++ s!" after {attempts.toNat} attempts"
  | proposalOpen target => "a strategy proposal for " ++ target.text ++ " is open or agreed"
  | wrongTarget expected actual =>
    "message is for channel " ++ actual.text ++ ", expected " ++ expected.text
  | notAParticipant a => a.text ++ " is not a participant"
  | noSupportedState id => "channel " ++ id.text ++ " has no supported state"
  | participantIndex index participants =>
    s!"participant index {index} out of range for {participants} participants"
  | notAnAllocation a => "asset outcome of " ++ a.text ++ " is not an allocation"
  | invalidJointAllocation => "joint channel allocation does not match its participants"
  | hubIsNotALeaf => "the hub does not fund virtually as a leaf"
  | store e => e.message
  | consensus e => e.message
  | allocation e => e.message
  | channel e => e.message

end StateChannels
