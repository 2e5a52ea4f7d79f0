import StateChannels.State

/-!
# `StateChannels.Message`: what participants send each other

A message carries signed states, or a step in the negotiation of how
a channel gets its funds.
-/

set_option autoImplicit false

namespace StateChannels

/-- How a channel gets its funds. -/
inductive Strategy where
  /-- Every participant deposits on the chain. -/
  | direct
  /-- Funds are reserved in a ledger channel with the counterparty. -/
  | ledger
  /-- Funds come through ledger channels with a common hub. -/
  | virtual
deriving DecidableEq

/-- A step in the negotiation about the channel `target`. -/
inductive StrategyMessage where
  | proposal (target : Hash) (strategy : Strategy) (attempt : UInt32)
  | agreed (target : Hash) (strategy : Strategy)
  | rejected (target : Hash) (strategy : Strategy)
deriving DecidableEq

/-- The channel that the negotiation is about. -/
def StrategyMessage.target : StrategyMessage → Hash
  | proposal target _ _ => target
  | agreed target _ => target
  | rejected target _ => target

/-- A message between participants. -/
inductive Message where
  | signedStates (states : List SignedState)
  | strategy (m : StrategyMessage)
deriving DecidableEq

end StateChannels
