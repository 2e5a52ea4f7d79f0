import StateChannels.Adjudicator.Call
import StateChannels.Funding.Error

/-!
# `StateChannels.Funding.Direct`: deposits in order

Participants deposit on the chain one after another, in the order of
the allocation. Who deposits before everyone in front is covered
would pay for them if the channel became final with what is held
then.
-/

set_option autoImplicit false

namespace StateChannels

/-- What a participant does next. -/
inductive DirectFundingStatus where
  /-- Others have to deposit first, or have yet to deposit. -/
  | waitForTurn
  /-- Top the holdings up from `expected` by `amount`. -/
  | deposit (expected amount : Uint256)
  | funded
deriving DecidableEq

/-- The part of one participant in the funding of a channel. -/
@[ext] structure DirectFunding where
  channelId : Hash
  assetHolder : Address
  /-- The holdings at which it is the participant's turn. -/
  safeToDeposit : Uint256
  requiredDeposit : Uint256
  total : Uint256
deriving DecidableEq

namespace DirectFunding

/-- The funding of the item at `index` of an allocation. -/
def ofAllocation (channelId : Hash) (assetHolder : Address) (a : Allocation) (index : Nat) :
    Except FundingError DirectFunding :=
  match a.items[index]? with
  | none => .error (.participantIndex index a.items.length)
  | some item => do
    let safeToDeposit ← (Allocation.mk (a.items.take index)).total.mapError .allocation
    let total ← a.total.mapError .allocation
    return { channelId, assetHolder, safeToDeposit, requiredDeposit := item.amount, total }

/-- What to do at given holdings. -/
def status (f : DirectFunding) (held : Uint256) : DirectFundingStatus :=
  if f.total ≤ held then .funded
  else if held < f.safeToDeposit ∨
      f.safeToDeposit.toNat + f.requiredDeposit.toNat ≤ held.toNat then
    .waitForTurn
  else .deposit f.safeToDeposit f.requiredDeposit

/-- What to do at the holdings on the chain, and the call to make, if
it is the participant's turn. -/
def poll (f : DirectFunding) (adj : Adjudicator) : DirectFundingStatus × Option Call :=
  let d := Destination.ofChannel f.channelId
  let status := f.status (adj.held f.assetHolder d)
  match status with
  | .deposit expected amount => (status, some (.deposit f.assetHolder d expected amount))
  | _ => (status, none)

end DirectFunding

end StateChannels
