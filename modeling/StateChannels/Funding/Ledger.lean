import StateChannels.Funding.Error

/-!
# `StateChannels.Funding.Ledger`: funds out of a ledger channel

A ledger channel holds funds for other channels. To fund one, a new
outcome is proposed in which the funds are reserved for it, and to
close it one in which they are given back. Both are the start of a
vote in the ledger channel.
-/

set_option autoImplicit false

namespace StateChannels

namespace Store

/-- The state of a ledger channel that all participants signed. -/
def ledgerState (s : Store) (ledger : Hash) : Except FundingError State := do
  match ← (s.latestState ledger).mapError .store with
  | some state => return state
  | none => .error (.noSupportedState ledger)

/-- The state that proposes to reserve the amounts of `target` for
the channel `channelId`. -/
def ledgerFundingProposal (s : Store) (ledger : Hash) (assetHolder : Address)
    (channelId : Hash) (target : Allocation) : Except (Failure FundingError) State := do
  let current ← Failure.ofRule id (s.ledgerState ledger)
  let c ← Failure.ofRule .store (s.channel ledger)
  let outcome ← Failure.ofRule .allocation (current.outcome.reserve assetHolder target channelId)
  (current.propose outcome c.size).mapError (Failure.map .consensus)

/-- The state that proposes to give the funds of the channel `channelId`
back as `target` says. -/
def ledgerDefundingProposal (s : Store) (ledger : Hash) (assetHolder : Address)
    (channelId : Hash) (target : Allocation) : Except (Failure FundingError) State := do
  let current ← Failure.ofRule id (s.ledgerState ledger)
  let c ← Failure.ofRule .store (s.channel ledger)
  match current.outcome.allocation? assetHolder with
  | none => .error (.refused (.notAnAllocation assetHolder))
  | some a =>
    let released ← Failure.ofRule .allocation (a.release channelId target)
    let outcome := current.outcome.set ⟨assetHolder, .allocation released⟩
    (current.propose outcome c.size).mapError (Failure.map .consensus)

/-- Whether the supported outcome of a ledger channel reserves at
least `amount` for the channel `channelId`. -/
def isFundedByLedger (s : Store) (ledger : Hash) (assetHolder : Address)
    (channelId : Hash) (amount : Uint256) : Except FundingError Bool := do
  match ← (s.latestState ledger).mapError .store with
  | none => return false
  | some state =>
    let held? := (state.outcome.allocation? assetHolder).bind fun a =>
      a.amountOf? (.ofChannel channelId)
    return held?.any fun held => amount ≤ held

end Store

end StateChannels
