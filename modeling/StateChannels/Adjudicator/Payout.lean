import StateChannels.Adjudicator.Dispute

/-!
# `StateChannels.Adjudicator.Payout`: deposits and payouts

Asset holders keep funds for channels. A deposit tops the holdings of
a channel up to a sum, so that the same call made twice pays once. A
payout of a final channel serves the items of each allocation in
order, while the funds last. What is paid goes to an external address
or to the holdings of another channel. What is not paid remains in the
outcome. Guarantees are left as they are.
-/

set_option autoImplicit false

namespace StateChannels

namespace Adjudicator

/-- What an asset holder keeps for a destination. -/
def held (adj : Adjudicator) (assetHolder : Address) (d : Destination) : Uint256 :=
  (adj.holdings.get? (assetHolder, d)).getD .zero

/-- What is kept for a channel and for those that its outcome pays,
asset by asset. -/
def heldUnder (adj : Adjudicator) (id : Hash) (outcome : Outcome) : List Uint256 :=
  outcome.assets.flatMap fun asset =>
    let items := (asset.content.allocation?.map Allocation.items).getD []
    (.ofChannel id :: items.map AllocationItem.destination).map (adj.held asset.assetHolder)

end Adjudicator

/-- Tops the holdings of a channel up to `expected` and `amount`
together. They have to be at `expected` already. The result is what
was paid. -/
def Transaction.deposit (assetHolder : Address) (d : Destination) (expected amount : Uint256) :
    Transaction Uint256 := do
  if d.isExternal then refuse (.externalDestination d)
  let held ← see (·.held assetHolder d)
  if held < expected then refuse (.holdingsBelowExpected expected held)
  let target ← look fun _ => Failure.ofRule .allocation (expected.addOrRefuse amount)
  if target ≤ held then refuse (.depositAlreadyMade held)
  write fun adj => { adj with holdings := adj.holdings.insert (assetHolder, d) target }
  return target.monus held

/-- A deposit, and the chain after it. -/
def Adjudicator.deposit (adj : Adjudicator) (assetHolder : Address) (d : Destination)
    (expected amount : Uint256) :
    Except (Failure AdjudicatorError) (Uint256 × Adjudicator) :=
  (Transaction.deposit assetHolder d expected amount).commit adj

/-! ### Serving the items of an allocation -/

/-- An item of an allocation, with the part of it that is paid. -/
structure Payment where
  item : AllocationItem
  paid : Uint256
deriving DecidableEq

namespace Payment

/-- Serves items in order: each is paid in full while the funds last,
and the first one that is not takes what is left. The result is the
payments and the funds left over. -/
def serve (available : Uint256) : List AllocationItem → List Payment × Uint256
  | [] => ([], available)
  | item :: items =>
    let paid := min item.amount available
    let rest := serve (available.monus paid) items
    (⟨item, paid⟩ :: rest.1, rest.2)

/-- What is left of the item, if anything. -/
def unpaid? (p : Payment) : Option AllocationItem :=
  if p.paid < p.item.amount then
    some ⟨p.item.destination, p.item.amount.monus p.paid⟩
  else none

/-- The payment as a withdrawal, if something is paid to an external
address. -/
def withdrawal? (assetHolder : Address) (channelId : Hash) (p : Payment) : Option Withdrawal :=
  if p.paid = .zero then none
  else p.item.destination.address?.map fun recipient =>
    ⟨assetHolder, channelId, recipient, p.paid⟩

/-- The payment as a credit, if something is paid to a channel. -/
def credit? (assetHolder : Address) (p : Payment) :
    Option ((Address × Destination) × Uint256) :=
  if p.paid = .zero ∨ p.item.destination.isExternal then none
  else some ((assetHolder, p.item.destination), p.paid)

end Payment

/-- A payout in one asset. -/
structure AssetPayout where
  assetHolder : Address
  payments : List Payment
  /-- The funds of the channel left over. -/
  left : Uint256
deriving DecidableEq

namespace Adjudicator

/-- The payout of an entry of the outcome, unless it is a
guarantee. -/
def assetPayout? (adj : Adjudicator) (id : Hash) (asset : AssetOutcome) : Option AssetPayout :=
  asset.content.allocation?.map fun a =>
    let served := Payment.serve (adj.held asset.assetHolder (.ofChannel id)) a.items
    ⟨asset.assetHolder, served.1, served.2⟩

/-- The entry of the outcome after its payout. -/
def remainingAsset (adj : Adjudicator) (id : Hash) (asset : AssetOutcome) : AssetOutcome :=
  match adj.assetPayout? id asset with
  | some payout =>
    { asset with content := .allocation ⟨payout.payments.filterMap Payment.unpaid?⟩ }
  | none => asset

/-- The holdings after one credit. -/
def addCredit (holdings : Table (Address × Destination) Uint256)
    (credit : (Address × Destination) × Uint256) :
    Except AllocationError (Table (Address × Destination) Uint256) := do
  let sum ← ((holdings.get? credit.1).getD .zero).addOrRefuse credit.2
  return holdings.insert credit.1 sum

/-- The holdings after a payout of a channel. First the channel is
left with what is not paid, then the credits are added. -/
def holdingsAfter (adj : Adjudicator) (id : Hash) (payouts : List AssetPayout) :
    Except AllocationError (Table (Address × Destination) Uint256) :=
  let debited := payouts.foldl
    (fun holdings p => holdings.insert (p.assetHolder, .ofChannel id) p.left) adj.holdings
  let credits := payouts.flatMap fun p => p.payments.filterMap (Payment.credit? p.assetHolder)
  credits.foldlM addCredit debited

end Adjudicator

/-- Pays out a final channel under its outcome. The result is the
outcome that remains, whose digest takes the place of the old one.
All new balances are known before the first of them is written. -/
def Transaction.payout (id : Hash) (outcome : Outcome) : Transaction Outcome := do
  let stored ← see (·.storage id)
  let status ← see (·.status id)
  if status ≠ .finalized then refuse .notFinalized
  if outcome.hash ≠ stored.outcomeHash then refuse .outcomeHashMismatch
  let payouts ← see fun adj => outcome.assets.filterMap (adj.assetPayout? id)
  let remaining ← see fun adj => Outcome.mk (outcome.assets.map (adj.remainingAsset id))
  let holdings ← look fun adj => Failure.ofRule .allocation (adj.holdingsAfter id payouts)
  write fun adj => { adj with holdings }
  write fun adj => { adj with
    withdrawals := adj.withdrawals ++ payouts.flatMap fun p =>
      p.payments.filterMap (Payment.withdrawal? p.assetHolder id) }
  write (·.setStorage id { stored with outcomeHash := remaining.hash })
  return remaining

/-- A payout, and the chain after it. -/
def Adjudicator.payout (adj : Adjudicator) (id : Hash) (outcome : Outcome) :
    Except (Failure AdjudicatorError) (Outcome × Adjudicator) :=
  (Transaction.payout id outcome).commit adj

end StateChannels
