import StateChannels.Outcome

/-!
# `StateChannels.Allocation`: moving funds inside an allocation

Funds for a new channel are taken out of the allocation of a ledger
channel and put under one destination (`reserve`). When the new
channel is closed they go back (`release`). Both move amounts between
destinations, and no step creates or destroys any. Amounts are
checked. All participants get the same result, so the order of the
steps is fixed.
-/

set_option autoImplicit false

namespace StateChannels

/-- Why funds cannot be moved. -/
inductive AllocationError where
  | destinationMissing (destination : Destination)
  | insufficientFunds (destination : Destination) (available requested : Uint256)
  | overflow
  | targetMissing (target : Destination)
  | targetAmountMismatch (held expected : Uint256)
  | assetHolderMissing (holder : Address)
deriving DecidableEq

/-- The text of an error. -/
def AllocationError.message : AllocationError → String
  | destinationMissing d => "destination " ++ d.text ++ " is not part of the allocation"
  | insufficientFunds d available requested =>
    "destination " ++ d.text ++ s!" holds {available.toNat}, cannot take {requested.toNat}"
  | overflow => "amount overflow"
  | targetMissing d => "target " ++ d.text ++ " must appear exactly once in the allocation"
  | targetAmountMismatch held expected =>
    s!"target holds {held.toNat}, but its allocation sums to {expected.toNat}"
  | assetHolderMissing a => "no allocation for asset holder " ++ a.text

/-- The sum of two amounts, or the error that it is too large. -/
def Uint256.addOrRefuse (a b : Uint256) : Except AllocationError Uint256 :=
  match a.add? b with
  | some c => .ok c
  | none => .error .overflow

/-- A checked sum is the sum of the numbers. -/
theorem Uint256.addOrRefuse_eq_ok_iff {a b c : Uint256} :
    a.addOrRefuse b = .ok c ↔ c.toNat = a.toNat + b.toNat := by
  unfold addOrRefuse
  rw [← add?_eq_some_iff]
  cases a.add? b <;> simp

namespace Allocation

/-- The sum of all amounts. -/
def total (a : Allocation) : Except AllocationError Uint256 :=
  a.items.foldlM (fun sum item => sum.addOrRefuse item.amount) .zero

/-- The items after taking `amount` from the first one for `d`. An
item that reaches zero is removed. -/
def takeFrom (d : Destination) (amount : Uint256) :
    List AllocationItem → Except AllocationError (List AllocationItem)
  | [] => .error (.destinationMissing d)
  | item :: items =>
    if item.destination = d then
      match item.amount.sub? amount with
      | none => .error (.insufficientFunds d item.amount amount)
      | some left =>
        .ok (if left = .zero then items else { item with amount := left } :: items)
    else (item :: ·) <$> takeFrom d amount items

/-- The allocation after taking `amount` from a destination. Nothing
can be taken from any destination, also from a missing one. -/
def take (a : Allocation) (amount : Uint256) (d : Destination) :
    Except AllocationError Allocation :=
  if amount = .zero then .ok a else .mk <$> takeFrom d amount a.items

/-- The allocation after taking every one of `items`, together with
`sum` and all that was taken. -/
def takeAll (a : Allocation) (sum : Uint256) :
    (items : List AllocationItem) → Except AllocationError (Allocation × Uint256)
  | [] => .ok (a, sum)
  | item :: items => do
    let a ← a.take item.amount item.destination
    let sum ← sum.addOrRefuse item.amount
    a.takeAll sum items

/-- Takes the amounts of `target` and puts their sum under the
channel `id`, as a new item at the end. -/
def reserve (ledger target : Allocation) (id : Hash) : Except AllocationError Allocation := do
  let (left, sum) ← ledger.takeAll .zero target.items
  return ⟨left.items ++ [⟨.ofChannel id, sum⟩]⟩

/-- The items after giving an amount to its destination: to the first
item there, or as a new item at the end. -/
def creditTo (credit : AllocationItem) :
    List AllocationItem → Except AllocationError (List AllocationItem)
  | [] => .ok [credit]
  | item :: items =>
    if item.destination = credit.destination then do
      let sum ← item.amount.addOrRefuse credit.amount
      return { item with amount := sum } :: items
    else (item :: ·) <$> creditTo credit items

/-- Removes the one item of the channel `id`, and gives each amount
of `target` back to its destination. The item has to hold what the
amounts sum to. -/
def release (ledger : Allocation) (id : Hash) (target : Allocation) :
    Except AllocationError Allocation :=
  let d := Destination.ofChannel id
  match ledger.items.filter fun item => item.destination = d with
  | [held] => do
    let expected ← target.total
    if held.amount = expected then
      let rest := ledger.items.filter fun item => item.destination ≠ d
      let credits := target.items.filter fun item => item.amount ≠ .zero
      .mk <$> credits.foldlM (fun items credit => creditTo credit items) rest
    else .error (.targetAmountMismatch held.amount expected)
  | _ => .error (.targetMissing d)

end Allocation

/-- The outcome with funds of one asset holder reserved for a
channel. -/
def Outcome.reserve (o : Outcome) (assetHolder : Address) (target : Allocation) (id : Hash) :
    Except AllocationError Outcome :=
  match o.allocation? assetHolder with
  | none => .error (.assetHolderMissing assetHolder)
  | some ledger => do
    let a ← ledger.reserve target id
    return o.set ⟨assetHolder, .allocation a⟩

end StateChannels
