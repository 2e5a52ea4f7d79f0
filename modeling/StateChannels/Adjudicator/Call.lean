import StateChannels.Adjudicator.Payout

/-!
# `StateChannels.Adjudicator.Call`: transactions

The calls of the adjudicator as values, with their receipts, and
`Adjudicator.submit`, which makes a call. A run of the chain is a list
of calls.
-/

set_option autoImplicit false

namespace StateChannels

/-- A call of the adjudicator. -/
inductive Call where
  | challenge (c : Channel) (expected : TurnNum) (p : SupportProof) (signature : Signature)
  | respond (c : Channel) (expected : TurnNum) (challenged : State) (response : SignedState)
  | respondWithAlternative (c : Channel) (expected : TurnNum) (p : SupportProof)
  | checkpoint (c : Channel) (expected : TurnNum) (p : SupportProof)
  | conclude (c : Channel) (p : SupportProof)
  | deposit (assetHolder : Address) (d : Destination) (expected amount : Uint256)
  | payout (id : Hash) (outcome : Outcome)
deriving DecidableEq

/-- The channel that a call is about. -/
def Call.channelId : Call → Hash
  | challenge c .. => c.id
  | respond c .. => c.id
  | respondWithAlternative c .. => c.id
  | checkpoint c .. => c.id
  | conclude c _ => c.id
  | deposit _ d .. => d.toChannel
  | payout id _ => id

/-- What a call that succeeds gives back. -/
inductive Receipt where
  | storage (id : Hash) (s : ChannelStorage)
  | deposited (d : Destination) (amount : Uint256)
  | paidOut (id : Hash) (remaining : Outcome)
deriving DecidableEq

/-- The transaction that makes a call. -/
def Call.perform (lapse : Lapse) : Call → Transaction Receipt
  | challenge c expected p signature =>
    return .storage c.id (← Transaction.challenge lapse c expected p signature)
  | respond c expected challenged response =>
    return .storage c.id (← Transaction.respond c expected challenged response)
  | respondWithAlternative c expected p =>
    return .storage c.id (← Transaction.respondWithAlternative c expected p)
  | checkpoint c expected p => return .storage c.id (← Transaction.checkpoint c expected p)
  | conclude c p => return .storage c.id (← Transaction.conclude lapse c p)
  | deposit assetHolder d expected amount =>
    return .deposited d (← Transaction.deposit assetHolder d expected amount)
  | payout id outcome => return .paidOut id (← Transaction.payout id outcome)

/-- Makes a call. The clock stands still meanwhile. -/
def Adjudicator.submit (adj : Adjudicator) (x : Call) :
    Except (Failure AdjudicatorError) (Receipt × Adjudicator) :=
  (x.perform .none).commit adj

/-! ### Calls by what they give back -/

/-- The receipt of a dispute call on a channel. -/
def Receipt.ofDispute (c : Channel) (r : ChannelStorage × Adjudicator) : Receipt × Adjudicator :=
  (.storage c.id r.1, r.2)

namespace Adjudicator

variable {adj : Adjudicator}

/-- The result of a call comes with its receipt. -/
theorem commit_receipt {α : Type} (t : Transaction α) (receipt : α → Receipt) :
    (do return receipt (← t) : Transaction Receipt).commit adj =
      (fun made => (receipt made.1, made.2)) <$> t.commit adj := by
  rw [Transaction.commit_bind]
  cases t.commit adj <;> rfl

/-- A call in terms of the functions on the chain. -/
theorem submit_eq (x : Call) :
    adj.submit x =
      match x with
      | .challenge c expected p signature =>
        Receipt.ofDispute c <$> adj.challenge c expected p signature
      | .respond c expected challenged response =>
        Receipt.ofDispute c <$> adj.respond c expected challenged response
      | .respondWithAlternative c expected p =>
        Receipt.ofDispute c <$> adj.respondWithAlternative c expected p
      | .checkpoint c expected p => Receipt.ofDispute c <$> adj.checkpoint c expected p
      | .conclude c p => Receipt.ofDispute c <$> adj.conclude c p
      | .deposit assetHolder d expected amount =>
        (fun r => (.deposited d r.1, r.2)) <$> adj.deposit assetHolder d expected amount
      | .payout id outcome => (fun r => (.paidOut id r.1, r.2)) <$> adj.payout id outcome := by
  cases x <;> exact commit_receipt ..

end Adjudicator

end StateChannels
