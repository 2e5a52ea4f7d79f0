import StateChannels.Funding.Error

/-!
# `StateChannels.Funding.Negotiation`: agreeing on a strategy

Before a channel is funded, its participants agree on how. One of
them proposes a strategy, and all have to accept the same proposal. A
rejection ends the attempt. After a number of attempts the
negotiation has failed.

An operation gives its result and the negotiation after it, also
where it is refused: the failure itself is a new status.
-/

set_option autoImplicit false

namespace StateChannels

/-- Where a negotiation stands. -/
inductive NegotiationStatus where
  /-- No proposal is open. -/
  | idle
  /-- Others have to accept the strategy yet. -/
  | pending (strategy : Strategy)
  | agreed (strategy : Strategy)
  | failed
deriving DecidableEq

/-- The view of one participant of the negotiation about a
channel. -/
@[ext] structure Negotiation where
  target : Hash
  participants : List Address
  me : Address
  maxAttempts : UInt32
  attempts : UInt32
  status : NegotiationStatus
  /-- Who accepted the open proposal. -/
  acceptedBy : List Address
deriving DecidableEq

namespace Negotiation

/-- A new negotiation, for a participant. -/
def start (target : Hash) (participants : List Address) (me : Address) (maxAttempts : UInt32) :
    Except FundingError Negotiation :=
  if me ∈ participants then
    .ok { target, participants, me, maxAttempts, attempts := 0, status := .idle, acceptedBy := [] }
  else .error (.notAParticipant me)

/-- The negotiation has failed. -/
def fail {α : Type} (n : Negotiation) : Except FundingError α × Negotiation :=
  (.error (.negotiationFailed n.target n.attempts), { n with status := .failed })

/-- Opens an attempt. The proposer has accepted the strategy. -/
def openAttempt (n : Negotiation) (attempt : UInt32) (strategy : Strategy) (proposer : Address) :
    Negotiation :=
  { n with
    attempts := if n.attempts ≤ attempt then attempt else n.attempts
    status := .pending strategy
    acceptedBy := [proposer] }

/-- Agrees, if every participant accepted the open proposal. -/
def checkAgreed (n : Negotiation) : Negotiation :=
  match n.status with
  | .pending strategy =>
    if ∀ p ∈ n.participants, p ∈ n.acceptedBy then { n with status := .agreed strategy } else n
  | _ => n

/-- A participant accepted the open proposal. -/
def accept (n : Negotiation) (who : Address) : Negotiation :=
  { n with acceptedBy := who :: n.acceptedBy }.checkAgreed

/-- A participant rejected the open proposal. If it was the last
attempt, the negotiation has failed. -/
def reject {α : Type} (n : Negotiation) (result : α) : Except FundingError α × Negotiation :=
  if n.maxAttempts ≤ n.attempts then n.fail
  else (.ok result, { n with status := .idle, acceptedBy := [] })

/-- Proposes a strategy. The result is the message for all other
participants. -/
def propose (n : Negotiation) (strategy : Strategy) :
    Except FundingError StrategyMessage × Negotiation :=
  match n.status with
  | .failed => n.fail
  | .agreed _ => (.error (.proposalOpen n.target), n)
  | .pending _ => (.error (.proposalOpen n.target), n)
  | .idle =>
    if n.maxAttempts ≤ n.attempts then n.fail
    else
      let attempt := n.attempts + 1
      (.ok (.proposal n.target strategy attempt),
        (n.openAttempt attempt strategy n.me).checkAgreed)

/-- Takes in the proposal of another participant. One that is not
newer than the last attempt, or past the limit, is ignored. Otherwise
the result is the answer to it. -/
def handleProposal (n : Negotiation) (proposer : Address) (strategy : Strategy)
    (attempt : UInt32) (acceptable : List Strategy) :
    Except FundingError (Option StrategyMessage) × Negotiation :=
  if attempt ≤ n.attempts ∨ n.maxAttempts < attempt then (.ok none, n)
  else
    let n := n.openAttempt attempt strategy proposer
    if strategy ∈ acceptable then (.ok (some (.agreed n.target strategy)), n.accept n.me)
    else n.reject (some (.rejected n.target strategy))

/-- Takes in a message. The result is the answer to it, if there is
one. A strategy that is not in `acceptable` is rejected. -/
def handle (n : Negotiation) (sender : Address) (m : StrategyMessage)
    (acceptable : List Strategy) : Except FundingError (Option StrategyMessage) × Negotiation :=
  if m.target ≠ n.target then (.error (.wrongTarget n.target m.target), n)
  else if sender ∉ n.participants ∨ sender = n.me then (.error (.notAParticipant sender), n)
  else
    match n.status with
    | .agreed _ => (.ok none, n)
    | .failed => (.ok none, n)
    | status =>
      match m with
      | .proposal _ strategy attempt => n.handleProposal sender strategy attempt acceptable
      | .agreed _ strategy =>
        if status = .pending strategy then (.ok none, n.accept sender) else (.ok none, n)
      | .rejected _ strategy =>
        if status = .pending strategy then n.reject none else (.ok none, n)

end Negotiation

end StateChannels
