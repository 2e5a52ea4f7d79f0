import StateChannels.Adjudicator.Transaction

/-!
# `StateChannels.Adjudicator.Dispute`: challenges and their answers

The adjudicator is the part of the protocol that runs on the chain.
Whoever has a support proof can challenge with it. The challenge is
answered with the next state, with a later proof or with a
checkpoint. If none comes in time, the outcome of the challenge is
final. With a proof of final states a channel is concluded at once.

A call names the turn number record that the caller knows of, so that
of two calls made at the same time only one takes effect.

Each call is a `Transaction`. A challenge and a conclusion read the
clock twice: to see whether the channel is final, and to set the end
of the challenge time. The functions of the same names on
`Adjudicator` are the calls on a clock that stands still, and give the
new chain only when they succeed.
-/

set_option autoImplicit false

namespace StateChannels

namespace Adjudicator

/-- A refusal of the adjudicator. -/
def refuse {α : Type} (e : AdjudicatorError) : Except (Failure AdjudicatorError) α :=
  .error (.refused e)

/-- The rule of an application. -/
def app (adj : Adjudicator) (address : Address) : Except (Failure AdjudicatorError) App :=
  match adj.apps.get? address with
  | some app => .ok app
  | none => refuse (.unknownApp address)

/-- Checks a proof under the application of its last state. -/
def validate (adj : Adjudicator) (c : Channel) (p : SupportProof) :
    Except (Failure AdjudicatorError) Supported :=
  match p.latest? with
  | none => refuse (.invalidSupportProof .emptyProof)
  | some latest => do
    let app ← adj.app latest.appDefinition
    (p.validate c (some app)).mapError (Failure.map .invalidSupportProof)

/-- The record of a channel that is not final, if it is at the turn
that the caller expects. -/
def unfinalized (adj : Adjudicator) (id : Hash) (expected : TurnNum) :
    Except (Failure AdjudicatorError) ChannelStorage :=
  if adj.status id = .finalized then refuse .challengeAlreadyActive
  else if (adj.storage id).turnNumRecord ≠ expected then
    refuse (.staleTurnNumRecord expected (adj.storage id).turnNumRecord)
  else .ok (adj.storage id)

/-- The record of a channel under challenge, if it is at the turn
that the caller expects. -/
def underChallenge (adj : Adjudicator) (id : Hash) (expected : TurnNum) :
    Except (Failure AdjudicatorError) ChannelStorage := do
  let stored ← adj.unfinalized id expected
  if adj.status id = .challenged then return stored else refuse .challengeNotActive

/-- The account that signed a digest. -/
def recover (digest : Hash) (signature : Signature) :
    Except (Failure AdjudicatorError) Address :=
  Failure.ofRule .signature (recoverSigner digest signature)

/-- The turn that answers a challenge at `turn`. -/
def responseTurn (turn actual : TurnNum) : Except (Failure AdjudicatorError) TurnNum :=
  match turn.succ? with
  | none => refuse (.wrongTurnNum turn actual)
  | some expected =>
    if actual = expected then .ok expected else refuse (.wrongTurnNum expected actual)

end Adjudicator

namespace Transaction

open Adjudicator

/-- Challenges with the last state of a proof. The challenger, a
participant, signs the challenge digest of that state. -/
def challenge (lapse : Lapse) (c : Channel) (expected : TurnNum) (p : SupportProof)
    (signature : Signature) : Transaction ChannelStorage := do
  let stored ← look (·.unfinalized c.id expected)
  let supported ← look (·.validate c p)
  if supported.turnNum ≤ stored.turnNumRecord then
    refuse (.turnNumNotIncreased stored.turnNumRecord supported.turnNum)
  match p.latest? with
  | none => refuse (.invalidSupportProof .emptyProof)
  | some latest =>
    let challenger ← look fun _ => recover latest.challengeHash signature
    if challenger ∉ c.participants then refuse (.challengerNotParticipant challenger)
    elapse lapse
    let now ← see now
    let storage : ChannelStorage := {
      turnNumRecord := supported.turnNum
      finalizesAt := now.addCapped latest.challengeDuration
      stateHash := supported.stateHash
      challenger
      outcomeHash := supported.outcomeHash }
    write (·.setStorage c.id storage)
    return storage

/-- Answers a challenge with the next state, signed by its mover. -/
def respond (c : Channel) (expected : TurnNum) (challenged : State) (response : SignedState) :
    Transaction ChannelStorage := do
  let stored ← look (·.underChallenge c.id expected)
  if challenged.hash ≠ stored.stateHash then refuse .wrongPredecessor
  let next := response.state
  let turn ← look fun _ => responseTurn stored.turnNumRecord next.turnNum
  if next.channelId ≠ c.id then
    refuse (.invalidSupportProof (.channelIdMismatch c.id next.channelId))
  let recovered ← look fun _ => recover next.hash response.signature
  if recovered ≠ c.mover turn then refuse (.signerMismatch (c.mover turn) recovered)
  let app ← look (·.app challenged.appDefinition)
  let valid ← look fun _ => Failure.ofCounter (app.validTransition challenged next c.size)
  if !valid then refuse .invalidTransition
  write (·.setStorage c.id (.cleared turn))
  return .cleared turn

/-- Answers a challenge with a proof of a later state. -/
def respondWithAlternative (c : Channel) (expected : TurnNum) (p : SupportProof) :
    Transaction ChannelStorage := do
  let stored ← look (·.underChallenge c.id expected)
  let supported ← look (·.validate c p)
  if supported.turnNum ≤ stored.turnNumRecord then
    refuse (.turnNumNotIncreased stored.turnNumRecord supported.turnNum)
  write (·.setStorage c.id (.cleared supported.turnNum))
  return .cleared supported.turnNum

/-- Records a supported turn. A challenge is over with it. -/
def checkpoint (c : Channel) (expected : TurnNum) (p : SupportProof) :
    Transaction ChannelStorage := do
  let stored ← look (·.unfinalized c.id expected)
  let supported ← look (·.validate c p)
  if supported.turnNum < stored.turnNumRecord then
    refuse (.turnNumNotIncreased stored.turnNumRecord supported.turnNum)
  write (·.setStorage c.id (.cleared supported.turnNum))
  return .cleared supported.turnNum

/-- Makes a channel final at once, with a proof of final states. -/
def conclude (lapse : Lapse) (c : Channel) (p : SupportProof) : Transaction ChannelStorage := do
  let status ← see (·.status c.id)
  if status = .finalized then refuse .challengeAlreadyActive
  if p.states.any fun s => !s.isFinal then refuse .notAllStatesFinal
  let supported ← look (·.validate c p)
  elapse lapse
  let now ← see now
  let storage : ChannelStorage := { finalizesAt := now, outcomeHash := supported.outcomeHash }
  write (·.setStorage c.id storage)
  return storage

end Transaction

namespace Adjudicator

/-- A challenge, and the chain after it. -/
def challenge (adj : Adjudicator) (c : Channel) (expected : TurnNum) (p : SupportProof)
    (signature : Signature) :
    Except (Failure AdjudicatorError) (ChannelStorage × Adjudicator) :=
  (Transaction.challenge .none c expected p signature).commit adj

/-- An answer with the next state, and the chain after it. -/
def respond (adj : Adjudicator) (c : Channel) (expected : TurnNum) (challenged : State)
    (response : SignedState) :
    Except (Failure AdjudicatorError) (ChannelStorage × Adjudicator) :=
  (Transaction.respond c expected challenged response).commit adj

/-- An answer with a later proof, and the chain after it. -/
def respondWithAlternative (adj : Adjudicator) (c : Channel) (expected : TurnNum)
    (p : SupportProof) : Except (Failure AdjudicatorError) (ChannelStorage × Adjudicator) :=
  (Transaction.respondWithAlternative c expected p).commit adj

/-- A checkpoint, and the chain after it. -/
def checkpoint (adj : Adjudicator) (c : Channel) (expected : TurnNum) (p : SupportProof) :
    Except (Failure AdjudicatorError) (ChannelStorage × Adjudicator) :=
  (Transaction.checkpoint c expected p).commit adj

/-- A conclusion, and the chain after it. -/
def conclude (adj : Adjudicator) (c : Channel) (p : SupportProof) :
    Except (Failure AdjudicatorError) (ChannelStorage × Adjudicator) :=
  (Transaction.conclude .none c p).commit adj

end Adjudicator

end StateChannels
