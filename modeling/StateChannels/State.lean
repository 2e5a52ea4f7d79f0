import StateChannels.Channel
import StateChannels.Outcome
import StateChannels.Signing.Signer

/-!
# `StateChannels.State`: what participants sign

A state of a channel has a turn number, an outcome and the data of an
application. Its digest binds every field: the fields that the
application owns are hashed first, the outcome is hashed by itself,
and the two digests are hashed with the rest.
-/

set_option autoImplicit false

namespace StateChannels

/-- A state of a channel. -/
@[ext] structure State where
  channelId : Hash
  turnNum : TurnNum
  /-- A final state has nothing but final states after it. -/
  isFinal : Bool
  outcome : Outcome
  /-- The address of the application's rule. -/
  appDefinition : Address
  appData : Bytes
  /-- The time to answer a challenge with this state. -/
  challengeDuration : Seconds
deriving DecidableEq

namespace State

/-- The first state of a channel. -/
def first (c : Channel) (outcome : Outcome) (appDefinition : Address) (appData : Bytes)
    (challengeDuration : Seconds) : State where
  channelId := c.id
  turnNum := 0
  isFinal := false
  outcome
  appDefinition
  appData
  challengeDuration

/-- The ABI form of the application's part. -/
def appPart (s : State) : Abi.Token :=
  .tuple [.ofNat s.challengeDuration.toNat, .ofAddress s.appDefinition, .bytes s.appData]

/-- The digest of the application's part. -/
def appPartHash (s : State) : Hash := s.appPart.argsHash

/-- The ABI form of the whole state. -/
def token (s : State) : Abi.Token :=
  .tuple [.ofNat s.turnNum.toNat, .ofBool s.isFinal, .ofHash s.channelId,
    .ofHash s.appPartHash, .ofHash s.outcome.hash]

/-- The digest of a state. -/
def hash (s : State) : Hash := s.token.argsHash

/-- The ABI form of what a challenger signs: the state's digest and a
fixed text. -/
def challengeToken (s : State) : Abi.Token := .tuple [.ofHash s.hash, .ofText "forceMove"]

/-- The digest that a challenger signs. -/
def challengeHash (s : State) : Hash := s.challengeToken.argsHash

/-- The same state one turn later. -/
def next (s : State) : Except Overflow State := do
  let turnNum ← s.turnNum.succ
  return { s with turnNum }

/-- Whether `s` is in the same channel as `prev`, one turn later. -/
def follows (s prev : State) : Bool :=
  s.channelId = prev.channelId ∧ prev.turnNum.succ? = some s.turnNum

/-- One state follows another exactly if the channel is the same and
the turn number is one more. -/
theorem follows_iff {s prev : State} :
    s.follows prev ↔ s.channelId = prev.channelId ∧
      s.turnNum.toNat = prev.turnNum.toNat + 1 := by
  simp [follows, TurnNum.succ?_eq_some_iff]

end State

/-- A state with a participant's signature on its digest. -/
@[ext] structure SignedState where
  state : State
  signer : Address
  signature : Signature
deriving DecidableEq

/-- Signs a state. -/
def SignedState.sign (state : State) (signer : Signer) : SignedState :=
  ⟨state, signer.address, signer.sign state.hash⟩

end StateChannels
