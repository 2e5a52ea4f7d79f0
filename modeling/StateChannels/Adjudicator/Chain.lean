import StateChannels.Adjudicator.Storage
import StateChannels.Allocation
import StateChannels.Support

/-!
# `StateChannels.Adjudicator.Chain`: the part of the protocol on the chain

The chain keeps a record of each channel, the holdings of the asset
holders and the withdrawals made so far. It has a clock, and the rules
of the applications are registered on it.
-/

set_option autoImplicit false

namespace StateChannels

/-- Why a call is refused. -/
inductive AdjudicatorError where
  | staleTurnNumRecord (expected actual : TurnNum)
  | invalidSupportProof (error : SupportError)
  | challengeNotActive
  | challengeAlreadyActive
  | wrongPredecessor
  | signerMismatch (expected recovered : Address)
  | outcomeHashMismatch
  | turnNumNotIncreased (record proposed : TurnNum)
  | wrongTurnNum (expected actual : TurnNum)
  | invalidTransition
  | notAllStatesFinal
  | challengerNotParticipant (challenger : Address)
  | unknownApp (address : Address)
  | notFinalized
  | holdingsBelowExpected (expected held : Uint256)
  | depositAlreadyMade (held : Uint256)
  | externalDestination (destination : Destination)
  | allocation (error : AllocationError)
  | signature (error : SignatureError)
deriving DecidableEq

/-- The text of an error. -/
def AdjudicatorError.message : AdjudicatorError → String
  | staleTurnNumRecord expected actual =>
    s!"turnNumRecord is {actual.toNat}, caller expected {expected.toNat}"
  | invalidSupportProof e => "invalid support proof: " ++ e.message
  | challengeNotActive => "no challenge is active"
  | challengeAlreadyActive => "a challenge is active or the channel is finalized"
  | wrongPredecessor => "challenge state does not match the stored digest"
  | signerMismatch expected recovered =>
    "signature recovers to " ++ recovered.text ++ ", expected " ++ expected.text
  | outcomeHashMismatch => "outcome does not match the stored outcome hash"
  | turnNumNotIncreased record proposed =>
    s!"turn {proposed.toNat} does not advance turnNumRecord {record.toNat}"
  | wrongTurnNum expected actual =>
    s!"response must be at turn {expected.toNat}, got {actual.toNat}"
  | invalidTransition => "response is not a valid transition from the challenge state"
  | notAllStatesFinal => "conclusion proof contains a non-final state"
  | challengerNotParticipant a => "challenger " ++ a.text ++ " is not a participant"
  | unknownApp a => "no app registered at " ++ a.text
  | notFinalized => "channel is not finalized"
  | holdingsBelowExpected expected held =>
    s!"holdings are {held.toNat}, below the expected {expected.toNat}"
  | depositAlreadyMade held => s!"holdings of {held.toNat} already cover the deposit"
  | externalDestination d => "cannot deposit to external destination " ++ d.text
  | allocation e => e.message
  | signature e => e.message

/-- Funds that were paid out to an external address. -/
@[ext] structure Withdrawal where
  assetHolder : Address
  channelId : Hash
  recipient : Address
  amount : Uint256
deriving DecidableEq

/-- The state of the chain. -/
structure Adjudicator where
  /-- The time of the chain. -/
  clock : Seconds
  /-- The rules of the applications. -/
  apps : AppRegistry
  channels : Table Hash ChannelStorage
  /-- What each asset holder keeps for each destination. -/
  holdings : Table (Address × Destination) Uint256
  /-- All withdrawals, in the order in which they were made. -/
  withdrawals : List Withdrawal

namespace Adjudicator

/-- The chain before the first call. -/
def start (clock : Seconds) (apps : AppRegistry) : Adjudicator where
  clock
  apps
  channels := ∅
  holdings := ∅
  withdrawals := []

/-- The chain at another time. -/
def atTime (adj : Adjudicator) (clock : Seconds) : Adjudicator := { adj with clock }

/-- The time that counts. It is never 0, for an end of 0 stands for
the absence of a challenge. -/
def now (adj : Adjudicator) : Seconds := if adj.clock = 0 then 1 else adj.clock

/-- The time that counts is the clock, but at least 1. -/
theorem toNat_now (adj : Adjudicator) : adj.now.toNat = max adj.clock.toNat 1 := by
  unfold now
  by_cases zero : adj.clock = 0
  · simp [zero]
  · have positive : adj.clock.toNat ≠ 0 := fun h => zero (UInt64.toNat_inj.1 h)
    rw [if_neg zero]
    omega

/-- The record of a channel. Without one the channel is at its
start. -/
def storage (adj : Adjudicator) (id : Hash) : ChannelStorage := (adj.channels.get? id).getD {}

/-- Where a channel is in a dispute. -/
def status (adj : Adjudicator) (id : Hash) : ChannelStatus := (adj.storage id).status adj.now

/-- The chain with another record of a channel. -/
def setStorage (adj : Adjudicator) (id : Hash) (s : ChannelStorage) : Adjudicator :=
  { adj with channels := adj.channels.insert id s }

/-- Time does not change the storage. -/
@[simp] theorem storage_atTime (adj : Adjudicator) (clock : Seconds) (id : Hash) :
    (adj.atTime clock).storage id = adj.storage id := rfl

/-- Storage does not change the time. -/
@[simp] theorem now_setStorage (adj : Adjudicator) (id : Hash) (s : ChannelStorage) :
    (adj.setStorage id s).now = adj.now := rfl

/-- Setting a channel's storage leaves that of the others. -/
@[simp] theorem storage_setStorage (adj : Adjudicator) (id other : Hash) (s : ChannelStorage) :
    (adj.setStorage id s).storage other = if other = id then s else adj.storage other := by
  unfold storage setStorage
  rw [Table.get?_insert]
  split <;> rfl

end Adjudicator

end StateChannels
