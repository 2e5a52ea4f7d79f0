import StateChannels.Config
import StateChannels.Funding.Negotiation
import StateChannels.Funding.Virtual
import StateChannels.Wire.Frame

/-!
# `StateChannels.Wallet`: one participant

A wallet signs for one account. It has a store, a queue of messages
for other participants, and a negotiation for each channel whose
funding is talked about. Messages wait in the queue until it is
flushed. A message that comes in and is refused is dropped.

An operation gives its result and the wallet after it, also where it
is refused. A refusal at a later stage, such as a full queue, does not
take back the stages before it.
-/

set_option autoImplicit false

namespace StateChannels

/-- Why a wallet refuses. -/
inductive WalletError where
  | config (error : ConfigError)
  | notAParticipant (address : Address)
  | invalidTransition (turnNum : TurnNum)
  | store (error : StoreError)
  | consensus (error : ConsensusError)
  | funding (error : FundingError)
  | outbox (error : OutboxError)
deriving DecidableEq

/-- The text of an error. -/
def WalletError.message : WalletError → String
  | config e => e.message
  | notAParticipant a => a.text ++ " is not a participant of the channel"
  | invalidTransition turnNum => s!"invalid transition to turn {turnNum.toNat}"
  | store e => e.message
  | consensus e => e.message
  | funding e => e.message
  | outbox e => e.message

/-- What changed when a message came in. -/
inductive Event where
  /-- Every participant signed a state. -/
  | supported (channelId : Hash) (x : Supported)
  | agreed (target : Hash) (strategy : Strategy)
  | negotiationFailed (target : Hash)
deriving DecidableEq

/-- A participant. -/
structure Wallet where
  signer : Signer
  config : Config
  apps : AppRegistry
  store : Store
  outbox : Outbox
  negotiations : Table Hash Negotiation
  /-- The strategies that are accepted when another one proposes. -/
  acceptable : List Strategy

/-- A result, or why there is none, with the wallet after the
operation. -/
abbrev WalletResult (α : Type) := Except (Failure WalletError) α × Wallet

namespace Wallet

/-- A new wallet, which accepts all strategies. -/
def create (signer : Signer) (config : Config) (apps : AppRegistry) :
    Except WalletError Wallet := do
  config.validate.mapError .config
  return {
    signer, config, apps
    store := .empty
    outbox := .empty config.outboxCapacity.toNat config.backpressure
    negotiations := ∅
    acceptable := [.direct, .ledger, .virtual] }

/-- The account of the wallet. -/
def address (w : Wallet) : Address := w.signer.address

/-- A refusal. -/
def refuse {α : Type} (w : Wallet) (e : WalletError) : WalletResult α := (.error (.refused e), w)

/-- Stores a channel in which the wallet takes part. The result is
its id. -/
def addChannel (w : Wallet) (c : Channel) : WalletResult Hash :=
  if w.address ∈ c.participants then
    match w.store.addChannel c with
    | .error e => w.refuse (.store e)
    | .ok (id, store) => (.ok id, { w with store })
  else w.refuse (.notAParticipant w.address)

/-- Takes all messages out of the queue. -/
def flush (w : Wallet) : List Letter × Wallet :=
  let flushed := w.outbox.flush
  (flushed.1, { w with outbox := flushed.2 })

/-- Queues a message for all other participants. -/
def broadcast (w : Wallet) (participants : List Address) (m : Message) :
    Except OutboxError Unit × Wallet :=
  let pushed := w.outbox.pushAll m (participants.filter fun p => p ≠ w.address)
  (pushed.1, { w with outbox := pushed.2 })

/-- Refuses a state that comes right after the supported one, if the
application of the new state is known and does not allow it. -/
def checkTransition (w : Wallet) (s : State) : Except (Failure WalletError) Unit :=
  match w.apps.get? s.appDefinition with
  | none => .ok ()
  | some app => do
    match ← Failure.ofRule .store (w.store.latestState s.channelId) with
    | none => return ()
    | some prev =>
      let c ← Failure.ofRule .store (w.store.channel s.channelId)
      let following ← Failure.ofCounter prev.turnNum.succ
      if s.turnNum = following then
        if !(← Failure.ofCounter (app.validTransition prev s c.size)) then
          .error (.refused (.invalidTransition s.turnNum))

/-- Signs a state, and queues the signature for the other
participants. The result is the new support, if it is complete. -/
def signAndSend (w : Wallet) (s : State) : WalletResult (Option Supported) :=
  match w.checkTransition s with
  | .error e => (.error e, w)
  | .ok () =>
    match w.store.channel s.channelId with
    | .error e => w.refuse (.store e)
    | .ok c =>
      let signed := SignedState.sign s w.signer
      match w.store.addSigned signed with
      | (.error e, store) => { w with store }.refuse (.store e)
      | (.ok supported, store) =>
        match { w with store }.broadcast c.participants (.signedStates [signed]) with
        | (.error e, w) => w.refuse (.outbox e)
        | (.ok (), w) => (.ok supported, w)

/-- Signs a state, if there is one. -/
def signAndSendNext (w : Wallet) (next : Except (Failure WalletError) State) :
    WalletResult (Option Supported) :=
  match next with
  | .error e => (.error e, w)
  | .ok s => w.signAndSend s

/-- Proposes to reserve funds in a ledger channel. -/
def proposeLedgerFunding (w : Wallet) (ledger : Hash) (assetHolder : Address)
    (channelId : Hash) (target : Allocation) : WalletResult (Option Supported) :=
  w.signAndSendNext
    ((w.store.ledgerFundingProposal ledger assetHolder channelId target).mapError
      (Failure.map .funding))

/-- The next vote in a ledger channel. It is the last one if one vote
is missing. -/
def nextVote (w : Wallet) (ledger : Hash) : Except (Failure WalletError) State := do
  match ← Failure.ofRule .store (w.store.latestState ledger) with
  | none => .error (.refused (.funding (.noSupportedState ledger)))
  | some current =>
    let c ← Failure.ofRule .consensus (ConsensusData.ofState? current)
    let next := if c.furtherVotes = 1 then current.finalVote else current.vote
    next.mapError (Failure.map .consensus)

/-- Votes for the open proposal of a ledger channel. -/
def voteOnLedger (w : Wallet) (ledger : Hash) : WalletResult (Option Supported) :=
  w.signAndSendNext (w.nextVote ledger)

/-- The plan for funding a channel through the hub of a joint
channel. -/
def virtualPlan (w : Wallet) (jointId ledger : Hash) (assetHolder : Address) (target : Hash)
    (nonce : Uint256) : Except (Failure WalletError) VirtualFundingPlan := do
  let joint ← Failure.ofRule .store (w.store.channel jointId)
  match joint.indexOf? w.address with
  | none => .error (.refused (.notAParticipant w.address))
  | some index =>
    (w.store.planVirtualFunding jointId index ledger assetHolder target nonce
      w.config.challengeDuration).mapError (Failure.map .funding)

/-- Stores a channel, unless it is stored. -/
def storeChannel (w : Wallet) (c : Channel) : Except WalletError Wallet :=
  if w.store.contains c.id then .ok w
  else
    match w.store.addChannel c with
    | .error e => .error (.store e)
    | .ok (_, store) => .ok { w with store }

/-- Plans to fund a channel through a hub. The guarantor channel is
stored and its first state signed. The other states of the plan are
left to the caller. -/
def fundVirtually (w : Wallet) (jointId ledger : Hash) (assetHolder : Address) (target : Hash)
    (nonce : Uint256) : WalletResult VirtualFundingPlan :=
  match w.virtualPlan jointId ledger assetHolder target nonce with
  | .error e => (.error e, w)
  | .ok plan =>
    match w.storeChannel plan.guarantor with
    | .error e => w.refuse e
    | .ok w =>
      match w.signAndSend plan.guarantorState with
      | (.error e, w) => (.error e, w)
      | (.ok _, w) => (.ok plan, w)

/-- The negotiation about a channel, which is started if there is
none. -/
def negotiation (w : Wallet) (c : Channel) (target : Hash) : Except FundingError Negotiation :=
  match w.negotiations.get? target with
  | some n => .ok n
  | none => Negotiation.start target c.participants w.address w.config.maxStrategyAttempts

/-- The wallet with another state of a negotiation. -/
def setNegotiation (w : Wallet) (target : Hash) (n : Negotiation) : Wallet :=
  { w with negotiations := w.negotiations.insert target n }

/-- Where the negotiation about a channel stands, if there is one. -/
def negotiationStatus? (w : Wallet) (target : Hash) : Option NegotiationStatus :=
  (w.negotiations.get? target).map Negotiation.status

/-- Proposes a strategy for a stored channel. -/
def proposeStrategy (w : Wallet) (target : Hash) (strategy : Strategy) : WalletResult Unit :=
  match w.store.channel target with
  | .error e => w.refuse (.store e)
  | .ok c =>
    match w.negotiation c target with
    | .error e => w.refuse (.funding e)
    | .ok n =>
      match n.propose strategy with
      | (.error e, n) => (w.setNegotiation target n).refuse (.funding e)
      | (.ok m, n) =>
        match (w.setNegotiation target n).broadcast c.participants (.strategy m) with
        | (.error e, w) => w.refuse (.outbox e)
        | (.ok (), w) => (.ok (), w)

/-! ### Incoming messages -/

/-- Takes in a signed state. -/
def handleSigned (w : Wallet) (signed : SignedState) : WalletResult (Option Event) :=
  match w.checkTransition signed.state with
  | .error e => (.error e, w)
  | .ok () =>
    match w.store.addSigned signed with
    | (.error e, store) => { w with store }.refuse (.store e)
    | (.ok supported, store) =>
      (.ok (supported.map (Event.supported signed.state.channelId)), { w with store })

/-- Takes in signed states, in order. One that is refused is dropped,
and the others are looked at all the same. -/
def handleAllSigned (w : Wallet) : List SignedState → Except Overflow (List Event) × Wallet
  | [] => (.ok [], w)
  | signed :: rest =>
    match w.handleSigned signed with
    | (.error (.overflow o), w) => (.error o, w)
    | (.error (.refused _), w) => w.handleAllSigned rest
    | (.ok event, w) =>
      let (events, w) := w.handleAllSigned rest
      (events.map (event.toList ++ ·), w)

/-- The message that answers `m`, given the result of the
negotiation. A rejection that was the last attempt is sent too. -/
def answer? (m : StrategyMessage) : Except FundingError (Option StrategyMessage) →
    Option StrategyMessage
  | .ok reply => reply
  | .error (.negotiationFailed _ _) =>
    match m with
    | .proposal target strategy _ => some (.rejected target strategy)
    | _ => none
  | .error _ => none

/-- The event of a status that changed to an agreement. -/
def agreement? (target : Hash) (before after : NegotiationStatus) : Option Event :=
  match after with
  | .agreed strategy => if before = after then none else some (.agreed target strategy)
  | _ => none

/-- Takes in a step of a negotiation. The answer is queued first, and
if there is no room for it, nothing is reported. -/
def handleStrategy (w : Wallet) (sender : Address) (m : StrategyMessage) :
    Except WalletError (Option Event) × Wallet :=
  match w.store.channel m.target with
  | .error e => (.error (.store e), w)
  | .ok c =>
    match w.negotiation c m.target with
    | .error e => (.error (.funding e), w)
    | .ok n =>
      let (result, after) := n.handle sender m w.acceptable
      let w := w.setNegotiation m.target after
      let (sent, w) :=
        match answer? m result with
        | some reply => w.broadcast c.participants (.strategy reply)
        | none => (.ok (), w)
      match sent, result with
      | .error e, _ => (.error (.outbox e), w)
      | .ok (), .error e => (.error (.funding e), w)
      | .ok (), .ok _ => (.ok (agreement? m.target n.status after.status), w)

/-- Takes in a message. The result is what changed. -/
def handleMessage (w : Wallet) (sender : Address) : Message → Except Overflow (List Event) × Wallet
  | .signedStates states => w.handleAllSigned states
  | .strategy m =>
    match w.handleStrategy sender m with
    | (.ok event, w) => (.ok event.toList, w)
    | (.error (.funding (.negotiationFailed target _)), w) =>
      (.ok [.negotiationFailed target], w)
    | (.error _, w) => (.ok [], w)

/-- Takes in the frame of an envelope. One that cannot be read is
dropped. -/
def handleBytes (w : Wallet) (frame : Bytes) : Except Overflow (List Event) × Wallet :=
  match Envelope.open? frame with
  | .ok (sender, m) => w.handleMessage sender m
  | .error _ => (.ok [], w)

end Wallet

end StateChannels
