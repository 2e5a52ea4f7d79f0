import StateChannels.Message
import StateChannels.Wire.Schema

/-!
# `StateChannels.Wire.Conversion`: records and what they stand for

Every value of the protocol has one record (`toRecord`). A record that
came over the wire may hold anything, so reading a value from it
checks lengths and presence, and that the outcome is valid
(`ofRecord?`). The first fault found decides the error. Of an entry
of an outcome the content is looked at before the asset holder.

Main statement: `Outcome.ofRecord?_toRecord`, the record of an outcome
stands for the outcome if that is valid.
-/

set_option autoImplicit false

namespace StateChannels

/-- Why a record stands for no value. -/
inductive ConversionError where
  | byteLength (field : String) (expected actual : Nat)
  | missing (what : String)
  | unknownStrategy (number : Int)
  | invalidOutcome (error : OutcomeError)
deriving DecidableEq

/-- The text of the error. It names the field. -/
def ConversionError.message : ConversionError → String
  | byteLength field expected actual => field ++ s!": expected {expected} bytes, got {actual}"
  | missing what => what ++ " is missing"
  | unknownStrategy number => s!"unknown funding strategy {number}"
  | invalidOutcome e => "invalid outcome: " ++ e.message

open Wire

/-- A value of `expected` bytes, or the error that `actual` are given. -/
def orByteLength {α : Type} (field : String) (expected actual : Nat) :
    Option α → Except ConversionError α
  | some a => .ok a
  | none => .error (.byteLength field expected actual)

/-- A part that has to be there. -/
def orMissing {α : Type} (what : String) : Option α → Except ConversionError α
  | some a => .ok a
  | none => .error (.missing what)

/-- The digest that a field holds. -/
def Hash.ofField? (field : String) (bs : Bytes) : Except ConversionError Hash :=
  orByteLength field 32 bs.length (Hash.ofBytes? bs)

/-- The address that a field holds. -/
def Address.ofField? (field : String) (bs : Bytes) : Except ConversionError Address :=
  orByteLength field 20 bs.length (Address.ofBytes? bs)

/-- The destination that a field holds. -/
def Destination.ofField? (bs : Bytes) : Except ConversionError Destination :=
  orByteLength "destination" 32 bs.length (Destination.ofBytes? bs)

/-- The amount that a field of at most 32 bytes holds. -/
def Uint256.ofField? (bs : Bytes) : Except ConversionError Uint256 :=
  orByteLength "amount" 32 bs.length (Uint256.ofBytes? bs)

/-- The signature that a field holds. -/
def Signature.ofField? (bs : Bytes) : Except ConversionError Signature :=
  orByteLength "signature" 65 bs.length (Signature.ofBytes? bs)

/-! ### Outcomes -/

/-- The record of an item. The amount takes all 32 bytes. -/
def AllocationItem.toRecord (item : AllocationItem) : ItemRecord :=
  ⟨item.destination.toBytes, item.amount.toBytes⟩

/-- The item of a record. The amount may have fewer bytes. -/
def AllocationItem.ofRecord? (r : ItemRecord) : Except ConversionError AllocationItem := do
  let destination ← Destination.ofField? r.destination
  let amount ← Uint256.ofField? r.amount
  return ⟨destination, amount⟩

/-- The record of an allocation. -/
def Allocation.toRecord (a : Allocation) : AllocationRecord :=
  ⟨a.items.map AllocationItem.toRecord⟩

/-- The allocation of a record. The first item that is not read decides the
error. -/
def Allocation.ofRecord? (r : AllocationRecord) : Except ConversionError Allocation := do
  let items ← r.items.mapM AllocationItem.ofRecord?
  return ⟨items⟩

/-- The record of a guarantee. -/
def Guarantee.toRecord (g : Guarantee) : GuaranteeRecord :=
  ⟨g.target.toBytes, g.destinations.map Destination.toBytes⟩

/-- The guarantee of a record: the target first, then the destinations in
order. -/
def Guarantee.ofRecord? (r : GuaranteeRecord) : Except ConversionError Guarantee := do
  let target ← Hash.ofField? "target_channel_id" r.target
  let destinations ← r.destinations.mapM Destination.ofField?
  return ⟨target, destinations⟩

/-- The record of the content of an entry. -/
def AssetContent.toRecord : AssetContent → ContentRecord
  | allocation a => .allocation a.toRecord
  | guarantee g => .guarantee g.toRecord

/-- The content of an entry, of the kind that the record is. -/
def AssetContent.ofRecord? : ContentRecord → Except ConversionError AssetContent
  | .allocation r => .allocation <$> Allocation.ofRecord? r
  | .guarantee r => .guarantee <$> Guarantee.ofRecord? r

/-- The record of an entry. -/
def AssetOutcome.toRecord (o : AssetOutcome) : AssetRecord :=
  ⟨o.assetHolder.toBytes, some o.content.toRecord⟩

/-- The entry of a record: the content first, then the asset holder. -/
def AssetOutcome.ofRecord? (r : AssetRecord) : Except ConversionError AssetOutcome := do
  let content ← orMissing "content" r.content
  let content ← AssetContent.ofRecord? content
  let assetHolder ← Address.ofField? "asset_holder" r.assetHolder
  return ⟨assetHolder, content⟩

namespace Outcome

/-- The record of an outcome. -/
def toRecord (o : Outcome) : OutcomeRecord := ⟨o.assets.map AssetOutcome.toRecord⟩

/-- The outcome, if it is valid. -/
def validated (o : Outcome) : Except ConversionError Outcome := do
  o.validate.mapError .invalidOutcome
  return o

/-- The outcome of a record. It is checked when all entries have been read. -/
def ofRecord? (r : OutcomeRecord) : Except ConversionError Outcome := do
  let assets ← r.assets.mapM AssetOutcome.ofRecord?
  validated ⟨assets⟩

end Outcome

/-! ### States and messages -/

/-- The record of a state. -/
def State.toRecord (s : State) : StateRecord where
  channelId := s.channelId.toBytes
  turnNum := s.turnNum
  isFinal := s.isFinal
  outcome := some s.outcome.toRecord
  appDefinition := s.appDefinition.toBytes
  appData := s.appData
  challengeDuration := s.challengeDuration

/-- The state of a record, field by field in the order of the wire. -/
def State.ofRecord? (r : StateRecord) : Except ConversionError State := do
  let channelId ← Hash.ofField? "channel_id" r.channelId
  let outcome ← orMissing "outcome" r.outcome
  let outcome ← Outcome.ofRecord? outcome
  let appDefinition ← Address.ofField? "app_definition" r.appDefinition
  return {
    channelId, outcome, appDefinition
    turnNum := r.turnNum
    isFinal := r.isFinal
    appData := r.appData
    challengeDuration := r.challengeDuration }

/-- The record of a signed state. -/
def SignedState.toRecord (s : SignedState) : SignedStateRecord :=
  ⟨some s.state.toRecord, s.signer.toBytes, s.signature.toBytes⟩

/-- The signed state of a record. Nothing is verified here. -/
def SignedState.ofRecord? (r : SignedStateRecord) : Except ConversionError SignedState := do
  let state ← orMissing "state" r.state
  let state ← State.ofRecord? state
  let signer ← Address.ofField? "signer" r.signer
  let signature ← Signature.ofField? r.signature
  return ⟨state, signer, signature⟩

namespace Strategy

/-- The number of a strategy. -/
def number : Strategy → Int
  | direct => 0
  | ledger => 1
  | virtual => 2

/-- The strategy with a number. -/
def ofNumber? (z : Int) : Except ConversionError Strategy :=
  match z with
  | 0 => .ok direct
  | 1 => .ok ledger
  | 2 => .ok virtual
  | _ => .error (.unknownStrategy z)

/-- A strategy is found again by its number. -/
@[simp] theorem ofNumber?_number (s : Strategy) : ofNumber? s.number = .ok s := by
  cases s <;> rfl

end Strategy

namespace StrategyMessage

/-- The record of a step in a negotiation. -/
def toRecord : StrategyMessage → MessageRecord
  | proposal target strategy attempt => .proposal ⟨target.toBytes, strategy.number, attempt⟩
  | agreed target strategy => .agreed ⟨target.toBytes, strategy.number⟩
  | rejected target strategy => .rejected ⟨target.toBytes, strategy.number⟩

/-- The step of a record. Signed states are none. -/
def ofRecord? : MessageRecord → Except ConversionError StrategyMessage
  | .proposal r => do
    let target ← Hash.ofField? "target_channel_id" r.target
    let strategy ← Strategy.ofNumber? r.strategy
    return proposal target strategy r.attempt
  | .agreed r => do
    let target ← Hash.ofField? "target_channel_id" r.target
    let strategy ← Strategy.ofNumber? r.strategy
    return agreed target strategy
  | .rejected r => do
    let target ← Hash.ofField? "target_channel_id" r.target
    let strategy ← Strategy.ofNumber? r.strategy
    return rejected target strategy
  | .signedStates _ => .error (.missing "strategy message")

end StrategyMessage

namespace Message

/-- The record of a message. -/
def toRecord : Message → MessageRecord
  | signedStates states => .signedStates ⟨states.map SignedState.toRecord⟩
  | strategy m => m.toRecord

/-- The message of a record. -/
def ofRecord? : MessageRecord → Except ConversionError Message
  | .signedStates r => signedStates <$> r.states.mapM SignedState.ofRecord?
  | r => strategy <$> StrategyMessage.ofRecord? r

end Message

/-! ### Reading an outcome from its record -/

/-- A value that is there is taken. -/
theorem orByteLength_some {α : Type} (field : String) (expected actual : Nat) (a : α) :
    orByteLength field expected actual (some a) = .ok a := rfl

/-- Reading back is done member by member. -/
theorem mapM_map_eq_ok {α β ε : Type} {read : β → Except ε α} {write : α → β}
    (h : ∀ a, read (write a) = .ok a) (as : List α) : (as.map write).mapM read = .ok as :=
  mapM_map_eq_pure fun a _ => h a

/-- An item reads back, as all of its fields have their full length. -/
theorem AllocationItem.ofRecord?_toRecord (item : AllocationItem) :
    ofRecord? item.toRecord = .ok item := by
  simp [ofRecord?, toRecord, Destination.ofField?, Uint256.ofField?, orByteLength_some,
    bind, Except.bind, pure, Except.pure]

/-- The content of an entry reads back, of either kind. -/
theorem AssetContent.ofRecord?_toRecord (c : AssetContent) : ofRecord? c.toRecord = .ok c := by
  cases c with
  | allocation a =>
    simp only [toRecord, ofRecord?, Allocation.ofRecord?, Allocation.toRecord,
      mapM_map_eq_ok AllocationItem.ofRecord?_toRecord]
    rfl
  | guarantee g =>
    have destination (d : Destination) : Destination.ofField? d.toBytes = .ok d := by
      simp [Destination.ofField?, orByteLength_some]
    simp only [toRecord, ofRecord?, Guarantee.ofRecord?, Guarantee.toRecord,
      mapM_map_eq_ok destination, Hash.ofField?, Hash.ofBytes?_toBytes, orByteLength_some]
    rfl

/-- An entry reads back with its content. -/
theorem AssetOutcome.ofRecord?_toRecord (o : AssetOutcome) : ofRecord? o.toRecord = .ok o := by
  simp [ofRecord?, toRecord, orMissing, AssetContent.ofRecord?_toRecord, Address.ofField?,
    orByteLength_some, bind, Except.bind, pure, Except.pure]

/-- The record of an outcome stands for it, if it is valid. -/
theorem Outcome.ofRecord?_toRecord (o : Outcome) : ofRecord? o.toRecord = o.validated := by
  simp only [ofRecord?, toRecord, mapM_map_eq_ok AssetOutcome.ofRecord?_toRecord]
  rfl

end StateChannels
