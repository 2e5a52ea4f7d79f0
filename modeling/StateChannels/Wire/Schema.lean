import StateChannels.Wire.Record

/-!
# `StateChannels.Wire.Schema`: the records of the protocol

The records that participants send, with byte strings of any length
where the protocol has addresses, digests and amounts:

```
message AllocationItem { bytes destination = 1; bytes amount = 2; }
message Allocation { repeated AllocationItem items = 1; }
message Guarantee { bytes target_channel_id = 1; repeated bytes destinations = 2; }
message AssetOutcome {
  bytes asset_holder = 1;
  oneof content { Allocation allocation = 2; Guarantee guarantee = 3; }
}
message Outcome { repeated AssetOutcome assets = 1; }
message State {
  bytes channel_id = 1; uint64 turn_num = 2; bool is_final = 3;
  Outcome outcome = 4; bytes app_definition = 5; bytes app_data = 6;
  uint64 challenge_duration = 7;
}
message SignedState { State state = 1; bytes signer = 2; bytes signature = 3; }
message SignedStates { repeated SignedState states = 1; }
message ConsensusData { uint32 further_votes_required = 1; Outcome proposed_outcome = 2; }
enum Strategy { DIRECT = 0; LEDGER = 1; VIRTUAL = 2; }
message StrategyProposal { bytes target_channel_id = 1; Strategy strategy = 2; uint32 attempt = 3; }
message StrategyAgreed { bytes target_channel_id = 1; Strategy strategy = 2; }
message StrategyRejected { bytes target_channel_id = 1; Strategy strategy = 2; }
message Envelope {
  bytes sender = 1; bytes recipient = 2;
  oneof msg {
    SignedStates signed_states = 3; StrategyProposal strategy_proposal = 4;
    StrategyAgreed strategy_agreed = 5; StrategyRejected strategy_rejected = 6;
  }
}
```
-/

set_option autoImplicit false

namespace StateChannels.Wire

/-- An amount for a destination. -/
@[ext] structure ItemRecord where
  destination : Bytes := []
  /-- Most significant byte first. -/
  amount : Bytes := []
deriving DecidableEq

/-- The fields of an item, by their numbers. -/
instance : Record ItemRecord where
  empty := {}
  merge _ r f :=
    match f.number with
    | 1 => ({ r with destination := · }) <$> f.bytes?
    | 2 => ({ r with amount := · }) <$> f.bytes?
    | _ => some r
  fields r := Field.ofBytes 1 r.destination ++ Field.ofBytes 2 r.amount

/-- An allocation. -/
@[ext] structure AllocationRecord where
  items : List ItemRecord := []
deriving DecidableEq

/-- The fields of an allocation, by their numbers. -/
instance : Record AllocationRecord where
  empty := {}
  merge budget r f :=
    match f.number with
    | 1 => (fun item => { r with items := r.items ++ [item] }) <$>
        Record.mergePart budget Record.empty f
    | _ => some r
  fields r := r.items.map (Record.part 1)

/-- A guarantee. -/
@[ext] structure GuaranteeRecord where
  target : Bytes := []
  destinations : List Bytes := []
deriving DecidableEq

/-- The fields of a guarantee, by their numbers. -/
instance : Record GuaranteeRecord where
  empty := {}
  merge _ r f :=
    match f.number with
    | 1 => ({ r with target := · }) <$> f.bytes?
    | 2 => (fun d => { r with destinations := r.destinations ++ [d] }) <$> f.bytes?
    | _ => some r
  fields r := Field.ofBytes 1 r.target ++ r.destinations.map fun d => ⟨2, .bytes d⟩

/-- What an asset outcome holds, one of two. -/
inductive ContentRecord where
  | allocation (r : AllocationRecord)
  | guarantee (r : GuaranteeRecord)
deriving DecidableEq

/-- The allocation that another one is merged into. -/
def ContentRecord.allocationPart : Option ContentRecord → AllocationRecord
  | some (allocation r) => r
  | _ => Record.empty

/-- The guarantee that another one is merged into. -/
def ContentRecord.guaranteePart : Option ContentRecord → GuaranteeRecord
  | some (guarantee r) => r
  | _ => Record.empty

/-- The entry of an asset holder. -/
@[ext] structure AssetRecord where
  assetHolder : Bytes := []
  content : Option ContentRecord := none
deriving DecidableEq

/-- The fields of an asset. One of the two contents is written. -/
instance : Record AssetRecord where
  empty := {}
  merge budget r f :=
    match f.number with
    | 1 => ({ r with assetHolder := · }) <$> f.bytes?
    | 2 => (fun part => { r with content := some (.allocation part) }) <$>
        Record.mergePart budget (ContentRecord.allocationPart r.content) f
    | 3 => (fun part => { r with content := some (.guarantee part) }) <$>
        Record.mergePart budget (ContentRecord.guaranteePart r.content) f
    | _ => some r
  fields r := Field.ofBytes 1 r.assetHolder ++
    match r.content with
    | none => []
    | some (.allocation part) => [Record.part 2 part]
    | some (.guarantee part) => [Record.part 3 part]

/-- An outcome. -/
@[ext] structure OutcomeRecord where
  assets : List AssetRecord := []
deriving DecidableEq

/-- The fields of an outcome, by their numbers. -/
instance : Record OutcomeRecord where
  empty := {}
  merge budget r f :=
    match f.number with
    | 1 => (fun asset => { r with assets := r.assets ++ [asset] }) <$>
        Record.mergePart budget Record.empty f
    | _ => some r
  fields r := r.assets.map (Record.part 1)

/-- A state. -/
@[ext] structure StateRecord where
  channelId : Bytes := []
  turnNum : UInt64 := 0
  isFinal : Bool := false
  outcome : Option OutcomeRecord := none
  appDefinition : Bytes := []
  appData : Bytes := []
  challengeDuration : UInt64 := 0
deriving DecidableEq

/-- The fields of a state, by their numbers. -/
instance : Record StateRecord where
  empty := {}
  merge budget r f :=
    match f.number with
    | 1 => ({ r with channelId := · }) <$> f.bytes?
    | 2 => ({ r with turnNum := · }) <$> f.number?
    | 3 => (fun (n : UInt64) => { r with isFinal := n ≠ 0 }) <$> f.number?
    | 4 => (fun part => { r with outcome := some part }) <$>
        Record.mergePart budget (r.outcome.getD Record.empty) f
    | 5 => ({ r with appDefinition := · }) <$> f.bytes?
    | 6 => ({ r with appData := · }) <$> f.bytes?
    | 7 => ({ r with challengeDuration := · }) <$> f.number?
    | _ => some r
  fields r :=
    Field.ofBytes 1 r.channelId ++ Field.ofNumber 2 r.turnNum ++
      Field.ofNumber 3 (if r.isFinal then 1 else 0) ++
      (r.outcome.map (Record.part 4)).toList ++ Field.ofBytes 5 r.appDefinition ++
      Field.ofBytes 6 r.appData ++ Field.ofNumber 7 r.challengeDuration

/-- A state with a signature. -/
@[ext] structure SignedStateRecord where
  state : Option StateRecord := none
  signer : Bytes := []
  signature : Bytes := []
deriving DecidableEq

/-- The fields of a signed state, by their numbers. -/
instance : Record SignedStateRecord where
  empty := {}
  merge budget r f :=
    match f.number with
    | 1 => (fun part => { r with state := some part }) <$>
        Record.mergePart budget (r.state.getD Record.empty) f
    | 2 => ({ r with signer := · }) <$> f.bytes?
    | 3 => ({ r with signature := · }) <$> f.bytes?
    | _ => some r
  fields r :=
    (r.state.map (Record.part 1)).toList ++ Field.ofBytes 2 r.signer ++
      Field.ofBytes 3 r.signature

/-- States with signatures. -/
@[ext] structure SignedStatesRecord where
  states : List SignedStateRecord := []
deriving DecidableEq

/-- The fields of several signed states, by their numbers. -/
instance : Record SignedStatesRecord where
  empty := {}
  merge budget r f :=
    match f.number with
    | 1 => (fun state => { r with states := r.states ++ [state] }) <$>
        Record.mergePart budget Record.empty f
    | _ => some r
  fields r := r.states.map (Record.part 1)

/-- The data of a vote on an outcome. -/
@[ext] structure ConsensusRecord where
  furtherVotes : UInt32 := 0
  proposedOutcome : Option OutcomeRecord := none
deriving DecidableEq

/-- The fields of consensus data, by their numbers. -/
instance : Record ConsensusRecord where
  empty := {}
  merge budget r f :=
    match f.number with
    | 1 => (fun n => { r with furtherVotes := n.toUInt32 }) <$> f.number?
    | 2 => (fun part => { r with proposedOutcome := some part }) <$>
        Record.mergePart budget (r.proposedOutcome.getD Record.empty) f
    | _ => some r
  fields r :=
    Field.ofNumber 1 r.furtherVotes.toUInt64 ++ (r.proposedOutcome.map (Record.part 2)).toList

/-- The number of a strategy on the wire: the low 32 bits, in two's
complement. -/
def strategyOfNumber (n : UInt64) : Int := Int.bmod n.toNat (2 ^ 32)

/-- A strategy's number for the wire. A negative one takes all 64
bits. -/
def numberOfStrategy (z : Int) : UInt64 := UInt64.ofNat (z % (2 ^ 64 : Int)).toNat

/-- A proposal of a strategy. -/
@[ext] structure ProposalRecord where
  target : Bytes := []
  strategy : Int := 0
  attempt : UInt32 := 0
deriving DecidableEq

/-- The fields of a proposal, by their numbers. -/
instance : Record ProposalRecord where
  empty := {}
  merge _ r f :=
    match f.number with
    | 1 => ({ r with target := · }) <$> f.bytes?
    | 2 => (fun n => { r with strategy := strategyOfNumber n }) <$> f.number?
    | 3 => (fun n => { r with attempt := n.toUInt32 }) <$> f.number?
    | _ => some r
  fields r :=
    Field.ofBytes 1 r.target ++ Field.ofNumber 2 (numberOfStrategy r.strategy) ++
      Field.ofNumber 3 r.attempt.toUInt64

/-- An answer to a proposal: an agreement or a rejection. -/
@[ext] structure ReplyRecord where
  target : Bytes := []
  strategy : Int := 0
deriving DecidableEq

/-- The fields of a reply, by their numbers. -/
instance : Record ReplyRecord where
  empty := {}
  merge _ r f :=
    match f.number with
    | 1 => ({ r with target := · }) <$> f.bytes?
    | 2 => (fun n => { r with strategy := strategyOfNumber n }) <$> f.number?
    | _ => some r
  fields r := Field.ofBytes 1 r.target ++ Field.ofNumber 2 (numberOfStrategy r.strategy)

/-- What an envelope holds, one of four. -/
inductive MessageRecord where
  | signedStates (r : SignedStatesRecord)
  | proposal (r : ProposalRecord)
  | agreed (r : ReplyRecord)
  | rejected (r : ReplyRecord)
deriving DecidableEq

namespace MessageRecord

/-- The states that others are merged into. -/
def signedStatesPart : Option MessageRecord → SignedStatesRecord
  | some (signedStates r) => r
  | _ => Record.empty

/-- The proposal that another one is merged into. -/
def proposalPart : Option MessageRecord → ProposalRecord
  | some (proposal r) => r
  | _ => Record.empty

/-- The agreement that another one is merged into. -/
def agreedPart : Option MessageRecord → ReplyRecord
  | some (agreed r) => r
  | _ => Record.empty

/-- The rejection that another one is merged into. -/
def rejectedPart : Option MessageRecord → ReplyRecord
  | some (rejected r) => r
  | _ => Record.empty

/-- The field of a message in its envelope. -/
def field : MessageRecord → Field
  | signedStates r => Record.part 3 r
  | proposal r => Record.part 4 r
  | agreed r => Record.part 5 r
  | rejected r => Record.part 6 r

end MessageRecord

/-- A message with its sender and its recipient. -/
@[ext] structure EnvelopeRecord where
  sender : Bytes := []
  recipient : Bytes := []
  message : Option MessageRecord := none
deriving DecidableEq

/-- The fields of an envelope. One of the messages is written. -/
instance : Record EnvelopeRecord where
  empty := {}
  merge budget r f :=
    match f.number with
    | 1 => ({ r with sender := · }) <$> f.bytes?
    | 2 => ({ r with recipient := · }) <$> f.bytes?
    | 3 => (fun part => { r with message := some (.signedStates part) }) <$>
        Record.mergePart budget (MessageRecord.signedStatesPart r.message) f
    | 4 => (fun part => { r with message := some (.proposal part) }) <$>
        Record.mergePart budget (MessageRecord.proposalPart r.message) f
    | 5 => (fun part => { r with message := some (.agreed part) }) <$>
        Record.mergePart budget (MessageRecord.agreedPart r.message) f
    | 6 => (fun part => { r with message := some (.rejected part) }) <$>
        Record.mergePart budget (MessageRecord.rejectedPart r.message) f
    | _ => some r
  fields r :=
    Field.ofBytes 1 r.sender ++ Field.ofBytes 2 r.recipient ++
      (r.message.map MessageRecord.field).toList

end StateChannels.Wire
