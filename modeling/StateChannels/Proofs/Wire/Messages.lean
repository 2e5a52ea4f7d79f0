import StateChannels.Wire.Frame
import StateChannels.Proofs.Wire.RoundTrip

/-!
# `StateChannels.Proofs.Wire.Messages`: messages that read back

The records of states, of strategy messages and of envelopes, continued
from the records of outcomes. A field at its default value is not
written, and the empty record has the same value for it. The number of
a strategy goes through 32 bits, so it is read back if it fits them.

An envelope lies eight records deep, and a reader takes a hundred.
-/

set_option autoImplicit false

namespace StateChannels.Wire

open Record

/-! ### States -/

/-- The record of a state reads back. It lies five records deep: the outcome
in it is four deep. -/
theorem StateRecord.reads (r : StateRecord) (short : (encode r).length < 2 ^ 64) :
    Reads 5 r := by
  intro budget enough
  have partShort : ∀ o ∈ r.outcome, (encode o).length < 2 ^ 64 := by
    intro o isOutcome
    have written : part 4 o ∈ (r.outcome.map (part 4)).toList := mem_optional isOutcome
    have member : part 4 o ∈ fields r := by
      simp only [fields, List.mem_append, written, or_true, true_or]
    exact length_encode_of_part member short (by decide)
  obtain ⟨channelId, turnNum, isFinal, outcome, appDefinition, appData, duration⟩ := r
  -- The record grows by one field after the other.
  have channel : Grows budget empty (Field.ofBytes 1 channelId)
      (StateRecord.mk channelId 0 false none [] [] 0) :=
    .ofBytes (StateRecord.mk · 0 false none [] [] 0) channelId (by decide) rfl rfl
  have turn : Grows budget _ (Field.ofNumber 2 turnNum)
      (StateRecord.mk channelId turnNum false none [] [] 0) :=
    .ofNumber (StateRecord.mk channelId · false none [] [] 0) turnNum (by decide) rfl rfl
  have final : Grows budget (StateRecord.mk channelId turnNum false none [] [] 0)
      (Field.ofNumber 3 (if isFinal then 1 else 0))
      (StateRecord.mk channelId turnNum isFinal none [] [] 0) := by
    -- The reader takes any number but zero for a set flag.
    have flag : Grows budget (StateRecord.mk channelId turnNum false none [] [] 0)
        (Field.ofNumber 3 (if isFinal then 1 else 0))
        (StateRecord.mk channelId turnNum ((if isFinal then 1 else 0 : UInt64) ≠ 0) none [] [] 0) :=
      .ofNumber (fun n => StateRecord.mk channelId turnNum (n ≠ 0) none [] [] 0) _ (by decide)
        rfl rfl
    cases isFinal <;> exact flag
  have withOutcome : Grows budget (StateRecord.mk channelId turnNum isFinal none [] [] 0)
      (outcome.map (part 4)).toList
      (StateRecord.mk channelId turnNum isFinal outcome [] [] 0) := by
    refine .optional (StateRecord.mk channelId turnNum isFinal · [] [] 0) outcome
      (fun _ => regular_part (by decide)) rfl ?_
    intro o isOutcome
    exact (o.reads (partShort o isOutcome)).map_mergePart enough fun part =>
      StateRecord.mk channelId turnNum isFinal (some part) [] [] 0
  have definition : Grows budget _ (Field.ofBytes 5 appDefinition)
      (StateRecord.mk channelId turnNum isFinal outcome appDefinition [] 0) :=
    .ofBytes (StateRecord.mk channelId turnNum isFinal outcome · [] 0) appDefinition
      (by decide) rfl rfl
  have data : Grows budget _ (Field.ofBytes 6 appData)
      (StateRecord.mk channelId turnNum isFinal outcome appDefinition appData 0) :=
    .ofBytes (StateRecord.mk channelId turnNum isFinal outcome appDefinition · 0) appData
      (by decide) rfl rfl
  have all : Grows budget _ (Field.ofNumber 7 duration)
      (StateRecord.mk channelId turnNum isFinal outcome appDefinition appData duration) :=
    .ofNumber (StateRecord.mk channelId turnNum isFinal outcome appDefinition appData)
      duration (by decide) rfl rfl
  have grows : Grows budget empty
      (fields (StateRecord.mk channelId turnNum isFinal outcome appDefinition appData duration))
      (StateRecord.mk channelId turnNum isFinal outcome appDefinition appData duration) :=
    (((((channel.append turn).append final).append withOutcome).append definition).append
      data).append all
  exact grows.mergeBytes_encode (by omega) short

/-- The record of a signed state reads back. The state is a part that need
not be there. -/
theorem SignedStateRecord.reads (r : SignedStateRecord) (short : (encode r).length < 2 ^ 64) :
    Reads 6 r := by
  intro budget enough
  have partShort : ∀ s ∈ r.state, (encode s).length < 2 ^ 64 := by
    intro s isState
    have written : part 1 s ∈ (r.state.map (part 1)).toList := mem_optional isState
    have member : part 1 s ∈ fields r := by
      simp only [fields, List.mem_append, written, true_or]
    exact length_encode_of_part member short (by decide)
  obtain ⟨state, signer, signature⟩ := r
  -- The fields in their order take the empty record to the whole one.
  have withState : Grows budget empty (state.map (part 1)).toList
      (SignedStateRecord.mk state [] []) := by
    refine .optional (SignedStateRecord.mk · [] []) state (fun _ => regular_part (by decide)) rfl ?_
    intro s isState
    exact (s.reads (partShort s isState)).map_mergePart enough fun part =>
      SignedStateRecord.mk (some part) [] []
  have withSigner : Grows budget _ (Field.ofBytes 2 signer)
      (SignedStateRecord.mk state signer []) :=
    .ofBytes (SignedStateRecord.mk state · []) signer (by decide) rfl rfl
  have withSignature : Grows budget _ (Field.ofBytes 3 signature)
      (SignedStateRecord.mk state signer signature) :=
    .ofBytes (SignedStateRecord.mk state signer) signature (by decide) rfl rfl
  have grows : Grows budget empty (fields (SignedStateRecord.mk state signer signature))
      (SignedStateRecord.mk state signer signature) :=
    (withState.append withSigner).append withSignature
  exact grows.mergeBytes_encode (by omega) short

/-- A list of signed states reads back, each from a part of its own. -/
theorem SignedStatesRecord.reads (r : SignedStatesRecord) (short : (encode r).length < 2 ^ 64) :
    Reads 7 r := by
  intro budget enough
  have grows : Grows budget empty (fields r) r := by
    refine .all SignedStatesRecord.mk (part 1) r.states (fun _ => regular_part (by decide)) ?_ []
    intro s member before
    have partShort : (encode s).length < 2 ^ 64 :=
      length_encode_of_part (List.mem_map_of_mem member) short (by decide)
    exact (s.reads partShort).map_mergePart enough fun s => SignedStatesRecord.mk (before ++ [s])
  exact grows.mergeBytes_encode (by omega) short

/-! ### Strategy messages -/

/-- The number of a strategy goes through 32 bits and back. -/
def InRange (z : Int) : Prop := strategyOfNumber (numberOfStrategy z) = z

/-- The numbers of the strategies fit 32 bits. -/
theorem inRange_number (s : Strategy) : InRange s.number := by
  unfold InRange
  cases s <;> decide

/-- The number that is not written stands for the first strategy. -/
theorem strategyOfNumber_zero : strategyOfNumber 0 = 0 := by decide

/-- A proposal reads back if the number of its strategy fits 32 bits. -/
theorem ProposalRecord.reads (r : ProposalRecord) (inRange : InRange r.strategy)
    (short : (encode r).length < 2 ^ 64) : Reads 1 r := by
  intro budget enough
  obtain ⟨target, strategy, attempt⟩ := r
  have withTarget : Grows budget empty (Field.ofBytes 1 target) (ProposalRecord.mk target 0 0) :=
    .ofBytes (ProposalRecord.mk · 0 0) target (by decide) rfl rfl
  have withStrategy : Grows budget _ (Field.ofNumber 2 (numberOfStrategy strategy))
      (ProposalRecord.mk target (strategyOfNumber (numberOfStrategy strategy)) 0) :=
    .ofNumber (fun n => ProposalRecord.mk target (strategyOfNumber n) 0) _ (by decide)
      (congrArg (ProposalRecord.mk target · 0) strategyOfNumber_zero) rfl
  have withAttempt : Grows budget _ (Field.ofNumber 3 attempt.toUInt64)
      (ProposalRecord.mk target strategy attempt.toUInt64.toUInt32) :=
    .ofNumber (fun n => ProposalRecord.mk target strategy n.toUInt32) _ (by decide) rfl rfl
  rw [show strategyOfNumber (numberOfStrategy strategy) = strategy from inRange] at withStrategy
  rw [UInt32.toUInt32_toUInt64] at withAttempt
  have grows : Grows budget empty (fields (ProposalRecord.mk target strategy attempt))
      (ProposalRecord.mk target strategy attempt) :=
    (withTarget.append withStrategy).append withAttempt
  exact grows.mergeBytes_encode enough short

/-- So does an answer to one. -/
theorem ReplyRecord.reads (r : ReplyRecord) (inRange : InRange r.strategy)
    (short : (encode r).length < 2 ^ 64) : Reads 1 r := by
  intro budget enough
  obtain ⟨target, strategy⟩ := r
  have withTarget : Grows budget empty (Field.ofBytes 1 target) (ReplyRecord.mk target 0) :=
    .ofBytes (ReplyRecord.mk · 0) target (by decide) rfl rfl
  have withStrategy : Grows budget _ (Field.ofNumber 2 (numberOfStrategy strategy))
      (ReplyRecord.mk target (strategyOfNumber (numberOfStrategy strategy))) :=
    .ofNumber (fun n => ReplyRecord.mk target (strategyOfNumber n)) _ (by decide)
      (congrArg (ReplyRecord.mk target) strategyOfNumber_zero) rfl
  rw [show strategyOfNumber (numberOfStrategy strategy) = strategy from inRange] at withStrategy
  have grows : Grows budget empty (fields (ReplyRecord.mk target strategy))
      (ReplyRecord.mk target strategy) := withTarget.append withStrategy
  exact grows.mergeBytes_encode enough short

/-! ### Envelopes -/

/-- The strategy of the message, if it has one, is read back. -/
def MessageRecord.Readable : MessageRecord → Prop
  | signedStates _ => True
  | proposal r => InRange r.strategy
  | agreed r => InRange r.strategy
  | rejected r => InRange r.strategy

/-- A message is a part of its envelope, under a number that a key can hold. -/
theorem MessageRecord.regular_field (m : MessageRecord) : m.field.Regular := by
  cases m <;> exact regular_part (by decide)

/-- An envelope reads back, if the strategy in it does. A message lies seven
records deep, so an envelope lies eight deep. -/
theorem EnvelopeRecord.reads (r : EnvelopeRecord) (readable : ∀ m ∈ r.message, m.Readable)
    (short : (encode r).length < 2 ^ 64) : Reads 8 r := by
  intro budget enough
  obtain ⟨sender, recipient, message⟩ := r
  have withSender : Grows budget empty (Field.ofBytes 1 sender)
      (EnvelopeRecord.mk sender [] none) :=
    .ofBytes (EnvelopeRecord.mk · [] none) sender (by decide) rfl rfl
  have withRecipient : Grows budget _ (Field.ofBytes 2 recipient)
      (EnvelopeRecord.mk sender recipient none) :=
    .ofBytes (EnvelopeRecord.mk sender · none) recipient (by decide) rfl rfl
  -- A message is written as one field, whose number says what it is.
  have withMessage : Grows budget (EnvelopeRecord.mk sender recipient none)
      (message.map MessageRecord.field).toList (EnvelopeRecord.mk sender recipient message) := by
    refine .optional (EnvelopeRecord.mk sender recipient) message MessageRecord.regular_field
      rfl ?_
    intro m isMessage
    have written : m.field ∈ fields (EnvelopeRecord.mk sender recipient message) := by
      rw [Option.mem_def.1 isMessage]
      exact List.mem_append_right _ (List.mem_singleton_self _)
    have inRange := readable m isMessage
    cases m with
    | signedStates r =>
      have reads := r.reads (length_encode_of_part written short (by decide))
      exact reads.map_mergePart enough fun part =>
        EnvelopeRecord.mk sender recipient (some (.signedStates part))
    | proposal r =>
      have reads := r.reads inRange (length_encode_of_part written short (by decide))
      exact reads.map_mergePart (by omega) fun part =>
        EnvelopeRecord.mk sender recipient (some (.proposal part))
    | agreed r =>
      have reads := r.reads inRange (length_encode_of_part written short (by decide))
      exact reads.map_mergePart (by omega) fun part =>
        EnvelopeRecord.mk sender recipient (some (.agreed part))
    | rejected r =>
      have reads := r.reads inRange (length_encode_of_part written short (by decide))
      exact reads.map_mergePart (by omega) fun part =>
        EnvelopeRecord.mk sender recipient (some (.rejected part))
  have grows : Grows budget empty (fields (EnvelopeRecord.mk sender recipient message))
      (EnvelopeRecord.mk sender recipient message) :=
    (withSender.append withRecipient).append withMessage
  exact grows.mergeBytes_encode (by omega) short

end StateChannels.Wire
