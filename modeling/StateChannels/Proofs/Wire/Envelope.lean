import StateChannels.Proofs.Wire.Lengths
import StateChannels.Proofs.Wire.Messages

/-!
# `StateChannels.Proofs.Wire.Envelope`: messages survive the wire

An envelope is written as a frame without a look at its message, if only
its record is short enough. The reader looks at all of it, and accepts
valid outcomes only.

* `Envelope.encode_eq_ok_iff`: when there is a frame. For a strategy
  message there always is (`Envelope.encode_strategy`).
* `Envelope.decode?_encode`: a frame, whatever follows it, gives the
  record of its envelope and its own length. So frames that stand one
  after the other are read one after the other (`Frame.decodeAll`).
* `Message.ofRecord?_toRecord`: the record of a message stands for the
  message, or for nothing if an outcome is not valid. The first such
  outcome decides the error.
* `Message.valid_of_ofRecord?`: whatever message is read, its outcomes
  are valid.
-/

set_option autoImplicit false

namespace StateChannels

open Wire

/-! ### Records and the values they stand for -/

/-- The check of an outcome that a reader makes. -/
def Outcome.check (o : Outcome) : Except ConversionError Unit :=
  o.validate.mapError .invalidOutcome

/-- The outcomes of the states in a message. -/
def Message.outcomes : Message → List Outcome
  | signedStates states => states.map fun s => s.state.outcome
  | strategy _ => []

/-- The check on the wire passes the outcomes that are valid. -/
theorem Outcome.check_eq_ok_iff {o : Outcome} : o.check = .ok () ↔ o.validate = .ok () :=
  mapError_eq_ok_iff

/-- The check on the wire names what is wrong with the outcome. -/
theorem Outcome.check_eq_error_iff {o : Outcome} {e : ConversionError} :
    o.check = .error e ↔ ∃ fault, o.validate = .error fault ∧ .invalidOutcome fault = e :=
  mapError_eq_error_iff

/-- If each member is read back after a check, so is the list after all
the checks. -/
theorem mapM_map_of_check {α β ε : Type} {read : β → Except ε α} {write : α → β}
    {check : α → Except ε Unit} (h : ∀ a, read (write a) = do check a; return a) (as : List α) :
    (as.map write).mapM read = do as.forM check; return as := by
  induction as with
  | nil => rfl
  | cons a as ih =>
    simp only [List.map_cons, List.mapM_cons, h, ih, List.forM_eq_forM, List.forM_cons]
    cases check a with
    | error => rfl
    | ok =>
      show ((do forM as check; return as : Except ε (List α)) >>= fun as => pure (a :: as)) =
        (do forM as check; return a :: as)
      cases forM as check <;> rfl

/-- A state is read back from its record if its outcome is valid. -/
theorem State.ofRecord?_toRecord (s : State) :
    ofRecord? s.toRecord = do s.outcome.check; return s := by
  have checked : Outcome.ofRecord? s.outcome.toRecord = do s.outcome.check; return s.outcome :=
    Outcome.ofRecord?_toRecord s.outcome
  simp only [ofRecord?, toRecord, Hash.ofField?, Hash.ofBytes?_toBytes, Address.ofField?,
    Address.ofBytes?_toBytes, orByteLength_some, orMissing]
  show (Outcome.ofRecord? s.outcome.toRecord >>= _) = _
  rw [checked]
  cases s.outcome.check <;> rfl

/-- A signed state is read back from its record if its outcome is valid. -/
theorem SignedState.ofRecord?_toRecord (s : SignedState) :
    ofRecord? s.toRecord = do s.state.outcome.check; return s := by
  simp only [ofRecord?, toRecord, Signature.ofField?, Signature.ofBytes?_toBytes,
    Address.ofField?, Address.ofBytes?_toBytes, orByteLength_some, orMissing]
  show (State.ofRecord? s.state.toRecord >>= _) = _
  rw [State.ofRecord?_toRecord]
  cases s.state.outcome.check <;> rfl

/-- A strategy message is always read back from its record. -/
theorem StrategyMessage.ofRecord?_toRecord (m : StrategyMessage) :
    ofRecord? m.toRecord = .ok m := by
  cases m <;>
    simp only [toRecord, ofRecord?, Hash.ofField?, Hash.ofBytes?_toBytes, orByteLength_some,
      Strategy.ofNumber?_number] <;> rfl

/-- The record of a message stands for it, if its outcomes are valid. -/
theorem Message.ofRecord?_toRecord (m : Message) :
    ofRecord? m.toRecord = do m.outcomes.forM Outcome.check; return m := by
  cases m with
  | signedStates states =>
    show signedStates <$> (states.map SignedState.toRecord).mapM SignedState.ofRecord? =
      do (states.map fun s => s.state.outcome).forM Outcome.check; return signedStates states
    rw [mapM_map_of_check SignedState.ofRecord?_toRecord, List.forM_eq_forM, List.forM_eq_forM,
      List.forM_map]
    cases forM states fun s : SignedState => s.state.outcome.check <;> rfl
  | strategy m =>
    have read := m.ofRecord?_toRecord
    cases m <;> exact congrArg (strategy <$> ·) read

/-! ### What a reader accepts -/

/-- What is read from a record is valid. -/
theorem Outcome.valid_of_ofRecord? {r : OutcomeRecord} {o : Outcome} (h : ofRecord? r = .ok o) :
    o.validate = .ok () := by
  unfold ofRecord? at h
  obtain ⟨assets, -, validated⟩ := bind_eq_ok_iff.1 h
  obtain ⟨⟨⟩, valid, ⟨⟩⟩ := bind_eq_ok_iff.1 validated
  exact check_eq_ok_iff.1 valid

/-- A signed state that is read from a record has a valid outcome. -/
theorem SignedState.valid_of_ofRecord? {r : SignedStateRecord} {s : SignedState}
    (h : ofRecord? r = .ok s) : s.state.outcome.validate = .ok () := by
  simp only [ofRecord?, State.ofRecord?, bind_eq_ok_iff] at h
  obtain ⟨_, -, _, ⟨_, -, _, -, outcome, read, _, -, ⟨⟩⟩, _, -, _, -, ⟨⟩⟩ := h
  exact Outcome.valid_of_ofRecord? read

/-- Whatever message is read, its outcomes are valid. -/
theorem Message.valid_of_ofRecord? {r : MessageRecord} {m : Message} (h : ofRecord? r = .ok m) :
    ∀ o ∈ m.outcomes, o.validate = .ok () := by
  cases r with
  | signedStates r =>
    obtain ⟨states, read, rfl⟩ := map_eq_ok_iff.1 h
    intro o member
    obtain ⟨s, isState, rfl⟩ := List.mem_map.1 member
    obtain ⟨_, -, isRead⟩ := exists_of_mapM_eq_ok read s isState
    exact SignedState.valid_of_ofRecord? isRead
  | proposal | agreed | rejected =>
    obtain ⟨_, -, rfl⟩ := map_eq_ok_iff.1 h
    intro o member
    cases member

/-! ### Frames -/

namespace Wire.Frame

variable {ρ : Type} [Record ρ] {input rest : Bytes} {r : ρ} {n : Nat}

/-- A frame has its length in front. -/
theorem two_le_of_decode? (h : decode? input = .ok (r, n)) : 2 ≤ n := by
  obtain ⟨⟨body, behind⟩, -, read⟩ := bind_eq_ok_iff.1 h
  dsimp only at read
  split at read
  · cases read
    exact Nat.le_add_left _ _
  · cases read

/-- The records of frames that stand one after the other: a frame is read
at the front, and the next one where the bytes of the first end, until
there are no bytes left. -/
def decodeAll (ρ : Type) [Record ρ] (input : Bytes) : Except WireError (List ρ) :=
  if input = [] then .ok []
  else
    match found : decode? (ρ := ρ) input with
    | .error e => .error e
    | .ok (r, n) =>
      have := two_le_of_decode? found
      (r :: ·) <$> decodeAll ρ (input.drop n)
termination_by input.length
decreasing_by
  have := List.length_pos_iff.2 ‹input ≠ []›
  rw [List.length_drop]
  omega

/-- One frame is read and the others are left. -/
theorem decodeAll_append {frame : Bytes} (h : decode? (frame ++ rest) = .ok (r, frame.length)) :
    decodeAll ρ (frame ++ rest) = (r :: ·) <$> decodeAll ρ rest := by
  have long := two_le_of_decode? h
  have some : frame ++ rest ≠ [] := by
    intro none
    rw [(List.append_eq_nil_iff.1 none).1] at long
    cases long
  rw [decodeAll, if_neg some]
  split
  · rename_i e found
    cases h.symm.trans found
  · rename_i r' n found
    cases h.symm.trans found
    rw [List.drop_left]

end Wire.Frame

namespace Envelope

variable {e : Envelope} {frame : Bytes}

/-- The record of every message can be read. -/
theorem readable_toRecord (m : Message) : m.toRecord.Readable := by
  cases m with
  | signedStates => trivial
  | strategy m =>
    cases m with
    | proposal _ s _ => exact inRange_number s
    | agreed _ s => exact inRange_number s
    | rejected _ s => exact inRange_number s

/-- There is a frame exactly if the length of the record fits in its two
bytes. -/
theorem encode_eq_ok_iff : e.encode = .ok frame ↔
    (Record.encode e.toRecord).length < 2 ^ 16 ∧
      Bytes.ofNat 2 (Record.encode e.toRecord).length ++ Record.encode e.toRecord = frame := by
  unfold encode Frame.write
  split <;> simp [*]

/-- A strategy message is a digest and two numbers at most. -/
theorem length_field_strategy (m : StrategyMessage) :
    ((Message.strategy m).toRecord.field).write.length ≤ 58 := by
  have target : ∀ h : Hash, (Field.writeAll (Field.ofBytes 1 h.toBytes)).length ≤ 34 := fun h => by
    have length : h.toBytes.length = 32 := by simp
    have short := Field.length_ofBytes_short (by decide : 1 < 15)
      (by omega : h.toBytes.length < 128)
    rwa [length] at short
  have number : ∀ n : UInt64, (Field.writeAll (Field.ofNumber 2 n)).length ≤ 11 :=
    Field.length_ofNumber_word (by decide)
  have attempt : ∀ n : UInt64, (Field.writeAll (Field.ofNumber 3 n)).length ≤ 11 :=
    Field.length_ofNumber_word (by decide)
  -- The record is a part of the envelope, under a key of one byte and a length of one byte.
  have within : ∀ {ρ : Type} [Record ρ] (k : Nat) (r : ρ), k < 15 →
      (Record.encode r).length ≤ 56 → (Record.part k r).write.length ≤ 58 := by
    intro ρ _ k r small short
    rw [Record.part, Field.length_write_bytes, Varint.length_write_of_lt (by omega),
      Varint.length_write_of_lt (by omega)]
    omega
  cases m with
  | proposal h s n =>
    refine within 4 _ (by decide) ?_
    have first := target h
    have second := number (numberOfStrategy s.number)
    have third := attempt n.toUInt64
    simp only [Record.encode, Record.fields, Field.length_writeAll_append]
    omega
  | agreed h s =>
    refine within 5 _ (by decide) ?_
    have first := target h
    have second := number (numberOfStrategy s.number)
    simp only [Record.encode, Record.fields, Field.length_writeAll_append]
    omega
  | rejected h s =>
    refine within 6 _ (by decide) ?_
    have first := target h
    have second := number (numberOfStrategy s.number)
    simp only [Record.encode, Record.fields, Field.length_writeAll_append]
    omega

/-- A strategy message always goes into a frame. Only signed states can
be too long. -/
theorem encode_strategy (sender recipient : Address) (m : StrategyMessage) :
    ∃ frame, (Envelope.mk sender recipient (.strategy m)).encode = .ok frame := by
  have address : ∀ {k : Nat} (a : Address), k < 15 →
      (Field.writeAll (Field.ofBytes k a.toBytes)).length ≤ 22 := fun a small => by
    have length : a.toBytes.length = 20 := by simp
    have short := Field.length_ofBytes_short small (by omega : a.toBytes.length < 128)
    rwa [length] at short
  have first := address sender (by decide : 1 < 15)
  have second := address recipient (by decide : 2 < 15)
  have third := length_field_strategy m
  refine ⟨_, encode_eq_ok_iff.2 ⟨?_, rfl⟩⟩
  simp only [Record.encode, Record.fields, toRecord, Option.map_some, Option.toList_some,
    Field.length_writeAll_append, Field.length_writeAll_singleton]
  omega

/-- A frame gives back the record of its envelope, and its own length. -/
theorem decode?_encode (h : e.encode = .ok frame) (rest : Bytes) :
    Frame.decode? (frame ++ rest) = .ok (e.toRecord, frame.length) := by
  have split := Frame.split_write h rest
  -- The length stands in two bytes, so every part of the envelope is short enough.
  obtain ⟨fits, written⟩ := encode_eq_ok_iff.1 h
  have read : Record.decode? (Record.encode e.toRecord) = some e.toRecord := by
    refine EnvelopeRecord.reads e.toRecord ?_ (by omega) Record.nestingLimit (by decide)
    intro m isMessage
    cases isMessage
    exact readable_toRecord e.message
  have length : frame.length = (Record.encode e.toRecord).length + 2 := by
    rw [← written, List.length_append, Bytes.length_ofNat, Nat.add_comm]
  simp only [Frame.decode?, split, length, read, bind, Except.bind, pure, Except.pure]

/-- What the reader makes of a frame: it checks the outcomes, and gives
back the sender and the message. -/
theorem open?_encode (h : e.encode = .ok frame) (rest : Bytes) :
    open? (frame ++ rest) = do
      (e.message.outcomes.forM Outcome.check).mapError .conversion
      return (e.sender, e.message) := by
  have sender : Address.ofField? "sender" e.toRecord.sender = .ok e.sender := by
    simp [Address.ofField?, toRecord, orByteLength_some]
  rw [open?, decode?_encode h]
  show ((Address.ofField? "sender" e.toRecord.sender).mapError WireError.conversion >>= _) = _
  rw [sender]
  show ((Message.ofRecord? e.message.toRecord).mapError WireError.conversion >>= _) = _
  rw [Message.ofRecord?_toRecord]
  cases e.message.outcomes.forM Outcome.check <;> rfl

/-- With valid outcomes, the message is read. -/
theorem open?_encode_of_valid (h : e.encode = .ok frame)
    (valid : ∀ o ∈ e.message.outcomes, o.validate = .ok ()) (rest : Bytes) :
    open? (frame ++ rest) = .ok (e.sender, e.message) := by
  have checked : e.message.outcomes.forM Outcome.check = .ok () :=
    forM_eq_ok_iff.2 fun o member => Outcome.check_eq_ok_iff.2 (valid o member)
  rw [open?_encode h, checked]
  rfl

/-- Otherwise it is refused, for an outcome that is not valid. -/
theorem open?_encode_of_invalid (h : e.encode = .ok frame)
    (invalid : ¬∀ o ∈ e.message.outcomes, o.validate = .ok ()) (rest : Bytes) :
    ∃ fault, (∃ o ∈ e.message.outcomes, o.validate = .error fault) ∧
      open? (frame ++ rest) = .error (.conversion (.invalidOutcome fault)) := by
  rw [open?_encode h]
  cases made : e.message.outcomes.forM Outcome.check with
  | ok =>
    exact absurd (fun o member => Outcome.check_eq_ok_iff.1 (forM_eq_ok_iff.1 made o member))
      invalid
  | error error =>
    obtain ⟨o, member, failed⟩ := exists_of_forM_eq_error made
    obtain ⟨fault, isFault, rfl⟩ := Outcome.check_eq_error_iff.1 failed
    exact ⟨fault, ⟨o, member, isFault⟩, rfl⟩

/-- Frames in a row are read as the envelopes that they were written from. -/
theorem decodeAll_encode {es : List (Envelope × Bytes)} (h : ∀ e ∈ es, e.1.encode = .ok e.2) :
    Frame.decodeAll EnvelopeRecord (es.flatMap Prod.snd) =
      .ok (es.map fun e => e.1.toRecord) := by
  induction es with
  | nil =>
    rw [List.flatMap_nil, Frame.decodeAll, if_pos rfl]
    rfl
  | cons e es ih =>
    obtain ⟨first, others⟩ := List.forall_mem_cons.1 h
    rw [List.flatMap_cons, Frame.decodeAll_append (decode?_encode first _), ih others]
    rfl

/-- A message survives the wire.

An envelope has a frame exactly if its record has fewer than `2 ^ 16`
bytes. Let the frame be written, and let any bytes follow it. If the
outcomes in the message are valid, the reader gets the sender and the
message. If not, it gets the fault of one that is not valid. Whatever
bytes a reader is given, the outcomes in the message that it gets are
valid. And the frames of any envelopes, one after the other, are read
one after the other, until nothing is left. -/
theorem survives_wire :
    (∀ e : Envelope, (∃ frame, e.encode = .ok frame) ↔
      (Record.encode e.toRecord).length < 2 ^ 16) ∧
    (∀ (e : Envelope) (frame rest : Bytes), e.encode = .ok frame →
      ((∀ o ∈ e.message.outcomes, o.validate = .ok ()) →
        open? (frame ++ rest) = .ok (e.sender, e.message)) ∧
      ((¬∀ o ∈ e.message.outcomes, o.validate = .ok ()) →
        ∃ fault, (∃ o ∈ e.message.outcomes, o.validate = .error fault) ∧
          open? (frame ++ rest) = .error (.conversion (.invalidOutcome fault)))) ∧
    (∀ (input : Bytes) (sender : Address) (m : Message), open? input = .ok (sender, m) →
      ∀ o ∈ m.outcomes, o.validate = .ok ()) ∧
    ∀ es : List (Envelope × Bytes), (∀ e ∈ es, e.1.encode = .ok e.2) →
      Frame.decodeAll EnvelopeRecord (es.flatMap Prod.snd) =
        .ok (es.map fun e => e.1.toRecord) := by
  refine ⟨?_, ?_, ?_, fun es => decodeAll_encode⟩
  · intro e
    simp only [encode_eq_ok_iff, exists_and_left, exists_eq', and_true]
  · intro e frame rest h
    exact ⟨fun valid => open?_encode_of_valid h valid rest,
      fun invalid => open?_encode_of_invalid h invalid rest⟩
  -- What is opened was checked on the way.
  · intro input sender m h
    simp only [open?, bind_eq_ok_iff, mapError_eq_ok_iff] at h
    obtain ⟨_, -, _, -, _, -, _, read, ⟨⟩⟩ := h
    exact Message.valid_of_ofRecord? read

/-! ### A message that is read and one that is refused

Two signed states, of which only the second has an outcome that names a
destination twice. -/

namespace Sample

/-- A state at turn 1 with an outcome, and nobody's signature. -/
def unsigned (outcome : Outcome) : SignedState where
  state :=
    { channelId := .zero, turnNum := 1, isFinal := false, outcome, appDefinition := .zero,
      appData := [], challengeDuration := 60 }
  signer := .zero
  signature := .zero

/-- One item for a destination. -/
def single : Outcome := ⟨[⟨.zero, .allocation ⟨[⟨.zero, .one⟩]⟩⟩]⟩

/-- Two items for one destination. -/
def repeated : Outcome := ⟨[⟨.zero, .allocation ⟨[⟨.zero, .one⟩, ⟨.zero, .one⟩]⟩⟩]⟩

/-- An envelope with these states. -/
def envelope (states : List SignedState) : Envelope :=
  ⟨.zero, ⟨.replicate 20 1⟩, .signedStates states⟩

/-- Both envelopes have frames. With two bytes after it the first is read,
and the second is refused for the destination that it names twice. -/
theorem survives_wire_repeated :
    (∃ frame, (envelope [unsigned single]).encode = .ok frame ∧
      open? (frame ++ [7, 7]) = .ok (.zero, .signedStates [unsigned single])) ∧
    ∃ frame, (envelope [unsigned single, unsigned repeated]).encode = .ok frame ∧
      open? (frame ++ [7, 7]) =
        .error (.conversion (.invalidOutcome (.duplicateDestination .zero))) := by
  obtain ⟨hasFrame, reads, -⟩ := survives_wire
  have valid : single.validate = .ok () := by rfl
  have invalid : repeated.validate = .error (.duplicateDestination .zero) := by rfl
  constructor
  · obtain ⟨frame, written⟩ := (hasFrame (envelope [unsigned single])).2 (by decide +kernel)
    refine ⟨frame, written, (reads _ frame [7, 7] written).1 ?_⟩
    intro o member
    rw [List.mem_singleton.1 member]
    exact valid
  · obtain ⟨frame, written⟩ :=
      (hasFrame (envelope [unsigned single, unsigned repeated])).2 (by decide +kernel)
    have refused : ¬∀ o ∈ (envelope [unsigned single, unsigned repeated]).message.outcomes,
        o.validate = .ok () := by
      intro all
      have accepted := all repeated (by simp [envelope, Message.outcomes, unsigned])
      rw [invalid] at accepted
      cases accepted
    obtain ⟨fault, ⟨o, member, isFault⟩, read⟩ := (reads _ frame [7, 7] written).2 refused
    -- The first outcome is valid, so the fault is that of the second.
    have second : o = repeated := by
      rcases List.mem_cons.1 member with rfl | member
      · cases valid.symm.trans isFault
      · exact List.mem_singleton.1 member
    rw [second, invalid] at isFault
    cases isFault
    exact ⟨frame, written, read⟩

end Sample

end Envelope

end StateChannels
