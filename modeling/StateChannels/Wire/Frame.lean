import StateChannels.Wire.Conversion

/-!
# `StateChannels.Wire.Frame`: messages as frames of bytes

A frame is the length of a record in two bytes, most significant
first, and then the record. Participants send envelopes in frames: a
message with its sender and its recipient.

Main statement: `Frame.split_write`, a written frame is split off
again, whatever bytes follow.
-/

set_option autoImplicit false

namespace StateChannels.Wire

/-- Why a frame is not written or not read. -/
inductive WireError where
  | messageTooLong (length : Nat)
  | truncated (expected actual : Nat)
  /-- The bytes hold no record. -/
  | malformed
  | conversion (error : ConversionError)
deriving DecidableEq

/-- The text of an error. -/
def WireError.message : WireError → String
  | messageTooLong length =>
    s!"message of {length} bytes does not fit the u16 length prefix"
  | truncated expected actual =>
    s!"frame announces {expected} bytes, {actual} available"
  | malformed => "malformed record"
  | conversion e => e.message

namespace Frame

/-- The frame of the bytes `body`, if their length fits. -/
def write (body : Bytes) : Except WireError Bytes :=
  if body.length < 2 ^ 16 then .ok (Bytes.ofNat 2 body.length ++ body)
  else .error (.messageTooLong body.length)

/-- The bytes in the frame at the front of the input, and what is
behind it. -/
def split (input : Bytes) : Except WireError (Bytes × Bytes) :=
  if input.length < 2 then .error (.truncated 2 input.length)
  else
    let length := Bytes.toNat (input.take 2)
    let behind := input.drop 2
    if behind.length < length then .error (.truncated length behind.length)
    else .ok (behind.take length, behind.drop length)

/-- A frame is split off from what follows it. -/
theorem split_write {body frame : Bytes} (h : write body = .ok frame) (rest : Bytes) :
    split (frame ++ rest) = .ok (body, rest) := by
  unfold write at h
  split at h
  · rename_i fits
    simp only [Except.ok.injEq] at h
    subst h
    have value : Bytes.toNat (Bytes.ofNat 2 body.length) = body.length :=
      Bytes.toNat_ofNat (by simpa using fits)
    have front : (Bytes.ofNat 2 body.length ++ (body ++ rest)).take 2 =
        Bytes.ofNat 2 body.length := by
      rw [List.take_left' (by simp)]
    have behind : (Bytes.ofNat 2 body.length ++ (body ++ rest)).drop 2 = body ++ rest := by
      rw [List.drop_left' (by simp)]
    have long : ¬(Bytes.ofNat 2 body.length ++ (body ++ rest)).length < 2 := by
      rw [List.length_append, Bytes.length_ofNat]
      omega
    rw [Frame.split, List.append_assoc, if_neg long, front, behind, value]
    simp
  · simp at h

/-- The record in the frame at the front of the input, and how many
bytes the frame has. -/
def decode? {ρ : Type} [Record ρ] (input : Bytes) : Except WireError (ρ × Nat) := do
  let (body, _) ← split input
  match Record.decode? body with
  | some r => return (r, body.length + 2)
  | none => .error .malformed

end Frame

end StateChannels.Wire

namespace StateChannels

open Wire

/-- A message under way. -/
@[ext] structure Envelope where
  sender : Address
  recipient : Address
  message : Message
deriving DecidableEq

namespace Envelope

/-- The record of an envelope. -/
def toRecord (e : Envelope) : EnvelopeRecord :=
  ⟨e.sender.toBytes, e.recipient.toBytes, some e.message.toRecord⟩

/-- The frame of an envelope, if the message is not too long. -/
def encode (e : Envelope) : Except WireError Bytes := Frame.write (Record.encode e.toRecord)

/-- The sender and the message of the frame at the front of the
input. The recipient is whoever reads. -/
def open? (input : Bytes) : Except WireError (Address × Message) := do
  let (r, _) ← Frame.decode? (ρ := EnvelopeRecord) input
  let sender ← (Address.ofField? "sender" r.sender).mapError .conversion
  let message ← (orMissing "msg" r.message).mapError .conversion
  let message ← (Message.ofRecord? message).mapError .conversion
  return (sender, message)

end Envelope

end StateChannels
