import StateChannels.Checked
import StateChannels.Abi.Token

/-!
# `StateChannels.Adjudicator.Storage`: what the chain keeps of a channel

Of each channel the adjudicator keeps one record. Whether the channel
is final is not stored. It follows from the end of the challenge time
and the clock.
-/

set_option autoImplicit false

namespace StateChannels

/-- Where a channel is in a dispute. -/
inductive ChannelStatus where
  | opened
  | challenged
  | finalized
deriving DecidableEq

/-- What a status is called in a message. -/
def ChannelStatus.name : ChannelStatus → String
  | opened => "Open"
  | challenged => "Challenged"
  | finalized => "Finalized"

/-- The record of a channel. -/
@[ext] structure ChannelStorage where
  /-- The highest turn that is known to be supported. -/
  turnNumRecord : TurnNum := 0
  /-- The end of the challenge time, or 0 without a challenge. -/
  finalizesAt : Seconds := 0
  stateHash : Hash := .zero
  challenger : Address := .zero
  outcomeHash : Hash := .zero
deriving DecidableEq

namespace ChannelStorage

/-- The record after a challenge was answered, or without one. -/
def cleared (turnNumRecord : TurnNum) : ChannelStorage := { turnNumRecord }

/-- Where the channel is at a time. -/
def status (s : ChannelStorage) (now : Seconds) : ChannelStatus :=
  if s.finalizesAt = 0 then .opened
  else if now < s.finalizesAt then .challenged
  else .finalized

/-- The ABI form of the challenge. -/
def challengeToken (s : ChannelStorage) : Abi.Token :=
  .tuple [.ofHash s.stateHash, .ofAddress s.challenger, .ofHash s.outcomeHash]

/-- The ABI form of the record: two numbers and the digest of the
challenge. -/
def token (s : ChannelStorage) : Abi.Token :=
  .tuple [.ofNat s.turnNumRecord.toNat, .ofNat s.finalizesAt.toNat,
    .ofHash s.challengeToken.argsHash]

/-- The digest of the record, which is all that a chain stores. -/
def fingerprint (s : ChannelStorage) : Hash := s.token.argsHash

/-- A channel is finalized once the time that is set has come. -/
theorem status_eq_finalized_iff {s : ChannelStorage} {now : Seconds} :
    s.status now = .finalized ↔ s.finalizesAt ≠ 0 ∧ s.finalizesAt.toNat ≤ now.toNat := by
  unfold status
  rw [← UInt64.le_iff_toNat_le, ← UInt64.not_lt]
  repeat' split
  all_goals simp_all

/-- A cleared channel is open at any time. -/
@[simp] theorem status_cleared (turnNumRecord : TurnNum) (now : Seconds) :
    (cleared turnNumRecord).status now = .opened := rfl

end ChannelStorage

end StateChannels
