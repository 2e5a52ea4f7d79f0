import StateChannels.App
import StateChannels.Wire.Conversion

/-!
# `StateChannels.Consensus`: voting on a new outcome

The application data of a ledger channel says whether a vote is
running. A proposal asks every other participant for a vote, and the
last vote puts it in place of the outcome. While a vote is running,
anyone may stop it or replace the proposal.

Each step is a function from a state to the next one. `App.consensus`
is the rule of the application: it accepts the pairs of states that
these steps make.

Main statement: `ConsensusData.votesFor?_eq_ok_iff` says for how many
participants there can be a vote, and how many votes it needs.
-/

set_option autoImplicit false

namespace StateChannels

/-- The steps of a vote. -/
inductive ConsensusStep where
  | propose
  | proposeAlternative
  | vote
  | finalVote
  | veto
  | pass
deriving DecidableEq

/-- How a step is called in an error. -/
def ConsensusStep.name : ConsensusStep → String
  | propose => "propose"
  | proposeAlternative => "propose_alternative"
  | vote => "vote"
  | finalVote => "final_vote"
  | veto => "veto"
  | pass => "pass"

/-- Why there is no next state. -/
inductive ConsensusError where
  | notAllowed (step : ConsensusStep) (furtherVotes : UInt32)
  | tooFewParticipants (size : Nat)
  | proposalAtRest
  /-- The application data holds no record. -/
  | malformed
  | conversion (error : ConversionError)
deriving DecidableEq

/-- The text of an error. -/
def ConsensusError.message : ConsensusError → String
  | notAllowed step furtherVotes =>
    step.name ++ s!" is not allowed with {furtherVotes.toNat} further votes required"
  | tooFewParticipants size => s!"consensus needs at least two participants, got {size}"
  | proposalAtRest => "idle consensus state carries a proposal"
  | malformed => "malformed record"
  | conversion e => "invalid proposed outcome: " ++ e.message

/-- Where a vote stands: how many votes are missing, and on what. -/
@[ext] structure ConsensusData where
  furtherVotes : UInt32
  proposed : Outcome
deriving DecidableEq

namespace ConsensusData

/-- No vote is running. -/
def idle : ConsensusData := ⟨0, ⟨[]⟩⟩

/-- Whether no vote is running. -/
def isIdle (c : ConsensusData) : Bool := c.furtherVotes = 0

/-- The application data. A proposal is written only while it is
voted on. -/
def encode (c : ConsensusData) : Bytes :=
  Wire.Record.encode (ρ := Wire.ConsensusRecord)
    ⟨c.furtherVotes, if c.isIdle then none else some c.proposed.toRecord⟩

/-- The outcome of a part that may be missing. -/
def proposedOf? : Option Wire.OutcomeRecord → Except ConversionError Outcome
  | some r => Outcome.ofRecord? r
  | none => .ok ⟨[]⟩

/-- Reads application data. No data at all means that no vote is
running. -/
def decode? (appData : Bytes) : Except ConsensusError ConsensusData :=
  match Wire.Record.decode? (ρ := Wire.ConsensusRecord) appData with
  | none => .error .malformed
  | some r => do
    let proposed ← (proposedOf? r.proposedOutcome).mapError .conversion
    if r.furtherVotes = 0 ∧ proposed.assets ≠ [] then .error .proposalAtRest
    else return ⟨r.furtherVotes, proposed⟩

/-- Where the vote in a state stands. -/
def ofState? (s : State) : Except ConsensusError ConsensusData := decode? s.appData

/-- The votes that a new proposal needs: one of each other
participant. -/
def votesFor? (size : Nat) : Except ConsensusError UInt32 :=
  if 2 ≤ size ∧ size < 2 ^ 32 then .ok (UInt32.ofNat (size - 1))
  else .error (.tooFewParticipants size)

/-- All participants but one have to vote, and their number has to fit. -/
theorem votesFor?_eq_ok_iff {size : Nat} {votes : UInt32} :
    votesFor? size = .ok votes ↔ 2 ≤ size ∧ size < 2 ^ 32 ∧ votes.toNat + 1 = size := by
  unfold votesFor?
  split
  · rename_i h
    have value : (UInt32.ofNat (size - 1)).toNat = size - 1 := by
      rw [UInt32.toNat_ofNat']
      omega
    rw [Except.ok.injEq, ← UInt32.toNat_inj, value]
    omega
  · simp
    omega

end ConsensusData

namespace State

/-- The next state, with other consensus data. -/
def withConsensus (s : State) (c : ConsensusData) : Except (Failure ConsensusError) State := do
  let next ← Failure.ofCounter s.next
  return { next with appData := c.encode }

/-- The consensus data of a state in which a step is allowed. -/
def consensusFor (s : State) (step : ConsensusStep) (allowed : ConsensusData → Bool) :
    Except (Failure ConsensusError) ConsensusData := do
  let c ← Failure.ofRule id (ConsensusData.ofState? s)
  if allowed c then return c else .error (.refused (.notAllowed step c.furtherVotes))

/-- Starts a vote. -/
def propose (s : State) (proposed : Outcome) (size : Nat) :
    Except (Failure ConsensusError) State := do
  let _ ← s.consensusFor .propose ConsensusData.isIdle
  let votes ← Failure.ofRule id (ConsensusData.votesFor? size)
  s.withConsensus ⟨votes, proposed⟩

/-- Replaces the proposal of a running vote. The vote starts over. -/
def proposeAlternative (s : State) (proposed : Outcome) (size : Nat) :
    Except (Failure ConsensusError) State := do
  let _ ← s.consensusFor .proposeAlternative fun c => !c.isIdle
  let votes ← Failure.ofRule id (ConsensusData.votesFor? size)
  s.withConsensus ⟨votes, proposed⟩

/-- Votes for the proposal, if others have to vote after. -/
def vote (s : State) : Except (Failure ConsensusError) State := do
  let c ← s.consensusFor .vote fun c => 1 < c.furtherVotes
  s.withConsensus { c with furtherVotes := c.furtherVotes - 1 }

/-- The last vote: the proposal becomes the outcome. -/
def finalVote (s : State) : Except (Failure ConsensusError) State := do
  let c ← s.consensusFor .finalVote fun c => c.furtherVotes = 1
  let next ← s.withConsensus .idle
  return { next with outcome := c.proposed }

/-- Stops a running vote. -/
def veto (s : State) : Except (Failure ConsensusError) State := do
  let _ ← s.consensusFor .veto fun c => !c.isIdle
  s.withConsensus .idle

/-- Lets a turn go by without a vote. -/
def pass (s : State) : Except (Failure ConsensusError) State := do
  let c ← s.consensusFor .pass ConsensusData.isIdle
  s.withConsensus c

end State

/-- Whether `next` has one vote less to go than `prev`, on the same
proposal. The count of votes may not overflow. -/
def ConsensusData.isVote (prev next : ConsensusData) : Except Overflow Bool :=
  if next.furtherVotes.toNat + 1 < 2 ^ 32 then
    .ok (next.furtherVotes + 1 = prev.furtherVotes ∧ next.proposed = prev.proposed)
  else .error .addition

/-- The rule of a ledger channel. -/
def App.consensus : App where
  accepts prev next size :=
    match ConsensusData.ofState? prev, ConsensusData.ofState? next,
        ConsensusData.votesFor? size with
    | .ok a, .ok b, .ok restart =>
      let kept : Bool := prev.outcome = next.outcome
      let restarted : Bool := b.furtherVotes = restart
      match a.isIdle, b.isIdle with
      | true, true => .ok kept
      | true, false => .ok (kept && restarted)
      | false, false => do
        let voted ← a.isVote b
        return kept && (voted || restarted)
      | false, true => .ok (kept || (a.furtherVotes = 1 ∧ next.outcome = a.proposed))
    | _, _, _ => .ok false

end StateChannels
