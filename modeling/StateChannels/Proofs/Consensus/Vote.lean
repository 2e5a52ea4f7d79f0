import StateChannels.Proofs.Consensus.Rule
import StateChannels.Proofs.Wire.RoundTrip

/-!
# `StateChannels.Proofs.Consensus.Vote`: a vote that is carried

The steps of a vote as equivalences: when there is a next state, and which
one it is. A proposal on a valid outcome, followed by the votes of all others,
makes this outcome the outcome of the channel.

* `propose_eq_ok_iff`, `vote_eq_ok_iff`, `finalVote_eq_ok_iff`: the steps.
* `carry`: the votes that a proposal still needs, one after the other.
* `carry_of_propose`: they succeed, and leave the proposed outcome with no
  vote running.
-/

set_option autoImplicit false

namespace StateChannels.State

open ConsensusData (ofState?)

variable {s next : State} {c : ConsensusData} {proposed : Outcome} {size : Nat}

/-! ### The steps -/

/-- The state one turn later, with other consensus data. -/
def step (s : State) (turnNum : TurnNum) (c : ConsensusData) : State :=
  { s with turnNum := turnNum, appData := c.encode }

/-- A state gets new data with the turn after its own. -/
theorem withConsensus_eq_ok_iff :
    s.withConsensus c = .ok next ↔
      ∃ t : TurnNum, t.toNat = s.turnNum.toNat + 1 ∧ next = s.step t c := by
  rw [withConsensus, bind_eq_ok_iff]
  simp only [Failure.ofCounter_eq_ok_iff, State.next, bind_eq_ok_iff, TurnNum.succ_eq_ok_iff]
  constructor
  · rintro ⟨_, ⟨t, later, ⟨⟩⟩, ⟨⟩⟩
    exact ⟨t, later, rfl⟩
  · rintro ⟨t, later, rfl⟩
    exact ⟨_, ⟨t, later, rfl⟩, rfl⟩

/-- A step has the data of the state, if it is allowed there. -/
theorem consensusFor_eq_ok_iff {kind : ConsensusStep} {allowed : ConsensusData → Bool} :
    s.consensusFor kind allowed = .ok c ↔ ofState? s = .ok c ∧ allowed c = true := by
  rw [consensusFor, bind_eq_ok_iff]
  simp only [Failure.ofRule_eq_ok_iff]
  constructor
  · rintro ⟨c', inState, fine⟩
    split at fine
    · rename_i isAllowed
      obtain rfl : c' = c := Except.ok.inj fine
      exact ⟨inState, isAllowed⟩
    · cases fine
  · rintro ⟨inState, isAllowed⟩
    exact ⟨c, inState, if_pos isAllowed⟩

/-- A vote can be started where none is running. -/
theorem propose_eq_ok_iff :
    s.propose proposed size = .ok next ↔
      ∃ c votes, ∃ t : TurnNum, ofState? s = .ok c ∧ c.furtherVotes = 0 ∧
        ConsensusData.votesFor? size = .ok votes ∧ t.toNat = s.turnNum.toNat + 1 ∧
        next = s.step t ⟨votes, proposed⟩ := by
  rw [propose]
  simp only [bind_eq_ok_iff, consensusFor_eq_ok_iff, Failure.ofRule_eq_ok_iff,
    withConsensus_eq_ok_iff, ConsensusData.isIdle, decide_eq_true_eq]
  constructor
  · rintro ⟨c, ⟨inState, atRest⟩, votes, restart, t, later, rfl⟩
    exact ⟨c, votes, t, inState, atRest, restart, later, rfl⟩
  · rintro ⟨c, votes, t, inState, atRest, restart, later, rfl⟩
    exact ⟨c, ⟨inState, atRest⟩, votes, restart, t, later, rfl⟩

/-- A vote that is not the last one. -/
theorem vote_eq_ok_iff :
    s.vote = .ok next ↔
      ∃ c, ∃ t : TurnNum, ofState? s = .ok c ∧ 1 < c.furtherVotes ∧
        t.toNat = s.turnNum.toNat + 1 ∧ next = s.step t ⟨c.furtherVotes - 1, c.proposed⟩ := by
  rw [vote]
  simp only [bind_eq_ok_iff, consensusFor_eq_ok_iff, withConsensus_eq_ok_iff, decide_eq_true_eq]
  constructor
  · rintro ⟨c, ⟨inState, further⟩, t, later, rfl⟩
    exact ⟨c, t, inState, further, later, rfl⟩
  · rintro ⟨c, t, inState, further, later, rfl⟩
    exact ⟨c, ⟨inState, further⟩, t, later, rfl⟩

/-- The last vote puts the proposal in place of the outcome. -/
theorem finalVote_eq_ok_iff :
    s.finalVote = .ok next ↔
      ∃ c, ∃ t : TurnNum, ofState? s = .ok c ∧ c.furtherVotes = 1 ∧
        t.toNat = s.turnNum.toNat + 1 ∧
        next = { s.step t .idle with outcome := c.proposed } := by
  rw [finalVote]
  simp only [bind_eq_ok_iff, consensusFor_eq_ok_iff, withConsensus_eq_ok_iff, decide_eq_true_eq]
  constructor
  · rintro ⟨c, ⟨inState, last⟩, _, ⟨t, later, rfl⟩, ⟨⟩⟩
    exact ⟨c, t, inState, last, later, rfl⟩
  · rintro ⟨c, t, inState, last, later, rfl⟩
    exact ⟨c, ⟨inState, last⟩, _, ⟨t, later, rfl⟩, rfl⟩

/-! ### All votes -/

/-- So many votes, and then the last one. -/
def carry : (votes : Nat) → State → Except (Failure ConsensusError) State
  | 0, s => s.finalVote
  | votes + 1, s => do
    let s ← s.vote
    s.carry votes

/-- The votes of the others carry a proposal that can be written, if the turn
numbers last. -/
theorem carry_eq_ok {votes : Nat} (inState : ofState? s = .ok c)
    (count : c.furtherVotes.toNat = votes + 1) (valid : c.proposed.Valid)
    (writable : c.proposed.Writable) (turns : s.turnNum.toNat + votes + 1 < 2 ^ 64) :
    ∃ t : TurnNum, t.toNat = s.turnNum.toNat + votes + 1 ∧
      s.carry votes = .ok { s.step t .idle with outcome := c.proposed } := by
  induction votes generalizing s c with
  | zero =>
    have last : c.furtherVotes = 1 := UInt32.toNat_inj.1 count
    have value : (UInt64.ofNat (s.turnNum.toNat + 1)).toNat = s.turnNum.toNat + 1 :=
      UInt64.toNat_ofNat_of_lt' turns
    exact ⟨_, value, finalVote_eq_ok_iff.2 ⟨c, _, inState, last, value, rfl⟩⟩
  | succ votes ih =>
    have inRange : s.turnNum.toNat + 1 < 2 ^ 64 := by omega
    have value : (UInt64.ofNat (s.turnNum.toNat + 1)).toNat = s.turnNum.toNat + 1 :=
      UInt64.toNat_ofNat_of_lt' inRange
    have one : (1 : UInt32).toNat = 1 := rfl
    have further : 1 < c.furtherVotes := by
      rw [UInt32.lt_iff_toNat_lt, one, count]
      omega
    have fewer : (c.furtherVotes - 1).toNat = votes + 1 := by
      rw [UInt32.toNat_sub_of_le _ _ (UInt32.le_of_lt further), one, count]
      omega
    have voted : s.vote = .ok (s.step (.ofNat (s.turnNum.toNat + 1))
        ⟨c.furtherVotes - 1, c.proposed⟩) :=
      vote_eq_ok_iff.2 ⟨c, _, inState, further, value, rfl⟩
    -- The next state holds the vote with one less missing.
    have inNext : ofState? (s.step (.ofNat (s.turnNum.toNat + 1))
        ⟨c.furtherVotes - 1, c.proposed⟩) = .ok ⟨c.furtherVotes - 1, c.proposed⟩ := by
      refine ConsensusData.decode?_encode (fun none => ?_) valid writable
      have none : c.furtherVotes - 1 = 0 := none
      rw [none] at fewer
      cases fewer
    obtain ⟨t, later, carried⟩ := ih inNext fewer valid writable (by rw [step, value]; omega)
    refine ⟨t, ?_, ?_⟩
    · rw [later, step, value]
      omega
    · rw [carry, voted]
      exact carried

/-- In a channel that can vote, a vote can be started where none is running. -/
theorem exists_propose (inState : ofState? s = .ok .idle) (proposed : Outcome)
    (two_le : 2 ≤ size) (size_lt : size < 2 ^ 32) (turns : s.turnNum.toNat + 1 < 2 ^ 64) :
    ∃ next, s.propose proposed size = .ok next := by
  have value : (UInt64.ofNat (s.turnNum.toNat + 1)).toNat = s.turnNum.toNat + 1 :=
    UInt64.toNat_ofNat_of_lt' turns
  have restart : ConsensusData.votesFor? size = .ok (UInt32.ofNat (size - 1)) :=
    if_pos ⟨two_le, size_lt⟩
  exact ⟨_, propose_eq_ok_iff.2 ⟨.idle, _, _, inState, rfl, restart, value, rfl⟩⟩

/-- There are proposals just in channels that can vote. -/
theorem size_of_propose (isNext : s.propose proposed size = .ok next) :
    2 ≤ size ∧ size < 2 ^ 32 := by
  obtain ⟨-, votes, -, -, -, restart, -, -⟩ := propose_eq_ok_iff.1 isNext
  obtain ⟨two_le, size_lt, -⟩ := ConsensusData.votesFor?_eq_ok_iff.1 restart
  exact ⟨two_le, size_lt⟩

/-- What is proposed can be written if it was written. -/
theorem writable_of_propose (isNext : s.propose proposed size = .ok next)
    (fits : next.appData.length < 2 ^ 64) : proposed.Writable := by
  obtain ⟨-, votes, t, -, -, restart, -, rfl⟩ := propose_eq_ok_iff.1 isNext
  exact ConsensusData.writable_of_encode (ConsensusData.votes_bounds restart).1 fits

/-- A proposal of a valid outcome is carried by the votes of all others. What
they leave is the state of before, `size` turns later and with the proposed
outcome. -/
theorem carry_of_propose (isNext : s.propose proposed size = .ok next) (valid : proposed.Valid)
    (writable : proposed.Writable) (turns : s.turnNum.toNat + size < 2 ^ 64) :
    ∃ t : TurnNum, t.toNat = s.turnNum.toNat + size ∧
      next.carry (size - 2) = .ok { s.step t .idle with outcome := proposed } := by
  obtain ⟨-, votes, t, -, -, restart, later, rfl⟩ := propose_eq_ok_iff.1 isNext
  obtain ⟨two_le, -, count⟩ := ConsensusData.votesFor?_eq_ok_iff.1 restart
  have inNext : ofState? (s.step t ⟨votes, proposed⟩) = .ok ⟨votes, proposed⟩ :=
    ConsensusData.decode?_encode (ConsensusData.votes_bounds restart).1 valid writable
  have turn : (s.step t ⟨votes, proposed⟩).turnNum.toNat = s.turnNum.toNat + 1 := later
  have left : votes.toNat = size - 2 + 1 := by omega
  obtain ⟨t', later', carried⟩ := carry_eq_ok inNext left valid writable (by rw [turn]; omega)
  refine ⟨t', ?_, carried⟩
  rw [later', turn]
  omega

end StateChannels.State
