import StateChannels.Proofs.Consensus.Data
import StateChannels.Proofs.Consensus.Unanimity
import StateChannels.Proofs.Consensus.Vote

/-!
# `StateChannels.Proofs.Consensus.Steps`: the rule accepts just the steps

The rule of a ledger channel looks at two states, and the steps of a vote make
a second state from a first one. The two were written apart. A state that the
rule accepts may differ from what a step makes in whatever the rule does not
look at, and its data may be written in another way. But the vote stands where
it stands after a step, and the outcome is the one that the step leaves.

* `State.StepsTo`: the six steps.
* `State.proposeAlternative_eq_ok_iff`, `State.veto_eq_ok_iff`,
  `State.pass_eq_ok_iff`: the steps that do not carry a vote.
* `State.StepsTo.permits`, `ConsensusData.Permits.exists_stepsTo`: from the steps
  to the cases of the rule, and back.
* `App.accepts_consensus_iff_stepsTo`: the rule accepts just the steps.
-/

set_option autoImplicit false

namespace StateChannels

open ConsensusData (ofState? votesFor? Permits)

/-- A count of two votes or more goes on with one less. -/
theorem ConsensusData.one_less {votes : UInt32} (further : 1 < votes) :
    votes - 1 ≠ 0 ∧ (votes - 1).toNat + 1 = votes.toNat := by
  have one : (1 : UInt32).toNat = 1 := rfl
  have two_le : 1 < votes.toNat := by rwa [UInt32.lt_iff_toNat_lt, one] at further
  have counted : (votes - 1).toNat + 1 = votes.toNat := by
    rw [UInt32.toNat_sub_of_le _ _ (UInt32.le_of_lt further), one]
    omega
  refine ⟨fun none => ?_, counted⟩
  rw [none] at counted
  exact absurd counted (Nat.ne_of_lt two_le)

namespace State

variable {s made : State} {proposed : Outcome} {size : Nat}

/-- One of the steps of a vote makes the other state, in a channel of `size`
participants. -/
inductive StepsTo (size : Nat) (s made : State) : Prop
  | propose (proposed : Outcome) (isMade : s.propose proposed size = .ok made)
  | proposeAlternative (proposed : Outcome) (isMade : s.proposeAlternative proposed size = .ok made)
  | vote (isMade : s.vote = .ok made)
  | finalVote (isMade : s.finalVote = .ok made)
  | veto (isMade : s.veto = .ok made)
  | pass (isMade : s.pass = .ok made)

/-- A running vote can start over, on another proposal. -/
theorem proposeAlternative_eq_ok_iff :
    s.proposeAlternative proposed size = .ok made ↔
      ∃ c votes, ∃ t : TurnNum, ofState? s = .ok c ∧ c.furtherVotes ≠ 0 ∧
        votesFor? size = .ok votes ∧ t.toNat = s.turnNum.toNat + 1 ∧
        made = s.step t ⟨votes, proposed⟩ := by
  rw [proposeAlternative]
  simp only [bind_eq_ok_iff, consensusFor_eq_ok_iff, Failure.ofRule_eq_ok_iff,
    withConsensus_eq_ok_iff, Bool.not_eq_true', ConsensusData.isIdle_eq_false_iff]
  constructor
  · rintro ⟨c, ⟨inState, running⟩, votes, restart, t, later, rfl⟩
    exact ⟨c, votes, t, inState, running, restart, later, rfl⟩
  · rintro ⟨c, votes, t, inState, running, restart, later, rfl⟩
    exact ⟨c, ⟨inState, running⟩, votes, restart, t, later, rfl⟩

/-- A running vote can be stopped. -/
theorem veto_eq_ok_iff :
    s.veto = .ok made ↔
      ∃ c, ∃ t : TurnNum, ofState? s = .ok c ∧ c.furtherVotes ≠ 0 ∧
        t.toNat = s.turnNum.toNat + 1 ∧ made = s.step t .idle := by
  rw [veto]
  simp only [bind_eq_ok_iff, consensusFor_eq_ok_iff, withConsensus_eq_ok_iff,
    Bool.not_eq_true', ConsensusData.isIdle_eq_false_iff]
  constructor
  · rintro ⟨c, ⟨inState, running⟩, t, later, rfl⟩
    exact ⟨c, t, inState, running, later, rfl⟩
  · rintro ⟨c, t, inState, running, later, rfl⟩
    exact ⟨c, ⟨inState, running⟩, t, later, rfl⟩

/-- Where no vote is running, a turn can go by. -/
theorem pass_eq_ok_iff :
    s.pass = .ok made ↔
      ∃ t : TurnNum, ofState? s = .ok .idle ∧ t.toNat = s.turnNum.toNat + 1 ∧
        made = s.step t .idle := by
  rw [pass]
  simp only [bind_eq_ok_iff, consensusFor_eq_ok_iff, withConsensus_eq_ok_iff,
    ConsensusData.isIdle_eq_true_iff]
  constructor
  · rintro ⟨c, ⟨inState, atRest⟩, t, later, rfl⟩
    cases ConsensusData.eq_idle_of_decode? inState atRest
    exact ⟨t, inState, later, rfl⟩
  · rintro ⟨t, inState, later, rfl⟩
    exact ⟨.idle, ⟨inState, rfl⟩, t, later, rfl⟩

/-! ### From a step to the rule -/

variable {b : ConsensusData} {votes : UInt32}

/-- The data of a step is the one it was made with. -/
theorem ofState?_step {t : TurnNum} {c : ConsensusData}
    (inMade : ofState? (s.step t c) = .ok b) (running : c.furtherVotes ≠ 0) : b = c :=
  ((ConsensusData.decode?_encode_eq_ok_iff running).1 inMade).1

/-- A step that ends the vote leaves idle data, whatever the outcome. -/
theorem ofState?_step_idle {t : TurnNum} {outcome : Outcome}
    (inMade : ofState? { s.step t .idle with outcome := outcome } = .ok b) : b = .idle :=
  Except.ok.inj (inMade.symm.trans ConsensusData.decode?_idle)

/-- What a step makes is in one of the cases of the rule, if it can be read. -/
theorem StepsTo.permits (h : s.StepsTo size made) (inMade : ofState? made = .ok b)
    (restart : votesFor? size = .ok votes) :
    ∃ a, ofState? s = .ok a ∧ Permits votes a b s.outcome made.outcome := by
  have some := (ConsensusData.votes_bounds restart).1
  -- Each method determines the data it wrote, and with it the rule that permits the step.
  cases h with
  | propose o isMade =>
    obtain ⟨a, votes', t, inState, atRest, restart', -, rfl⟩ := propose_eq_ok_iff.1 isMade
    cases restart.symm.trans restart'
    cases ofState?_step inMade some
    exact ⟨a, inState, .opened atRest rfl rfl⟩
  | proposeAlternative o isMade =>
    obtain ⟨a, votes', t, inState, running, restart', -, rfl⟩ :=
      proposeAlternative_eq_ok_iff.1 isMade
    cases restart.symm.trans restart'
    cases ofState?_step inMade some
    exact ⟨a, inState, .restarted running rfl rfl⟩
  | vote isMade =>
    obtain ⟨a, t, inState, further, -, rfl⟩ := vote_eq_ok_iff.1 isMade
    obtain ⟨missing, counted⟩ := ConsensusData.one_less further
    cases ofState?_step inMade missing
    exact ⟨a, inState, .voted missing counted rfl rfl⟩
  | finalVote isMade =>
    obtain ⟨a, t, inState, last, -, rfl⟩ := finalVote_eq_ok_iff.1 isMade
    cases ofState?_step_idle inMade
    exact ⟨a, inState, .settled last rfl rfl⟩
  | veto isMade =>
    obtain ⟨a, t, inState, running, -, rfl⟩ := veto_eq_ok_iff.1 isMade
    cases ofState?_step_idle inMade
    exact ⟨a, inState, .stopped running rfl rfl⟩
  | pass isMade =>
    obtain ⟨t, inState, -, rfl⟩ := pass_eq_ok_iff.1 isMade
    cases ofState?_step_idle inMade
    exact ⟨.idle, inState, .passed rfl rfl rfl⟩

end State

/-! ### From the rule to a step -/

/-- The data of a step reads back, if no vote is running after it or if it is
the data of another state. -/
theorem State.ofState?_step_of_ofState? {s next : State} {t : TurnNum} {b : ConsensusData}
    (inNext : ofState? next = .ok b) (short : next.appData.length < 2 ^ 63) :
    ofState? (s.step t b) = .ok b :=
  ConsensusData.decode?_encode_of_decode? inNext short

/-- In each of the cases of the rule there is a step that makes the same data
and the same outcome. -/
theorem ConsensusData.Permits.exists_stepsTo {s next : State} {size : Nat} {a b : ConsensusData}
    {votes : UInt32} (h : Permits votes a b s.outcome next.outcome)
    (inState : ofState? s = .ok a) (inNext : ofState? next = .ok b)
    (restart : votesFor? size = .ok votes) (turns : s.turnNum.toNat + 1 < 2 ^ 64)
    (short : next.appData.length < 2 ^ 63) :
    ∃ made, s.StepsTo size made ∧ ofState? made = .ok b ∧ made.outcome = next.outcome := by
  obtain ⟨t, later⟩ : ∃ t : TurnNum, t.toNat = s.turnNum.toNat + 1 :=
    ⟨_, UInt64.toNat_ofNat_of_lt' turns⟩
  have reads : ofState? (s.step t b) = .ok b := State.ofState?_step_of_ofState? inNext short
  cases h with
  | passed atRest rests kept =>
    cases eq_idle_of_decode? inState atRest
    cases eq_idle_of_decode? inNext rests
    exact ⟨_, .pass (State.pass_eq_ok_iff.2 ⟨t, inState, later, rfl⟩), reads, kept.symm⟩
  | opened atRest opens kept =>
    cases opens
    exact ⟨_, .propose b.proposed (State.propose_eq_ok_iff.2
      ⟨a, _, t, inState, atRest, restart, later, rfl⟩), reads, kept.symm⟩
  | voted missing counted same kept =>
    -- Votes are still missing after this one, so it was not the last.
    have one : (1 : UInt32).toNat = 1 := rfl
    have some : b.furtherVotes.toNat ≠ 0 := fun none => missing (UInt32.toNat_inj.1 none)
    have further : 1 < a.furtherVotes := by
      rw [UInt32.lt_iff_toNat_lt, one]
      omega
    have fewer : b = ⟨a.furtherVotes - 1, a.proposed⟩ := by
      obtain ⟨-, counts⟩ := one_less further
      exact ConsensusData.ext (UInt32.toNat_inj.1 (Nat.succ.inj (counted.trans counts.symm))) same
    rw [fewer] at reads ⊢
    exact ⟨_, .vote (State.vote_eq_ok_iff.2 ⟨a, t, inState, further, later, rfl⟩), reads,
      kept.symm⟩
  | restarted running opens kept =>
    cases opens
    exact ⟨_, .proposeAlternative b.proposed (State.proposeAlternative_eq_ok_iff.2
      ⟨a, _, t, inState, running, restart, later, rfl⟩), reads, kept.symm⟩
  | stopped running rests kept =>
    cases eq_idle_of_decode? inNext rests
    exact ⟨_, .veto (State.veto_eq_ok_iff.2 ⟨a, t, inState, running, later, rfl⟩), reads,
      kept.symm⟩
  | settled last rests settles =>
    cases eq_idle_of_decode? inNext rests
    exact ⟨_, .finalVote (State.finalVote_eq_ok_iff.2 ⟨a, t, inState, last, later, rfl⟩),
      reads, settles.symm⟩

namespace App

/-- In a channel that can vote, and before the last turn, the rule accepts two
states just if a step makes from the first one a state with the data and the
outcome of the second one. No byte string in memory has `2 ^ 63` bytes. -/
theorem accepts_consensus_iff_stepsTo {prev next : State} {size : Nat} (two_le : 2 ≤ size)
    (size_lt : size < 2 ^ 32) (turns : prev.turnNum.toNat + 1 < 2 ^ 64)
    (short : next.appData.length < 2 ^ 63) :
    consensus.accepts prev next size = .ok true ↔
      ∃ made b, prev.StepsTo size made ∧ ofState? made = .ok b ∧ ofState? next = .ok b ∧
        made.outcome = next.outcome := by
  rw [accepts_consensus_iff]
  constructor
  · rintro ⟨a, b, votes, inPrev, inNext, restart, permitted⟩
    obtain ⟨made, steps, inMade, outcome⟩ :=
      permitted.exists_stepsTo inPrev inNext restart turns short
    exact ⟨made, b, steps, inMade, inNext, outcome⟩
  · rintro ⟨made, b, steps, inMade, inNext, outcome⟩
    have restart : votesFor? size = .ok (UInt32.ofNat (size - 1)) := if_pos ⟨two_le, size_lt⟩
    obtain ⟨a, inPrev, permitted⟩ := steps.permits inMade restart
    exact ⟨a, b, _, inPrev, inNext, restart, outcome ▸ permitted⟩

namespace Sample

open ConsensusData.Sample (outcome state)

/-- A vote of three participants that two of them still have to vote in. -/
def opened : State := state 4 ⟨[]⟩ ⟨2, outcome⟩

/-- The next state, with one vote less to go. A field that no one knows is
behind its data. -/
def counted : State :=
  { state 5 ⟨[]⟩ ⟨1, outcome⟩ with
    appData := ConsensusData.encode ⟨1, outcome⟩ ++ Wire.Field.write ⟨3, .number 7⟩ }

/-- The data has another form than a step gives it, but a step makes it. -/
theorem accepts_consensus_iff_stepsTo_counted :
    (2 ≤ 3 ∧ 3 < 2 ^ 32 ∧ opened.turnNum.toNat + 1 < 2 ^ 64 ∧
        counted.appData.length < 2 ^ 63) ∧
      ∃ made b, opened.StepsTo 3 made ∧ ofState? made = .ok b ∧ ofState? counted = .ok b ∧
        made.outcome = counted.outcome := by
  have turns : opened.turnNum.toNat + 1 < 2 ^ 64 := by decide
  have short : counted.appData.length < 2 ^ 63 := by decide +kernel
  have accepted : consensus.accepts opened counted 3 = .ok true := by decide +kernel
  exact ⟨⟨by decide, by decide, turns, short⟩,
    (accepts_consensus_iff_stepsTo (by decide) (by decide) turns short).1 accepted⟩

end Sample

end App

end StateChannels
