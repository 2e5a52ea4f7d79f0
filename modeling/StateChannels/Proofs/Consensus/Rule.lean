import StateChannels.Consensus

/-!
# `StateChannels.Proofs.Consensus.Rule`: what the rule of a ledger channel accepts

The rule compares the consensus data of two states and their outcomes. What
it accepts is one of six things, and only the last of them changes the
outcome.

* `ConsensusData.Permits`: the six cases.
* `App.accepts_consensus_iff`: the rule accepts just these.
-/

set_option autoImplicit false

namespace StateChannels

namespace ConsensusData

/-- How the consensus data may change from `a` to `b` while the outcome
changes from `before` to `after`, where a new proposal needs `votes`. -/
inductive Permits (votes : UInt32) (a b : ConsensusData) (before after : Outcome) : Prop
  /-- No vote is running. -/
  | passed (atRest : a.furtherVotes = 0) (rests : b.furtherVotes = 0) (kept : after = before)
  /-- A vote is started. -/
  | opened (atRest : a.furtherVotes = 0) (opens : b.furtherVotes = votes) (kept : after = before)
  /-- One vote less is missing, on the same proposal. -/
  | voted (missing : b.furtherVotes ≠ 0)
      (counted : b.furtherVotes.toNat + 1 = a.furtherVotes.toNat)
      (same : b.proposed = a.proposed) (kept : after = before)
  /-- The vote starts over, on any proposal. -/
  | restarted (running : a.furtherVotes ≠ 0) (opens : b.furtherVotes = votes)
      (kept : after = before)
  /-- The vote is stopped. -/
  | stopped (running : a.furtherVotes ≠ 0) (rests : b.furtherVotes = 0) (kept : after = before)
  /-- The last vote. -/
  | settled (last : a.furtherVotes = 1) (rests : b.furtherVotes = 0)
      (settles : after = a.proposed)

variable {a b : ConsensusData} {votes : UInt32} {before after : Outcome} {size : Nat}

/-- Data is idle when no further votes are needed. -/
theorem isIdle_eq_true_iff : a.isIdle = true ↔ a.furtherVotes = 0 := decide_eq_true_iff

/-- Data is not idle when there are further votes. -/
theorem isIdle_eq_false_iff : a.isIdle = false ↔ a.furtherVotes ≠ 0 := decide_eq_false_iff_not

/-- The votes of a new proposal are at least one, and can be counted. -/
theorem votes_bounds (h : votesFor? size = .ok votes) :
    votes ≠ 0 ∧ votes.toNat + 1 < 2 ^ 32 := by
  obtain ⟨two_le, size_lt, value⟩ := votesFor?_eq_ok_iff.1 h
  constructor
  · rintro rfl
    have zero : (0 : UInt32).toNat = 0 := rfl
    omega
  · omega

/-- A vote leaves the proposal and needs one vote less. -/
theorem isVote_eq_ok_true_iff :
    a.isVote b = .ok true ↔
      b.furtherVotes.toNat + 1 = a.furtherVotes.toNat ∧ b.proposed = a.proposed := by
  have bound := a.furtherVotes.toNat_lt
  have one : (1 : UInt32).toNat = 1 := rfl
  unfold isVote
  split
  case isTrue fits =>
    rw [Except.ok.injEq, decide_eq_true_iff, ← UInt32.toNat_inj, UInt32.toNat_add, one,
      Nat.mod_eq_of_lt fits]
  case isFalse large =>
    refine iff_of_false (by simp) ?_
    rintro ⟨counted, -⟩
    omega

end ConsensusData

namespace App

open ConsensusData

variable {prev next : State} {size : Nat} {a b : ConsensusData} {votes : UInt32}

/-- The rule on readable data, in a channel that can vote. -/
theorem accepts_consensus_eq (inPrev : ofState? prev = .ok a) (inNext : ofState? next = .ok b)
    (restart : votesFor? size = .ok votes) :
    consensus.accepts prev next size = .ok true ↔
      Permits votes a b prev.outcome next.outcome := by
  obtain ⟨pos, fits⟩ := votes_bounds restart
  simp only [consensus, inPrev, inNext, restart]
  constructor
  · intro accepted
    split at accepted
    · rename_i atRest rests
      exact .passed (isIdle_eq_true_iff.1 atRest) (isIdle_eq_true_iff.1 rests)
        (of_decide_eq_true (Except.ok.inj accepted)).symm
    · rename_i atRest missing
      obtain ⟨kept, opens⟩ := Bool.and_eq_true_iff.1 (Except.ok.inj accepted)
      exact .opened (isIdle_eq_true_iff.1 atRest) (of_decide_eq_true opens)
        (of_decide_eq_true kept).symm
    · rename_i running missing
      obtain ⟨voted, counts, accepted⟩ := bind_eq_ok_iff.1 accepted
      obtain ⟨kept, either⟩ := Bool.and_eq_true_iff.1 (Except.ok.inj accepted)
      rcases Bool.or_eq_true_iff.1 either with rfl | opens
      · obtain ⟨counted, same⟩ := isVote_eq_ok_true_iff.1 counts
        exact .voted (isIdle_eq_false_iff.1 missing) counted same (of_decide_eq_true kept).symm
      · exact .restarted (isIdle_eq_false_iff.1 running) (of_decide_eq_true opens)
          (of_decide_eq_true kept).symm
    · rename_i running rests
      rcases Bool.or_eq_true_iff.1 (Except.ok.inj accepted) with kept | final
      · exact .stopped (isIdle_eq_false_iff.1 running) (isIdle_eq_true_iff.1 rests)
          (of_decide_eq_true kept).symm
      · obtain ⟨last, settles⟩ := of_decide_eq_true final
        exact .settled last (isIdle_eq_true_iff.1 rests) settles
  · intro permitted
    cases permitted with
    | passed atRest rests kept =>
      rw [isIdle_eq_true_iff.2 atRest, isIdle_eq_true_iff.2 rests]
      simp [kept]
    | opened atRest opens kept =>
      rw [isIdle_eq_true_iff.2 atRest, isIdle_eq_false_iff.2 (opens ▸ pos)]
      simp [kept, opens]
    | voted missing counted same kept =>
      have running : a.furtherVotes ≠ 0 := by
        rintro none
        rw [none] at counted
        cases counted
      rw [isIdle_eq_false_iff.2 running, isIdle_eq_false_iff.2 missing]
      simp only [isVote_eq_ok_true_iff.2 ⟨counted, same⟩]
      simp [kept, bind, Except.bind, pure, Except.pure]
    | restarted running opens kept =>
      rw [isIdle_eq_false_iff.2 running, isIdle_eq_false_iff.2 (opens ▸ pos)]
      -- The votes of a new proposal can be counted, so the rule comes to an end.
      have counts : a.isVote b = .ok (b.furtherVotes + 1 = a.furtherVotes ∧
          b.proposed = a.proposed) := if_pos (opens ▸ fits)
      simp only [counts]
      simp [kept, opens, bind, Except.bind, pure, Except.pure]
    | stopped running rests kept =>
      rw [isIdle_eq_false_iff.2 running, isIdle_eq_true_iff.2 rests]
      simp [kept]
    | settled last rests settles =>
      have running : a.furtherVotes ≠ 0 := by
        rw [last]
        decide
      rw [isIdle_eq_false_iff.2 running, isIdle_eq_true_iff.2 rests]
      simp [last, settles]

/-- The rule accepts two states with readable data, in a channel that can
vote, whose data and outcomes are in one of the six cases. -/
theorem accepts_consensus_iff :
    consensus.accepts prev next size = .ok true ↔
      ∃ a b votes, ofState? prev = .ok a ∧ ofState? next = .ok b ∧ votesFor? size = .ok votes ∧
        Permits votes a b prev.outcome next.outcome := by
  constructor
  · intro accepted
    have readable := accepted
    simp only [consensus] at readable
    split at readable
    · rename_i a b votes inPrev inNext restart
      exact ⟨a, b, votes, inPrev, inNext, restart,
        (accepts_consensus_eq inPrev inNext restart).1 accepted⟩
    · cases readable
  · rintro ⟨a, b, votes, inPrev, inNext, restart, permitted⟩
    exact (accepts_consensus_eq inPrev inNext restart).2 permitted

end App

end StateChannels
