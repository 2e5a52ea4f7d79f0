import StateChannels.Proofs.App.Chain
import StateChannels.Proofs.Consensus.Rule

/-!
# `StateChannels.Proofs.Consensus.Unanimity`: an outcome has the votes of all

In a chain of states of a ledger channel that starts with no vote running,
the outcome changes only at the end of a full count of votes on the new
outcome: one state for each participant, and each of them is another
participant's turn.

A count that is running says where it started. Neither the setup of a
channel nor its final states can hide a start: in the setup nothing but the
turn number changes, and after a final state no vote is accepted.

* `Counted`: what a running count says about the states before it.
* `Standing.step`, `standing`: along a chain either no vote is running, or
  the votes are counted.
* `outcome_unanimous`: the states that lead to another outcome, and whose
  turn they are.
-/

set_option autoImplicit false

namespace StateChannels.ConsensusData

variable {s : Nat → State} {k size i j m : Nat} {c : ConsensusData}

/-- A count that is running at state `i` and has not skipped a vote: the
states from the start of the vote on are about the same proposal, and the
first of them is not the first of the chain. -/
structure Counted (s : Nat → State) (size i : Nat) (c : ConsensusData) : Prop where
  afterSetup : 2 * size ≤ (s i).turnNum.toNat
  started : size ≤ i + c.furtherVotes.toNat
  votes : ∀ m, c.furtherVotes.toNat ≤ m → m < size →
    ofState? (s (i + c.furtherVotes.toNat - m)) = .ok ⟨UInt32.ofNat m, c.proposed⟩

/-- No vote is running at state `i`, or the votes are counted. -/
def Standing (s : Nat → State) (size i : Nat) : Prop :=
  ∃ c, ofState? (s i) = .ok c ∧ (c.furtherVotes = 0 ∨ Counted s size i c)

/-- A new proposal is the first vote of its count. -/
theorem counted_of_opened (afterSetup : 2 * size ≤ (s (i + 1)).turnNum.toNat)
    (inState : ofState? (s (i + 1)) = .ok c) (restart : votesFor? size = .ok c.furtherVotes) :
    Counted s size (i + 1) c := by
  obtain ⟨two_le, size_lt, value⟩ := votesFor?_eq_ok_iff.1 restart
  refine ⟨afterSetup, by omega, fun m le lt => ?_⟩
  obtain rfl : m = c.furtherVotes.toNat := by omega
  rw [Nat.add_sub_cancel, inState, UInt32.ofNat_toNat]

/-- A vote continues the count. -/
theorem Counted.voted {a b : ConsensusData} (h : Counted s size i a)
    (afterSetup : 2 * size ≤ (s (i + 1)).turnNum.toNat) (inState : ofState? (s (i + 1)) = .ok b)
    (counted : b.furtherVotes.toNat + 1 = a.furtherVotes.toNat) (same : b.proposed = a.proposed) :
    Counted s size (i + 1) b := by
  -- State and missing votes add up to the same as before, so the start of the count does not move.
  have total : i + 1 + b.furtherVotes.toNat = i + a.furtherVotes.toNat := by omega
  refine ⟨afterSetup, by rw [total]; exact h.started, fun m le lt => ?_⟩
  rcases Nat.lt_or_ge b.furtherVotes.toNat m with old | new
  · rw [total, same]
    exact h.votes m (by omega) lt
  · obtain rfl : m = b.furtherVotes.toNat := by omega
    rw [Nat.add_sub_cancel, inState, UInt32.ofNat_toNat]

/-- A step of the rule leaves no vote running, or the votes counted. -/
theorem Standing.step (h : Standing s size i)
    (next : (s (i + 1)).turnNum.toNat = (s i).turnNum.toNat + 1)
    (step : if (s (i + 1)).turnNum.toNat < 2 * size then
        (s (i + 1)).outcome = (s i).outcome ∧ (s (i + 1)).appData = (s i).appData
      else App.consensus.accepts (s i) (s (i + 1)) size = .ok true) :
    Standing s size (i + 1) := by
  obtain ⟨a, inState, standing⟩ := h
  by_cases setup : (s (i + 1)).turnNum.toNat < 2 * size
  · rw [if_pos setup] at step
    -- In the setup the data stays what it is, and no vote can run there.
    refine ⟨a, ?_, .inl (standing.resolve_right fun counted => ?_)⟩
    · rw [ofState?, step.2]
      exact inState
    · have := counted.afterSetup
      omega
  · rw [if_neg setup] at step
    have afterSetup := Nat.not_lt.1 setup
    obtain ⟨a', b, votes, inState', inNext, restart, permitted⟩ := App.accepts_consensus_iff.1 step
    obtain rfl : a = a' := by
      rw [inState] at inState'
      exact Except.ok.inj inState'
    refine ⟨b, inNext, ?_⟩
    cases permitted with
    | passed _ rests => exact .inl rests
    | stopped _ rests => exact .inl rests
    | settled _ rests => exact .inl rests
    | opened _ opens => exact .inr (counted_of_opened afterSetup inNext (opens ▸ restart))
    | restarted _ opens => exact .inr (counted_of_opened afterSetup inNext (opens ▸ restart))
    | voted missing counted same =>
      right
      refine (standing.resolve_left fun none => ?_).voted afterSetup inNext counted same
      rw [none] at counted
      cases counted

/-- Along a chain that starts with no vote running, every state before the
first final one has no vote running or the votes counted. -/
theorem standing (chain : App.consensus.Chain s k size)
    (start : ofState? (s 0) = .ok .idle) :
    ∀ i ≤ k, (s i).isFinal = false → Standing s size i := by
  intro i
  induction i with
  | zero => exact fun _ _ => ⟨.idle, start, .inl rfl⟩
  | succ i ih =>
    intro within notFinal
    obtain ⟨⟨follows, -⟩, step⟩ := App.validTransition_eq_ok_true_iff.1 (chain i within)
    rw [notFinal] at step
    obtain ⟨notFinal', -, step⟩ := step
    exact (ih (Nat.le_of_succ_le within) notFinal').step (State.follows_iff.1 follows).2 step

/-- Only the last vote changes an outcome, and before it the votes are
counted. -/
theorem counted_of_changed (chain : App.consensus.Chain s k size)
    (start : ofState? (s 0) = .ok .idle) (within : i < k)
    (changed : (s (i + 1)).outcome ≠ (s i).outcome) :
    ∃ c, c.furtherVotes = 1 ∧ Counted s size i c ∧ (s (i + 1)).outcome = c.proposed := by
  have step := (App.validTransition_eq_ok_true_iff.1 (chain i within)).2
  cases isFinal : (s (i + 1)).isFinal with
  | true =>
    rw [isFinal] at step
    exact absurd step changed
  | false =>
    rw [isFinal] at step
    obtain ⟨notFinal, -, step⟩ := step
    by_cases setup : (s (i + 1)).turnNum.toNat < 2 * size
    · rw [if_pos setup] at step
      exact absurd step.1 changed
    rw [if_neg setup] at step
    obtain ⟨a, b, votes, inState, -, -, permitted⟩ := App.accepts_consensus_iff.1 step
    -- All but one of the permitted steps keep the outcome.
    cases permitted with
    | passed _ _ kept => exact absurd kept changed
    | opened _ _ kept => exact absurd kept changed
    | voted _ _ _ kept => exact absurd kept changed
    | restarted _ _ kept => exact absurd kept changed
    | stopped _ _ kept => exact absurd kept changed
    | settled last _ settles =>
      -- The last vote was counted down from a proposal on which everyone else had voted.
      obtain ⟨a', inState', standing⟩ := standing chain start i (Nat.le_of_lt within) notFinal
      obtain rfl : a = a' := by
        rw [inState] at inState'
        exact Except.ok.inj inState'
      refine ⟨a, last, standing.resolve_left fun none => ?_, settles⟩
      rw [last] at none
      cases none

/-- Take a chain of a ledger channel of `size` participants that starts with
no vote running. If the outcome of state `i + 1` is another one than that of
state `i`, then before it come as many states as there are other
participants, all voting on the outcome of state `i + 1`, with `size - 1`,
..., 1 votes missing. In these states and in state `i + 1` nobody moves
twice, and every participant moves once. -/
theorem outcome_unanimous (s : Nat → State) (k size : Nat)
    (chain : App.consensus.Chain s k size) (start : ofState? (s 0) = .ok .idle)
    (i : Nat) (within : i < k) (changed : (s (i + 1)).outcome ≠ (s i).outcome) :
    size ≤ i + 1 ∧
    (∀ m, 1 ≤ m → m < size →
      ofState? (s (i + 1 - m)) = .ok ⟨UInt32.ofNat m, (s (i + 1)).outcome⟩) ∧
    ∀ c : Channel, c.size = size →
      (∀ j j', i + 2 - size ≤ j → j ≤ i + 1 → i + 2 - size ≤ j' → j' ≤ i + 1 →
        c.mover (s j).turnNum = c.mover (s j').turnNum → j = j') ∧
      ∀ a ∈ c.participants,
        ∃! j, i + 2 - size ≤ j ∧ j ≤ i + 1 ∧ c.mover (s j).turnNum = a := by
  obtain ⟨last, one, counted, settles⟩ := counted_of_changed chain start within changed
  have count : last.furtherVotes.toNat = 1 := by
    rw [one]
    rfl
  have started : size ≤ i + 1 := by
    rw [← count]
    exact counted.started
  refine ⟨started, ?_, ?_⟩
  · intro m positive lt
    have vote := counted.votes m (by omega) lt
    rw [count] at vote
    rw [vote, settles]
  · rintro c rfl
    -- The states from the start of the vote to its end are a round of turns.
    obtain ⟨first, isFirst⟩ := Nat.exists_eq_add_of_le started
    have opening : i + 2 - c.size = first + 1 := by omega
    have consecutive : ∀ j < c.size, (s (first + 1 + j)).turnNum.toNat =
        (s (first + 1)).turnNum.toNat + j := by
      intro j lt
      rw [chain.turnNum_eq _ (by omega), chain.turnNum_eq (first + 1) (by omega)]
      omega
    rw [opening]
    constructor
    · intro j j' le lt le' lt' same
      obtain ⟨j, rfl⟩ := Nat.exists_eq_add_of_le le
      obtain ⟨j', rfl⟩ := Nat.exists_eq_add_of_le le'
      rw [Channel.mover_injOn (fun j => (s j).turnNum) consecutive (by omega) (by omega) same]
    · intro a participant
      have moves := Channel.existsUnique_mover (fun j => (s j).turnNum) consecutive participant
      have bound : ∀ j, j ≤ i + 1 ↔ j < first + 1 + c.size := by
        intro j
        omega
      simpa only [bound] using moves

namespace Sample

/-- An outcome that pays nobody out of the first asset holder. -/
def outcome : Outcome := ⟨[⟨.zero, .allocation ⟨[]⟩⟩]⟩

/-- A state of a ledger channel. -/
def state (turnNum : TurnNum) (outcome : Outcome) (data : ConsensusData) : State where
  channelId := .zero
  turnNum := turnNum
  isFinal := false
  outcome := outcome
  appDefinition := .zero
  appData := data.encode
  challengeDuration := 60

/-- A vote of two participants: a proposal, and the only vote it needs. -/
def ballot : Nat → State
  | 0 => state 4 ⟨[]⟩ .idle
  | 1 => state 5 ⟨[]⟩ ⟨1, outcome⟩
  | _ => state 6 outcome .idle

/-- The ballot is a chain of the consensus application. -/
theorem chain_ballot : App.consensus.Chain ballot 2 2 := by
  unfold App.Chain
  decide +kernel

/-- The proposal is the vote on the outcome that follows, and of two
participants each one moved once. -/
theorem outcome_unanimous_ballot :
    App.consensus.Chain ballot 2 2 ∧ ofState? (ballot 0) = .ok .idle ∧
      (ballot 2).outcome ≠ (ballot 1).outcome ∧ ofState? (ballot 1) = .ok ⟨1, outcome⟩ := by
  have start : ofState? (ballot 0) = .ok .idle := by decide +kernel
  have changed : (ballot 2).outcome ≠ (ballot 1).outcome := by decide
  have unanimous := outcome_unanimous ballot 2 2 chain_ballot start 1 (by decide) changed
  exact ⟨chain_ballot, start, changed, unanimous.2.1 1 (by decide) (by decide)⟩

end Sample

end StateChannels.ConsensusData
