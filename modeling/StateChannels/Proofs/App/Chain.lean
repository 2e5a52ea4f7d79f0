import Mathlib.Data.Nat.ModEq
import StateChannels.App
import StateChannels.Proofs.Support.Validation

/-!
# `StateChannels.Proofs.App.Chain`: states that follow one another

A chain is a sequence of states in which an application lets each state
follow the one before. Turn numbers count along a chain, so among as many
neighbours as there are participants everybody moves once.

* `App.Chain.turnNum_eq`, `App.Chain.not_final`: turn numbers and final
  states along a chain.
* `App.outcome_eq_latest`: final states that follow one another have one
  outcome.
* `Channel.mover_injOn`, `Channel.existsUnique_mover`: who moves in one round
  of a sequence of turns.
-/

set_option autoImplicit false

namespace StateChannels

namespace App

variable {app : App} {s : Nat → State} {k size i j : Nat}

/-- Each of the first `k` states of the sequence is followed by the next
one. -/
def Chain (app : App) (s : Nat → State) (k size : Nat) : Prop :=
  ∀ i < k, app.validTransition (s i) (s (i + 1)) size = .ok true

/-- The turn number grows by one with each state. -/
theorem Chain.turnNum_eq (chain : app.Chain s k size) :
    ∀ i ≤ k, (s i).turnNum.toNat = (s 0).turnNum.toNat + i := by
  intro i
  induction i with
  | zero => exact fun _ => rfl
  | succ i ih =>
    intro le
    obtain ⟨⟨follows, -⟩, -⟩ := validTransition_eq_ok_true_iff.1 (chain i le)
    have before := ih (Nat.le_of_succ_le le)
    have next := (State.follows_iff.1 follows).2
    omega

/-- Before a state that is not final there is no final state. -/
theorem Chain.not_final (chain : app.Chain s k size) (notFinal : (s j).isFinal = false)
    (within : j ≤ k) : ∀ i ≤ j, (s i).isFinal = false := by
  -- From the end: each step goes back by one state.
  intro i le
  induction le using Nat.decreasingInduction with
  | self => exact notFinal
  | of_succ i before ih =>
    have step := (validTransition_eq_ok_true_iff.1 (chain i (Nat.lt_of_lt_of_le before within))).2
    rw [ih] at step
    exact step.1

/-- A final state has the outcome of the state before it. -/
theorem outcome_eq_of_final {prev next : State}
    (valid : app.validTransition prev next size = .ok true) (final : next.isFinal) :
    next.outcome = prev.outcome := by
  have rule := (validTransition_eq_ok_true_iff.1 valid).2
  rwa [if_pos final] at rule

/-- Final states that follow one another have the outcome of the last. -/
theorem outcome_eq_latest {states : List State} {latest : State}
    (valid : states.IsChain fun prev next => app.validTransition prev next size = .ok true)
    (final : ∀ s ∈ states, s.isFinal) (isLatest : states.getLast? = some latest) :
    ∀ s ∈ states, s.outcome = latest.outcome := by
  -- From the end: the outcome of the last state goes back by one state with each step.
  induction states with
  | nil =>
    intro s member
    cases member
  | cons first rest ih =>
    cases rest with
    | nil =>
      obtain rfl : first = latest := by simpa using isLatest
      intro s member
      rw [List.mem_singleton.1 member]
    | cons second rest =>
      rw [List.isChain_cons_cons] at valid
      rw [List.getLast?_cons_cons] at isLatest
      have later := ih valid.2 (fun s member => final s (List.mem_cons_of_mem _ member)) isLatest
      have second_final : second.isFinal := final second (List.mem_cons_of_mem _ List.mem_cons_self)
      refine List.forall_mem_cons.2 ⟨?_, later⟩
      rw [← outcome_eq_of_final valid.1 second_final]
      exact later second List.mem_cons_self

end App

namespace Channel

variable {c : Channel} {first i j : Nat} {a : Address}

/-- In a round of turns that count up, nobody moves twice. -/
theorem mover_injOn (turn : Nat → TurnNum)
    (consecutive : ∀ j < c.size, (turn (first + j)).toNat = (turn first).toNat + j)
    (inRound : i < c.size) (inRound' : j < c.size)
    (same : c.mover (turn (first + i)) = c.mover (turn (first + j))) : i = j := by
  have index : c.moverIndex (turn (first + i)) = c.moverIndex (turn (first + j)) := by
    have place := c.indexOf?_mover (turn (first + i))
    rw [same, c.indexOf?_mover] at place
    exact (Option.some.inj place).symm
  rw [moverIndex, moverIndex, consecutive i inRound, consecutive j inRound'] at index
  have equal : Nat.ModEq c.size i j := Nat.ModEq.add_left_cancel' _ index
  exact equal.eq_of_lt_of_lt inRound inRound'

/-- And everybody moves once. -/
theorem existsUnique_mover (turn : Nat → TurnNum)
    (consecutive : ∀ j < c.size, (turn (first + j)).toNat = (turn first).toNat + j)
    (participant : a ∈ c.participants) :
    ∃! j, first ≤ j ∧ j < first + c.size ∧ c.mover (turn j) = a := by
  obtain ⟨place, inRange, isAt⟩ := List.getElem_of_mem participant
  have moves : ∀ j < c.size, (c.mover (turn (first + j)) = a ↔
      ((turn first).toNat + j) % c.size = place) := by
    intro j inRound
    rw [mover_eq_iff (List.getElem?_eq_some_iff.2 ⟨inRange, isAt⟩), consecutive j inRound]
  -- The turn comes as many turns after the first one as the index is after the first mover's.
  have positive := c.size_pos
  have remainder := Nat.mod_lt (turn first).toNat positive
  have later : (turn first).toNat + (place + (c.size - (turn first).toNat % c.size)) =
      place + c.size * ((turn first).toNat / c.size + 1) := by
    have whole := Nat.div_add_mod (turn first).toNat c.size
    rw [Nat.mul_add]
    omega
  have reached : ((turn first).toNat +
      (place + (c.size - (turn first).toNat % c.size)) % c.size) % c.size = place := by
    rw [Nat.add_mod_mod, later, Nat.add_mul_mod_self_left]
    exact Nat.mod_eq_of_lt inRange
  have inRound := Nat.mod_lt (place + (c.size - (turn first).toNat % c.size)) positive
  refine ⟨first + (place + (c.size - (turn first).toNat % c.size)) % c.size,
    ⟨Nat.le_add_right .., Nat.add_lt_add_left inRound _, (moves _ inRound).2 reached⟩, ?_⟩
  rintro j ⟨le, lt, isMover⟩
  obtain ⟨j, rfl⟩ := Nat.exists_eq_add_of_le le
  have inRound' : j < c.size := by omega
  rw [mover_injOn turn consecutive inRound' inRound
    (isMover.trans ((moves _ inRound).2 reached).symm)]

end Channel

end StateChannels
