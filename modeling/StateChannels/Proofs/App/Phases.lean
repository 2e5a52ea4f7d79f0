import StateChannels.Proofs.App.Chain

/-!
# `StateChannels.Proofs.App.Phases`: what stays the same along a chain

The rules of a transition are read in a fixed order. The fixed fields and the
turn number come first, then final states, then the first two rounds, and the
application last. So a chain has three phases: the setup, in which outcome
and data stay, the turns that the application decides, and the final states,
in which the outcome stays again. The setup can go over into the final states
directly.

* `fixed_of_valid`, `final_of_valid`, `setup_of_valid`, `decided_of_change`:
  what one transition keeps, whatever the application.
* `validTransition_of_change`: a successor that has another outcome.
* `eq_of_steps`: what no transition of a stretch changes is the same at both
  ends.
* `Chain.phases`: what a chain of any length keeps, and where the outcome can
  change.
-/

set_option autoImplicit false

namespace StateChannels

namespace App

variable {app : App} {prev next : State} {s : Nat → State} {k size i j : Nat}

/-! ### One transition -/

/-- Channel, application and challenge time are fixed. -/
theorem fixed_of_valid (valid : app.validTransition prev next size = .ok true) :
    next.channelId = prev.channelId ∧ next.appDefinition = prev.appDefinition ∧
      next.challengeDuration = prev.challengeDuration := by
  obtain ⟨⟨follows, sameApp, sameDuration⟩, -⟩ := validTransition_eq_ok_true_iff.1 valid
  exact ⟨(State.follows_iff.1 follows).1, sameApp, sameDuration⟩

/-- Only a final state follows a final state. -/
theorem final_of_valid (valid : app.validTransition prev next size = .ok true)
    (final : prev.isFinal) : next.isFinal := by
  have rule := (validTransition_eq_ok_true_iff.1 valid).2
  by_cases nextFinal : next.isFinal
  · exact nextFinal
  · rw [if_neg nextFinal, final] at rule
    exact absurd rule.1 (by decide)

/-- In the setup the outcome stays, final or not, and so does the data of a
state that is not final. -/
theorem setup_of_valid (valid : app.validTransition prev next size = .ok true)
    (setup : next.turnNum.toNat < 2 * size) :
    next.outcome = prev.outcome ∧ (next.isFinal = false → next.appData = prev.appData) := by
  by_cases nextFinal : next.isFinal
  · refine ⟨outcome_eq_of_final valid nextFinal, fun notFinal => ?_⟩
    rw [nextFinal] at notFinal
    cases notFinal
  · have rule := (validTransition_eq_ok_true_iff.1 valid).2
    rw [if_neg nextFinal, if_pos setup] at rule
    exact ⟨rule.2.2.1, fun _ => rule.2.2.2⟩

/-- The outcome changes only where the application decides. -/
theorem decided_of_change (valid : app.validTransition prev next size = .ok true)
    (change : next.outcome ≠ prev.outcome) :
    prev.isFinal = false ∧ next.isFinal = false ∧ 2 * size ≤ next.turnNum.toNat := by
  have notFinal : ¬next.isFinal := fun final => change (outcome_eq_of_final valid final)
  refine ⟨?_, Bool.eq_false_iff.2 notFinal, ?_⟩
  · exact Bool.eq_false_iff.2 fun final => notFinal (final_of_valid valid final)
  · exact Nat.not_lt.1 fun setup => change (setup_of_valid valid setup).1

/-- The rules of a channel let the outcome change after the setup, if the
state is not final. Then the application decides. -/
theorem validTransition_of_change (app : App) {t : TurnNum} {o : Outcome}
    (later : t.toNat = prev.turnNum.toNat + 1) (change : o ≠ prev.outcome)
    (small : 2 * size < 2 ^ 64) :
    app.validTransition prev { prev with turnNum := t, outcome := o } size =
      if prev.isFinal = false ∧ 2 * size ≤ t.toNat then
        app.accepts prev { prev with turnNum := t, outcome := o } size
      else .ok false := by
  have follows : State.follows { prev with turnNum := t, outcome := o } prev :=
    State.follows_iff.2 ⟨rfl, later⟩
  have setup : setupTurns size = .ok (2 * size) := if_pos small
  rw [validTransition, if_neg (not_not.2 ⟨follows, rfl, rfl⟩), setup]
  cases final : prev.isFinal with
  | true =>
    -- The successor keeps the mark, so it is a final state with another outcome.
    simp [change]
  | false =>
    by_cases early : t.toNat < 2 * size
    · simp [early, change, Nat.not_le.2 early, bind, Except.bind, pure, Except.pure]
    · simp [early, Nat.not_lt.1 early, bind, Except.bind]

/-! ### Chains -/

/-- What no step from `i` to `j` changes is the same at both. -/
theorem eq_of_steps {β : Type} (get : State → β) (le : i ≤ j)
    (step : ∀ m, i ≤ m → m < j → get (s (m + 1)) = get (s m)) : get (s j) = get (s i) := by
  induction j, le using Nat.le_induction with
  | base => rfl
  | succ j le ih =>
    rw [step j le (Nat.lt_succ_self j)]
    exact ih fun m after before => step m after (Nat.lt_succ_of_lt before)

/-- The fixed fields are those of the first state. -/
theorem Chain.fixed (chain : app.Chain s k size) (within : i ≤ k) :
    (s i).channelId = (s 0).channelId ∧ (s i).appDefinition = (s 0).appDefinition ∧
      (s i).challengeDuration = (s 0).challengeDuration := by
  have steps : ∀ m < i, _ := fun m before =>
    fixed_of_valid (chain m (Nat.lt_of_lt_of_le before within))
  refine ⟨?_, ?_, ?_⟩
  · exact eq_of_steps State.channelId (Nat.zero_le i) fun m _ before => (steps m before).1
  · exact eq_of_steps State.appDefinition (Nat.zero_le i) fun m _ before => (steps m before).2.1
  · exact eq_of_steps State.challengeDuration (Nat.zero_le i)
      fun m _ before => (steps m before).2.2

/-- What is final stays final. -/
theorem Chain.final (chain : app.Chain s k size) (final : (s i).isFinal) (le : i ≤ j)
    (within : j ≤ k) : (s j).isFinal := by
  induction j, le using Nat.le_induction with
  | base => exact final
  | succ j le ih => exact final_of_valid (chain j within) (ih (Nat.le_of_succ_le within))

/-- From the state before a final one on, the outcome stays. -/
theorem Chain.outcome_of_final (chain : app.Chain s k size) (final : (s i).isFinal)
    (le : i ≤ j + 1) (within : j ≤ k) : (s j).outcome = (s (i - 1)).outcome := by
  refine eq_of_steps State.outcome (by omega) fun m after before => ?_
  -- The state after `m` is not before `i`.
  have later : (s (m + 1)).isFinal := chain.final final (by omega) (by omega)
  exact outcome_eq_of_final (chain m (by omega)) later

/-- Up to the end of the setup the outcome is the first one. -/
theorem Chain.outcome_of_setup (chain : app.Chain s k size) (within : i ≤ k)
    (setup : (s i).turnNum.toNat < 2 * size) : (s i).outcome = (s 0).outcome := by
  refine eq_of_steps State.outcome (Nat.zero_le i) fun m _ before => ?_
  have turn := chain.turnNum_eq i within
  have turn' := chain.turnNum_eq (m + 1) (by omega)
  exact (setup_of_valid (chain m (by omega)) (by omega)).1

/-- And the data is, until the channel is final. -/
theorem Chain.appData_of_setup (chain : app.Chain s k size) (within : i ≤ k)
    (setup : (s i).turnNum.toNat < 2 * size) (notFinal : (s i).isFinal = false) :
    (s i).appData = (s 0).appData := by
  refine eq_of_steps State.appData (Nat.zero_le i) fun m _ before => ?_
  have turn := chain.turnNum_eq i within
  have turn' := chain.turnNum_eq (m + 1) (by omega)
  exact (setup_of_valid (chain m (by omega)) (by omega)).2
    (chain.not_final notFinal within (m + 1) (by omega))

/-- A chain of states under any application, in a channel of any size. The
fixed fields stay and the turn number counts. Once a state is final, all
later ones are, with the outcome of the last state before. In the first two
rounds the outcome is that of the first state, and so is the data, except
that a final state may have its own. The outcome changes only from one state
that is not final to another, at a turn after these rounds. -/
theorem Chain.phases (app : App) (s : Nat → State) (k size : Nat) (chain : app.Chain s k size) :
    (∀ i ≤ k, (s i).channelId = (s 0).channelId ∧ (s i).appDefinition = (s 0).appDefinition ∧
      (s i).challengeDuration = (s 0).challengeDuration ∧
      (s i).turnNum.toNat = (s 0).turnNum.toNat + i) ∧
    (∀ i ≤ k, (s i).isFinal → ∀ j ≤ k,
      (i ≤ j → (s j).isFinal) ∧ (i ≤ j + 1 → (s j).outcome = (s (i - 1)).outcome)) ∧
    (∀ i ≤ k, (s i).turnNum.toNat < 2 * size → (s i).outcome = (s 0).outcome ∧
      ((s i).isFinal = false → (s i).appData = (s 0).appData)) ∧
    ∀ i < k, (s (i + 1)).outcome ≠ (s i).outcome →
      (s i).isFinal = false ∧ (s (i + 1)).isFinal = false ∧
        2 * size ≤ (s (i + 1)).turnNum.toNat := by
  refine ⟨?_, ?_, ?_, ?_⟩
  · intro i within
    obtain ⟨sameChannel, sameApp, sameDuration⟩ := chain.fixed within
    exact ⟨sameChannel, sameApp, sameDuration, chain.turnNum_eq i within⟩
  · intro i _ final j within
    exact ⟨fun le => chain.final final le within, fun le => chain.outcome_of_final final le within⟩
  · intro i within setup
    exact ⟨chain.outcome_of_setup within setup, chain.appData_of_setup within setup⟩
  · intro i within change
    exact decided_of_change (chain i within) change

namespace Sample

/-- Two participants leave the setup with turn 4, where the outcome and the
data change, and close the channel with turn 5. -/
def closing (i : Nat) : State where
  channelId := .zero
  turnNum := .ofNat (3 + i)
  isFinal := 2 ≤ i
  outcome := if 1 ≤ i then .single .zero ⟨[]⟩ else ⟨[]⟩
  appDefinition := .zero
  appData := if 1 ≤ i then [1] else []
  challengeDuration := 60

/-- The closing states are a chain of the trivial application. -/
theorem chain_closing : App.trivial.Chain closing 3 2 := by
  intro i within
  match i, within with
  | 0, _ => decide
  | 1, _ => decide
  | 2, _ => decide

end Sample

open Sample in
/-- The outcome that is agreed at turn 4 is the one the channel closes with. -/
theorem Chain.phases_closing :
    App.trivial.Chain closing 3 2 ∧ (closing 1).outcome ≠ (closing 0).outcome ∧
      (closing 2).isFinal ∧ (closing 3).outcome = (closing 1).outcome := by
  obtain ⟨-, finals, -, -⟩ := Chain.phases .trivial closing 3 2 chain_closing
  refine ⟨chain_closing, by decide, by decide, ?_⟩
  exact (finals 2 (by decide) (by decide) 3 (by decide)).2 (by decide)

end App

end StateChannels
