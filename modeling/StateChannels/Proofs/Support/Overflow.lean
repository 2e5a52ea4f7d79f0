import StateChannels.Consensus
import StateChannels.Proofs.Support.Validation

/-!
# `StateChannels.Proofs.Support.Overflow`: where a count stops the check of a proof

The rules of a transition count turns and votes, and a sum that does not
fit stops the computation. The states of a proof come from anyone, and
the transitions between them are checked before any signature is. So it
matters which states can bring the check to a stop.

* `validTransition_eq_error_iff`: with the applications of this library a
  transition stops in two cases (`App.Stops`). Both states are in a vote,
  and the later one says that as many votes are missing as a counter can
  hold. Or the channel has more participants than could ever be listed.
* `validate_eq_overflow_iff`: the check of a proof stops exactly if it
  comes to such a pair of neighbours.
* `exists_of_checkAssignment`: what is looked up by index after that is
  always there.
-/

set_option autoImplicit false

namespace StateChannels

variable {prev next : State} {size : Nat} {o : Overflow} {app : App}

/-- The rules of every channel leave the step to the application, if it
is not too early. -/
structure State.LeftOpen (prev next : State) : Prop where
  follows : next.follows prev
  appDefinition : next.appDefinition = prev.appDefinition
  challengeDuration : next.challengeDuration = prev.challengeDuration
  next_not_final : next.isFinal = false
  prev_not_final : prev.isFinal = false

/-- Both states are in a vote, in a channel where there can be votes, and
the later state has the largest count of missing votes. -/
structure State.Overcounts (prev next : State) (size : Nat) : Prop where
  voting : ∃ a, ConsensusData.ofState? prev = .ok a ∧ a.furtherVotes ≠ 0
  largest : ∃ b, ConsensusData.ofState? next = .ok b ∧ b.furtherVotes.toNat + 1 = 2 ^ 32
  two_le : 2 ≤ size
  size_lt : size < 2 ^ 32

namespace App

/-- The applications of this library. -/
def Provided (app : App) : Prop := app = .trivial ∨ app = .counting ∨ app = .consensus

/-- What stops the check of a transition.

The second case is of no matter: so many participants do not fit into any
memory. The first one is a single state that anyone may make up. -/
inductive Stops (app : App) (prev next : State) (size : Nat) : Overflow → Prop
  /-- After the setup of a ledger channel, a vote with too large a count. -/
  | votes (leftOpen : prev.LeftOpen next) (afterSetup : 2 * size ≤ next.turnNum.toNat)
      (consensus : app = .consensus) (overcounts : prev.Overcounts next size) :
      Stops app prev next size .addition
  /-- The turns of two rounds can not be counted. -/
  | rounds (leftOpen : prev.LeftOpen next) (tooMany : 2 ^ 64 ≤ 2 * size) :
      Stops app prev next size .multiplication

/-! ### One transition -/

/-- Counting a vote overflows where the count before is the largest. -/
theorem isVote_eq_error_iff {a b : ConsensusData} :
    a.isVote b = .error o ↔ o = .addition ∧ b.furtherVotes.toNat + 1 = 2 ^ 32 := by
  have bound := b.furtherVotes.toNat_lt
  unfold ConsensusData.isVote
  split
  case isTrue fits =>
    have smaller : b.furtherVotes.toNat + 1 ≠ 2 ^ 32 := Nat.ne_of_lt fits
    simp [smaller]
  case isFalse large =>
    have largest : b.furtherVotes.toNat + 1 = 2 ^ 32 := by omega
    simp [largest, eq_comm]

/-- The count of votes is looked at only if both states are in a vote. -/
theorem accepts_consensus_eq_error_iff :
    consensus.accepts prev next size = .error o ↔ o = .addition ∧ prev.Overcounts next size := by
  simp only [consensus]
  constructor
  · intro stopped
    split at stopped
    · rename_i a b restart inPrev inNext votes
      obtain ⟨two_le, size_lt, -⟩ := ConsensusData.votesFor?_eq_ok_iff.1 votes
      -- Of the four cases only that of a running vote counts one up.
      split at stopped
      · cases stopped
      · cases stopped
      · rename_i voting _
        rcases bind_eq_error_iff.1 stopped with stopped | ⟨_, -, stopped⟩
        · obtain ⟨rfl, largest⟩ := isVote_eq_error_iff.1 stopped
          exact ⟨rfl, ⟨a, inPrev, of_decide_eq_false voting⟩, ⟨b, inNext, largest⟩, two_le, size_lt⟩
        · cases stopped
      · cases stopped
    · cases stopped
  · rintro ⟨rfl, ⟨a, inPrev, voting⟩, ⟨b, inNext, largest⟩, two_le, size_lt⟩
    have votes : ConsensusData.votesFor? size = .ok (UInt32.ofNat (size - 1)) :=
      if_pos ⟨two_le, size_lt⟩
    have prevVoting : a.isIdle = false := decide_eq_false voting
    have nextVoting : b.isIdle = false := by
      refine decide_eq_false fun none => ?_
      rw [none] at largest
      cases largest
    rw [inPrev, inNext, votes]
    simp only [prevVoting, nextVoting, isVote_eq_error_iff.2 ⟨rfl, largest⟩]
    rfl

/-- An application of this library stops only over the count of votes. -/
theorem Provided.accepts_eq_error_iff (provided : app.Provided) :
    app.accepts prev next size = .error o ↔
      app = .consensus ∧ o = .addition ∧ prev.Overcounts next size := by
  constructor
  · intro stopped
    rcases provided with rfl | rfl | rfl
    · cases stopped
    · -- The counter of this application can not overflow: its sum may be missing.
      simp only [counting] at stopped
      split at stopped
      · cases stopped
      · cases stopped
    · exact ⟨rfl, accepts_consensus_eq_error_iff.1 stopped⟩
  · rintro ⟨rfl, stops⟩
    exact accepts_consensus_eq_error_iff.2 stops

/-- The check of a transition stops over the turns of two rounds, or
where the application does. -/
theorem validTransition_eq_error_iff_accepts :
    app.validTransition prev next size = .error o ↔ prev.LeftOpen next ∧
      (o = .multiplication ∧ 2 ^ 64 ≤ 2 * size ∨
        2 * size ≤ next.turnNum.toNat ∧ app.accepts prev next size = .error o) := by
  have bound := next.turnNum.toNat_lt
  unfold validTransition setupTurns
  by_cases fixed : next.follows prev ∧ next.appDefinition = prev.appDefinition ∧
      next.challengeDuration = prev.challengeDuration
  case neg =>
    have closed : ¬prev.LeftOpen next := fun h =>
      fixed ⟨h.follows, h.appDefinition, h.challengeDuration⟩
    rw [if_pos fixed]
    simp [closed]
  rw [if_neg (not_not_intro fixed)]
  by_cases nextFinal : next.isFinal
  case pos =>
    have closed : ¬prev.LeftOpen next := fun h => by simp [h.next_not_final] at nextFinal
    rw [if_pos nextFinal]
    simp [closed]
  rw [if_neg nextFinal]
  by_cases prevFinal : prev.isFinal
  case pos =>
    have closed : ¬prev.LeftOpen next := fun h => by simp [h.prev_not_final] at prevFinal
    rw [if_pos prevFinal]
    simp [closed]
  rw [if_neg prevFinal]
  have leftOpen : prev.LeftOpen next :=
    ⟨fixed.1, fixed.2.1, fixed.2.2, eq_false_of_ne_true nextFinal, eq_false_of_ne_true prevFinal⟩
  rw [and_iff_right leftOpen]
  by_cases fits : 2 * size < 2 ^ 64
  · have notTooMany : ¬2 ^ 64 ≤ 2 * size := Nat.not_le.2 fits
    rw [if_pos fits]
    simp only [bind, Except.bind]
    by_cases setup : next.turnNum.toNat < 2 * size
    · rw [if_pos setup]
      simp [notTooMany, Nat.not_le.2 setup, pure, Except.pure]
    · rw [if_neg setup]
      simp [notTooMany, Nat.not_lt.1 setup]
  · rw [if_neg fits]
    -- No turn number is that large.
    have early : ¬2 * size ≤ next.turnNum.toNat := by omega
    simp [bind, Except.bind, Nat.not_lt.1 fits, early, eq_comm]

/-- A provided application overflows on the transitions where it stops, and
on no other. -/
theorem Provided.validTransition_eq_error_iff (provided : app.Provided) :
    app.validTransition prev next size = .error o ↔ app.Stops prev next size o := by
  rw [validTransition_eq_error_iff_accepts]
  constructor
  · rintro ⟨leftOpen, ⟨rfl, tooMany⟩ | ⟨afterSetup, stopped⟩⟩
    · exact .rounds leftOpen tooMany
    · obtain ⟨consensus, rfl, overcounts⟩ := provided.accepts_eq_error_iff.1 stopped
      exact .votes leftOpen afterSetup consensus overcounts
  · rintro (⟨leftOpen, afterSetup, consensus, overcounts⟩ | ⟨leftOpen, tooMany⟩)
    · exact ⟨leftOpen, .inr ⟨afterSetup,
        provided.accepts_eq_error_iff.2 ⟨consensus, rfl, overcounts⟩⟩⟩
    · exact ⟨leftOpen, .inl ⟨rfl, tooMany⟩⟩

/-- A final state does not bring a vote to a count, nor a round. -/
theorem Stops.not_final (h : app.Stops prev next size o) : next.isFinal = false := by
  cases h with
  | votes leftOpen => exact leftOpen.next_not_final
  | rounds leftOpen => exact leftOpen.next_not_final

end App

/-- Only applications of this library are registered. -/
def AppRegistry.Provided (apps : AppRegistry) : Prop :=
  ∀ address app, apps.get? address = some app → app.Provided

/-- An empty registry has only provided applications. -/
theorem AppRegistry.provided_empty : AppRegistry.Provided ∅ := by
  rintro _ _ ⟨⟩

/-- Registering a provided application keeps the registry so. -/
theorem AppRegistry.Provided.insert {apps : AppRegistry} (h : apps.Provided)
    (provided : app.Provided) (address : Address) :
    AppRegistry.Provided (Table.insert apps address app) := by
  intro other registered isRegistered
  rw [Table.get?_insert] at isRegistered
  split at isRegistered
  · cases isRegistered
    exact provided
  · exact h other registered isRegistered

/-! ### The check of a proof -/

namespace SupportProof

variable {c : Channel} {p : SupportProof} {app? : Option App}

/-- The check of a proof comes to two neighbours at which the rule of the
application stops. Everything it looks at before is in order. -/
structure Stops (p : SupportProof) (c : Channel) (app : App) (o : Overflow) : Prop where
  length_le : p.states.length ≤ c.size
  channelId : ∀ s ∈ p.states, s.channelId = c.id
  neighbours : ∃ before prev next after, p.states = before ++ prev :: next :: after ∧
    ((before ++ [prev]).IsChain fun prev next =>
      app.validTransition prev next c.size = .ok true) ∧
    app.Stops prev next c.size o

/-- The first pair of a chain stops the check, or it is valid and what
follows stops it. -/
theorem checkChain_cons_eq_overflow_iff {index : Nat} {rest : List State} :
    checkChain (some app) size index (prev :: next :: rest) = .error (.overflow o) ↔
      app.validTransition prev next size = .error o ∨
        app.validTransition prev next size = .ok true ∧
          checkChain (some app) size (index + 1) (next :: rest) = .error (.overflow o) := by
  rw [checkChain]
  by_cases follows : next.follows prev
  · cases step : app.validTransition prev next size with
    | error stop => simp [follows, step, bind, Except.bind]
    | ok valid => cases valid <;> simp [follows, step, bind, Except.bind]
  · -- Then the pair is refused, and the rule is not asked.
    have valid : app.validTransition prev next size ≠ .ok true := fun valid =>
      follows (App.validTransition_eq_ok_true_iff.1 valid).1.1
    have stopped : app.validTransition prev next size ≠ .error o := fun stopped =>
      follows (App.validTransition_eq_error_iff_accepts.1 stopped).1.follows
    simp [follows, valid, stopped]

/-- The chain of states is checked up to the first pair that stops the
check. -/
theorem checkChain_some_eq_overflow_iff {index : Nat} {states : List State} :
    checkChain (some app) size index states = .error (.overflow o) ↔
      ∃ before prev next after, states = before ++ prev :: next :: after ∧
        ((before ++ [prev]).IsChain fun prev next =>
          app.validTransition prev next size = .ok true) ∧
        app.validTransition prev next size = .error o := by
  -- The index of the first state is only there for the error.
  induction states generalizing index with
  | nil => simp [checkChain]
  | cons first rest ih =>
    cases rest with
    | nil => simp [checkChain, List.cons_eq_append_iff]
    | cons second rest =>
      rw [checkChain_cons_eq_overflow_iff, ih]
      constructor
      · rintro (stopped | ⟨valid, before, prev, next, after, split, chain, stopped⟩)
        · exact ⟨[], first, second, rest, rfl, List.isChain_singleton _, stopped⟩
        · refine ⟨first :: before, prev, next, after, by rw [split]; rfl, ?_, stopped⟩
          -- What comes next is `second`, whether it is in `before` or is `prev`.
          cases before with
          | nil =>
            cases split
            exact List.isChain_cons_cons.2 ⟨valid, chain⟩
          | cons head before =>
            cases split
            exact List.isChain_cons_cons.2 ⟨valid, chain⟩
      · rintro ⟨before, prev, next, after, split, chain, stopped⟩
        cases before with
        | nil =>
          cases split
          exact .inl stopped
        | cons head before =>
          cases before with
          | nil =>
            cases split
            obtain ⟨valid, chain⟩ := List.isChain_cons_cons.1 chain
            exact .inr ⟨valid, [], second, next, after, rfl, chain, stopped⟩
          | cons _ before =>
            cases split
            obtain ⟨valid, chain⟩ := List.isChain_cons_cons.1 chain
            exact .inr ⟨valid, second :: before, prev, next, after, rfl, chain, stopped⟩

/-- Without an application there is no rule that could stop. -/
theorem checkChain_none_ne_overflow {index : Nat} {states : List State} :
    checkChain none size index states ≠ .error (.overflow o) := by
  induction states generalizing index with
  | nil => simp [checkChain]
  | cons first rest ih =>
    cases rest with
    | nil => simp [checkChain]
    | cons second rest =>
      rw [checkChain]
      by_cases follows : second.follows first
      · simpa [follows, pure, Except.pure, bind, Except.bind] using ih
      · simp [follows]

/-- With an application of this library, the check of a proof stops
exactly if it comes to neighbours at which the rule stops. All other
checks only refuse. -/
theorem validate_eq_overflow_iff (provided : ∀ app ∈ app?, app.Provided) :
    p.validate c app? = .error (.overflow o) ↔ ∃ app ∈ app?, p.Stops c app o := by
  have chain : checkChain app? c.size 0 p.states = .error (.overflow o) ↔
      ∃ app ∈ app?, ∃ before prev next after, p.states = before ++ prev :: next :: after ∧
        ((before ++ [prev]).IsChain fun prev next =>
          app.validTransition prev next c.size = .ok true) ∧ app.Stops prev next c.size o := by
    cases app? with
    | none => simp [checkChain_none_ne_overflow]
    | some app =>
      simp only [Option.mem_some_iff, exists_eq_left', checkChain_some_eq_overflow_iff,
        (provided app rfl).validTransition_eq_error_iff]
  have same : (p.states.find? fun s => s.channelId ≠ c.id) = none ↔
      ∀ s ∈ p.states, s.channelId = c.id := by simp
  have stops : (∃ app ∈ app?, p.Stops c app o) ↔ p.states.length ≤ c.size ∧
      (∀ s ∈ p.states, s.channelId = c.id) ∧
      checkChain app? c.size 0 p.states = .error (.overflow o) := by
    rw [chain]
    constructor
    · rintro ⟨app, isApp, length_le, channelId, neighbours⟩
      exact ⟨length_le, channelId, app, isApp, neighbours⟩
    · rintro ⟨length_le, channelId, app, isApp, neighbours⟩
      exact ⟨app, isApp, length_le, channelId, neighbours⟩
  rw [stops]
  unfold validate
  cases latest : p.latest? with
  | none =>
    have nil : p.states = [] := List.getLast?_eq_none_iff.1 latest
    simp [nil, checkChain]
  | some latest =>
    simp only [Failure.refused_if_eq_overflow_iff, Nat.not_lt, ← same]
    refine and_congr_right fun _ => ?_
    cases p.states.find? fun s => s.channelId ≠ c.id with
    | some s => simp [bind, Except.bind]
    | none =>
      -- After the chain there are rules only.
      simp only [bind_eq_error_iff, Failure.refused_if_eq_overflow_iff, Failure.ofRule_ne_overflow,
        pure, Except.pure, reduceCtorEq, and_false, exists_false, or_false, true_and]

/-- Once the indices and the number of signatures are checked, there is
a state and a signature for each participant to be found by index. -/
theorem exists_of_checkAssignment {largest : TurnNum} {i : Nat}
    (checked : checkAssignment p.assignment largest c.size p.states.length = .ok ())
    (length_signatures : p.signatures.length = c.size) (isIndex : i < c.size) :
    ∃ index state signature, p.assignment[i]? = some index ∧ p.states[index]? = some state ∧
      p.signatures[i]? = some signature := by
  obtain ⟨length, within⟩ := checkAssignment_eq_ok_iff.1 checked
  obtain ⟨index, assigned⟩ : ∃ index, p.assignment[i]? = some index :=
    ⟨_, List.getElem?_eq_getElem (by omega)⟩
  have inside := (within i index assigned).1
  exact ⟨index, _, _, assigned, List.getElem?_eq_getElem inside,
    List.getElem?_eq_getElem (by omega)⟩

end SupportProof

end StateChannels
