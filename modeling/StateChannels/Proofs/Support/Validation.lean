import Mathlib.Data.List.Chain
import StateChannels.Support

/-!
# `StateChannels.Proofs.Support.Validation`: what a support proof has to show

`SupportProof.validate` counts places in lists and takes remainders.
`SupportProof.Supports` says in terms of turns and movers what a proof
has to show: its states belong to the channel and stand at consecutive
turns, and every participant signed a state after which they did not
move again up to the last one.

* `exists_move_iff`: participant `i` moves between two turns that are
  less than a round apart exactly if fewer turns lie between them than
  `turnsSinceMove` counts back. This is where remainders meet movers.
* `checkAssigned_eq_ok_iff`, `checkChain_eq_ok_iff` and
  `checkSignatures_eq_ok_iff`: what the single checks of a proof accept.
* `supports_of_validate` and `Supports.validate`: the two directions.
* `validate_eq_ok_iff_supports`: a proof is accepted exactly if it
  supports its last state, and the result describes that state.
-/

set_option autoImplicit false

namespace StateChannels

/-! ### Rounds -/

namespace Channel

variable {c : Channel}

/-- A participant moves at the turns that leave their index as the
remainder. -/
theorem mover_eq_iff {i : Nat} {a : Address} (participant : c.participants[i]? = some a)
    (turn : TurnNum) : c.mover turn = a ↔ turn.toNat % c.size = i := by
  -- Participants are distinct, so the index of `a` is `i` and no other.
  have index : c.indexOf? a = some i := indexOf?_eq_some_iff.2 participant
  constructor
  · intro moves
    have same := c.indexOf?_mover turn
    rw [moves, index] at same
    exact (Option.some.inj same).symm
  · intro remainder
    have place := indexOf?_eq_some_iff.1 (c.indexOf?_mover turn)
    rw [moverIndex, remainder, participant] at place
    exact (Option.some.inj place).symm

end Channel

namespace SupportProof

/-- Who moved `since` turns ago, less than a round, moved last then. -/
theorem turnsSinceMove_eq {largest : TurnNum} {size turn since : Nat} (recent : since < size)
    (later : largest.toNat = turn + since) :
    turnsSinceMove largest size (turn % size) = since := by
  have place : turn % size < size := Nat.mod_lt _ (by omega)
  unfold turnsSinceMove
  rw [later, ← Nat.mod_add_mod]
  -- The round may end between the two turns, but only once.
  by_cases inside : turn % size + since < size
  · have sum : turn % size + since + size - turn % size = since + size := by omega
    rw [Nat.mod_eq_of_lt inside, sum, Nat.add_mod_right, Nat.mod_eq_of_lt recent]
  · have once : (turn % size + since) % size = turn % size + since - size := by
      rw [Nat.mod_eq_sub_mod (by omega), Nat.mod_eq_of_lt (by omega)]
    have sum : turn % size + since - size + size - turn % size = since := by omega
    rw [once, sum, Nat.mod_eq_of_lt recent]

/-- The turn that `turnsSinceMove` counts back to is one of the turns of
participant `i`. -/
theorem sub_turnsSinceMove_mod {largest : TurnNum} {size i : Nat} (isIndex : i < size)
    (moved : turnsSinceMove largest size i ≤ largest.toNat) :
    (largest.toNat - turnsSinceMove largest size i) % size = i := by
  have place : largest.toNat % size < size := Nat.mod_lt _ (by omega)
  have split := Nat.div_add_mod largest.toNat size
  unfold turnsSinceMove at moved ⊢
  by_cases thisRound : i ≤ largest.toNat % size
  · have since : (largest.toNat % size + size - i) % size = largest.toNat % size - i := by
      rw [show largest.toNat % size + size - i = largest.toNat % size - i + size by omega,
        Nat.add_mod_right, Nat.mod_eq_of_lt (by omega)]
    have back : largest.toNat - (largest.toNat % size - i) =
        size * (largest.toNat / size) + i := by omega
    rw [since, back, Nat.mul_add_mod, Nat.mod_eq_of_lt isIndex]
  · have since : (largest.toNat % size + size - i) % size = largest.toNat % size + size - i :=
      Nat.mod_eq_of_lt (by omega)
    rw [since] at moved ⊢
    have back : largest.toNat - (largest.toNat % size + size - i) + size =
        size * (largest.toNat / size) + i := by omega
    rw [← Nat.add_mod_right, back, Nat.mul_add_mod, Nat.mod_eq_of_lt isIndex]

/-- Participant `i` moves after `turn` and not after `largest`, which is
less than a round later, exactly if `turnsSinceMove` does not count back
to `turn`. -/
theorem exists_move_iff {largest : TurnNum} {size i turn : Nat} (isIndex : i < size)
    (notAfter : turn ≤ largest.toNat) (near : largest.toNat < turn + size) :
    (∃ t, turn < t ∧ t ≤ largest.toNat ∧ t % size = i) ↔
      turnsSinceMove largest size i < largest.toNat - turn := by
  constructor
  · rintro ⟨t, after, le, rfl⟩
    have since : turnsSinceMove largest size (t % size) = largest.toNat - t :=
      turnsSinceMove_eq (by omega) (by omega)
    omega
  · intro since
    exact ⟨_, by omega, Nat.sub_le .., sub_turnsSinceMove_mod isIndex (by omega)⟩

/-! ### What a proof shows -/

variable {c : Channel} {p : SupportProof} {app? : Option App} {latest : State}

/-- Participant `i`, who is `a`, is assigned `state`, which stands at
`index`, and signature `i` is theirs on it. -/
structure Signed (p : SupportProof) (i : Nat) (a : Address) (index : Nat) (state : State) :
    Prop where
  assigned : p.assignment[i]? = some index
  found : p.states[index]? = some state
  recovers : ∃ signature, p.signatures[i]? = some signature ∧
    recoverSigner state.hash signature = .ok a

/-- Participant `i`, who is `a`, signed a state of the proof, and moves
at no turn after it up to the last one. -/
def Covers (p : SupportProof) (c : Channel) (latest : State) (i : Nat) (a : Address) : Prop :=
  ∃ index state, p.Signed i a index state ∧
    ∀ turn, state.turnNum < turn → turn ≤ latest.turnNum → c.mover turn ≠ a

/-- A proof supports its last state. -/
structure Supports (p : SupportProof) (c : Channel) (app? : Option App) (latest : State) :
    Prop where
  /-- There is a last state. -/
  isLatest : p.states.getLast? = some latest
  /-- A proof is no longer than a round. -/
  length_le : p.states.length ≤ c.size
  channelId : ∀ s ∈ p.states, s.channelId = c.id
  consecutive : p.states.IsChain fun prev next => next.turnNum.toNat = prev.turnNum.toNat + 1
  valid : ∀ app ∈ app?, p.states.IsChain fun prev next =>
    app.validTransition prev next c.size = .ok true
  length_assignment : p.assignment.length = c.size
  length_signatures : p.signatures.length = c.size
  covers : ∀ (i : Nat) (a : Address), c.participants[i]? = some a → p.Covers c latest i a

/-- In states at consecutive turns, the turn of the last one is as much
later as there are states in between. -/
theorem turnNum_latest {states : List State}
    (consecutive : states.IsChain fun prev next => next.turnNum.toNat = prev.turnNum.toNat + 1)
    (isLatest : states.getLast? = some latest) {index : Nat} {s : State}
    (here : states[index]? = some s) :
    latest.turnNum.toNat + index + 1 = s.turnNum.toNat + states.length := by
  induction states generalizing index s with
  | nil => simp at here
  | cons first rest ih =>
    cases rest with
    | nil =>
      obtain ⟨inside, rfl⟩ := List.getElem?_eq_some_iff.1 here
      obtain rfl : index = 0 := by simpa using inside
      obtain rfl : first = latest := by simpa using isLatest
      rfl
    | cons second rest =>
      rw [List.isChain_cons_cons] at consecutive
      rw [List.getLast?_cons_cons] at isLatest
      cases index with
      | zero =>
        obtain rfl : first = s := by simpa using here
        have second_here : (second :: rest)[0]? = some second := rfl
        have rest := ih consecutive.2 isLatest second_here
        simp only [List.length_cons] at rest ⊢
        omega
      | succ index =>
        have here : (second :: rest)[index]? = some s := here
        have rest := ih consecutive.2 isLatest here
        simp only [List.length_cons] at rest ⊢
        omega

/-! ### The single checks -/

/-- The chain of states is checked pair by pair. -/
theorem checkChain_eq_ok_iff {size index : Nat} {states : List State} :
    checkChain app? size index states = .ok () ↔
      states.IsChain fun prev next => next.follows prev ∧
        ∀ app ∈ app?, app.validTransition prev next size = .ok true := by
  -- The index of the first state is only there for the error.
  induction states generalizing index with
  | nil => simp [checkChain]
  | cons prev rest ih =>
    cases rest with
    | nil => simp [checkChain]
    | cons next rest =>
      rw [List.isChain_cons_cons, ← @ih (index + 1), checkChain]
      by_cases follows : next.follows prev
      · cases app? with
        | none => simp [follows]
        | some app =>
          cases step : app.validTransition prev next size with
          | error overflow => simp [follows, step, bind, Except.bind]
          | ok valid => cases valid <;> simp [follows, step, bind, Except.bind]
      · simp [follows]

/-- A participant is assigned a state of the proof, and no older one
than where they moved last. -/
theorem checkAssigned_eq_ok_iff {largest : TurnNum} {size states index i : Nat} :
    checkAssigned largest size states index i = .ok () ↔
      index < states ∧ states ≤ index + turnsSinceMove largest size i + 1 := by
  unfold checkAssigned
  by_cases outside : states ≤ index
  · simp [outside]
  · by_cases older : index + turnsSinceMove largest size i + 1 < states
    · simp [outside, older]
    · simp only [outside, older, if_false, true_iff]
      omega

/-- An assignment passes when each participant is given a state of its last
round. -/
theorem checkAssignment_eq_ok_iff {assignment : List Nat} {largest : TurnNum}
    {size states : Nat} :
    checkAssignment assignment largest size states = .ok () ↔
      assignment.length = size ∧ ∀ i index, assignment[i]? = some index →
        index < states ∧ states ≤ index + turnsSinceMove largest size i + 1 := by
  unfold checkAssignment
  by_cases length : assignment.length = size
  · rw [if_neg (not_not_intro length), forM_eq_ok_iff, and_iff_right length]
    simp only [Prod.forall, List.mk_mem_zipIdx_iff_getElem?, checkAssigned_eq_ok_iff]
    exact forall_comm
  · simp [length]

/-- Each signature is checked against the state that its participant is
assigned. -/
theorem checkSignatures_eq_ok_iff (length_assignment : p.assignment.length = c.size)
    (length_signatures : p.signatures.length = c.size) :
    checkSignatures c p = .ok () ↔
      ∀ (i : Nat) (a : Address), c.participants[i]? = some a →
        ∃ index state, p.Signed i a index state := by
  unfold checkSignatures
  rw [forM_eq_ok_iff]
  simp only [Prod.forall, List.mk_mem_zipIdx_iff_getElem?, List.getElem?_zip_eq_some]
  constructor
  · intro checked i a participant
    -- The three lists have the same length, so there is an entry for `i` in each.
    have inside : i < c.size := (List.getElem?_eq_some_iff.1 participant).1
    obtain ⟨index, assigned⟩ : ∃ index, p.assignment[i]? = some index :=
      ⟨_, List.getElem?_eq_getElem (by omega)⟩
    obtain ⟨signature, given⟩ : ∃ signature, p.signatures[i]? = some signature :=
      ⟨_, List.getElem?_eq_getElem (by omega)⟩
    have accepted := checked a index signature i ⟨participant, assigned, given⟩
    cases found : p.states[index]? with
    | none => simp [found] at accepted
    | some state =>
      rw [found] at accepted
      exact ⟨index, state, assigned, found, signature, given, checkSigner_eq_ok_iff.1 accepted⟩
  · rintro signed a index signature i ⟨participant, assigned, given⟩
    obtain ⟨index', state, assigned', found, signature', given', recovered⟩ :=
      signed i a participant
    obtain rfl : index' = index := Option.some.inj (assigned'.symm.trans assigned)
    obtain rfl : signature' = signature := Option.some.inj (given'.symm.trans given)
    rw [found]
    exact checkSigner_eq_ok_iff.2 recovered

/-- The states of one channel follow one another exactly if they stand
at consecutive turns. -/
theorem isChain_follows_iff {states : List State} {valid : State → State → Prop}
    (channelId : ∀ s ∈ states, s.channelId = c.id) :
    (states.IsChain fun prev next => next.follows prev ∧ valid prev next) ↔
      (states.IsChain fun prev next => next.turnNum.toNat = prev.turnNum.toNat + 1) ∧
        states.IsChain valid := by
  constructor
  · intro chain
    exact ⟨chain.imp fun _ _ h => (State.follows_iff.1 h.1).2, chain.imp fun _ _ h => h.2⟩
  · rintro ⟨consecutive, valid⟩
    rw [List.isChain_iff_getElem] at consecutive valid ⊢
    intro i inside
    refine ⟨State.follows_iff.2 ⟨?_, consecutive i inside⟩, valid i inside⟩
    rw [channelId _ (List.getElem_mem _), channelId _ (List.getElem_mem _)]

/-- The assigned state is not too old exactly if the participant does
not move after it. -/
theorem not_moves_iff
    (consecutive : p.states.IsChain fun prev next =>
      next.turnNum.toNat = prev.turnNum.toNat + 1)
    (isLatest : p.states.getLast? = some latest) (length_le : p.states.length ≤ c.size)
    {i index : Nat} {a : Address} {state : State} (participant : c.participants[i]? = some a)
    (found : p.states[index]? = some state) :
    (∀ turn, state.turnNum < turn → turn ≤ latest.turnNum → c.mover turn ≠ a) ↔
      p.states.length ≤ index + turnsSinceMove latest.turnNum c.size i + 1 := by
  have inside : index < p.states.length := (List.getElem?_eq_some_iff.1 found).1
  have isIndex : i < c.size := (List.getElem?_eq_some_iff.1 participant).1
  have turns := turnNum_latest consecutive isLatest found
  have moves : (∃ turn, state.turnNum.toNat < turn ∧ turn ≤ latest.turnNum.toNat ∧
      turn % c.size = i) ↔
      turnsSinceMove latest.turnNum c.size i < latest.turnNum.toNat - state.turnNum.toNat :=
    exists_move_iff isIndex (by omega) (by omega)
  rw [← not_iff_not, Nat.not_le, show
    index + turnsSinceMove latest.turnNum c.size i + 1 < p.states.length ↔
      turnsSinceMove latest.turnNum c.size i <
        latest.turnNum.toNat - state.turnNum.toNat by omega, ← moves]
  -- Turns up to the last one are turn numbers, whatever the remainder.
  constructor
  · intro moved
    simp only [not_forall, not_not] at moved
    obtain ⟨turn, after, le, mover⟩ := moved
    exact ⟨turn.toNat, UInt64.lt_iff_toNat_lt.1 after, UInt64.le_iff_toNat_le.1 le,
      (Channel.mover_eq_iff participant turn).1 mover⟩
  · rintro ⟨turn, after, le, remainder⟩ still
    have word : (UInt64.ofNat turn).toNat = turn :=
      UInt64.toNat_ofNat_of_lt (Nat.lt_of_le_of_lt le latest.turnNum.toNat_lt)
    refine still (UInt64.ofNat turn) ?_ ?_ ((Channel.mover_eq_iff participant _).2 ?_)
    · rw [UInt64.lt_iff_toNat_lt, word]
      exact after
    · rw [UInt64.le_iff_toNat_le, word]
      exact le
    · rw [word]
      exact remainder

/-! ### Accepted proofs -/

/-- A proof that is accepted supports its last state. -/
theorem supports_of_validate {x : Supported} (accepted : p.validate c app? = .ok x) :
    ∃ latest, p.Supports c app? latest ∧ x = .ofState latest := by
  obtain ⟨latest, isLatest, length_le, channelId, chain, assignment, length_signatures,
    signatures, rfl⟩ := validate_eq_ok_iff.1 accepted
  rw [checkChain_eq_ok_iff, isChain_follows_iff channelId] at chain
  obtain ⟨consecutive, valid⟩ := chain
  obtain ⟨length_assignment, acceptable⟩ := checkAssignment_eq_ok_iff.1 assignment
  rw [checkSignatures_eq_ok_iff length_assignment length_signatures] at signatures
  refine ⟨latest, ?_, rfl⟩
  constructor
  · exact isLatest
  · exact length_le
  · exact channelId
  · exact consecutive
  · exact fun app here => valid.imp fun _ _ h => h app here
  · exact length_assignment
  · exact length_signatures
  -- That the assigned state is recent enough says that the participant has not moved since.
  · intro i a participant
    obtain ⟨index, state, signed⟩ := signatures i a participant
    have acceptable := (acceptable i index signed.assigned).2
    exact ⟨index, state, signed,
      (not_moves_iff consecutive isLatest length_le participant signed.found).2 acceptable⟩

/-- A proof that supports a state is accepted. -/
theorem Supports.validate (h : p.Supports c app? latest) :
    p.validate c app? = .ok (.ofState latest) := by
  rw [validate_eq_ok_iff]
  refine ⟨latest, h.isLatest, h.length_le, h.channelId, ?_, ?_, h.length_signatures, ?_, rfl⟩
  · rw [checkChain_eq_ok_iff, isChain_follows_iff h.channelId]
    refine ⟨h.consecutive, ?_⟩
    cases app? with
    | none => exact List.isChain_iff_getElem.2 fun _ _ _ none => absurd none (by simp)
    | some app =>
      refine (h.valid app rfl).imp fun _ _ step other same => ?_
      cases same
      exact step
  · refine checkAssignment_eq_ok_iff.2 ⟨h.length_assignment, fun i index assigned => ?_⟩
    -- There are as many assigned states as participants.
    have isIndex : i < c.size := h.length_assignment ▸ (List.getElem?_eq_some_iff.1 assigned).1
    have participant : c.participants[i]? = some (c.participants.get ⟨i, isIndex⟩) :=
      List.getElem?_eq_getElem isIndex
    obtain ⟨index', state, signed, still⟩ := h.covers i _ participant
    obtain rfl : index' = index := Option.some.inj (signed.assigned.symm.trans assigned)
    exact ⟨(List.getElem?_eq_some_iff.1 signed.found).1,
      (not_moves_iff h.consecutive h.isLatest h.length_le participant signed.found).1 still⟩
  · rw [checkSignatures_eq_ok_iff h.length_assignment h.length_signatures]
    intro i a participant
    obtain ⟨index, state, signed, -⟩ := h.covers i a participant
    exact ⟨index, state, signed⟩

/-- A proof is accepted exactly if it supports its last state: it has
states, no more than there are participants, all of the channel, at
turns that follow one another without a gap, each a valid transition of
the application if one is given. Each participant has one assigned
state, which is a state of the proof, and one signature, which is on
that state and theirs, and moves at no turn after that state up to the
last one. The result has the turn, the outcome and the two digests of
the last state. -/
theorem validate_eq_ok_iff_supports (c : Channel) (p : SupportProof) (app? : Option App)
    (x : Supported) :
    p.validate c app? = .ok x ↔
      ∃ latest, p.Supports c app? latest ∧
        x = ⟨latest.turnNum, latest.outcome, latest.hash, latest.outcome.hash⟩ := by
  constructor
  · exact supports_of_validate
  · rintro ⟨latest, supports, rfl⟩
    exact supports.validate

end SupportProof

end StateChannels
