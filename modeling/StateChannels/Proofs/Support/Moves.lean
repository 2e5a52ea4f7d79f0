import Mathlib.Data.List.Chain
import StateChannels.Proofs.Adjudicator.History
import StateChannels.Proofs.Support.Validation

/-!
# `StateChannels.Proofs.Support.Moves`: a move on top of a supported state

Who may move next can make a proof of the next state from a proof of the
present one. The proof gets the new state at its end and gives up its
first state if it is as long as a round already. The mover's signature
takes the place of their earlier one, and all others keep theirs.

* `surplus_le_index`: in a proof as long as a round, no one but the next
  mover is assigned the first state, so that it can be given up.
* `Supports.extend`: the new proof supports the new state.
* `closed_under_moves`: the same of the running check. What answers a
  challenge as a move answers it as a proof, to the same effect.
-/

set_option autoImplicit false

namespace StateChannels

namespace SupportProof

variable {c : Channel} {p : SupportProof} {app : App} {latest : State} {move : SignedState}

/-- How many states a proof gives up when it takes in another one: one
if it is as long as a round. -/
def surplus (p : SupportProof) (c : Channel) : Nat := if p.states.length = c.size then 1 else 0

/-- The proof after one more move. Places in the new list of states are
lower by what was given up, and the mover is assigned the last one. -/
def extend (p : SupportProof) (c : Channel) (move : SignedState) : SupportProof where
  states := p.states.drop (p.surplus c) ++ [move.state]
  signatures := p.signatures.set (c.moverIndex move.state.turnNum) move.signature
  assignment := (p.assignment.map (· - p.surplus c)).set (c.moverIndex move.state.turnNum)
    (p.states.length - p.surplus c)

/-- The move comes on top, and what is surplus goes. -/
theorem length_states_extend (p : SupportProof) (c : Channel) (move : SignedState) :
    (p.extend c move).states.length = p.states.length - p.surplus c + 1 := by
  simp [extend]

/-- What holds between neighbours in the old proof, and between its last
state and the new one, holds between neighbours in the new proof. -/
theorem isChain_extend {R : State → State → Prop} (isLatest : p.states.getLast? = some latest)
    (chain : p.states.IsChain R) (step : R latest move.state) :
    (p.extend c move).states.IsChain R := by
  refine List.isChain_append.2 ⟨chain.drop _, List.isChain_singleton _, ?_⟩
  intro last isLast first isFirst
  obtain rfl : move.state = first := Option.some.inj isFirst
  -- If anything is left of the old states, their last one is still the last.
  rw [List.getLast?_drop] at isLast
  split at isLast
  · cases isLast
  · obtain rfl : latest = last := Option.some.inj (isLatest.symm.trans isLast)
    exact step

/-- The old states keep their places, less what was given up. -/
theorem getElem?_states_extend {index : Nat} (kept : p.surplus c ≤ index)
    (inside : index < p.states.length) :
    (p.extend c move).states[index - p.surplus c]? = p.states[index]? := by
  have place : index - p.surplus c < (p.states.drop (p.surplus c)).length := by
    rw [List.length_drop]
    omega
  rw [extend, List.getElem?_append_left place, List.getElem?_drop, Nat.add_sub_cancel' kept]

/-- In a proof as long as a round, the first state is assigned to no one
but the participant who moves next: all others moved after it. -/
theorem surplus_le_index {app? : Option App} (h : p.Supports c app? latest) {turn : TurnNum}
    (next : turn.toNat = latest.turnNum.toNat + 1) {i index : Nat}
    (assigned : p.assignment[i]? = some index) (other : i ≠ c.moverIndex turn) :
    p.surplus c ≤ index := by
  unfold surplus
  split
  case isFalse => exact Nat.zero_le index
  case isTrue full =>
    by_contra first
    obtain rfl : index = 0 := by omega
    have isIndex : i < c.size := h.length_assignment ▸ (List.getElem?_eq_some_iff.1 assigned).1
    have participant : c.participants[i]? = some (c.participants.get ⟨i, isIndex⟩) :=
      List.getElem?_eq_getElem isIndex
    obtain ⟨index, state, signed, still⟩ := h.covers i _ participant
    obtain rfl : index = 0 := Option.some.inj (signed.assigned.symm.trans assigned)
    -- Participant `i` did not move since, so their last move is all but a round ago.
    have long := (not_moves_iff h.consecutive h.isLatest h.length_le participant signed.found).1
      still
    have short := turnsSinceMove_lt latest.turnNum c.size_pos i
    have since : turnsSinceMove latest.turnNum c.size i = c.size - 1 := by omega
    have turns := turnNum_latest h.consecutive h.isLatest signed.found
    have mover : (latest.turnNum.toNat - turnsSinceMove latest.turnNum c.size i) % c.size = i :=
      sub_turnsSinceMove_mod isIndex (by omega)
    -- One turn more makes the round full, and it is their move again.
    have round : latest.turnNum.toNat - (c.size - 1) + c.size = turn.toNat := by omega
    rw [since, ← Nat.add_mod_right, round] at mover
    exact other mover.symm

/-- The mover has the last place in the new proof, with the new
signature. -/
theorem covers_extend_mover {i : Nat} {a : Address} (participant : c.participants[i]? = some a)
    (length_assignment : p.assignment.length = c.size)
    (length_signatures : p.signatures.length = c.size)
    (isMover : i = c.moverIndex move.state.turnNum)
    (signed : recoverSigner move.state.hash move.signature =
      .ok (c.mover move.state.turnNum)) :
    (p.extend c move).Covers c move.state i a := by
  have isIndex : i < c.size := isMover ▸ c.moverIndex_lt _
  have moves := (Channel.mover_eq_iff participant move.state.turnNum).2 isMover.symm
  refine ⟨p.states.length - p.surplus c, move.state, ⟨?_, ?_, move.signature, ?_, ?_⟩, ?_⟩
  · rw [extend, ← isMover, List.getElem?_set_self (by simpa [length_assignment] using isIndex)]
  · rw [extend, List.getElem?_append_right (by simp), List.length_drop, Nat.sub_self]
    rfl
  · rw [extend, ← isMover, List.getElem?_set_self (by simpa [length_signatures] using isIndex)]
  · rw [signed, moves]
  · -- There is no turn after the last one.
    intro turn after le
    exact absurd after (UInt64.not_lt.2 le)

/-- All others keep state and signature. The turn that is added is not
theirs. -/
theorem covers_extend_other {i : Nat} {a : Address} (participant : c.participants[i]? = some a)
    (old : p.Covers c latest i a)
    (kept : ∀ index, p.assignment[i]? = some index → p.surplus c ≤ index)
    (next : move.state.turnNum.toNat = latest.turnNum.toNat + 1)
    (other : i ≠ c.moverIndex move.state.turnNum) :
    (p.extend c move).Covers c move.state i a := by
  obtain ⟨index, state, ⟨assigned, found, signature, given, recovered⟩, still⟩ := old
  have inside : index < p.states.length := (List.getElem?_eq_some_iff.1 found).1
  refine ⟨index - p.surplus c, state, ⟨?_, ?_, signature, ?_, recovered⟩, ?_⟩
  · rw [extend, List.getElem?_set_ne other.symm, List.getElem?_map, assigned]
    rfl
  · rw [getElem?_states_extend (kept index assigned) inside, found]
  · rw [extend, List.getElem?_set_ne other.symm, given]
  -- Since the last state there is only the new turn, and that is the mover's.
  · intro turn after le
    by_cases before : turn ≤ latest.turnNum
    · exact still turn after before
    · have last : turn = move.state.turnNum := by
        rw [UInt64.le_iff_toNat_le] at before le
        exact UInt64.toNat_inj.1 (by omega)
      rw [last]
      exact fun moves => other ((Channel.mover_eq_iff participant _).1 moves).symm

/-- A valid move by the participant whose turn it is makes of a proof
that supports a state one that supports the next. -/
theorem Supports.extend (h : p.Supports c (some app) latest)
    (step : app.validTransition latest move.state c.size = .ok true)
    (signed : recoverSigner move.state.hash move.signature =
      .ok (c.mover move.state.turnNum)) :
    (p.extend c move).Supports c (some app) move.state := by
  obtain ⟨⟨follows, -⟩, -⟩ := App.validTransition_eq_ok_true_iff.1 step
  obtain ⟨sameChannel, next⟩ := State.follows_iff.1 follows
  constructor
  · exact List.getLast?_concat ..
  · -- There was room for one more state, or one is given up.
    have length_le := h.length_le
    rw [length_states_extend, surplus]
    split
    case isTrue full =>
      have positive := c.size_pos
      omega
    case isFalse room => omega
  -- What remains of the old states and the new one belong to the same channel.
  · intro s member
    rcases List.mem_append.1 member with old | new
    · exact h.channelId s (List.mem_of_mem_drop old)
    · rw [List.mem_singleton.1 new, sameChannel]
      exact h.channelId latest (List.mem_of_getLast? h.isLatest)
  · exact isChain_extend h.isLatest h.consecutive next
  · rintro app ⟨⟩
    exact isChain_extend h.isLatest (h.valid app rfl) step
  · rw [SupportProof.extend, List.length_set, List.length_map, h.length_assignment]
  · rw [SupportProof.extend, List.length_set, h.length_signatures]
  -- The mover is covered by the move, and the others by what covered them before.
  · intro i a participant
    by_cases isMover : i = c.moverIndex move.state.turnNum
    · exact covers_extend_mover participant h.length_assignment h.length_signatures isMover signed
    · exact covers_extend_other participant (h.covers i a participant)
        (fun _ assigned => surplus_le_index h next assigned isMover) next isMover

/-- The turn after `t` is `t + 1`, for the sum does not wrap. -/
theorem turn_eq_add_one {t turn : TurnNum} (next : turn.toNat = t.toNat + 1) : turn = t + 1 := by
  have bound := turn.toNat_lt
  have one : (1 : TurnNum).toNat = 1 := rfl
  rw [← UInt64.toNat_inj, UInt64.toNat_add, one, Nat.mod_eq_of_lt (by omega), next]

/-- A challenge with `p` is answered by a move. Then the proof after the
move answers it too, and leaves the same chain. -/
theorem respondWithAlternative_of_respond {adj next : Adjudicator} {expected : TurnNum}
    {signature : Signature} {stored : ChannelStorage} {clock : Seconds}
    {answered : ChannelStorage × Adjudicator} (isLatest : p.latest? = some latest)
    (challenged : adj.challenge c expected p signature = .ok (stored, next))
    (responded : (next.atTime clock).respond c latest.turnNum latest move = .ok answered) :
    (next.atTime clock).respondWithAlternative c latest.turnNum (p.extend c move) =
      .ok answered := by
  obtain ⟨s, after⟩ := answered
  obtain ⟨-, -, latest', challenger, isLatest', accepted, -, -, -, -, rfl⟩ :=
    Adjudicator.challenge_eq_ok_iff.1 challenged
  obtain rfl : latest = latest' := Option.some.inj (isLatest.symm.trans isLatest')
  obtain ⟨active, record, -, later, -, signed, ⟨app, known, step⟩, rfl, rfl⟩ :=
    Adjudicator.respond_eq_ok_iff.1 responded
  obtain ⟨latest', app', isLatest', registered, accepted⟩ :=
    Adjudicator.validate_eq_ok_iff.1 accepted
  obtain rfl : latest = latest' := Option.some.inj (isLatest.symm.trans isLatest')
  -- Both calls look the rule up under the same address: a move keeps the application.
  obtain ⟨⟨-, sameApp, -⟩, -⟩ := App.validTransition_eq_ok_true_iff.1 step
  have known : adj.apps.get? latest.appDefinition = some app := Adjudicator.app_eq_ok_iff.1 known
  obtain rfl : app' = app := Option.some.inj (registered.symm.trans known)
  obtain ⟨latest', supports, e⟩ := supports_of_validate accepted
  obtain rfl : latest = latest' := Option.some.inj (isLatest.symm.trans supports.isLatest)
  have extended := (supports.extend step signed).validate
  refine Adjudicator.respondWithAlternative_eq_ok_iff.2 ⟨active, record, move.state,
    List.getLast?_concat .., ?_, UInt64.lt_iff_toNat_lt.2 (by omega), rfl, rfl⟩
  refine Adjudicator.validate_eq_ok_iff.2 ⟨move.state, app', List.getLast?_concat .., ?_, extended⟩
  rw [sameApp]
  exact registered

/-- A state at turn `t` is supported under the rules of an application,
and the participant who moves at turn `t + 1` signed a state that may
follow it. Then everyone but this mover is assigned a state that the
new proof keeps, and the new proof is accepted as support of the new
state, one turn later.

So a challenge with the first proof that the new state answers as a
move, at whatever time, the new proof answers too, and the chain is
left the same. -/
theorem closed_under_moves (c : Channel) (p : SupportProof) (latest : State) (move : SignedState)
    (isLatest : p.latest? = some latest) :
    (∀ (app : App) (x : Supported), p.validate c (some app) = .ok x →
      app.validTransition latest move.state c.size = .ok true →
      recoverSigner move.state.hash move.signature = .ok (c.mover (latest.turnNum + 1)) →
      (∀ i index, p.assignment[i]? = some index → i ≠ c.moverIndex (latest.turnNum + 1) →
        p.surplus c ≤ index) ∧
      move.state.turnNum.toNat = latest.turnNum.toNat + 1 ∧
      (p.extend c move).validate c (some app) = .ok (.ofState move.state)) ∧
    ∀ (adj next : Adjudicator) (expected : TurnNum) (signature : Signature)
      (stored : ChannelStorage) (clock : Seconds) (answered : ChannelStorage × Adjudicator),
      adj.challenge c expected p signature = .ok (stored, next) →
      (next.atTime clock).respond c latest.turnNum latest move = .ok answered →
      (next.atTime clock).respondWithAlternative c latest.turnNum (p.extend c move) =
        .ok answered := by
  constructor
  · intro app x accepted step signed
    obtain ⟨latest', supports, -⟩ := supports_of_validate accepted
    obtain rfl : latest = latest' := Option.some.inj (isLatest.symm.trans supports.isLatest)
    obtain ⟨⟨follows, -⟩, -⟩ := App.validTransition_eq_ok_true_iff.1 step
    have next := (State.follows_iff.1 follows).2
    rw [← turn_eq_add_one next] at signed ⊢
    exact ⟨fun i index assigned other => surplus_le_index supports next assigned other, next,
      (supports.extend step signed).validate⟩
  · intro adj next expected signature stored clock answered challenged responded
    exact respondWithAlternative_of_respond isLatest challenged responded

end SupportProof

/-! ### A challenge that is answered in two ways

The participants of the sample go on: Bob signs the state at turn 5, and
Bob challenges with the two states, of which each participant signed the
own one. Alice signs the state at turn 6. -/

namespace Adjudicator.Sample

/-- Bob's signature on the state at turn 5. -/
def signatureAtFive : Signature :=
  signature 0x1c63eefd20dc9a21e8bf795940e87c5541863730f98825755fef2a2b014a77bb
    0x1d03a6881a1991bab28bfdae9e9eff4a08bb08a338a8ec7905588ef381ad22e9 27

/-- Alice's signature on the state at turn 6. -/
def signatureAtSix : Signature :=
  signature 0x6117de621fa46ae3d09212066834ee9f06f2c4160694420470a1928b3b239055
    0x1ff53a2283e649a754f4c0b0cba669de1c0176895fdcf1cee2a207cb0da14a15 27

/-- Bob's signature on the challenge at turn 5. -/
def challengeSignatureAtFive : Signature :=
  signature 0x3c4da576d465ddf9ffa232515316d001ef33bc06613912ce0648448b88a72edd
    0x62780ac70253436582501236399145f13fb6d43cedb77ba417f25e437c3faca3 28

/-- A proof as long as a round: each participant signed the state of
their own turn. -/
def round : SupportProof where
  states := [state, stateAt 5]
  signatures := [signatureOfAlice, signatureAtFive]
  assignment := [0, 1]

/-- Alice's move. -/
def move : SignedState := ⟨stateAt 6, alice, signatureAtSix⟩

/-- The hash of the state at turn 5. -/
theorem hash_stateAt_five : (stateAt 5).hash =
    digest 0x3ad1606fc1871b7cfd9408a0e6f868c884122b161a34439ed64be0d18ded0411 := by
  rw [State.hash, Abi.Token.argsHash, keccak256_eq, token_stateAt]
  decide +kernel

/-- The hash of the state at turn 6. -/
theorem hash_stateAt_six : (stateAt 6).hash =
    digest 0x96b40b2d891b6e3024ad991b6623845de9b18dd4d81be25350f7c00f3519bcfe := by
  rw [State.hash, Abi.Token.argsHash, keccak256_eq, token_stateAt]
  decide +kernel

/-- Bob's signature at turn 5 recovers his address. -/
theorem recoverSigner_signatureAtFive :
    recoverSigner (stateAt 5).hash signatureAtFive = .ok bob := by
  rw [hash_stateAt_five]
  exact recoverSigner_of_recovers (by decide +kernel)

/-- Alice's signature at turn 6 recovers her address. -/
theorem recoverSigner_signatureAtSix :
    recoverSigner (stateAt 6).hash signatureAtSix = .ok alice := by
  rw [hash_stateAt_six]
  exact recoverSigner_of_recovers (by decide +kernel)

/-- Bob's signature on the challenge recovers his address. -/
theorem recoverSigner_challengeSignatureAtFive :
    recoverSigner (stateAt 5).challengeHash challengeSignatureAtFive = .ok bob := by
  rw [State.challengeHash, State.challengeToken, hash_stateAt_five,
    Abi.Token.argsHash, keccak256_eq]
  exact recoverSigner_of_recovers (by decide +kernel)

/-- After the first two rounds the rule of the sample lets each turn
follow the one before. -/
theorem validTransition_stateAt {t turn : TurnNum} (next : turn.toNat = t.toNat + 1)
    (afterSetup : 4 ≤ turn.toNat) :
    App.trivial.validTransition (stateAt t) (stateAt turn) channel.size = .ok true := by
  have size : channel.size = 2 := rfl
  have running : ¬(stateAt turn).isFinal = true := Bool.false_ne_true
  refine App.validTransition_eq_ok_true_iff.2 ⟨⟨State.follows_iff.2 ⟨rfl, next⟩, rfl, rfl⟩, ?_⟩
  have late : ¬(stateAt turn).turnNum.toNat < 2 * channel.size := by
    rw [size]
    exact Nat.not_lt.2 afterSetup
  rw [if_neg running, if_neg late, size]
  exact ⟨rfl, by decide, rfl⟩

/-- One signature each supports the state at turn 5. -/
theorem validate_round : round.validate channel (some .trivial) = .ok (.ofState (stateAt 5)) := by
  have sameChannel : ∀ s ∈ round.states, s.channelId = channel.id := by
    intro s member
    rcases List.mem_cons.1 member with rfl | member
    · rfl
    · rw [List.mem_singleton.1 member]
      rfl
  have chain : SupportProof.checkChain (some .trivial) channel.size 0 round.states = .ok () := by
    refine SupportProof.checkChain_eq_ok_iff.2
      (List.isChain_pair.2 ⟨State.follows_iff.2 ⟨rfl, rfl⟩, ?_⟩)
    rintro app ⟨⟩
    exact validTransition_stateAt (t := 4) rfl (by decide)
  have signatures : SupportProof.checkSignatures channel round = .ok () := by
    refine forM_eq_ok_iff.2 fun entry member => ?_
    rcases List.mem_cons.1 member with rfl | member
    · exact checkSigner_eq_ok_iff.2 recoverSigner_signatureOfAlice
    · cases List.mem_singleton.1 member
      exact checkSigner_eq_ok_iff.2 recoverSigner_signatureAtFive
  exact SupportProof.validate_eq_ok_iff.2
    ⟨stateAt 5, rfl, by decide, sameChannel, chain, rfl, rfl, signatures, rfl⟩

/-- Bob's challenge at time 5. -/
theorem challenge_round :
    (chain.atTime 5).challenge channel 0 round challengeSignatureAtFive =
      .ok (.challenged 5 (stateAt 5) bob,
        (chain.atTime 5).setStorage channel.id (.challenged 5 (stateAt 5) bob)) :=
  challenge_eq_ok_iff.2 ⟨by decide, rfl, stateAt 5, bob, rfl,
    validate_eq_ok_iff.2 ⟨stateAt 5, .trivial, rfl, rfl, validate_round⟩, by decide,
    recoverSigner_challengeSignatureAtFive, by simp [channel], rfl, rfl⟩

/-- The chain at time 8, after the challenge. -/
def contested : Adjudicator :=
  ((chain.atTime 5).setStorage channel.id (.challenged 5 (stateAt 5) bob)).atTime 8

/-- The record is that of Bob's challenge. -/
theorem storage_contested : contested.storage channel.id = .challenged 5 (stateAt 5) bob := by
  rw [contested, storage_atTime, storage_setStorage, if_pos rfl]

/-- Alice answers with a move. -/
theorem respond_move :
    contested.respond channel 5 (stateAt 5) move =
      .ok (.cleared 6, contested.setStorage channel.id (.cleared 6)) := by
  refine respond_eq_ok_iff.2 ⟨?_, ?_, ?_, rfl, rfl, recoverSigner_signatureAtSix,
    ⟨.trivial, rfl, validTransition_stateAt (t := 5) rfl (by decide)⟩, rfl, rfl⟩
  · rw [status, storage_contested]
    rfl
  · rw [storage_contested]
    rfl
  · rw [storage_contested]
    rfl

end Adjudicator.Sample

namespace SupportProof

open Adjudicator.Sample in
/-- With the proof as long as a round, in which each participant signed
their own state, Alice's move drops the first state. The new proof is
accepted, and at time 8 it answers Bob's challenge as the move does. -/
theorem closed_under_moves_round :
    (round.extend channel move).states = [stateAt 5, stateAt 6] ∧
      (round.extend channel move).assignment = [1, 0] ∧
      (round.extend channel move).validate channel (some .trivial) = .ok (.ofState (stateAt 6)) ∧
      contested.respondWithAlternative channel 5 (round.extend channel move) =
        .ok (.cleared 6, contested.setStorage channel.id (.cleared 6)) := by
  obtain ⟨extended, answered⟩ := closed_under_moves channel round (stateAt 5) move rfl
  obtain ⟨-, -, accepted⟩ := extended .trivial _ validate_round
    (validTransition_stateAt (t := 5) rfl (by decide)) recoverSigner_signatureAtSix
  exact ⟨rfl, rfl, accepted, answered _ _ 0 _ _ 8 _ challenge_round respond_move⟩

end SupportProof

end StateChannels
