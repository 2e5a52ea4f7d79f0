import StateChannels.Proofs.Adjudicator.History
import StateChannels.Proofs.App.Chain

/-!
# `StateChannels.Proofs.Adjudicator.Conclusion`: who agreed to a conclusion

A conclusion ends a channel at once, so everybody has to agree to it. But the
proof may have several states, and each participant signs only one of them.
What they agree on is the outcome: from one final state to the next it stays
the same, so whoever signed any of the states signed the outcome of the last.

* `SupportProof.Closes`: what a participant signed in a proof of final
  states.
* `SupportProof.Supports.exists_closes`: in such a proof every participant
  signed the outcome of the last state.
* `Adjudicator.concluded_by_all`: so a conclusion stores the digest of an
  outcome that all participants signed in a final state.
-/

set_option autoImplicit false

namespace StateChannels

namespace SupportProof

variable {c : Channel} {p : SupportProof} {app : App} {latest : State} {i : Nat} {a : Address}

/-- Signature `i` of the proof is that of `a` on `state`, which is one of
the proof's states, a final one of the channel, with this outcome. -/
structure Closes (p : SupportProof) (c : Channel) (outcome : Outcome) (i : Nat) (a : Address)
    (state : State) : Prop where
  member : state ∈ p.states
  channelId : state.channelId = c.id
  isFinal : state.isFinal
  outcome : state.outcome = outcome
  recovers : ∃ signature, p.signatures[i]? = some signature ∧
    recoverSigner state.hash signature = .ok a

/-- Whichever of the final states they are assigned, every participant
signed the outcome of the last one. -/
theorem Supports.exists_closes (h : p.Supports c (some app) latest)
    (final : ∀ s ∈ p.states, s.isFinal) (participant : c.participants[i]? = some a) :
    ∃ state, p.Closes c latest.outcome i a state := by
  obtain ⟨index, state, signed, -⟩ := h.covers i a participant
  have member : state ∈ p.states := List.mem_of_getElem? signed.found
  refine ⟨state, member, h.channelId state member, final state member, ?_, signed.recovers⟩
  exact App.outcome_eq_latest (h.valid app rfl) final h.isLatest state member

end SupportProof

namespace Adjudicator

variable {adj next : Adjudicator} {c : Channel} {p : SupportProof} {s : ChannelStorage}

/-- On any chain, a conclusion that succeeds is unanimous about the outcome,
however many states its proof has and whoever signed which of them. Every
participant signed a final state of the channel with the outcome of the last
state, and the record that is stored has the digest of that outcome. -/
theorem concluded_by_all (concludes : adj.conclude c p = .ok (s, next)) :
    ∃ latest, p.latest? = some latest ∧
      (∀ (i : Nat) (a : Address), c.participants[i]? = some a →
        ∃ state, p.Closes c latest.outcome i a state) ∧
      next.storage c.id = s ∧ s.outcomeHash = latest.outcome.hash := by
  obtain ⟨-, final, latest, isLatest, accepted, rfl, rfl⟩ := conclude_eq_ok_iff.1 concludes
  -- The chain has the channel's application, so each state is a valid move after the one before.
  obtain ⟨_, app, -, -, accepted⟩ := validate_eq_ok_iff.1 accepted
  obtain ⟨last, supports, -⟩ := SupportProof.supports_of_validate accepted
  obtain rfl : last = latest := Option.some.inj (supports.isLatest.symm.trans isLatest)
  refine ⟨last, isLatest, ?_, ?_, rfl⟩
  · intro i a participant
    exact supports.exists_closes final participant
  · rw [storage_setStorage, if_pos rfl]

/-! ### A conclusion with two states

Alice's challenge is running when the two participants give up their dispute.
Alice signs a final state at turn 4 and Bob the one after it. -/

namespace Sample

/-- The final state at a turn. -/
def closedAt (turn : TurnNum) : State := { stateAt turn with isFinal := true }

/-- Alice's signature on the final state at turn 4. -/
def signatureOfAliceOnClosed : Signature :=
  signature 0xd2606e92871480b9072dea3cc964e2c88246d7422496b3b09e73ab0fd901691e
    0x551fe38e08d4ac4e22a844ec3d67a324618b5628ed71b9c7311646de01dab765 27

/-- Bob's signature on the final state at turn 5. -/
def signatureOfBobOnClosed : Signature :=
  signature 0x46657dc133f05a649a11f1c22ec6ffff0ca1834719e02d922a79834c687cb48c
    0x33d50d201628b52b424a0bad71728080f32ef21a2844770a7f447990afc5ad20 28

/-- The two final states, each with the signature of its mover. -/
def closing : SupportProof where
  states := [closedAt 4, closedAt 5]
  signatures := [signatureOfAliceOnClosed, signatureOfBobOnClosed]
  assignment := [0, 1]

/-- What is hashed for the final state at a turn. -/
theorem token_closedAt (turn : TurnNum) : (closedAt turn).token =
    .tuple [.ofNat turn.toNat, .ofBool true,
      .ofHash (digest 0x849251e15dbee927cb400b877a5367e30e78fe6feea567d03f208c34d2302a25),
      .ofHash (digest 0x22625d49ec2b18fae88139001f77f9fce1d0416e505ceb6e5d66920381d15eff),
      .ofHash (digest 0x4aa8db2a7e6fa4b16431ba630b7997c15dd3632acabf30196686241dbf7d31e0)] := by
  rw [← id_channel, ← appPartHash_state, ← hash_outcome]
  rfl

/-- Alice's signature on the final state at turn 4 recovers her address. -/
theorem recoverSigner_signatureOfAliceOnClosed :
    recoverSigner (closedAt 4).hash signatureOfAliceOnClosed = .ok alice := by
  rw [State.hash, token_closedAt, Abi.Token.argsHash, keccak256_eq]
  exact recoverSigner_of_recovers (by decide +kernel)

/-- Bob's signature on the final state at turn 5 recovers his address. -/
theorem recoverSigner_signatureOfBobOnClosed :
    recoverSigner (closedAt 5).hash signatureOfBobOnClosed = .ok bob := by
  rw [State.hash, token_closedAt, Abi.Token.argsHash, keccak256_eq]
  exact recoverSigner_of_recovers (by decide +kernel)

/-- The proof supports the final state at turn 5. -/
theorem validate_closing :
    closing.validate channel (some .trivial) = .ok (.ofState (closedAt 5)) := by
  have sameChannel : ∀ s ∈ closing.states, s.channelId = channel.id := by
    intro s member
    rcases List.mem_cons.1 member with rfl | member
    · rfl
    · rw [List.mem_singleton.1 member]
      rfl
  have chain : SupportProof.checkChain (some .trivial) channel.size 0 closing.states = .ok () := by
    have follows : (closedAt 5).follows (closedAt 4) := State.follows_iff.2 ⟨rfl, rfl⟩
    refine SupportProof.checkChain_eq_ok_iff.2 (List.isChain_pair.2 ⟨follows, ?_⟩)
    rintro app ⟨⟩
    exact App.validTransition_eq_ok_true_iff.2 ⟨⟨follows, rfl, rfl⟩, rfl⟩
  have signatures : SupportProof.checkSignatures channel closing = .ok () := by
    refine forM_eq_ok_iff.2 fun entry member => ?_
    rcases List.mem_cons.1 member with rfl | member
    · exact checkSigner_eq_ok_iff.2 recoverSigner_signatureOfAliceOnClosed
    · cases List.mem_singleton.1 member
      exact checkSigner_eq_ok_iff.2 recoverSigner_signatureOfBobOnClosed
  exact SupportProof.validate_eq_ok_iff.2
    ⟨closedAt 5, rfl, by decide, sameChannel, chain, rfl, rfl, signatures, rfl⟩

/-- The chain at time 5, after Alice's challenge. -/
def disputed : Adjudicator := chain.run [.tick 5, .call challenge]

/-- The proof concludes the disputed channel. -/
theorem conclude_closing :
    disputed.conclude channel closing =
      .ok (.concluded 5 outcome, disputed.setStorage channel.id (.concluded 5 outcome)) := by
  have running : disputed.status channel.id ≠ .finalized := by
    rw [status, disputed, storage_challenge, run_challenge]
    decide
  have final : ∀ s ∈ closing.states, s.isFinal := by
    intro s member
    rcases List.mem_cons.1 member with rfl | member
    · rfl
    · rw [List.mem_singleton.1 member]
      rfl
  refine conclude_eq_ok_iff.2 ⟨running, final, closedAt 5, rfl, ?_, ?_, rfl⟩
  · rw [disputed, run_challenge]
    exact validate_eq_ok_iff.2 ⟨closedAt 5, .trivial, rfl, rfl, validate_closing⟩
  · rw [disputed, run_challenge]
    rfl

/-- Alice and Bob signed the outcome that is stored, in two different
states. -/
theorem concluded_by_all_disputed :
    disputed.conclude channel closing =
        .ok (.concluded 5 outcome, disputed.setStorage channel.id (.concluded 5 outcome)) ∧
      (∃ state, closing.Closes channel outcome 0 alice state) ∧
      (∃ state, closing.Closes channel outcome 1 bob state) ∧
      ((disputed.setStorage channel.id (.concluded 5 outcome)).storage channel.id).outcomeHash =
        outcome.hash := by
  obtain ⟨latest, isLatest, signed, stored, hash⟩ := concluded_by_all conclude_closing
  obtain rfl : closedAt 5 = latest := Option.some.inj isLatest
  refine ⟨conclude_closing, signed 0 alice rfl, signed 1 bob rfl, ?_⟩
  rw [stored]
  exact hash

end Sample

end Adjudicator

end StateChannels
