import StateChannels.Proofs.Store.Convergence

/-!
# `StateChannels.Proofs.Store.Enforcement`: what the store holds, the chain accepts

Off the chain a state is supported by signed states that the store has
collected, and `validateUnanimous` has seen. On the chain it takes a
proof, and `SupportProof.validate` looks at who signed what. The two meet
in unanimous signatures.

* `enforces_of_supports`: a proof that supports a state under every rule
  moves the chain to the turn of the state.
* `latest_enforceable`: along every run of the store, the signatures on a
  supported state make such a proof. Conversely, a proof of a single
  state has signatures that the store would take for support.
-/

set_option autoImplicit false

namespace StateChannels

/-- A proof is enough to enforce a state. On every chain with a rule for
the state, on which the channel is not final and its record not later, a
checkpoint succeeds with the proof, and a challenge is over then. -/
def Enforces (c : Channel) (p : SupportProof) (state : State) : Prop :=
  ∀ (adj : Adjudicator) (app : App), adj.apps.get? state.appDefinition = some app →
    adj.status c.id ≠ .finalized → (adj.storage c.id).turnNumRecord ≤ state.turnNum →
    ∃ next, adj.checkpoint c (adj.storage c.id).turnNumRecord p =
        .ok (.cleared state.turnNum, next) ∧
      next.storage c.id = .cleared state.turnNum ∧ next.status c.id = .opened

/-- What supports a state under every application enforces it. -/
theorem enforces_of_supports {c : Channel} {p : SupportProof} {state : State}
    (h : ∀ app, p.Supports c (some app) state) : Enforces c p state := by
  intro adj app registered running notLater
  have accepted : adj.validate c p = .ok (.ofState state) :=
    Adjudicator.validate_eq_ok_iff.2 ⟨state, app, (h app).isLatest, registered, (h app).validate⟩
  have cleared : (adj.setStorage c.id (.cleared state.turnNum)).storage c.id =
      .cleared state.turnNum := by
    rw [Adjudicator.storage_setStorage, if_pos rfl]
  refine ⟨_, Adjudicator.checkpoint_eq_ok_iff.2
    ⟨running, rfl, state, (h app).isLatest, accepted, notLater, rfl, rfl⟩, cleared, ?_⟩
  rw [Adjudicator.status, cleared, ChannelStorage.status_cleared]

namespace Store

/-- Whatever was given to a store, the signatures on a supported state
make the proof of this state alone, under any rule the proof is accepted
with the support that the store has, and the chain can be moved to it.
Conversely, the signatures of a proof of a single state that is accepted
are, as signed states, accepted off the chain. -/
theorem latest_enforceable :
    (∀ (events : List Event) (id : Hash) (c : Channel) (e : SupportedState),
      (empty.run events).channel id = .ok c → (empty.run events).latest id = .ok (some e) →
      ∃ p, SupportProof.ofSigned c e.signed = .ok p ∧ p.states = [e.state] ∧
        p.assignment = List.replicate c.size 0 ∧
        (∀ app?, p.validate c app? = .ok e.supported) ∧ Enforces c p e.state) ∧
    ∀ (c : Channel) (p : SupportProof) (state : State) (app? : Option App) (x : Supported),
      p.states = [state] → p.validate c app? = .ok x →
      (signedBy c state p.signatures).length = c.size ∧
        validateUnanimous c (signedBy c state p.signatures) state.turnNum = .ok x := by
  constructor
  -- The entry is sound, so its latest state is signed by everyone, and the proof shows that.
  · intro events id c l isChannel isLatest
    obtain ⟨e, found, rfl⟩ := channel_eq_ok_iff.1 isChannel
    obtain ⟨e', found', latest⟩ := latest_eq_ok_iff.1 isLatest
    obtain rfl : e = e' := Option.some.inj (found.symm.trans found')
    have sound : e.Sound := (sound_empty.run id e found).2
    obtain ⟨unanimous, supported⟩ := sound.unanimous l latest
    refine ⟨_, unanimous.ofSigned, rfl, ?_, ?_, ?_⟩
    · show (e.channel.participants.map (signatureOf l.signed)).map (fun _ => 0) = _
      rw [List.map_map]
      exact List.map_const' ..
    · intro app?
      rw [supported]
      exact (unanimous.supports app?).validate
    · exact enforces_of_supports fun app => unanimous.supports (some app)
  -- A proof of a single state needs the signature of everyone.
  · intro c p state app? x single accepted
    obtain ⟨unanimous, rfl⟩ := unanimous_of_validate single accepted
    refine ⟨?_, unanimous.validateUnanimous⟩
    rw [← List.length_map SignedState.signer, unanimous.signers.length_eq, Channel.size]

end Store

namespace Adjudicator.Sample

/-- The store of a run from its beginning: the channel is stored, and the
state at turn 4 is supported. -/
theorem get?_run_inOrder : ∃ e l,
    (Store.empty.run (.channel channel :: inOrder.map .signed)).entries.get? channel.id = some e ∧
      e.channel = channel ∧ e.latest = some l ∧ l.state = state := by
  rw [Store.run_cons, Store.step_channel_of_ok addChannel_stored]
  obtain ⟨e, found, sameChannel, sound, collected⟩ :=
    Store.exists_collected addChannel_stored delivery_inOrder
  have supported := collected.latest_iff sound (sameChannel.symm ▸ delivery_inOrder) |>.2 (by
    rw [sameChannel]
    exact latest_inOrder)
  obtain ⟨l, isLatest, onState⟩ := Option.map_eq_some_iff.1 supported
  exact ⟨e, l, found, sameChannel, isLatest, onState⟩

/-- With what the store has after the three signatures, the challenge at
turn 4 is over, though nobody moved. And the proof of this challenge has
signatures that are accepted off the chain. -/
theorem enforceable_inOrder :
    (∃ l p next, (Store.empty.run (.channel channel :: inOrder.map .signed)).latest channel.id =
        .ok (some l) ∧ SupportProof.ofSigned channel l.signed = .ok p ∧
      ((chain.atTime 5).setStorage channel.id challenged).checkpoint channel 4 p =
        .ok (.cleared 4, next) ∧ next.status channel.id = .opened) ∧
    validateUnanimous channel (signedBy channel state proof.signatures) 4 =
      .ok (.ofState state) := by
  obtain ⟨enforceable, conversely⟩ := Store.latest_enforceable
  constructor
  · obtain ⟨e, l, found, isChannel, isLatest, onState⟩ := get?_run_inOrder
    have isLatest := Store.latest_eq_ok_iff.2 ⟨e, found, isLatest⟩
    obtain ⟨p, made, -, -, -, enforces⟩ := enforceable _ channel.id channel l
      (Store.channel_eq_ok_iff.2 ⟨e, found, isChannel⟩) isLatest
    have record : ((chain.atTime 5).setStorage channel.id challenged).storage channel.id =
        challenged := by
      rw [storage_setStorage, if_pos rfl]
    have running : ((chain.atTime 5).setStorage channel.id challenged).status channel.id ≠
        .finalized := by
      rw [status, record]
      decide
    rw [onState] at enforces
    obtain ⟨next, cleared, -, opened⟩ := enforces _ .trivial rfl running (by
      rw [record]
      exact UInt64.le_refl _)
    rw [record] at cleared
    exact ⟨l, p, next, isLatest, made, cleared, opened⟩
  · exact (conversely channel proof state _ _ rfl validate_proof).2

end Adjudicator.Sample

end StateChannels
