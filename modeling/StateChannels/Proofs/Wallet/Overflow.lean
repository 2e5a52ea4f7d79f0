import StateChannels.Proofs.Support.Overflow
import StateChannels.Proofs.Wallet.History

/-!
# `StateChannels.Proofs.Wallet.Overflow`: the messages that bring a wallet down

A wallet drops what it can not use, so that a message from outside can do
no harm. But before anything else is looked at, the signature included, a
state is compared with the supported one. There two sums may not fit
(`Stops`): the turn after the supported one, and the count of votes.

* `checkTransition_eq_overflow_iff`, `handleSigned_eq_overflow_iff`: the
  states that stop the comparison.
* `handleAllSigned_ok_iff`: a list of signed states is taken in to its end
  unless one of them stops the wallet that took in those before it.
* `events_iff`: this for messages and for frames, of every wallet that can
  be reached.
-/

set_option autoImplicit false

namespace StateChannels

namespace Wallet

variable {w : Wallet} {s prev : State} {c : Channel} {app : App} {o : Overflow}

/-- To compare the state with the supported one comes to a stop. The
supported state has no next turn, or the rule of the application stops. -/
def Stops (w : Wallet) (s : State) (o : Overflow) : Prop :=
  ∃ app prev c, w.apps.get? s.appDefinition = some app ∧
    w.store.latestState s.channelId = .ok (some prev) ∧ w.store.channel s.channelId = .ok c ∧
    (o = .addition ∧ prev.turnNum.toNat + 1 = 2 ^ 64 ∨ app.Stops prev s c.size o)

/-- The wallet after a list of signed states, whatever became of them. -/
def takeAll (w : Wallet) (states : List SignedState) : Wallet :=
  states.foldl (fun w signed => (w.handleSigned signed).2) w

/-- Without states the wallet stays as it is. -/
@[simp] theorem takeAll_nil (w : Wallet) : w.takeAll [] = w := rfl

/-- The first of several states is taken before the others. -/
@[simp] theorem takeAll_cons (w : Wallet) (signed : SignedState) (states : List SignedState) :
    w.takeAll (signed :: states) = (w.handleSigned signed).2.takeAll states := rfl

/-- A supported state belongs to a channel that is stored. -/
theorem exists_channel {state? : Option State} {id : Hash}
    (latest : w.store.latestState id = .ok state?) : ∃ c, w.store.channel id = .ok c := by
  obtain ⟨e, found, -⟩ := Store.latestState_eq_ok_iff.1 latest
  exact ⟨e.channel, Store.channel_eq_ok_iff.2 ⟨e, found, rfl⟩⟩

/-- With a supported state and its application, the check overflows where
that state has no next turn, or where the application stops on the
transition. -/
theorem checkTransition_of_supported_eq_overflow_iff (provided : app.Provided)
    (registered : w.apps.get? s.appDefinition = some app)
    (latest : w.store.latestState s.channelId = .ok (some prev))
    (channel : w.store.channel s.channelId = .ok c) :
    w.checkTransition s = .error (.overflow o) ↔
      o = .addition ∧ prev.turnNum.toNat + 1 = 2 ^ 64 ∨ app.Stops prev s c.size o := by
  rw [checkTransition_of_supported registered latest channel, bind_eq_error_iff,
    Failure.ofCounter_eq_overflow_iff, TurnNum.succ_eq_error_iff]
  refine or_congr_right ?_
  rw [← provided.validTransition_eq_error_iff]
  constructor
  · rintro ⟨following, -, stopped⟩
    split at stopped
    · rcases bind_eq_error_iff.1 stopped with stopped | ⟨valid, -, stopped⟩
      · exact Failure.ofCounter_eq_overflow_iff.1 stopped
      · cases valid <;> cases stopped
    · cases stopped
  · intro stopped
    have next := (App.validTransition_eq_error_iff_accepts.1 stopped).1.follows
    have next := (State.follows_iff.1 next).2
    refine ⟨s.turnNum, Failure.ofCounter_eq_ok_iff.2 (TurnNum.succ_eq_ok_iff.2 next), ?_⟩
    rw [if_pos rfl, stopped]
    rfl

/-- The check of a state overflows when the state stops the wallet. -/
theorem checkTransition_eq_overflow_iff (provided : w.apps.Provided) :
    w.checkTransition s = .error (.overflow o) ↔ w.Stops s o := by
  constructor
  · intro stopped
    -- Where a lookup finds nothing the check passes or refuses, so all of them found something.
    cases registered : w.apps.get? s.appDefinition with
    | none =>
      rw [checkTransition_of_unknown registered] at stopped
      cases stopped
    | some app =>
      cases latest : w.store.latestState s.channelId with
      | error e =>
        rw [checkTransition, registered, latest] at stopped
        cases stopped
      | ok state? =>
        cases state? with
        | none =>
          rw [checkTransition_of_unsupported latest] at stopped
          cases stopped
        | some prev =>
          obtain ⟨c, channel⟩ := exists_channel latest
          exact ⟨app, prev, c, registered, latest, channel,
            (checkTransition_of_supported_eq_overflow_iff (provided _ app registered) registered
              latest channel).1 stopped⟩
  · rintro ⟨app, prev, c, registered, latest, channel, stops⟩
    exact (checkTransition_of_supported_eq_overflow_iff (provided _ app registered) registered
      latest channel).2 stops

/-- The store only refuses. So nothing but the comparison can stop a
signed state. -/
theorem handleSigned_eq_overflow_iff (provided : w.apps.Provided) {signed : SignedState} :
    (w.handleSigned signed).1 = .error (.overflow o) ↔ w.Stops signed.state o := by
  rw [← checkTransition_eq_overflow_iff provided, handleSigned]
  cases w.checkTransition signed.state with
  | error e => simp
  | ok =>
    rcases w.store.addSigned signed with ⟨result, store⟩
    cases result <;> simp [refuse]

/-- Signed states are taken in one after the other. There are events in
the end, unless one of them stops the wallet that took in those before. -/
theorem handleAllSigned_ok_iff (provided : w.apps.Provided) {states : List SignedState} :
    (∃ events, (w.handleAllSigned states).1 = .ok events) ↔
      ∀ before signed after, states = before ++ signed :: after →
        ∀ o, ¬(w.takeAll before).Stops signed.state o := by
  induction states generalizing w with
  | nil => simp [handleAllSigned]
  | cons signed states ih =>
    rcases handled : w.handleSigned signed with ⟨result, next⟩
    have next_eq : (w.handleSigned signed).2 = next := by rw [handled]
    have provided' : next.apps.Provided := by
      rw [(Edits.snd (edits_handleSigned w signed) handled).leads.apps]
      exact provided
    -- What comes after the first one comes to the wallet that took it in.
    have split : (∀ before signed' after, signed :: states = before ++ signed' :: after →
          ∀ o, ¬(w.takeAll before).Stops signed'.state o) ↔
        (∀ o, ¬w.Stops signed.state o) ∧
          ∃ events, (next.handleAllSigned states).1 = .ok events := by
      rw [ih provided']
      constructor
      · intro none
        refine ⟨none [] signed states rfl, fun before signed' after split => ?_⟩
        have later := none (signed :: before) signed' after (by rw [split]; rfl)
        rw [takeAll_cons, next_eq] at later
        exact later
      · rintro ⟨first, later⟩ before signed' after split
        cases before with
        | nil =>
          cases split
          exact first
        | cons _ before =>
          cases split
          rw [takeAll_cons, next_eq]
          exact later before signed' after rfl
    rw [split, handleAllSigned]
    have stops_iff : ∀ o, result = .error (.overflow o) ↔ w.Stops signed.state o := by
      intro o
      rw [← handleSigned_eq_overflow_iff provided, handled]
    simp only [← stops_iff, handled]
    rcases result with (o | e) | event
    · simp
    · simp
    · show (∃ events, (next.handleAllSigned states).1.map (event.toList ++ ·) = .ok events) ↔ _
      cases (next.handleAllSigned states).1 <;> simp [Except.map]

/-- A wallet with applications of this library, after whatever actions,
has events for a message in all cases but one: the message has signed
states, and one of them stops the wallet that took in those before it.
The same is true of the message in a frame. A frame that can not be read
gives events too, namely none. -/
theorem events_iff {signer : Signer} {config : Config} {apps : AppRegistry}
    (created : create signer config apps = .ok w) (provided : apps.Provided)
    (actions : List Action) :
    (∀ sender m, (∃ events, ((w.run actions).handleMessage sender m).1 = .ok events) ↔
      ∀ before signed after, m = .signedStates (before ++ signed :: after) →
        ∀ o, ¬((w.run actions).takeAll before).Stops signed.state o) ∧
    ∀ bytes, (∃ events, ((w.run actions).handleBytes bytes).1 = .ok events) ↔
      ∀ sender before signed after,
        Envelope.open? bytes = .ok (sender, .signedStates (before ++ signed :: after)) →
        ∀ o, ¬((w.run actions).takeAll before).Stops signed.state o := by
  have provided : (w.run actions).apps.Provided := by
    rw [(sound_run created actions).1]
    exact provided
  have message : ∀ sender m, (∃ events, ((w.run actions).handleMessage sender m).1 = .ok events) ↔
      ∀ before signed after, m = .signedStates (before ++ signed :: after) →
        ∀ o, ¬((w.run actions).takeAll before).Stops signed.state o := by
    intro sender m
    cases m with
    | signedStates states =>
      simp only [Message.signedStates.injEq]
      exact handleAllSigned_ok_iff provided
    | strategy m =>
      -- A step of a negotiation ends in events, whatever its result is.
      refine iff_of_true ?_ (by rintro _ _ _ ⟨⟩)
      unfold handleMessage
      simp only
      split <;> exact ⟨_, rfl⟩
  refine ⟨message, fun bytes => ?_⟩
  unfold handleBytes
  cases opened : Envelope.open? bytes with
  | error e =>
    refine iff_of_true ⟨[], rfl⟩ ?_
    rintro _ _ _ _ ⟨⟩
  | ok envelope =>
    obtain ⟨sender, m⟩ := envelope
    simp only [message, Except.ok.injEq, Prod.mk.injEq]
    constructor
    · rintro none _ before signed after ⟨-, split⟩
      exact none before signed after split
    · intro none before signed after split
      exact none sender before signed after ⟨rfl, split⟩

end Wallet

/-! ### A supported state without a next turn -/

namespace Adjudicator.Sample

/-- The largest turn. -/
def lastTurn : TurnNum := UInt64.ofNat (2 ^ 64 - 1)

/-- There is no turn after the largest. -/
theorem toNat_lastTurn : lastTurn.toNat + 1 = 2 ^ 64 := rfl

/-- Alice's signature on the state at the largest turn. -/
def signatureOfAliceAtLast : Signature :=
  signature 0xf4c056040a1bdc54ab50cbb193ee7ac83dc26fc965a44779dd502b632be4be77
    0x089313172693b9112a16ecc1ac82e8194c854a5ed794090e5703543eb962d65e 28

/-- Bob's signature on the state at the largest turn. -/
def signatureOfBobAtLast : Signature :=
  signature 0xe179ef7191997d0926f74fa958ea32d2e5c3ae63fa4080191e5a3b46b9c8f34b
    0x5e144af83067013116f87c9f5f24582ba2594c2f2ea24232f10b3c2aa00b53e2 27

/-- The hash of the state at the largest turn. -/
theorem hash_stateAt_last : (stateAt lastTurn).hash =
    digest 0x2eb48768fcf4c023b6949cf6717fd4b5395aede5e3e7224afb986826f5a85305 := by
  rw [State.hash, Abi.Token.argsHash, keccak256_eq, token_stateAt]
  decide +kernel

/-- Alice's signature at the largest turn recovers her address. -/
theorem recoverSigner_signatureOfAliceAtLast :
    recoverSigner (stateAt lastTurn).hash signatureOfAliceAtLast = .ok alice := by
  rw [hash_stateAt_last]
  exact recoverSigner_of_recovers (by decide +kernel)

/-- Bob's signature at the largest turn recovers his address. -/
theorem recoverSigner_signatureOfBobAtLast :
    recoverSigner (stateAt lastTurn).hash signatureOfBobAtLast = .ok bob := by
  rw [hash_stateAt_last]
  exact recoverSigner_of_recovers (by decide +kernel)

/-- Only a provided application is registered. -/
theorem provided_anyApps : anyApps.Provided :=
  AppRegistry.provided_empty.insert (.inl rfl) .zero

/-- Both sign the state at the largest turn. -/
def toLast : List Wallet.Action :=
  agreeOn (stateAt lastTurn) signatureOfAliceAtLast signatureOfBobAtLast

/-- Then the state at the largest turn is supported, and both signed it. -/
theorem settled_toLast : Settled ((wallet anyApps).run toLast) (some (stateAt lastTurn)) :=
  settled_agreeOn anyApps rfl recoverSigner_signatureOfAliceAtLast
    recoverSigner_signatureOfBobAtLast

/-- From then on each state of the channel stops the wallet. -/
theorem stops_toLast {s : State} (own : s.channelId = channel.id)
    (known : s.appDefinition = .zero) :
    ((wallet anyApps).run toLast).Stops s .addition := by
  have registered : ((wallet anyApps).run toLast).apps.get? s.appDefinition = some .trivial := by
    rw [(Wallet.leads_run (wallet anyApps) toLast).apps, known]
    rfl
  refine ⟨.trivial, stateAt lastTurn, channel, registered, ?_, ?_, .inl ⟨rfl, toNat_lastTurn⟩⟩
  · rw [own]
    exact settled_toLast.latestState
  · rw [own]
    exact settled_toLast.isChannel

/-- A message with Alice's own signature on an old state brings her wallet
down. -/
theorem handleMessage_toLast :
    Wallet.create aliceKey {} anyApps = .ok (wallet anyApps) ∧ anyApps.Provided ∧
      (((wallet anyApps).run toLast).handleMessage bob (.signedStates [byAlice])).1 =
        .error .addition := by
  refine ⟨create_wallet anyApps, provided_anyApps, ?_⟩
  have provided : ((wallet anyApps).run toLast).apps.Provided := by
    rw [(Wallet.leads_run (wallet anyApps) toLast).apps]
    exact provided_anyApps
  have stopped : (((wallet anyApps).run toLast).handleSigned byAlice).1 =
      .error (.overflow .addition) :=
    (Wallet.handleSigned_eq_overflow_iff provided).2 (stops_toLast rfl rfl)
  show (((wallet anyApps).run toLast).handleAllSigned [byAlice]).1 = _
  rw [Wallet.handleAllSigned]
  rcases handled : ((wallet anyApps).run toLast).handleSigned byAlice with ⟨result, next⟩
  rw [handled] at stopped
  cases stopped
  rfl

/-- When Alice's wallet is new to the channel it takes in her signature.
After both signed the state at the largest turn, it has no events for the
same message, but still for a frame that can not be read. -/
theorem events_iff_toLast :
    (∃ events, (((wallet anyApps).run [.addChannel channel]).handleMessage bob
      (.signedStates [byAlice])).1 = .ok events) ∧
    (¬∃ events, (((wallet anyApps).run toLast).handleMessage bob
      (.signedStates [byAlice])).1 = .ok events) ∧
    ∃ events, (((wallet anyApps).run toLast).handleBytes []).1 = .ok events := by
  have isNew := Wallet.events_iff (create_wallet anyApps) provided_anyApps [.addChannel channel]
  have atLast := Wallet.events_iff (create_wallet anyApps) provided_anyApps toLast
  refine ⟨(isNew.1 bob _).2 ?_, fun events => ?_, (atLast.2 []).2 ?_⟩
  · intro before signed after split o stops
    have split := Message.signedStates.inj split
    obtain ⟨rfl, rfl⟩ : before = [] ∧ signed = byAlice := by
      cases before with
      | nil => exact ⟨rfl, (List.cons.inj split).1.symm⟩
      | cons _ before => cases before <;> cases split
    -- There is no supported state yet.
    obtain ⟨_, prev, _, -, latest, -⟩ := stops
    rw [Wallet.run_cons, step_addChannel, Wallet.run_nil] at latest
    cases latestState_stored.symm.trans latest
  · have stops : ((wallet anyApps).run toLast).Stops byAlice.state .addition :=
      stops_toLast rfl rfl
    have none := (atLast.1 bob _).1 events [] byAlice [] rfl .addition
    rw [Wallet.takeAll_nil] at none
    exact none stops
  · intro sender before signed after opened
    have unreadable : ∃ e, Envelope.open? [] = .error e := ⟨_, rfl⟩
    obtain ⟨e, unreadable⟩ := unreadable
    rw [unreadable] at opened
    cases opened

end Adjudicator.Sample

end StateChannels
