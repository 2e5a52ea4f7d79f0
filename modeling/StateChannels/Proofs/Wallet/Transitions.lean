import StateChannels.Proofs.Wallet.History

/-!
# `StateChannels.Proofs.Wallet.Transitions`: which state takes the place of the supported one

A wallet compares a signed state with the supported one when the signature
comes in. The state may be supported much later, and another state may be
supported by then. What makes up for this is that the last signature is
compared too, and that the turn of the supported state only grows.

The application that a state is compared under is the one of that state.
So a successor is valid if its application is known to the wallet. With an
application that is not known, a state passes whatever else it changes.

* `Store.Succeeds`: what can take the place of a supported state, in one
  event (`succeeds_step`) and in a run (`succeeds_run`).
* `valid_iff_same_app`: of every action of a wallet that can be reached
  and that replaces the supported state with one at the next turn, the
  transition is valid exactly if the application stays. Otherwise the new
  application is unknown.
* `Sample.replaced_unknownAtFive`: a wallet in which this happens.
-/

set_option autoImplicit false

namespace StateChannels

namespace Store

/-- A later state, and if it stands at the next turn, a valid one under
its own application, where this is known. -/
def Succeeds (apps : AppRegistry) (size : Nat) (p s : State) : Prop :=
  p = s ∨ p.turnNum < s.turnNum ∧ (s.turnNum.toNat = p.turnNum.toNat + 1 →
    ∀ app, apps.get? s.appDefinition = some app → app.validTransition p s size = .ok true)

variable {apps : AppRegistry} {size : Nat} {p q s : State} {store : Store} {id : Hash}
  {e : StoreEntry}

/-- Two steps are more than one turn. -/
theorem Succeeds.trans (h : Succeeds apps size p q) (h' : Succeeds apps size q s) :
    Succeeds apps size p s := by
  rcases h with rfl | ⟨later, valid⟩
  · exact h'
  · rcases h' with rfl | ⟨later', -⟩
    · exact .inr ⟨later, valid⟩
    · refine .inr ⟨UInt64.lt_trans later later', fun next => ?_⟩
      rw [UInt64.lt_iff_toNat_lt] at later later'
      omega

/-- An event keeps the supported state of a channel, or puts a later one
in its place that was allowed. -/
theorem succeeds_step (sound : store.Sound) {event : Event}
    (checked : store.Checked apps [event]) (found : store.entries.get? id = some e)
    (latest : e.latest.map SupportedState.state = some p) :
    ∃ e' q, (store.step event).entries.get? id = some e' ∧ e'.channel = e.channel ∧
      e'.latest.map SupportedState.state = some q ∧ Succeeds apps e.channel.size p q := by
  cases event with
  | channel c =>
    refine ⟨e, p, ?_, rfl, latest, .inl rfl⟩
    rw [Store.step]
    split
    · -- A channel that is stored already is refused.
      rename_i made
      obtain ⟨unused, -, rfl⟩ := addChannel_eq_ok_iff.1 made
      have other : id ≠ c.id := by
        rintro rfl
        rw [unused] at found
        cases found
      rw [Table.get?_insert_of_ne _ _ other, found]
    · exact found
  | signed x =>
    by_cases here : id = x.state.channelId
    · subst here
      obtain ⟨own, sound⟩ := sound _ e found
      have given : (store.step (.signed x)).entries.get? x.state.channelId = some (e.add x).2 :=
        get?_addSigned found
      have sameChannel := StoreEntry.channel_add e x
      rcases StoreEntry.add_cases sound.toVerified own.symm with ⟨_, -, refused⟩ |
        ⟨-, -, kept⟩ | ⟨accepted, -, supported⟩
      -- Only a signature that completes a state changes the latest one.
      · exact ⟨_, p, given, sameChannel, by rw [refused, latest], .inl rfl⟩
      · exact ⟨_, p, given, sameChannel, by rw [kept]; exact latest, .inl rfl⟩
      -- The completed state is later, and its transition was checked against the one before.
      · have after := sound.toVerified.after_iff.1 (StoreEntry.check_eq_ok_iff.1 accepted).1
        have later : p.turnNum < x.state.turnNum := by
          obtain ⟨l, isLatest, rfl⟩ := Option.map_eq_some_iff.1 latest
          exact after l isLatest
        refine ⟨_, x.state, given, sameChannel, by rw [supported]; rfl,
          .inr ⟨later, fun next app known => ?_⟩⟩
        exact checked.1 app p e.channel known (latestState_eq_ok_iff.2 ⟨e, found, latest⟩)
          (channel_eq_ok_iff.2 ⟨e, found, rfl⟩) next
    · refine ⟨e, p, ?_, rfl, latest, .inl rfl⟩
      show (store.addSigned x).2.entries.get? id = some e
      rw [get?_addSigned_of_ne store x here, found]

/-- So does every run of allowed events. -/
theorem succeeds_run {events : List Event} (sound : store.Sound)
    (checked : store.Checked apps events) (found : store.entries.get? id = some e)
    (latest : e.latest.map SupportedState.state = some p) :
    ∃ e' q, (store.run events).entries.get? id = some e' ∧ e'.channel = e.channel ∧
      e'.latest.map SupportedState.state = some q ∧ Succeeds apps e.channel.size p q := by
  -- With each event the entry may change, and the supported state in it.
  induction events generalizing store e p with
  | nil => exact ⟨e, p, found, rfl, latest, .inl rfl⟩
  | cons event events ih =>
    obtain ⟨first, rest⟩ := checked.cons
    obtain ⟨e', q, found', sameChannel, latest', succeeds⟩ :=
      succeeds_step sound first found latest
    obtain ⟨e'', s, found'', sameChannel', latest'', succeeds'⟩ :=
      ih (sound.step event) rest found' latest'
    rw [sameChannel] at succeeds' sameChannel'
    exact ⟨e'', s, found'', sameChannel', latest'', succeeds.trans succeeds'⟩

end Store

namespace Wallet

variable {w : Wallet} {signer : Signer} {config : Config} {apps : AppRegistry} {id : Hash}
  {c : Channel} {p s : State} {app : App}

/-- An action replaces the supported state of a channel by the state at
the next turn, and the application of the old state is known to the
wallet. Then the transition is valid under it exactly if the new state has
the same application, and this is the case exactly if the wallet knows the
application of the new state. -/
theorem valid_iff_same_app (created : create signer config apps = .ok w) (actions : List Action)
    (a : Action) (channel : (w.run actions).store.channel id = .ok c)
    (supported : (w.run actions).store.latestState id = .ok (some p))
    (replaced : ((w.run actions).step a).store.latestState id = .ok (some s))
    (next : s.turnNum.toNat = p.turnNum.toNat + 1)
    (known : apps.get? p.appDefinition = some app) :
    (app.validTransition p s c.size = .ok true ↔ s.appDefinition = p.appDefinition) ∧
      (s.appDefinition = p.appDefinition ↔ ∃ other, apps.get? s.appDefinition = some other) := by
  obtain ⟨sameApps, sound⟩ := sound_run created actions
  obtain ⟨events, checked, store⟩ := (leads_step (w.run actions) a).store
  rw [sameApps] at checked
  obtain ⟨e, found, rfl⟩ := Store.channel_eq_ok_iff.1 channel
  obtain ⟨e', found', latest⟩ := Store.latestState_eq_ok_iff.1 supported
  obtain rfl : e = e' := Option.some.inj (found.symm.trans found')
  obtain ⟨e', q, found', -, latest', succeeds⟩ := Store.succeeds_run sound checked found latest
  -- What the action leaves is `s`.
  obtain rfl : q = s := by
    have isLatest := Store.latestState_eq_ok_iff.2 ⟨e', found', latest'⟩
    rw [← store] at isLatest
    exact Option.some.inj (Except.ok.inj (isLatest.symm.trans replaced))
  have valid : ∀ other, apps.get? q.appDefinition = some other →
      other.validTransition p q e.channel.size = .ok true := by
    rcases succeeds with rfl | ⟨-, valid⟩
    · omega
    · exact valid next
  refine ⟨⟨fun isValid => ?_, fun same => valid app (same ▸ known)⟩,
    ⟨fun same => ⟨app, same ▸ known⟩, fun ⟨other, isKnown⟩ => ?_⟩⟩
  · exact (App.validTransition_eq_ok_true_iff.1 isValid).1.2.1
  · exact (App.validTransition_eq_ok_true_iff.1 (valid other isKnown)).1.2.1

end Wallet

/-! ### A state with another application -/

namespace Adjudicator.Sample

/-- Alice's signature on the state at turn 5. -/
def signatureOfAliceAtFive : Signature :=
  signature 0x3abd47c1bd140c6240af1daad0ac4d67b27aa61fcb8ffe5f65751563dc549676
    0x6ff4adcdf4d8bd4850becc15bed556bc64d7ee975e76faecfd5784c5dfc996fe 27

/-- Alice's signature of the state at turn five recovers her address. -/
theorem recoverSigner_signatureOfAliceAtFive :
    recoverSigner (stateAt 5).hash signatureOfAliceAtFive = .ok alice := by
  rw [hash_stateAt_five]
  exact recoverSigner_of_recovers (by decide +kernel)

/-- The state at turn 5 with an application that no one has registered. -/
def unknownAtFive : State := { stateAt 5 with appDefinition := address 1 }

/-- Alice's signature of the state with the unknown application. -/
def signatureOfAliceOnUnknown : Signature :=
  signature 0xe6a6c1c347d27a0dd337016e19adb41922f6029728d63510928504581763085a
    0x4fdaba41de3f8a57d86383f3e7d712a479c3ab8632470515fd79356fc09e15b4 28

/-- Bob's signature of the state with the unknown application. -/
def signatureOfBobOnUnknown : Signature :=
  signature 0xe27b78c645b09722573e92ae4f74c3adf7f5fe1e89f92b9e3063678814f76f81
    0x422ab7513ad287e2e83accab7f88286dc9bd6af46da45843f37ee86881fada29 27

/-- The hash of the state with the unknown application. -/
theorem hash_unknownAtFive : unknownAtFive.hash =
    digest 0x5f552d81b69ca30e6537f162fef49bbaa93eead6e4c0a02bbae2ad3e006348f1 := by
  rw [State.hash, State.token, show unknownAtFive.channelId = channel.id from rfl, id_channel,
    show unknownAtFive.outcome = outcome from rfl, hash_outcome,
    Abi.Token.argsHash, keccak256_eq]
  decide +kernel

/-- Alice's signature of the unknown application's state recovers her
address. -/
theorem recoverSigner_signatureOfAliceOnUnknown :
    recoverSigner unknownAtFive.hash signatureOfAliceOnUnknown = .ok alice := by
  rw [hash_unknownAtFive]
  exact recoverSigner_of_recovers (by decide +kernel)

/-- Bob's signature of the unknown application's state recovers his address. -/
theorem recoverSigner_signatureOfBobOnUnknown :
    recoverSigner unknownAtFive.hash signatureOfBobOnUnknown = .ok bob := by
  rw [hash_unknownAtFive]
  exact recoverSigner_of_recovers (by decide +kernel)

/-- Both sign the state at turn 4. -/
def toFour : List Wallet.Action := agreeOn state signatureOfAlice signatureOfBob

/-- At turn four the channel has a state that both of them signed. -/
theorem settled_toFour : Settled ((wallet anyApps).run toFour) (some state) :=
  settled_agreeOn anyApps rfl recoverSigner_signatureOfAlice recoverSigner_signatureOfBob

/-- The calls leave the applications as they were registered. -/
theorem apps_toFour : ((wallet anyApps).run toFour).apps = anyApps :=
  (Wallet.leads_run (wallet anyApps) toFour).apps

/-- The state at turn 5 with the same application takes the place of the
one at turn 4, so the transition is valid. -/
theorem valid_iff_same_app_atFive :
    ((wallet anyApps).run toFour).store.latestState channel.id = .ok (some state) ∧
    (((wallet anyApps).run toFour).step (.message bob
      (signedByBoth (stateAt 5) signatureOfAliceAtFive signatureAtFive))).store.latestState
        channel.id = .ok (some (stateAt 5)) ∧
    App.trivial.validTransition state (stateAt 5) channel.size = .ok true := by
  have own : (stateAt 5).channelId = channel.id := rfl
  have known : anyApps.get? (stateAt 5).appDefinition = some .trivial := rfl
  have passed : ((wallet anyApps).run toFour).checkTransition (stateAt 5) = .ok () := by
    refine Wallet.checkTransition_of_valid (by rw [apps_toFour]; exact known)
      (by rw [own]; exact settled_toFour.latestState)
      (by rw [own]; exact settled_toFour.isChannel) ?_
    exact validTransition_stateAt (t := 4) rfl (by decide)
  have later : ∀ p ∈ some state, p.turnNum < (stateAt 5).turnNum := by
    rintro _ ⟨⟩
    decide
  have settled := settled_toFour.signedByBoth own later recoverSigner_signatureOfAliceAtFive
    recoverSigner_signatureAtFive passed
  rw [← Wallet.step_message] at settled
  refine ⟨settled_toFour.latestState, settled.latestState, ?_⟩
  exact (Wallet.valid_iff_same_app (create_wallet anyApps) toFour _ settled_toFour.isChannel
    settled_toFour.latestState settled.latestState rfl known).1.2 rfl

/-- The state at turn 5 with an unknown application takes this place as
well. Under the application of the channel the transition is not valid. -/
theorem replaced_unknownAtFive :
    Wallet.create aliceKey {} anyApps = .ok (wallet anyApps) ∧
    ((wallet anyApps).run toFour).store.channel channel.id = .ok channel ∧
    ((wallet anyApps).run toFour).store.latestState channel.id = .ok (some state) ∧
    (((wallet anyApps).run toFour).handleMessage bob
      (signedByBoth unknownAtFive signatureOfAliceOnUnknown
        signatureOfBobOnUnknown)).2.store.latestState channel.id = .ok (some unknownAtFive) ∧
    unknownAtFive.turnNum.toNat = state.turnNum.toNat + 1 ∧
    anyApps.get? state.appDefinition = some .trivial ∧
    App.trivial.validTransition state unknownAtFive channel.size = .ok false := by
  have own : unknownAtFive.channelId = channel.id := rfl
  -- The application of the new state is not registered, so nothing is checked.
  have passed : ((wallet anyApps).run toFour).checkTransition unknownAtFive = .ok () := by
    refine Wallet.checkTransition_of_unknown ?_
    rw [apps_toFour]
    rfl
  have later : ∀ p ∈ some state, p.turnNum < unknownAtFive.turnNum := by
    rintro _ ⟨⟩
    decide
  have settled := settled_toFour.signedByBoth own later recoverSigner_signatureOfAliceOnUnknown
    recoverSigner_signatureOfBobOnUnknown passed
  refine ⟨create_wallet anyApps, settled_toFour.isChannel, settled_toFour.latestState,
    settled.latestState, rfl, rfl, ?_⟩
  -- The registered application would refuse the transition, as the definitions differ.
  have otherApp : ¬(unknownAtFive.follows state ∧
      unknownAtFive.appDefinition = state.appDefinition ∧
      unknownAtFive.challengeDuration = state.challengeDuration) := by
    rintro ⟨-, same, -⟩
    exact absurd same (by decide)
  rw [App.validTransition, if_pos otherApp]

end Adjudicator.Sample

end StateChannels
