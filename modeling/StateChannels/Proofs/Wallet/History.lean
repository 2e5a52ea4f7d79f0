import StateChannels.Proofs.Store.Convergence
import StateChannels.Proofs.Wallet.Edits

/-!
# `StateChannels.Proofs.Wallet.History`: runs of a wallet

A run of a wallet is a list of actions: its owner calls one of its
operations, or a message comes in. An operation that is refused leaves
some of its effects behind, so every list of actions is a run, whatever
the results are.

Of all the parts of a wallet the store decides what it holds to be
supported. The wallet does not give a signed state to its store before it
has compared it with the supported state (`checkTransition`).

* `allows_of_checkTransition`: what this comparison makes sure of.
* `Leads`: a wallet comes from another one by events for the store, of
  which each signed state was allowed when its turn came.
* `edits_step`, `edits_run`: an action is a sequence of edits, and so is a
  run.
* `leads_step` and `leads_run`: so a wallet leads to the one after them.
-/

set_option autoImplicit false

namespace StateChannels

namespace Store

/-- The state is a valid successor of the supported one, if it stands at
the next turn. The application that is asked is that of the state
itself. -/
def Allows (apps : AppRegistry) (store : Store) (s : State) : Prop :=
  ∀ app prev c, apps.get? s.appDefinition = some app →
    store.latestState s.channelId = .ok (some prev) → store.channel s.channelId = .ok c →
    s.turnNum.toNat = prev.turnNum.toNat + 1 → app.validTransition prev s c.size = .ok true

/-- Each signed state is allowed in the store that it is given to. -/
def Checked (apps : AppRegistry) : Store → List Event → Prop
  | _, [] => True
  | store, .channel c :: events => Checked apps (store.step (.channel c)) events
  | store, .signed s :: events =>
    store.Allows apps s.state ∧ Checked apps (store.step (.signed s)) events

variable {apps : AppRegistry} {store : Store}

/-- The first event was allowed, and so were the others, in the store after
it. -/
theorem Checked.cons {event : Event} {events : List Event}
    (h : store.Checked apps (event :: events)) :
    store.Checked apps [event] ∧ (store.step event).Checked apps events := by
  cases event with
  | channel c => exact ⟨trivial, h⟩
  | signed s => exact ⟨⟨h.1, trivial⟩, h.2⟩

/-- Two parts that were allowed one after the other were allowed together. -/
theorem Checked.append {before after : List Event} (h : store.Checked apps before)
    (h' : (store.run before).Checked apps after) : store.Checked apps (before ++ after) := by
  induction before generalizing store with
  | nil => exact h'
  | cons event before ih =>
    cases event with
    | channel c => exact ih h h'
    | signed s => exact ⟨h.1, ih h.2 h'⟩

end Store

namespace Wallet

variable {w w' w'' : Wallet} {s prev : State} {c : Channel} {app : App}

/-! ### The comparison with the supported state -/

/-- With a supported state and a known application, the comparison asks the
application if the state stands at the next turn. -/
theorem checkTransition_of_supported (registered : w.apps.get? s.appDefinition = some app)
    (latest : w.store.latestState s.channelId = .ok (some prev))
    (channel : w.store.channel s.channelId = .ok c) :
    w.checkTransition s = (do
      let following ← Failure.ofCounter prev.turnNum.succ
      if s.turnNum = following then
        if !(← Failure.ofCounter (app.validTransition prev s c.size)) then
          .error (.refused (.invalidTransition s.turnNum))) := by
  rw [checkTransition, registered, latest, channel]
  rfl

/-- Without a supported state there is nothing to compare with. -/
theorem checkTransition_of_unsupported (latest : w.store.latestState s.channelId = .ok none) :
    w.checkTransition s = .ok () := by
  rw [checkTransition, latest]
  cases w.apps.get? s.appDefinition <;> rfl

/-- A state whose application is not known is not compared. -/
theorem checkTransition_of_unknown (unknown : w.apps.get? s.appDefinition = none) :
    w.checkTransition s = .ok () := by
  rw [checkTransition, unknown]

/-- The comparison looks at nothing but the applications, the supported
state and the channel. -/
theorem checkTransition_congr (apps : w'.apps = w.apps)
    (latest : w'.store.latestState s.channelId = w.store.latestState s.channelId)
    (channel : w'.store.channel s.channelId = w.store.channel s.channelId) :
    w'.checkTransition s = w.checkTransition s := by
  rw [checkTransition, checkTransition, apps, latest, channel]

/-- A valid successor of the supported state passes. -/
theorem checkTransition_of_valid (registered : w.apps.get? s.appDefinition = some app)
    (latest : w.store.latestState s.channelId = .ok (some prev))
    (channel : w.store.channel s.channelId = .ok c)
    (valid : app.validTransition prev s c.size = .ok true) : w.checkTransition s = .ok () := by
  have next := (State.follows_iff.1 (App.validTransition_eq_ok_true_iff.1 valid).1.1).2
  rw [checkTransition_of_supported registered latest channel, TurnNum.succ_eq_ok_iff.2 next, valid]
  exact if_pos rfl

/-- A state that passes the comparison is a valid successor of the supported
one, if it stands at the next turn. -/
theorem allows_of_checkTransition (passed : w.checkTransition s = .ok ()) :
    w.store.Allows w.apps s := by
  intro app prev c registered latest channel next
  rw [checkTransition_of_supported registered latest channel] at passed
  obtain ⟨following, isNext, passed⟩ := bind_eq_ok_iff.1 passed
  have isNext := TurnNum.succ_eq_ok_iff.1 (Failure.ofCounter_eq_ok_iff.1 isNext)
  rw [if_pos (UInt64.toNat_inj.1 (next.trans isNext.symm))] at passed
  obtain ⟨valid, checked, passed⟩ := bind_eq_ok_iff.1 passed
  cases valid with
  | true => exact Failure.ofCounter_eq_ok_iff.1 checked
  | false => cases passed

/-! ### What an operation does to the store -/

/-- A wallet with the same applications, whose store has been given
events. Every signed state among them was compared with the supported one
first. -/
structure Leads (w w' : Wallet) : Prop where
  apps : w'.apps = w.apps
  store : ∃ events, w.store.Checked w.apps events ∧ w'.store = w.store.run events

/-- A wallet leads to itself. -/
theorem Leads.refl (w : Wallet) : w.Leads w := ⟨rfl, [], trivial, rfl⟩

/-- What leads to a wallet leads to where this one leads. -/
theorem Leads.trans (h : w.Leads w') (h' : w'.Leads w'') : w.Leads w'' := by
  obtain ⟨events, checked, store⟩ := h.store
  obtain ⟨events', checked', store'⟩ := h'.store
  rw [h.apps, store] at checked'
  exact ⟨h'.apps.trans h.apps, events ++ events', checked.append checked',
    by rw [store', store, Store.run_append]⟩

/-- A channel that the store takes is an event for it. -/
theorem leads_of_channel {c : Channel} {id : Hash} {store : Store}
    (made : w.store.addChannel c = .ok (id, store)) : w.Leads { w with store } :=
  ⟨rfl, [.channel c], trivial, (Store.step_channel_of_ok made).symm⟩

/-- A signed state that was compared, whether the store takes it or
not. -/
theorem leads_of_signed {signed : SignedState} {store : Store}
    {result : Except StoreError (Option Supported)}
    (passed : w.checkTransition signed.state = .ok ())
    (added : w.store.addSigned signed = (result, store)) : w.Leads { w with store } := by
  refine ⟨rfl, [.signed signed], ⟨allows_of_checkTransition passed, trivial⟩, ?_⟩
  show store = (w.store.addSigned signed).2
  rw [added]

/-- The other parts of a wallet do not count. -/
theorem Leads.of_eq (h : w.Leads w') (apps : w''.apps = w'.apps) (store : w''.store = w'.store) :
    w.Leads w'' := ⟨apps.trans h.apps, by rw [store]; exact h.store⟩

/-- A message with one signed state. -/
theorem handleMessage_of_handleSigned {signed : SignedState} {event : Option Event}
    (handled : w.handleSigned signed = (.ok event, w')) (sender : Address) :
    w.handleMessage sender (.signedStates [signed]) = (.ok event.toList, w') := by
  show w.handleAllSigned [signed] = _
  simp [handleAllSigned, handled, Except.map]

/-- A proposal that is made and finds room in the queue. -/
theorem proposeStrategy_of_queued {target : Hash} {n n' : Negotiation} {strategy : Strategy}
    {m : StrategyMessage} (stored : w.store.channel target = .ok c)
    (current : w.negotiation c target = .ok n) (proposed : n.propose strategy = (.ok m, n'))
    (queued : (w.setNegotiation target n').broadcast c.participants (.strategy m) = (.ok (), w')) :
    w.proposeStrategy target strategy = (.ok (), w') := by
  rw [proposeStrategy, stored]
  simp only [current, proposed, queued]

/-- Of the writes of an operation those to the store count. -/
theorem Edit.leads (h : Edit w w') : w.Leads w' := by
  cases h with
  | accept strategies => exact (Leads.refl w).of_eq rfl rfl
  | flush => exact (Leads.refl w).of_eq rfl rfl
  | channel made => exact leads_of_channel made
  | signed passed added => exact leads_of_signed passed added
  | broadcast participants m => exact (Leads.refl w).of_eq rfl rfl
  | negotiation stored current terms => exact (Leads.refl w).of_eq rfl rfl

/-- So any number of writes is a list of events for the store. -/
theorem Edits.leads (h : Edits w w') : w.Leads w' :=
  h.keep (fun edit leads => leads.trans edit.leads) (.refl w)

/-- A signed state that passes the comparison and is not refused goes into
the entry of its channel. -/
theorem handleSigned_of_added {e e' : StoreEntry} {x : Option Supported}
    (signed : SignedState) (passed : w.checkTransition signed.state = .ok ())
    (found : w.store.entries.get? signed.state.channelId = some e)
    (added : e.add signed = (.ok x, e')) :
    w.handleSigned signed = (.ok (x.map (Event.supported signed.state.channelId)),
      { w with store := ⟨w.store.entries.insert signed.state.channelId e'⟩ }) := by
  rw [handleSigned, passed, Store.addSigned_of_found found, added]

/-! ### Actions -/

/-- What can be done with a wallet. The owner calls an operation, or
something comes in. -/
inductive Action where
  | accept (strategies : List Strategy)
  | addChannel (c : Channel)
  | flush
  | sign (s : State)
  | proposeLedgerFunding (ledger : Hash) (assetHolder : Address) (channelId : Hash)
      (target : Allocation)
  | voteOnLedger (ledger : Hash)
  | fundVirtually (jointId ledger : Hash) (assetHolder : Address) (target : Hash)
      (nonce : Uint256)
  | proposeStrategy (target : Hash) (strategy : Strategy)
  | message (sender : Address) (m : Message)
  | frame (bytes : Bytes)
deriving DecidableEq

/-- The wallet after an action, whatever its result. -/
def step (w : Wallet) : Action → Wallet
  | .accept strategies => { w with acceptable := strategies }
  | .addChannel c => (w.addChannel c).2
  | .flush => w.flush.2
  | .sign s => (w.signAndSend s).2
  | .proposeLedgerFunding ledger assetHolder channelId target =>
    (w.proposeLedgerFunding ledger assetHolder channelId target).2
  | .voteOnLedger ledger => (w.voteOnLedger ledger).2
  | .fundVirtually jointId ledger assetHolder target nonce =>
    (w.fundVirtually jointId ledger assetHolder target nonce).2
  | .proposeStrategy target strategy => (w.proposeStrategy target strategy).2
  | .message sender m => (w.handleMessage sender m).2
  | .frame bytes => (w.handleBytes bytes).2

/-- The wallet after a run. -/
def run (w : Wallet) (actions : List Action) : Wallet := actions.foldl step w

/-- Without actions the wallet stays as it is. -/
@[simp] theorem run_nil (w : Wallet) : w.run [] = w := rfl

/-- A run goes on from the wallet after its first action. -/
@[simp] theorem run_cons (w : Wallet) (a : Action) (actions : List Action) :
    w.run (a :: actions) = (w.step a).run actions := rfl

/-- The last action is done with the wallet after the others. -/
theorem run_concat (w : Wallet) (actions : List Action) (a : Action) :
    w.run (actions ++ [a]) = (w.run actions).step a := by
  rw [run, List.foldl_append]
  rfl

/-- A proposal leaves the wallet that it gives back, made or refused. -/
theorem step_proposeStrategy (w : Wallet) (target : Hash) (strategy : Strategy) :
    w.step (.proposeStrategy target strategy) = (w.proposeStrategy target strategy).2 := rfl

/-- So does a message that comes in. -/
theorem step_message (w : Wallet) (sender : Address) (m : Message) :
    w.step (.message sender m) = (w.handleMessage sender m).2 := rfl

/-- Whatever the action is, it is a sequence of writes. -/
theorem edits_step (w : Wallet) (a : Action) : Edits w (w.step a) := by
  cases a with
  | accept strategies => exact .single (.accept w strategies)
  | addChannel c => exact edits_addChannel w c
  | flush => exact .single (.flush w)
  | sign s => exact edits_signAndSend w s
  | proposeLedgerFunding => exact edits_signAndSendNext ..
  | voteOnLedger => exact edits_signAndSendNext ..
  | fundVirtually => exact edits_fundVirtually ..
  | proposeStrategy target strategy => exact edits_proposeStrategy w target strategy
  | message sender m => exact edits_handleMessage w sender m
  | frame bytes => exact edits_handleBytes w bytes

/-- So is a run. -/
theorem edits_run (w : Wallet) (actions : List Action) : Edits w (w.run actions) := by
  induction actions generalizing w with
  | nil => exact .refl
  | cons a actions ih => exact (edits_step w a).trans (ih (w.step a))

/-- An action gives the store signed states that were compared first. -/
theorem leads_step (w : Wallet) (a : Action) : w.Leads (w.step a) := (edits_step w a).leads

/-- So does a run. -/
theorem leads_run (w : Wallet) (actions : List Action) : w.Leads (w.run actions) :=
  (edits_run w actions).leads

/-- A new wallet has the given applications and an empty store. -/
theorem of_create {signer : Signer} {config : Config} {apps : AppRegistry}
    (created : create signer config apps = .ok w) : w.apps = apps ∧ w.store = .empty := by
  obtain ⟨-, created⟩ := check_bind_eq_ok_iff.1 created
  cases created
  exact ⟨rfl, rfl⟩

/-- The store of a wallet is sound along every run. -/
theorem sound_run {signer : Signer} {config : Config} {apps : AppRegistry}
    (created : create signer config apps = .ok w) (actions : List Action) :
    (w.run actions).apps = apps ∧ (w.run actions).store.Sound := by
  obtain ⟨isApps, isEmpty⟩ := of_create created
  obtain ⟨events, -, store⟩ := (leads_run w actions).store
  rw [isEmpty] at store
  exact ⟨(leads_run w actions).apps.trans isApps, store ▸ Store.sound_empty.run⟩

end Wallet

/-! ### Alice's wallet -/

namespace Adjudicator.Sample

/-- Alice's key. -/
def aliceKey : Signer := ⟨1, by decide, by decide⟩

/-- The key 1 has Alice's account. -/
theorem address_aliceKey : aliceKey.address = alice := by decide +kernel

/-- Alice's wallet when it is new. -/
def wallet (apps : AppRegistry) : Wallet where
  signer := aliceKey
  config := {}
  apps
  store := .empty
  outbox := .empty 64 .dropOldest
  negotiations := ∅
  acceptable := [.direct, .ledger, .virtual]

/-- The default settings are valid. -/
theorem create_wallet (apps : AppRegistry) :
    Wallet.create aliceKey {} apps = .ok (wallet apps) := rfl

/-- Both signatures on a state, in one message from Bob. -/
def signedByBoth (s : State) (ofAlice ofBob : Signature) : Message :=
  .signedStates [⟨s, alice, ofAlice⟩, ⟨s, bob, ofBob⟩]

/-- The wallet has the channel, with this supported state, and nothing is
pending. -/
def Settled (w : Wallet) (state? : Option State) : Prop :=
  ∃ e, w.store.entries.get? channel.id = some e ∧ e.channel = channel ∧ e.Sound ∧
    e.pending = [] ∧ e.latest.map SupportedState.state = state?

variable {w : Wallet} {s : State} {state? : Option State} {ofAlice ofBob : Signature}

/-- The supported state is the one that is settled. -/
theorem Settled.latestState {w : Wallet} {state? : Option State} (h : Settled w state?) :
    w.store.latestState channel.id = .ok state? := by
  obtain ⟨e, found, -, -, -, latest⟩ := h
  exact Store.latestState_eq_ok_iff.2 ⟨e, found, latest⟩

/-- The channel is stored. -/
theorem Settled.isChannel {w : Wallet} {state? : Option State} (h : Settled w state?) :
    w.store.channel channel.id = .ok channel := by
  obtain ⟨e, found, isChannel, -⟩ := h
  exact Store.channel_eq_ok_iff.2 ⟨e, found, isChannel⟩

/-- The entry of a new channel is empty. -/
theorem get?_stored : stored.entries.get? channel.id = some (.ofChannel channel) :=
  Table.get?_insert_self ..

/-- Alice's wallet gets the channel. -/
theorem step_addChannel_of_new (account : w.address = alice) (isNew : w.store = .empty) :
    w.step (.addChannel channel) = { w with store := stored } := by
  have isOurs : w.address ∈ channel.participants := by
    rw [account]
    decide
  rw [Wallet.step, Wallet.addChannel, if_pos isOurs, isNew, addChannel_stored]

/-- Alice's new wallet takes the channel. -/
theorem step_addChannel (apps : AppRegistry) :
    (wallet apps).step (.addChannel channel) = { wallet apps with store := stored } :=
  step_addChannel_of_new address_aliceKey rfl

/-- Nothing is supported in a new channel. -/
theorem latestState_stored : stored.latestState channel.id = .ok none :=
  Store.latestState_eq_ok_iff.2 ⟨_, get?_stored, rfl⟩

/-- A wallet with the new channel has nothing pending and nothing supported. -/
theorem settled_stored (apps : AppRegistry) : Settled { wallet apps with store := stored } none :=
  ⟨_, get?_stored, rfl, StoreEntry.sound_ofChannel channel, rfl, rfl⟩

/-- Alice's signature is kept, and Bob's completes the support. -/
theorem add_both {e : StoreEntry} (sound : e.Sound) (isChannel : e.channel = channel)
    (empty : e.pending = []) (own : s.channelId = channel.id) (after : e.After s.turnNum)
    (isAlices : recoverSigner s.hash ofAlice = .ok alice)
    (isBobs : recoverSigner s.hash ofBob = .ok bob) :
    ∃ kept settled, e.add ⟨s, alice, ofAlice⟩ = (.ok none, kept) ∧ kept.latest = e.latest ∧
      kept.channel = channel ∧ kept.add ⟨s, bob, ofBob⟩ = (.ok (some (.ofState s)), settled) ∧
      settled.channel = channel ∧ settled.Sound ∧ settled.pending = [] ∧
      settled.latest.map SupportedState.state = some s := by
  have own : s.channelId = e.channel.id := by rw [isChannel, own]
  have participants : alice ∈ e.channel.participants ∧ bob ∈ e.channel.participants := by
    rw [isChannel]
    decide
  -- One signature of two is recorded.
  have kept : e.add ⟨s, alice, ofAlice⟩ = (.ok none, e.record ⟨s, alice, ofAlice⟩) := by
    refine StoreEntry.add_of_few
      (StoreEntry.check_eq_ok_iff.2 ⟨after, isAlices, participants.1⟩) ?_
    rw [isChannel]
    simp [StoreEntry.signaturesOn, StoreEntry.record, empty, channel, Channel.size]
  have sound' : (e.record ⟨s, alice, ofAlice⟩).Sound := by
    have sound' := sound.add (s := ⟨s, alice, ofAlice⟩) own
    rw [kept] at sound'
    exact sound'
  -- The other one is accepted as well, and completes the state.
  have accepted : (e.record ⟨s, alice, ofAlice⟩).check ⟨s, bob, ofBob⟩ = .ok () :=
    StoreEntry.check_eq_ok_iff.2 ⟨after, isBobs, participants.2⟩
  rcases StoreEntry.add_cases sound'.toVerified (s := ⟨s, bob, ofBob⟩) own with
    ⟨_, refused, -⟩ | ⟨-, few, -⟩ | ⟨-, -, added⟩
  · rw [accepted] at refused
    cases refused
  · rw [show (e.record _).channel = channel from isChannel] at few
    simp [StoreEntry.signaturesOn, StoreEntry.record, empty, channel, Channel.size,
      alice_ne_bob] at few
  · refine ⟨_, _, kept, rfl, isChannel, added, isChannel, ?_, ?_, rfl⟩
    · have settled := sound'.add (s := ⟨s, bob, ofBob⟩) own
      rw [added] at settled
      exact settled
    · simp [StoreEntry.support, StoreEntry.record, empty, Supported.ofState]

/-- The signatures of both on a later state settle it, if the comparison
with the supported state lets it pass. -/
theorem Settled.signedByBoth (h : Settled w state?) (own : s.channelId = channel.id)
    (later : ∀ p ∈ state?, p.turnNum < s.turnNum)
    (isAlices : recoverSigner s.hash ofAlice = .ok alice)
    (isBobs : recoverSigner s.hash ofBob = .ok bob) (passed : w.checkTransition s = .ok ()) :
    Settled (w.handleMessage bob (signedByBoth s ofAlice ofBob)).2 (some s) := by
  obtain ⟨e, found, isChannel, sound, empty, rfl⟩ := h
  have after : e.After s.turnNum := sound.toVerified.after_iff.2 fun l isLatest =>
    later l.state (Option.mem_map_of_mem _ isLatest)
  obtain ⟨kept, settled, addedFirst, sameLatest, sameChannel, addedSecond, isChannel', sound',
    empty', latest⟩ := add_both sound isChannel empty own after isAlices isBobs
  rw [← own] at found
  have first := Wallet.handleSigned_of_added ⟨s, alice, ofAlice⟩ passed found addedFirst
  -- After it, the same state is supported, so Bob's signature passes the comparison too.
  have found' : (w.store.entries.insert s.channelId kept).get? s.channelId = some kept :=
    Table.get?_insert_self ..
  have passed' : ({ w with store := ⟨w.store.entries.insert s.channelId kept⟩ } :
      Wallet).checkTransition s = .ok () := by
    rw [← passed]
    refine Wallet.checkTransition_congr rfl ?_ ?_
    · exact (Store.latestState_eq_ok_iff.2 ⟨kept, found', rfl⟩).trans
        (Store.latestState_eq_ok_iff.2 ⟨e, found, by rw [sameLatest]⟩).symm
    · exact (Store.channel_eq_ok_iff.2 ⟨kept, found', sameChannel⟩).trans
        (Store.channel_eq_ok_iff.2 ⟨e, found, isChannel⟩).symm
  have second := Wallet.handleSigned_of_added ⟨s, bob, ofBob⟩ passed' found' addedSecond
  refine ⟨settled, ?_, isChannel', sound', empty', latest⟩
  show (w.handleAllSigned [⟨s, alice, ofAlice⟩, ⟨s, bob, ofBob⟩]).2.store.entries.get? _ = _
  simp only [Wallet.handleAllSigned, first, second, ← own]
  exact Table.get?_insert_self ..

/-- The rule that lets any state follow, at the address of the sample. -/
def anyApps : AppRegistry := Table.insert ∅ .zero .trivial

/-- Alice's wallet has the channel, and both sign a state. -/
def agreeOn (s : State) (ofAlice ofBob : Signature) : List Wallet.Action :=
  [.addChannel channel, .message bob (signedByBoth s ofAlice ofBob)]

/-- When both have signed a state in a new channel, it is settled. -/
theorem settled_agreeOn (apps : AppRegistry) (own : s.channelId = channel.id)
    (isAlices : recoverSigner s.hash ofAlice = .ok alice)
    (isBobs : recoverSigner s.hash ofBob = .ok bob) :
    Settled ((wallet apps).run (agreeOn s ofAlice ofBob)) (some s) := by
  rw [agreeOn, Wallet.run_cons, step_addChannel, Wallet.run_cons, Wallet.run_nil,
    Wallet.step_message]
  refine (settled_stored apps).signedByBoth own (by simp) isAlices isBobs
    (Wallet.checkTransition_of_unsupported ?_)
  rw [own]
  exact latestState_stored

end Adjudicator.Sample
end StateChannels
