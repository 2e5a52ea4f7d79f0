import StateChannels.Proofs.Store.Enforcement

/-!
# `StateChannels.Proofs.Store.Atomicity`: what a store keeps, and what a refusal leaves

A signed state is put among the pending ones before the signatures on its
state are checked, and this check could fail. That a refusal leaves no
trace all the same is due to the invariant of the entries: as many
signatures as participants on one state are always one of each, so the
check never fails.

* `StoreEntry.Consistent`: the invariant in terms of verified signatures.
* `addSigned_cases`: what becomes of a signed state in a store whose
  entries are sound.
* `consistent_and_atomic`: along every run the entries are consistent, a
  refused signed state changes nothing, one that completes a support
  raises the supported turn of its channel, and none touches another
  channel.
-/

set_option autoImplicit false

namespace StateChannels

namespace StoreEntry

variable {e : StoreEntry}

/-- What is true of an entry at every time. -/
structure Consistent (e : StoreEntry) : Prop where
  /-- A pending signed state verifies. -/
  verify : ∀ s ∈ e.pending, s.verify = .ok s.state.hash
  participant : ∀ s ∈ e.pending, s.signer ∈ e.channel.participants
  channelId : ∀ s ∈ e.pending, s.state.channelId = e.channel.id
  later : ∀ s ∈ e.pending, ∀ turn ∈ e.supportedTurn?, turn < s.state.turnNum
  /-- No two have the same signer and the same turn. -/
  single : e.pending.Pairwise fun s t => ¬(s.signer = t.signer ∧ s.state.turnNum = t.state.turnNum)
  /-- Of every state someone's signature is missing. -/
  missing : ∀ state, ∃ a ∈ e.channel.participants, ∀ s ∈ e.pending, s.state = state → s.signer ≠ a
  /-- The supported state has as many signatures as there are
  participants. -/
  complete : ∀ l ∈ e.latest, l.signed.length = e.channel.size
  /-- They are verified, and all on this state. -/
  onState : ∀ l ∈ e.latest, ∀ s ∈ l.signed, s.state = l.state ∧ s.verify = .ok l.state.hash
  /-- The signers are the participants, each of them once. -/
  signers : ∀ l ∈ e.latest, (l.signed.map SignedState.signer).Perm e.channel.participants
  supported : ∀ l ∈ e.latest, l.supported = .ofState l.state

/-- A sound entry is consistent. -/
theorem Sound.consistent (h : e.Sound) : e.Consistent where
  verify s pending := SignedState.verify_eq_ok_iff.2 ⟨(h.genuine s pending).recovers, rfl⟩
  participant s pending := (h.genuine s pending).participant
  channelId s pending := (h.genuine s pending).channelId
  later := h.after
  single := by
    refine (List.pairwise_map.1 h.nodup).imp fun different same => ?_
    exact different (SignedState.slot_eq_iff.2 same)
  missing := h.exists_missing
  complete l isLatest := by
    rw [← List.length_map SignedState.signer, (h.unanimous l isLatest).1.signers.length_eq,
      Channel.size]
  onState l isLatest s member := by
    have unanimous := (h.unanimous l isLatest).1
    have onState := unanimous.same s member
    refine ⟨onState, SignedState.verify_eq_ok_iff.2 ⟨?_, by rw [onState]⟩⟩
    rw [onState]
    exact unanimous.recovers s member
  signers l isLatest := (h.unanimous l isLatest).1.signers
  supported l isLatest := (h.unanimous l isLatest).2

end StoreEntry

namespace Store

variable {store : Store} {s : SignedState}

/-- What becomes of a signed state. Its channel is not stored, or it does
not pass the checks made first. Then the store is as it was. Or it is
kept. Or it is kept and supports its state, whose turn is later than the
one supported before. -/
theorem addSigned_cases (h : store.Sound) (s : SignedState) :
    (store.entries.get? s.state.channelId = none ∧
      store.addSigned s = (.error (.unknownChannel s.state.channelId), store)) ∨
    ∃ e, store.entries.get? s.state.channelId = some e ∧
      ((∃ error, e.check s = .error error ∧ store.addSigned s = (.error error, store)) ∨
      (e.check s = .ok () ∧ (store.addSigned s).1 = .ok none ∧
        (e.add s).2.supportedTurn? = e.supportedTurn?) ∨
      (e.check s = .ok () ∧ (store.addSigned s).1 = .ok (some (.ofState s.state)) ∧
        e.After s.state.turnNum ∧ (e.add s).2.supportedTurn? = some s.state.turnNum)) := by
  cases found : store.entries.get? s.state.channelId with
  | none =>
    refine .inl ⟨rfl, ?_⟩
    rw [addSigned, found]
  | some e =>
    obtain ⟨own, sound⟩ := h _ e found
    have added := addSigned_of_found found
    refine .inr ⟨e, rfl, ?_⟩
    rcases StoreEntry.add_cases sound.toVerified own.symm with ⟨error, checked, refused⟩ |
      ⟨checked, -, kept⟩ | ⟨checked, -, supported⟩
    · refine .inl ⟨error, checked, ?_⟩
      -- The entry is written back as it was.
      rw [added, refused, Table.insert_of_get?_eq_some found]
    · refine .inr (.inl ⟨checked, ?_, ?_⟩)
      · rw [added, kept]
      · rw [kept]
        rfl
    · refine .inr (.inr ⟨checked, ?_, (StoreEntry.check_eq_ok_iff.1 checked).1, ?_⟩)
      · rw [added, supported]
      · rw [supported]
        rfl

/-- Whatever was given to a store, its entries are consistent, and of
every signed state given to it next the following is true.

If it is refused, then because its channel is not stored or because of
the checks that come before anything is kept, and the store is the same
as before. If it passes these checks it is not refused. If it completes a
support, no turn from there on was supported in its channel before, and
its turn is supported after. The entries of other channels are the same
in every case. -/
theorem consistent_and_atomic (events : List Event) :
    (∀ id e, (empty.run events).entries.get? id = some e → e.channel.id = id ∧ e.Consistent) ∧
    ∀ s : SignedState,
      (∀ error, ((empty.run events).addSigned s).1 = .error error →
        ((empty.run events).addSigned s).2 = empty.run events ∧
        ∀ e, (empty.run events).entries.get? s.state.channelId = some e →
          e.check s = .error error) ∧
      (∀ x, ((empty.run events).addSigned s).1 = .ok (some x) →
        ∃ before after, (empty.run events).entries.get? s.state.channelId = some before ∧
          ((empty.run events).addSigned s).2.entries.get? s.state.channelId = some after ∧
          (∀ turn ∈ before.supportedTurn?, turn < x.turnNum) ∧
          after.supportedTurn? = some x.turnNum) ∧
      ∀ id, id ≠ s.state.channelId → ((empty.run events).addSigned s).2.entries.get? id =
        (empty.run events).entries.get? id := by
  have sound : (empty.run events).Sound := sound_empty.run
  -- From here on only that the store is sound counts, and not how it came about.
  generalize empty.run events = store at sound
  refine ⟨fun id e found => ⟨(sound id e found).1, (sound id e found).2.consistent⟩, fun s => ?_⟩
  refine ⟨?_, ?_, fun id other => get?_addSigned_of_ne store s other⟩
  · intro error refused
    rcases addSigned_cases sound s with ⟨unknown, added⟩ | ⟨e, found, ⟨_, checked, added⟩ |
      ⟨-, kept, -⟩ | ⟨-, supported, -⟩⟩
    · rw [added]
      refine ⟨rfl, fun e found => ?_⟩
      rw [unknown] at found
      cases found
    · rw [added] at refused ⊢
      cases refused
      refine ⟨rfl, fun e' found' => ?_⟩
      cases found.symm.trans found'
      exact checked
    · rw [kept] at refused
      cases refused
    · rw [supported] at refused
      cases refused
  · intro x isSupported
    -- Of the four ways that adding a signed state can end, only the last one reports a state.
    rcases addSigned_cases sound s with ⟨-, added⟩ | ⟨e, found, ⟨_, -, added⟩ |
      ⟨-, kept, -⟩ | ⟨-, supported, later, turn⟩⟩
    · rw [added] at isSupported
      cases isSupported
    · rw [added] at isSupported
      cases isSupported
    · rw [kept] at isSupported
      cases isSupported
    · rw [supported] at isSupported
      cases isSupported
      exact ⟨e, (e.add s).2, found, get?_addSigned found, later, turn⟩

end Store

namespace Adjudicator.Sample

/-- The store in which Alice's signature waits for Bob's. -/
theorem get?_run_byAlice : ∃ e,
    (Store.empty.run [.channel channel, .signed byAlice]).entries.get? channel.id = some e ∧
      e.channel = channel ∧ e.Sound ∧ e.latest = none ∧ byAlice ∈ e.pending := by
  have delivery : Delivery channel [byAlice] := delivery_inOrder.of_subset (by simp [inOrder])
  rw [Store.run_cons, Store.step_channel_of_ok addChannel_stored]
  obtain ⟨e, found, sameChannel, sound, collected⟩ :=
    Store.exists_collected addChannel_stored delivery
  have none : e.latest = none := by
    refine (collected.latest_eq_none_iff sound).2 fun state all => ?_
    obtain ⟨s, member, signer, -⟩ := all bob (by rw [sameChannel]; decide)
    rw [List.mem_singleton.1 member] at signer
    exact alice_ne_bob signer
  refine ⟨e, found, sameChannel, sound, none, (collected.pending byAlice).2 ⟨by simp, ?_⟩⟩
  rw [StoreEntry.After, StoreEntry.supportedTurn?, none]
  simp

/-- Bob's signature completes the support of the state at turn 4. When
Alice's comes in again after that, it is refused as stale, and the store
is the same as before. -/
theorem consistent_and_atomic_inOrder :
    (∃ before after,
      ((Store.empty.run [.channel channel, .signed byAlice]).addSigned byBob).1 =
        .ok (some (.ofState state)) ∧
      (Store.empty.run [.channel channel, .signed byAlice]).entries.get? channel.id =
        some before ∧
      ((Store.empty.run [.channel channel, .signed byAlice]).addSigned byBob).2.entries.get?
        channel.id = some after ∧
      before.supportedTurn? = none ∧ after.supportedTurn? = some 4 ∧ before.Consistent) ∧
    ((Store.empty.run (.channel channel :: inOrder.map .signed)).addSigned byAlice).1 =
        .error (.staleState 4 4) ∧
      ((Store.empty.run (.channel channel :: inOrder.map .signed)).addSigned byAlice).2 =
        Store.empty.run (.channel channel :: inOrder.map .signed) := by
  constructor
  -- Alice's signature waits, and Bob's completes the state.
  · obtain ⟨consistent, atomic⟩ := Store.consistent_and_atomic [.channel channel, .signed byAlice]
    obtain ⟨e, found, isChannel, sound, none, pending⟩ := get?_run_byAlice
    have noTurn : e.supportedTurn? = Option.none := by rw [StoreEntry.supportedTurn?, none]; rfl
    have accepted : e.check byBob = .ok () := by
      refine StoreEntry.check_eq_ok_iff.2 ⟨?_, recoverSigner_signatureOfBob, ?_⟩
      · rw [StoreEntry.After, noTurn]
        simp
      · rw [isChannel]
        decide
    have completes := (sound.add_of_others (by rw [isChannel]; rfl) accepted (by
      rw [isChannel]
      intro a participant other
      refine ⟨byAlice, pending, rfl, ?_⟩
      rcases List.mem_pair.1 participant with rfl | rfl
      · rfl
      · exact absurd rfl other)).1
    have supported : ((Store.empty.run [.channel channel, .signed byAlice]).addSigned byBob).1 =
        .ok (some (.ofState state)) := by
      rw [Store.addSigned_of_found found]
      exact completes
    obtain ⟨before, after, found', there, -, turn⟩ := (atomic byBob).2.1 _ supported
    obtain rfl : e = before := Option.some.inj (found.symm.trans found')
    exact ⟨e, after, supported, found, there, noTurn, turn, (consistent _ e found).2⟩
  -- The state is supported, so Alice's signature comes too late.
  · obtain ⟨-, atomic⟩ := Store.consistent_and_atomic (.channel channel :: inOrder.map .signed)
    obtain ⟨e, l, found, isChannel, isLatest, onState⟩ := get?_run_inOrder
    have sound : e.Sound := (Store.sound_empty.run _ e found).2
    have turn : e.supportedTurn? = some 4 := by
      rw [StoreEntry.supportedTurn?, isLatest, Option.map_some, (sound.unanimous l isLatest).2,
        onState]
      rfl
    have stale : e.check byAlice = .error (.staleState 4 4) := by
      rw [StoreEntry.check, turn]
      rfl
    have refused :
        ((Store.empty.run (.channel channel :: inOrder.map .signed)).addSigned byAlice).1 =
          .error (.staleState 4 4) := by
      rw [Store.addSigned_of_found found]
      show (e.add byAlice).1 = _
      rw [StoreEntry.add, stale]
    exact ⟨refused, ((atomic byAlice).1 _ refused).1⟩

end Adjudicator.Sample

end StateChannels
