import StateChannels.Proofs.Store.History
import StateChannels.Proofs.Support.Moves

/-!
# `StateChannels.Proofs.Store.Convergence`: the order of delivery does not matter

Signed states reach a store in any order. Some come too late and are
refused, and a state may be supported on the way that is not supported
in another order. What the store has in the end is the same.

* `Collected`: what an entry has of the signed states that it was given,
  in terms of the list of them. `Collected.add` is one signed state more,
  `collected_addAll` the whole list.
* `Collected.latest_iff`: the supported state is the latest one that
  everyone signed.
* `Collected.agrees`: two entries that collected the same agree.
* `supports_of_unanimous`: with one signature of everyone on a state of a new
  channel, this state is supported.
* `converges_of_perm`: so two stores agree that are given the same signed
  states of a new channel in two orders.
-/

set_option autoImplicit false

namespace StateChannels

variable {c : Channel} {signed delivered : List SignedState} {s : SignedState}

/-- Every participant signed the state. -/
def SignedByAll (c : Channel) (signed : List SignedState) (state : State) : Prop :=
  ∀ a ∈ c.participants, ∃ s ∈ signed, s.signer = a ∧ s.state = state

/-- Signed states of a channel, no two of them by one participant for one
turn. -/
structure Delivery (c : Channel) (signed : List SignedState) : Prop where
  genuine : ∀ s ∈ signed, s.Genuine c
  single : ∀ s ∈ signed, ∀ t ∈ signed, s.slot = t.slot → s = t

/-- A part of a delivery is one as well. -/
theorem Delivery.of_subset (h : Delivery c signed) (subset : delivered ⊆ signed) :
    Delivery c delivered where
  genuine _ member := h.genuine _ (subset member)
  single _ member _ member' := h.single _ (subset member) _ (subset member')

namespace Unanimous

variable {state : State}

/-- A state is signed by all when the signed states are unanimous. -/
theorem signedByAll (h : Unanimous c signed state) : SignedByAll c signed state := by
  intro a participant
  obtain ⟨s, member, signer⟩ := h.exists_signer participant
  exact ⟨s, member, signer, h.same s member⟩

/-- Unanimous signed states are a delivery. -/
theorem delivery (h : Unanimous c signed state) : Delivery c signed where
  genuine s member := by
    obtain rfl := h.same s member
    exact ⟨h.channelId, h.recovers s member, h.mem_participants member⟩
  single s member t member' slot :=
    List.inj_on_of_nodup_map (h.signers.nodup_iff.2 c.nodup) member member'
      (SignedState.slot_eq_iff.1 slot).1

end Unanimous

/-- At most one state is signed by all at one turn: there is a
participant, and they signed only one. -/
theorem SignedByAll.eq_of_turnNum_eq {state other : State} (delivery : Delivery c signed)
    (all : SignedByAll c signed state) (all' : SignedByAll c signed other)
    (turn : state.turnNum = other.turnNum) : state = other := by
  obtain ⟨a, participant⟩ := List.exists_mem_of_ne_nil _ c.ne_nil
  obtain ⟨s, member, signer, rfl⟩ := all a participant
  obtain ⟨t, member', signer', rfl⟩ := all' a participant
  rw [delivery.single s member t member'
    (SignedState.slot_eq_iff.2 ⟨signer.trans signer'.symm, turn⟩)]

/-- Supported by the same signatures, in whatever order. -/
structure SupportedState.Agrees (l l' : SupportedState) : Prop where
  state : l.state = l'.state
  supported : l.supported = l'.supported
  signed : l.signed.Perm l'.signed

namespace StoreEntry

variable {e e' : StoreEntry} {state : State}

/-- What an entry has of the signed states given to it: pending are those
that are later than the supported state, and with this state are those on
it. -/
structure Collected (signed : List SignedState) (e : StoreEntry) : Prop where
  pending : ∀ s, s ∈ e.pending ↔ s ∈ signed ∧ e.After s.state.turnNum
  latest : ∀ l ∈ e.latest, ∀ s, s ∈ l.signed ↔ s ∈ signed ∧ s.state = l.state

/-- A new entry has what it was given, which is nothing. -/
theorem collected_ofChannel (c : Channel) : Collected [] (ofChannel c) where
  pending s := by simp [ofChannel]
  latest l none := by cases none

/-- What an entry has does not depend on the order of what it was given. -/
theorem Collected.of_perm (h : Collected signed e) (reordered : delivered.Perm signed) :
    Collected delivered e where
  pending s := by rw [h.pending, reordered.mem_iff]
  latest l isLatest s := by rw [h.latest l isLatest, reordered.mem_iff]

/-- A turn is after an entry when it is greater than the turn of its latest
state. -/
theorem Verified.after_iff (h : e.Verified) {turn : TurnNum} :
    e.After turn ↔ ∀ l ∈ e.latest, l.state.turnNum < turn := by
  have turns : ∀ l ∈ e.latest, l.supported.turnNum = l.state.turnNum := by
    intro l isLatest
    rw [(h.unanimous l isLatest).2]
    rfl
  unfold After supportedTurn?
  cases latest : e.latest with
  | none => simp
  | some l => simp [turns l latest]

/-! ### One signed state more -/

/-- The signatures on the supported state are complete. A new one is none
of them, or was there before. -/
theorem Collected.mem_signed_concat (h : e.Sound) (collected : Collected signed e)
    (delivery : Delivery e.channel (signed ++ [s])) {l : SupportedState} (isLatest : l ∈ e.latest)
    (x : SignedState) : x ∈ l.signed ↔ x ∈ signed ++ [s] ∧ x.state = l.state := by
  rw [collected.latest l isLatest, List.mem_append, List.mem_singleton]
  constructor
  · rintro ⟨old, onState⟩
    exact ⟨.inl old, onState⟩
  · rintro ⟨old | rfl, onState⟩
    · exact ⟨old, onState⟩
    · obtain ⟨y, there, signer⟩ := (h.unanimous l isLatest).1.exists_signer
        (delivery.genuine x List.mem_concat_self).participant
      obtain ⟨old, onState'⟩ := (collected.latest l isLatest y).1 there
      -- The signer has only one signed state for the turn, so it is this one.
      have slot : y.slot = x.slot := SignedState.slot_eq_iff.2 ⟨signer, by rw [onState', onState]⟩
      have same : y = x :=
        delivery.single y (List.mem_append_left _ old) x List.mem_concat_self slot
      exact ⟨same ▸ old, onState⟩

/-- What is not later than the supported state is not missed. -/
theorem Collected.refuse (h : e.Sound) (collected : Collected signed e)
    (delivery : Delivery e.channel (signed ++ [s])) (stale : ¬e.After s.state.turnNum) :
    Collected (signed ++ [s]) e where
  pending x := by
    rw [collected.pending, List.mem_append, List.mem_singleton]
    constructor
    · rintro ⟨old, later⟩
      exact ⟨.inl old, later⟩
    · rintro ⟨old | rfl, later⟩
      · exact ⟨old, later⟩
      · exact absurd later stale
  latest _ isLatest := collected.mem_signed_concat h delivery isLatest

/-- What is kept replaces nothing but itself. -/
theorem Collected.record (h : e.Sound) (collected : Collected signed e)
    (delivery : Delivery e.channel (signed ++ [s])) (after : e.After s.state.turnNum) :
    Collected (signed ++ [s]) (e.record s) where
  pending x := by
    rw [mem_pending_record, collected.pending, List.mem_append, List.mem_singleton]
    show _ ↔ _ ∧ e.After x.state.turnNum
    constructor
    · rintro (rfl | ⟨⟨old, later⟩, -⟩)
      · exact ⟨.inr rfl, after⟩
      · exact ⟨.inl old, later⟩
    · rintro ⟨old | rfl, later⟩
      · by_cases slot : x.slot = s.slot
        · exact .inl
            (delivery.single x (List.mem_append_left _ old) s List.mem_concat_self slot)
        · exact .inr ⟨⟨old, later⟩, slot⟩
      · exact .inl rfl
  latest _ isLatest := collected.mem_signed_concat h delivery isLatest

/-- A later state that is supported takes its signatures with it, and
what is not later than it is no longer pending. -/
theorem Collected.support (collected : Collected signed e) (after : e.After state.turnNum) :
    Collected signed (e.support state (e.signaturesOn state) (.ofState state)) where
  pending x := by
    rw [mem_pending_support, collected.pending]
    constructor
    · rintro ⟨⟨given, -⟩, later⟩
      refine ⟨given, ?_⟩
      rintro turn ⟨⟩
      exact later
    · intro ⟨given, later⟩
      have later : state.turnNum < x.state.turnNum := later _ rfl
      -- What is later than the new support is later than the old one.
      exact ⟨⟨given, fun turn old => UInt64.lt_trans (after turn old) later⟩, later⟩
  latest := by
    rintro l ⟨⟩ x
    rw [mem_signaturesOn, collected.pending]
    constructor
    · rintro ⟨⟨given, -⟩, onState⟩
      exact ⟨given, onState⟩
    · intro ⟨given, onState⟩
      exact ⟨⟨given, onState ▸ after⟩, onState⟩

/-- Whatever becomes of a signed state, the entry has collected it. -/
theorem Collected.add (h : e.Sound) (collected : Collected signed e)
    (delivery : Delivery e.channel (signed ++ [s])) : Collected (signed ++ [s]) (e.add s).2 := by
  have genuine : s.Genuine e.channel := delivery.genuine s List.mem_concat_self
  rcases add_cases h.toVerified genuine.channelId with ⟨error, checked, refused⟩ |
    ⟨checked, -, kept⟩ | ⟨checked, -, supported⟩
  · rw [refused]
    -- A genuine signed state is refused only if it is not later.
    refine collected.refuse h delivery fun after => ?_
    have accepted := check_eq_ok_iff.2 ⟨after, genuine.recovers, genuine.participant⟩
    rw [checked] at accepted
    cases accepted
  · rw [kept]
    exact collected.record h delivery (check_eq_ok_iff.1 checked).1
  · rw [supported]
    have after : e.After s.state.turnNum := (check_eq_ok_iff.1 checked).1
    exact (collected.record h delivery after).support after

/-- What a new entry has after a list of signed states. -/
theorem collected_addAll (delivery : Delivery c signed) :
    Collected signed ((ofChannel c).addAll signed) := by
  -- From the end of the list: the entry has collected what came before.
  induction signed using List.reverseRecOn with
  | nil => exact collected_ofChannel c
  | append_singleton before s ih =>
    have before_delivery : Delivery c before := delivery.of_subset (List.subset_append_left ..)
    obtain ⟨sound, channel⟩ := (sound_ofChannel c).addAll
      (fun x member => (before_delivery.genuine x member).channelId)
    rw [addAll_concat]
    exact (ih before_delivery).add sound (channel.symm ▸ delivery)

/-! ### What was collected in the end -/

namespace Collected

/-- The latest state is signed by every participant. -/
theorem signedByAll (h : e.Sound) (collected : Collected signed e) {l : SupportedState}
    (isLatest : l ∈ e.latest) : SignedByAll e.channel signed l.state := by
  intro a participant
  obtain ⟨s, member, signer⟩ := (h.unanimous l isLatest).1.exists_signer participant
  obtain ⟨given, onState⟩ := (collected.latest l isLatest s).1 member
  exact ⟨s, given, signer, onState⟩

/-- No state that everyone signed is later than the supported one. All
signatures on it would be pending, and one is missing of every state. -/
theorem exists_latest (h : e.Sound) (collected : Collected signed e)
    (all : SignedByAll e.channel signed state) :
    ∃ l ∈ e.latest, state.turnNum ≤ l.state.turnNum := by
  by_contra none
  have after : e.After state.turnNum := by
    refine h.toVerified.after_iff.2 fun l isLatest => UInt64.not_le.1 fun notLater => ?_
    exact none ⟨l, isLatest, notLater⟩
  obtain ⟨a, participant, missing⟩ := h.exists_missing state
  obtain ⟨s, given, rfl, rfl⟩ := all a participant
  exact missing s ((collected.pending s).2 ⟨given, after⟩) rfl rfl

/-- The supported state is the latest one that everyone signed. -/
theorem latest_iff (h : e.Sound) (collected : Collected signed e)
    (delivery : Delivery e.channel signed) :
    e.latest.map SupportedState.state = some state ↔
      SignedByAll e.channel signed state ∧
        ∀ other, SignedByAll e.channel signed other → other.turnNum ≤ state.turnNum := by
  rw [Option.map_eq_some_iff]
  constructor
  · rintro ⟨l, isLatest, rfl⟩
    refine ⟨collected.signedByAll h isLatest, fun other all => ?_⟩
    obtain ⟨l', isLatest', le⟩ := collected.exists_latest h all
    obtain rfl : l = l' := Option.some.inj (isLatest.symm.trans isLatest')
    exact le
  · rintro ⟨all, largest⟩
    obtain ⟨l, isLatest, le⟩ := collected.exists_latest h all
    have all' := collected.signedByAll h isLatest
    exact ⟨l, isLatest, all'.eq_of_turnNum_eq delivery all
      (UInt64.le_antisymm (largest l.state all') le)⟩

/-- There is no latest state exactly when no state is signed by all. -/
theorem latest_eq_none_iff (h : e.Sound) (collected : Collected signed e) :
    e.latest = none ↔ ∀ state, ¬SignedByAll e.channel signed state := by
  constructor
  · intro none state all
    obtain ⟨l, isLatest, -⟩ := collected.exists_latest h all
    rw [none] at isLatest
    cases isLatest
  · intro noState
    refine Option.eq_none_iff_forall_ne_some.2 fun l isLatest => ?_
    exact noState l.state (collected.signedByAll h isLatest)

/-- The later ones of the signed states given are pending. -/
theorem mem_pending_iff (h : e.Sound) (collected : Collected signed e) :
    s ∈ e.pending ↔ s ∈ signed ∧ ∀ l ∈ e.latest, l.state.turnNum < s.state.turnNum := by
  rw [collected.pending, h.toVerified.after_iff]

/-- Two supports of one state have the same signatures. No one is among
the signers twice, so it is enough that they have the same members. -/
theorem agrees_of_state_eq (h : e.Sound) (h' : e'.Sound) (collected : Collected signed e)
    (collected' : Collected signed e') {l l' : SupportedState} (isLatest : l ∈ e.latest)
    (isLatest' : l' ∈ e'.latest) (sameState : l.state = l'.state) : l.Agrees l' := by
  obtain ⟨unanimous, supported⟩ := h.unanimous l isLatest
  obtain ⟨unanimous', supported'⟩ := h'.unanimous l' isLatest'
  constructor
  · exact sameState
  · rw [supported, supported', sameState]
  · refine (List.perm_ext_iff_of_nodup unanimous.nodup unanimous'.nodup).2 fun s => ?_
    rw [collected.latest l isLatest, collected'.latest l' isLatest', sameState]

/-- Entries that collected the same signed states have the same support,
and the same is pending. -/
theorem agrees (h : e.Sound) (h' : e'.Sound) (sameChannel : e.channel = e'.channel)
    (delivery : Delivery e.channel signed) (collected : Collected signed e)
    (collected' : Collected signed e') :
    Option.Rel SupportedState.Agrees e.latest e'.latest ∧ e.pending.Perm e'.pending := by
  -- Both support the latest state that everyone signed.
  have sameState : e.latest.map SupportedState.state = e'.latest.map SupportedState.state := by
    refine Option.ext fun state => ?_
    rw [collected.latest_iff h delivery, collected'.latest_iff h' (sameChannel ▸ delivery),
      sameChannel]
  have sameLatest : Option.Rel SupportedState.Agrees e.latest e'.latest := by
    cases latest : e.latest with
    | none =>
      rw [latest, Option.map_none, eq_comm, Option.map_eq_none_iff] at sameState
      rw [sameState]
      exact .none
    | some l =>
      rw [latest, Option.map_some, eq_comm, Option.map_eq_some_iff] at sameState
      obtain ⟨l', latest', sameState⟩ := sameState
      rw [latest']
      exact .some (collected.agrees_of_state_eq h h' collected' latest latest' sameState.symm)
  have sameAfter : ∀ turn, e.After turn ↔ e'.After turn := by
    intro turn
    rw [h.toVerified.after_iff, h'.toVerified.after_iff]
    generalize e.latest = latest, e'.latest = latest' at sameLatest
    cases sameLatest with
    | none => exact Iff.rfl
    | some agree => simp [agree.state]
  refine ⟨sameLatest, ?_⟩
  refine (List.perm_ext_iff_of_nodup (.of_map _ h.nodup) (.of_map _ h'.nodup)).2 fun s => ?_
  rw [collected.pending, collected'.pending, sameAfter]

end Collected

end StoreEntry

/-! ### Two stores -/

namespace Store

variable {store added : Store} {id : Hash} {state : State}

/-- The entry of a channel that is new in the store, after a list of its
signed states. -/
theorem exists_collected (isNew : store.addChannel c = .ok (id, added))
    (delivery : Delivery c signed) :
    ∃ e, (added.run (signed.map .signed)).entries.get? id = some e ∧ e.channel = c ∧
      e.Sound ∧ e.Collected signed := by
  obtain ⟨-, rfl, rfl⟩ := addChannel_eq_ok_iff.1 isNew
  have own : ∀ s ∈ signed, s.state.channelId = c.id :=
    fun s member => (delivery.genuine s member).channelId
  obtain ⟨sound, sameChannel⟩ := (StoreEntry.sound_ofChannel c).addAll own
  exact ⟨_, get?_run_signed (Table.get?_insert_self ..) own, sameChannel, sound,
    StoreEntry.collected_addAll delivery⟩

/-- The store has the channel, and this state of it is supported. -/
def Supports (store : Store) (c : Channel) (state : State) : Prop :=
  ∃ e, store.entries.get? c.id = some e ∧ e.channel = c ∧
    e.latest.map SupportedState.state = some state

/-- A store that supports a state knows its channel. -/
theorem Supports.isChannel (h : store.Supports c state) : store.channel c.id = .ok c := by
  obtain ⟨e, found, isChannel, -⟩ := h
  exact channel_eq_ok_iff.2 ⟨e, found, isChannel⟩

/-- A store that supports a state has it as the latest one of the channel. -/
theorem Supports.isLatest (h : store.Supports c state) :
    store.latestState c.id = .ok (some state) := by
  obtain ⟨e, found, -, latest⟩ := h
  exact latestState_eq_ok_iff.2 ⟨e, found, latest⟩

/-- A channel that is new in a store, and signatures of all its participants
on one state. Then this state is supported, and the other channels are as they
were. -/
theorem supports_of_unanimous (isNew : store.entries.get? c.id = none)
    (unanimous : Unanimous c signed state) :
    (store.run (.channel c :: signed.map .signed)).Supports c state ∧
      ∀ id ≠ c.id, (store.run (.channel c :: signed.map .signed)).entries.get? id =
        store.entries.get? id := by
  have delivery := unanimous.delivery
  have added := addChannel_eq_ok_iff.2 ⟨isNew, rfl, rfl⟩
  rw [run_cons, step_channel_of_ok added]
  obtain ⟨e, found, rfl, sound, collected⟩ := exists_collected added delivery
  constructor
  · refine ⟨e, found, rfl, (collected.latest_iff sound delivery).2 ⟨unanimous.signedByAll, ?_⟩⟩
    intro other all
    -- There are no other states among the signed ones.
    obtain ⟨a, participant⟩ := List.exists_mem_of_ne_nil _ e.channel.ne_nil
    obtain ⟨x, member, -, rfl⟩ := all a participant
    rw [unanimous.same x member]
    exact UInt64.le_refl _
  · intro id other
    rw [get?_run_signed_of_ne fun x member => ?_]
    · exact Table.get?_insert_of_ne _ _ other
    · rwa [(delivery.genuine x member).channelId]

/-- A new channel is stored, and after it two orders of the same signed
states are given to the store: verified ones of the channel, by its
participants, at most one by a participant for a turn. Then the same
state is supported by the same signatures, and the same signed states are
pending. The state is the latest one that everyone signed, if there is
any, and pending is what is later. -/
theorem converges_of_perm (isNew : store.addChannel c = .ok (id, added))
    (own : ∀ s ∈ signed, s.state.channelId = id)
    (verified : ∀ s ∈ signed, ∃ digest, s.verify = .ok digest)
    (participants : ∀ s ∈ signed, s.signer ∈ c.participants)
    (single : ∀ s ∈ signed, ∀ t ∈ signed, s.signer = t.signer →
      s.state.turnNum = t.state.turnNum → s = t)
    (reordered : delivered.Perm signed) :
    ∃ latest latest' pending pending',
      (added.run (signed.map .signed)).latest id = .ok latest ∧
      (added.run (signed.map .signed)).pending id = .ok pending ∧
      (added.run (delivered.map .signed)).latest id = .ok latest' ∧
      (added.run (delivered.map .signed)).pending id = .ok pending' ∧
      Option.Rel SupportedState.Agrees latest latest' ∧ pending.Perm pending' ∧
      (∀ state, latest.map SupportedState.state = some state ↔
        SignedByAll c signed state ∧
          ∀ other, SignedByAll c signed other → other.turnNum ≤ state.turnNum) ∧
      (latest = none ↔ ∀ state, ¬SignedByAll c signed state) ∧
      ∀ s, s ∈ pending ↔ s ∈ signed ∧ ∀ l ∈ latest, l.state.turnNum < s.state.turnNum := by
  have delivery : Delivery c signed := by
    constructor
    · intro s member
      obtain ⟨_, verifies⟩ := verified s member
      obtain ⟨-, rfl, -⟩ := addChannel_eq_ok_iff.1 isNew
      exact ⟨own s member, (SignedState.verify_eq_ok_iff.1 verifies).1, participants s member⟩
    · intro s member t member' slot
      obtain ⟨signer, turn⟩ := SignedState.slot_eq_iff.1 slot
      exact single s member t member' signer turn
  -- Each store has collected what was delivered to it, and that is the same in both orders.
  obtain ⟨e, here, rfl, sound, collected⟩ := exists_collected isNew delivery
  obtain ⟨e', there, sameChannel, sound', collected'⟩ :=
    exists_collected isNew (delivery.of_subset reordered.subset)
  obtain ⟨sameLatest, samePending⟩ :=
    collected.agrees sound sound' sameChannel.symm delivery (collected'.of_perm reordered.symm)
  exact ⟨e.latest, e'.latest, e.pending, e'.pending, latest_eq_ok_iff.2 ⟨e, here, rfl⟩,
    pending_eq_ok_iff.2 ⟨e, here, rfl⟩, latest_eq_ok_iff.2 ⟨e', there, rfl⟩,
    pending_eq_ok_iff.2 ⟨e', there, rfl⟩, sameLatest, samePending,
    fun state => collected.latest_iff sound delivery, collected.latest_eq_none_iff sound,
    fun s => collected.mem_pending_iff sound⟩

end Store

/-! ### A turn that both participants sign, and one that only Bob does -/

namespace Adjudicator.Sample

/-- The state at turn 4 with Alice's signature. -/
def byAlice : SignedState := ⟨state, alice, signatureOfAlice⟩

/-- The state at turn 4 with Bob's signature. -/
def byBob : SignedState := ⟨state, bob, signatureOfBob⟩

/-- The state at turn 5 with Bob's signature. -/
def byBobAtFive : SignedState := ⟨stateAt 5, bob, signatureAtFive⟩

/-- The signed states in the order of their turns. -/
def inOrder : List SignedState := [byAlice, byBob, byBobAtFive]

/-- Alice and Bob have different addresses. -/
theorem alice_ne_bob : alice ≠ bob := by decide

/-- The three signed states are a delivery. -/
theorem delivery_inOrder : Delivery channel inOrder := by
  constructor
  · rw [inOrder, List.forall_mem_cons, List.forall_mem_cons, List.forall_mem_singleton]
    exact ⟨⟨rfl, recoverSigner_signatureOfAlice, by decide⟩,
      ⟨rfl, recoverSigner_signatureOfBob, by decide⟩,
      ⟨rfl, recoverSigner_signatureAtFive, by decide⟩⟩
  · have fourNotFive : state.turnNum ≠ (stateAt 5).turnNum := by decide
    simp [inOrder, SignedState.slot, byAlice, byBob, byBobAtFive, alice_ne_bob, alice_ne_bob.symm,
      fourNotFive, fourNotFive.symm]

/-- Everyone signed the state at turn 4, and Alice no other. -/
theorem latest_inOrder :
    SignedByAll channel inOrder state ∧
      ∀ other, SignedByAll channel inOrder other → other.turnNum ≤ state.turnNum := by
  constructor
  · simp [SignedByAll, channel, inOrder, byAlice, byBob]
  · intro other all
    obtain ⟨s, member, signer, rfl⟩ := all alice List.mem_cons_self
    have isFirst : s = byAlice := by
      simp only [inOrder, List.mem_cons, List.not_mem_nil, or_false] at member
      rcases member with first | rfl | rfl
      · exact first
      · exact absurd signer.symm alice_ne_bob
      · exact absurd signer.symm alice_ne_bob
    rw [isFirst]
    exact UInt64.le_refl _

/-- The store with the channel. -/
def stored : Store := ⟨Table.insert ∅ channel.id (.ofChannel channel)⟩

/-- Adding the channel to the empty store makes this store. -/
theorem addChannel_stored : Store.empty.addChannel channel = .ok (channel.id, stored) :=
  Store.addChannel_eq_ok_iff.2 ⟨rfl, rfl, rfl⟩

/-- If Bob's signature on the state at turn 5 comes first, it waits while
the state at turn 4 is supported. In both orders it is all that waits in
the end. -/
theorem converges_inOrder :
    ∃ latest latest' pending pending',
      (stored.run (inOrder.map .signed)).latest channel.id = .ok latest ∧
      (stored.run (inOrder.reverse.map .signed)).latest channel.id = .ok latest' ∧
      (stored.run (inOrder.map .signed)).pending channel.id = .ok pending ∧
      (stored.run (inOrder.reverse.map .signed)).pending channel.id = .ok pending' ∧
      latest.map SupportedState.state = some state ∧
      Option.Rel SupportedState.Agrees latest latest' ∧
      (∀ s, s ∈ pending ↔ s = byBobAtFive) ∧ pending.Perm pending' := by
  have genuine := delivery_inOrder.genuine
  obtain ⟨latest, latest', pending, pending', isLatest, isPending, isLatest', isPending',
      sameLatest, samePending, largest, -, waits⟩ :=
    Store.converges_of_perm addChannel_stored (fun s member => (genuine s member).channelId)
      (fun s member => ⟨_, SignedState.verify_eq_ok_iff.2 ⟨(genuine s member).recovers, rfl⟩⟩)
      (fun s member => (genuine s member).participant)
      (fun s member t member' signer turn => delivery_inOrder.single s member t member'
        (SignedState.slot_eq_iff.2 ⟨signer, turn⟩))
      (List.reverse_perm inOrder)
  have supported : latest.map SupportedState.state = some state := (largest state).2 latest_inOrder
  refine ⟨latest, latest', pending, pending', isLatest, isLatest', isPending, isPending', supported,
    sameLatest, fun s => ?_, samePending⟩
  -- Only Bob's signature for turn 5 is later than the supported state.
  obtain ⟨l, rfl, onState⟩ := Option.map_eq_some_iff.1 supported
  have later : (∀ l' ∈ some l, l'.state.turnNum < s.state.turnNum) ↔
      state.turnNum < s.state.turnNum := by
    rw [← onState]
    simp
  rw [waits, later]
  constructor
  · rintro ⟨member, later⟩
    simp only [inOrder, List.mem_cons, List.not_mem_nil, or_false] at member
    rcases member with rfl | rfl | last
    · exact absurd later (UInt64.lt_irrefl _)
    · exact absurd later (UInt64.lt_irrefl _)
    · exact last
  · rintro rfl
    exact ⟨by simp [inOrder], by decide⟩

end Adjudicator.Sample

end StateChannels
