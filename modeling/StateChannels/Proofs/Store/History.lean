import StateChannels.Proofs.Store.Entry

/-!
# `StateChannels.Proofs.Store.History`: runs of the store

A run of the store is a list of events: a new channel is given to it, or
a signed state. What it refuses leaves it as it is, so every list of
events is a run.

* `Sound.run`: along every run each entry is sound and stays that of the
  channel it is stored for.
* `channel_run`: a channel that is stored stays stored.
* `get?_run_signed`, `get?_run_signed_of_ne`: signed states of one channel go
  into its entry, one after the other, and into no other entry.
-/

set_option autoImplicit false

namespace StateChannels

namespace StoreEntry

/-- The entry after a list of signed states, refused ones among them. -/
def addAll (e : StoreEntry) (signed : List SignedState) : StoreEntry :=
  signed.foldl (fun e s => (e.add s).2) e

/-- The list goes on from the entry after its first member. -/
@[simp] theorem addAll_cons (e : StoreEntry) (s : SignedState) (signed : List SignedState) :
    e.addAll (s :: signed) = (e.add s).2.addAll signed := rfl

/-- The last member is added to the entry after the others. -/
theorem addAll_concat (e : StoreEntry) (signed : List SignedState) (s : SignedState) :
    e.addAll (signed ++ [s]) = ((e.addAll signed).add s).2 :=
  List.foldl_append

/-- Signed states of the channel keep its entry sound. -/
theorem Sound.addAll {e : StoreEntry} {signed : List SignedState} (h : e.Sound)
    (own : ∀ s ∈ signed, s.state.channelId = e.channel.id) :
    (e.addAll signed).Sound ∧ (e.addAll signed).channel = e.channel := by
  -- The entry changes with each signed state, so it is not fixed.
  induction signed generalizing e with
  | nil => exact ⟨h, rfl⟩
  | cons s signed ih =>
    rw [List.forall_mem_cons] at own
    have channel : (e.add s).2.channel = e.channel := channel_add e s
    have rest := ih (h.add own.1) (channel ▸ own.2)
    rw [addAll_cons]
    exact ⟨rest.1, rest.2.trans channel⟩

end StoreEntry

namespace Store

/-- What is given to a store. -/
inductive Event where
  | channel (c : Channel)
  | signed (s : SignedState)
deriving DecidableEq

variable {store : Store} {c : Channel} {id : Hash} {s : SignedState} {e : StoreEntry}

/-- The store after an event. -/
def step (store : Store) : Event → Store
  | .channel c =>
    match store.addChannel c with
    | .ok (_, added) => added
    | .error _ => store
  | .signed s => (store.addSigned s).2

/-- The store after a run. -/
def run (store : Store) (events : List Event) : Store := events.foldl step store

/-- A run goes on from the store after its first event. -/
@[simp] theorem run_cons (store : Store) (event : Event) (events : List Event) :
    store.run (event :: events) = (store.step event).run events := rfl

/-- A run of two parts is the second part, on the store after the first. -/
theorem run_append (store : Store) (before after : List Event) :
    store.run (before ++ after) = (store.run before).run after := List.foldl_append

/-! ### Looking entries up -/

/-- A channel is found by the entry that is stored for it. -/
theorem channel_eq_ok_iff :
    store.channel id = .ok c ↔ ∃ e, store.entries.get? id = some e ∧ e.channel = c := by
  rw [channel, entry, map_eq_ok_iff]
  cases store.entries.get? id <;> simp

/-- What is supported in a channel is found by its entry. -/
theorem latest_eq_ok_iff {latest : Option SupportedState} :
    store.latest id = .ok latest ↔ ∃ e, store.entries.get? id = some e ∧ e.latest = latest := by
  rw [Store.latest, entry, map_eq_ok_iff]
  cases store.entries.get? id <;> simp

/-- The supported state is the state of what is supported. -/
theorem latestState_eq_ok_iff {id : Hash} {state? : Option State} :
    store.latestState id = .ok state? ↔
      ∃ e, store.entries.get? id = some e ∧ e.latest.map SupportedState.state = state? := by
  rw [latestState, bind_eq_ok_iff]
  simp only [latest_eq_ok_iff, pure, Except.pure, Except.ok.injEq]
  constructor
  · rintro ⟨_, ⟨e, found, rfl⟩, same⟩
    exact ⟨e, found, same⟩
  · rintro ⟨e, found, same⟩
    exact ⟨_, ⟨e, found, rfl⟩, same⟩

/-- What is pending in a channel is found by its entry. -/
theorem pending_eq_ok_iff {pending : List SignedState} :
    store.pending id = .ok pending ↔ ∃ e, store.entries.get? id = some e ∧ e.pending = pending := by
  rw [Store.pending, entry, map_eq_ok_iff]
  cases store.entries.get? id <;> simp

/-- A new channel is stored under its id. -/
theorem addChannel_eq_ok_iff {added : Store} :
    store.addChannel c = .ok (id, added) ↔
      store.entries.get? c.id = none ∧ id = c.id ∧
        added = ⟨store.entries.insert c.id (.ofChannel c)⟩ := by
  unfold addChannel contains Table.contains
  cases store.entries.get? c.id <;> simp [eq_comm]

/-- A channel that the store takes makes the step. -/
theorem step_channel_of_ok {added : Store} (made : store.addChannel c = .ok (id, added)) :
    store.step (.channel c) = added := by
  rw [step, made]

/-- A signed state goes into the entry of its channel, if there is one. -/
theorem addSigned_of_found (found : store.entries.get? s.state.channelId = some e) :
    store.addSigned s =
      ((e.add s).1, ⟨store.entries.insert s.state.channelId (e.add s).2⟩) := by
  rw [addSigned, found]

/-- What comes out for a signed state is decided in the entry of its
channel. -/
theorem fst_addSigned_of_found (found : store.entries.get? s.state.channelId = some e) :
    (store.addSigned s).1 = (e.add s).1 := by
  rw [addSigned_of_found found]

/-- After a signed state the entry of its channel is what adding it there
gives, refused or not. -/
theorem get?_addSigned (found : store.entries.get? s.state.channelId = some e) :
    (store.addSigned s).2.entries.get? s.state.channelId = some (e.add s).2 := by
  rw [addSigned_of_found found]
  exact Table.get?_insert_self ..

/-- A channel that is stored stays stored. -/
theorem channel_step (stored : store.channel id = .ok c) (event : Event) :
    (store.step event).channel id = .ok c := by
  obtain ⟨e, found, rfl⟩ := channel_eq_ok_iff.1 stored
  cases event with
  | channel c' =>
    rw [step]
    split
    · rename_i made
      obtain ⟨unused, -, rfl⟩ := addChannel_eq_ok_iff.1 made
      have other : id ≠ c'.id := by
        rintro rfl
        cases unused.symm.trans found
      exact channel_eq_ok_iff.2 ⟨e, (Table.get?_insert_of_ne _ _ other).trans found, rfl⟩
    · exact stored
  | signed s =>
    show (store.addSigned s).2.channel id = _
    by_cases isId : id = s.state.channelId
    · subst isId
      exact channel_eq_ok_iff.2 ⟨_, get?_addSigned found, StoreEntry.channel_add e s⟩
    · exact channel_eq_ok_iff.2 ⟨e, (get?_addSigned_of_ne store s isId).trans found, rfl⟩

/-- A channel that is stored stays stored along every run. -/
theorem channel_run (stored : store.channel id = .ok c) (events : List Event) :
    (store.run events).channel id = .ok c := by
  induction events generalizing store with
  | nil => exact stored
  | cons event events ih => exact ih (channel_step stored event)

/-- Signed states of a channel go into its entry, in their order. -/
theorem get?_run_signed {signed : List SignedState} (found : store.entries.get? id = some e)
    (own : ∀ s ∈ signed, s.state.channelId = id) :
    (store.run (signed.map .signed)).entries.get? id = some (e.addAll signed) := by
  -- Store and entry change with each signed state.
  induction signed generalizing store e with
  | nil => exact found
  | cons s signed ih =>
    rw [List.forall_mem_cons] at own
    obtain ⟨rfl, own⟩ := own
    exact ih (get?_addSigned found) own

/-- Signed states of other channels do not count. -/
theorem get?_run_signed_of_ne {signed : List SignedState}
    (other : ∀ x ∈ signed, id ≠ x.state.channelId) :
    (store.run (signed.map .signed)).entries.get? id = store.entries.get? id := by
  induction signed generalizing store with
  | nil => rfl
  | cons x signed ih =>
    obtain ⟨first, rest⟩ := List.forall_mem_cons.1 other
    exact (ih rest).trans (get?_addSigned_of_ne store x first)

/-! ### Soundness along runs -/

/-- What is true of a store at every time: its entries are those of the
channels they are stored for, and they are sound. -/
def Sound (store : Store) : Prop :=
  ∀ id e, store.entries.get? id = some e → e.channel.id = id ∧ e.Sound

/-- The empty store is sound. -/
theorem sound_empty : empty.Sound := by
  intro id e found
  cases found

/-- Every event keeps a store sound. -/
theorem Sound.step (h : store.Sound) (event : Event) : (store.step event).Sound := by
  intro id e found
  -- An entry is new, or what was there before, or that with the signed state added.
  cases event with
  | channel c =>
    rw [Store.step] at found
    split at found
    · rename_i added made
      obtain ⟨-, -, rfl⟩ := addChannel_eq_ok_iff.1 made
      rw [Table.get?_insert] at found
      split at found
      · rename_i isId
        obtain rfl : StoreEntry.ofChannel c = e := Option.some.inj found
        exact ⟨isId.symm, StoreEntry.sound_ofChannel c⟩
      · exact h id e found
    · exact h id e found
  | signed s =>
    rw [Store.step] at found
    by_cases isId : id = s.state.channelId
    · subst isId
      cases before : store.entries.get? s.state.channelId with
      | none =>
        rw [addSigned, before] at found
        exact h _ e found
      | some old =>
        obtain ⟨own, sound⟩ := h _ old before
        rw [get?_addSigned before] at found
        obtain rfl : (old.add s).2 = e := Option.some.inj found
        rw [StoreEntry.channel_add]
        exact ⟨own, sound.add own.symm⟩
    · rw [get?_addSigned_of_ne store s isId] at found
      exact h id e found

/-- A store stays sound, whatever is given to it. -/
theorem Sound.run {events : List Event} (h : store.Sound) : (store.run events).Sound := by
  induction events generalizing store with
  | nil => exact h
  | cons event events ih => exact ih (h.step event)

/-- The supported state of a channel is a state of it. -/
theorem Sound.channelId_of_latestState {s : State} (sound : store.Sound)
    (latest : store.latestState id = .ok (some s)) : s.channelId = id := by
  obtain ⟨e, found, onState⟩ := latestState_eq_ok_iff.1 latest
  obtain ⟨l, isLatest, rfl⟩ := Option.map_eq_some_iff.1 onState
  obtain ⟨own, verified⟩ := sound id e found
  exact (verified.unanimous l isLatest).1.channelId.trans own

end Store

end StateChannels
