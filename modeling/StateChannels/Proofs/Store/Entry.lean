import StateChannels.Proofs.Support.Unanimous
import StateChannels.Store

/-!
# `StateChannels.Proofs.Store.Entry`: what is true of a channel's entry

An entry of the store collects signed states of one channel until one of
its states has a signature of every participant. `StoreEntry.Sound` is
what is true of an entry at every time: each pending signed state is
genuine and later than the supported one, no participant has two at one
turn, no state has a signature of everyone, and the supported state has
exactly one of each.

* `mem_pending_record` and `mem_pending_support`: what the two steps of
  taking in a signed state leave pending.
* `add_cases`: what becomes of a signed state. It is refused, or kept
  and waits for others, or completes the signatures on its state.
* `Sound.add`: an entry stays sound.
* `Sound.exists_missing` and `Sound.add_of_others`: of every state
  someone's signature is missing, and who adds the last one completes the
  support.
-/

set_option autoImplicit false

namespace StateChannels

namespace SignedState

/-- A signed state of the channel, by a participant, with a signature
that is theirs. -/
structure Genuine (c : Channel) (s : SignedState) : Prop where
  channelId : s.state.channelId = c.id
  recovers : recoverSigner s.state.hash s.signature = .ok s.signer
  participant : s.signer ∈ c.participants

/-- The place that a signed state takes in an entry. A signer has one
for each turn. -/
def slot (s : SignedState) : Address × TurnNum := (s.signer, s.state.turnNum)

/-- The slot of a signed state is its signer and its turn. -/
theorem slot_eq_iff {s t : SignedState} :
    s.slot = t.slot ↔ s.signer = t.signer ∧ s.state.turnNum = t.state.turnNum := by
  rw [slot, slot, Prod.mk.injEq]

end SignedState

namespace StoreEntry

variable {e : StoreEntry} {s x : SignedState} {state : State}

/-! ### The steps of taking in a signed state -/

/-- What is later than the supported turn, if there is one. -/
def After (e : StoreEntry) (turn : TurnNum) : Prop := ∀ t ∈ e.supportedTurn?, t < turn

/-- A signed state is taken in if it is later than the supported one and
signed by a participant. -/
theorem check_eq_ok_iff :
    e.check s = .ok () ↔ e.After s.state.turnNum ∧
      recoverSigner s.state.hash s.signature = .ok s.signer ∧
      s.signer ∈ e.channel.participants := by
  -- The check of the signature and what comes after it.
  have rest : (s.verify.mapError StoreError.support >>= fun _ =>
      if s.signer ∉ e.channel.participants then
        .error (.support (.notAParticipant s.signer)) else pure ()) = .ok () ↔
      recoverSigner s.state.hash s.signature = .ok s.signer ∧
        s.signer ∈ e.channel.participants := by
    simp only [bind_eq_ok_iff, mapError_eq_ok_iff, SignedState.verify_eq_ok_iff,
      error_if_eq_ok_unit_iff, Decidable.not_not]
    constructor
    · rintro ⟨_, ⟨recovered, rfl⟩, participant⟩
      exact ⟨recovered, participant⟩
    · rintro ⟨recovered, participant⟩
      exact ⟨_, ⟨recovered, rfl⟩, participant⟩
  unfold check After
  cases e.supportedTurn? with
  | none =>
    rw [← rest]
    simp [pure, Except.pure, bind, Except.bind]
  | some supported =>
    rw [← rest]
    simp only [error_if_eq_ok_iff, UInt64.not_le, Option.mem_some_iff, forall_eq']

/-- The new signed state is kept, and of the others those in other
places. -/
theorem mem_pending_record :
    x ∈ (e.record s).pending ↔ x = s ∨ x ∈ e.pending ∧ x.slot ≠ s.slot := by
  simp only [record, List.mem_append, List.mem_filter, decide_eq_true_eq, List.mem_singleton,
    ne_eq, SignedState.slot_eq_iff]
  exact or_comm

/-- The signed states on a state are those of the pending ones that carry
it. -/
theorem mem_signaturesOn : x ∈ e.signaturesOn state ↔ x ∈ e.pending ∧ x.state = state := by
  simp [signaturesOn]

/-- Of what was pending, the later signed states are left. -/
theorem mem_pending_support {signed : List SignedState} {supported : Supported} :
    x ∈ (e.support state signed supported).pending ↔
      x ∈ e.pending ∧ supported.turnNum < x.state.turnNum := by
  simp [support]

/-! ### Sound entries -/

/-- The pending signed states are genuine, later than the supported one
and in different places, and the supported state is one that everyone
signed. -/
structure Verified (e : StoreEntry) : Prop where
  genuine : ∀ s ∈ e.pending, s.Genuine e.channel
  after : ∀ s ∈ e.pending, e.After s.state.turnNum
  nodup : (e.pending.map SignedState.slot).Nodup
  unanimous : ∀ l ∈ e.latest, Unanimous e.channel l.signed l.state ∧ l.supported = .ofState l.state

/-- Besides, no state waits that everyone signed. -/
structure Sound (e : StoreEntry) : Prop extends Verified e where
  incomplete : ∀ state, (e.signaturesOn state).length < e.channel.size

/-- A new entry is sound. -/
theorem sound_ofChannel (c : Channel) : (ofChannel c).Sound where
  genuine _ member := absurd member List.not_mem_nil
  after _ member := absurd member List.not_mem_nil
  nodup := List.nodup_nil
  unanimous _ supported := by cases supported
  incomplete _ := c.size_pos

/-- The signatures on a state are by different participants: they are at
the same turn, and in different places. -/
theorem Verified.nodup_signers (h : e.Verified) (state : State) :
    ((e.signaturesOn state).map SignedState.signer).Nodup := by
  have slots : ((e.signaturesOn state).map SignedState.slot).Nodup :=
    h.nodup.sublist (List.filter_sublist.map _)
  have sameTurn : (e.signaturesOn state).map SignedState.slot =
      ((e.signaturesOn state).map SignedState.signer).map fun a => (a, state.turnNum) := by
    rw [List.map_map]
    refine List.map_congr_left fun x member => ?_
    rw [SignedState.slot, (mem_signaturesOn.1 member).2]
    rfl
  rw [sameTurn] at slots
  exact List.Nodup.of_map _ slots

/-- Of the participants no one is twice among the signers of a state. -/
theorem Verified.signers_subperm (h : e.Verified) (state : State) :
    List.Subperm ((e.signaturesOn state).map SignedState.signer) e.channel.participants := by
  refine (h.nodup_signers state).subperm fun a member => ?_
  obtain ⟨x, onState, rfl⟩ := List.mem_map.1 member
  exact (h.genuine x (mem_signaturesOn.1 onState).1).participant

/-- As many signatures on a state as there are participants are one of
each. -/
theorem Verified.unanimous_signaturesOn (h : e.Verified)
    (channelId : state.channelId = e.channel.id)
    (complete : e.channel.size ≤ (e.signaturesOn state).length) :
    Unanimous e.channel (e.signaturesOn state) state where
  channelId := channelId
  same _ member := (mem_signaturesOn.1 member).2
  recovers x member := by
    obtain ⟨pending, rfl⟩ := mem_signaturesOn.1 member
    exact (h.genuine x pending).recovers
  signers := (h.signers_subperm state).perm_of_length_le (by rw [List.length_map]; exact complete)

/-- What is kept of a signed state that passes the check. -/
theorem Verified.record (h : e.Verified) (own : s.state.channelId = e.channel.id)
    (accepted : e.check s = .ok ()) : (e.record s).Verified := by
  obtain ⟨after, recovers, participant⟩ := check_eq_ok_iff.1 accepted
  constructor
  · intro x member
    rcases mem_pending_record.1 member with rfl | ⟨pending, -⟩
    · exact ⟨own, recovers, participant⟩
    · exact h.genuine x pending
  · intro x member
    rcases mem_pending_record.1 member with rfl | ⟨pending, -⟩
    · exact after
    · exact h.after x pending
  · rw [StoreEntry.record, List.map_append, List.map_singleton]
    refine List.nodup_append.2
      ⟨h.nodup.sublist (List.filter_sublist.map _), List.pairwise_singleton _ _, ?_⟩
    -- No other signed state is left in the new one's place.
    intro place member place' new same
    obtain ⟨x, kept, rfl⟩ := List.mem_map.1 member
    rw [List.mem_singleton.1 new, SignedState.slot_eq_iff] at same
    exact of_decide_eq_true (List.mem_filter.1 kept).2 same
  · exact h.unanimous

/-- Of every state someone's signature is missing. If everyone's were
pending, there would be as many as participants. -/
theorem Sound.exists_missing (h : e.Sound) (state : State) :
    ∃ a ∈ e.channel.participants, ∀ s ∈ e.pending, s.state = state → s.signer ≠ a := by
  by_contra all
  push Not at all
  have signers : e.channel.participants ⊆ (e.signaturesOn state).map SignedState.signer := by
    intro a participant
    obtain ⟨s, pending, onState, rfl⟩ := all a participant
    exact List.mem_map_of_mem (mem_signaturesOn.2 ⟨pending, onState⟩)
  have complete := (e.channel.nodup.subperm signers).length_le
  rw [List.length_map] at complete
  exact absurd (h.incomplete state) (Nat.not_lt.2 complete)

/-- The entry after the signatures on a state are complete. -/
theorem Verified.support {signed : List SignedState} (h : e.Verified)
    (complete : Unanimous e.channel signed state) :
    (e.support state signed (.ofState state)).Verified := by
  constructor
  · intro x member
    exact h.genuine x (mem_pending_support.1 member).1
  · rintro x member t ⟨⟩
    exact (mem_pending_support.1 member).2
  · exact h.nodup.sublist (List.filter_sublist.map _)
  · rintro l ⟨⟩
    exact ⟨complete, rfl⟩

/-- A signed state is kept, and there are not signatures of everyone on
its state. -/
theorem add_of_few (accepted : e.check s = .ok ())
    (few : ((e.record s).signaturesOn s.state).length < e.channel.size) :
    e.add s = (.ok none, e.record s) := by
  rw [add, accepted]
  exact if_pos few

/-- A signed state is kept, and everyone signed its state. Then the check
of the signatures can not fail, and the state is supported. -/
theorem add_of_unanimous (accepted : e.check s = .ok ())
    (complete : Unanimous e.channel ((e.record s).signaturesOn s.state) s.state) :
    e.add s = (.ok (some (.ofState s.state)),
      (e.record s).support s.state ((e.record s).signaturesOn s.state) (.ofState s.state)) := by
  have size : ((e.record s).signaturesOn s.state).length = e.channel.size :=
    (List.length_map _).symm.trans complete.signers.length_eq
  rw [add, accepted]
  show (e.record s).settle s.state = _
  rw [settle, show (e.record s).channel = e.channel from rfl, complete.validateUnanimous]
  exact if_neg (Nat.not_lt.2 size.symm.le)

/-- What becomes of a signed state: it is refused and changes nothing,
or it is kept and there are not signatures of everyone on its state, or
there are, and the state is supported from then on. -/
theorem add_cases (h : e.Verified) (own : s.state.channelId = e.channel.id) :
    (∃ error, e.check s = .error error ∧ e.add s = (.error error, e)) ∨
    (e.check s = .ok () ∧ ((e.record s).signaturesOn s.state).length < e.channel.size ∧
      e.add s = (.ok none, e.record s)) ∨
    (e.check s = .ok () ∧
      Unanimous e.channel ((e.record s).signaturesOn s.state) s.state ∧
      e.add s = (.ok (some (.ofState s.state)),
        (e.record s).support s.state ((e.record s).signaturesOn s.state) (.ofState s.state))) := by
  cases checked : e.check s with
  | error error => exact .inl ⟨error, rfl, by rw [add, checked]⟩
  | ok =>
    by_cases few : ((e.record s).signaturesOn s.state).length < e.channel.size
    · exact .inr (.inl ⟨rfl, few, add_of_few checked few⟩)
    · have complete : Unanimous e.channel ((e.record s).signaturesOn s.state) s.state :=
        (h.record own checked).unanimous_signaturesOn own (Nat.not_lt.1 few)
      exact .inr (.inr ⟨rfl, complete, add_of_unanimous checked complete⟩)

/-- On every state but that of the new signature, there are no more
signatures than before. -/
theorem length_signaturesOn_record (other : state ≠ s.state) :
    ((e.record s).signaturesOn state).length ≤ (e.signaturesOn state).length := by
  rw [signaturesOn, signaturesOn, StoreEntry.record, List.filter_append]
  have new : [s].filter (fun p => p.state = state) = [] := by simp [other.symm]
  rw [new, List.append_nil]
  exact (List.filter_sublist.filter _).length_le

/-- What is on the supported state itself is forgotten, for it is not
later. -/
theorem signaturesOn_support_self {signed : List SignedState} :
    (e.support state signed (.ofState state)).signaturesOn state = [] := by
  refine List.filter_eq_nil_iff.2 fun x member onState => ?_
  have later := (mem_pending_support.1 member).2
  rw [of_decide_eq_true onState] at later
  exact absurd later (UInt64.lt_irrefl _)

/-- A state that gets supported leaves no more signatures on another one. -/
theorem length_signaturesOn_support {signed : List SignedState} {supported : Supported}
    {other : State} : ((e.support state signed supported).signaturesOn other).length ≤
      (e.signaturesOn other).length :=
  (List.filter_sublist.filter _).length_le

/-- A sound entry stays sound, whatever is given to it. -/
theorem Sound.add (h : e.Sound) (own : s.state.channelId = e.channel.id) : (e.add s).2.Sound := by
  -- Only the state of the new signature can have more signatures than before.
  have others : ∀ state, state ≠ s.state →
      ((e.record s).signaturesOn state).length < e.channel.size :=
    fun state other => Nat.lt_of_le_of_lt (length_signaturesOn_record other) (h.incomplete state)
  rcases add_cases h.toVerified own with ⟨_, -, refused⟩ | ⟨checked, few, kept⟩ |
    ⟨checked, complete, supported⟩
  · rw [refused]
    exact h
  · rw [kept]
    refine ⟨h.toVerified.record own checked, fun state => ?_⟩
    by_cases same : state = s.state
    · rw [same]
      exact few
    · exact others state same
  · rw [supported]
    refine ⟨(h.toVerified.record own checked).support complete, fun state => ?_⟩
    by_cases same : state = s.state
    · rw [same, signaturesOn_support_self]
      exact e.channel.size_pos
    · exact Nat.lt_of_le_of_lt length_signaturesOn_support (others state same)

/-- An entry stays that of its channel. -/
theorem channel_add (e : StoreEntry) (s : SignedState) : (e.add s).2.channel = e.channel := by
  unfold add settle
  cases e.check s with
  | error error => rfl
  | ok =>
    simp only
    split
    · rfl
    · split <;> rfl

/-- A signature that passes the check, on a state that all others signed,
completes the support of the state. -/
theorem Sound.add_of_others (h : e.Sound) (own : s.state.channelId = e.channel.id)
    (accepted : e.check s = .ok ())
    (others : ∀ a ∈ e.channel.participants, a ≠ s.signer →
      ∃ x ∈ e.pending, x.state = s.state ∧ x.signer = a) :
    (e.add s).1 = .ok (some (.ofState s.state)) ∧
      (e.add s).2.latest.map SupportedState.state = some s.state := by
  rcases add_cases h.toVerified own with ⟨_, refused, -⟩ | ⟨-, -, kept⟩ | ⟨-, -, supported⟩
  · rw [accepted] at refused
    cases refused
  · -- Then no one's signature would be missing.
    obtain ⟨a, participant, missing⟩ := (h.add own).exists_missing s.state
    rw [channel_add] at participant
    rw [kept] at missing
    by_cases signer : a = s.signer
    · exact absurd signer.symm (missing s (mem_pending_record.2 (.inl rfl)) rfl)
    · obtain ⟨x, pending, onState, rfl⟩ := others a participant signer
      have otherSlot : x.slot ≠ s.slot := fun same => signer (SignedState.slot_eq_iff.1 same).1
      exact absurd rfl (missing x (mem_pending_record.2 (.inr ⟨pending, otherSlot⟩)) onState)
  · rw [supported]
    exact ⟨rfl, rfl⟩

end StoreEntry

end StateChannels
