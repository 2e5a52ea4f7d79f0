import Mathlib.Data.List.Nodup
import Mathlib.Data.List.Perm.Subperm
import StateChannels.Proofs.Support.Validation

/-!
# `StateChannels.Proofs.Support.Unanimous`: one state that everyone signed

Off the chain a state is supported once every participant signed it, and
`validateUnanimous` checks this. On the chain the same signatures make a
proof of a single state. `Unanimous` is what the two have in common: one
signed state of each participant, all of the same state.

* `validateUnanimous_eq_ok_iff`: what the check off the chain accepts.
  It lets a participant sign more than once.
* `Unanimous.ofSigned`: the proof that unanimous signatures make has
  their state only, and `Unanimous.supports` says that the chain accepts
  it.
* `unanimous_of_validate`: conversely, a proof of a single state that
  the chain accepts has unanimous signatures.
-/

set_option autoImplicit false

namespace StateChannels

/-- Every participant signed the state, once: the signers are the
participants in some order. -/
structure Unanimous (c : Channel) (signed : List SignedState) (state : State) : Prop where
  channelId : state.channelId = c.id
  same : ∀ s ∈ signed, s.state = state
  recovers : ∀ s ∈ signed, recoverSigner state.hash s.signature = .ok s.signer
  signers : (signed.map SignedState.signer).Perm c.participants

variable {c : Channel} {signed : List SignedState} {state : State}

/-! ### The check off the chain -/

/-- Someone did not sign, unless each participant is a signer. -/
theorem findIdx?_unsigned_eq_none_iff {participants : List Address} :
    (participants.findIdx? fun a => signed.all fun s => s.signer ≠ a) = none ↔
      ∀ a ∈ participants, ∃ s ∈ signed, s.signer = a := by
  simp [List.findIdx?_eq_none_iff]

/-- The check accepts signatures of participants on one state of the
channel, at least one of each participant. -/
theorem validateUnanimous_eq_ok_iff {turnNum : TurnNum} {x : Supported} :
    validateUnanimous c signed turnNum = .ok x ↔
      ∃ state, (∀ s ∈ signed, s.state = state) ∧ state.turnNum = turnNum ∧
        state.channelId = c.id ∧
        (∀ s ∈ signed, recoverSigner state.hash s.signature = .ok s.signer ∧
          s.signer ∈ c.participants) ∧
        (∀ a ∈ c.participants, ∃ s ∈ signed, s.signer = a) ∧ x = .ofState state := by
  cases signed with
  | nil =>
    -- There is a participant, and nothing signed by them.
    obtain ⟨a, participant⟩ := List.exists_mem_of_ne_nil _ c.ne_nil
    constructor
    · intro accepted
      cases accepted
    · rintro ⟨_, -, -, -, -, all, -⟩
      obtain ⟨_, none, -⟩ := all a participant
      cases none
  | cons first rest =>
    have allSame : (¬((first :: rest).any fun s => s.state ≠ first.state) = true) ↔
        ∀ s ∈ first :: rest, s.state = first.state := by simp
    rw [validateUnanimous]
    simp only [error_if_eq_ok_iff, allSame, check_bind_eq_ok_iff, forM_eq_ok_iff,
      checkSigner_eq_ok_iff, error_if_eq_ok_unit_iff, ne_eq, Decidable.not_not]
    have allSigned : (c.participants.findIdx? fun a =>
        (first :: rest).all fun s => s.signer ≠ a) = none ↔
        ∀ a ∈ c.participants, ∃ s ∈ first :: rest, s.signer = a :=
      findIdx?_unsigned_eq_none_iff
    constructor
    · rintro ⟨same, turn, channelId, signatures, complete⟩
      split at complete
      · cases complete
      · rename_i none
        exact ⟨first.state, same, turn, channelId, signatures, allSigned.1 none,
          (Except.ok.inj complete).symm⟩
    · rintro ⟨state, same, turn, channelId, signatures, all, rfl⟩
      obtain rfl : first.state = state := same first List.mem_cons_self
      refine ⟨same, turn, channelId, signatures, ?_⟩
      have none := allSigned.2 all
      simp only [ne_eq] at none
      rw [none]
      rfl

namespace Unanimous

/-- Someone signed, since a channel has participants. -/
theorem ne_nil (h : Unanimous c signed state) : signed ≠ [] := by
  rintro rfl
  exact c.ne_nil h.signers.symm.eq_nil

/-- Only participants signed. -/
theorem mem_participants (h : Unanimous c signed state) {s : SignedState} (member : s ∈ signed) :
    s.signer ∈ c.participants :=
  h.signers.mem_iff.1 (List.mem_map_of_mem member)

/-- No one signed twice. -/
theorem nodup (h : Unanimous c signed state) : signed.Nodup :=
  List.Nodup.of_map _ (h.signers.nodup_iff.2 c.nodup)

/-- Every participant signed. -/
theorem exists_signer (h : Unanimous c signed state) {a : Address}
    (participant : a ∈ c.participants) :
    ∃ s ∈ signed, s.signer = a :=
  List.mem_map.1 (h.signers.mem_iff.2 participant)

/-- Unanimous signatures are accepted off the chain. -/
theorem validateUnanimous (h : Unanimous c signed state) :
    validateUnanimous c signed state.turnNum = .ok (.ofState state) :=
  validateUnanimous_eq_ok_iff.2 ⟨state, h.same, rfl, h.channelId,
    fun _ member => ⟨h.recovers _ member, h.mem_participants member⟩,
    fun _ participant => h.exists_signer participant, rfl⟩

end Unanimous

/-! ### Proofs of a single state -/

/-- A proof of a single state shows that every participant signed it. -/
theorem SupportProof.supports_single_iff {p : SupportProof} {app? : Option App} {latest : State}
    (single : p.states = [state]) :
    p.Supports c app? latest ↔ state = latest ∧ state.channelId = c.id ∧
      p.assignment.length = c.size ∧ p.signatures.length = c.size ∧
      ∀ (i : Nat) (a : Address), c.participants[i]? = some a → p.Signed i a 0 state := by
  constructor
  · intro h
    have isLatest := h.isLatest
    rw [single] at isLatest
    obtain rfl : state = latest := Option.some.inj isLatest
    refine ⟨rfl, h.channelId state (by simp [single]), h.length_assignment, h.length_signatures, ?_⟩
    intro i a participant
    obtain ⟨index, s, signed, -⟩ := h.covers i a participant
    -- There is no other state to be assigned.
    obtain ⟨inside, found⟩ := List.getElem?_eq_some_iff.1 signed.found
    obtain rfl : index = 0 := by simpa [single] using inside
    obtain rfl : state = s := by simpa [single] using found
    exact signed
  · rintro ⟨rfl, channelId, length_assignment, length_signatures, signed⟩
    constructor
    · rw [single]
      rfl
    · rw [single]
      exact c.size_pos
    · intro s member
      rw [single, List.mem_singleton] at member
      rw [member, channelId]
    · rw [single]
      exact List.isChain_singleton _
    · intro app _
      rw [single]
      exact List.isChain_singleton _
    · exact length_assignment
    · exact length_signatures
    · intro i a participant
      exact ⟨0, state, signed i a participant, fun _ after le => absurd after (UInt64.not_lt.2 le)⟩

/-- The signatures of a proof of a single state, as signed states: one
of each participant. -/
def signedBy (c : Channel) (state : State) (signatures : List Signature) : List SignedState :=
  (c.participants.zip signatures).map fun (a, signature) => ⟨state, a, signature⟩

/-- One signature of each participant, in their order, is unanimous. -/
theorem unanimous_signedBy {signatures : List Signature} (channelId : state.channelId = c.id)
    (each : List.Forall₂ (fun a signature => recoverSigner state.hash signature = .ok a)
      c.participants signatures) : Unanimous c (signedBy c state signatures) state := by
  obtain ⟨length, recovers⟩ := List.forall₂_iff_zip.1 each
  refine ⟨channelId, ?_, ?_, ?_⟩
  · intro s member
    obtain ⟨_, -, rfl⟩ := List.mem_map.1 member
    rfl
  · intro s member
    obtain ⟨_, here, rfl⟩ := List.mem_map.1 member
    exact recovers here
  · have signers : (signedBy c state signatures).map SignedState.signer = c.participants := by
      rw [signedBy, List.map_map]
      exact List.map_fst_zip (Nat.le_of_eq length)
    rw [signers]

/-- The signatures of a proof of a single state are unanimous. -/
theorem unanimous_of_validate {p : SupportProof} {app? : Option App} {x : Supported}
    (single : p.states = [state]) (accepted : p.validate c app? = .ok x) :
    Unanimous c (signedBy c state p.signatures) state ∧ x = .ofState state := by
  obtain ⟨latest, supports, rfl⟩ := SupportProof.supports_of_validate accepted
  obtain ⟨rfl, channelId, -, length_signatures, signed⟩ :=
    (SupportProof.supports_single_iff single).1 supports
  refine ⟨unanimous_signedBy channelId ?_, rfl⟩
  refine List.forall₂_iff_zip.2 ⟨length_signatures.symm, fun {a signature} here => ?_⟩
  obtain ⟨i, here⟩ := List.mem_iff_getElem?.1 here
  obtain ⟨participant, given⟩ := List.getElem?_zip_eq_some.1 here
  obtain ⟨-, -, signature', given', recovered⟩ := signed i a participant
  obtain rfl : signature' = signature := Option.some.inj (given'.symm.trans given)
  exact recovered

/-! ### The proof that unanimous signatures make -/

/-- The signature of a participant among signed states. -/
def signatureOf (signed : List SignedState) (a : Address) : Signature :=
  ((signed.find? fun s => s.signer = a).map SignedState.signature).getD .zero

/-- The first signed state of a participant carries its signature. -/
theorem Unanimous.find?_eq_some (h : Unanimous c signed state) {a : Address}
    (participant : a ∈ c.participants) :
    ∃ s ∈ signed, s.signer = a ∧ s.signature = signatureOf signed a ∧
      (signed.find? fun s => s.signer = a) = some s := by
  obtain ⟨s, member, signer⟩ := h.exists_signer participant
  cases found : signed.find? fun s => s.signer = a with
  | none => exact absurd signer (by simpa using List.find?_eq_none.1 found s member)
  | some first =>
    refine ⟨first, List.mem_of_find?_eq_some found, by simpa using List.find?_some found, ?_, rfl⟩
    rw [signatureOf, found]
    rfl

/-- One more signed state counts if it is the participant's and on a
later state than the one so far. -/
theorem latestBy?_concat (states : List State) (a : Address) (signed : List SignedState)
    (s : SignedState) :
    SupportProof.latestBy? states a (signed ++ [s]) =
      if s.signer = a then
        match SupportProof.latestBy? states a signed with
        | some (i, signature) =>
          if i < states.idxOf s.state then some (states.idxOf s.state, s.signature)
          else some (i, signature)
        | none => some (states.idxOf s.state, s.signature)
      else SupportProof.latestBy? states a signed := by
  unfold SupportProof.latestBy?
  rw [List.foldl_append, List.foldl_cons, List.foldl_nil]
  split
  · cases signed.foldl _ none <;> rfl
  · rfl

/-- Among signatures on one state, the latest state that a participant
signed is this one, and their first signature counts. -/
theorem latestBy?_single (same : ∀ s ∈ signed, s.state = state) (a : Address) :
    SupportProof.latestBy? [state] a signed =
      (signed.find? fun s => s.signer = a).map fun s => (0, s.signature) := by
  -- From the end of the list, for the signatures before decide.
  induction signed using List.reverseRecOn with
  | nil => rfl
  | append_singleton before s ih =>
    have before_same : ∀ s ∈ before, s.state = state :=
      fun s member => same s (List.mem_append_left _ member)
    have here : [state].idxOf s.state = 0 := by
      rw [same s (List.mem_append_right _ (List.mem_singleton_self s)), List.idxOf_cons_self]
    rw [latestBy?_concat, ih before_same, here, List.find?_append]
    cases before.find? fun s => s.signer = a with
    | none => by_cases signer : s.signer = a <;> simp [signer]
    | some first => simp

namespace Unanimous

/-- All signed the one state. -/
theorem distinctStates (h : Unanimous c signed state) :
    SupportProof.distinctStates signed = [state] := by
  obtain ⟨first, rest, rfl⟩ := List.exists_cons_of_ne_nil h.ne_nil
  have first_state : first.state = state := h.same first List.mem_cons_self
  have others : (rest.map SignedState.state).filter (fun s => !s == state) = [] := by
    rw [List.filter_eq_nil_iff]
    intro s member
    obtain ⟨x, inRest, rfl⟩ := List.mem_map.1 member
    simp [h.same x (List.mem_cons_of_mem _ inRest)]
  rw [SupportProof.distinctStates, List.map_cons, List.eraseDups_cons, first_state, others,
    List.eraseDups_nil, List.mergeSort_singleton]

/-- Unanimous signatures make the proof that has their state only, and
of each participant their signature. -/
theorem ofSigned (h : Unanimous c signed state) :
    SupportProof.ofSigned c signed =
      .ok (.unanimous state (c.participants.map (signatureOf signed))) := by
  have known : (signed.find? fun s => s.signer ∉ c.participants) = none :=
    List.find?_eq_none.2 fun s member => by simpa using h.mem_participants member
  rw [SupportProof.ofSigned, known]
  refine bind_eq_ok_iff.2
    ⟨c.participants.zipIdx.map fun entry => (0, signatureOf signed entry.1), ?_, ?_⟩
  · refine mapM_eq_pure_map fun (a, i) member => ?_
    obtain ⟨s, -, -, signature, found⟩ := h.find?_eq_some (List.fst_mem_of_mem_zipIdx member)
    simp only [h.distinctStates, latestBy?_single h.same, found, Option.map_some, signature]
    rfl
  · have signatures : (c.participants.zipIdx.map fun entry => (0, signatureOf signed entry.1)).map
        Prod.snd = c.participants.map (signatureOf signed) := by
      conv_rhs => rw [← List.zipIdx_map_fst 0 c.participants, List.map_map]
      rw [List.map_map]
      rfl
    have assignment : (c.participants.zipIdx.map fun entry =>
        (0, signatureOf signed entry.1)).map Prod.fst =
        (c.participants.map (signatureOf signed)).map fun _ => 0 := by
      rw [← signatures, List.map_map, List.map_map, List.map_map]
      rfl
    simp only [h.distinctStates, signatures, assignment]
    rfl

/-- The chain accepts the proof that unanimous signatures make, under
any rule. -/
theorem supports (h : Unanimous c signed state) (app? : Option App) :
    (SupportProof.unanimous state (c.participants.map (signatureOf signed))).Supports c app?
      state := by
  refine (SupportProof.supports_single_iff rfl).2 ⟨rfl, h.channelId, ?_, ?_, ?_⟩
  · simp [SupportProof.unanimous, Channel.size]
  · simp [SupportProof.unanimous, Channel.size]
  · intro i a participant
    obtain ⟨s, member, rfl, signature, -⟩ := h.find?_eq_some (List.mem_of_getElem? participant)
    refine ⟨?_, rfl, signatureOf signed s.signer, ?_, ?_⟩
    · simp [SupportProof.unanimous, participant]
    · simp [SupportProof.unanimous, participant]
    · rw [← signature]
      exact h.recovers s member

end Unanimous

end StateChannels
