import StateChannels.Proofs.Support.Moves
import StateChannels.Proofs.Support.Unanimous

/-!
# `StateChannels.Proofs.Support.Assembly`: the proof that signed states make

A participant who collected signed states wants a proof of the last one.
The states of the proof are given by the list: all of them, each once, by
turn number. What is open is which state each participant is assigned, for
someone may have signed several of them, and one of them several times.
`SupportProof.ofSigned` takes the latest.

* `MadeOf`: a proof that can be made of a list of signed states.
* `Supports.states_eq`: if any such proof is accepted, there is only one
  way to put the states in order.
* `IsLatestBy`, `Assembled`: what `ofSigned` chooses, and `ofSigned_eq_ok`
  says when it makes a proof at all.
* `Assembled.supports`: the choice is the best one. Who is assigned a later
  state moves at fewer turns after it.
* `assembly_optimal`: if any choice is accepted, the one of `ofSigned` is,
  in whatever order the signed states are listed.
-/

set_option autoImplicit false

namespace StateChannels

/-- What is left after the repetitions are taken out has none. -/
theorem nodup_eraseDups {α : Type} [DecidableEq α] (xs : List α) : xs.eraseDups.Nodup := by
  cases xs with
  | nil => exact List.nodup_nil
  | cons a rest =>
    rw [List.eraseDups_cons, List.nodup_cons]
    refine ⟨fun again => ?_, nodup_eraseDups (rest.filter fun b => !b == a)⟩
    simp at again
termination_by xs.length
decreasing_by exact Nat.lt_succ_of_le (List.length_filter_le ..)

namespace SupportProof

variable {c : Channel} {p q : SupportProof} {app? : Option App} {latest state : State}
  {signed signed' : List SignedState} {states : List State} {a : Address} {index : Nat}
  {signature : Signature}

/-! ### The states of a proof -/

/-- The distinct states are those that someone signed. -/
theorem mem_distinctStates :
    state ∈ distinctStates signed ↔ ∃ s ∈ signed, s.state = state := by
  unfold distinctStates
  rw [(List.mergeSort_perm ..).mem_iff, List.mem_eraseDups, List.mem_map]

/-- No state is twice among the distinct ones. -/
theorem nodup_distinctStates (signed : List SignedState) : (distinctStates signed).Nodup :=
  (List.mergeSort_perm ..).nodup_iff.2 (nodup_eraseDups _)

/-- The distinct states are in the order of their turns. -/
theorem ordered_distinctStates (signed : List SignedState) :
    (distinctStates signed).Pairwise fun s t => s.turnNum ≤ t.turnNum := by
  have sorted := @List.pairwise_mergeSort State (fun s t => decide (s.turnNum ≤ t.turnNum))
    (fun s t u => by simpa using UInt64.le_trans) (fun s t => by simpa using UInt64.le_total _ _)
    (signed.map SignedState.state).eraseDups
  exact sorted.imp of_decide_eq_true

/-- A proof that the signed states can make. It has their states, each of
them once, by turn number. Each participant is assigned a state that they
signed, with one of their signatures on it. -/
structure MadeOf (p : SupportProof) (c : Channel) (signed : List SignedState) : Prop where
  nodup : p.states.Nodup
  mem_states : ∀ state, state ∈ p.states ↔ ∃ s ∈ signed, s.state = state
  ordered : p.states.Pairwise fun s t => s.turnNum ≤ t.turnNum
  signature : ∀ (i : Nat) (a : Address), c.participants[i]? = some a →
    ∃ s ∈ signed, s.signer = a ∧ p.signatures[i]? = some s.signature ∧
      ∃ index, p.assignment[i]? = some index ∧ p.states[index]? = some s.state

/-- Neither order nor repetitions count. -/
theorem MadeOf.congr (h : p.MadeOf c signed) (same : ∀ s, s ∈ signed' ↔ s ∈ signed) :
    p.MadeOf c signed' := by
  constructor
  · exact h.nodup
  · simpa only [same] using h.mem_states
  · exact h.ordered
  · simpa only [same] using h.signature

/-- States at consecutive turns are at different turns. -/
theorem Supports.eq_of_turnNum_eq (h : p.Supports c app? latest) {s t : State}
    (member : s ∈ p.states) (member' : t ∈ p.states) (sameTurn : s.turnNum = t.turnNum) :
    s = t := by
  have later : (p.states.map fun s => s.turnNum.toNat).IsChain (· < ·) := by
    refine (List.isChain_map _).2 (h.consecutive.imp fun s t next => ?_)
    omega
  have distinct : (p.states.map fun s => s.turnNum.toNat).Nodup :=
    later.pairwise.imp Nat.ne_of_lt
  exact List.inj_on_of_nodup_map distinct member member' (congrArg UInt64.toNat sameTurn)

/-- The signed states make only one list of states of which a proof can be
accepted. -/
theorem Supports.states_eq (h : q.Supports c app? latest) (made : q.MadeOf c signed)
    (nodup : states.Nodup) (mem_states : ∀ state, state ∈ states ↔ ∃ s ∈ signed, s.state = state)
    (ordered : states.Pairwise fun s t => s.turnNum ≤ t.turnNum) : states = q.states := by
  have perm : states.Perm q.states := by
    rw [List.perm_ext_iff_of_nodup nodup made.nodup]
    intro state
    rw [mem_states, made.mem_states]
  refine perm.eq_of_pairwise (fun s t member member' le ge => ?_) ordered made.ordered
  exact h.eq_of_turnNum_eq (perm.mem_iff.1 member) member' (UInt64.le_antisymm le ge)

/-! ### The latest state of a participant -/

/-- The participant signed the state at the index with this signature, and
none of the later states. -/
structure IsLatestBy (states : List State) (a : Address) (signed : List SignedState)
    (index : Nat) (signature : Signature) : Prop where
  attained : ∃ s ∈ signed, s.signer = a ∧ states.idxOf s.state = index ∧ s.signature = signature
  latest : ∀ s ∈ signed, s.signer = a → states.idxOf s.state ≤ index

/-- A signed state that is not later, or by someone else, does not count. -/
theorem IsLatestBy.keep {before : List SignedState} {s : SignedState}
    (h : IsLatestBy states a before index signature)
    (notLater : s.signer = a → states.idxOf s.state ≤ index) :
    IsLatestBy states a (before ++ [s]) index signature := by
  obtain ⟨t, old, own⟩ := h.attained
  refine ⟨⟨t, List.mem_append_left _ old, own⟩, fun u member signer => ?_⟩
  rcases List.mem_append.1 member with old | new
  · exact h.latest u old signer
  · rw [List.mem_singleton.1 new] at signer ⊢
    exact notLater signer

/-- One that is not earlier than all before takes their place. -/
theorem IsLatestBy.replace {before : List SignedState} {s : SignedState} (signer : s.signer = a)
    (notEarlier : ∀ t ∈ before, t.signer = a → states.idxOf t.state ≤ states.idxOf s.state) :
    IsLatestBy states a (before ++ [s]) (states.idxOf s.state) s.signature := by
  refine ⟨⟨s, by simp, signer, rfl, rfl⟩, fun t member isSigner => ?_⟩
  rcases List.mem_append.1 member with old | new
  · exact notEarlier t old isSigner
  · rw [List.mem_singleton.1 new]

/-- What the search ends with. -/
theorem latestBy?_spec (states : List State) (a : Address) (signed : List SignedState) :
    (latestBy? states a signed = none ∧ ∀ s ∈ signed, s.signer ≠ a) ∨
      ∃ index signature, latestBy? states a signed = some (index, signature) ∧
        IsLatestBy states a signed index signature := by
  -- From the end of the list: the last signed state is compared with the best one before.
  induction signed using List.reverseRecOn with
  | nil => exact .inl ⟨rfl, by simp⟩
  | append_singleton before s ih =>
    rw [latestBy?_concat]
    by_cases signer : s.signer = a
    · right
      rw [if_pos signer]
      rcases ih with ⟨none, no⟩ | ⟨index, signature, found, isLatest⟩
      · rw [none]
        exact ⟨_, _, rfl, .replace signer fun t old isSigner => absurd isSigner (no t old)⟩
      · rw [found]
        by_cases later : index < states.idxOf s.state
        · refine ⟨_, _, if_pos later, .replace signer fun t old isSigner => ?_⟩
          exact Nat.le_trans (isLatest.latest t old isSigner) (Nat.le_of_lt later)
        · exact ⟨_, _, if_neg later, isLatest.keep fun _ => Nat.not_lt.1 later⟩
    · rw [if_neg signer]
      rcases ih with ⟨none, no⟩ | ⟨index, signature, found, isLatest⟩
      · left
        refine ⟨none, fun t member => ?_⟩
        rcases List.mem_append.1 member with old | new
        · exact no t old
        · rw [List.mem_singleton.1 new]
          exact signer
      · right
        exact ⟨index, signature, found, isLatest.keep fun isSigner => absurd isSigner signer⟩

/-! ### The proof that is made -/

/-- The signed states are by participants. The proof has their states, each
of them once, by turn number, and each participant is assigned the latest
state that they signed. -/
structure Assembled (p : SupportProof) (c : Channel) (signed : List SignedState) : Prop where
  participants : ∀ s ∈ signed, s.signer ∈ c.participants
  states_eq : p.states = distinctStates signed
  length_assignment : p.assignment.length = c.size
  length_signatures : p.signatures.length = c.size
  latest : ∀ (i : Nat) (a : Address), c.participants[i]? = some a →
    ∃ index signature, p.assignment[i]? = some index ∧ p.signatures[i]? = some signature ∧
      IsLatestBy p.states a signed index signature

/-- Everyone signed something, so there is a proof. -/
theorem exists_ofSigned (participants : ∀ s ∈ signed, s.signer ∈ c.participants)
    (all : ∀ a ∈ c.participants, ∃ s ∈ signed, s.signer = a) :
    ∃ p, ofSigned c signed = .ok p := by
  have known : (signed.find? fun s => s.signer ∉ c.participants) = none :=
    List.find?_eq_none.2 fun s member => by simpa using participants s member
  rw [ofSigned, known]
  -- It is enough that the search finds something for each participant.
  refine Exists.elim (exists_mapM_eq_ok ?_) fun assigned searched =>
    ⟨_, bind_eq_ok_iff.2 ⟨assigned, searched, rfl⟩⟩
  rintro ⟨a, i⟩ member
  obtain ⟨s, isSigned, signer⟩ := all a (List.fst_mem_of_mem_zipIdx member)
  rcases latestBy?_spec (distinctStates signed) a signed with ⟨-, no⟩ |
    ⟨index, signature, found, -⟩
  · exact absurd signer (no s isSigned)
  · exact ⟨(index, signature), by simp only [found]⟩

/-- A proof that is made has the latest state of each participant. -/
theorem assembled_of_ofSigned (made : ofSigned c signed = .ok p) : p.Assembled c signed := by
  unfold ofSigned at made
  split at made
  · cases made
  · rename_i known
    obtain ⟨assigned, searched, ⟨⟩⟩ := bind_eq_ok_iff.1 made
    obtain ⟨length, results⟩ := getElem?_of_mapM_eq_ok searched
    rw [List.length_zipIdx] at length
    constructor
    · intro s member
      simpa using List.find?_eq_none.1 known s member
    · rfl
    · rw [List.length_map, length, Channel.size]
    · rw [List.length_map, length, Channel.size]
    -- Each participant is assigned what the search for its latest state found.
    · intro i a participant
      have place : c.participants.zipIdx[i]? = some (a, i) := by simp [participant]
      obtain ⟨⟨index, signature⟩, found, result⟩ := results i (a, i) place
      refine ⟨index, signature, ?_, ?_, ?_⟩
      · simp [result]
      · simp [result]
      · rcases latestBy?_spec (distinctStates signed) a signed with
          ⟨none, -⟩ | ⟨index', signature', found', isLatest⟩
        · simp only [none] at found
          cases found
        · simp only [found'] at found
          cases found
          exact isLatest

/-- The proof is one of those that the signed states can make. -/
theorem Assembled.madeOf (h : p.Assembled c signed) : p.MadeOf c signed := by
  constructor
  · rw [h.states_eq]
    exact nodup_distinctStates signed
  · intro state
    rw [h.states_eq]
    exact mem_distinctStates
  · rw [h.states_eq]
    exact ordered_distinctStates signed
  · intro i a participant
    obtain ⟨index, signature, assigned, given, isLatest⟩ := h.latest i a participant
    obtain ⟨s, member, signer, rfl, rfl⟩ := isLatest.attained
    refine ⟨s, member, signer, given, _, assigned, List.getElem?_idxOf ?_⟩
    rw [h.states_eq]
    exact mem_distinctStates.2 ⟨s, member, rfl⟩

/-- Who is covered by an earlier state that they signed is covered by their
latest one. -/
theorem Assembled.covers (h : p.Assembled c signed) (made : q.MadeOf c signed)
    (verified : ∀ s ∈ signed, s.verify = .ok s.state.hash) (supports : q.Supports c app? latest)
    (sameStates : p.states = q.states) {i : Nat} (participant : c.participants[i]? = some a) :
    p.Covers c latest i a := by
  obtain ⟨index, signature, assigned, given, isLatest⟩ := h.latest i a participant
  obtain ⟨s, member, signer, rfl, rfl⟩ := isLatest.attained
  have found : p.states[p.states.idxOf s.state]? = some s.state :=
    List.getElem?_idxOf (h.madeOf.mem_states _ |>.2 ⟨s, member, rfl⟩)
  obtain ⟨index', state, chosen, still⟩ := supports.covers i a participant
  -- What `q` assigns is the place of a state that the participant signed, too.
  have earlier : index' ≤ p.states.idxOf s.state := by
    obtain ⟨t, member', signer', -, place, assigned', found'⟩ := made.signature i a participant
    obtain rfl : index' = place := Option.some.inj (chosen.assigned.symm.trans assigned')
    obtain ⟨inside, isState⟩ := List.getElem?_eq_some_iff.1 found'
    have here : p.states.idxOf t.state = index' := by
      rw [sameStates, ← isState]
      exact made.nodup.idxOf_getElem index' inside
    exact here ▸ isLatest.latest t member' signer'
  have notBefore : state.turnNum ≤ s.state.turnNum := by
    rw [sameStates] at found earlier
    have turn := turnNum_latest supports.consecutive supports.isLatest found
    have turn' := turnNum_latest supports.consecutive supports.isLatest chosen.found
    rw [UInt64.le_iff_toNat_le]
    omega
  refine ⟨_, s.state, ⟨assigned, found, s.signature, given, ?_⟩, fun turn after le => ?_⟩
  · rw [← signer]
    exact (SignedState.verify_eq_ok_iff.1 (verified s member)).1
  · exact still turn (UInt64.lt_of_le_of_lt notBefore after) le

/-- If any proof that the signed states can make supports a state, the one
that is made does. -/
theorem Assembled.supports (h : p.Assembled c signed) (made : q.MadeOf c signed)
    (verified : ∀ s ∈ signed, s.verify = .ok s.state.hash)
    (supports : q.Supports c app? latest) : p.Supports c app? latest := by
  have sameStates : p.states = q.states :=
    supports.states_eq made h.madeOf.nodup h.madeOf.mem_states h.madeOf.ordered
  constructor
  · rw [sameStates]
    exact supports.isLatest
  · rw [sameStates]
    exact supports.length_le
  · rw [sameStates]
    exact supports.channelId
  · rw [sameStates]
    exact supports.consecutive
  · rw [sameStates]
    exact supports.valid
  · exact h.length_assignment
  · exact h.length_signatures
  · intro i a participant
    exact h.covers made verified supports sameStates participant

/-- Someone has a proof that the signed states can make, and it is
accepted. Then so is the proof that is made of them. -/
theorem exists_ofSigned_of_madeOf {x : Supported}
    (verified : ∀ s ∈ signed, s.verify = .ok s.state.hash)
    (participants : ∀ s ∈ signed, s.signer ∈ c.participants) (made : q.MadeOf c signed)
    (accepted : q.validate c app? = .ok x) :
    ∃ p, ofSigned c signed = .ok p ∧ p.validate c app? = .ok x := by
  obtain ⟨latest, supports, rfl⟩ := supports_of_validate accepted
  obtain ⟨p, isMade⟩ := exists_ofSigned participants fun a participant => by
    obtain ⟨i, participant⟩ := List.mem_iff_getElem?.1 participant
    obtain ⟨s, member, signer, -⟩ := made.signature i a participant
    exact ⟨s, member, signer⟩
  exact ⟨p, isMade, ((assembled_of_ofSigned isMade).supports made verified supports).validate⟩

/-- A list of verified signed states by participants. If a proof that they
can make is accepted, whatever states it assigns, then the proof that is
made of the list is accepted with the same result. So it does not depend on
the order of the list, or on how often something is listed, whether the
proof is accepted and with which result. -/
theorem assembly_optimal (c : Channel) (app? : Option App) (signed : List SignedState)
    (verified : ∀ s ∈ signed, s.verify = .ok s.state.hash)
    (participants : ∀ s ∈ signed, s.signer ∈ c.participants) :
    (∀ (q : SupportProof) (x : Supported), q.MadeOf c signed → q.validate c app? = .ok x →
      ∃ p, ofSigned c signed = .ok p ∧ p.validate c app? = .ok x) ∧
    ∀ signed' : List SignedState, (∀ s, s ∈ signed' ↔ s ∈ signed) → ∀ x : Supported,
      ((∃ p, ofSigned c signed' = .ok p ∧ p.validate c app? = .ok x) ↔
        ∃ p, ofSigned c signed = .ok p ∧ p.validate c app? = .ok x) := by
  refine ⟨fun q x => exists_ofSigned_of_madeOf verified participants, ?_⟩
  intro signed' same x
  constructor
  · rintro ⟨p, made, accepted⟩
    have madeOf := (assembled_of_ofSigned made).madeOf.congr fun s => (same s).symm
    exact exists_ofSigned_of_madeOf verified participants madeOf accepted
  · rintro ⟨p, made, accepted⟩
    have madeOf := (assembled_of_ofSigned made).madeOf.congr same
    exact exists_ofSigned_of_madeOf (fun s member => verified s ((same s).1 member))
      (fun s member => participants s ((same s).1 member)) madeOf accepted

end SupportProof

/-! ### Signed states out of order -/

namespace Adjudicator.Sample

/-- Bob signed the states at turns 4 and 5, Alice the one at turn 4. The
latest state comes first, and Alice's signature twice. -/
def scattered : List SignedState :=
  [⟨stateAt 5, bob, signatureAtFive⟩, ⟨state, bob, signatureOfBob⟩,
    ⟨state, alice, signatureOfAlice⟩, ⟨state, alice, signatureOfAlice⟩]

/-- The scattered signatures are those of the signers. -/
theorem verified_scattered : ∀ s ∈ scattered, s.verify = .ok s.state.hash := by
  have byAlice : (⟨state, alice, signatureOfAlice⟩ : SignedState).verify = .ok state.hash :=
    SignedState.verify_eq_ok_iff.2 ⟨recoverSigner_signatureOfAlice, rfl⟩
  have byBob : (⟨state, bob, signatureOfBob⟩ : SignedState).verify = .ok state.hash :=
    SignedState.verify_eq_ok_iff.2 ⟨recoverSigner_signatureOfBob, rfl⟩
  have byBobAtFive : (⟨stateAt 5, bob, signatureAtFive⟩ : SignedState).verify =
      .ok (stateAt 5).hash :=
    SignedState.verify_eq_ok_iff.2 ⟨recoverSigner_signatureAtFive, rfl⟩
  intro s member
  simp only [scattered, List.mem_cons, List.not_mem_nil, or_false] at member
  rcases member with rfl | rfl | rfl | rfl
  · exact byBobAtFive
  · exact byBob
  · exact byAlice
  · exact byAlice

/-- In the proof of the sample each participant signed the own state. -/
theorem madeOf_round : round.MadeOf channel scattered := by
  have distinct : state ≠ stateAt 5 := fun same => absurd (congrArg State.turnNum same) (by decide)
  constructor
  · simpa [round] using distinct
  · intro s
    simp [round, scattered, eq_comm, or_comm]
  · simp only [round, List.pairwise_pair]
    decide
  · intro i a participant
    match i with
    | 0 =>
      obtain rfl : alice = a := Option.some.inj participant
      exact ⟨⟨state, alice, signatureOfAlice⟩, by simp [scattered], rfl, rfl, 0, rfl, rfl⟩
    | 1 =>
      obtain rfl : bob = a := Option.some.inj participant
      exact ⟨⟨stateAt 5, bob, signatureAtFive⟩, by simp [scattered], rfl, rfl, 1, rfl, rfl⟩
    | i + 2 => cases participant

end Adjudicator.Sample

open Adjudicator.Sample in
/-- The scattered list makes a proof that is accepted, forwards and
backwards, with Bob assigned the later of his two states. -/
theorem SupportProof.assembly_optimal_scattered :
    (∃ p, ofSigned channel scattered = .ok p ∧
      p.validate channel (some .trivial) = .ok (.ofState (stateAt 5))) ∧
    ∃ p, ofSigned channel scattered.reverse = .ok p ∧
      p.validate channel (some .trivial) = .ok (.ofState (stateAt 5)) := by
  have participants : ∀ s ∈ scattered, s.signer ∈ channel.participants := by
    simp [scattered, channel]
  obtain ⟨best, anyOrder⟩ := assembly_optimal channel (some .trivial) scattered
    verified_scattered participants
  have accepted := best round _ madeOf_round validate_round
  exact ⟨accepted, (anyOrder scattered.reverse (fun s => List.mem_reverse) _).2 accepted⟩

end StateChannels
