import Mathlib.Data.List.Nodup
import Mathlib.Data.List.Perm.Subperm
import StateChannels.Proofs.Negotiation.Parley

/-!
# `StateChannels.Proofs.Negotiation.Delivery`: one proposal that everybody likes

One participant proposes a strategy that is acceptable to all, and every
message arrives exactly once, in any order. Each of the others accepts the
proposal when it arrives, so an acceptance of every participant goes to
every other one.

An acceptance that arrives before the proposal itself is dropped, for there
is no open proposal that it could be counted for. It is not sent again.
With three participants or more this happens even where every message
arrives in the order in which its sender sent it.

* `Spreading`: what holds while the messages arrive, with its step lemma
  `Spreading.delivered`.
* `lost_delivered`: an arrival loses an acceptance just if the proposal is
  still behind it.
* `agreed_or_overtaken`: when nothing is on its way any more, those have
  agreed to whom no acceptance came before the proposal. All others wait,
  and nothing that could happen later changes this (`run_append`).
* `Sample.waiting`: a run of three participants in which one of them waits.
-/

set_option autoImplicit false

namespace StateChannels

namespace Negotiation

variable {n : Negotiation} {sender a : Address} {s : Strategy} {acceptable : List Strategy}

/-! ### The exact result of a message -/

/-- The status tells whether the acceptances are complete. -/
def Tallied (n : Negotiation) (s : Strategy) : Prop :=
  n.status = if ∀ a ∈ n.participants, a ∈ n.acceptedBy then .agreed s else .pending s

/-- The check of a pending proposal counts the acceptances. -/
theorem tallied_checkAgreed (pending : n.status = .pending s) : n.checkAgreed.Tallied s := by
  by_cases all : ∀ a ∈ n.participants, a ∈ n.acceptedBy
  · rw [checkAgreed_of_pending pending, if_pos all]
    exact (if_pos all).symm
  · rw [checkAgreed_of_pending pending, if_neg all, Tallied, if_neg all]
    exact pending

/-- Counted acceptances leave the strategy pending or agreed. -/
theorem Tallied.status (h : n.Tallied s) : n.status = .agreed s ∨ n.status = .pending s := by
  rw [h]
  split
  · exact .inl rfl
  · exact .inr rfl

/-- The first proposal to a participant who finds it acceptable. -/
theorem handle_first_proposal (known : sender ∈ n.participants) (other : sender ≠ n.me)
    (idle : n.status = .idle) (first : n.attempts = 0) (allowed : 1 ≤ n.maxAttempts)
    (fine : s ∈ acceptable) :
    n.handle sender (.proposal n.target s 1) acceptable =
      (.ok (some (.agreed n.target s)), (n.openAttempt 1 s sender).accept n.me) := by
  have newer : n.attempts < 1 := by
    rw [first]
    decide
  exact handle_newer_proposal known other (.inl idle) newer allowed fine

/-- Whoever has no proposal open drops an acceptance. -/
theorem handle_agreed_of_idle (known : sender ∈ n.participants) (other : sender ≠ n.me)
    (idle : n.status = .idle) :
    n.handle sender (.agreed n.target s) acceptable = (.ok none, n) := by
  have same : ¬(StrategyMessage.agreed n.target s).target ≠ n.target := not_not_intro rfl
  have partner : ¬(sender ∉ n.participants ∨ sender = n.me) := by simp [known, other]
  rw [handle, if_neg same, if_neg partner]
  simp [idle]

/-- Whoever has the proposal counts an acceptance of it, or has counted it
before. -/
theorem Tallied.handle_agreed (h : n.Tallied s) (known : sender ∈ n.participants)
    (other : sender ≠ n.me) :
    ∃ n', n.handle sender (.agreed n.target s) acceptable = (.ok none, n') ∧ n'.Tallied s ∧
      ∀ a ∈ n.participants, a ∈ n'.acceptedBy ↔ a = sender ∨ a ∈ n.acceptedBy := by
  by_cases all : ∀ a ∈ n.participants, a ∈ n.acceptedBy
  · -- There is an agreement already, so nothing is missing.
    have agreed : n.status = .agreed s := by rw [h, if_pos all]
    have same : ¬(StrategyMessage.agreed n.target s).target ≠ n.target := not_not_intro rfl
    have partner : ¬(sender ∉ n.participants ∨ sender = n.me) := by simp [known, other]
    refine ⟨n, ?_, h, ?_⟩
    · rw [handle, if_neg same, if_neg partner]
      simp [agreed]
    · intro a participant
      simp [all a participant]
  · have pending : n.status = .pending s := by rw [h, if_neg all]
    refine ⟨n.accept sender, handle_agreed_of_pending known other pending,
      tallied_checkAgreed pending, fun a participant => ?_⟩
    rw [acceptedBy_accept, List.mem_cons]

end Negotiation

namespace Parley

variable {p : Parley} {w : World} {x u v a : Address} {s t : Strategy} {d : Dispatch} {e : Event}
  {events : List Event} {n : Negotiation} {m? : Option StrategyMessage}

/-! ### Acceptances that come too early -/

/-- A message on its way is an acceptance, and a proposal to the same
recipient is still behind it. -/
structure Overtakes (p : Parley) (w : World) (d : Dispatch) : Prop where
  onItsWay : d ∈ w.inFlight
  acceptance : ∃ s, d.message = .agreed p.target s
  behind : ∃ d' ∈ w.inFlight, d'.recipient = d.recipient ∧
    ∃ s attempt, d'.message = .proposal p.target s attempt

/-- To the participant came an acceptance before a proposal. -/
def Overtaken (p : Parley) (events : List Event) (v : Address) : Prop :=
  ∃ before d rest, events = before ++ .deliver d :: rest ∧ d.recipient = v ∧
    Overtakes p (p.run before) d

/-- Nothing overtakes before the first event. -/
theorem not_overtaken_nil : ¬Overtaken p [] v := by
  rintro ⟨before, d, rest, split, -⟩
  exact List.append_ne_nil_of_right_ne_nil _ (List.cons_ne_nil _ _) split.symm

/-- A further event overtakes when it brings such an acceptance. -/
theorem overtaken_concat :
    Overtaken p (events ++ [e]) v ↔
      Overtaken p events v ∨
        ∃ d, e = .deliver d ∧ d.recipient = v ∧ Overtakes p (p.run events) d := by
  constructor
  · rintro ⟨before, d, rest, split, recipient, overtakes⟩
    rcases List.eq_nil_or_concat rest with rfl | ⟨rest, last, rfl⟩
    · obtain ⟨rfl, rfl⟩ := List.concat_inj.1 (by simpa using split)
      exact .inr ⟨d, rfl, recipient, overtakes⟩
    · left
      refine ⟨before, d, rest, ?_, recipient, overtakes⟩
      exact (List.append_inj' (split.trans (by simp : _ = (before ++ .deliver d :: rest) ++ [last]))
        rfl).1
  · rintro (⟨before, d, rest, split, recipient, overtakes⟩ | ⟨d, rfl, recipient, overtakes⟩)
    · refine ⟨before, d, rest ++ [e], ?_, recipient, overtakes⟩
      rw [split, List.append_assoc, List.cons_append]
    · exact ⟨events, d, [], rfl, recipient, overtakes⟩

/-! ### What is on its way -/

/-- The proposal on its way to a participant. -/
def proposalTo (p : Parley) (x : Address) (s : Strategy) (v : Address) : Dispatch :=
  ⟨x, v, .proposal p.target s 1, 1⟩

/-- The acceptance of a participant on its way to another one. -/
def acceptanceTo (p : Parley) (s : Strategy) (u v : Address) : Dispatch :=
  ⟨u, v, .agreed p.target s, 1⟩

/-- A proposal is no acceptance. -/
theorem proposalTo_ne_acceptanceTo : p.proposalTo x s v ≠ p.acceptanceTo t u a := by
  intro same
  cases congrArg Dispatch.message same

/-- The proposals to different recipients differ. -/
theorem proposalTo_inj : p.proposalTo x s u = p.proposalTo x s v ↔ u = v :=
  ⟨congrArg Dispatch.recipient, congrArg _⟩

/-- The acceptances of different senders or for different recipients differ. -/
theorem acceptanceTo_inj {v' : Address} :
    p.acceptanceTo s u v = p.acceptanceTo s a v' ↔ u = a ∧ v = v' := by
  simp [acceptanceTo]

/-- What can be on its way while a proposal is spreading. Whoever accepted
the proposal has it. -/
inductive Underway (p : Parley) (x : Address) (s : Strategy) (w : World) : Dispatch → Prop
  | proposal {v : Address} (recipient : v ∈ p.participants) (other : v ≠ x) :
      Underway p x s w (p.proposalTo x s v)
  | acceptance {u v : Address} (sender : u ∈ p.participants) (recipient : v ∈ p.participants)
      (other : u ≠ x) (ne : v ≠ u) (arrived : p.proposalTo x s u ∉ w.inFlight) :
      Underway p x s w (p.acceptanceTo s u v)

/-- Where a participant is who has the proposal. -/
structure Informed (x : Address) (s : Strategy) (v : Address) (n : Negotiation) : Prop where
  proposer : x ∈ n.acceptedBy
  self : v ∈ n.acceptedBy
  tallied : n.Tallied s

/-- What holds while a proposal is spreading. -/
structure Spreading (p : Parley) (x : Address) (s : Strategy) (w : World) : Prop where
  once : w.inFlight.Nodup
  underway : ∀ d ∈ w.inFlight, Underway p x s w d
  fresh : ∀ v ∈ p.participants, p.proposalTo x s v ∈ w.inFlight →
    w.negotiations v = p.start.negotiations v
  informed : ∀ v ∈ p.participants, p.proposalTo x s v ∉ w.inFlight →
    Informed x s v (w.negotiations v)

/-- No dispatch is posted twice. -/
theorem nodup_post (p : Parley) (who : Address) (n : Negotiation) (m? : Option StrategyMessage) :
    (p.post who n m?).Nodup := by
  cases m? with
  | none => simp [post]
  | some m =>
    have distinct : (p.participants.filter fun a => a ≠ who).Nodup := p.nodup.filter _
    simp only [post, Option.toList_some, List.flatMap_cons, List.flatMap_nil, List.append_nil]
    exact List.Nodup.map (fun a b same => congrArg Dispatch.recipient same) distinct

/-- A message goes to all others. -/
theorem mem_post_some (attempt : n.attempts = 1) (m : StrategyMessage) :
    d ∈ p.post v n (some m) ↔ ∃ a ∈ p.participants, a ≠ v ∧ d = ⟨v, a, m, 1⟩ := by
  rw [mem_post, attempt]
  constructor
  · rintro ⟨sender, recipient, ne, message, stamp⟩
    exact ⟨d.recipient, recipient, ne,
      Dispatch.ext sender rfl (Option.some.inj message).symm stamp⟩
  · rintro ⟨a, recipient, ne, rfl⟩
    exact ⟨rfl, recipient, ne, rfl, rfl⟩

/-- Taking a dispatch off the way leaves the others on it. -/
theorem mem_take (h : w.inFlight.Nodup) {arrived : Dispatch} :
    d ∈ (w.take arrived).inFlight ↔ d ≠ arrived ∧ d ∈ w.inFlight :=
  h.mem_erase_iff

/-- Who sends nothing and stays where they are changes nothing. -/
theorem after_none (p : Parley) (w : World) (who : Address) :
    p.after w who (w.negotiations who) none = w := by
  have same : (fun a => if a = who then w.negotiations who else w.negotiations a) =
      w.negotiations := by
    funext a
    split
    case isTrue here => rw [here]
    case isFalse => rfl
  rw [after, same]
  simp [post]

/-! ### The start -/

/-- The proposal goes out. -/
theorem run_propose (participant : x ∈ p.participants) (allowed : 1 ≤ p.maxAttempts) :
    p.run [.propose x s] = p.after p.start x
      ((p.start.negotiations x).openAttempt 1 s x).checkAgreed
      (some (.proposal p.target s 1)) := by
  have left : ¬p.maxAttempts ≤ (0 : UInt32) := by
    rw [UInt32.not_le]
    exact UInt32.lt_of_lt_of_le (by decide) allowed
  have proposed : (p.start.negotiations x).propose s = (.ok (.proposal p.target s 1),
      ((p.start.negotiations x).openAttempt 1 s x).checkAgreed) := if_neg left
  show p.step p.start (.propose x s) = _
  rw [step, if_pos participant, proposed]
  rfl

/-- It is on its way to all others, and nothing else is. -/
theorem mem_inFlight_propose (participant : x ∈ p.participants) (allowed : 1 ≤ p.maxAttempts) :
    d ∈ (p.run [.propose x s]).inFlight ↔
      ∃ v ∈ p.participants, v ≠ x ∧ d = p.proposalTo x s v := by
  rw [run_propose participant allowed, mem_inFlight_after,
    mem_post_some (Negotiation.attempts_checkAgreed _)]
  exact or_iff_right List.not_mem_nil

/-- After the proposal everyone but the proposer has it still to come. -/
theorem spreading_propose (participant : x ∈ p.participants) (allowed : 1 ≤ p.maxAttempts) :
    Spreading p x s (p.run [.propose x s]) := by
  constructor
  · rw [run_propose participant allowed]
    exact nodup_post ..
  · intro d member
    obtain ⟨v, recipient, other, rfl⟩ := (mem_inFlight_propose participant allowed).1 member
    exact .proposal recipient other
  · intro v recipient member
    obtain ⟨v', -, other, same⟩ := (mem_inFlight_propose participant allowed).1 member
    obtain rfl : v = v' := proposalTo_inj.1 same
    rw [run_propose participant allowed, negotiations_after_of_ne other]
  · intro v recipient arrived
    -- Only the proposer has the proposal.
    obtain rfl : v = x := by
      by_contra other
      exact arrived ((mem_inFlight_propose participant allowed).2 ⟨v, recipient, other, rfl⟩)
    rw [run_propose participant allowed, negotiations_after_self]
    constructor
    · rw [Negotiation.acceptedBy_checkAgreed]
      exact List.mem_singleton_self v
    · rw [Negotiation.acceptedBy_checkAgreed]
      exact List.mem_singleton_self v
    · exact Negotiation.tallied_checkAgreed rfl

/-! ### An arrival -/

/-- What an arrival does while a proposal is spreading. -/
inductive Arrived (p : Parley) (x : Address) (s : Strategy) (w : World) : Dispatch → World → Prop
  /-- The proposal, which is accepted. -/
  | opened {v : Address} {n : Negotiation} (recipient : v ∈ p.participants) (other : v ≠ x)
      (onItsWay : p.proposalTo x s v ∈ w.inFlight) (attempt : n.attempts = 1)
      (informed : Informed x s v n) (acceptedBy : n.acceptedBy = [v, x]) :
      Arrived p x s w (p.proposalTo x s v)
        (p.after (w.take (p.proposalTo x s v)) v n (some (.agreed p.target s)))
  /-- An acceptance, which comes before the proposal and is dropped. -/
  | dropped {u v : Address} (sender : u ∈ p.participants) (other : u ≠ x) (ne : v ≠ u)
      (arrived : p.proposalTo x s u ∉ w.inFlight) (onItsWay : p.acceptanceTo s u v ∈ w.inFlight)
      (early : p.proposalTo x s v ∈ w.inFlight) :
      Arrived p x s w (p.acceptanceTo s u v)
        (p.after (w.take (p.acceptanceTo s u v)) v (w.negotiations v) none)
  /-- An acceptance, which is counted. -/
  | counted {u v : Address} {n : Negotiation} (recipient : v ∈ p.participants)
      (onItsWay : p.acceptanceTo s u v ∈ w.inFlight) (late : p.proposalTo x s v ∉ w.inFlight)
      (informed : Informed x s v n)
      (acceptedBy : ∀ a ∈ p.participants,
        a ∈ n.acceptedBy ↔ a = u ∨ a ∈ (w.negotiations v).acceptedBy) :
      Arrived p x s w (p.acceptanceTo s u v) (p.after (w.take (p.acceptanceTo s u v)) v n none)

/-- What arrives is handled. -/
theorem step_deliver {reply : Option StrategyMessage} (onItsWay : d ∈ w.inFlight)
    (handling : (w.negotiations d.recipient).handle d.sender d.message (p.acceptable d.recipient) =
      (.ok reply, n)) :
    p.step w (.deliver d) = p.after (w.take d) d.recipient n reply := by
  rw [step, if_pos onItsWay, handling]
  rfl

/-- A proposal that comes in is accepted, and the acceptance goes to
everyone else. -/
theorem Spreading.deliver_proposal (h : Spreading p x s w) (participant : x ∈ p.participants)
    (allowed : 1 ≤ p.maxAttempts) (fine : s ∈ p.acceptable v) (recipient : v ∈ p.participants)
    (other : v ≠ x) (onItsWay : p.proposalTo x s v ∈ w.inFlight) :
    Arrived p x s w (p.proposalTo x s v) (p.step w (.deliver (p.proposalTo x s v))) := by
  have handling : (w.negotiations v).handle x (.proposal p.target s 1) (p.acceptable v) =
      (.ok (some (.agreed p.target s)),
        ((p.start.negotiations v).openAttempt 1 s x).accept v) := by
    rw [h.fresh v recipient onItsWay]
    exact Negotiation.handle_first_proposal participant (Ne.symm other) rfl rfl allowed fine
  have acceptedBy : (((p.start.negotiations v).openAttempt 1 s x).accept v).acceptedBy = [v, x] :=
    Negotiation.acceptedBy_accept ..
  rw [step_deliver onItsWay handling]
  refine .opened recipient other onItsWay (Negotiation.attempts_accept ..) ?_ acceptedBy
  constructor
  · rw [acceptedBy]
    simp
  · rw [acceptedBy]
    simp
  · exact Negotiation.tallied_checkAgreed rfl

/-- An acceptance that comes in counts where the proposal is already there,
and else it is lost. -/
theorem Spreading.deliver_acceptance (h : Spreading p x s w) (sound : Sound p w)
    (participant : x ∈ p.participants) (sender : u ∈ p.participants)
    (recipient : v ∈ p.participants) (other : u ≠ x) (ne : v ≠ u)
    (arrived : p.proposalTo x s u ∉ w.inFlight) (onItsWay : p.acceptanceTo s u v ∈ w.inFlight) :
    Arrived p x s w (p.acceptanceTo s u v) (p.step w (.deliver (p.acceptanceTo s u v))) := by
  have known : u ∈ (w.negotiations v).participants := by
    rw [sound.participants_eq]
    exact sender
  have partner : u ≠ (w.negotiations v).me := by
    rw [sound.me_eq]
    exact ne.symm
  -- Before the proposal the negotiation is idle and drops the acceptance.
  by_cases early : p.proposalTo x s v ∈ w.inFlight
  · have idle : (w.negotiations v).status = .idle := by
      rw [h.fresh v recipient early]
      rfl
    have handling : (w.negotiations v).handle u (.agreed (w.negotiations v).target s)
        (p.acceptable v) = (.ok none, w.negotiations v) :=
      Negotiation.handle_agreed_of_idle known partner idle
    rw [sound.target_eq] at handling
    rw [step_deliver onItsWay handling]
    exact .dropped sender other ne arrived onItsWay early
  · have informed := h.informed v recipient early
    obtain ⟨n, handling, tallied, acceptedBy⟩ := informed.tallied.handle_agreed known partner
    rw [sound.target_eq] at handling
    rw [sound.participants_eq] at acceptedBy
    rw [step_deliver onItsWay handling]
    refine .counted recipient onItsWay early ?_ acceptedBy
    constructor
    · exact (acceptedBy x participant).2 (.inr informed.proposer)
    · exact (acceptedBy v recipient).2 (.inr informed.self)
    · exact tallied

/-- Every arrival is one of the three cases. -/
theorem Spreading.arrived (h : Spreading p x s w) (sound : Sound p w)
    (participant : x ∈ p.participants) (allowed : 1 ≤ p.maxAttempts)
    (fine : ∀ a ∈ p.participants, s ∈ p.acceptable a) (onItsWay : d ∈ w.inFlight) :
    Arrived p x s w d (p.step w (.deliver d)) := by
  cases h.underway d onItsWay with
  | proposal recipient other =>
    exact h.deliver_proposal participant allowed (fine _ recipient) recipient other onItsWay
  | acceptance sender recipient other ne arrived =>
    exact h.deliver_acceptance sound participant sender recipient other ne arrived onItsWay

/-- What is on its way after the proposal arrived at a participant. -/
theorem mem_inFlight_opened (once : w.inFlight.Nodup) (attempt : n.attempts = 1) :
    d ∈ (p.after (w.take (p.proposalTo x s v)) v n (some (.agreed p.target s))).inFlight ↔
      d ≠ p.proposalTo x s v ∧ d ∈ w.inFlight ∨
        ∃ a ∈ p.participants, a ≠ v ∧ d = p.acceptanceTo s v a := by
  rw [mem_inFlight_after, mem_take once, mem_post_some attempt]
  rfl

/-- Where nothing is sent, what arrived is gone. -/
theorem mem_inFlight_none (once : w.inFlight.Nodup) {arrived : Dispatch} :
    d ∈ (p.after (w.take arrived) v n none).inFlight ↔ d ≠ arrived ∧ d ∈ w.inFlight := by
  rw [mem_inFlight_after, mem_take once]
  exact or_iff_left List.not_mem_nil

/-- What is still on its way stays in order when less is on its way. -/
theorem Underway.of_subset {w' : World} (h : Underway p x s w d)
    (fewer : ∀ v, p.proposalTo x s v ∈ w'.inFlight → p.proposalTo x s v ∈ w.inFlight) :
    Underway p x s w' d := by
  cases h with
  | proposal recipient other => exact .proposal recipient other
  | acceptance sender recipient other ne arrived =>
    exact .acceptance sender recipient other ne fun still => arrived (fewer _ still)

/-- Whoever has accepted the proposal has it. -/
theorem Spreading.not_mem_of_acceptance (h : Spreading p x s w)
    (member : p.acceptanceTo s u v ∈ w.inFlight) : p.proposalTo x s u ∉ w.inFlight := by
  have underway := h.underway _ member
  generalize message : p.acceptanceTo s u v = d at underway
  cases underway with
  | proposal => exact absurd message.symm proposalTo_ne_acceptanceTo
  | @acceptance u' v' _ _ _ _ arrived =>
    have same : u = u' := congrArg Dispatch.sender message
    rw [same]
    exact arrived

/-- The proposal does not go to the proposer. -/
theorem Spreading.ne_of_proposal (h : Spreading p x s w)
    (member : p.proposalTo x s v ∈ w.inFlight) : v ≠ x := by
  have underway := h.underway _ member
  generalize message : p.proposalTo x s v = d at underway
  cases underway with
  | proposal _ other =>
    rw [proposalTo_inj.1 message]
    exact other
  | acceptance => exact absurd message proposalTo_ne_acceptanceTo

/-- The arrival of a proposal leaves things in order. -/
theorem Spreading.after_opened (h : Spreading p x s w) (recipient : v ∈ p.participants)
    (other : v ≠ x) (onItsWay : p.proposalTo x s v ∈ w.inFlight) (attempt : n.attempts = 1)
    (informed : Informed x s v n) :
    Spreading p x s
      (p.after (w.take (p.proposalTo x s v)) v n (some (.agreed p.target s))) := by
  have proposals : ∀ a, p.proposalTo x s a ∈ (p.after (w.take (p.proposalTo x s v)) v n
      (some (.agreed p.target s))).inFlight ↔ a ≠ v ∧ p.proposalTo x s a ∈ w.inFlight := by
    intro a
    rw [mem_inFlight_opened h.once attempt, ne_eq, proposalTo_inj]
    refine or_iff_left ?_
    rintro ⟨_, _, _, same⟩
    exact proposalTo_ne_acceptanceTo same
  constructor
  · refine List.nodup_append.2 ⟨h.once.erase _, nodup_post .., ?_⟩
    -- An acceptance that was sent before would mean that the proposal had arrived before.
    rintro old before new sent rfl
    obtain ⟨a, -, -, rfl⟩ := (mem_post_some attempt _).1 sent
    exact h.not_mem_of_acceptance (mem_of_mem_take before) onItsWay
  · intro d member
    rcases (mem_inFlight_opened h.once attempt).1 member with ⟨-, old⟩ | ⟨a, participant, ne, rfl⟩
    · exact (h.underway d old).of_subset fun a still => ((proposals a).1 still).2
    · exact .acceptance recipient participant other ne fun still => ((proposals v).1 still).1 rfl
  · intro a participant still
    obtain ⟨ne, still⟩ := (proposals a).1 still
    rw [negotiations_after_of_ne ne]
    exact h.fresh a participant still
  · intro a participant gone
    by_cases here : a = v
    · rw [here, negotiations_after_self]
      exact informed
    · rw [negotiations_after_of_ne here]
      exact h.informed a participant fun still => gone ((proposals a).2 ⟨here, still⟩)

/-- And so does the arrival of an acceptance. -/
theorem Spreading.after_acceptance (h : Spreading p x s w)
    (early : p.proposalTo x s v ∈ w.inFlight → n = w.negotiations v)
    (informed : p.proposalTo x s v ∉ w.inFlight → Informed x s v n) :
    Spreading p x s (p.after (w.take (p.acceptanceTo s u v)) v n none) := by
  -- An acceptance on its way, or no longer, does not change which proposals are.
  have proposals : ∀ a, p.proposalTo x s a ∈ (p.after (w.take (p.acceptanceTo s u v)) v n
      none).inFlight ↔ p.proposalTo x s a ∈ w.inFlight := by
    intro a
    rw [mem_inFlight_none h.once]
    exact and_iff_right proposalTo_ne_acceptanceTo
  constructor
  · rw [after, post, Option.toList_none, List.flatMap_nil, List.append_nil]
    exact h.once.erase _
  · intro d member
    have before := ((mem_inFlight_none h.once).1 member).2
    exact (h.underway d before).of_subset fun a still => (proposals a).1 still
  · intro a participant still
    have before := (proposals a).1 still
    by_cases here : a = v
    · subst here
      rw [negotiations_after_self, early before]
      exact h.fresh a participant before
    · rw [negotiations_after_of_ne here]
      exact h.fresh a participant before
  · intro a participant absent
    have gone : p.proposalTo x s a ∉ w.inFlight := fun still => absent ((proposals a).2 still)
    by_cases here : a = v
    · subst here
      rw [negotiations_after_self]
      exact informed gone
    · rw [negotiations_after_of_ne here]
      exact h.informed a participant gone

/-- So every arrival leaves things in order. -/
theorem Spreading.delivered {w' : World} (h : Spreading p x s w) (arrived : Arrived p x s w d w') :
    Spreading p x s w' := by
  cases arrived with
  | opened recipient other onItsWay attempt informed =>
    exact h.after_opened recipient other onItsWay attempt informed
  | dropped _ _ _ _ _ early =>
    exact h.after_acceptance (fun _ => rfl) fun late => absurd early late
  | counted _ _ late informed =>
    exact h.after_acceptance (fun early => absurd early late) fun _ => informed

/-! ### Acceptances that are lost -/

/-- The acceptance of `u` has gone to `v` and did not count there. -/
structure Lost (p : Parley) (x : Address) (s : Strategy) (w : World) (u v : Address) : Prop where
  sender : u ∈ p.participants
  other : u ≠ x
  ne : u ≠ v
  accepted : p.proposalTo x s u ∉ w.inFlight
  arrived : p.acceptanceTo s u v ∉ w.inFlight
  uncounted : u ∉ (w.negotiations v).acceptedBy

/-- Whether an acceptance is lost depends on the two dispatches and on
whether it counts. -/
theorem lost_congr {w' : World}
    (proposal : p.proposalTo x s u ∈ w'.inFlight ↔ p.proposalTo x s u ∈ w.inFlight)
    (acceptance : p.acceptanceTo s u v ∈ w'.inFlight ↔ p.acceptanceTo s u v ∈ w.inFlight)
    (counted : u ∈ p.participants → u ≠ x → u ≠ v →
      (u ∈ (w'.negotiations v).acceptedBy ↔ u ∈ (w.negotiations v).acceptedBy)) :
    Lost p x s w' u v ↔ Lost p x s w u v := by
  constructor
  · rintro ⟨sender, other, ne, accepted, arrived, uncounted⟩
    rw [proposal] at accepted
    rw [acceptance] at arrived
    rw [counted sender other ne] at uncounted
    exact ⟨sender, other, ne, accepted, arrived, uncounted⟩
  · rintro ⟨sender, other, ne, accepted, arrived, uncounted⟩
    rw [← proposal] at accepted
    rw [← acceptance] at arrived
    rw [← counted sender other ne] at uncounted
    exact ⟨sender, other, ne, accepted, arrived, uncounted⟩

/-- Whoever takes in an acceptance sends nothing, and no other acceptance is
concerned. -/
theorem lost_after_acceptance (h : Spreading p x s w) {u' v' : Address}
    (another : ¬(u = u' ∧ v = v'))
    (acceptedBy : ∀ a ∈ p.participants, a ≠ u' →
      (a ∈ n.acceptedBy ↔ a ∈ (w.negotiations v').acceptedBy)) :
    Lost p x s (p.after (w.take (p.acceptanceTo s u' v')) v' n none) u v ↔ Lost p x s w u v := by
  apply lost_congr
  · rw [mem_inFlight_none h.once]
    exact and_iff_right proposalTo_ne_acceptanceTo
  · rw [mem_inFlight_none h.once, ne_eq, acceptanceTo_inj]
    exact and_iff_right another
  · intro sender _ _
    by_cases here : v = v'
    · rw [here, negotiations_after_self]
      exact acceptedBy u sender fun same => another ⟨same, here⟩
    · rw [negotiations_after_of_ne here]
      rfl

/-- Whoever takes in the proposal counts only the proposer and themselves,
and sends an acceptance to all others. -/
theorem lost_after_opened (h : Spreading p x s w) {v' : Address} (recipient : v ∈ p.participants)
    (onItsWay : p.proposalTo x s v' ∈ w.inFlight) (member : v' ∈ p.participants)
    (attempt : n.attempts = 1) (acceptedBy : n.acceptedBy = [v', x]) :
    Lost p x s (p.after (w.take (p.proposalTo x s v')) v' n (some (.agreed p.target s))) u v ↔
      Lost p x s w u v := by
  by_cases sender : u = v'
  · -- This acceptance is just sent.
    subst sender
    constructor
    · rintro ⟨-, -, ne, -, arrived, -⟩
      refine absurd ?_ arrived
      exact (mem_inFlight_opened h.once attempt).2 (.inr ⟨v, recipient, ne.symm, rfl⟩)
    · intro lost
      exact absurd onItsWay lost.accepted
  -- For every other sender both dispatches are on their way as before, and count as before.
  apply lost_congr
  · rw [mem_inFlight_opened h.once attempt, ne_eq, proposalTo_inj]
    constructor
    · rintro (⟨-, before⟩ | ⟨_, _, _, same⟩)
      · exact before
      · exact absurd same proposalTo_ne_acceptanceTo
    · exact fun before => .inl ⟨sender, before⟩
  · rw [mem_inFlight_opened h.once attempt]
    constructor
    · rintro (⟨-, before⟩ | ⟨_, _, _, same⟩)
      · exact before
      · exact absurd (acceptanceTo_inj.1 same).1 sender
    · exact fun before => .inl ⟨proposalTo_ne_acceptanceTo.symm, before⟩
  · intro _ other ne
    by_cases here : v = v'
    · subst here
      rw [negotiations_after_self, acceptedBy, h.fresh v recipient onItsWay]
      simp [start, other, ne]
    · rw [negotiations_after_of_ne here]
      rfl

/-- An arrival loses an acceptance just if it is one that comes before the
proposal. What is lost stays lost. -/
theorem lost_delivered {w' : World} (h : Spreading p x s w) (arrived : Arrived p x s w d w')
    (recipient : v ∈ p.participants) :
    Lost p x s w' u v ↔
      Lost p x s w u v ∨ d = p.acceptanceTo s u v ∧ p.proposalTo x s v ∈ w.inFlight := by
  cases arrived with
  | opened member _ onItsWay attempt _ acceptedBy =>
    rw [lost_after_opened h recipient onItsWay member attempt acceptedBy]
    exact (or_iff_left fun lost => proposalTo_ne_acceptanceTo lost.1).symm
  | @dropped u' v' sender other ne accepted onItsWay early =>
    -- The acceptance came before the proposal, and is dropped. For others nothing changes.
    by_cases this : u = u' ∧ v = v'
    · obtain ⟨rfl, rfl⟩ := this
      refine iff_of_true ?_ (.inr ⟨rfl, early⟩)
      refine ⟨sender, other, ne.symm, ?_, ?_, ?_⟩
      · rw [mem_inFlight_none h.once]
        exact fun still => accepted still.2
      · rw [mem_inFlight_none h.once]
        exact fun still => still.1 rfl
      · rw [negotiations_after_self, h.fresh v recipient early]
        exact List.not_mem_nil
    · rw [lost_after_acceptance h this fun _ _ _ => Iff.rfl, acceptanceTo_inj]
      exact (or_iff_left fun lost => this ⟨lost.1.1.symm, lost.1.2.symm⟩).symm
  | @counted u' v' n member onItsWay late informed acceptedBy =>
    -- The acceptance counts, so it is not lost. For others nothing changes.
    by_cases this : u = u' ∧ v = v'
    · obtain ⟨rfl, rfl⟩ := this
      refine iff_of_false ?_ ?_
      · intro lost
        have uncounted := lost.uncounted
        rw [negotiations_after_self, acceptedBy u lost.sender] at uncounted
        exact uncounted (.inl rfl)
      · rintro (lost | ⟨-, early⟩)
        · exact lost.arrived onItsWay
        · exact late early
    · have others : ∀ a ∈ p.participants, a ≠ u' →
          (a ∈ n.acceptedBy ↔ a ∈ (w.negotiations v').acceptedBy) := by
        intro a participant ne
        rw [acceptedBy a participant]
        exact or_iff_right ne
      rw [lost_after_acceptance h this others, acceptanceTo_inj]
      exact (or_iff_left fun lost => this ⟨lost.1.1.symm, lost.1.2.symm⟩).symm

/-- While a proposal is spreading, an acceptance overtakes it just if it is
one that is about to be lost. -/
theorem overtakes_iff (h : Spreading p x s w) (onItsWay : d ∈ w.inFlight) :
    d.recipient = v ∧ Overtakes p w d ↔
      ∃ u, d = p.acceptanceTo s u v ∧ p.proposalTo x s v ∈ w.inFlight := by
  constructor
  · rintro ⟨rfl, -, ⟨t, isAcceptance⟩, d', member, recipient, t', attempt, isProposal⟩
    have early : p.proposalTo x s d.recipient ∈ w.inFlight := by
      cases h.underway d' member with
      | proposal =>
        rw [← recipient]
        exact member
      | acceptance => cases isProposal
    cases h.underway d onItsWay with
    | proposal => cases isAcceptance
    | acceptance => exact ⟨_, rfl, early⟩
  · rintro ⟨u, rfl, early⟩
    exact ⟨rfl, onItsWay, ⟨s, rfl⟩, p.proposalTo x s v, early, rfl, s, 1, rfl⟩

/-! ### The whole run -/

/-- The run in which one participant proposes a strategy and then only
messages arrive. -/
def spread (x : Address) (s : Strategy) (arrivals : List Dispatch) : List Event :=
  .propose x s :: arrivals.map .deliver

/-- One more arrival is one more event at the end. -/
theorem spread_concat (x : Address) (s : Strategy) (arrivals : List Dispatch) (d : Dispatch) :
    spread x s (arrivals ++ [d]) = spread x s arrivals ++ [.deliver d] := by
  simp [spread]

/-- Along such a run an acceptance came to a participant before the proposal
just if one is lost. The proposer has the proposal before any acceptance. -/
theorem spreading_run (participant : x ∈ p.participants) (allowed : 1 ≤ p.maxAttempts)
    (fine : ∀ a ∈ p.participants, s ∈ p.acceptable a) (arrivals : List Dispatch) :
    Spreading p x s (p.run (spread x s arrivals)) ∧ ¬Overtaken p (spread x s arrivals) x ∧
      ∀ v ∈ p.participants, (Overtaken p (spread x s arrivals) v ↔
        ∃ u, Lost p x s (p.run (spread x s arrivals)) u v) := by
  induction arrivals using List.reverseRecOn with
  | nil =>
    have spreading : Spreading p x s (p.run (spread x s [])) :=
      spreading_propose participant allowed
    have notYet : ∀ v, ¬Overtaken p (spread x s []) v := by
      intro v overtaken
      have proposed : Overtaken p ([] ++ [.propose x s]) v := overtaken
      rcases overtaken_concat.1 proposed with before | ⟨d, isDelivery, -⟩
      · exact not_overtaken_nil before
      · cases isDelivery
    refine ⟨spreading, notYet x, fun v recipient => iff_of_false (notYet v) ?_⟩
    rintro ⟨u, lost⟩
    exact lost.accepted
      ((mem_inFlight_propose participant allowed).2 ⟨u, lost.sender, lost.other, rfl⟩)
  | append_singleton arrivals d ih =>
    obtain ⟨spreading, notProposer, overtaken⟩ := ih
    -- What the last arrival overtakes, if it is one at all.
    have last : ∀ v, Overtaken p (spread x s (arrivals ++ [d])) v ↔
        Overtaken p (spread x s arrivals) v ∨
          d.recipient = v ∧ Overtakes p (p.run (spread x s arrivals)) d := by
      intro v
      rw [spread_concat, overtaken_concat]
      simp
    by_cases onItsWay : d ∈ (p.run (spread x s arrivals)).inFlight
    · have arrived := spreading.arrived (sound_run p _) participant allowed fine onItsWay
      rw [← run_concat, ← spread_concat] at arrived
      refine ⟨spreading.delivered arrived, ?_, fun v recipient => ?_⟩
      · rw [last, overtakes_iff spreading onItsWay]
        rintro (before | ⟨u, -, early⟩)
        · exact notProposer before
        · exact spreading.ne_of_proposal early rfl
      · simp only [last, overtakes_iff spreading onItsWay, overtaken v recipient,
          lost_delivered spreading arrived recipient, exists_or]
    · -- Nothing arrives, and nothing is overtaken.
      have none : ¬Overtakes p (p.run (spread x s arrivals)) d := fun h => onItsWay h.onItsWay
      have same : p.run (spread x s (arrivals ++ [d])) = p.run (spread x s arrivals) := by
        rw [spread_concat, run_concat, step, if_neg onItsWay]
      rw [same]
      simp only [last, none, and_false, or_false]
      exact ⟨spreading, notProposer, overtaken⟩

/-- One participant proposes a strategy that everybody finds acceptable.
When every message has arrived, a participant has agreed, or an acceptance
came to them before the proposal did. In that case there are more than two
participants, and the participant waits for the acceptance that was
dropped. -/
theorem agreed_or_overtaken (p : Parley) (x : Address) (s : Strategy) (arrivals : List Dispatch)
    (participant : x ∈ p.participants) (allowed : 1 ≤ p.maxAttempts)
    (fine : ∀ a ∈ p.participants, s ∈ p.acceptable a)
    (delivered : (p.run (spread x s arrivals)).inFlight = []) {v : Address}
    (member : v ∈ p.participants) :
    ((p.run (spread x s arrivals)).negotiations v).status = .agreed s ∧
        ¬Overtaken p (spread x s arrivals) v ∨
      ((p.run (spread x s arrivals)).negotiations v).status = .pending s ∧
        Overtaken p (spread x s arrivals) v ∧ 2 < p.participants.length := by
  obtain ⟨spreading, notProposer, overtaken⟩ :=
    spreading_run participant allowed fine arrivals
  have nothing : ∀ d, d ∉ (p.run (spread x s arrivals)).inFlight := by simp [delivered]
  -- Everyone has the proposal by now, so all that can be missing are acceptances.
  have informed := spreading.informed v member (nothing _)
  have tallied := informed.tallied
  rw [Negotiation.Tallied, (sound_run p _).participants_eq] at tallied
  by_cases all : ∀ a ∈ p.participants,
      a ∈ ((p.run (spread x s arrivals)).negotiations v).acceptedBy
  · left
    rw [tallied, if_pos all, overtaken v member]
    refine ⟨rfl, ?_⟩
    rintro ⟨u, lost⟩
    exact lost.uncounted (all u lost.sender)
  -- An acceptance that is not counted, with none on its way, is lost.
  · right
    push Not at all
    obtain ⟨u, sender, uncounted⟩ := all
    have other : u ≠ x := by
      rintro rfl
      exact uncounted informed.proposer
    have ne : u ≠ v := by
      rintro rfl
      exact uncounted informed.self
    have lost : Overtaken p (spread x s arrivals) v :=
      (overtaken v member).2 ⟨u, sender, other, ne, nothing _, nothing _, uncounted⟩
    have behind : v ≠ x := by
      rintro rfl
      exact notProposer lost
    -- The sender of the lost acceptance, its recipient and the proposer are three.
    have three : [u, v, x].Subperm p.participants :=
      List.subperm_of_subset (by simp [other, ne, behind]) (by simp [sender, member, participant])
    rw [tallied, if_neg fun complete => uncounted (complete u sender)]
    exact ⟨rfl, lost, three.length_le⟩

/-- With nothing on its way, nothing can happen any more: everybody has
agreed or waits, and so nobody can propose either. -/
theorem run_append (participant : x ∈ p.participants) (allowed : 1 ≤ p.maxAttempts)
    (fine : ∀ a ∈ p.participants, s ∈ p.acceptable a) {arrivals : List Dispatch}
    (delivered : (p.run (spread x s arrivals)).inFlight = []) (later : List Event) :
    p.run (spread x s arrivals ++ later) = p.run (spread x s arrivals) := by
  induction later using List.reverseRecOn with
  | nil => rw [List.append_nil]
  | append_singleton later e ih =>
    -- Nothing is on its way, so no event delivers a message. A new proposal is refused.
    rw [← List.append_assoc, run_concat, ih]
    cases e with
    | deliver d =>
      rw [step, if_neg]
      rw [delivered]
      exact List.not_mem_nil
    | propose who t =>
      by_cases member : who ∈ p.participants
      case neg => rw [step, if_neg member]
      have refused : ((p.run (spread x s arrivals)).negotiations who).propose t =
          (.error (.proposalOpen ((p.run (spread x s arrivals)).negotiations who).target),
            (p.run (spread x s arrivals)).negotiations who) := by
        have spreading := (spreading_run participant allowed fine arrivals).1
        have informed := spreading.informed who member (by simp [delivered])
        rcases informed.tallied.status with agreed | pending
        · rw [Negotiation.propose, agreed]
        · rw [Negotiation.propose, pending]
      rw [step, if_pos member, refused]
      exact after_none p _ who

/-! ### A proposal that is overtaken

Alice proposes, Bob accepts, and Bob's acceptance is in Carol's hands before
Alice's proposal. Carol accepts the proposal, but does not know that Bob
did. -/

namespace Sample

/-- Three participants to whom any strategy is fine. -/
def easygoing : Parley := three fun _ => [.direct, .ledger, .virtual]

/-- Bob's acceptance comes to Carol before Alice's proposal. -/
def crossed : List Dispatch :=
  [⟨alice, bob, .proposal .zero .direct 1, 1⟩, ⟨bob, carol, .agreed .zero .direct, 1⟩,
    ⟨alice, carol, .proposal .zero .direct 1, 1⟩, ⟨carol, alice, .agreed .zero .direct, 1⟩,
    ⟨carol, bob, .agreed .zero .direct, 1⟩, ⟨bob, alice, .agreed .zero .direct, 1⟩]

/-- A direct deposit is fine for each of them. -/
theorem fine_easygoing (a : Address) (_ : a ∈ easygoing.participants) :
    .direct ∈ easygoing.acceptable a :=
  List.mem_cons_self

/-- In the end nothing is on its way. -/
theorem inFlight_crossed : (easygoing.run (spread alice .direct crossed)).inFlight = [] := by
  decide +kernel

/-- Carol is still waiting. -/
theorem status_crossed :
    ((easygoing.run (spread alice .direct crossed)).negotiations carol).status =
      .pending .direct := by
  decide +kernel

/-- A proposal that is fine for everybody need not lead to an agreement of
all. -/
theorem waiting : ¬∀ (p : Parley) (x : Address) (s : Strategy) (arrivals : List Dispatch),
    2 ≤ p.participants.length → x ∈ p.participants → 1 ≤ p.maxAttempts →
    (∀ a ∈ p.participants, s ∈ p.acceptable a) →
    (p.run (spread x s arrivals)).inFlight = [] →
    ∀ v ∈ p.participants, ((p.run (spread x s arrivals)).negotiations v).status = .agreed s := by
  intro allAgree
  have agreed := allAgree easygoing alice .direct crossed (by decide) (by decide) (by decide)
    fine_easygoing inFlight_crossed carol (by decide)
  rw [status_crossed] at agreed
  cases agreed

/-- Carol waits because of an acceptance that overtook the proposal. -/
theorem agreed_or_overtaken_crossed :
    ((easygoing.run (spread alice .direct crossed)).negotiations carol).status =
        .pending .direct ∧
      Overtaken easygoing (spread alice .direct crossed) carol := by
  rcases agreed_or_overtaken easygoing alice .direct crossed (by decide) (by decide)
    fine_easygoing inFlight_crossed (v := carol) (by decide) with ⟨agreed, -⟩ | waits
  · rw [status_crossed] at agreed
    cases agreed
  · exact ⟨waits.1, waits.2.1⟩

end Sample

end Parley

end StateChannels
