import Mathlib.Data.List.Perm.Subperm
import StateChannels.Proofs.Negotiation.Parley

/-!
# `StateChannels.Proofs.Negotiation.Agreement`: two agreements are about the same strategy

An agreement needs the acceptance of every participant. In one attempt a
participant accepts one strategy, and an agreement is not left. So if every
acceptance is counted in the attempt in which it was sent, then two
agreements are in the same attempt and about the same strategy.

But an answer does not tell its attempt. An acceptance that arrives late is
counted for a later proposal of the same strategy, although its sender may
have something else by then.

* `current_or_outdated`: along every run, what a participant has counted
  stands in their present attempt, or an outdated acceptance is among it.
* `Facing`: what holds of two participants who have only each other
  (`facing_run`). There, nothing outdated is ever counted.
* `same_or_outdated`: so two agreements are about the same strategy, or
  there are more than two participants and one of the agreements counts an
  outdated acceptance.
* `Sample.disagreed`: a run of three participants in which this happens.
-/

set_option autoImplicit false

namespace StateChannels.Parley

open Negotiation (Handled Proposed Complete)

variable {p : Parley} {w w' : World} {x y a : Address} {d : Dispatch} {e : Event}
  {n : Negotiation} {s t : Strategy} {m? : Option StrategyMessage} {events : List Event}

/-! ### Outdated acceptances -/

/-- When the message arrives it is counted as an acceptance, though it was
sent in another attempt. -/
structure Outdated (p : Parley) (w : World) (d : Dispatch) : Prop where
  onItsWay : d ∈ w.inFlight
  counted : ∃ s, d.message = .agreed p.target s ∧
    (w.negotiations d.recipient).status = .pending s
  otherAttempt : d.stamp ≠ (w.negotiations d.recipient).attempts

/-- In the attempt in which a participant is after a run, they counted an
outdated acceptance. -/
def CountsOutdated (p : Parley) (events : List Event) (x : Address) : Prop :=
  ∃ before d rest, events = before ++ .deliver d :: rest ∧ d.recipient = x ∧
    Outdated p (p.run before) d ∧
    ((p.run before).negotiations x).attempts = ((p.run events).negotiations x).attempts

/-- Whoever is counted as accepting accepted in the present attempt, as far
as can be told. -/
def Current (w : World) (x : Address) : Prop :=
  ∀ s, (w.negotiations x).Holds s → ∀ a ∈ (w.negotiations x).acceptedBy,
    (w.negotiations a).Stands (w.negotiations x).attempts s

/-- A participant who holds no strategy is current. -/
theorem current_of_holds_none (h : ∀ s, ¬(w.negotiations x).Holds s) : Current w x :=
  fun s held => absurd held (h s)

/-- While a participant does nothing, what they counted stands. -/
theorem Current.of_eq (h : Current w x) (same : w'.negotiations x = w.negotiations x)
    (evolves : ∀ a, (w.negotiations a).Evolves (w'.negotiations a)) : Current w' x := by
  intro s held a counted
  rw [same] at held counted ⊢
  exact (h s held a counted).evolves (evolves a)

/-- An outdated acceptance stays counted over an event that opens no
attempt. -/
theorem CountsOutdated.concat (h : CountsOutdated p events x)
    (same : ((p.run events).negotiations x).attempts =
      ((p.run (events ++ [e])).negotiations x).attempts) :
    CountsOutdated p (events ++ [e]) x := by
  obtain ⟨before, d, rest, split, recipient, outdated, attempts⟩ := h
  refine ⟨before, d, rest ++ [e], ?_, recipient, outdated, attempts.trans same⟩
  rw [split, List.append_assoc, List.cons_append]

/-- After an own proposal nobody is counted but the proposer. -/
theorem current_of_proposed (sound : Sound p w) (step : Stepped p w e (p.after w x n m?))
    (proposed : (w.negotiations x).Proposed s m? n)
    (h : Current w x ∨ (w.negotiations x).attempts ≠ n.attempts) :
    Current (p.after w x n m?) x := by
  cases proposed with
  | ignored =>
    have current := h.resolve_right (not_not_intro rfl)
    exact current.of_eq (negotiations_after_self ..) step.evolves
  -- A negotiation that has failed holds no strategy.
  | failed exhausted idle =>
    refine current_of_holds_none fun t held => ?_
    rw [negotiations_after_self] at held
    rcases held with pending | agreed
    · cases pending
    · cases agreed
  | opened idle left =>
    intro t held a counted
    have isProposer : a = x := by
      rw [negotiations_after_self, Negotiation.acceptedBy_checkAgreed] at counted
      rw [List.mem_singleton.1 counted, sound.me_eq]
    rw [isProposer]
    exact held.stands

/-- A message that is not an outdated acceptance leaves what is counted in
order. If it opens an attempt, nothing of before is counted. -/
theorem current_of_handled (sound : Sound p w)
    (step : Stepped p w e (p.after (w.take d) d.recipient n m?)) (onItsWay : d ∈ w.inFlight)
    (handled : (w.negotiations d.recipient).Handled d.sender d.message
      (p.acceptable d.recipient) m? n)
    (h : Current w d.recipient ∨ (w.negotiations d.recipient).attempts ≠ n.attempts)
    (inTime : ¬Outdated p w d) : Current (p.after (w.take d) d.recipient n m?) d.recipient := by
  have sent : Sent p (p.after (w.take d) d.recipient n m?) d :=
    (sound.sent d onItsWay).evolves step.evolves
  cases handled with
  | ignored =>
    have current := h.resolve_right (not_not_intro rfl)
    exact current.of_eq (negotiations_after_self ..) step.evolves
  | accepted s attempt isProposal newer allowed running fine =>
    obtain rfl : attempt = d.stamp := sent.proposal _ s attempt isProposal
    intro t held a counted
    -- Two are counted: the recipient, who holds the strategy, and the sender of the proposal.
    rw [negotiations_after_self, Negotiation.acceptedBy_accept, sound.me_eq] at counted
    rcases List.mem_cons.1 counted with rfl | counted
    · exact held.stands
    · obtain rfl : a = d.sender := List.mem_singleton.1 counted
      rw [negotiations_after_self] at held ⊢
      obtain rfl : s = t := Negotiation.holds_openAttempt.1 (Negotiation.holds_accept.1 held)
      rw [Negotiation.attempts_accept, Negotiation.attempts_openAttempt newer]
      exact sent.stands s (by rw [isProposal]; rfl)
  | refused =>
    refine current_of_holds_none fun t => ?_
    rw [negotiations_after_self]
    exact Negotiation.not_holds_closed
  | counted s isAcceptance pending =>
    have current := h.resolve_right (not_not_intro (Negotiation.attempts_accept ..).symm)
    intro t held a counted
    rw [negotiations_after_self] at held counted ⊢
    rw [Negotiation.acceptedBy_accept] at counted
    rw [Negotiation.attempts_accept]
    have held : (w.negotiations d.recipient).Holds t := Negotiation.holds_accept.1 held
    rcases List.mem_cons.1 counted with rfl | counted
    · -- The new acceptance was sent in the present attempt, for it is not outdated.
      obtain rfl : t = s := held.eq (.inl pending)
      have stamp : d.stamp = (w.negotiations d.recipient).attempts := by
        by_contra other
        refine inTime ⟨onItsWay, ⟨t, ?_, pending⟩, other⟩
        rw [isAcceptance, sound.target_eq]
      rw [← stamp]
      exact sent.stands t (by rw [isAcceptance]; rfl)
    · exact (current t held a counted).evolves (step.evolves a)
  | ended =>
    refine current_of_holds_none fun t => ?_
    rw [negotiations_after_self]
    exact Negotiation.not_holds_closed

/-- No event but an outdated acceptance disturbs what is counted. -/
theorem Stepped.current (step : Stepped p w e w') (sound : Sound p w)
    (h : Current w x ∨ (w.negotiations x).attempts ≠ (w'.negotiations x).attempts)
    (inTime : ∀ d, e = .deliver d → d.recipient = x → ¬Outdated p w d) : Current w' x := by
  have evolves := step.evolves
  -- Only the participant who acts can come to count something new.
  cases step with
  | ignored => exact h.resolve_right (not_not_intro rfl)
  | @proposed who s m? n participant proposed =>
    by_cases here : x = who
    · subst here
      rw [negotiations_after_self] at h
      exact current_of_proposed sound (.proposed participant proposed) proposed h
    · have same : (p.after w who n m?).negotiations x = w.negotiations x :=
        negotiations_after_of_ne here
      rw [same] at h
      exact (h.resolve_right (not_not_intro rfl)).of_eq same evolves
  | @delivered d m? n onItsWay handled =>
    by_cases here : x = d.recipient
    · subst here
      rw [negotiations_after_self] at h
      exact current_of_handled sound (.delivered onItsWay handled) onItsWay handled h
        (inTime d rfl rfl)
    · have same : (p.after (w.take d) d.recipient n m?).negotiations x = w.negotiations x :=
        negotiations_after_of_ne here
      rw [same] at h
      exact (h.resolve_right (not_not_intro rfl)).of_eq same evolves

/-- A counted acceptance opens no attempt. -/
theorem Outdated.attempts_step (h : Outdated p w d) :
    ((p.step w (.deliver d)).negotiations d.recipient).attempts =
      (w.negotiations d.recipient).attempts := by
  obtain ⟨onItsWay, ⟨s, isAcceptance, pending⟩, -⟩ := h
  have step := stepped p w (.deliver d)
  generalize p.step w (.deliver d) = after at step ⊢
  cases step with
  | ignored => rfl
  | delivered _ handled =>
    rw [negotiations_after_self]
    rw [isAcceptance] at handled
    cases handled with
    | ignored => rfl
    | accepted s attempt isProposal => cases isProposal
    | refused s attempt isProposal => cases isProposal
    | counted => exact Negotiation.attempts_accept ..
    | ended s isRejection => cases isRejection

/-- Along every run, what a participant has counted stands in their present
attempt, or an outdated acceptance was counted in it. -/
theorem current_or_outdated (p : Parley) (events : List Event) (x : Address) :
    Current (p.run events) x ∨ CountsOutdated p events x := by
  induction events using List.reverseRecOn with
  | nil =>
    left
    exact current_of_holds_none fun s => Negotiation.not_holds_of_idle rfl
  | append_singleton events e ih =>
    have step : Stepped p (p.run events) e (p.run (events ++ [e])) := by
      rw [run_concat]
      exact stepped p _ e
    by_cases outdated : ∃ d, e = .deliver d ∧ d.recipient = x ∧ Outdated p (p.run events) d
    · obtain ⟨d, rfl, rfl, outdated⟩ := outdated
      right
      refine ⟨events, d, [], rfl, rfl, outdated, ?_⟩
      rw [run_concat]
      exact outdated.attempts_step.symm
    · have inTime : ∀ d, e = .deliver d → d.recipient = x → ¬Outdated p (p.run events) d :=
        fun d isDelivery recipient found => outdated ⟨d, isDelivery, recipient, found⟩
      by_cases same : ((p.run events).negotiations x).attempts =
          ((p.run (events ++ [e])).negotiations x).attempts
      · rcases ih with current | counts
        · exact .inl (step.current (sound_run p events) (.inl current) inTime)
        · exact .inr (counts.concat same)
      · exact .inl (step.current (sound_run p events) (.inr same) inTime)

/-! ### Two participants -/

/-- What holds of two participants who have only each other. Who accepts
has agreed at once, for there is nobody else to wait for. -/
structure Facing (p : Parley) (w : World) (x y : Address) : Prop where
  /-- By an acceptance `x` has agreed. -/
  agreed : ∀ d ∈ w.inFlight, d.sender = x → ∀ target s, d.message = .agreed target s →
    (w.negotiations x).status = .agreed s
  /-- What `x` rejects is not acceptable to `x`. -/
  rejected : ∀ d ∈ w.inFlight, d.sender = x → ∀ target s, d.message = .rejected target s →
    s ∉ p.acceptable x
  /-- If `y` is going to accept a proposal, `x` still waits for it. -/
  waits : ∀ d ∈ w.inFlight, d.sender = x → ∀ target s attempt,
    d.message = .proposal target s attempt → (w.negotiations y).attempts < attempt →
    s ∈ p.acceptable y →
    (w.negotiations x).attempts = attempt ∧ (w.negotiations x).status = .pending s
  /-- If `x` has agreed, `y` has too, or is going to. -/
  together : ∀ s, (w.negotiations x).status = .agreed s →
    (w.negotiations y).attempts = (w.negotiations x).attempts ∧
      ((w.negotiations y).status = .agreed s ∨
        (w.negotiations y).status = .pending s ∧ s ∈ p.acceptable x)

/-- Between two, the one who has agreed is facing the other. -/
theorem Facing.eq (h : Facing p w x y) (agreed : (w.negotiations x).status = .agreed s)
    (agreed' : (w.negotiations y).status = .agreed t) : s = t := by
  have held : (w.negotiations y).Holds s := (h.together s agreed).2.symm.imp_left And.left
  exact held.eq (.inr agreed')

/-- Less on its way, and all else the same. -/
theorem Facing.take (h : Facing p w x y) (d : Dispatch) : Facing p (w.take d) x y where
  agreed _ member := h.agreed _ (mem_of_mem_take member)
  rejected _ member := h.rejected _ (mem_of_mem_take member)
  waits _ member := h.waits _ (mem_of_mem_take member)
  together := h.together

/-- The step of a participant, seen from themselves: what they sent before
and what they send now has to fit where they are. -/
theorem Facing.after_self (h : Facing p w x y) (ne : x ≠ y)
    (agreed : ∀ s, (w.negotiations x).status = .agreed s → n.status = .agreed s)
    (waits : ∀ s attempt, (w.negotiations x).attempts = attempt →
      (w.negotiations x).status = .pending s → (w.negotiations y).attempts < attempt →
      s ∈ p.acceptable y → n.attempts = attempt ∧ n.status = .pending s)
    (together : ∀ s, n.status = .agreed s → (w.negotiations y).attempts = n.attempts ∧
      ((w.negotiations y).status = .agreed s ∨
        (w.negotiations y).status = .pending s ∧ s ∈ p.acceptable x))
    (sentAgreed : ∀ target s, m? = some (.agreed target s) → n.status = .agreed s)
    (sentRejected : ∀ target s, m? = some (.rejected target s) → s ∉ p.acceptable x)
    (sentProposal : ∀ target s attempt, m? = some (.proposal target s attempt) →
      n.attempts = attempt ∧ n.status = .pending s) : Facing p (p.after w x n m?) x y := by
  have self : (p.after w x n m?).negotiations x = n := negotiations_after_self ..
  have other : (p.after w x n m?).negotiations y = w.negotiations y :=
    negotiations_after_of_ne ne.symm
  -- A dispatch of `x` is an old one, for which `h` speaks, or has just been posted.
  constructor
  · intro d member sender target s message
    rw [self]
    rcases mem_inFlight_after.1 member with old | new
    · exact agreed s (h.agreed d old sender target s message)
    · obtain ⟨-, -, -, sent, -⟩ := mem_post.1 new
      exact sentAgreed target s (by rw [sent, message])
  · intro d member sender target s message
    rcases mem_inFlight_after.1 member with old | new
    · exact h.rejected d old sender target s message
    · obtain ⟨-, -, -, sent, -⟩ := mem_post.1 new
      exact sentRejected target s (by rw [sent, message])
  · intro d member sender target s attempt message newer fine
    rw [self]
    rw [other] at newer
    rcases mem_inFlight_after.1 member with old | new
    · obtain ⟨attempts, pending⟩ := h.waits d old sender target s attempt message newer fine
      exact waits s attempt attempts pending newer fine
    · obtain ⟨-, -, -, sent, -⟩ := mem_post.1 new
      exact sentProposal target s attempt (by rw [sent, message])
  · rw [self, other]
    exact together

/-- The same for a step by which nothing is sent. -/
theorem Facing.after_silent (h : Facing p w x y) (ne : x ≠ y)
    (agreed : ∀ s, (w.negotiations x).status = .agreed s → n.status = .agreed s)
    (waits : ∀ s attempt, (w.negotiations x).attempts = attempt →
      (w.negotiations x).status = .pending s → (w.negotiations y).attempts < attempt →
      s ∈ p.acceptable y → n.attempts = attempt ∧ n.status = .pending s)
    (together : ∀ s, n.status = .agreed s → (w.negotiations y).attempts = n.attempts ∧
      ((w.negotiations y).status = .agreed s ∨
        (w.negotiations y).status = .pending s ∧ s ∈ p.acceptable x)) :
    Facing p (p.after w x n none) x y :=
  h.after_self ne agreed waits together (fun _ _ sent => nomatch sent)
    (fun _ _ sent => nomatch sent) (fun _ _ _ sent => nomatch sent)

/-- The step of a participant, seen from the other one, who sends nothing
by it. -/
theorem Facing.after_other (h : Facing p w y x) (ne : x ≠ y)
    (older : (w.negotiations x).attempts ≤ n.attempts)
    (together : ∀ s, (w.negotiations y).status = .agreed s →
      n.attempts = (w.negotiations y).attempts ∧
        (n.status = .agreed s ∨ n.status = .pending s ∧ s ∈ p.acceptable y)) :
    Facing p (p.after w x n m?) y x := by
  have self : (p.after w x n m?).negotiations x = n := negotiations_after_self ..
  have other : (p.after w x n m?).negotiations y = w.negotiations y :=
    negotiations_after_of_ne ne.symm
  -- Nothing that `y` sent is new.
  have before : ∀ d ∈ (p.after w x n m?).inFlight, d.sender = y → d ∈ w.inFlight := by
    intro d member sender
    refine (mem_inFlight_after.1 member).resolve_right fun new => ne ?_
    rw [← (mem_post.1 new).1, sender]
  constructor
  · intro d member sender target s message
    rw [other]
    exact h.agreed d (before d member sender) sender target s message
  · intro d member sender target s message
    exact h.rejected d (before d member sender) sender target s message
  · intro d member sender target s attempt message newer fine
    rw [self] at newer
    rw [other]
    exact h.waits d (before d member sender) sender target s attempt message
      (UInt32.lt_of_le_of_lt older newer) fine
  · rw [self, other]
    exact together

/-- Nothing happens. -/
theorem Facing.after_nothing (ne : x ≠ y) (xy : Facing p w x y) (yx : Facing p w y x) :
    Facing p (p.after w x (w.negotiations x) none) x y ∧
      Facing p (p.after w x (w.negotiations x) none) y x := by
  constructor
  · exact xy.after_silent ne (fun _ h => h)
      (fun _ _ attempts pending _ _ => ⟨attempts, pending⟩) xy.together
  · exact yx.after_other ne (UInt32.le_refl _) yx.together

/-- What holds of a pair holds after an own proposal of one of them. -/
theorem Facing.proposed (pair : ∀ a, a ∈ p.participants ↔ a = x ∨ a = y) (ne : x ≠ y)
    (sound : Sound p w) (xy : Facing p w x y) (yx : Facing p w y x)
    (proposed : (w.negotiations x).Proposed s m? n) :
    Facing p (p.after w x n m?) x y ∧ Facing p (p.after w x n m?) y x := by
  cases proposed with
  | ignored => exact Facing.after_nothing ne xy yx
  | failed exhausted idle =>
    -- Who is idle has not agreed and does not wait. So the other one has not agreed either.
    constructor
    · exact xy.after_silent ne (fun _ agreed => nomatch idle.symm.trans agreed)
        (fun _ _ _ pending => nomatch idle.symm.trans pending) (fun _ agreed => nomatch agreed)
    · refine yx.after_other ne (UInt32.le_refl _) fun t agreed => ?_
      obtain ⟨-, agreed | ⟨pending, -⟩⟩ := yx.together t agreed
      · exact nomatch idle.symm.trans agreed
      · exact nomatch idle.symm.trans pending
  | opened idle left =>
    have newer := Negotiation.lt_add_one left
    have attempts : ((w.negotiations x).openAttempt ((w.negotiations x).attempts + 1) s
        (w.negotiations x).me).checkAgreed.attempts = (w.negotiations x).attempts + 1 := by
      rw [Negotiation.attempts_checkAgreed, Negotiation.attempts_openAttempt newer]
    have pending : ((w.negotiations x).openAttempt ((w.negotiations x).attempts + 1) s
        (w.negotiations x).me).checkAgreed.status = .pending s := by
      rw [Negotiation.checkAgreed_of_pending (s := s) rfl, if_neg]
      · rfl
      · intro all
        have participant : y ∈ (w.negotiations x).participants := by
          rw [sound.participants_eq]
          exact (pair y).2 (.inr rfl)
        have isProposer : y = (w.negotiations x).me := List.mem_singleton.1 (all y participant)
        rw [sound.me_eq] at isProposer
        exact ne isProposer.symm
    constructor
    · refine xy.after_self ne (fun _ agreed => nomatch idle.symm.trans agreed)
        (fun _ _ _ pending => nomatch idle.symm.trans pending)
        (fun _ agreed => nomatch pending.symm.trans agreed) (fun _ _ sent => nomatch sent)
        (fun _ _ sent => nomatch sent) ?_
      rintro target t attempt ⟨⟩
      exact ⟨attempts, pending⟩
    · refine yx.after_other ne (by rw [attempts]; exact UInt32.le_of_lt newer) fun t agreed => ?_
      obtain ⟨-, agreed | ⟨pending, -⟩⟩ := yx.together t agreed
      · exact nomatch idle.symm.trans agreed
      · exact nomatch idle.symm.trans pending

/-- After a proposal that is accepted. The proposer still waits for this
acceptance, and it is the only one missing. -/
theorem Facing.accepted {attempt : UInt32} (pair : ∀ a, a ∈ p.participants ↔ a = x ∨ a = y)
    (ne : x ≠ y) (sound : Sound p w) (xy : Facing p w x y) (yx : Facing p w y x)
    (attempts : (w.negotiations y).attempts = attempt)
    (waiting : (w.negotiations y).status = .pending s)
    (newer : (w.negotiations x).attempts < attempt) (running : (w.negotiations x).Running)
    (fine : s ∈ p.acceptable x)
    (isNext : n = ((w.negotiations x).openAttempt attempt s y).accept (w.negotiations x).me) :
    Facing p (p.after w x n (some (.agreed (w.negotiations x).target s))) x y ∧
      Facing p (p.after w x n (some (.agreed (w.negotiations x).target s))) y x := by
  -- There are only two participants, so the acceptance completes the agreement.
  have attempts' : n.attempts = attempt := by
    rw [isNext, Negotiation.attempts_accept, Negotiation.attempts_openAttempt newer]
  have agreed : n.status = .agreed s := by
    rw [isNext, Negotiation.status_accept (s := s) rfl, if_pos]
    intro a participant
    have participant : a ∈ (w.negotiations x).participants := participant
    rw [sound.participants_eq, pair] at participant
    rcases participant with rfl | rfl
    · exact .inl (sound.me_eq a).symm
    · exact .inr (List.mem_singleton_self a)
  constructor
  · refine xy.after_self ne ?_ ?_ ?_ ?_ (fun _ _ sent => nomatch sent)
      (fun _ _ _ sent => nomatch sent)
    · intro t settled
      exact absurd settled (running.not_agreed t)
    · -- What `x` proposed itself in a later attempt: there is no such attempt yet.
      intro t attempt' own _ later
      rw [attempts, ← own] at later
      exact absurd later (UInt32.not_lt.2 (UInt32.le_of_lt newer))
    · intro t settled
      obtain rfl : s = t := by
        rw [agreed] at settled
        cases settled
        rfl
      exact ⟨attempts.trans attempts'.symm, .inr ⟨waiting, fine⟩⟩
    · rintro target t ⟨⟩
      exact agreed
  -- For `y` it only matters that `x` has gone on to its attempt.
  · refine yx.after_other ne ?_ ?_
    · rw [attempts']
      exact UInt32.le_of_lt newer
    · intro t settled
      exact nomatch waiting.symm.trans settled

/-- After a proposal that is rejected. Its sender is in the attempt of the
proposal, or past it. -/
theorem Facing.refused {attempt : UInt32} (ne : x ≠ y) (xy : Facing p w x y) (yx : Facing p w y x)
    (reached : attempt ≤ (w.negotiations y).attempts)
    (newer : (w.negotiations x).attempts < attempt) (running : (w.negotiations x).Running)
    (notFine : s ∉ p.acceptable x)
    (isNext : n = ((w.negotiations x).openAttempt attempt s y).closed) :
    Facing p (p.after w x n (some (.rejected (w.negotiations x).target s))) x y ∧
      Facing p (p.after w x n (some (.rejected (w.negotiations x).target s))) y x := by
  have attempts : n.attempts = attempt := by
    rw [isNext, Negotiation.attempts_closed, Negotiation.attempts_openAttempt newer]
  have past : (w.negotiations x).attempts < (w.negotiations y).attempts :=
    UInt32.lt_of_lt_of_le newer reached
  constructor
  · refine xy.after_self ne ?_ ?_ ?_ (fun _ _ sent => nomatch sent) ?_
      (fun _ _ _ sent => nomatch sent)
    · intro t settled
      exact absurd settled (running.not_agreed t)
    · intro t attempt' own _ later
      rw [← own] at later
      exact absurd later (UInt32.not_lt.2 (UInt32.le_of_lt past))
    · intro t settled
      rw [isNext] at settled
      exact absurd (.inr settled) Negotiation.not_holds_closed
    · rintro target t ⟨⟩
      exact notFine
  · refine yx.after_other ne ?_ ?_
    · rw [attempts]
      exact UInt32.le_of_lt newer
    · -- If the proposer had agreed, `x` would be in the same attempt already.
      intro t settled
      exact absurd (yx.together t settled).1 (UInt32.ne_of_lt past)

/-- After an acceptance, which comes from one who has agreed. -/
theorem Facing.counted (ne : x ≠ y) (xy : Facing p w x y) (yx : Facing p w y x)
    (settled : (w.negotiations y).status = .agreed s)
    (pending : (w.negotiations x).status = .pending s) :
    Facing p (p.after w x ((w.negotiations x).accept y) none) x y ∧
      Facing p (p.after w x ((w.negotiations x).accept y) none) y x := by
  -- What `x` hears was sent when `y` had agreed, and both are in the same attempt.
  obtain ⟨same, others⟩ := yx.together s settled
  have attempts := Negotiation.attempts_accept (w.negotiations x) y
  have held : ((w.negotiations x).accept y).Holds s :=
    Negotiation.holds_accept.2 (.inl pending)
  constructor
  · refine xy.after_silent ne (fun t agreed => nomatch pending.symm.trans agreed) ?_ ?_
    · intro t attempt own _ later
      rw [← own, same] at later
      exact absurd later (UInt32.lt_irrefl _)
    · intro t agreed
      obtain rfl : s = t := held.eq (.inr agreed)
      exact ⟨by rw [attempts, same], .inl settled⟩
  · refine yx.after_other ne (by rw [attempts]; exact UInt32.le_refl _) fun t agreed => ?_
    obtain rfl : s = t := by
      rw [settled] at agreed
      cases agreed
      rfl
    have fine : s ∈ p.acceptable y := by
      rcases others with agreed' | ⟨-, fine⟩
      · exact nomatch pending.symm.trans agreed'
      · exact fine
    exact ⟨by rw [attempts, same], held.symm.imp_right fun pending => ⟨pending, fine⟩⟩

/-- After a rejection. What the other one rejects, they are not going to
accept. -/
theorem Facing.ended (ne : x ≠ y) (xy : Facing p w x y) (yx : Facing p w y x)
    (notFine : s ∉ p.acceptable y) (pending : (w.negotiations x).status = .pending s) :
    Facing p (p.after w x (w.negotiations x).closed none) x y ∧
      Facing p (p.after w x (w.negotiations x).closed none) y x := by
  -- `y` rejects what it does not find acceptable, and `x` waits for nothing else.
  have only : ∀ t, (w.negotiations x).status = .pending t → t ∉ p.acceptable y := by
    intro t pending'
    rw [pending] at pending'
    cases pending'
    exact notFine
  constructor
  · refine xy.after_silent ne (fun t agreed => nomatch pending.symm.trans agreed) ?_ ?_
    · intro t attempt _ pending' _ fine
      exact absurd fine (only t pending')
    · intro t agreed
      exact absurd (.inr agreed) Negotiation.not_holds_closed
  · have older : (w.negotiations x).attempts ≤ (w.negotiations x).closed.attempts := by
      rw [Negotiation.attempts_closed]
      exact UInt32.le_refl _
    refine yx.after_other ne older fun t settled => ?_
    obtain ⟨-, agreed | ⟨pending', fine⟩⟩ := yx.together t settled
    · exact nomatch pending.symm.trans agreed
    · exact absurd fine (only t pending')

/-- And after any message from one to the other. -/
theorem Facing.handled (pair : ∀ a, a ∈ p.participants ↔ a = x ∨ a = y) (ne : x ≠ y)
    (sound : Sound p w) (xy : Facing p w x y) (yx : Facing p w y x) (onItsWay : d ∈ w.inFlight)
    (recipient : d.recipient = x)
    (handled : (w.negotiations x).Handled d.sender d.message (p.acceptable x) m? n) :
    Facing p (p.after (w.take d) x n m?) x y ∧ Facing p (p.after (w.take d) x n m?) y x := by
  -- With two participants the sender can only be the other one.
  have sent := sound.sent d onItsWay
  have sender : d.sender = y := by
    refine ((pair d.sender).1 sent.sender).resolve_left fun isSelf => sent.ne ?_
    rw [recipient, isSelf]
  rw [sender] at handled
  cases handled with
  | ignored => exact Facing.after_nothing ne (xy.take d) (yx.take d)
  | accepted s attempt isProposal newer allowed running fine =>
    obtain ⟨attempts, waiting⟩ := yx.waits d onItsWay sender _ s attempt isProposal newer fine
    exact Facing.accepted pair ne (sound.take d) (xy.take d) (yx.take d) attempts waiting newer
      running fine rfl
  | refused s attempt isProposal newer allowed running notFine =>
    have reached : attempt ≤ (w.negotiations y).attempts := by
      have stands := sent.stands s (by rw [isProposal]; rfl)
      rw [← sent.proposal _ s attempt isProposal, sender] at stands
      exact stands.1
    exact Facing.refused ne (xy.take d) (yx.take d) reached newer running notFine rfl
  | counted s isAcceptance pending =>
    exact Facing.counted ne (xy.take d) (yx.take d) (yx.agreed d onItsWay sender _ s isAcceptance)
      pending
  | ended s isRejection pending =>
    exact Facing.ended ne (xy.take d) (yx.take d) (yx.rejected d onItsWay sender _ s isRejection)
      pending

/-- Two participants who face each other do so after every step. -/
theorem Facing.stepped (pair : ∀ a, a ∈ p.participants ↔ a = x ∨ a = y) (ne : x ≠ y)
    (sound : Sound p w) (xy : Facing p w x y) (yx : Facing p w y x) (step : Stepped p w e w') :
    Facing p w' x y ∧ Facing p w' y x := by
  have pair' : ∀ a, a ∈ p.participants ↔ a = y ∨ a = x := by
    intro a
    rw [pair, or_comm]
  cases step with
  | ignored => exact ⟨xy, yx⟩
  | proposed participant proposed =>
    rcases (pair _).1 participant with rfl | rfl
    · exact Facing.proposed pair ne sound xy yx proposed
    · exact (Facing.proposed pair' ne.symm sound yx xy proposed).symm
  | @delivered d m? n onItsWay handled =>
    rcases (pair _).1 (sound.sent d onItsWay).recipient with recipient | recipient
    · rw [recipient] at handled ⊢
      exact Facing.handled pair ne sound xy yx onItsWay recipient handled
    · rw [recipient] at handled ⊢
      exact (Facing.handled pair' ne.symm sound yx xy onItsWay recipient handled).symm

/-- Two participants face each other along every run. -/
theorem facing_run (pair : ∀ a, a ∈ p.participants ↔ a = x ∨ a = y) (ne : x ≠ y)
    (events : List Event) : Facing p (p.run events) x y ∧ Facing p (p.run events) y x := by
  induction events using List.reverseRecOn with
  | nil =>
    -- At the start nothing is on its way and nobody has agreed.
    constructor <;> constructor <;> intro _ none <;> cases none
  | append_singleton events e ih =>
    rw [run_concat]
    exact Facing.stepped pair ne (sound_run p events) ih.1 ih.2 (stepped p _ e)

/-! ### Two agreements -/

/-- With at most two participants, two that are different are all. -/
theorem pair_of_length_le (few : p.participants.length ≤ 2) (ne : x ≠ y)
    (participant : x ∈ p.participants) (participant' : y ∈ p.participants) (a : Address) :
    a ∈ p.participants ↔ a = x ∨ a = y := by
  have distinct : [x, y].Nodup := by simpa using ne
  have among : [x, y].Subperm p.participants :=
    List.subperm_of_subset distinct (by simp [participant, participant'])
  rw [← (among.perm_of_length_le (by simpa using few)).mem_iff]
  simp

/-- Two participants have agreed. Then they agreed on the same strategy, or
there are more than two participants and one of the two counts an outdated
acceptance: one that was sent in another attempt than the one in which it is
counted and in which they agreed. -/
theorem same_or_outdated (p : Parley) (events : List Event) {x y : Address} {s t : Strategy}
    (participant : x ∈ p.participants) (participant' : y ∈ p.participants)
    (agreed : ((p.run events).negotiations x).status = .agreed s)
    (agreed' : ((p.run events).negotiations y).status = .agreed t) :
    s = t ∨
      2 < p.participants.length ∧ (CountsOutdated p events x ∨ CountsOutdated p events y) := by
  by_cases self : x = y
  · subst self
    have held : ((p.run events).negotiations x).Holds s := .inr agreed
    exact .inl (held.eq (.inr agreed'))
  by_cases few : p.participants.length ≤ 2
  · have pair := pair_of_length_le few self participant participant'
    exact .inl ((facing_run pair self events).1.eq agreed agreed')
  have many : 2 < p.participants.length := by omega
  rcases current_or_outdated p events x with current | outdated
  case inr => exact .inr ⟨many, .inl outdated⟩
  rcases current_or_outdated p events y with current' | outdated
  case inr => exact .inr ⟨many, .inr outdated⟩
  left
  have sound := sound_run p events
  -- Each of the two was counted by the other one, so they are in the same attempt.
  have counted : y ∈ ((p.run events).negotiations x).acceptedBy :=
    sound.complete x s agreed y (by rw [sound.participants_eq]; exact participant')
  have counted' : x ∈ ((p.run events).negotiations y).acceptedBy :=
    sound.complete y t agreed' x (by rw [sound.participants_eq]; exact participant)
  obtain ⟨le, only⟩ := current s (.inr agreed) y counted
  obtain ⟨ge, -⟩ := current' t (.inr agreed') x counted'
  exact (only (UInt32.le_antisymm le ge) t (.inr agreed')).symm

/-! ### An outdated acceptance of three participants

Bob proposes to use a ledger channel. Alice finds that acceptable and Carol
does not, so the attempt ends, but Alice's acceptance is still on its way to
Carol. Then Alice's proposal of direct funding is accepted by all, and Alice
has agreed. But Carol takes a rejection that Alice sent long before for one
of this attempt, and proposes a ledger channel. For that one Alice's old
acceptance counts. -/

namespace Sample

/-- Each of the three has other strategies that they find acceptable. -/
def divided : Parley :=
  three fun a => if a = alice then [.ledger] else if a = bob then [.direct, .ledger] else [.direct]

/-- A proposal arrives. -/
def proposal (sender recipient : Address) (s : Strategy) (attempt : UInt32) : Event :=
  .deliver ⟨sender, recipient, .proposal .zero s attempt, attempt⟩

/-- An acceptance arrives, sent in an attempt. -/
def acceptance (sender recipient : Address) (s : Strategy) (attempt : UInt32) : Event :=
  .deliver ⟨sender, recipient, .agreed .zero s, attempt⟩

/-- A rejection arrives, sent in an attempt. -/
def rejection (sender recipient : Address) (s : Strategy) (attempt : UInt32) : Event :=
  .deliver ⟨sender, recipient, .rejected .zero s, attempt⟩

/-- An acceptance of the second attempt comes to Carol during the fourth. -/
def lateAnswers : List Event :=
  [.propose bob .direct, proposal bob alice .direct 1, rejection alice bob .direct 1,
    .propose bob .ledger, proposal bob alice .ledger 2, proposal bob carol .ledger 2,
    rejection carol alice .ledger 2, rejection carol bob .ledger 2,
    .propose alice .direct, proposal alice bob .direct 3, proposal alice carol .direct 3,
    acceptance bob alice .direct 3, acceptance carol alice .direct 3,
    rejection alice carol .direct 1,
    .propose carol .ledger, proposal carol bob .ledger 4, acceptance bob carol .ledger 4,
    acceptance alice carol .ledger 2]

/-- Alice ends with a direct deposit. -/
theorem status_alice :
    ((divided.run lateAnswers).negotiations alice).status = .agreed .direct := by
  decide +kernel

/-- Carol ends with the ledger. -/
theorem status_carol :
    ((divided.run lateAnswers).negotiations carol).status = .agreed .ledger := by
  decide +kernel

/-- Two participants who have agreed need not have agreed on the same
strategy. -/
theorem disagreed : ¬∀ (p : Parley) (events : List Event) (x y : Address) (s t : Strategy),
    2 ≤ p.participants.length → x ∈ p.participants → y ∈ p.participants →
    ((p.run events).negotiations x).status = .agreed s →
    ((p.run events).negotiations y).status = .agreed t → s = t := by
  intro sameStrategy
  have same : Strategy.direct = .ledger :=
    sameStrategy divided lateAnswers alice carol .direct .ledger (by decide) (by decide) (by decide)
      status_alice status_carol
  cases same

/-- The disagreement is no other than the one that an outdated acceptance
makes. -/
theorem same_or_outdated_divided :
    ((divided.run lateAnswers).negotiations alice).status = .agreed .direct ∧
    ((divided.run lateAnswers).negotiations carol).status = .agreed .ledger ∧
    (CountsOutdated divided lateAnswers alice ∨ CountsOutdated divided lateAnswers carol) := by
  refine ⟨status_alice, status_carol, ?_⟩
  have outdated :=
    same_or_outdated divided lateAnswers (by decide) (by decide) status_alice status_carol
  exact (outdated.resolve_left (by decide)).2

end Sample

end StateChannels.Parley
