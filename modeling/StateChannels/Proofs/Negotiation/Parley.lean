import Mathlib.Data.List.Induction
import StateChannels.Proofs.Negotiation.Steps

/-!
# `StateChannels.Proofs.Negotiation.Parley`: negotiations that exchange messages

All participants of a channel negotiate about it, each with a negotiation of
their own. A message goes to all others and arrives there in any order with
other messages, once or never. Anyone may propose at any time.

A message on its way is stamped with the attempt in which it was sent. No
recipient sees the stamp: a proposal tells its attempt in the message, but an
answer does not.

* `stepped`: what an event does. One participant takes one of the steps of
  `Negotiation.handled` or `Negotiation.proposed`, and the answer goes to all
  others.
* `Sound`: what holds along every run (`sound_run`). Messages go from one
  participant to another one, a proposal carries its stamp, and a strategy
  that someone accepted by a message stands with them.
-/

set_option autoImplicit false

namespace StateChannels

/-- Who negotiates about a channel, and what each of them finds
acceptable. -/
structure Parley where
  target : Hash
  participants : List Address
  nodup : participants.Nodup
  maxAttempts : UInt32
  acceptable : Address → List Strategy

namespace Parley

/-- A message on its way, with the attempt in which its sender was when it
was sent. -/
@[ext] structure Dispatch where
  sender : Address
  recipient : Address
  message : StrategyMessage
  stamp : UInt32
deriving DecidableEq

/-- All negotiations, and what is on its way. -/
structure World where
  negotiations : Address → Negotiation
  inFlight : List Dispatch

/-- What happens between the participants: one of them calls a method, or a
message arrives. -/
inductive Event where
  /-- A participant proposes a strategy. -/
  | propose (who : Address) (s : Strategy)
  /-- A message arrives. -/
  | deliver (d : Dispatch)

/-- A new negotiation for each participant. -/
def start (p : Parley) : World where
  negotiations who := ⟨p.target, p.participants, who, p.maxAttempts, 0, .idle, []⟩
  inFlight := []

/-- A message, if there is one, to all others. -/
def post (p : Parley) (who : Address) (n : Negotiation) (m? : Option StrategyMessage) :
    List Dispatch :=
  m?.toList.flatMap fun m =>
    (p.participants.filter fun a => a ≠ who).map fun a => ⟨who, a, m, n.attempts⟩

/-- The world after a participant took a step. -/
def after (p : Parley) (w : World) (who : Address) (n : Negotiation)
    (m? : Option StrategyMessage) : World where
  negotiations a := if a = who then n else w.negotiations a
  inFlight := w.inFlight ++ p.post who n m?

/-- A message that arrives is no longer on its way. -/
def World.take (w : World) (d : Dispatch) : World := { w with inFlight := w.inFlight.erase d }

/-- The world after an event. Nobody but a participant proposes, and only
what is on its way arrives. -/
def step (p : Parley) (w : World) : Event → World
  | .propose who s =>
    if who ∈ p.participants then
      let proposal := (w.negotiations who).propose s
      p.after w who proposal.2 proposal.1.toOption
    else w
  | .deliver d =>
    if d ∈ w.inFlight then
      let handling :=
        (w.negotiations d.recipient).handle d.sender d.message (p.acceptable d.recipient)
      p.after (w.take d) d.recipient handling.2 (Wallet.answer? d.message handling.1)
    else w

/-- The world after a list of events. -/
def run (p : Parley) (events : List Event) : World := events.foldl p.step p.start

variable {p : Parley} {w w' : World} {who : Address} {d : Dispatch} {e : Event}
  {n : Negotiation} {s : Strategy} {m? : Option StrategyMessage}

/-- At the start stands what a participant starts a negotiation with. -/
theorem start_eq_ok (participant : who ∈ p.participants) :
    Negotiation.start p.target p.participants who p.maxAttempts =
      .ok (p.start.negotiations who) :=
  if_pos participant

/-- A run with one more event is the run followed by its step. -/
theorem run_concat (p : Parley) (events : List Event) (e : Event) :
    p.run (events ++ [e]) = p.step (p.run events) e := by
  simp [run]

/-- A dispatch is posted when it carries the message to another participant. -/
theorem mem_post :
    d ∈ p.post who n m? ↔ d.sender = who ∧ d.recipient ∈ p.participants ∧ d.recipient ≠ who ∧
      m? = some d.message ∧ d.stamp = n.attempts := by
  obtain ⟨sender, recipient, message, stamp⟩ := d
  cases m? with
  | none => simp [post]
  | some m =>
    simp [post]
    grind

/-! ### One event -/

/-- What an event can do. -/
inductive Stepped (p : Parley) (w : World) : Event → World → Prop
  | ignored (e : Event) : Stepped p w e w
  | proposed {who : Address} {s : Strategy} {m? : Option StrategyMessage} {n : Negotiation}
      (participant : who ∈ p.participants)
      (proposed : (w.negotiations who).Proposed s m? n) :
      Stepped p w (.propose who s) (p.after w who n m?)
  | delivered {d : Dispatch} {m? : Option StrategyMessage} {n : Negotiation}
      (onItsWay : d ∈ w.inFlight)
      (handled : (w.negotiations d.recipient).Handled d.sender d.message
        (p.acceptable d.recipient) m? n) :
      Stepped p w (.deliver d) (p.after (w.take d) d.recipient n m?)

/-- Every step is of one of the kinds listed. -/
theorem stepped (p : Parley) (w : World) (e : Event) : Stepped p w e (p.step w e) := by
  cases e with
  | propose who s =>
    by_cases participant : who ∈ p.participants
    · rw [step, if_pos participant]
      exact .proposed participant (Negotiation.proposed _ s)
    · rw [step, if_neg participant]
      exact .ignored _
  | deliver d =>
    by_cases onItsWay : d ∈ w.inFlight
    · rw [step, if_pos onItsWay]
      exact .delivered onItsWay (Negotiation.handled ..)
    · rw [step, if_neg onItsWay]
      exact .ignored _

/-- The participant who acted has the new negotiation. -/
theorem negotiations_after_self (p : Parley) (w : World) (who : Address) (n : Negotiation)
    (m? : Option StrategyMessage) : (p.after w who n m?).negotiations who = n :=
  if_pos rfl

/-- Another participant's negotiation stays as it was. -/
theorem negotiations_after_of_ne {a : Address} (other : a ≠ who) :
    (p.after w who n m?).negotiations a = w.negotiations a :=
  if_neg other

/-- Taking a dispatch off the way changes no negotiation. -/
@[simp] theorem negotiations_take (w : World) (d : Dispatch) :
    (w.take d).negotiations = w.negotiations := rfl

/-- What is under way afterwards was so before, or is posted now. -/
theorem mem_inFlight_after :
    d ∈ (p.after w who n m?).inFlight ↔ d ∈ w.inFlight ∨ d ∈ p.post who n m? :=
  List.mem_append

/-- What is still on its way was on its way before. -/
theorem mem_of_mem_take {arrived : Dispatch} (h : d ∈ (w.take arrived).inFlight) :
    d ∈ w.inFlight :=
  List.mem_of_mem_erase h

/-- What holds of every negotiation before a step, and of the one that took
the step, holds of every negotiation afterwards. -/
theorem forall_negotiations_after {P : Address → Negotiation → Prop} (self : P who n)
    (before : ∀ a, P a (w.negotiations a)) (a : Address) :
    P a ((p.after w who n m?).negotiations a) := by
  by_cases here : a = who
  · rw [here, negotiations_after_self]
    exact self
  · rw [negotiations_after_of_ne here]
    exact before a

/-- Everyone's negotiation evolves when that of one participant does. -/
theorem evolves_after (evolves : (w.negotiations who).Evolves n) (a : Address) :
    (w.negotiations a).Evolves ((p.after w who n m?).negotiations a) :=
  forall_negotiations_after (P := fun a n => (w.negotiations a).Evolves n) evolves
    (fun _ => .refl _) a

/-- After an event every negotiation is the same, or in a newer attempt, or
has no strategy that it had not before. -/
theorem Stepped.evolves (h : Stepped p w e w') (a : Address) :
    (w.negotiations a).Evolves (w'.negotiations a) := by
  cases h with
  | ignored => exact .refl _
  | proposed _ proposed => exact evolves_after proposed.evolves a
  | delivered _ handled => exact evolves_after (w := w.take _) handled.evolves a

/-! ### What holds along a run -/

/-- What holds of a message on its way. -/
structure Sent (p : Parley) (w : World) (d : Dispatch) : Prop where
  sender : d.sender ∈ p.participants
  recipient : d.recipient ∈ p.participants
  ne : d.recipient ≠ d.sender
  /-- A proposal tells the attempt in which it was sent. -/
  proposal : ∀ target s attempt, d.message = .proposal target s attempt → attempt = d.stamp
  /-- What the sender accepts by the message stands with them. -/
  stands : ∀ s, d.message.accepts? = some s → (w.negotiations d.sender).Stands d.stamp s

/-- What holds along a run. -/
structure Sound (p : Parley) (w : World) : Prop where
  terms : ∀ who, (w.negotiations who).terms = (p.target, p.participants, who, p.maxAttempts)
  complete : ∀ who, (w.negotiations who).Complete
  sent : ∀ d ∈ w.inFlight, Sent p w d

/-- Every participant negotiates with the same participants. -/
theorem Sound.participants_eq (h : Sound p w) (who : Address) :
    (w.negotiations who).participants = p.participants :=
  congrArg (fun terms => terms.2.1) (h.terms who)

/-- Every participant negotiates under its own address. -/
theorem Sound.me_eq (h : Sound p w) (who : Address) : (w.negotiations who).me = who :=
  congrArg (fun terms => terms.2.2.1) (h.terms who)

/-- Every participant negotiates about the same channel. -/
theorem Sound.target_eq (h : Sound p w) (who : Address) :
    (w.negotiations who).target = p.target :=
  congrArg (fun terms => terms.1) (h.terms who)

/-- What was sent before stays sound, for the sender only evolves. -/
theorem Sent.evolves (h : Sent p w d)
    (evolves : ∀ a, (w.negotiations a).Evolves (w'.negotiations a)) : Sent p w' d where
  sender := h.sender
  recipient := h.recipient
  ne := h.ne
  proposal := h.proposal
  stands s accepts := (h.stands s accepts).evolves (evolves d.sender)

/-- The start is sound. -/
theorem sound_start (p : Parley) : Sound p p.start where
  terms _ := rfl
  complete _ s agreed := by cases agreed
  sent d none := by cases none

/-- A step of a participant keeps what is on its way sound, if what they
send is. -/
theorem Sound.after (h : Sound p w) (same : n.terms = (w.negotiations who).terms)
    (complete : n.Complete) (evolves : (w.negotiations who).Evolves n)
    (participant : who ∈ p.participants)
    (proposal : ∀ target s attempt, m? = some (.proposal target s attempt) → attempt = n.attempts)
    (holds : ∀ m, m? = some m → ∀ s, m.accepts? = some s → n.Holds s) :
    Sound p (p.after w who n m?) where
  terms :=
    forall_negotiations_after
      (P := fun a n => n.terms = (p.target, p.participants, a, p.maxAttempts))
      (same.trans (h.terms who)) h.terms
  complete := forall_negotiations_after (P := fun _ n => n.Complete) complete h.complete
  sent d member := by
    -- What was sent before stands still, and what is posted now comes from the new negotiation.
    rcases mem_inFlight_after.1 member with old | new
    · exact (h.sent d old).evolves (evolves_after evolves)
    · obtain ⟨sender, recipient, ne, sent, stamp⟩ := mem_post.1 new
      constructor
      · rw [sender]
        exact participant
      · exact recipient
      · rw [sender]
        exact ne
      · intro target s attempt isProposal
        rw [stamp]
        exact proposal target s attempt (by rw [sent, isProposal])
      · intro s accepts
        rw [sender, stamp, negotiations_after_self]
        exact (holds d.message sent s accepts).stands

/-- Soundness does not depend on a dispatch that leaves the way. -/
theorem Sound.take (h : Sound p w) (d : Dispatch) : Sound p (w.take d) where
  terms := h.terms
  complete := h.complete
  sent _ member := (h.sent _ (mem_of_mem_take member)).evolves fun _ => .refl _

/-- Every step keeps soundness. -/
theorem Sound.stepped (h : Sound p w) (step : Stepped p w e w') : Sound p w' := by
  cases step with
  | ignored => exact h
  | proposed participant proposed =>
    refine h.after proposed.terms (proposed.complete (h.complete _)) proposed.evolves participant
      ?_ ?_
    · rintro target s attempt rfl
      exact proposed.attempts_of_proposal
    · rintro m rfl s accepts
      exact proposed.holds_of_accepts accepts
  | delivered onItsWay handled =>
    refine (h.take _).after handled.terms (handled.complete (h.complete _)) handled.evolves
      (h.sent _ onItsWay).recipient ?_ ?_
    · rintro target s attempt rfl
      exact absurd handled Negotiation.Handled.not_proposal
    · rintro m rfl s accepts
      exact handled.holds_of_accepts accepts

/-- Along every run the world is sound. -/
theorem sound_run (p : Parley) (events : List Event) : Sound p (p.run events) := by
  -- From the end of the run: its last event is one step.
  induction events using List.reverseRecOn with
  | nil => exact sound_start p
  | append_singleton before e ih =>
    rw [run_concat]
    exact ih.stepped (stepped p _ e)

/-! ### Three participants -/

namespace Sample

/-- The first of three participants. -/
def alice : Address := ⟨.replicate 20 1⟩

/-- The second of three participants. -/
def bob : Address := ⟨.replicate 20 2⟩

/-- The third of three participants. -/
def carol : Address := ⟨.replicate 20 3⟩

/-- Alice, Bob and Carol have four attempts. -/
def three (acceptable : Address → List Strategy) : Parley where
  target := .zero
  participants := [alice, bob, carol]
  nodup := by decide
  maxAttempts := 4
  acceptable := acceptable

end Sample

end Parley

end StateChannels
