import Mathlib.Data.List.Induction
import StateChannels.Proofs.Negotiation.Steps

/-!
# `StateChannels.Proofs.Negotiation.Attempts`: how often, and what an agreement rests on

One participant negotiates. They propose, and messages come in from anyone, in any order,
also wrong ones. Whatever is called, the negotiation comes to an end: a proposal is opened
only in a newer attempt, and there are no more attempts than allowed.

A proposal of someone else may skip attempts, and it replaces the one that is open. The
acceptances that were counted for the old proposal have to be forgotten then. So an
agreement is traced back to the call that opened its proposal (`OpenSince`): since then
nothing else was opened, and since then every participant accepted (`AcceptedSince`).

* `moves`: what a call does, and whether it opens a proposal.
* `Moves.attempts`: a call that opens a proposal takes up at least one attempt.
* `traced_run`: a strategy that is pending or agreed was opened by some call, and who is
  recorded accepted it since.
* `bounded_and_unanimous`: these together, for every run from the start.
-/

set_option autoImplicit false

namespace StateChannels

/-- The strategy that a message proposes, if it is a proposal. -/
def StrategyMessage.proposal? : StrategyMessage → Option Strategy
  | proposal _ s _ => some s
  | agreed _ _ => none
  | rejected _ _ => none

namespace Negotiation

/-- What a participant does with their negotiation. -/
inductive Call where
  | propose (s : Strategy)
  | handle (sender : Address) (m : StrategyMessage) (acceptable : List Strategy)
deriving DecidableEq

/-- The participant finds the strategy acceptable, or proposes it. -/
def Call.Accepts (s : Strategy) : Call → Prop
  | propose t => t = s
  | handle _ _ acceptable => s ∈ acceptable

/-- The negotiation after a call, whatever its result. -/
def step (n : Negotiation) : Call → Negotiation
  | .propose s => (n.propose s).2
  | .handle sender m acceptable => (n.handle sender m acceptable).2

/-- The negotiation after a list of calls. -/
def run (n : Negotiation) (calls : List Call) : Negotiation := calls.foldl step n

/-- The proposal that a call opens, with its proposer. An own proposal is opened if it goes
out, and one of another participant if it is answered. -/
def opened? (n : Negotiation) : Call → Option (Strategy × Address)
  | .propose s => (n.propose s).1.toOption.map fun _ => (s, n.me)
  | .handle sender m acceptable =>
    (Wallet.answer? m (n.handle sender m acceptable).1).bind fun _ =>
      m.proposal?.map fun s => (s, sender)

/-- All proposals that a list of calls opens. -/
def openings (n : Negotiation) : List Call → List (Strategy × Address)
  | [] => []
  | c :: calls => (n.opened? c).toList ++ (n.step c).openings calls

variable {n n' : Negotiation} {c : Call} {s : Strategy} {opened : Option (Strategy × Address)}

/-- No calls leave the negotiation as it is. -/
@[simp] theorem run_nil (n : Negotiation) : n.run [] = n := rfl

/-- The first call comes before the others. -/
@[simp] theorem run_cons (n : Negotiation) (c : Call) (calls : List Call) :
    n.run (c :: calls) = (n.step c).run calls := rfl

/-- A run of two lists of calls is the one run after the other. -/
theorem run_append (n : Negotiation) (before after : List Call) :
    n.run (before ++ after) = (n.run before).run after := List.foldl_append

/-- A run with one more call is the run followed by its step. -/
theorem run_concat (n : Negotiation) (calls : List Call) (c : Call) :
    n.run (calls ++ [c]) = (n.run calls).step c := run_append n calls [c]

/-! ### One call -/

/-- What a call can do: the proposal that it opens, and the negotiation afterwards. -/
inductive Moves (n : Negotiation) (c : Call) : Option (Strategy × Address) → Negotiation → Prop
  | ignored : Moves n c none n
  /-- A proposal is opened in a newer attempt, as `m` has it. So far nobody accepted it but
  its proposer and the participant. -/
  | opened (s : Strategy) (proposer : Address) (m : Negotiation) (running : n.Running)
      (newer : n.attempts < m.attempts) (allowed : m.attempts ≤ n.maxAttempts)
      (pending : m.status = .pending s) (terms : m.terms = n.terms) (accepts : c.Accepts s)
      (first : ∀ a ∈ m.acceptedBy, a = proposer ∨ a = n.me) :
      Moves n c (some (s, proposer)) m.checkAgreed
  /-- A proposal is opened, and the participant rejects it. -/
  | refused (s : Strategy) (proposer : Address) (attempt : UInt32) (running : n.Running)
      (newer : n.attempts < attempt) (allowed : attempt ≤ n.maxAttempts) :
      Moves n c (some (s, proposer)) (n.openAttempt attempt s proposer).closed
  /-- Another participant accepts the strategy that is pending. -/
  | counted (s : Strategy) (sender : Address) (acceptable : List Strategy)
      (isAcceptance : c = .handle sender (.agreed n.target s) acceptable)
      (pending : n.status = .pending s) : Moves n c none (n.accept sender)
  /-- The attempt ends without an agreement, or there is no further one. -/
  | ended (running : n.Running) : Moves n c none n.closed

/-- An own proposal is one of the moves. -/
theorem Proposed.moves {sent : Option StrategyMessage} (h : Proposed n s sent n') :
    Moves n (.propose s) (sent.map fun _ => (s, n.me)) n' := by
  cases h with
  | ignored => exact .ignored
  | failed exhausted idle =>
    have isClosed : { n with status := .failed } = n.closed := by rw [closed, if_pos exhausted]
    rw [isClosed]
    exact .ended (.inl idle)
  | opened idle left =>
    have newer := lt_add_one left
    have attempt : (n.openAttempt (n.attempts + 1) s n.me).attempts = n.attempts + 1 :=
      attempts_openAttempt newer
    -- The sum does not wrap, so it is at most what is allowed.
    have allowed : n.attempts + 1 ≤ n.maxAttempts := by
      rw [UInt32.le_iff_toNat_le, toNat_add_one left]
      exact UInt32.lt_iff_toNat_lt.1 left
    refine .opened s n.me (n.openAttempt (n.attempts + 1) s n.me) (.inl idle) ?_ ?_ rfl rfl rfl ?_
    · rw [attempt]
      exact newer
    · rw [attempt]
      exact allowed
    · intro a member
      exact .inl (List.mem_singleton.1 member)

/-- Handling a message is one of the moves. -/
theorem Handled.moves {sender : Address} {m : StrategyMessage} {acceptable : List Strategy}
    {answer : Option StrategyMessage} (h : Handled n sender m acceptable answer n') :
    Moves n (.handle sender m acceptable)
      (answer.bind fun _ => m.proposal?.map fun s => (s, sender)) n' := by
  cases h with
  | ignored => exact .ignored
  | accepted s attempt isProposal newer allowed running fine =>
    subst isProposal
    have isAttempt : (n.openAttempt attempt s sender).attempts = attempt :=
      attempts_openAttempt newer
    refine .opened s sender { n.openAttempt attempt s sender with acceptedBy := [n.me, sender] }
      running ?_ ?_ rfl rfl fine ?_
    · exact isAttempt.symm ▸ newer
    · exact isAttempt.symm ▸ allowed
    · intro a member
      simpa [or_comm] using member
  | refused s attempt isProposal newer allowed running notFine =>
    subst isProposal
    exact .refused s sender attempt running newer allowed
  | counted s isAcceptance pending =>
    subst isAcceptance
    exact .counted s sender acceptable rfl pending
  | ended s isRejection pending => exact .ended (.inr ⟨s, pending⟩)

/-- Every call is one of the five cases. -/
theorem moves (n : Negotiation) (c : Call) : Moves n c (n.opened? c) (n.step c) := by
  cases c with
  | propose s => exact (proposed n s).moves
  | handle sender m acceptable => exact (handled n sender m acceptable).moves

/-- A newer proposal takes up an attempt at least, and no call gives one back. -/
theorem Moves.attempts (h : Moves n c opened n') :
    n.attempts.toNat + opened.toList.length ≤ n'.attempts.toNat := by
  cases h with
  | ignored => simp
  | opened s proposer m _ newer =>
    show n.attempts.toNat + 1 ≤ _
    rw [attempts_checkAgreed]
    exact UInt32.lt_iff_toNat_lt.1 newer
  | refused s proposer attempt _ newer =>
    show n.attempts.toNat + 1 ≤ _
    rw [attempts_closed, attempts_openAttempt newer]
    exact UInt32.lt_iff_toNat_lt.1 newer
  | counted => simp
  | ended => simp

/-- No call changes what a negotiation is about. -/
theorem Moves.terms (h : Moves n c opened n') : n'.terms = n.terms := by
  cases h with
  | ignored => rfl
  | opened _ _ m _ _ _ _ terms => exact (terms_checkAgreed m).trans terms
  | refused => rw [terms_closed]; rfl
  | counted => exact terms_accept n _
  | ended => exact terms_closed n

/-- A strategy becomes pending or agreed because it was so before, or because the call opens
its proposal. -/
theorem Moves.holds (h : Moves n c opened n') (held : n'.Holds s) :
    n.Holds s ∨ ∃ proposer, opened = some (s, proposer) := by
  cases h with
  | ignored => exact .inl held
  | opened t proposer m _ _ _ pending =>
    obtain rfl : t = s := Holds.eq (.inl pending) (holds_checkAgreed.1 held)
    exact .inr ⟨proposer, rfl⟩
  | refused => exact absurd held not_holds_closed
  | counted => exact .inl (holds_accept.1 held)
  | ended => exact absurd held not_holds_closed

/-- After an agreement or a failure nothing happens any more. -/
theorem Moves.eq_of_not_running (h : Moves n c opened n') (settled : ¬n.Running) : n' = n := by
  cases h with
  | ignored => rfl
  | opened _ _ _ running => exact absurd running settled
  | refused _ _ _ running => exact absurd running settled
  | counted s _ _ _ pending => exact absurd (.inr ⟨s, pending⟩) settled
  | ended running => exact absurd running settled

/-! ### Every run -/

/-- What holds of a negotiation at every time. -/
structure Sound (n : Negotiation) : Prop where
  bounded : n.attempts ≤ n.maxAttempts
  /-- It has failed only if there are no attempts left. -/
  exhausted : n.status = .failed → n.maxAttempts ≤ n.attempts
  complete : n.Complete

/-- With a strategy that is pending or agreed, the negotiation has not failed. -/
theorem Holds.not_failed (h : n.Holds s) : n.status ≠ .failed := by
  intro failed
  rcases h with pending | agreed
  · cases pending.symm.trans failed
  · cases agreed.symm.trans failed

/-- The end of an attempt is a failure only if there are no attempts left. -/
theorem sound_closed (bounded : n.attempts ≤ n.maxAttempts) : n.closed.Sound where
  bounded := by
    have same : n.closed.maxAttempts = n.maxAttempts := congrArg (·.2.2.2) (terms_closed n)
    rw [same, attempts_closed]
    exact bounded
  exhausted := by
    unfold closed
    split
    case isTrue exhausted => exact fun _ => exhausted
    case isFalse left => exact fun failed => nomatch failed
  complete := complete_of_holds_none fun _ => not_holds_closed

/-- While a strategy is pending, nothing but an agreement of all can come of the check. -/
theorem sound_checkAgreed (pending : n.status = .pending s) (bounded : n.attempts ≤ n.maxAttempts) :
    n.checkAgreed.Sound where
  bounded := by
    have same : n.checkAgreed.maxAttempts = n.maxAttempts :=
      congrArg (·.2.2.2) (terms_checkAgreed n)
    rw [same, attempts_checkAgreed]
    exact bounded
  exhausted failed := absurd failed (holds_checkAgreed.2 (.inl pending)).not_failed
  complete := complete_checkAgreed fun t agreed => nomatch pending.symm.trans agreed

/-- Every move keeps soundness. -/
theorem Sound.of_moves (h : n.Sound) (moves : Moves n c opened n') : n'.Sound := by
  cases moves with
  | ignored => exact h
  | opened s proposer m _ _ allowed pending terms =>
    have same : m.maxAttempts = n.maxAttempts := congrArg (·.2.2.2) terms
    exact sound_checkAgreed pending (same ▸ allowed)
  | refused s proposer attempt _ newer allowed =>
    refine sound_closed ?_
    rw [attempts_openAttempt newer]
    exact allowed
  | counted s sender _ _ pending => exact sound_checkAgreed (s := s) pending h.bounded
  | ended => exact sound_closed h.bounded

/-- Soundness lasts over every run. -/
theorem Sound.run (h : n.Sound) (calls : List Call) : (n.run calls).Sound := by
  induction calls generalizing n with
  | nil => exact h
  | cons c calls ih => exact ih (h.of_moves (moves n c))

/-- A run is about what the negotiation was about at the start. -/
theorem terms_run (n : Negotiation) (calls : List Call) : (n.run calls).terms = n.terms := by
  induction calls generalizing n with
  | nil => rfl
  | cons c calls ih => exact (ih (n.step c)).trans (moves n c).terms

/-- Every proposal that was opened took up an attempt of its own. -/
theorem attempts_run (n : Negotiation) (calls : List Call) :
    n.attempts.toNat + (n.openings calls).length ≤ (n.run calls).attempts.toNat := by
  induction calls generalizing n with
  | nil => exact Nat.le_refl _
  | cons c calls ih =>
    have first := (moves n c).attempts
    have rest := ih (n.step c)
    simp only [openings, List.length_append, run_cons]
    omega

/-- A negotiation that has ended stays as it is. -/
theorem run_eq_of_not_running (settled : ¬n.Running) (calls : List Call) : n.run calls = n := by
  induction calls with
  | nil => rfl
  | cons c calls ih => rw [run_cons, (moves n c).eq_of_not_running settled, ih]

/-- A message about another channel, or from someone who is not another participant, changes
nothing. -/
theorem step_handle_of_foreign {sender : Address} {m : StrategyMessage}
    {acceptable : List Strategy}
    (foreign : m.target ≠ n.target ∨ sender ∉ n.participants ∨ sender = n.me) :
    n.step (.handle sender m acceptable) = n := by
  rw [step, handle]
  by_cases other : m.target ≠ n.target
  · rw [if_pos other]
  · rw [if_neg other, if_pos (foreign.resolve_left other)]

/-! ### Back to the call that opened a proposal -/

/-- The calls `during` came after the one that opened the proposal of `s`, and this one came
after the calls `before`. The participant accepted the proposal, and it was pending before
each of the later calls, none of which opened another one. -/
structure OpenSince (n : Negotiation) (s : Strategy) (proposer : Address) (before : List Call)
    (opening : Call) (during : List Call) : Prop where
  opens : (n.run before).opened? opening = some (s, proposer)
  accepts : opening.Accepts s
  stays : ∀ earlier c later, during = earlier ++ c :: later →
    (n.run (before ++ opening :: earlier)).status = .pending s ∧
      (n.run (before ++ opening :: earlier)).opened? c = none

/-- The proposer accepted the proposal by making it, the participant by opening it, and
another one by an acceptance that came in since then. -/
def AcceptedSince (n : Negotiation) (s : Strategy) (proposer : Address) (during : List Call)
    (who : Address) : Prop :=
  who = proposer ∨ who = n.me ∨
    ∃ acceptable, Call.handle who (.agreed n.target s) acceptable ∈ during

variable {before during : List Call} {opening : Call} {proposer : Address}

/-- A proposal stays open over a call after which it is pending and that
opens no other. -/
theorem OpenSince.concat (h : OpenSince n s proposer before opening during)
    (pending : (n.run (before ++ opening :: during)).status = .pending s)
    (silent : (n.run (before ++ opening :: during)).opened? c = none) :
    OpenSince n s proposer before opening (during ++ [c]) where
  opens := h.opens
  accepts := h.accepts
  stays := by
    intro earlier c' later split
    -- The call is the new one at the end, or one of those before it.
    induction later using List.reverseRecOn with
    | nil =>
      obtain ⟨rfl, same⟩ := List.append_inj' split rfl
      obtain rfl : c = c' := (List.cons.inj same).1
      exact ⟨pending, silent⟩
    | append_singleton later last _ =>
      rw [← List.cons_append, ← List.append_assoc] at split
      exact h.stays earlier c' later (List.append_inj' split rfl).1

/-- Who accepted a proposal has done so after any further call. -/
theorem AcceptedSince.concat {who : Address} (h : AcceptedSince n s proposer during who)
    (c : Call) : AcceptedSince n s proposer (during ++ [c]) who := by
  rcases h with isProposer | isMe | ⟨acceptable, member⟩
  · exact .inl isProposer
  · exact .inr (.inl isMe)
  · exact .inr (.inr ⟨acceptable, List.mem_append_left _ member⟩)

/-- A strategy that is pending or agreed after the calls was opened by one of them, and who
is recorded accepted it since. What came after an agreement changed nothing. -/
def Traced (n : Negotiation) (calls : List Call) (s : Strategy) : Prop :=
  ∃ proposer before opening during after, calls = before ++ opening :: during ++ after ∧
    OpenSince n s proposer before opening during ∧
    n.run (before ++ opening :: during) = n.run calls ∧
    ((n.run calls).status = .pending s → after = []) ∧
    ∀ a ∈ (n.run calls).acceptedBy, AcceptedSince n s proposer during a

namespace Traced

variable {calls : List Call}

/-- The last call opens the proposal. -/
theorem of_opened (opens : (n.run calls).opened? c = some (s, proposer)) (accepts : c.Accepts s)
    (first : ∀ a ∈ (n.run (calls ++ [c])).acceptedBy, a = proposer ∨ a = n.me) :
    n.Traced (calls ++ [c]) s := by
  refine ⟨proposer, calls, c, [], [], by simp, ⟨opens, accepts, ?_⟩, rfl, fun _ => rfl, ?_⟩
  · intro earlier c' later split
    cases earlier <;> cases split
  · intro a member
    exact (first a member).imp_right .inl

/-- One more call, while the proposal is pending. Nothing is opened, and who is recorded now
was so before, or accepts with this call. -/
theorem concat (h : n.Traced calls s) (pending : (n.run calls).status = .pending s)
    (silent : (n.run calls).opened? c = none)
    (recorded : ∀ a ∈ (n.run (calls ++ [c])).acceptedBy, a ∈ (n.run calls).acceptedBy ∨
      ∃ acceptable, c = .handle a (.agreed n.target s) acceptable) :
    n.Traced (calls ++ [c]) s := by
  obtain ⟨proposer, before, opening, during, after, rfl, since, -, none, accepted⟩ := h
  obtain rfl : after = [] := none pending
  rw [List.append_nil] at pending silent recorded accepted ⊢
  refine ⟨proposer, before, opening, during ++ [c], [], by simp, since.concat pending silent, ?_,
    fun _ => rfl, ?_⟩
  · rw [← List.cons_append, ← List.append_assoc]
  · intro a member
    rcases recorded a member with old | ⟨acceptable, isAcceptance⟩
    · exact (accepted a old).concat c
    · exact .inr (.inr ⟨acceptable, by simp [isAcceptance]⟩)

/-- One more call, which changes nothing after the agreement. -/
theorem concat_of_agreed (h : n.Traced calls s) (agreed : (n.run calls).status = .agreed s)
    (ignored : n.run (calls ++ [c]) = n.run calls) : n.Traced (calls ++ [c]) s := by
  obtain ⟨proposer, before, opening, during, after, rfl, since, same, -, accepted⟩ := h
  rw [Traced, ignored]
  refine ⟨proposer, before, opening, during, after ++ [c], by simp, since, same, ?_, accepted⟩
  intro pending
  cases pending.symm.trans agreed

end Traced

/-- Whatever was called, the strategy that is pending or agreed can be traced back. -/
theorem traced_run (idle : n.status = .idle) {calls : List Call} (holds : (n.run calls).Holds s) :
    n.Traced calls s := by
  -- From the end: the last call opens the proposal, or it was pending or agreed before.
  induction calls using List.reverseRecOn with
  | nil => exact absurd holds (not_holds_of_idle idle)
  | append_singleton calls c ih =>
    have last := moves (n.run calls) c
    have terms := terms_run n calls
    have isStep := run_concat n calls c
    generalize isOpened : (n.run calls).opened? c = opened at last
    rw [isStep] at holds
    generalize (n.run calls).step c = n' at last holds isStep
    cases last with
    | ignored =>
      rcases holds with pending | agreed
      · exact (ih (.inl pending)).concat pending isOpened fun a member => .inl (isStep ▸ member)
      · exact (ih (.inr agreed)).concat_of_agreed agreed isStep
    | opened t proposer m _ _ _ pending _ accepts first =>
      obtain rfl : t = s := Holds.eq (.inl pending) (holds_checkAgreed.1 holds)
      refine .of_opened isOpened accepts fun a member => ?_
      rw [isStep, acceptedBy_checkAgreed] at member
      have isMe : (n.run calls).me = n.me := congrArg (·.2.2.1) terms
      exact isMe ▸ first a member
    | refused => exact absurd holds not_holds_closed
    | counted t sender acceptable isAcceptance pending =>
      have held : (n.run calls).Holds s := holds_accept.1 holds
      obtain rfl : t = s := Holds.eq (.inl pending) held
      have isTarget : (n.run calls).target = n.target := congrArg (·.1) terms
      refine (ih held).concat pending isOpened fun a member => ?_
      rw [isStep, acceptedBy_accept] at member
      rcases List.mem_cons.1 member with rfl | old
      · exact .inr ⟨acceptable, isTarget ▸ isAcceptance⟩
      · exact .inl old
    | ended => exact absurd holds not_holds_closed

/-- An agreement on `s`, with the call that opened its proposal, and who accepted it since. -/
def AgreedIn (n : Negotiation) (calls : List Call) (s : Strategy) : Prop :=
  ∃ proposer before opening during after, calls = before ++ opening :: during ++ after ∧
    OpenSince n s proposer before opening during ∧
    (n.run (before ++ opening :: during)).status = .agreed s ∧
    ∀ a ∈ n.participants, a ∈ (n.run (before ++ opening :: during)).acceptedBy ∧
      AcceptedSince n s proposer during a

/-- Every agreement of a run that began idle is one in the sense above. -/
theorem agreedIn (idle : n.status = .idle) (sound : n.Sound) {calls : List Call}
    (agreed : (n.run calls).status = .agreed s) : n.AgreedIn calls s := by
  obtain ⟨proposer, before, opening, during, after, split, since, same, -, accepted⟩ :=
    traced_run idle (.inr agreed)
  refine ⟨proposer, before, opening, during, after, split, since, by rw [same, agreed], ?_⟩
  intro a participant
  have participants : (n.run calls).participants = n.participants :=
    congrArg (·.2.1) (terms_run n calls)
  have recorded : a ∈ (n.run calls).acceptedBy :=
    (sound.run calls).complete s agreed a (participants ▸ participant)
  exact ⟨same ▸ recorded, accepted a recorded⟩

/-! ### From the start -/

variable {target : Hash} {participants : List Address} {me : Address} {maxAttempts : UInt32}

/-- No proposal is open at the start. -/
theorem of_start (started : start target participants me maxAttempts = .ok n) :
    n.status = .idle ∧ n.Sound ∧ n.terms = (target, participants, me, maxAttempts) := by
  obtain ⟨-, rfl⟩ : me ∈ participants ∧
      n = ⟨target, participants, me, maxAttempts, 0, .idle, []⟩ := by
    by_cases participant : me ∈ participants <;> simp_all [start]
  refine ⟨rfl, ?_, rfl⟩
  exact {
    bounded := UInt32.zero_le
    exhausted := fun failed => nomatch failed
    complete := complete_of_holds_none fun _ => not_holds_of_idle rfl }

/-- After a failure or an agreement a negotiation is not running. -/
theorem not_running (h : n.status = .failed ∨ ∃ s, n.status = .agreed s) : ¬n.Running := by
  intro running
  rcases h with failed | ⟨s, agreed⟩
  · rcases running with idle | ⟨s, pending⟩
    · cases idle.symm.trans failed
    · cases pending.symm.trans failed
  · exact running.not_agreed s agreed

/-- A negotiation from its start, after whatever calls.

The attempts never go down, and stay within what is allowed. Each call that opens a
proposal takes up an attempt, so that no more proposals are opened than attempts are
allowed, and a strategy gets pending in no other way. An agreement is one on a proposal
that was opened and pending until then, and that everyone accepted since. The negotiation
has failed only after the last attempt. An agreement or a failure is the end. And a message
about another channel, from a stranger or under the participant's own name changes
nothing. -/
theorem bounded_and_unanimous (started : start target participants me maxAttempts = .ok n)
    (calls : List Call) :
    (n.run calls).attempts ≤ maxAttempts ∧
    (n.openings calls).length ≤ maxAttempts.toNat ∧
    (∀ c, (n.run calls).attempts ≤ (n.run (calls ++ [c])).attempts ∧
      (∀ s proposer, (n.run calls).opened? c = some (s, proposer) →
        (n.run calls).attempts < (n.run (calls ++ [c])).attempts) ∧
      ∀ s, (n.run (calls ++ [c])).status = .pending s →
        (n.run calls).status = .pending s ∨
          ∃ proposer, (n.run calls).opened? c = some (s, proposer)) ∧
    (∀ s, (n.run calls).status = .agreed s → n.AgreedIn calls s) ∧
    ((n.run calls).status = .failed → (n.run calls).attempts = maxAttempts) ∧
    ((n.run calls).status = .failed ∨ (∃ s, (n.run calls).status = .agreed s) →
      ∀ more, n.run (calls ++ more) = n.run calls) ∧
    ∀ sender m acceptable, m.target ≠ target ∨ sender ∉ participants ∨ sender = me →
      n.run (calls ++ [.handle sender m acceptable]) = n.run calls := by
  obtain ⟨idle, sound, terms⟩ := of_start started
  -- Both what the negotiation is about and its soundness come from the start, over all the
  -- calls.
  have after := sound.run calls
  have same := (terms_run n calls).trans terms
  have isTarget : (n.run calls).target = target := congrArg (·.1) same
  have isParticipants : (n.run calls).participants = participants := congrArg (·.2.1) same
  have isMe : (n.run calls).me = me := congrArg (·.2.2.1) same
  have isMaxAttempts : (n.run calls).maxAttempts = maxAttempts := congrArg (·.2.2.2) same
  have bounded : (n.run calls).attempts ≤ maxAttempts := isMaxAttempts ▸ after.bounded
  have count := attempts_run n calls
  rw [UInt32.le_iff_toNat_le] at bounded
  refine ⟨UInt32.le_iff_toNat_le.2 bounded, by omega, fun c => ?_, fun s => agreedIn idle sound,
    fun failed => ?_, fun settled more => ?_, fun sender m acceptable foreign => ?_⟩
  -- The call is one of the moves, which say what the attempts and the pending strategy can do.
  · have last := moves (n.run calls) c
    have attempts := last.attempts
    rw [run_concat]
    refine ⟨UInt32.le_iff_toNat_le.2 (by omega), fun s proposer opens => ?_, fun s pending => ?_⟩
    · rw [opens, Option.toList_some, List.length_singleton] at attempts
      exact UInt32.lt_iff_toNat_lt.2 attempts
    · rcases last.holds (.inl pending) with (before | agreed) | opens
      · exact .inl before
      · -- An agreement would have stayed.
        have stayed := last.eq_of_not_running (not_running (.inr ⟨s, agreed⟩))
        rw [stayed] at pending
        exact .inl pending
      · exact .inr opens
  · exact UInt32.le_antisymm (UInt32.le_iff_toNat_le.2 bounded)
      (isMaxAttempts ▸ after.exhausted failed)
  · rw [run_append, run_eq_of_not_running (not_running settled)]
  · rw [run_concat]
    refine step_handle_of_foreign ?_
    rwa [isTarget, isParticipants, isMe]

namespace Sample

/-- The first of three participants. -/
def alice : Address := ⟨.replicate 20 1⟩

/-- The second of three participants. -/
def bob : Address := ⟨.replicate 20 2⟩

/-- The third of three participants. -/
def carol : Address := ⟨.replicate 20 3⟩

/-- Alice's negotiation with Bob and Carol. -/
def fresh : Negotiation := ⟨.zero, [alice, bob, carol], alice, 3, 0, .idle, []⟩

/-- Carol accepts what Alice proposes, but Bob rejects it. His own proposal skips an attempt,
and Alice accepts it. Carol's second acceptance makes the agreement, and Bob's rejection
comes too late. -/
def retried : List Call :=
  [.propose .direct, .handle carol (.agreed .zero .direct) [],
    .handle bob (.rejected .zero .direct) [], .handle bob (.proposal .zero .ledger 3) [.ledger],
    .handle carol (.agreed .zero .ledger) [], .handle bob (.rejected .zero .ledger) []]

/-- After the second attempt the strategy is agreed on. -/
theorem status_retried : (fresh.run retried).status = .agreed .ledger := by
  decide +kernel

/-- Two proposals in three attempts, and an agreement that everyone accepted since Bob's
proposal. Nothing that Alice is told later changes it. -/
theorem bounded_and_unanimous_retried :
    start .zero [alice, bob, carol] alice 3 = .ok fresh ∧
    (fresh.openings retried).length ≤ 3 ∧ fresh.AgreedIn retried .ledger ∧
    fresh.run (retried ++ [.handle carol (.rejected .zero .ledger) [], .propose .direct]) =
      fresh.run retried := by
  have started : start .zero [alice, bob, carol] alice 3 = .ok fresh := rfl
  obtain ⟨-, few, -, agreements, -, settled, -⟩ := bounded_and_unanimous started retried
  exact ⟨started, few, agreements .ledger status_retried,
    settled (.inr ⟨.ledger, status_retried⟩) _⟩

end Sample

end Negotiation

end StateChannels
