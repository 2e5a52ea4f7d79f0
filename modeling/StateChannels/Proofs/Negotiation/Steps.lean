import StateChannels.Wallet

/-!
# `StateChannels.Proofs.Negotiation.Steps`: what one message does to a negotiation

A participant proposes a strategy or takes in a message of another one.
Whatever the message is, one of five things happens, and the same holds of
the answer that the wallet sends.

* `handled`: the five results of a message (`Handled`), with the answer.
  `proposed` is the same for an own proposal.
* `Handled.evolves`, `Proposed.evolves`: the attempts never go down, and
  within one attempt no strategy is taken up.
* `Stands.evolves`: so what a participant accepted in an attempt stands.
  They are past this attempt, or have no other strategy in it.
-/

set_option autoImplicit false

namespace StateChannels

/-- The strategy that the sender of a message accepts with it. -/
def StrategyMessage.accepts? : StrategyMessage → Option Strategy
  | proposal _ s _ => some s
  | agreed _ s => some s
  | rejected _ _ => none

namespace Negotiation

variable {n n' : Negotiation} {sender who : Address} {m : StrategyMessage} {s t : Strategy}
  {acceptable : List Strategy} {attempt : UInt32}

/-- The strategy is pending or agreed. -/
def Holds (n : Negotiation) (s : Strategy) : Prop := n.status = .pending s ∨ n.status = .agreed s

/-- No agreement is made yet, and the negotiation has not failed. -/
def Running (n : Negotiation) : Prop := n.status = .idle ∨ ∃ s, n.status = .pending s

/-- What a negotiation is about. No step changes it. -/
def terms (n : Negotiation) : Hash × List Address × Address × UInt32 :=
  (n.target, n.participants, n.me, n.maxAttempts)

/-- The negotiation after the end of an attempt without an agreement. -/
def closed (n : Negotiation) : Negotiation :=
  if n.maxAttempts ≤ n.attempts then { n with status := .failed }
  else { n with status := .idle, acceptedBy := [] }

/-- A negotiation has one strategy at most. -/
theorem Holds.eq (h : n.Holds s) (h' : n.Holds t) : s = t := by
  rcases h with h | h <;> rcases h' with h' | h' <;> rw [h] at h' <;> cases h' <;> rfl

/-- While it is running nothing is agreed. -/
theorem Running.not_agreed (h : n.Running) (s : Strategy) : n.status ≠ .agreed s := by
  rcases h with idle | ⟨t, pending⟩
  · exact fun agreed => nomatch idle.symm.trans agreed
  · exact fun agreed => nomatch pending.symm.trans agreed

/-- Between two attempts it has none. -/
theorem not_holds_of_idle (h : n.status = .idle) : ¬n.Holds s := by
  rintro (pending | agreed)
  · rw [h] at pending
    cases pending
  · rw [h] at agreed
    cases agreed

/-! ### The parts of a step -/

/-- A pending strategy is agreed when everybody has accepted it. -/
theorem checkAgreed_of_pending (h : n.status = .pending s) :
    n.checkAgreed = if ∀ p ∈ n.participants, p ∈ n.acceptedBy then { n with status := .agreed s }
      else n := by
  rw [checkAgreed, h]

/-- Without a pending strategy the check changes nothing. -/
theorem checkAgreed_of_not_pending (h : ∀ s, n.status ≠ .pending s) : n.checkAgreed = n := by
  unfold checkAgreed
  split
  · rename_i s pending
    exact absurd pending (h s)
  · rfl

/-- The check changes nothing but the status. -/
theorem checkAgreed_eq_with (n : Negotiation) :
    n.checkAgreed = { n with status := n.checkAgreed.status } := by
  unfold checkAgreed
  split
  · split <;> rfl
  · rfl

/-- The check is part of the attempt. -/
@[simp] theorem attempts_checkAgreed (n : Negotiation) : n.checkAgreed.attempts = n.attempts := by
  rw [checkAgreed_eq_with]

/-- It forgets no acceptance. -/
@[simp] theorem acceptedBy_checkAgreed (n : Negotiation) :
    n.checkAgreed.acceptedBy = n.acceptedBy := by
  rw [checkAgreed_eq_with]

/-- It does not change what the negotiation is about. -/
@[simp] theorem terms_checkAgreed (n : Negotiation) : n.checkAgreed.terms = n.terms := by
  rw [checkAgreed_eq_with]
  rfl

/-- An agreement is about the strategy that was pending. -/
@[simp] theorem holds_checkAgreed : n.checkAgreed.Holds s ↔ n.Holds s := by
  by_cases pending : ∃ t, n.status = .pending t
  · obtain ⟨t, pending⟩ := pending
    rw [checkAgreed_of_pending pending]
    split
    · simp [Holds, pending]
    · rfl
  · rw [checkAgreed_of_not_pending (not_exists.1 pending)]

/-- An acceptance is part of the attempt that is open. -/
@[simp] theorem attempts_accept (n : Negotiation) (who : Address) :
    (n.accept who).attempts = n.attempts := by
  simp [accept]

/-- It is counted, also if it was counted before. -/
@[simp] theorem acceptedBy_accept (n : Negotiation) (who : Address) :
    (n.accept who).acceptedBy = who :: n.acceptedBy := by
  simp [accept]

/-- It does not change what the negotiation is about. -/
@[simp] theorem terms_accept (n : Negotiation) (who : Address) :
    (n.accept who).terms = n.terms := by
  rw [accept, terms_checkAgreed]
  rfl

/-- It does not change the strategy. -/
@[simp] theorem holds_accept : (n.accept who).Holds s ↔ n.Holds s := by
  rw [accept, holds_checkAgreed]
  rfl

/-- With one more acceptance there is an agreement if it is the last one
missing. -/
theorem status_accept (h : n.status = .pending s) :
    (n.accept who).status =
      if ∀ p ∈ n.participants, p = who ∨ p ∈ n.acceptedBy then .agreed s else .pending s := by
  have pending : { n with acceptedBy := who :: n.acceptedBy }.status = .pending s := h
  rw [accept, checkAgreed_of_pending pending]
  simp only [List.mem_cons]
  split
  · rfl
  · exact h

/-- The end of an attempt takes none back. -/
@[simp] theorem attempts_closed (n : Negotiation) : n.closed.attempts = n.attempts := by
  unfold closed
  split <;> rfl

/-- It does not change what the negotiation is about. -/
@[simp] theorem terms_closed (n : Negotiation) : n.closed.terms = n.terms := by
  unfold closed
  split <;> rfl

/-- After it no strategy is left, whether the negotiation goes on or has
failed. -/
theorem not_holds_closed : ¬n.closed.Holds s := by
  unfold closed
  split <;> rintro (pending | agreed)
  · cases pending
  · cases agreed
  · cases pending
  · cases agreed

/-- A newer attempt is counted as the one that it is. -/
theorem attempts_openAttempt (newer : n.attempts < attempt) :
    (n.openAttempt attempt s who).attempts = attempt :=
  if_pos (UInt32.le_of_lt newer)

/-- The strategy of a new attempt is the one that was proposed. -/
theorem holds_openAttempt : (n.openAttempt attempt s who).Holds t ↔ s = t := by
  simp [Holds, openAttempt]

/-! ### A message -/

/-- What a message can do: the answer of the wallet, and the negotiation
afterwards. -/
inductive Handled (n : Negotiation) (sender : Address) (m : StrategyMessage)
    (acceptable : List Strategy) : Option StrategyMessage → Negotiation → Prop
  | ignored : Handled n sender m acceptable none n
  /-- A newer proposal, which is accepted. -/
  | accepted (s : Strategy) (attempt : UInt32) (isProposal : m = .proposal n.target s attempt)
      (newer : n.attempts < attempt) (allowed : attempt ≤ n.maxAttempts) (running : n.Running)
      (fine : s ∈ acceptable) :
      Handled n sender m acceptable (some (.agreed n.target s))
        ((n.openAttempt attempt s sender).accept n.me)
  /-- A newer proposal, which is rejected. -/
  | refused (s : Strategy) (attempt : UInt32) (isProposal : m = .proposal n.target s attempt)
      (newer : n.attempts < attempt) (allowed : attempt ≤ n.maxAttempts) (running : n.Running)
      (notFine : s ∉ acceptable) :
      Handled n sender m acceptable (some (.rejected n.target s))
        (n.openAttempt attempt s sender).closed
  /-- Another participant accepts the strategy that is pending. -/
  | counted (s : Strategy) (isAcceptance : m = .agreed n.target s)
      (pending : n.status = .pending s) : Handled n sender m acceptable none (n.accept sender)
  /-- Another participant rejects the strategy that is pending. -/
  | ended (s : Strategy) (isRejection : m = .rejected n.target s)
      (pending : n.status = .pending s) : Handled n sender m acceptable none n.closed

/-- Whatever is answered, a rejection ends the attempt. -/
theorem snd_reject (n : Negotiation) (answer : Option StrategyMessage) :
    (n.reject answer).2 = n.closed := by
  unfold reject closed
  split <;> rfl

/-- The rejection of a proposal is sent, also where it was the last
attempt and the negotiation fails with it. -/
theorem answer?_reject_proposal (n : Negotiation) (target : Hash) (s : Strategy)
    (attempt : UInt32) (same : n.target = target) :
    Wallet.answer? (.proposal target s attempt)
        (n.reject (some (StrategyMessage.rejected target s))).1 =
      some (.rejected target s) := by
  subst same
  unfold reject
  split <;> rfl

/-- A rejection is not answered. -/
theorem answer?_reject_rejected (n : Negotiation) (target : Hash) (s : Strategy) :
    Wallet.answer? (.rejected target s) (n.reject (none : Option StrategyMessage)).1 = none := by
  unfold reject
  split <;> rfl

/-- A proposal in a running negotiation: it is outdated, or out of bounds,
or accepted, or refused. -/
theorem handled_handleProposal (running : n.Running)
    (isProposal : m = .proposal n.target s attempt) :
    Handled n sender m acceptable
      (Wallet.answer? m (n.handleProposal sender s attempt acceptable).1)
      (n.handleProposal sender s attempt acceptable).2 := by
  unfold handleProposal
  split
  case isTrue old => exact .ignored
  case isFalse new =>
    obtain ⟨newer, allowed⟩ := not_or.1 new
    rw [UInt32.not_le] at newer
    rw [UInt32.not_lt] at allowed
    by_cases fine : s ∈ acceptable
    · simp only [if_pos fine]
      exact .accepted s attempt isProposal newer allowed running fine
    · simp only [if_neg fine]
      -- The answer names the target of the negotiation before the attempt, which is the same.
      have sent := answer?_reject_proposal (n.openAttempt attempt s sender) n.target s attempt rfl
      rw [← isProposal] at sent
      show Handled n sender m acceptable (Wallet.answer? m ((n.openAttempt attempt s sender).reject
        (some (StrategyMessage.rejected n.target s))).1) ((n.openAttempt attempt s sender).reject
          (some (StrategyMessage.rejected n.target s))).2
      rw [sent, snd_reject]
      exact .refused s attempt isProposal newer allowed running fine

/-- Every message is one of the five cases. -/
theorem handled (n : Negotiation) (sender : Address) (m : StrategyMessage)
    (acceptable : List Strategy) :
    Handled n sender m acceptable (Wallet.answer? m (n.handle sender m acceptable).1)
      (n.handle sender m acceptable).2 := by
  unfold handle
  split
  case isTrue other => exact .ignored
  case isFalse same =>
    -- The cases are those of the source: the target, the sender, the status and the message.
    have target : m.target = n.target := Decidable.not_not.1 same
    split
    case isTrue stranger => exact .ignored
    case isFalse known =>
      split
      · exact .ignored
      · exact .ignored
      · rename_i notAgreed notFailed
        have running : n.Running := by
          cases status : n.status with
          | idle => exact .inl status
          | pending s => exact .inr ⟨s, status⟩
          | agreed s => exact absurd status (notAgreed s)
          | failed => exact absurd status notFailed
        cases m with
        | proposal target' s attempt =>
          obtain rfl : target' = n.target := target
          exact handled_handleProposal running rfl
        | agreed target' s =>
          obtain rfl : target' = n.target := target
          dsimp only
          split
          case isTrue pending => exact .counted s rfl pending
          case isFalse other => exact .ignored
        | rejected target' s =>
          obtain rfl : target' = n.target := target
          dsimp only
          split
          case isTrue pending =>
            rw [answer?_reject_rejected, snd_reject]
            exact .ended s rfl pending
          case isFalse other => exact .ignored

/-- A newer proposal, while there is no agreement, is accepted if it is an
acceptable one. -/
theorem handle_newer_proposal (known : sender ∈ n.participants) (other : sender ≠ n.me)
    (running : n.Running) (newer : n.attempts < attempt) (allowed : attempt ≤ n.maxAttempts)
    (fine : s ∈ acceptable) :
    n.handle sender (.proposal n.target s attempt) acceptable =
      (.ok (some (.agreed n.target s)), (n.openAttempt attempt s sender).accept n.me) := by
  have new : ¬(attempt ≤ n.attempts ∨ n.maxAttempts < attempt) := by
    rw [not_or, UInt32.not_le, UInt32.not_lt]
    exact ⟨newer, allowed⟩
  have same : ¬(StrategyMessage.proposal n.target s attempt).target ≠ n.target := not_not_intro rfl
  have partner : ¬(sender ∉ n.participants ∨ sender = n.me) := by simp [known, other]
  have taken : n.handleProposal sender s attempt acceptable =
      (.ok (some (.agreed n.target s)), (n.openAttempt attempt s sender).accept n.me) := by
    rw [handleProposal, if_neg new]
    simp only [if_pos fine]
    rfl
  -- An idle negotiation and a pending one take the proposal alike.
  rw [handle, if_neg same, if_neg partner]
  rcases running with idle | ⟨t, pending⟩
  · simp only [idle]
    exact taken
  · simp only [pending]
    exact taken

/-- An acceptance of the strategy that is pending is counted. -/
theorem handle_agreed_of_pending (known : sender ∈ n.participants) (other : sender ≠ n.me)
    (pending : n.status = .pending s) :
    n.handle sender (.agreed n.target s) acceptable = (.ok none, n.accept sender) := by
  have same : ¬(StrategyMessage.agreed n.target s).target ≠ n.target := not_not_intro rfl
  have partner : ¬(sender ∉ n.participants ∨ sender = n.me) := by simp [known, other]
  rw [handle, if_neg same, if_neg partner]
  simp [pending]

/-! ### An own proposal -/

/-- What an own proposal can do: the message for the others, and the
negotiation afterwards. -/
inductive Proposed (n : Negotiation) (s : Strategy) : Option StrategyMessage → Negotiation → Prop
  | ignored : Proposed n s none n
  /-- There is no further attempt. -/
  | failed (exhausted : n.maxAttempts ≤ n.attempts) (idle : n.status = .idle) :
      Proposed n s none { n with status := .failed }
  | opened (idle : n.status = .idle) (left : n.attempts < n.maxAttempts) :
      Proposed n s (some (.proposal n.target s (n.attempts + 1)))
        (n.openAttempt (n.attempts + 1) s n.me).checkAgreed

/-- Every own proposal is one of the three cases. -/
theorem proposed (n : Negotiation) (s : Strategy) :
    Proposed n s (n.propose s).1.toOption (n.propose s).2 := by
  unfold propose
  split
  · -- A negotiation that has failed stays what it is.
    rename_i failed
    have same : { n with status := .failed } = n := by rw [← failed]
    show Proposed n s none { n with status := .failed }
    rw [same]
    exact .ignored
  · exact .ignored
  · exact .ignored
  · rename_i idle
    split
    case isTrue exhausted => exact .failed exhausted idle
    case isFalse left => exact .opened idle (UInt32.not_le.1 left)

/-- While there is an attempt left, their number does not wrap. -/
theorem toNat_add_one (left : n.attempts < n.maxAttempts) :
    (n.attempts + 1).toNat = n.attempts.toNat + 1 := by
  have bound := n.maxAttempts.toNat_lt
  have one : (1 : UInt32).toNat = 1 := rfl
  rw [UInt32.lt_iff_toNat_lt] at left
  rw [UInt32.toNat_add, one, Nat.mod_eq_of_lt (by omega)]

/-- The next attempt is a newer one: there is one more to go. -/
theorem lt_add_one (left : n.attempts < n.maxAttempts) : n.attempts < n.attempts + 1 := by
  rw [UInt32.lt_iff_toNat_lt, toNat_add_one left]
  exact Nat.lt_add_one _

/-! ### What lasts -/

/-- A newer attempt, or the same one without any other strategy. -/
def Evolves (n n' : Negotiation) : Prop :=
  n.attempts < n'.attempts ∨ n.attempts = n'.attempts ∧ ∀ s, n'.Holds s → n.Holds s

/-- What stays as it is has the same attempt and the same strategy. -/
theorem Evolves.refl (n : Negotiation) : n.Evolves n := .inr ⟨rfl, fun _ h => h⟩

/-- No step changes what a negotiation is about. -/
theorem Handled.terms {answer : Option StrategyMessage}
    (h : Handled n sender m acceptable answer n') : n'.terms = n.terms := by
  cases h with
  | ignored => rfl
  | accepted => rw [terms_accept]; rfl
  | refused => rw [terms_closed]; rfl
  | counted => exact terms_accept n sender
  | ended => exact terms_closed n

/-- Whatever a message does, the attempts do not go down, and within one
attempt no strategy is taken up. -/
theorem Handled.evolves {answer : Option StrategyMessage}
    (h : Handled n sender m acceptable answer n') : n.Evolves n' := by
  cases h with
  | ignored => exact .refl n
  | accepted s attempt _ newer =>
    left
    rw [attempts_accept, attempts_openAttempt newer]
    exact newer
  | refused s attempt _ newer =>
    left
    rw [attempts_closed, attempts_openAttempt newer]
    exact newer
  | counted s _ pending =>
    right
    exact ⟨(attempts_accept n sender).symm, fun t held => holds_accept.1 held⟩
  | ended s _ pending =>
    right
    exact ⟨(attempts_closed n).symm, fun t held => absurd held not_holds_closed⟩

/-- An own proposal does not change what the negotiation is about. -/
theorem Proposed.terms {sent : Option StrategyMessage} (h : Proposed n s sent n') :
    n'.terms = n.terms := by
  cases h with
  | ignored => rfl
  | failed => rfl
  | opened => rw [terms_checkAgreed]; rfl

/-- An own proposal opens a newer attempt, if it is made at all. -/
theorem Proposed.evolves {sent : Option StrategyMessage} (h : Proposed n s sent n') :
    n.Evolves n' := by
  cases h with
  | ignored => exact .refl n
  | failed exhausted idle =>
    right
    refine ⟨rfl, fun t held => ?_⟩
    rcases held with pending | agreed
    · cases pending
    · cases agreed
  | opened idle left =>
    left
    rw [attempts_checkAgreed, attempts_openAttempt (lt_add_one left)]
    exact lt_add_one left

/-- The participant accepted the strategy in an attempt, as far as can be
told later: they are past the attempt, or have no other strategy in it. -/
def Stands (n : Negotiation) (attempt : UInt32) (s : Strategy) : Prop :=
  attempt ≤ n.attempts ∧ (attempt = n.attempts → ∀ t, n.Holds t → t = s)

/-- What was accepted in an attempt stands later on. -/
theorem Stands.evolves (h : n.Stands attempt s) (evolves : n.Evolves n') :
    n'.Stands attempt s := by
  obtain ⟨le, only⟩ := h
  rcases evolves with newer | ⟨same, fewer⟩
  · have past : attempt < n'.attempts := UInt32.lt_of_le_of_lt le newer
    exact ⟨UInt32.le_of_lt past, fun here => absurd here (UInt32.ne_of_lt past)⟩
  · rw [Stands, ← same]
    exact ⟨le, fun here t held => only here t (fewer t held)⟩

/-- A strategy that a participant has now stands in the present attempt. -/
theorem Holds.stands (h : n.Holds s) : n.Stands n.attempts s :=
  ⟨UInt32.le_refl _, fun _ _ held => held.eq h⟩

/-- What a participant accepts by an answer, they hold after it. -/
theorem Handled.holds_of_accepts {answer : StrategyMessage}
    (h : Handled n sender m acceptable (some answer) n') (accepts : answer.accepts? = some s) :
    n'.Holds s := by
  cases h with
  | accepted t attempt =>
    obtain rfl : t = s := Option.some.inj accepts
    exact holds_accept.2 (holds_openAttempt.2 rfl)
  | refused => cases accepts

/-- And by an own proposal. -/
theorem Proposed.holds_of_accepts {sent : StrategyMessage} (h : Proposed n t (some sent) n')
    (accepts : sent.accepts? = some s) : n'.Holds s := by
  cases h with
  | opened idle left =>
    obtain rfl : t = s := Option.some.inj accepts
    exact holds_checkAgreed.2 (holds_openAttempt.2 rfl)

/-- A proposal that goes out tells the attempt of its sender. An answer is
no proposal. -/
theorem Proposed.attempts_of_proposal {target : Hash}
    (h : Proposed n t (some (.proposal target s attempt)) n') : attempt = n'.attempts := by
  cases h with
  | opened idle left =>
    rw [attempts_checkAgreed, attempts_openAttempt (lt_add_one left)]

/-- No message is answered by a proposal. -/
theorem Handled.not_proposal {target : Hash} :
    ¬Handled n sender m acceptable (some (.proposal target s attempt)) n' := by
  rintro ⟨⟩

/-! ### Who accepted an agreement -/

/-- An agreement has the acceptance of every participant. -/
def Complete (n : Negotiation) : Prop :=
  ∀ s, n.status = .agreed s → ∀ a ∈ n.participants, a ∈ n.acceptedBy

/-- Without an agreement there is nothing to be complete. -/
theorem complete_of_holds_none (h : ∀ s, ¬n.Holds s) : n.Complete :=
  fun s agreed => absurd (.inr agreed) (h s)

/-- The check makes an agreement only of the acceptances of all. -/
theorem complete_checkAgreed (h : ∀ s, n.status ≠ .agreed s) : n.checkAgreed.Complete := by
  intro t agreed
  by_cases pending : ∃ s, n.status = .pending s
  · obtain ⟨s, pending⟩ := pending
    rw [checkAgreed_of_pending pending] at agreed ⊢
    split at agreed
    case isTrue all =>
      rw [if_pos all]
      exact all
    case isFalse missing => exact absurd agreed (h t)
  · rw [checkAgreed_of_not_pending (not_exists.1 pending)] at agreed
    exact absurd agreed (h t)

/-- An agreement that an acceptance makes has the acceptance of every
participant. -/
theorem complete_accept (h : n.status = .pending s) : (n.accept who).Complete := by
  refine complete_checkAgreed fun t agreed => ?_
  have agreed : n.status = .agreed t := agreed
  rw [h] at agreed
  cases agreed

/-- So have all agreements that messages make. -/
theorem Handled.complete {answer : Option StrategyMessage}
    (h : Handled n sender m acceptable answer n') (complete : n.Complete) : n'.Complete := by
  cases h with
  | ignored => exact complete
  | accepted s => exact complete_accept (s := s) rfl
  | refused => exact complete_of_holds_none fun _ => not_holds_closed
  | counted s _ pending => exact complete_accept pending
  | ended => exact complete_of_holds_none fun _ => not_holds_closed

/-- An own proposal makes an agreement only among participants who have all
accepted it. -/
theorem Proposed.complete {sent : Option StrategyMessage} (h : Proposed n s sent n')
    (complete : n.Complete) : n'.Complete := by
  cases h with
  | ignored => exact complete
  | failed =>
    intro t agreed
    cases agreed
  | opened =>
    refine complete_checkAgreed fun t agreed => ?_
    cases agreed

end Negotiation

end StateChannels
