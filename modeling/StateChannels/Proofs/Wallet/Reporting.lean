import StateChannels.Proofs.Wallet.Sending

/-!
# `StateChannels.Proofs.Wallet.Reporting`: the agreements that are reported

When a step of a negotiation comes in, a wallet first takes the step, then
queues the answer, and then looks whether the step made an agreement. So an
agreement is reported unless its own answer finds the queue full. Only a
proposal has an answer that is part of an agreement, and only between two
participants does it complete one.

* `Negotiation.agreed_of_handle_error`: a message that is refused makes no
  agreement.
* `Negotiation.Handled.of_agreed`: only an acceptance and an accepted
  proposal make one, and the proposal only between two participants.
* `handleStrategy_of_unanswered`, `handleStrategy_of_answered`: what a step
  gives, and the wallet after it.
* `agreement_reported_iff`: of every wallet that can be reached, which
  agreements it reports.
* `Sample.agreed_unreported`: a wallet that agrees and does not report it.
-/

set_option autoImplicit false

namespace StateChannels

namespace Negotiation

variable {n n' : Negotiation} {sender : Address} {m : StrategyMessage}
  {acceptable : List Strategy} {s : Strategy} {e : FundingError}
  {answer reply : Option StrategyMessage}

/-! ### What makes an agreement -/

/-- A message that is not refused is by another participant. -/
theorem sender_of_handle_ok (taken : (n.handle sender m acceptable).1 = .ok reply) :
    sender ∈ n.participants ∧ sender ≠ n.me := by
  unfold handle at taken
  split at taken
  · cases taken
  · split at taken
    · cases taken
    · rename_i known
      exact ⟨Decidable.not_not.1 fun stranger => known (.inl stranger),
        fun isMe => known (.inr isMe)⟩

/-- A message is refused because it is not for the negotiation, or because
the last attempt ends. Neither makes an agreement. -/
theorem agreed_of_handle_error (refused : (n.handle sender m acceptable).1 = .error e)
    (agreed : (n.handle sender m acceptable).2.status = .agreed s) : n.status = .agreed s := by
  have handled := handled n sender m acceptable
  rw [refused] at handled
  generalize answered : Wallet.answer? m (.error e) = answer at handled
  generalize after : (n.handle sender m acceptable).2 = n' at handled agreed
  cases handled with
  | ignored => exact agreed
  | accepted t attempt isProposal =>
    -- The answer to a refused proposal is a rejection, if there is one.
    rw [isProposal] at answered
    cases e <;> cases answered
  | refused => exact absurd (.inr agreed) not_holds_closed
  | counted t isAcceptance pending =>
    -- An acceptance is refused only if it is by a stranger, and is not counted then.
    rw [isAcceptance] at after refused
    have same : ¬(StrategyMessage.agreed n.target t).target ≠ n.target := not_not_intro rfl
    by_cases stranger : sender ∉ n.participants ∨ sender = n.me
    · rw [handle, if_neg same, if_pos stranger] at after
      rw [← after] at agreed
      exact agreed
    · obtain ⟨known, other⟩ := not_or.1 stranger
      rw [handle_agreed_of_pending (Decidable.not_not.1 known) other pending] at refused
      cases refused
  | ended => exact absurd (.inr agreed) not_holds_closed

/-- An agreement is the acceptance of another participant, which is not
answered, or the acceptance of a proposal that nobody else has to accept. -/
theorem Handled.of_agreed (h : Handled n sender m acceptable answer n')
    (agreed : n'.status = .agreed s) (isNew : n.status ≠ .agreed s) :
    (answer = none ∧ ∃ t, m = .agreed n.target t) ∨
    ((∃ reply, answer = some reply) ∧ (∃ t attempt, m = .proposal n.target t attempt) ∧
      ∀ p ∈ n.participants, p = n.me ∨ p = sender) := by
  cases h with
  | ignored => exact absurd agreed isNew
  | accepted t attempt isProposal newer allowed running fine =>
    have pending : (n.openAttempt attempt t sender).status = .pending t := rfl
    rw [status_accept pending] at agreed
    split at agreed
    · rename_i all
      refine .inr ⟨⟨_, rfl⟩, ⟨t, attempt, isProposal⟩, fun p participant => ?_⟩
      exact (all p participant).imp_right List.mem_singleton.1
    · cases agreed
  | refused => exact absurd (.inr agreed) not_holds_closed
  | counted t isAcceptance pending => exact .inl ⟨rfl, t, isAcceptance⟩
  | ended => exact absurd (.inr agreed) not_holds_closed

end Negotiation

namespace Wallet

variable {w : Wallet} {signer : Signer} {config : Config} {apps : AppRegistry} {c : Channel}
  {n : Negotiation} {sender : Address} {m : StrategyMessage} {target : Hash} {s : Strategy}

/-! ### What is reported -/

/-- A negotiation that is started has no agreement. -/
theorem negotiationStatus?_eq_agreed_iff (current : w.negotiation c target = .ok n) :
    w.negotiationStatus? target = some (.agreed s) ↔ n.status = .agreed s := by
  unfold negotiation at current
  rw [negotiationStatus?]
  split at current
  · rename_i found
    cases current
    rw [found, Option.map_some, Option.some_inj]
  · rename_i notFound
    rw [Negotiation.start] at current
    split at current
    · cases current
      rw [notFound]
      simp
    · cases current

/-- An agreement is reported when the status becomes one that it was not
before. -/
theorem agreement?_eq_agreed_iff {before after : NegotiationStatus} {other : Hash} :
    agreement? other before after = some (.agreed target s) ↔
      target = other ∧ after = .agreed s ∧ before ≠ .agreed s := by
  cases after with
  | agreed t =>
    by_cases same : before = .agreed t
    · simp only [agreement?, if_pos same]
      constructor
      · intro reported
        cases reported
      · rintro ⟨-, ⟨⟩, changed⟩
        exact absurd same changed
    · simp only [agreement?, if_neg same]
      constructor
      · rintro ⟨⟩
        exact ⟨rfl, rfl, same⟩
      · rintro ⟨rfl, ⟨⟩, -⟩
        rfl
  | idle => simp [agreement?]
  | pending t => simp [agreement?]
  | failed => simp [agreement?]

/-- What a step gives if there is room for its answer. -/
def outcome (target : Hash) (before : NegotiationStatus) :
    Except FundingError (Option StrategyMessage) × Negotiation → Except WalletError (Option Event)
  | (.error e, _) => .error (.funding e)
  | (.ok _, after) => .ok (agreement? target before after.status)

/-- A step without an answer. -/
theorem handleStrategy_of_unanswered (stored : w.store.channel m.target = .ok c)
    (current : w.negotiation c m.target = .ok n)
    (unanswered : answer? m (n.handle sender m w.acceptable).1 = none) :
    w.handleStrategy sender m =
      (outcome m.target n.status (n.handle sender m w.acceptable),
        w.setNegotiation m.target (n.handle sender m w.acceptable).2) := by
  rw [handleStrategy, stored]
  simp only [current, unanswered]
  rcases n.handle sender m w.acceptable with ⟨result, after⟩
  cases result <;> rfl

/-- A step with an answer. -/
theorem handleStrategy_of_answered {reply : StrategyMessage} {sent : Except OutboxError Unit}
    {next : Wallet} (stored : w.store.channel m.target = .ok c)
    (current : w.negotiation c m.target = .ok n)
    (answered : answer? m (n.handle sender m w.acceptable).1 = some reply)
    (queued : (w.setNegotiation m.target (n.handle sender m w.acceptable).2).broadcast
      c.participants (.strategy reply) = (sent, next)) :
    w.handleStrategy sender m =
      ((sent.mapError .outbox).bind fun _ =>
        outcome m.target n.status (n.handle sender m w.acceptable), next) := by
  rw [handleStrategy, stored]
  simp only [current, answered, queued]
  rcases n.handle sender m w.acceptable with ⟨result, after⟩
  cases sent <;> cases result <;> rfl

/-- The status after a step is that of the negotiation, whether the answer
finds room or not. -/
theorem negotiationStatus?_handleStrategy (sender : Address)
    (stored : w.store.channel m.target = .ok c) (current : w.negotiation c m.target = .ok n) :
    (w.handleStrategy sender m).2.negotiationStatus? m.target =
      some (n.handle sender m w.acceptable).2.status := by
  have status : (w.setNegotiation m.target (n.handle sender m w.acceptable).2).negotiationStatus?
      m.target = some (n.handle sender m w.acceptable).2.status := by
    rw [negotiationStatus?, setNegotiation, Table.get?_insert_self, Option.map_some]
  cases answered : answer? m (n.handle sender m w.acceptable).1 with
  | none =>
    rw [handleStrategy_of_unanswered stored current answered]
    exact status
  | some reply =>
    -- To queue the answer does not touch the negotiations.
    rw [handleStrategy_of_answered stored current answered rfl]
    exact status

/-- If there is room for its answer, a step reports the agreement that it
makes. A refused step makes none. -/
theorem outcome_eq_agreed_iff {other : Hash} {acceptable : List Strategy} :
    outcome other n.status (n.handle sender m acceptable) = .ok (some (.agreed target s)) ↔
      target = other ∧ (n.handle sender m acceptable).2.status = .agreed s ∧
        n.status ≠ .agreed s := by
  have refused : ∀ e, (n.handle sender m acceptable).1 = .error e →
      (n.handle sender m acceptable).2.status = .agreed s → n.status = .agreed s :=
    fun e => Negotiation.agreed_of_handle_error
  generalize n.handle sender m acceptable = handled at refused ⊢
  rcases handled with ⟨result, after⟩
  cases result with
  | ok reply => simp [outcome, agreement?_eq_agreed_iff]
  | error e =>
    constructor
    · intro reported
      cases reported
    · rintro ⟨-, agreed, changed⟩
      exact absurd (refused e rfl agreed) changed

/-- A step reports an agreement that is made by it, unless there is no room
for the answer. -/
theorem handleStrategy_eq_agreed_iff (stored : w.store.channel m.target = .ok c)
    (current : w.negotiation c m.target = .ok n) :
    (w.handleStrategy sender m).1 = .ok (some (.agreed target s)) ↔
      target = m.target ∧ (n.handle sender m w.acceptable).2.status = .agreed s ∧
        n.status ≠ .agreed s ∧
        ∀ reply e, answer? m (n.handle sender m w.acceptable).1 = some reply →
          (w.broadcast c.participants (.strategy reply)).1 ≠ .error e := by
  cases answered : answer? m (n.handle sender m w.acceptable).1 with
  | none =>
    rw [handleStrategy_of_unanswered stored current answered, outcome_eq_agreed_iff]
    simp
  | some reply =>
    -- The queue that the answer meets is that before the step.
    have queued : (w.setNegotiation m.target (n.handle sender m w.acceptable).2).broadcast
        c.participants (.strategy reply) = ((w.broadcast c.participants (.strategy reply)).1,
          (w.broadcast c.participants (.strategy reply)).2.setNegotiation m.target
            (n.handle sender m w.acceptable).2) := rfl
    rw [handleStrategy_of_answered stored current answered queued]
    cases sent : (w.broadcast c.participants (.strategy reply)).1 with
    | error e =>
      constructor
      · intro reported
        cases reported
      · rintro ⟨-, -, -, room⟩
        exact absurd sent (room reply e rfl)
    | ok =>
      have room : ∀ reply' e, some reply = some reply' →
          (w.broadcast c.participants (.strategy reply')).1 ≠ .error e := by
        rintro reply' e ⟨⟩ refused
        rw [sent] at refused
        cases refused
      rw [and_iff_left room]
      exact outcome_eq_agreed_iff

/-- A message always gives a list of events, and an agreement is in it if
its step reports it. -/
theorem handleMessage_strategy (w : Wallet) (sender : Address) (m : StrategyMessage) :
    (w.handleMessage sender (.strategy m)).2 = (w.handleStrategy sender m).2 ∧
      ∃ events, (w.handleMessage sender (.strategy m)).1 = .ok events ∧
        ∀ target s, .agreed target s ∈ events ↔
          (w.handleStrategy sender m).1 = .ok (some (.agreed target s)) := by
  rw [handleMessage]
  split
  · rename_i event next handled
    refine ⟨by rw [handled], event.toList, rfl, fun target s => ?_⟩
    rw [handled, Option.mem_toList, Except.ok.injEq]
  · rename_i handled
    refine ⟨by rw [handled], _, rfl, fun target s => ?_⟩
    simp [handled]
  · rename_i handled
    refine ⟨by rw [handled], _, rfl, fun target s => ?_⟩
    simp [handled]

/-- The other participants are the sender alone. -/
theorem length_others_of_two {participants : List Address} {me : Address}
    (nodup : participants.Nodup) (known : sender ∈ participants) (other : sender ≠ me)
    (two : ∀ p ∈ participants, p = me ∨ p = sender) :
    (participants.filter fun p => p ≠ me).length = 1 := by
  have others : (participants.filter fun p => p ≠ me).Perm [sender] := by
    rw [List.perm_ext_iff_of_nodup (nodup.filter _) (List.nodup_singleton _)]
    intro p
    rw [List.mem_filter, decide_eq_true_iff, List.mem_singleton]
    constructor
    · rintro ⟨participant, notMe⟩
      exact (two p participant).resolve_left notMe
    · rintro rfl
      exact ⟨known, other⟩
  exact others.length_eq

/-- In a wallet that can be reached, a step that makes an agreement has no
room for its answer exactly if it is a proposal and the queue is full and
keeps what it has. -/
theorem Regular.answer_eq_error_iff (h : Regular signer config w)
    (stored : w.store.channel m.target = .ok c) (current : w.negotiation c m.target = .ok n)
    (agreed : (n.handle sender m w.acceptable).2.status = .agreed s)
    (changed : n.status ≠ .agreed s) :
    (∃ reply e, answer? m (n.handle sender m w.acceptable).1 = some reply ∧
      (w.broadcast c.participants (.strategy reply)).1 = .error e) ↔
      (∃ t attempt, m = .proposal m.target t attempt) ∧ config.backpressure = .reject ∧
        config.outboxCapacity.toNat ≤ w.outbox.size := by
  have terms := h.terms_negotiation stored current
  rw [Negotiation.terms] at terms
  simp only [Prod.mk.injEq] at terms
  obtain ⟨isTarget, isParticipants, isMe, -⟩ := terms
  cases result : (n.handle sender m w.acceptable).1 with
  | error e => exact absurd (Negotiation.agreed_of_handle_error result agreed) changed
  | ok reply =>
    obtain ⟨known, other⟩ := Negotiation.sender_of_handle_ok result
    have handled := Negotiation.handled n sender m w.acceptable
    rw [result] at handled
    rcases handled.of_agreed agreed changed with ⟨unanswered, t, isAcceptance⟩ |
      ⟨⟨reply, answered⟩, ⟨t, attempt, isProposal⟩, two⟩
    · rw [unanswered]
      constructor
      · rintro ⟨_, _, ⟨⟩, _⟩
      · rintro ⟨⟨_, _, isProposal⟩, -⟩
        cases isProposal.symm.trans isAcceptance
    · rw [isParticipants] at known two
      rw [isMe] at other two
      -- Nobody else has to accept, so the answer is for the sender alone and takes one place.
      have one := length_others_of_two c.nodup known other two
      rw [answered]
      have full := h.broadcast_eq_error_iff (e := .full config.outboxCapacity.toNat)
        c.participants (.strategy reply)
      rw [one] at full
      constructor
      · rintro ⟨_, e, ⟨⟩, refused⟩
        obtain ⟨rejects, more, -⟩ := (h.broadcast_eq_error_iff _ _).1 refused
        rw [one] at more
        exact ⟨⟨t, attempt, by rw [isProposal, isTarget]; rfl⟩, rejects, Nat.lt_succ_iff.1 more⟩
      · rintro ⟨-, rejects, noRoom⟩
        exact ⟨reply, _, rfl, full.2 ⟨rejects, Nat.lt_succ_of_le noRoom, rfl⟩⟩

/-- A step of no negotiation is dropped, and the wallet stays as it is. -/
theorem handleStrategy_of_no_negotiation (sender : Address)
    (none : ∀ c n, w.store.channel m.target = .ok c → w.negotiation c m.target ≠ .ok n) :
    ∃ e, w.handleStrategy sender m = (.error e, w) := by
  unfold handleStrategy
  cases stored : w.store.channel m.target with
  | error e => exact ⟨_, rfl⟩
  | ok c =>
    cases current : w.negotiation c m.target with
    | error e => exact ⟨.funding e, by simp only [current]⟩
    | ok n => exact absurd current (none c n stored)

/-- A step whose answer finds no room reports nothing. -/
theorem handleMessage_of_unanswerable {next : Wallet} {e : OutboxError}
    (handled : w.handleStrategy sender m = (.error (.outbox e), next)) :
    w.handleMessage sender (.strategy m) = (.ok [], next) := by
  rw [handleMessage, handled]

/-- A wallet, after whatever actions, and a step of a negotiation. The wallet
reports an agreement exactly if the channel has it after the step and not
before, unless the step is a proposal that comes when the queue is full and
keeps what it has. Such an agreement is made and not reported. -/
theorem agreement_reported_iff (created : create signer config apps = .ok w)
    (actions : List Action) (sender : Address) (m : StrategyMessage) :
    ∃ events, ((w.run actions).handleMessage sender (.strategy m)).1 = .ok events ∧
      ∀ target s, .agreed target s ∈ events ↔
        target = m.target ∧
        ((w.run actions).handleMessage sender (.strategy m)).2.negotiationStatus? m.target =
          some (.agreed s) ∧
        (w.run actions).negotiationStatus? m.target ≠ some (.agreed s) ∧
        ¬((∃ t attempt, m = .proposal m.target t attempt) ∧ config.backpressure = .reject ∧
          config.outboxCapacity.toNat ≤ (w.run actions).outbox.size) := by
  have regular := regular_run created actions
  -- That the wallet can be reached is used for its queue and the terms of its negotiations only.
  generalize w.run actions = w at regular
  obtain ⟨after, events, gives, reports⟩ := handleMessage_strategy w sender m
  refine ⟨events, gives, fun target s => ?_⟩
  rw [reports, after]
  by_cases started : ∃ c n, w.store.channel m.target = .ok c ∧ w.negotiation c m.target = .ok n
  · obtain ⟨c, n, stored, current⟩ := started
    rw [handleStrategy_eq_agreed_iff stored current,
      negotiationStatus?_handleStrategy sender stored current, Option.some_inj,
      (negotiationStatus?_eq_agreed_iff current).ne]
    refine and_congr_right fun _ => and_congr_right fun agreed => and_congr_right fun changed => ?_
    rw [← regular.answer_eq_error_iff stored current agreed changed]
    push Not
    exact Iff.rfl
  · push Not at started
    obtain ⟨e, dropped⟩ := handleStrategy_of_no_negotiation sender started
    rw [dropped]
    constructor
    · intro reported
      cases reported
    · rintro ⟨-, agreed, changed, -⟩
      exact absurd agreed changed

end Wallet

/-! ### An answer that finds the queue full -/

namespace Adjudicator.Sample

/-- Bob makes another proposal while Alice's waits in her queue. -/
def instead : StrategyMessage := .proposal channel.id .ledger 2

/-- Alice's negotiation when she has accepted it. -/
def agreedLedger : Negotiation := (proposedDirect.openAttempt 2 .ledger bob).accept alice

/-- The negotiation is the one with Alice's proposal. -/
theorem negotiation_proposing : proposing.negotiation channel channel.id = .ok proposedDirect := by
  have found : proposing.negotiations.get? channel.id = some proposedDirect :=
    Table.get?_insert_self ..
  rw [Wallet.negotiation, found]

/-- Alice is waiting for the answer to her proposal. -/
theorem status_proposing :
    proposing.negotiationStatus? channel.id = some (.pending .direct) := by
  rw [Wallet.negotiationStatus?, show proposing.negotiations.get? channel.id = some proposedDirect
    from Table.get?_insert_self ..]
  rfl

/-- Alice accepts Bob's newer proposal. -/
theorem handle_instead : proposedDirect.handle bob instead proposing.acceptable =
    (.ok (some (.agreed channel.id .ledger)), agreedLedger) :=
  Negotiation.handle_newer_proposal (by decide) alice_ne_bob.symm (.inr ⟨_, rfl⟩) (by decide)
    (by decide) (by decide)

/-- With her acceptance they have agreed. -/
theorem status_agreedLedger : agreedLedger.status = .agreed .ledger := by
  have all : ∀ p ∈ [alice, bob], p = alice ∨ p ∈ [bob] := by decide
  rw [agreedLedger, Negotiation.status_accept rfl]
  exact if_pos all

/-- There is no room for her answer in the queue. -/
theorem handleStrategy_instead : ∃ next, proposing.handleStrategy bob instead =
    (.error (.outbox (.full 1)), next) := by
  have answered : Wallet.answer? instead
      (proposedDirect.handle bob instead proposing.acceptable).1 =
        some (.agreed channel.id .ledger) := by
    rw [handle_instead]
    rfl
  have account : (proposing.setNegotiation channel.id
      (proposedDirect.handle bob instead proposing.acceptable).2).address = alice :=
    address_aliceKey
  obtain ⟨next, queued⟩ := broadcast_full account rfl (.strategy (.agreed channel.id .ledger))
  have handled := Wallet.handleStrategy_of_answered channel_stored negotiation_proposing answered
    queued
  exact ⟨next, handled⟩

/-- There is no room for her answer, so the agreement is not reported. -/
theorem agreed_unreported :
    Wallet.create aliceKey cramped anyApps = .ok crampedWallet ∧
    ((crampedWallet.run opening).handleMessage bob (.strategy instead)).1 = .ok [] ∧
    (crampedWallet.run opening).negotiationStatus? channel.id = some (.pending .direct) ∧
    ((crampedWallet.run opening).handleMessage bob (.strategy instead)).2.negotiationStatus?
      channel.id = some (.agreed .ledger) := by
  have after := Wallet.negotiationStatus?_handleStrategy (m := instead) bob channel_stored
    negotiation_proposing
  rw [handle_instead, status_agreedLedger] at after
  obtain ⟨next, handled⟩ := handleStrategy_instead
  rw [run_opening]
  refine ⟨create_crampedWallet, ?_, status_proposing, ?_⟩
  · rw [Wallet.handleMessage_of_unanswerable handled]
  · rw [Wallet.handleMessage_of_unanswerable handled]
    rw [handled] at after
    exact after

/-- If Bob accepts her proposal, there is an agreement on it. -/
theorem status_accepted :
    (proposing.handleStrategy bob (.agreed channel.id .direct)).2.negotiationStatus? channel.id =
      some (.agreed .direct) := by
  have all : ∀ p ∈ [alice, bob], p = bob ∨ p ∈ [alice] := by decide
  have handled : proposedDirect.handle bob (.agreed channel.id .direct) proposing.acceptable =
      (.ok none, proposedDirect.accept bob) :=
    Negotiation.handle_agreed_of_pending (by decide) alice_ne_bob.symm rfl
  have after := Wallet.negotiationStatus?_handleStrategy (m := .agreed channel.id .direct) bob
    channel_stored negotiation_proposing
  rw [handled, Negotiation.status_accept rfl] at after
  exact after.trans (congrArg some (if_pos all))

/-- Bob's acceptance of her own proposal needs no answer, so it is reported
with the same queue. -/
theorem agreement_reported_iff_full :
    (∃ events, ((crampedWallet.run opening).handleMessage bob
        (.strategy (.agreed channel.id .direct))).1 = .ok events ∧
      .agreed channel.id .direct ∈ events) ∧
    ∃ events, ((crampedWallet.run opening).handleMessage bob (.strategy instead)).1 = .ok events ∧
      ∀ target s, .agreed target s ∉ events := by
  obtain ⟨events, gives, reports⟩ := Wallet.agreement_reported_iff create_crampedWallet opening bob
    (.agreed channel.id .direct)
  obtain ⟨events', gives', reports'⟩ := Wallet.agreement_reported_iff create_crampedWallet opening
    bob instead
  rw [run_opening] at gives gives' reports reports' ⊢
  refine ⟨⟨events, gives, (reports _ _).2 ⟨rfl, ?_, ?_, ?_⟩⟩, events', gives', ?_⟩
  · show Wallet.negotiationStatus? _ channel.id = _
    rw [(Wallet.handleMessage_strategy _ _ _).1]
    exact status_accepted
  · show proposing.negotiationStatus? channel.id ≠ _
    rw [status_proposing]
    simp
  · rintro ⟨⟨t, attempt, isProposal⟩, -⟩
    cases isProposal
  · intro target s reported
    obtain ⟨-, -, -, room⟩ := (reports' target s).1 reported
    exact room ⟨⟨.ledger, 2, rfl⟩, rfl, by decide⟩

end Adjudicator.Sample

end StateChannels
