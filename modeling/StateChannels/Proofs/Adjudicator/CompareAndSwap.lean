import StateChannels.Proofs.Adjudicator.Finality

/-!
# `StateChannels.Proofs.Adjudicator.CompareAndSwap`: a record is used once

A caller names the turn number record that the call relies on. When
the record has moved on, the call is refused. So of two calls that
name the same record, at most one can move it on.

The record alone does not show this, for a conclusion sets it back to
zero. But then the channel is final at once, and stays so. `Past` is
the invariant: the channel is final, or its record is above the one
that the caller named. A call that moves the record on leaves the
chain past the old one (`past_of_advances`), every event keeps it there
(`past_step`), and there no call that names the old record succeeds
(`submit_of_past`).

`compareAndSwap` puts this together for whole runs.
-/

set_option autoImplicit false

namespace StateChannels

/-- Whether the call moves the record of the channel `id` on and
relies on its being `expected`. -/
def Call.advancesFrom (id : Hash) (expected : TurnNum) (x : Call) : Bool :=
  x.advances && x.channelId == id && x.expected? == some expected

/-- A call advances from a record when it advances the channel and expects
that record. -/
theorem Call.advancesFrom_iff {id : Hash} {expected : TurnNum} {x : Call} :
    x.advancesFrom id expected ↔
      x.advances ∧ x.channelId = id ∧ x.expected? = some expected := by
  simp [advancesFrom, and_assoc]

namespace Adjudicator

variable {adj next : Adjudicator} {id : Hash} {expected : TurnNum} {x : Call}
  {receipt : Receipt}

/-! ### The record while the channel is not final -/

/-- The record of a conclusion is final at once: the clock counts as at
least 1, so the end that is set is not zero. -/
theorem status_concluded (adj : Adjudicator) (outcome : Outcome) :
    (ChannelStorage.concluded adj.now outcome).status adj.now = .finalized := by
  have positive : adj.now.toNat ≠ 0 := by
    rw [toNat_now]
    omega
  rw [ChannelStorage.status_eq_finalized_iff]
  exact ⟨fun zero => positive (congrArg UInt64.toNat zero), Nat.le_refl _⟩

/-- A dispute call leaves its channel final, or its record no lower. -/
theorem turnNumRecord_le_of_disputes (disputes : x.disputes)
    (h : adj.submit x = .ok (receipt, next)) :
    next.status x.channelId = .finalized ∨
      (adj.storage x.channelId).turnNumRecord ≤ (next.storage x.channelId).turnNumRecord := by
  rcases dispute_cases disputes h with ⟨_, _, _, _, latest, _, -, -, later, written⟩ |
    ⟨_, _, latest, -, -, written⟩ | ⟨t, notBefore, written⟩
  · rw [written]
    exact .inr (UInt64.le_of_lt later)
  · have now : next.now = adj.now := by
      unfold Adjudicator.now
      rw [clock_submit h]
    left
    rw [status, written, now]
    exact status_concluded adj latest.outcome
  · rw [written]
    exact .inr notBefore

/-- While the channel is not final, no event lowers its record. -/
theorem turnNumRecord_le_step {e : Event} (le : adj.clock ≤ (adj.step e).clock)
    (running : (adj.step e).status id ≠ .finalized) :
    (adj.storage id).turnNumRecord ≤ ((adj.step e).storage id).turnNumRecord := by
  rcases channel_cases adj id e with ⟨x, receipt, rfl, disputes, rfl, made⟩ | ⟨same, -⟩ |
    ⟨outcome, left, rfl, -, paid⟩
  · exact (turnNumRecord_le_of_disputes disputes made).resolve_left running
  · rw [same]
    exact UInt64.le_refl _
  -- A payout is made when the channel is final, and it then stays so.
  · have final := (payout_eq_ok_iff.1 paid).1
    exact absurd (finalized_step final le) running

/-- Along a run that goes forward the record does not fall, as long as
the channel is not final. -/
theorem turnNumRecord_le_run {events : List Event} (forward : Forward adj.clock events)
    (running : (adj.run events).status id ≠ .finalized) :
    (adj.storage id).turnNumRecord ≤ ((adj.run events).storage id).turnNumRecord := by
  -- Being final is part of the invariant, for the last record may be lower in that case.
  have keep := run_induction
    (P := fun later => later.status id = .finalized ∨
      (adj.storage id).turnNumRecord ≤ (later.storage id).turnNumRecord)
    (fun later e h le => by
      by_cases final : (later.step e).status id = .finalized
      · exact .inl final
      · have before := h.resolve_left fun earlier => final (finalized_step earlier le)
        exact .inr (UInt64.le_trans before (turnNumRecord_le_step le final)))
    forward (.inr (UInt64.le_refl _))
  exact keep.resolve_left running

/-! ### Past a record -/

/-- The record `expected` cannot come back: the channel is final, or
its record is larger. -/
def Past (id : Hash) (expected : TurnNum) (adj : Adjudicator) : Prop :=
  adj.status id = .finalized ∨ expected < (adj.storage id).turnNumRecord

/-- A call that moves the record on leaves the chain past the record
that it named. -/
theorem past_of_advances (swaps : x.advancesFrom id expected)
    (h : adj.submit x = .ok (receipt, next)) : Past id expected next := by
  obtain ⟨advances, rfl, names⟩ := Call.advancesFrom_iff.1 swaps
  obtain ⟨-, current, later⟩ := record_lt_of_advances advances h
  have same : (adj.storage x.channelId).turnNumRecord = expected :=
    Option.some.inj (current.symm.trans names)
  exact .inr (same ▸ later)

/-- What is past stays past over an event. -/
theorem past_step {e : Event} (past : Past id expected adj)
    (le : adj.clock ≤ (adj.step e).clock) : Past id expected (adj.step e) := by
  by_cases final : (adj.step e).status id = .finalized
  · exact .inl final
  · have above := past.resolve_left fun earlier => final (finalized_step earlier le)
    exact .inr (UInt64.lt_of_lt_of_le above (turnNumRecord_le_step le final))

/-- What is past stays past over a run. -/
theorem past_run {events : List Event} (forward : Forward adj.clock events)
    (past : Past id expected adj) : Past id expected (adj.run events) :=
  run_induction (fun _ _ h le => past_step h le) forward past

/-- Past a record, a call that names it is refused: as too late when
the channel is final, and as stale otherwise. -/
theorem submit_of_past (past : Past id expected adj) (channel : x.channelId = id)
    (names : x.expected? = some expected) :
    adj.submit x = .error (.refused
      (if adj.status id = .finalized then .challengeAlreadyActive
        else .staleTurnNumRecord expected (adj.storage id).turnNumRecord)) := by
  subst channel
  by_cases final : adj.status x.channelId = .finalized
  · have disputes : x.disputes := by
      cases x with
      | challenge | respond | respondWithAlternative | checkpoint => rfl
      | conclude | deposit | payout => cases names
    rw [if_pos final]
    exact submit_of_finalized disputes final
  · have above := past.resolve_left final
    rw [if_neg final]
    exact submit_of_stale names final (UInt64.ne_of_lt above).symm

/-- Past a record, no call that would move it on succeeds any more. -/
theorem countP_advancesFrom_of_past {events : List Event} (forward : Forward adj.clock events)
    (past : Past id expected adj) :
    (adj.journal events).countP (fun m => m.call.advancesFrom id expected) = 0 := by
  induction events generalizing adj with
  | nil => rfl
  | cons e events ih =>
    obtain ⟨le, rest⟩ := forward_cons.1 forward
    rw [journal, List.countP_append, ih rest (past_step past le), Nat.add_zero]
    rcases step_cases adj e with ⟨_, _, -, noted⟩ | ⟨x, receipt, next, rfl, made, -, noted⟩ |
      ⟨_, _, _, -, -, noted⟩
    · rw [noted]
      rfl
    -- A call that succeeds here does not name the old record, or it would be refused.
    · have other : ¬x.advancesFrom id expected := by
        intro swaps
        obtain ⟨-, channel, names⟩ := Call.advancesFrom_iff.1 swaps
        rw [submit_of_past past channel names] at made
        cases made
      rw [noted]
      simp [other]
    · rw [noted]
      rfl

/-- From any point on, at most one call moves the record on from
`expected`. -/
theorem countP_advancesFrom_le_one {events : List Event} (forward : Forward adj.clock events) :
    (adj.journal events).countP (fun m => m.call.advancesFrom id expected) ≤ 1 := by
  induction events generalizing adj with
  | nil => exact Nat.zero_le _
  | cons e events ih =>
    obtain ⟨-, rest⟩ := forward_cons.1 forward
    rw [journal, List.countP_append]
    rcases step_cases adj e with ⟨_, _, -, noted⟩ | ⟨x, receipt, next, rfl, made, stepped, noted⟩ |
      ⟨_, _, _, -, -, noted⟩
    · rw [noted, Option.toList_none, List.countP_nil, Nat.zero_add]
      exact ih rest
    · by_cases swaps : x.advancesFrom id expected
      -- This is the one: the rest of the run is past it.
      · have past := past_of_advances swaps made
        rw [← stepped] at past
        rw [noted, countP_advancesFrom_of_past rest past]
        simp [swaps]
      · rw [noted]
        simpa [swaps] using ih rest
    · rw [noted, Option.toList_none, List.countP_nil, Nat.zero_add]
      exact ih rest

/-! ### Whole runs -/

/-- A run goes forward. Take a channel and a number.

At most one call that succeeds moves the record of the channel on from
that number. As long as the channel is not final the record does not
fall, and each such call makes it larger. After such a call has
succeeded, a later challenge, answer or checkpoint that names the
number again is refused and changes nothing: the number is stale, or
the channel is final by then. -/
theorem compareAndSwap (adj : Adjudicator) (events : List Event) (id : Hash)
    (expected : TurnNum) (forward : Forward adj.clock events) :
    (adj.journal events).countP (fun m => m.call.advancesFrom id expected) ≤ 1 ∧
    (∀ before between after, events = before ++ between ++ after →
      (adj.run (before ++ between)).status id ≠ .finalized →
      ((adj.run before).storage id).turnNumRecord ≤
        ((adj.run (before ++ between)).storage id).turnNumRecord) ∧
    (∀ before x after receipt next, events = before ++ [.call x] ++ after →
      x.advances → x.channelId = id → (adj.run before).submit x = .ok (receipt, next) →
      ((adj.run before).storage id).turnNumRecord <
        ((adj.run (before ++ [.call x])).storage id).turnNumRecord) ∧
    ∀ before x between after receipt next,
      events = before ++ [.call x] ++ between ++ after →
      x.advancesFrom id expected → (adj.run before).submit x = .ok (receipt, next) →
      let later := adj.run (before ++ [.call x] ++ between)
      ∀ y : Call, y.channelId = id → y.expected? = some expected →
        later.submit y = .error (.refused
          (if later.status id = .finalized then .challengeAlreadyActive
            else .staleTurnNumRecord expected (later.storage id).turnNumRecord)) ∧
        later.step (.call y) = later := by
  refine ⟨countP_advancesFrom_le_one forward, ?_, ?_, ?_⟩
  · rintro before between after rfl running
    rw [run_append] at running ⊢
    have part := (forward_append.1 (forward_append.1 forward).1).2
    exact turnNumRecord_le_run part running
  · rintro before x after receipt next - advances rfl made
    rw [run_concat, step_of_ok made]
    exact (record_lt_of_advances advances made).2.2
  · rintro before x between after receipt next rfl swaps made later y channel names
    have part := (forward_append.1 (forward_append.1 forward).1).2
    rw [run_concat, step_of_ok made] at part
    -- Once the record was advanced the expected one is past, and it stays so over the calls
    -- between.
    have past : Past id expected later := by
      show Past id expected (adj.run (before ++ [.call x] ++ between))
      rw [run_append, run_concat, step_of_ok made]
      exact past_run part (past_of_advances swaps made)
    have refused := submit_of_past past channel names
    exact ⟨refused, step_of_error refused⟩

/-- Alice's challenge names the record 0 and leaves it at 4. The same
call made again is stale. -/
theorem compareAndSwap_challenge :
    let later := Sample.chain.run [.tick 5, .call Sample.challenge]
    (Sample.chain.journal [.tick 5, .call Sample.challenge, .call Sample.challenge]).countP
        (fun m => m.call.advancesFrom Sample.channel.id 0) ≤ 1 ∧
      later.submit Sample.challenge = .error (.refused (.staleTurnNumRecord 0 4)) := by
  intro later
  -- The second call comes right after the first, so nothing lies between them.
  obtain ⟨once, -, -, refused⟩ := compareAndSwap Sample.chain
    [.tick 5, .call Sample.challenge, .call Sample.challenge] Sample.channel.id 0 (by decide)
  have swaps : Sample.challenge.advancesFrom Sample.channel.id 0 :=
    Call.advancesFrom_iff.2 ⟨rfl, rfl, rfl⟩
  obtain ⟨again, -⟩ := refused [.tick 5] Sample.challenge [] [.call Sample.challenge] _ _ rfl
    swaps Sample.submit_challenge Sample.challenge rfl rfl
  have stale : later.submit Sample.challenge = .error (.refused
      (if later.status Sample.channel.id = .finalized then .challengeAlreadyActive
        else .staleTurnNumRecord 0 (later.storage Sample.channel.id).turnNumRecord)) := again
  have stored : later.storage Sample.channel.id = Sample.challenged := Sample.storage_challenge
  have running : later.status Sample.channel.id ≠ .finalized := by
    have time : later.now = (Sample.chain.atTime 5).now := by
      rw [show later = _ from Sample.run_challenge, now_setStorage]
    rw [status, stored, time]
    decide
  rw [if_neg running, stored] at stale
  exact ⟨once, stale⟩

end Adjudicator

end StateChannels
