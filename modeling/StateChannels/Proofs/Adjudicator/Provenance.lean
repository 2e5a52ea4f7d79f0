import Mathlib.Data.List.Induction
import StateChannels.Proofs.Adjudicator.Conclusion
import StateChannels.Proofs.Adjudicator.History

/-!
# `StateChannels.Proofs.Adjudicator.Provenance`: where a record comes from

The record of a channel says nothing about who wrote it. But each call
that disputes a channel writes the whole record, so the last one that
succeeded explains it: a challenge, a conclusion, or an answer or a
checkpoint that cleared the record. Later payouts change the outcome
digest only.

`LastDispute` names that last call, and `PaidDown` follows the outcome
through the payouts since. `origin_step` says what one event does to
the origin of a record, and `origin_run` follows a whole run. In the
other direction, `LastDispute.stemsFrom` follows the events after a
given last call. `provenance` says that the record of each channel has
exactly one of three shapes, and that the last call decides which.
-/

set_option autoImplicit false

namespace StateChannels

/-- The shape of a record without a challenge. -/
structure ChannelStorage.Cleared (s : ChannelStorage) : Prop where
  finalizesAt : s.finalizesAt = 0
  stateHash : s.stateHash = .zero
  challenger : s.challenger = .zero
  outcomeHash : s.outcomeHash = .zero

/-- A cleared record has no challenge. -/
theorem ChannelStorage.cleared_cleared (turnNumRecord : TurnNum) :
    (cleared turnNumRecord).Cleared := by
  constructor <;> rfl

namespace Adjudicator

variable {adj : Adjudicator} {id : Hash} {x : Call} {events before after : List Event}
  {outcome left : Outcome}

/-! ### Payouts since a call -/

/-- The payouts of the channel `id` among the entries take `outcome`
down to what is left. Each of them names an outcome with the digest of
what was left before it. -/
inductive PaidDown (id : Hash) (outcome : Outcome) : List Entry → Outcome → Prop where
  | none : PaidDown id outcome [] outcome
  | skip {entries : List Entry} {left : Outcome} {m : Entry} :
    PaidDown id outcome entries left → (∀ named, m.call ≠ .payout id named) →
    PaidDown id outcome (entries ++ [m]) left
  | pay {entries : List Entry} {left named next : Outcome} {m : Entry} :
    PaidDown id outcome entries left → m.call = .payout id named → named.hash = left.hash →
    m.receipt = .paidOut id next → next = m.before.remaining id named →
    PaidDown id outcome (entries ++ [m]) next

/-! ### The last dispute call -/

/-- Of the dispute calls on the channel `id` that succeed in the run
`events`, `x` is the last. It is made after the events `before`, and
`after` are the events after it. -/
structure LastDispute (adj : Adjudicator) (id : Hash) (events before : List Event) (x : Call)
    (after : List Event) : Prop where
  split : events = before ++ [.call x] ++ after
  disputes : x.disputes
  channel : x.channelId = id
  succeeds : ∃ receipt next, (adj.run before).submit x = .ok (receipt, next)
  last : ∀ m ∈ (adj.run (before ++ [.call x])).journal after,
    m.call.disputes → m.call.channelId ≠ id

/-- One more event after the call `x`. -/
theorem LastDispute.journal_concat (h : LastDispute adj id events before x after) (e : Event) :
    (adj.run (before ++ [.call x])).journal (after ++ [e]) =
      (adj.run (before ++ [.call x])).journal after ++ ((adj.run events).noted? e).toList := by
  rw [Adjudicator.journal_concat, ← run_append, ← h.split]

/-- The last dispute stays the last one over an event that is no dispute of
the channel. -/
theorem LastDispute.concat (h : LastDispute adj id events before x after) {e : Event}
    (other : ∀ m ∈ (adj.run events).noted? e, m.call.disputes → m.call.channelId ≠ id) :
    LastDispute adj id (events ++ [e]) before x (after ++ [e]) where
  split := by rw [h.split, List.append_assoc]
  disputes := h.disputes
  channel := h.channel
  succeeds := h.succeeds
  last := by
    intro m member
    rw [h.journal_concat e, List.mem_append, Option.mem_toList] at member
    exact member.elim (h.last m) (other m)

/-- The record of the channel `id` after the run is the one that `x`
left, paid down from `outcome` by the payouts since. -/
def StemsFrom (adj : Adjudicator) (id : Hash) (events before : List Event) (x : Call)
    (outcome : Outcome) : Prop :=
  ∃ after left, LastDispute adj id events before x after ∧
    PaidDown id outcome ((adj.run (before ++ [.call x])).journal after) left ∧
    (adj.run events).storage id =
      ((adj.run (before ++ [.call x])).storage id).paidDown left

/-- A dispute call that succeeds is the last one of the run up to it. -/
theorem stemsFrom_of_submit {receipt : Receipt} {next : Adjudicator} (disputes : x.disputes)
    (made : (adj.run before).submit x = .ok (receipt, next))
    (hash : (next.storage x.channelId).outcomeHash = outcome.hash) :
    StemsFrom adj x.channelId (before ++ [.call x]) before x outcome := by
  refine ⟨[], outcome, ?_, .none, ?_⟩
  · refine ⟨(List.append_nil _).symm, disputes, rfl, ⟨receipt, next, made⟩, ?_⟩
    intro m member
    cases member
  · rw [run_concat, step_of_ok made, ChannelStorage.paidDown, ← hash]

/-- The record still stems from `x` after an event that is no other
dispute call on the channel that succeeds. -/
theorem StemsFrom.step (h : StemsFrom adj id events before x outcome) {e : Event}
    (other : ∀ y receipt next, e = .call y → y.disputes → y.channelId = id →
      (adj.run events).submit y ≠ .ok (receipt, next)) :
    StemsFrom adj id (events ++ [e]) before x outcome := by
  obtain ⟨after, left, last, paid, stored⟩ := h
  rcases channel_cases (adj.run events) id e with ⟨y, receipt, rfl, disputes, channel, made⟩ |
    ⟨same, noted⟩ | ⟨named, next, rfl, made, payout⟩
  · exact absurd made (other y receipt _ rfl disputes channel)
  · refine ⟨after ++ [e], left, last.concat fun m member => (noted m member).1, ?_, ?_⟩
    · rw [last.journal_concat e]
      cases entry : (adj.run events).noted? e with
      | none => rwa [Option.toList_none, List.append_nil]
      | some m => exact paid.skip (noted m entry).2
    · rw [run_concat, same, stored]
  -- The payout names an outcome with the stored digest, which is that of what was left.
  · have noted := noted?_of_ok made
    obtain ⟨-, hash, -, -, remains, -⟩ := payout_eq_ok_iff.1 payout
    refine ⟨after ++ [.call (.payout id named)], next, last.concat ?_, ?_, ?_⟩
    · intro m member
      rw [noted, Option.mem_some_iff] at member
      subst member
      exact fun disputes => absurd disputes Bool.false_ne_true
    · rw [last.journal_concat, noted]
      rw [stored] at hash
      exact paid.pay rfl hash rfl remains
    · rw [run_concat, storage_payout payout, if_pos rfl, stored]
      rfl

/-- Whatever comes after the last dispute call, the record stems from
it. -/
theorem LastDispute.stemsFrom {receipt : Receipt} {next : Adjudicator}
    (h : LastDispute adj id events before x after)
    (made : (adj.run before).submit x = .ok (receipt, next))
    (hash : (next.storage x.channelId).outcomeHash = outcome.hash) :
    StemsFrom adj id events before x outcome := by
  have disputes := h.disputes
  obtain rfl := h.channel
  have last := h.last
  obtain rfl := h.split
  clear h
  -- Induction on the events after the call: the latest of them is no other dispute call.
  induction after using List.reverseRecOn with
  | nil =>
    rw [List.append_nil]
    exact stemsFrom_of_submit disputes made hash
  | append_singleton after e ih =>
    rw [Adjudicator.journal_concat] at last
    rw [← List.append_assoc]
    refine (ih fun m member => last m (List.mem_append_left _ member)).step ?_
    rintro y receipt next rfl disputes channel submitted
    rw [run_append] at submitted
    have noted := noted?_of_ok submitted
    rw [noted] at last
    exact last _ (List.mem_append_right _ (List.mem_singleton_self _)) disputes channel

/-! ### Origins -/

/-- Where the record of the channel `id` after the run comes from: it
is cleared, or it stems from a challenge or a conclusion with the last
state of its proof. -/
def Origin (adj : Adjudicator) (id : Hash) (events : List Event) : Prop :=
  ((adj.run events).storage id).Cleared ∨
  (∃ before c expected p signature latest, p.latest? = some latest ∧
    StemsFrom adj id events before (.challenge c expected p signature) latest.outcome) ∨
  ∃ before c p latest, p.latest? = some latest ∧
    StemsFrom adj id events before (.conclude c p) latest.outcome

/-- Whatever the record was before, a dispute call that succeeds gives
it an origin. -/
theorem origin_of_disputes {receipt : Receipt} {next : Adjudicator} (disputes : x.disputes)
    (made : (adj.run events).submit x = .ok (receipt, next)) :
    Origin adj x.channelId (events ++ [.call x]) := by
  rcases dispute_cases disputes made with
    ⟨c, e, p, signature, latest, challenger, rfl, found, -, written⟩ |
    ⟨c, p, latest, rfl, found, written⟩ | ⟨t, -, written⟩
  · exact .inr (.inl ⟨events, c, e, p, signature, latest, found,
      stemsFrom_of_submit disputes made (congrArg ChannelStorage.outcomeHash written)⟩)
  · exact .inr (.inr ⟨events, c, p, latest, found,
      stemsFrom_of_submit disputes made (congrArg ChannelStorage.outcomeHash written)⟩)
  · left
    rw [run_concat, step_of_ok made, written]
    exact ChannelStorage.cleared_cleared t

/-- One more event. A dispute call on the channel that succeeds gives
its record a new origin, and every other event leaves it the old one. -/
theorem origin_step (h : Origin adj id events) (e : Event) : Origin adj id (events ++ [e]) := by
  by_cases new : ∃ y receipt next, e = .call y ∧ y.disputes ∧ y.channelId = id ∧
      (adj.run events).submit y = .ok (receipt, next)
  · obtain ⟨y, receipt, next, rfl, disputes, rfl, made⟩ := new
    exact origin_of_disputes disputes made
  · have other : ∀ y receipt next, e = .call y → y.disputes → y.channelId = id →
        (adj.run events).submit y ≠ .ok (receipt, next) :=
      fun y receipt next call disputes channel made =>
        new ⟨y, receipt, next, call, disputes, channel, made⟩
    rcases h with cleared | ⟨before, c, expected, p, signature, latest, found, stems⟩ |
      ⟨before, c, p, latest, found, stems⟩
    · left
      rw [run_concat]
      rcases channel_cases (adj.run events) id e with ⟨y, receipt, rfl, disputes, channel, made⟩ |
        ⟨same, -⟩ | ⟨named, next, rfl, -, payout⟩
      · exact absurd made (other y receipt _ rfl disputes channel)
      · rw [same]
        exact cleared
      -- A channel without a challenge is not final, so it is not paid out.
      · have final := (payout_eq_ok_iff.1 payout).1
        rw [status, ChannelStorage.status_eq_finalized_iff] at final
        exact absurd cleared.finalizesAt final.1
    · exact .inr (.inl ⟨before, c, expected, p, signature, latest, found, stems.step other⟩)
    · exact .inr (.inr ⟨before, c, p, latest, found, stems.step other⟩)

/-- Every record of a run that starts the chain has an origin. -/
theorem origin_run (clock : Seconds) (apps : AppRegistry) (id : Hash) (events : List Event) :
    Origin (start clock apps) id events := by
  -- Induction from the end of the run: the origin of a record looks back from its last event.
  induction events using List.reverseRecOn with
  | nil => exact .inl (ChannelStorage.cleared_cleared 0)
  | append_singleton events e ih => exact origin_step ih e

/-! ### The three shapes -/

/-- The record of the channel `id` after the run is that of a
challenge, which was made on the chain `adj.run before`. -/
def FromChallenge (adj : Adjudicator) (id : Hash) (events : List Event) : Prop :=
  ∃ before c expected p signature after latest left,
    LastDispute adj id events before (.challenge c expected p signature) after ∧
    p.latest? = some latest ∧ (adj.run before).validate c p = .ok (.ofState latest) ∧
    PaidDown id latest.outcome
      ((adj.run (before ++ [.call (.challenge c expected p signature)])).journal after) left ∧
    let s := (adj.run events).storage id
    s.turnNumRecord = latest.turnNum ∧ 1 ≤ s.turnNumRecord ∧ s.stateHash = latest.hash ∧
      s.challenger ∈ c.participants ∧
      s.finalizesAt.toNat = min
        (max (adj.run before).clock.toNat 1 + latest.challengeDuration.toNat) (2 ^ 64 - 1) ∧
      s.outcomeHash = left.hash

/-- The record of the channel `id` after the run is that of a
conclusion, which was made on the chain `adj.run before`. -/
def FromConclusion (adj : Adjudicator) (id : Hash) (events : List Event) : Prop :=
  ∃ before c p after latest left,
    LastDispute adj id events before (.conclude c p) after ∧
    p.latest? = some latest ∧ (adj.run before).validate c p = .ok (.ofState latest) ∧
    PaidDown id latest.outcome
      ((adj.run (before ++ [.call (.conclude c p)])).journal after) left ∧
    let s := (adj.run events).storage id
    s.turnNumRecord = 0 ∧ s.stateHash = .zero ∧ s.challenger = .zero ∧ 1 ≤ s.finalizesAt ∧
      s.outcomeHash = left.hash

/-- A record that stems from a challenge has the shape of one. -/
theorem fromChallenge_of_stemsFrom {c : Channel} {expected : TurnNum} {p : SupportProof}
    {signature : Signature} {latest : State} (found : p.latest? = some latest)
    (h : StemsFrom adj id events before (.challenge c expected p signature) latest.outcome) :
    FromChallenge adj id events := by
  obtain ⟨after, left, last, paid, stored⟩ := h
  obtain ⟨receipt, next, made⟩ := last.succeeds
  obtain ⟨⟨s, _⟩, succeeds, ⟨⟩⟩ := map_eq_ok_iff.1 ((submit_eq _).symm.trans made)
  obtain ⟨-, -, latest', challenger, found', accepted, later, -, member, rfl, rfl⟩ :=
    challenge_eq_ok_iff.1 succeeds
  cases Option.some.inj (found.symm.trans found')
  have channel : c.id = id := last.channel
  -- Payouts keep all of the record but the outcome digest.
  rw [run_concat, step_of_ok made, storage_setStorage, if_pos channel.symm] at stored
  refine ⟨before, c, expected, p, signature, after, latest, left, last, found, accepted, paid, ?_⟩
  rw [stored]
  refine ⟨rfl, ?_, rfl, member, ?_, rfl⟩
  · show 1 ≤ latest.turnNum
    rw [UInt64.le_iff_toNat_le]
    exact Nat.lt_of_le_of_lt (Nat.zero_le _) (UInt64.lt_iff_toNat_lt.1 later)
  · show ((adj.run before).now.addCapped latest.challengeDuration).toNat = _
    rw [Seconds.toNat_addCapped, toNat_now]

/-- A record that stems from a conclusion has the shape of one. -/
theorem fromConclusion_of_stemsFrom {c : Channel} {p : SupportProof} {latest : State}
    (found : p.latest? = some latest)
    (h : StemsFrom adj id events before (.conclude c p) latest.outcome) :
    FromConclusion adj id events := by
  obtain ⟨after, left, last, paid, stored⟩ := h
  obtain ⟨receipt, next, made⟩ := last.succeeds
  obtain ⟨⟨s, _⟩, succeeds, ⟨⟩⟩ := map_eq_ok_iff.1 ((submit_eq _).symm.trans made)
  obtain ⟨-, -, latest', found', accepted, rfl, rfl⟩ := conclude_eq_ok_iff.1 succeeds
  cases Option.some.inj (found.symm.trans found')
  have channel : c.id = id := last.channel
  rw [run_concat, step_of_ok made, storage_setStorage, if_pos channel.symm] at stored
  refine ⟨before, c, p, after, latest, left, last, found, accepted, paid, ?_⟩
  rw [stored]
  refine ⟨rfl, rfl, rfl, ?_, rfl⟩
  show 1 ≤ (adj.run before).now
  rw [UInt64.le_iff_toNat_le, toNat_now]
  exact Nat.le_max_right _ _

/-- A challenge that no dispute call came after has given the record
its shape. -/
theorem LastDispute.fromChallenge {c : Channel} {expected : TurnNum} {p : SupportProof}
    {signature : Signature}
    (h : LastDispute adj id events before (.challenge c expected p signature) after) :
    FromChallenge adj id events := by
  obtain ⟨receipt, next, made⟩ := h.succeeds
  obtain ⟨⟨s, _⟩, succeeds, ⟨⟩⟩ := map_eq_ok_iff.1 ((submit_eq _).symm.trans made)
  obtain ⟨-, -, latest, challenger, found, -, -, -, -, rfl, rfl⟩ := challenge_eq_ok_iff.1 succeeds
  refine fromChallenge_of_stemsFrom found (h.stemsFrom made ?_)
  rw [Call.channelId, storage_setStorage, if_pos rfl]
  rfl

/-- So has a conclusion that no dispute call came after. -/
theorem LastDispute.fromConclusion {c : Channel} {p : SupportProof}
    (h : LastDispute adj id events before (.conclude c p) after) :
    FromConclusion adj id events := by
  obtain ⟨receipt, next, made⟩ := h.succeeds
  obtain ⟨⟨s, _⟩, succeeds, ⟨⟩⟩ := map_eq_ok_iff.1 ((submit_eq _).symm.trans made)
  obtain ⟨-, -, latest, found, -, rfl, rfl⟩ := conclude_eq_ok_iff.1 succeeds
  refine fromConclusion_of_stemsFrom found (h.stemsFrom made ?_)
  rw [Call.channelId, storage_setStorage, if_pos rfl]
  rfl

/-- The record is that of a challenge exactly if the last dispute is one. -/
theorem fromChallenge_iff : FromChallenge adj id events ↔
    ∃ before c expected p signature after,
      LastDispute adj id events before (.challenge c expected p signature) after := by
  constructor
  · rintro ⟨before, c, expected, p, signature, after, _, _, last, -⟩
    exact ⟨before, c, expected, p, signature, after, last⟩
  · rintro ⟨_, _, _, _, _, _, last⟩
    exact last.fromChallenge

/-- The record is that of a conclusion exactly if the last dispute is one. -/
theorem fromConclusion_iff : FromConclusion adj id events ↔
    ∃ before c p after, LastDispute adj id events before (.conclude c p) after := by
  constructor
  · rintro ⟨before, c, p, after, _, _, last, -⟩
    exact ⟨before, c, p, after, last⟩
  · rintro ⟨_, _, _, _, last⟩
    exact last.fromConclusion

/-- The record of each channel has exactly one of three shapes, after
every run from the start.

It is cleared. Or the last dispute call on the channel that succeeded
is a challenge. Then the record has the turn and the digest of the last
state of its proof, one of the participants as the challenger, and the
end of the challenge time counted from the clock at the call. Or that
call is a conclusion. Then there is no challenge in the record, and its
end is not zero. After a challenge or a conclusion the outcome digest
is that of the outcome of the last state, paid down by the payouts
since.

Which of the three it is, the last dispute call decides: after a
challenge the record is that of the challenge, and after a conclusion
that of the conclusion. -/
theorem provenance (clock : Seconds) (apps : AppRegistry) (events : List Event) (id : Hash) :
    let chain := Adjudicator.start clock apps
    let cleared := ((chain.run events).storage id).Cleared
    ((cleared ∧ ¬FromChallenge chain id events ∧ ¬FromConclusion chain id events) ∨
      (¬cleared ∧ FromChallenge chain id events ∧ ¬FromConclusion chain id events) ∨
      (¬cleared ∧ ¬FromChallenge chain id events ∧ FromConclusion chain id events)) ∧
    (FromChallenge chain id events ↔ ∃ before c expected p signature after,
      LastDispute chain id events before (.challenge c expected p signature) after) ∧
    (FromConclusion chain id events ↔ ∃ before c p after,
      LastDispute chain id events before (.conclude c p) after) := by
  intro chain cleared
  -- The shapes exclude each other by the end of the challenge time and by the turn number.
  have ended : FromChallenge chain id events → ¬cleared := by
    rintro ⟨_, _, _, _, _, _, _, _, -, -, -, -, -, -, -, -, finalizesAt, -⟩ h
    rw [h.finalizesAt] at finalizesAt
    change 0 = _ at finalizesAt
    omega
  have concluded : FromConclusion chain id events → ¬cleared := by
    rintro ⟨_, _, _, _, _, _, -, -, -, -, -, -, -, finalizesAt, -⟩ h
    rw [h.finalizesAt] at finalizesAt
    exact absurd finalizesAt (by decide)
  have apart : FromChallenge chain id events → ¬FromConclusion chain id events := by
    rintro ⟨_, _, _, _, _, _, _, _, -, -, -, -, -, positive, -⟩
      ⟨_, _, _, _, _, _, -, -, -, -, zero, -⟩
    rw [zero] at positive
    exact absurd positive (by decide)
  refine ⟨?_, fromChallenge_iff, fromConclusion_iff⟩
  rcases origin_run clock apps id events with h | ⟨_, _, _, _, _, _, found, stems⟩ |
    ⟨_, _, _, _, found, stems⟩
  · exact .inl ⟨h, fun challenge => ended challenge h, fun conclusion => concluded conclusion h⟩
  · have challenge := fromChallenge_of_stemsFrom found stems
    exact .inr (.inl ⟨ended challenge, challenge, apart challenge⟩)
  · have conclusion := fromConclusion_of_stemsFrom found stems
    exact .inr (.inr ⟨concluded conclusion, fun challenge => apart challenge conclusion,
      conclusion⟩)

namespace Sample

/-- The challenge at time 5 is the last dispute. -/
theorem lastDispute_challenge :
    LastDispute chain channel.id [.tick 5, .call challenge] [.tick 5] challenge [] where
  split := rfl
  disputes := rfl
  channel := rfl
  succeeds := ⟨_, _, submit_challenge⟩
  last := nofun

/-- The two participants close the channel while the challenge is
running. -/
theorem lastDispute_closing :
    LastDispute chain channel.id ([.tick 5, .call challenge] ++ [.call (.conclude channel closing)])
      [.tick 5, .call challenge] (.conclude channel closing) [] where
  split := rfl
  disputes := rfl
  channel := rfl
  succeeds := ⟨_, _, submit_of_conclude conclude_closing⟩
  last := nofun

/-- Two of the shapes in one run. After Alice's challenge the record is
that of the challenge, and when the channel has been closed it is that
of the conclusion. -/
theorem provenance_disputed :
    (FromChallenge chain channel.id [.tick 5, .call challenge] ∧
      ¬FromConclusion chain channel.id [.tick 5, .call challenge]) ∧
    let closed := [.tick 5, .call challenge] ++ [.call (.conclude channel closing)]
    ¬FromChallenge chain channel.id closed ∧ FromConclusion chain channel.id closed := by
  obtain ⟨challenged, last, -⟩ :=
    provenance 0 (.insert ∅ .zero .trivial) [.tick 5, .call challenge] channel.id
  obtain ⟨closed, -, lastClosed⟩ := provenance 0 (.insert ∅ .zero .trivial)
    ([.tick 5, .call challenge] ++ [.call (.conclude channel closing)]) channel.id
  have fromChallenge := last.2 ⟨_, _, _, _, _, _, lastDispute_challenge⟩
  have fromConclusion := lastClosed.2 ⟨_, _, _, _, lastDispute_closing⟩
  refine ⟨⟨fromChallenge, ?_⟩, ?_, fromConclusion⟩
  · rcases challenged with ⟨-, other, -⟩ | ⟨-, -, rest⟩ | ⟨-, other, -⟩
    · exact absurd fromChallenge other
    · exact rest
    · exact absurd fromChallenge other
  · rcases closed with ⟨-, -, other⟩ | ⟨-, -, other⟩ | ⟨-, rest, -⟩
    · exact absurd fromConclusion other
    · exact absurd fromConclusion other
    · exact rest

end Sample

end Adjudicator

end StateChannels
