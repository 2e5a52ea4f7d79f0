import StateChannels.Proofs.Adjudicator.History

/-!
# `StateChannels.Proofs.Adjudicator.Finality`: what is final stays final

A channel is final by the clock: the end of its challenge time is not
zero and has been reached. Nothing marks it as final in its record. So
the record has to keep its end, and the clock must not go back.

* `storage_step_of_finalized`: in a channel that is final, an event
  leaves the record alone, or it is a payout and writes the outcome
  digest only.
* `finalized_step` and `finalized_run`: the channel stays final over an
  event that does not set the clock back, and over a run that goes
  forward.
* `finalized_forever`: the whole of it. The channel is final at every
  later point. Its record is the same up to the outcome digest, no
  dispute call on it succeeds any more, and the outcome digest moves
  from outcome to outcome by payouts.
-/

set_option autoImplicit false

namespace StateChannels

namespace ChannelStorage

/-- Two records that differ in the outcome digest at most. -/
structure SameDispute (s t : ChannelStorage) : Prop where
  turnNumRecord : t.turnNumRecord = s.turnNumRecord
  finalizesAt : t.finalizesAt = s.finalizesAt
  stateHash : t.stateHash = s.stateHash
  challenger : t.challenger = s.challenger

/-- Storage has the same dispute as itself. -/
theorem SameDispute.refl (s : ChannelStorage) : SameDispute s s := by
  constructor <;> rfl

/-- Having the same dispute is transitive. -/
theorem SameDispute.trans {s t u : ChannelStorage} (h : SameDispute s t) (h' : SameDispute t u) :
    SameDispute s u where
  turnNumRecord := h'.turnNumRecord.trans h.turnNumRecord
  finalizesAt := h'.finalizesAt.trans h.finalizesAt
  stateHash := h'.stateHash.trans h.stateHash
  challenger := h'.challenger.trans h.challenger

/-- A payment does not change the dispute. -/
theorem sameDispute_paidDown (s : ChannelStorage) (left : Outcome) :
    SameDispute s (s.paidDown left) := by
  constructor <;> rfl

/-- Where a channel is does not depend on its outcome. -/
theorem SameDispute.status {s t : ChannelStorage} (h : SameDispute s t) (now : Seconds) :
    t.status now = s.status now := by
  unfold ChannelStorage.status
  rw [h.finalizesAt]

/-- Once the end is reached it stays reached. -/
theorem status_eq_finalized_of_le {s : ChannelStorage} {now later : Seconds} (le : now ≤ later)
    (final : s.status now = .finalized) : s.status later = .finalized := by
  rw [status_eq_finalized_iff] at final ⊢
  exact ⟨final.1, Nat.le_trans final.2 (UInt64.le_iff_toNat_le.1 le)⟩

end ChannelStorage

namespace Adjudicator

variable {adj : Adjudicator} {id : Hash}

/-- A later clock reads no earlier time. -/
theorem now_le_now {next : Adjudicator} (le : adj.clock ≤ next.clock) : adj.now ≤ next.now := by
  rw [UInt64.le_iff_toNat_le] at le ⊢
  rw [toNat_now, toNat_now]
  omega

/-- In a channel that is final, an event leaves the record alone, or
it is a payout. Then the outcome that is paid has the stored digest,
and what remains of it has the new one. -/
theorem storage_step_of_finalized (final : adj.status id = .finalized) (e : Event) :
    (adj.step e).storage id = adj.storage id ∨
      ∃ outcome left, e = .call (.payout id outcome) ∧
        adj.submit (.payout id outcome) = .ok (.paidOut id left, adj.step e) ∧
        outcome.hash = (adj.storage id).outcomeHash ∧
        (adj.step e).storage id = (adj.storage id).paidDown left := by
  rcases channel_cases adj id e with ⟨x, receipt, rfl, disputes, rfl, made⟩ | ⟨same, -⟩ |
    ⟨outcome, left, rfl, made, paid⟩
  · rw [submit_of_finalized disputes final] at made
    cases made
  · exact .inl same
  · obtain ⟨-, hash, -⟩ := payout_eq_ok_iff.1 paid
    exact .inr ⟨outcome, left, rfl, made, hash, (storage_payout paid id).trans (if_pos rfl)⟩

/-- No event changes the dispute of a finalized channel. -/
theorem sameDispute_step (final : adj.status id = .finalized) (e : Event) :
    (adj.storage id).SameDispute ((adj.step e).storage id) := by
  rcases storage_step_of_finalized final e with same | ⟨_, left, -, -, -, paid⟩
  · rw [same]
    exact .refl _
  · rw [paid]
    exact ChannelStorage.sameDispute_paidDown _ left

/-- A channel that is final stays so over an event that does not set
the clock back. -/
theorem finalized_step (final : adj.status id = .finalized) {e : Event}
    (le : adj.clock ≤ (adj.step e).clock) : (adj.step e).status id = .finalized := by
  -- The end of the challenge time is kept, and it has been reached already.
  show ((adj.step e).storage id).status (adj.step e).now = .finalized
  rw [(sameDispute_step final e).status]
  exact ChannelStorage.status_eq_finalized_of_le (now_le_now le) final

/-- A channel that is final at one point of a run is final at every
later one, with the same record up to the outcome digest. -/
theorem finalized_run {events : List Event} (forward : Forward adj.clock events)
    (final : adj.status id = .finalized) :
    (adj.run events).status id = .finalized ∧
      (adj.storage id).SameDispute ((adj.run events).storage id) :=
  run_induction
    (P := fun later => later.status id = .finalized ∧
      (adj.storage id).SameDispute (later.storage id))
    (fun _ e h le => ⟨finalized_step h.1 le, h.2.trans (sameDispute_step h.1 e)⟩)
    forward ⟨final, .refl _⟩

/-- A run goes forward, and a channel is final at one point of it.
Then the channel is final at every later point, and of its record only
the outcome digest can differ. No challenge, answer, checkpoint or
conclusion succeeds on it. An event that changes the outcome digest is
a payout of the channel that succeeds: the outcome that it names has
the digest that was stored, and the outcome that it gives back has the
digest that is stored next. -/
theorem finalized_forever (adj : Adjudicator) (before after : List Event) (id : Hash)
    (forward : Forward adj.clock (before ++ after))
    (final : (adj.run before).status id = .finalized) :
    let earlier := (adj.run before).storage id
    let later := adj.run (before ++ after)
    later.status id = .finalized ∧
      (later.storage id).turnNumRecord = earlier.turnNumRecord ∧
      (later.storage id).finalizesAt = earlier.finalizesAt ∧
      (later.storage id).stateHash = earlier.stateHash ∧
      (later.storage id).challenger = earlier.challenger ∧
      (∀ x : Call, x.disputes → x.channelId = id →
        later.submit x = .error (.refused .challengeAlreadyActive)) ∧
      ∀ e : Event,
        ((later.step e).storage id).outcomeHash ≠ (later.storage id).outcomeHash →
        ∃ outcome left, e = .call (.payout id outcome) ∧
          later.submit (.payout id outcome) = .ok (.paidOut id left, later.step e) ∧
          outcome.hash = (later.storage id).outcomeHash ∧
          left.hash = ((later.step e).storage id).outcomeHash := by
  intro earlier later
  have rest : Forward (adj.run before).clock after := (forward_append.1 forward).2
  have split : later = (adj.run before).run after := run_append adj before after
  obtain ⟨still, same⟩ := finalized_run rest final
  rw [← split] at still same
  -- The rest is about the point reached, whatever led there.
  refine ⟨still, same.turnNumRecord, same.finalizesAt, same.stateHash, same.challenger, ?_, ?_⟩
  · rintro x disputes rfl
    exact submit_of_finalized disputes still
  · intro e changed
    rcases storage_step_of_finalized still e with kept | ⟨outcome, left, rfl, paid, hash, next⟩
    · exact absurd (congrArg ChannelStorage.outcomeHash kept) changed
    · exact ⟨outcome, left, rfl, paid, hash, by rw [next]; rfl⟩

/-- The channel of the sample is final at time 65. It still is after a
payout, and its record keeps the turn of the challenge. -/
theorem finalized_forever_unanswered :
    let later := Sample.chain.run (Sample.unanswered ++
      [.call (.payout Sample.channel.id Sample.outcome), .tick 70])
    later.status Sample.channel.id = .finalized ∧
      (later.storage Sample.channel.id).turnNumRecord =
        ((Sample.chain.run Sample.unanswered).storage Sample.channel.id).turnNumRecord ∧
      later.submit Sample.challenge = .error (.refused .challengeAlreadyActive) := by
  intro later
  obtain ⟨final, turn, -, -, -, refused, -⟩ :=
    finalized_forever Sample.chain Sample.unanswered
      [.call (.payout Sample.channel.id Sample.outcome), .tick 70] Sample.channel.id
      (by decide) Sample.status_unanswered
  exact ⟨final, turn, refused Sample.challenge rfl rfl⟩

end Adjudicator

end StateChannels
