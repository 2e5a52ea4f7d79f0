import StateChannels.Adjudicator.Call

/-!
# `StateChannels.Proofs.Adjudicator.Calls`: what a call checks and what it writes

For each call of the adjudicator, one equivalence says when the call
succeeds and what it then leaves behind (`challenge_eq_ok_iff` to
`payout_eq_ok_iff`). The other modules on the adjudicator use these
equivalences and do not open the calls again.

`submit_cases` sorts the calls by what they write. A dispute call
writes the record of its channel. A deposit writes one of the
holdings. A payout writes holdings and withdrawals, and the outcome
digest of its channel.

`submit_of_finalized` and `submit_of_stale` are about the calls that
name the turn number record they expect: what is refused before
anything else is looked at.
-/

set_option autoImplicit false

namespace StateChannels

/-! ### Kinds of calls -/

namespace Call

/-- The turn number record that the caller expects. A conclusion, a
deposit and a payout do not name one. -/
def expected? : Call → Option TurnNum
  | challenge _ expected .. => some expected
  | respond _ expected .. => some expected
  | respondWithAlternative _ expected _ => some expected
  | checkpoint _ expected _ => some expected
  | conclude .. | deposit .. | payout .. => none

/-- Whether the call has a place in the dispute about its channel. -/
def disputes : Call → Bool
  | challenge .. | respond .. | respondWithAlternative .. | checkpoint .. | conclude .. => true
  | deposit .. | payout .. => false

/-- Whether the call moves the turn number record on. A checkpoint may
leave it where it is. -/
def advances : Call → Bool
  | challenge .. | respond .. | respondWithAlternative .. => true
  | checkpoint .. | conclude .. | deposit .. | payout .. => false

end Call

/-- The record of a channel that was challenged with `latest`. -/
def ChannelStorage.challenged (now : Seconds) (latest : State) (challenger : Address) :
    ChannelStorage where
  turnNumRecord := latest.turnNum
  finalizesAt := now.addCapped latest.challengeDuration
  stateHash := latest.hash
  challenger
  outcomeHash := latest.outcome.hash

/-- The record of a channel that was concluded with `outcome`. -/
def ChannelStorage.concluded (now : Seconds) (outcome : Outcome) : ChannelStorage :=
  { finalizesAt := now, outcomeHash := outcome.hash }

/-- The record of a channel whose outcome was paid down to `left`. -/
def ChannelStorage.paidDown (s : ChannelStorage) (left : Outcome) : ChannelStorage :=
  { s with outcomeHash := left.hash }

/-- What a payout in one asset gives to external addresses. -/
def AssetPayout.withdrawals (id : Hash) (p : AssetPayout) : List Withdrawal :=
  p.payments.filterMap (Payment.withdrawal? p.assetHolder id)

namespace Adjudicator

open Transaction (commit_look_bind commit_look_eq_ok_iff commit_check_eq_ok_iff
  commit_see_bind commit_write_bind commit_elapse_bind commit_pure_eq_ok_iff)

variable {adj next : Adjudicator} {c : Channel} {p : SupportProof} {id : Hash}
  {expected : TurnNum} {s : ChannelStorage}

/-- The payouts of a channel under an outcome, asset by asset. -/
def payouts (adj : Adjudicator) (id : Hash) (outcome : Outcome) : List AssetPayout :=
  outcome.assets.filterMap (adj.assetPayout? id)

/-- What is left of an outcome after its payout. -/
def remaining (adj : Adjudicator) (id : Hash) (outcome : Outcome) : Outcome :=
  ⟨outcome.assets.map (adj.remainingAsset id)⟩

/-! ### Checks that calls share -/

/-- A call on an open channel passes when the channel is not finalized and
the record is as expected. -/
theorem unfinalized_eq_ok_iff :
    adj.unfinalized id expected = .ok s ↔
      adj.status id ≠ .finalized ∧ (adj.storage id).turnNumRecord = expected ∧
        s = adj.storage id := by
  unfold unfinalized refuse
  by_cases final : adj.status id = .finalized
  · simp [final]
  · by_cases stale : (adj.storage id).turnNumRecord = expected <;>
      simp [final, stale, eq_comm]

/-- A call on a challenged channel passes when there is a challenge and the
record is as expected. -/
theorem underChallenge_eq_ok_iff :
    adj.underChallenge id expected = .ok s ↔
      adj.status id = .challenged ∧ (adj.storage id).turnNumRecord = expected ∧
        s = adj.storage id := by
  unfold underChallenge refuse
  simp only [bind_eq_ok_iff, unfinalized_eq_ok_iff]
  by_cases active : adj.status id = .challenged <;>
    simp [active, pure, Except.pure, eq_comm]

/-- An application is found under its address. -/
theorem app_eq_ok_iff {address : Address} {app : App} :
    adj.app address = .ok app ↔ adj.apps.get? address = some app := by
  unfold Adjudicator.app refuse
  cases h : adj.apps.get? address <;> simp

/-- A proof is accepted under the rule that is registered for its last
state, and the result is the support of that state. -/
theorem validate_eq_ok_iff {supported : Supported} :
    adj.validate c p = .ok supported ↔
      ∃ latest app, p.latest? = some latest ∧ adj.apps.get? latest.appDefinition = some app ∧
        p.validate c (some app) = .ok supported := by
  unfold validate app refuse
  -- Without a last state there is no rule to look up, and the proof is refused as empty.
  cases p.latest? with
  | none => simp
  | some latest =>
    cases h : adj.apps.get? latest.appDefinition with
    | none => simp [h, bind, Except.bind]
    | some app => simp [h, bind, Except.bind, mapError_eq_ok_iff]

/-- A valid proof has a latest state, and this is what it supports. -/
theorem latest?_of_validate {supported : Supported} (h : adj.validate c p = .ok supported) :
    ∃ latest, p.latest? = some latest ∧ supported = .ofState latest := by
  obtain ⟨latest, app, found, _, accepted⟩ := validate_eq_ok_iff.1 h
  obtain ⟨latest', found', -, -, -, -, -, -, rfl⟩ := SupportProof.validate_eq_ok_iff.1 accepted
  exact ⟨latest', found', rfl⟩

/-- The adjudicator recovers signers as the library does. -/
theorem recover_eq_ok_iff {digest : Hash} {signature : Signature} {a : Address} :
    recover digest signature = .ok a ↔ recoverSigner digest signature = .ok a :=
  Failure.ofRule_eq_ok_iff

/-- A challenge is answered at the turn after it. -/
theorem responseTurn_eq_ok_iff {turn actual t : TurnNum} :
    responseTurn turn actual = .ok t ↔ t = actual ∧ actual.toNat = turn.toNat + 1 := by
  unfold responseTurn refuse
  cases h : turn.succ? with
  | none =>
    have last : ¬actual.toNat = turn.toNat + 1 := fun e => by
      simp [TurnNum.succ?_eq_some_iff.2 e] at h
    simp [last]
  | some u =>
    have next := TurnNum.succ?_eq_some_iff.1 h
    by_cases same : actual = u
    · simp [same, next, eq_comm]
    · have other : ¬actual.toNat = turn.toNat + 1 := fun e =>
        same (UInt64.toNat_inj.1 (e.trans next.symm))
      simp [same, other]

/-! ### The calls one by one -/

/-- A challenge whose two looks at the clock may give different times.
The first one says whether the channel is final, and the challenge time
counts from the second one. -/
theorem commit_challenge_eq_ok_iff {lapse : Lapse} {signature : Signature} :
    (Transaction.challenge lapse c expected p signature).commit adj = .ok (s, next) ↔
      adj.status c.id ≠ .finalized ∧ (adj.storage c.id).turnNumRecord = expected ∧
        ∃ latest challenger, p.latest? = some latest ∧
          adj.validate c p = .ok (.ofState latest) ∧ expected < latest.turnNum ∧
          recoverSigner latest.challengeHash signature = .ok challenger ∧
          challenger ∈ c.participants ∧
          s = .challenged (adj.atTime (lapse adj.clock)).now latest challenger ∧
          next = (adj.atTime (lapse adj.clock)).setStorage c.id s := by
  unfold Transaction.challenge
  simp only [commit_look_eq_ok_iff, commit_check_eq_ok_iff, unfinalized_eq_ok_iff]
  constructor
  · rintro ⟨stored, ⟨running, rfl, rfl⟩, supported, accepted, later, h⟩
    obtain ⟨latest, found, rfl⟩ := latest?_of_validate accepted
    simp only [found, commit_look_eq_ok_iff, commit_check_eq_ok_iff, commit_elapse_bind,
      commit_see_bind, commit_write_bind, commit_pure_eq_ok_iff, recover_eq_ok_iff,
      Prod.mk.injEq, Decidable.not_not] at h
    obtain ⟨challenger, recovered, member, rfl, rfl⟩ := h
    exact ⟨running, rfl, latest, challenger, found, accepted, UInt64.not_le.1 later,
      recovered, member, rfl, rfl⟩
  · rintro ⟨running, rfl, latest, challenger, found, accepted, later, recovered, member,
      rfl, rfl⟩
    refine ⟨_, ⟨running, rfl, rfl⟩, _, accepted, UInt64.not_le.2 later, ?_⟩
    simp only [found, commit_look_eq_ok_iff, commit_check_eq_ok_iff, recover_eq_ok_iff]
    exact ⟨challenger, recovered, not_not_intro member, rfl⟩

/-- A challenge succeeds with a valid proof of a later state, which a
participant signed as a challenge. -/
theorem challenge_eq_ok_iff {signature : Signature} :
    adj.challenge c expected p signature = .ok (s, next) ↔
      adj.status c.id ≠ .finalized ∧ (adj.storage c.id).turnNumRecord = expected ∧
        ∃ latest challenger, p.latest? = some latest ∧
          adj.validate c p = .ok (.ofState latest) ∧ expected < latest.turnNum ∧
          recoverSigner latest.challengeHash signature = .ok challenger ∧
          challenger ∈ c.participants ∧
          s = .challenged adj.now latest challenger ∧ next = adj.setStorage c.id s :=
  commit_challenge_eq_ok_iff

/-- A response succeeds with a valid next state that its mover signed. -/
theorem respond_eq_ok_iff {challenged : State} {response : SignedState} :
    adj.respond c expected challenged response = .ok (s, next) ↔
      adj.status c.id = .challenged ∧ (adj.storage c.id).turnNumRecord = expected ∧
        challenged.hash = (adj.storage c.id).stateHash ∧
        response.state.turnNum.toNat = expected.toNat + 1 ∧
        response.state.channelId = c.id ∧
        recoverSigner response.state.hash response.signature =
          .ok (c.mover response.state.turnNum) ∧
        (∃ app, adj.app challenged.appDefinition = .ok app ∧
          app.validTransition challenged response.state c.size = .ok true) ∧
        s = .cleared response.state.turnNum ∧ next = adj.setStorage c.id s := by
  unfold respond Transaction.respond
  simp only [commit_look_eq_ok_iff, commit_check_eq_ok_iff, commit_write_bind,
    commit_pure_eq_ok_iff, underChallenge_eq_ok_iff, responseTurn_eq_ok_iff, recover_eq_ok_iff,
    Failure.ofCounter_eq_ok_iff, ne_eq, Decidable.not_not, Bool.not_eq_true',
    Bool.not_eq_false, Prod.mk.injEq]
  constructor
  · rintro ⟨stored, ⟨active, rfl, rfl⟩, same, turn, ⟨rfl, step⟩, channel, _, recovered, rfl,
      app, registered, _, valid, rfl, rfl, rfl⟩
    exact ⟨active, rfl, same, step, channel, recovered, ⟨app, registered, valid⟩, rfl, rfl⟩
  · rintro ⟨active, rfl, same, step, channel, recovered, ⟨app, registered, valid⟩, rfl, rfl⟩
    exact ⟨_, ⟨active, rfl, rfl⟩, same, _, ⟨rfl, step⟩, channel, _, recovered, rfl,
      app, registered, _, valid, rfl, rfl, rfl⟩

/-- An alternative succeeds with a valid proof of a later state. -/
theorem respondWithAlternative_eq_ok_iff :
    adj.respondWithAlternative c expected p = .ok (s, next) ↔
      adj.status c.id = .challenged ∧ (adj.storage c.id).turnNumRecord = expected ∧
        ∃ latest, p.latest? = some latest ∧ adj.validate c p = .ok (.ofState latest) ∧
          expected < latest.turnNum ∧
          s = .cleared latest.turnNum ∧ next = adj.setStorage c.id s := by
  unfold respondWithAlternative Transaction.respondWithAlternative
  simp only [commit_look_eq_ok_iff, commit_check_eq_ok_iff, commit_write_bind,
    commit_pure_eq_ok_iff, underChallenge_eq_ok_iff, UInt64.not_le, Prod.mk.injEq]
  constructor
  · rintro ⟨stored, ⟨active, rfl, rfl⟩, supported, accepted, later, rfl, rfl⟩
    obtain ⟨latest, found, rfl⟩ := latest?_of_validate accepted
    exact ⟨active, rfl, latest, found, accepted, later, rfl, rfl⟩
  · rintro ⟨active, rfl, latest, -, accepted, later, rfl, rfl⟩
    exact ⟨_, ⟨active, rfl, rfl⟩, _, accepted, later, rfl, rfl⟩

/-- A checkpoint succeeds with a valid proof of a state that is not earlier
than the record. -/
theorem checkpoint_eq_ok_iff :
    adj.checkpoint c expected p = .ok (s, next) ↔
      adj.status c.id ≠ .finalized ∧ (adj.storage c.id).turnNumRecord = expected ∧
        ∃ latest, p.latest? = some latest ∧ adj.validate c p = .ok (.ofState latest) ∧
          expected ≤ latest.turnNum ∧
          s = .cleared latest.turnNum ∧ next = adj.setStorage c.id s := by
  unfold checkpoint Transaction.checkpoint
  simp only [commit_look_eq_ok_iff, commit_check_eq_ok_iff, commit_write_bind,
    commit_pure_eq_ok_iff, unfinalized_eq_ok_iff, UInt64.not_lt, Prod.mk.injEq]
  constructor
  · rintro ⟨stored, ⟨running, rfl, rfl⟩, supported, accepted, later, rfl, rfl⟩
    obtain ⟨latest, found, rfl⟩ := latest?_of_validate accepted
    exact ⟨running, rfl, latest, found, accepted, later, rfl, rfl⟩
  · rintro ⟨running, rfl, latest, -, accepted, later, rfl, rfl⟩
    exact ⟨_, ⟨running, rfl, rfl⟩, _, accepted, later, rfl, rfl⟩

/-- A conclusion whose two looks at the clock may give different times.
The channel is final from the second one on. -/
theorem commit_conclude_eq_ok_iff {lapse : Lapse} :
    (Transaction.conclude lapse c p).commit adj = .ok (s, next) ↔
      adj.status c.id ≠ .finalized ∧ (∀ state ∈ p.states, state.isFinal) ∧
        ∃ latest, p.latest? = some latest ∧ adj.validate c p = .ok (.ofState latest) ∧
          s = .concluded (adj.atTime (lapse adj.clock)).now latest.outcome ∧
          next = (adj.atTime (lapse adj.clock)).setStorage c.id s := by
  unfold Transaction.conclude
  -- The check looks for a state that is not final, the statement asks each to be final.
  have allFinal : (¬(p.states.any fun state => !state.isFinal) = true) ↔
      ∀ state ∈ p.states, state.isFinal := by simp
  simp only [commit_look_eq_ok_iff, commit_check_eq_ok_iff, commit_see_bind,
    commit_elapse_bind, commit_write_bind, commit_pure_eq_ok_iff, allFinal, Prod.mk.injEq]
  constructor
  · rintro ⟨running, final, supported, accepted, rfl, rfl⟩
    obtain ⟨latest, found, rfl⟩ := latest?_of_validate accepted
    exact ⟨running, final, latest, found, accepted, rfl, rfl⟩
  · rintro ⟨running, final, latest, -, accepted, rfl, rfl⟩
    exact ⟨running, final, _, accepted, rfl, rfl⟩

/-- A conclusion succeeds with a valid proof all of whose states are final. -/
theorem conclude_eq_ok_iff :
    adj.conclude c p = .ok (s, next) ↔
      adj.status c.id ≠ .finalized ∧ (∀ state ∈ p.states, state.isFinal) ∧
        ∃ latest, p.latest? = some latest ∧ adj.validate c p = .ok (.ofState latest) ∧
          s = .concluded adj.now latest.outcome ∧ next = adj.setStorage c.id s :=
  commit_conclude_eq_ok_iff

/-- A deposit succeeds when the channel holds what is expected, and pays up
to its target. -/
theorem deposit_eq_ok_iff {assetHolder : Address} {d : Destination}
    {expected amount paid : Uint256} :
    adj.deposit assetHolder d expected amount = .ok (paid, next) ↔
      d.isExternal = false ∧ expected ≤ adj.held assetHolder d ∧
        ∃ target : Uint256, target.toNat = expected.toNat + amount.toNat ∧
          adj.held assetHolder d < target ∧
          paid = target.monus (adj.held assetHolder d) ∧
          next = { adj with holdings := adj.holdings.insert (assetHolder, d) target } := by
  unfold deposit Transaction.deposit
  simp only [commit_look_eq_ok_iff, commit_check_eq_ok_iff, commit_see_bind,
    commit_write_bind, commit_pure_eq_ok_iff, Failure.ofRule_eq_ok_iff,
    Uint256.addOrRefuse_eq_ok_iff, Bool.not_eq_true, Uint256.lt_iff, Uint256.le_iff,
    Nat.not_lt, Nat.not_le, Prod.mk.injEq]

/-- A payout succeeds on a finalized channel with the recorded outcome, when
the holdings can be added. -/
theorem payout_eq_ok_iff {outcome left : Outcome} :
    adj.payout id outcome = .ok (left, next) ↔
      adj.status id = .finalized ∧ outcome.hash = (adj.storage id).outcomeHash ∧
        ∃ holdings, adj.holdingsAfter id (adj.payouts id outcome) = .ok holdings ∧
          left = adj.remaining id outcome ∧
          next = { adj with
              holdings
              withdrawals := adj.withdrawals ++
                (adj.payouts id outcome).flatMap (AssetPayout.withdrawals id)
            }.setStorage id ((adj.storage id).paidDown left) := by
  unfold payout Transaction.payout
  simp only [commit_look_eq_ok_iff, commit_check_eq_ok_iff, commit_see_bind,
    commit_write_bind, commit_pure_eq_ok_iff, Failure.ofRule_eq_ok_iff, ne_eq,
    Decidable.not_not, Prod.mk.injEq]
  constructor
  · rintro ⟨final, same, holdings, paid, rfl, rfl⟩
    exact ⟨final, same, holdings, paid, rfl, rfl⟩
  · rintro ⟨final, same, holdings, paid, rfl, rfl⟩
    exact ⟨final, same, holdings, paid, rfl, rfl⟩

/-! ### Calls as values -/

/-- A challenge that succeeds gives back the record it wrote. -/
theorem submit_of_challenge {signature : Signature}
    (h : adj.challenge c expected p signature = .ok (s, next)) :
    adj.submit (.challenge c expected p signature) = .ok (.storage c.id s, next) := by
  rw [submit_eq]
  exact map_eq_ok_iff.2 ⟨_, h, rfl⟩

/-- A conclusion that succeeds gives back the record it wrote. -/
theorem submit_of_conclude (h : adj.conclude c p = .ok (s, next)) :
    adj.submit (.conclude c p) = .ok (.storage c.id s, next) := by
  rw [submit_eq]
  exact map_eq_ok_iff.2 ⟨_, h, rfl⟩

/-- A deposit that succeeds gives back what was paid. -/
theorem submit_of_deposit {assetHolder : Address} {d : Destination} {expected amount paid : Uint256}
    (h : adj.deposit assetHolder d expected amount = .ok (paid, next)) :
    adj.submit (.deposit assetHolder d expected amount) = .ok (.deposited d paid, next) := by
  rw [submit_eq]
  exact map_eq_ok_iff.2 ⟨_, h, rfl⟩

/-- A payout that succeeds gives back what is left of the outcome. -/
theorem submit_of_payout {outcome left : Outcome} (h : adj.payout id outcome = .ok (left, next)) :
    adj.submit (.payout id outcome) = .ok (.paidOut id left, next) := by
  rw [submit_eq]
  exact map_eq_ok_iff.2 ⟨_, h, rfl⟩

/-- A call of each kind, and what it wrote. -/
theorem submit_cases {x : Call} {receipt : Receipt}
    (h : adj.submit x = .ok (receipt, next)) :
    (x.disputes ∧ ∃ s, receipt = .storage x.channelId s ∧
      next = adj.setStorage x.channelId s) ∨
    (∃ assetHolder d expected amount paid, x = .deposit assetHolder d expected amount ∧
      receipt = .deposited d paid ∧
      adj.deposit assetHolder d expected amount = .ok (paid, next)) ∨
    (∃ id outcome left, x = .payout id outcome ∧ receipt = .paidOut id left ∧
      adj.payout id outcome = .ok (left, next)) := by
  rw [submit_eq] at h
  -- The five dispute calls make their receipts alike.
  have dispute : ∀ {c : Channel} {made : Except (Failure AdjudicatorError) _},
      Receipt.ofDispute c <$> made = .ok (receipt, next) →
      ∃ s, made = .ok (s, next) ∧ receipt = .storage c.id s := by
    intro c made h
    obtain ⟨⟨s, next⟩, succeeded, e⟩ := map_eq_ok_iff.1 h
    cases e
    exact ⟨s, succeeded, rfl⟩
  cases x with
  | challenge c expected p signature =>
    obtain ⟨s, made, rfl⟩ := dispute h
    obtain ⟨-, -, _, _, -, -, -, -, -, -, written⟩ := challenge_eq_ok_iff.1 made
    exact .inl ⟨rfl, s, rfl, written⟩
  | respond c expected challenged response =>
    obtain ⟨s, made, rfl⟩ := dispute h
    obtain ⟨-, -, -, -, -, -, -, -, written⟩ := respond_eq_ok_iff.1 made
    exact .inl ⟨rfl, s, rfl, written⟩
  | respondWithAlternative c expected p =>
    obtain ⟨s, made, rfl⟩ := dispute h
    obtain ⟨-, -, _, -, -, -, -, written⟩ := respondWithAlternative_eq_ok_iff.1 made
    exact .inl ⟨rfl, s, rfl, written⟩
  | checkpoint c expected p =>
    obtain ⟨s, made, rfl⟩ := dispute h
    obtain ⟨-, -, _, -, -, -, -, written⟩ := checkpoint_eq_ok_iff.1 made
    exact .inl ⟨rfl, s, rfl, written⟩
  | conclude c p =>
    obtain ⟨s, made, rfl⟩ := dispute h
    obtain ⟨-, -, _, -, -, -, written⟩ := conclude_eq_ok_iff.1 made
    exact .inl ⟨rfl, s, rfl, written⟩
  | deposit assetHolder d expected amount =>
    obtain ⟨⟨paid, next⟩, made, e⟩ := map_eq_ok_iff.1 h
    cases e
    exact .inr (.inl ⟨_, _, _, _, paid, rfl, rfl, made⟩)
  | payout id outcome =>
    obtain ⟨⟨left, next⟩, made, e⟩ := map_eq_ok_iff.1 h
    cases e
    exact .inr (.inr ⟨_, _, left, rfl, rfl, made⟩)

/-- The record that a dispute call writes is that of a challenge, of a
conclusion, or a cleared one. Only a conclusion can lower the turn
number. -/
theorem dispute_cases {x : Call} {receipt : Receipt} (disputes : x.disputes)
    (h : adj.submit x = .ok (receipt, next)) :
    (∃ c e p signature latest challenger, x = .challenge c e p signature ∧
      p.latest? = some latest ∧ (adj.storage x.channelId).turnNumRecord < latest.turnNum ∧
      next.storage x.channelId = .challenged adj.now latest challenger) ∨
    (∃ c p latest, x = .conclude c p ∧ p.latest? = some latest ∧
      next.storage x.channelId = .concluded adj.now latest.outcome) ∨
    ∃ t, (adj.storage x.channelId).turnNumRecord ≤ t ∧
      next.storage x.channelId = .cleared t := by
  rw [submit_eq] at h
  -- Every dispute call writes the record of its own channel.
  have written : ∀ {c : Channel} {s : ChannelStorage}, (adj.setStorage c.id s).storage c.id = s :=
    fun {c s} => by rw [storage_setStorage, if_pos rfl]
  cases x with
  | challenge c e p signature =>
    obtain ⟨⟨s, _⟩, made, ⟨⟩⟩ := map_eq_ok_iff.1 h
    obtain ⟨-, rfl, latest, challenger, found, -, later, -, -, rfl, rfl⟩ :=
      challenge_eq_ok_iff.1 made
    exact .inl ⟨c, _, p, signature, latest, challenger, rfl, found, later, written⟩
  | conclude c p =>
    obtain ⟨⟨s, _⟩, made, ⟨⟩⟩ := map_eq_ok_iff.1 h
    obtain ⟨-, -, latest, found, -, rfl, rfl⟩ := conclude_eq_ok_iff.1 made
    exact .inr (.inl ⟨c, p, latest, rfl, found, written⟩)
  | respond c e challenged response =>
    obtain ⟨⟨s, _⟩, made, ⟨⟩⟩ := map_eq_ok_iff.1 h
    obtain ⟨-, rfl, -, turn, -, -, -, rfl, rfl⟩ := respond_eq_ok_iff.1 made
    exact .inr (.inr ⟨_, UInt64.le_iff_toNat_le.2 (turn ▸ Nat.le_succ _), written⟩)
  | respondWithAlternative c e p =>
    obtain ⟨⟨s, _⟩, made, ⟨⟩⟩ := map_eq_ok_iff.1 h
    obtain ⟨-, rfl, latest, -, -, later, rfl, rfl⟩ := respondWithAlternative_eq_ok_iff.1 made
    exact .inr (.inr ⟨_, UInt64.le_of_lt later, written⟩)
  | checkpoint c e p =>
    obtain ⟨⟨s, _⟩, made, ⟨⟩⟩ := map_eq_ok_iff.1 h
    obtain ⟨-, rfl, latest, -, -, notBefore, rfl, rfl⟩ := checkpoint_eq_ok_iff.1 made
    exact .inr (.inr ⟨_, notBefore, written⟩)
  | deposit | payout => cases disputes

/-- No call changes the clock. -/
theorem clock_submit {x : Call} {receipt : Receipt}
    (h : adj.submit x = .ok (receipt, next)) : next.clock = adj.clock := by
  rcases submit_cases h with ⟨-, s, -, rfl⟩ | ⟨_, _, _, _, _, -, -, made⟩ |
    ⟨_, _, _, -, -, made⟩
  · rfl
  · obtain ⟨-, -, _, -, -, -, rfl⟩ := deposit_eq_ok_iff.1 made
    rfl
  · obtain ⟨-, -, _, -, -, rfl⟩ := payout_eq_ok_iff.1 made
    rfl

/-- A deposit changes no storage. -/
theorem storage_deposit {assetHolder : Address} {d : Destination} {expected amount paid : Uint256}
    (h : adj.deposit assetHolder d expected amount = .ok (paid, next)) :
    next.storage id = adj.storage id := by
  obtain ⟨-, -, _, -, -, -, rfl⟩ := deposit_eq_ok_iff.1 h
  rfl

/-- A payout replaces the outcome digest of its channel. -/
theorem storage_payout {outcome left : Outcome} (h : adj.payout id outcome = .ok (left, next))
    (other : Hash) :
    next.storage other =
      if other = id then (adj.storage id).paidDown left else adj.storage other := by
  obtain ⟨-, -, _, -, -, rfl⟩ := payout_eq_ok_iff.1 h
  rw [storage_setStorage]
  rfl

/-- A call about one channel leaves the records of the others. -/
theorem storage_submit_of_ne {x : Call} {receipt : Receipt}
    (h : adj.submit x = .ok (receipt, next)) (ne : x.channelId ≠ id) :
    next.storage id = adj.storage id := by
  rcases submit_cases h with ⟨-, s, -, rfl⟩ | ⟨_, _, _, _, _, -, -, made⟩ |
    ⟨_, _, _, rfl, -, made⟩
  · rw [storage_setStorage, if_neg (Ne.symm ne)]
  · exact storage_deposit made
  · exact (storage_payout made id).trans (if_neg (Ne.symm ne))

/-- The expected record is looked at first: the call is refused with
whatever that finds. -/
theorem submit_of_unfinalized_error {x : Call} {failure : Failure AdjudicatorError}
    (names : x.expected? = some expected)
    (h : adj.unfinalized x.channelId expected = .error failure) :
    adj.submit x = .error failure := by
  rw [submit_eq]
  -- Each of the four calls that name a record starts with `unfinalized`; two of them
  -- reach it through `underChallenge`.
  cases x with
  | challenge c e p signature =>
    cases names
    refine map_eq_error_iff.2 ?_
    rw [challenge, Transaction.challenge, commit_look_bind,
      show adj.unfinalized c.id expected = .error failure from h]
    rfl
  | respond c e challenged response =>
    cases names
    refine map_eq_error_iff.2 ?_
    rw [respond, Transaction.respond, commit_look_bind, underChallenge,
      show adj.unfinalized c.id expected = .error failure from h]
    rfl
  | respondWithAlternative c e p =>
    cases names
    refine map_eq_error_iff.2 ?_
    rw [respondWithAlternative, Transaction.respondWithAlternative, commit_look_bind,
      underChallenge, show adj.unfinalized c.id expected = .error failure from h]
    rfl
  | checkpoint c e p =>
    cases names
    refine map_eq_error_iff.2 ?_
    rw [checkpoint, Transaction.checkpoint, commit_look_bind,
      show adj.unfinalized c.id expected = .error failure from h]
    rfl
  | conclude c p => cases names
  | deposit assetHolder d expected amount => cases names
  | payout id outcome => cases names

/-- A call that names a record out of date is refused as stale. -/
theorem submit_of_stale {x : Call} (names : x.expected? = some expected)
    (running : adj.status x.channelId ≠ .finalized)
    (stale : (adj.storage x.channelId).turnNumRecord ≠ expected) :
    adj.submit x = .error (.refused
      (.staleTurnNumRecord expected (adj.storage x.channelId).turnNumRecord)) :=
  submit_of_unfinalized_error names (by
    rw [unfinalized, if_neg running, if_pos stale]
    rfl)

/-- In a channel that is final no dispute call succeeds. -/
theorem submit_of_finalized {x : Call} (disputes : x.disputes)
    (final : adj.status x.channelId = .finalized) :
    adj.submit x = .error (.refused .challengeAlreadyActive) := by
  -- A conclusion names no record, but checks first that the channel is not final.
  have refused : ∀ e, adj.unfinalized x.channelId e = .error (.refused .challengeAlreadyActive) :=
    fun e => by
      rw [unfinalized, if_pos final]
      rfl
  cases x with
  | challenge c e p signature => exact submit_of_unfinalized_error rfl (refused e)
  | respond c e challenged response => exact submit_of_unfinalized_error rfl (refused e)
  | respondWithAlternative c e p => exact submit_of_unfinalized_error rfl (refused e)
  | checkpoint c e p => exact submit_of_unfinalized_error rfl (refused e)
  | conclude c p =>
    rw [submit_eq]
    refine map_eq_error_iff.2 ?_
    rw [conclude, Transaction.conclude, commit_see_bind,
      if_pos (show adj.status c.id = .finalized from final)]
    rfl
  | deposit assetHolder d expected amount => cases disputes
  | payout id outcome => cases disputes

/-- A call that moves the record on was expecting the record that was
there, and the one it leaves is larger. -/
theorem record_lt_of_advances {x : Call} {receipt : Receipt} (advances : x.advances)
    (h : adj.submit x = .ok (receipt, next)) :
    adj.status x.channelId ≠ .finalized ∧
      x.expected? = some (adj.storage x.channelId).turnNumRecord ∧
      (adj.storage x.channelId).turnNumRecord < (next.storage x.channelId).turnNumRecord := by
  rw [submit_eq] at h
  -- Only three of the calls advance the record, and each demands a later turn.
  cases x with
  | challenge c e p signature =>
    obtain ⟨⟨s, _⟩, made, ⟨⟩⟩ := map_eq_ok_iff.1 h
    obtain ⟨running, rfl, latest, _, -, -, later, -, -, rfl, rfl⟩ := challenge_eq_ok_iff.1 made
    refine ⟨running, rfl, ?_⟩
    show _ < ((adj.setStorage c.id _).storage c.id).turnNumRecord
    rw [storage_setStorage, if_pos rfl]
    exact later
  | respond c e challenged response =>
    obtain ⟨⟨s, _⟩, made, ⟨⟩⟩ := map_eq_ok_iff.1 h
    obtain ⟨active, rfl, -, later, -, -, -, rfl, rfl⟩ := respond_eq_ok_iff.1 made
    refine ⟨by simp [Call.channelId, active], rfl, ?_⟩
    show _ < ((adj.setStorage c.id _).storage c.id).turnNumRecord
    rw [storage_setStorage, if_pos rfl]
    exact UInt64.lt_iff_toNat_lt.2 (later ▸ Nat.lt_succ_self _)
  | respondWithAlternative c e p =>
    obtain ⟨⟨s, _⟩, made, ⟨⟩⟩ := map_eq_ok_iff.1 h
    obtain ⟨active, rfl, latest, -, -, later, rfl, rfl⟩ :=
      respondWithAlternative_eq_ok_iff.1 made
    refine ⟨by simp [Call.channelId, active], rfl, ?_⟩
    show _ < ((adj.setStorage c.id _).storage c.id).turnNumRecord
    rw [storage_setStorage, if_pos rfl]
    exact later
  | checkpoint c e p => cases advances
  | conclude c p => cases advances
  | deposit assetHolder d expected amount => cases advances
  | payout id outcome => cases advances

end Adjudicator

end StateChannels
