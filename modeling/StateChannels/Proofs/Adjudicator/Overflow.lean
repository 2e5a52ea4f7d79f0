import StateChannels.Proofs.Adjudicator.History
import StateChannels.Proofs.Adjudicator.Holdings
import StateChannels.Proofs.Support.Overflow

/-!
# `StateChannels.Proofs.Adjudicator.Overflow`: the calls that have no result

A call of the adjudicator succeeds or is refused with an error. With the
applications of this library there is one more case: a counter may
overflow, and then the call has no result at all. `Call.Stops` says which
calls these are. They all come to two neighbouring states at which the
rule of the ledger channel adds one to the largest count of votes
(`App.Stops`), and they do so before any signature on these states is
checked. Only a response to a challenge is from a participant.

* `validate_eq_overflow_iff`: the check of a proof under the registered
  application.
* `challenge_eq_overflow_iff` to `respond_eq_overflow_iff`,
  `conclude_ne_overflow`, `deposit_ne_overflow` and
  `payout_ne_overflow`: the calls one by one.
* `submit_stops_iff`: on every chain that can be reached, a call stops
  exactly if `Call.Stops` says so. What a call takes from a list by index
  is there, and what it subtracts is not too large.
* `Sample.submit_overcounted`: a challenge that stops. No one signed its
  states.
-/

set_option autoImplicit false

namespace StateChannels

/-- A proof stops under the application that is registered for its last
state. -/
def Adjudicator.StopsOn (adj : Adjudicator) (c : Channel) (p : SupportProof) (o : Overflow) :
    Prop :=
  ∃ latest app, p.latest? = some latest ∧ adj.apps.get? latest.appDefinition = some app ∧
    p.Stops c app o

/-- The call stops over a counter. Conclusions, deposits and payouts do
not. -/
def Call.Stops (adj : Adjudicator) (o : Overflow) : Call → Prop
  | challenge c expected p _ | checkpoint c expected p =>
    adj.status c.id ≠ .finalized ∧ (adj.storage c.id).turnNumRecord = expected ∧
      adj.StopsOn c p o
  | respondWithAlternative c expected p =>
    adj.status c.id = .challenged ∧ (adj.storage c.id).turnNumRecord = expected ∧
      adj.StopsOn c p o
  | respond c expected challenged response =>
    adj.status c.id = .challenged ∧ (adj.storage c.id).turnNumRecord = expected ∧
      challenged.hash = (adj.storage c.id).stateHash ∧
      response.state.turnNum.toNat = expected.toNat + 1 ∧
      response.state.channelId = c.id ∧
      recoverSigner response.state.hash response.signature =
        .ok (c.mover response.state.turnNum) ∧
      ∃ app, adj.apps.get? challenged.appDefinition = some app ∧
        app.Stops challenged response.state c.size o
  | conclude .. | deposit .. | payout .. => False

namespace Adjudicator

open Transaction (look write commit_look_eq_overflow_iff commit_check_eq_overflow_iff
  commit_see_bind Sure sure_pure)

variable {adj : Adjudicator} {c : Channel} {p : SupportProof} {expected : TurnNum}
  {channelId : Hash} {o : Overflow}

/-! ### What only refuses -/

/-- A refusal is a result. -/
theorem refuse_ne_overflow {α : Type} {e : AdjudicatorError} :
    (refuse e : Except (Failure AdjudicatorError) α) ≠ .error (.overflow o) := by
  simp [refuse]

/-- Looking up an open record counts nothing. -/
theorem unfinalized_ne_overflow : adj.unfinalized channelId expected ≠ .error (.overflow o) := by
  unfold unfinalized
  split
  · exact refuse_ne_overflow
  · split
    · exact refuse_ne_overflow
    · simp

/-- Looking up a running challenge counts nothing. -/
theorem underChallenge_ne_overflow :
    adj.underChallenge channelId expected ≠ .error (.overflow o) := by
  intro stopped
  rcases bind_eq_error_iff.1 stopped with stopped | ⟨_, -, stopped⟩
  · exact unfinalized_ne_overflow stopped
  · split at stopped
    · cases stopped
    · exact refuse_ne_overflow stopped

/-- Looking up an application counts nothing. -/
theorem app_ne_overflow {address : Address} : adj.app address ≠ .error (.overflow o) := by
  unfold Adjudicator.app
  split
  · simp
  · exact refuse_ne_overflow

/-- The next turn is compared as a number of any size, so at the last turn
the answer is refused and the call does not stop. -/
theorem responseTurn_ne_overflow {turn actual : TurnNum} :
    responseTurn turn actual ≠ .error (.overflow o) := by
  unfold responseTurn
  split
  · exact refuse_ne_overflow
  · split
    · simp
    · exact refuse_ne_overflow

/-- Recovering a signer counts nothing. -/
theorem recover_ne_overflow {digest : Hash} {signature : Signature} :
    recover digest signature ≠ .error (.overflow o) :=
  Failure.ofRule_ne_overflow _ _

/-! ### The calls one by one -/

/-- The check of a proof stops exactly if the proof stops under the
application of its last state. -/
theorem validate_eq_overflow_iff (provided : adj.apps.Provided) :
    adj.validate c p = .error (.overflow o) ↔ adj.StopsOn c p o := by
  unfold validate StopsOn
  cases p.latest? with
  | none => simp [refuse]
  | some latest =>
    simp only [bind_eq_error_iff, app_ne_overflow, app_eq_ok_iff, false_or,
      Failure.mapError_map_eq_overflow_iff, Option.some.injEq, exists_and_left, exists_eq_left']
    refine exists_congr fun app => and_congr_right fun registered => ?_
    rw [SupportProof.validate_eq_overflow_iff fun _ isApp => by
      cases isApp
      exact provided _ app registered]
    simp

/-- A call that checks a proof, between what only refuses, stops over the
proof. -/
theorem validated_eq_overflow_iff {α β : Type}
    {before : Adjudicator → Except (Failure AdjudicatorError) β}
    {after : β → Supported → Transaction α} (provided : adj.apps.Provided)
    (refuses : before adj ≠ .error (.overflow o))
    (ends : ∀ b x, (after b x).commit adj ≠ .error (.overflow o)) :
    (look before >>= fun b => look (·.validate c p) >>= after b : Transaction α).commit adj =
        .error (.overflow o) ↔
      (∃ b, before adj = .ok b) ∧ adj.StopsOn c p o := by
  rw [commit_look_eq_overflow_iff, or_iff_right refuses]
  constructor
  · rintro ⟨b, passed, stopped⟩
    rcases commit_look_eq_overflow_iff.1 stopped with stopped | ⟨x, -, stopped⟩
    · exact ⟨⟨b, passed⟩, (validate_eq_overflow_iff provided).1 stopped⟩
    · exact absurd stopped (ends b x)
  · rintro ⟨⟨b, passed⟩, stops⟩
    exact ⟨b, passed,
      commit_look_eq_overflow_iff.2 (.inl ((validate_eq_overflow_iff provided).2 stops))⟩

/-- A challenge stops over its proof, if the channel is open with the record
that the call names. -/
theorem challenge_eq_overflow_iff (provided : adj.apps.Provided) {signature : Signature} :
    adj.challenge c expected p signature = .error (.overflow o) ↔
      adj.status c.id ≠ .finalized ∧ (adj.storage c.id).turnNumRecord = expected ∧
        adj.StopsOn c p o := by
  refine (validated_eq_overflow_iff provided unfinalized_ne_overflow
    fun stored x stopped => ?_).trans ?_
  · obtain ⟨-, stopped⟩ := commit_check_eq_overflow_iff.1 stopped
    cases found : p.latest? with
    | none =>
      rw [found] at stopped
      cases stopped
    | some latest =>
      rw [found] at stopped
      rcases commit_look_eq_overflow_iff.1 stopped with stopped | ⟨challenger, -, stopped⟩
      · exact recover_ne_overflow stopped
      · obtain ⟨-, stopped⟩ := commit_check_eq_overflow_iff.1 stopped
        refine Sure.commit_ne_error ?_ stopped
        exact .write_bind (.see_bind fun now => .write_bind (sure_pure _))
  · simp only [unfinalized_eq_ok_iff, exists_and_left, exists_eq, and_true, and_assoc]

/-- So does a checkpoint. -/
theorem checkpoint_eq_overflow_iff (provided : adj.apps.Provided) :
    adj.checkpoint c expected p = .error (.overflow o) ↔
      adj.status c.id ≠ .finalized ∧ (adj.storage c.id).turnNumRecord = expected ∧
        adj.StopsOn c p o := by
  refine (validated_eq_overflow_iff provided unfinalized_ne_overflow
    fun stored x stopped => ?_).trans ?_
  · obtain ⟨-, stopped⟩ := commit_check_eq_overflow_iff.1 stopped
    refine Sure.commit_ne_error ?_ stopped
    exact .write_bind (sure_pure _)
  · simp only [unfinalized_eq_ok_iff, exists_and_left, exists_eq, and_true, and_assoc]

/-- An answer with a proof stops over the proof, if a challenge is running. -/
theorem respondWithAlternative_eq_overflow_iff (provided : adj.apps.Provided) :
    adj.respondWithAlternative c expected p = .error (.overflow o) ↔
      adj.status c.id = .challenged ∧ (adj.storage c.id).turnNumRecord = expected ∧
        adj.StopsOn c p o := by
  refine (validated_eq_overflow_iff provided underChallenge_ne_overflow
    fun stored x stopped => ?_).trans ?_
  · obtain ⟨-, stopped⟩ := commit_check_eq_overflow_iff.1 stopped
    refine Sure.commit_ne_error ?_ stopped
    exact .write_bind (sure_pure _)
  · simp only [underChallenge_eq_ok_iff, exists_and_left, exists_eq, and_true, and_assoc]

/-- Only the rule of the application can stop a response. -/
theorem respond_eq_overflow_iff (provided : adj.apps.Provided) {challenged : State}
    {response : SignedState} :
    adj.respond c expected challenged response = .error (.overflow o) ↔
      adj.status c.id = .challenged ∧ (adj.storage c.id).turnNumRecord = expected ∧
        challenged.hash = (adj.storage c.id).stateHash ∧
        response.state.turnNum.toNat = expected.toNat + 1 ∧
        response.state.channelId = c.id ∧
        recoverSigner response.state.hash response.signature =
          .ok (c.mover response.state.turnNum) ∧
        ∃ app, adj.apps.get? challenged.appDefinition = some app ∧
          app.Stops challenged response.state c.size o := by
  -- After the last check nothing can fail any more.
  have ends : ∀ turn : TurnNum, (do
      write (·.setStorage c.id (.cleared turn))
      return .cleared turn : Transaction ChannelStorage).commit adj ≠ .error (.overflow o) :=
    fun _ => by
      refine Sure.commit_ne_error ?_
      exact .write_bind (sure_pure _)
  unfold respond Transaction.respond
  simp only [commit_look_eq_overflow_iff, commit_check_eq_overflow_iff,
    underChallenge_ne_overflow, underChallenge_eq_ok_iff, responseTurn_ne_overflow,
    responseTurn_eq_ok_iff, recover_ne_overflow, recover_eq_ok_iff, app_ne_overflow,
    app_eq_ok_iff, Failure.ofCounter_eq_overflow_iff, Failure.ofCounter_eq_ok_iff, ends,
    and_false, exists_false, or_false, false_or, ne_eq, Decidable.not_not]
  constructor
  · rintro ⟨stored, ⟨active, rfl, rfl⟩, same, turn, ⟨rfl, step⟩, channel, _, recovered, rfl,
      app, registered, stopped⟩
    exact ⟨active, rfl, same, step, channel, recovered, app, registered,
      (provided _ app registered).validTransition_eq_error_iff.1 stopped⟩
  · rintro ⟨active, rfl, same, step, channel, recovered, app, registered, stops⟩
    exact ⟨_, ⟨active, rfl, rfl⟩, same, _, ⟨rfl, step⟩, channel, _, recovered, rfl, app,
      registered, (provided _ app registered).validTransition_eq_error_iff.2 stops⟩

/-- All states of a conclusion are final, and a final state stops no
rule. -/
theorem conclude_ne_overflow (provided : adj.apps.Provided) :
    adj.conclude c p ≠ .error (.overflow o) := by
  intro stopped
  rw [conclude, Transaction.conclude, commit_see_bind] at stopped
  obtain ⟨-, stopped⟩ := commit_check_eq_overflow_iff.1 stopped
  obtain ⟨final, stopped⟩ := commit_check_eq_overflow_iff.1 stopped
  rcases commit_look_eq_overflow_iff.1 stopped with stopped | ⟨x, -, stopped⟩
  · obtain ⟨latest, app, -, -, stops⟩ := (validate_eq_overflow_iff provided).1 stopped
    obtain ⟨before, prev, next, after, split, -, stops⟩ := stops.neighbours
    have isFinal : next.isFinal := by
      simp only [List.any_eq_true, not_exists, not_and, Bool.not_eq_true',
        Bool.not_eq_false] at final
      exact final next (by simp [split])
    rw [stops.not_final] at isFinal
    cases isFinal
  · refine Sure.commit_ne_error ?_ stopped
    exact .write_bind (.see_bind fun now => .write_bind (sure_pure _))

/-- A deposit does not stop. A sum that is out of range is refused. -/
theorem deposit_ne_overflow {assetHolder : Address} {d : Destination} {amount paid : Uint256} :
    adj.deposit assetHolder d paid amount ≠ .error (.overflow o) := by
  intro stopped
  obtain ⟨-, stopped⟩ := commit_check_eq_overflow_iff.1 stopped
  rw [commit_see_bind] at stopped
  obtain ⟨-, stopped⟩ := commit_check_eq_overflow_iff.1 stopped
  rcases commit_look_eq_overflow_iff.1 stopped with stopped | ⟨target, -, stopped⟩
  · exact Failure.ofRule_ne_overflow _ _ stopped
  · obtain ⟨-, stopped⟩ := commit_check_eq_overflow_iff.1 stopped
    refine Sure.commit_ne_error ?_ stopped
    exact .write_bind (sure_pure _)

/-- A payout does not stop. A credit that is out of range is refused. -/
theorem payout_ne_overflow {outcome : Outcome} :
    adj.payout channelId outcome ≠ .error (.overflow o) := by
  intro stopped
  rw [payout, Transaction.payout, commit_see_bind, commit_see_bind] at stopped
  obtain ⟨-, stopped⟩ := commit_check_eq_overflow_iff.1 stopped
  obtain ⟨-, stopped⟩ := commit_check_eq_overflow_iff.1 stopped
  rw [commit_see_bind, commit_see_bind] at stopped
  rcases commit_look_eq_overflow_iff.1 stopped with stopped | ⟨holdings, -, stopped⟩
  · exact Failure.ofRule_ne_overflow _ _ stopped
  · refine Sure.commit_ne_error ?_ stopped
    exact .write_bind (.write_bind (.write_bind (sure_pure _)))

/-! ### Every call -/

/-- Call by call: it stops exactly if `Call.Stops` says so. -/
theorem submit_eq_overflow_iff (provided : adj.apps.Provided) {x : Call} :
    adj.submit x = .error (.overflow o) ↔ x.Stops adj o := by
  rw [submit_eq]
  cases x with
  | challenge c expected p signature =>
    exact map_eq_error_iff.trans (challenge_eq_overflow_iff provided)
  | respond c expected challenged response =>
    exact map_eq_error_iff.trans (respond_eq_overflow_iff provided)
  | respondWithAlternative c expected p =>
    exact map_eq_error_iff.trans (respondWithAlternative_eq_overflow_iff provided)
  | checkpoint c expected p => exact map_eq_error_iff.trans (checkpoint_eq_overflow_iff provided)
  | conclude c p => exact map_eq_error_iff.trans (iff_false_intro (conclude_ne_overflow provided))
  | deposit assetHolder d expected amount =>
    exact map_eq_error_iff.trans (iff_false_intro deposit_ne_overflow)
  | payout id outcome => exact map_eq_error_iff.trans (iff_false_intro payout_ne_overflow)

/-! ### Chains that can be reached -/

/-- No event changes the rules of the applications. -/
theorem apps_step (adj : Adjudicator) (e : Event) : (adj.step e).apps = adj.apps := by
  rcases step_cases adj e with ⟨clock, -, same, -⟩ | ⟨x, receipt, next, -, made, same, -⟩ |
    ⟨x, failure, -, -, same, -⟩
  · rw [same]
    rfl
  · rw [same]
    rcases submit_cases made with ⟨-, s, -, rfl⟩ | ⟨_, _, _, _, _, -, -, paidIn⟩ |
      ⟨_, _, _, -, -, paidOut⟩
    · rfl
    · obtain ⟨-, -, _, -, -, -, rfl⟩ := deposit_eq_ok_iff.1 paidIn
      rfl
    · obtain ⟨-, -, _, -, -, rfl⟩ := payout_eq_ok_iff.1 paidOut
      rfl
  · rw [same]

/-- The applications on the chain are those that it started with. -/
theorem apps_run (adj : Adjudicator) (events : List Event) : (adj.run events).apps = adj.apps := by
  induction events generalizing adj with
  | nil => rfl
  | cons e events ih => exact (ih (adj.step e)).trans (apps_step adj e)

/-- What is paid for an item is no more than the item, and no more than
the funds that the items before it leave. -/
theorem paid_le_of_serve {available : Uint256} {items : List AllocationItem}
    {before after : List Payment} {m : Payment}
    (served : (Payment.serve available items).1 = before ++ m :: after) :
    m.paid ≤ m.item.amount ∧
      (before.map fun m => m.paid.toNat).sum + m.paid.toNat ≤ available.toNat := by
  constructor
  · have member : m ∈ (Payment.serve available items).1 := by simp [served]
    clear served
    -- The funds shrink from item to item.
    induction items generalizing available with
    | nil => cases member
    | cons item items ih =>
      rcases List.mem_cons.1 member with rfl | member
      · rw [Uint256.le_iff, Uint256.toNat_min]
        exact Nat.min_le_left ..
      · exact ih member
  · have paid := Payment.paid_serve available items
    rw [served, List.map_append, List.sum_append, List.map_cons, List.sum_cons] at paid
    omega

/-- On a chain with applications of this library, after whatever events,
a call stops exactly if `Call.Stops` says so, and so does the check of a
proof with or without such an application. Otherwise there is a result or
a refusal.

Nothing else can go wrong. The check of a proof finds a state and a
signature by index for every participant, and sums of indices fit. And
a payout subtracts from an item and from the funds no more than there
is. -/
theorem submit_stops_iff (clock : Seconds) (apps : AppRegistry) (events : List Event)
    (provided : apps.Provided) :
    (∀ x o, ((start clock apps).run events).submit x = .error (.overflow o) ↔
      x.Stops ((start clock apps).run events) o) ∧
    (∀ (c : Channel) (p : SupportProof) (app? : Option App) (o : Overflow),
      (∀ app ∈ app?, app.Provided) →
        (p.validate c app? = .error (.overflow o) ↔ ∃ app ∈ app?, p.Stops c app o)) ∧
    (∀ (c : Channel) (p : SupportProof) (largest : TurnNum), p.states.length ≤ c.size →
      2 * c.size ≤ 2 ^ 64 →
      SupportProof.checkAssignmentWords p.assignment largest c.size p.states.length =
        Failure.ofRule id
          (SupportProof.checkAssignment p.assignment largest c.size p.states.length)) ∧
    (∀ (c : Channel) (p : SupportProof) (largest : TurnNum) (i : Nat),
      SupportProof.checkAssignment p.assignment largest c.size p.states.length = .ok () →
      p.signatures.length = c.size → i < c.size →
      ∃ index state signature, p.assignment[i]? = some index ∧ p.states[index]? = some state ∧
        p.signatures[i]? = some signature) ∧
    ∀ (available : Uint256) (items : List AllocationItem) (before after : List Payment)
      (m : Payment), (Payment.serve available items).1 = before ++ m :: after →
      m.paid ≤ m.item.amount ∧
        (before.map fun m => m.paid.toNat).sum + m.paid.toNat ≤ available.toNat := by
  refine ⟨?_, ?_, ?_, ?_, ?_⟩
  · intro x o
    have provided : ((start clock apps).run events).apps.Provided := by
      rw [apps_run]
      exact provided
    exact submit_eq_overflow_iff provided
  · intro c p app? o provided
    exact SupportProof.validate_eq_overflow_iff provided
  · intro c p largest few fits
    exact SupportProof.checkAssignmentWords_eq (by omega)
  · intro c p largest i checked length_signatures isIndex
    exact SupportProof.exists_of_checkAssignment checked length_signatures isIndex
  · intro available items before after m served
    exact paid_le_of_serve served

/-! ### A challenge that stops -/

namespace Sample

/-- The state at a turn, in a vote that so many votes are missing in. -/
def inVote (turn : TurnNum) (votes : UInt32) : State :=
  { stateAt turn with appData := ConsensusData.encode ⟨votes, ⟨[]⟩⟩ }

/-- The largest count of votes. -/
def allVotes : UInt32 := UInt32.ofNat (2 ^ 32 - 1)

/-- Two states after the setup. The second one has the largest count. No
one signed them. -/
def overcounted : SupportProof := ⟨[inVote 4 1, inVote 5 allVotes], [], []⟩

/-- The rule of the ledger channel, at the address of the sample. -/
def ledgerApps : AppRegistry := Table.insert ∅ .zero .consensus

/-- The rule of the ledger channel is one of the library's. -/
theorem provided_ledgerApps : ledgerApps.Provided :=
  AppRegistry.provided_empty.insert (.inr (.inr rfl)) .zero

/-- The two states stop under the rule of the ledger channel: it adds one to
the largest count. -/
theorem stops_overcounted : overcounted.Stops channel .consensus .addition where
  length_le := by decide
  channelId s member := by
    rcases List.mem_pair.1 member with rfl | rfl
    · rfl
    · rfl
  neighbours := by
    refine ⟨[], inVote 4 1, inVote 5 allVotes, [], rfl, List.isChain_singleton _, ?_⟩
    have follows : (inVote 5 allVotes).follows (inVote 4 1) :=
      State.follows_iff.2 ⟨rfl, by decide⟩
    have before : ConsensusData.ofState? (inVote 4 1) = .ok ⟨1, ⟨[]⟩⟩ := by
      rw [← toOption_eq_some_iff]
      decide +kernel
    have after : ConsensusData.ofState? (inVote 5 allVotes) = .ok ⟨allVotes, ⟨[]⟩⟩ := by
      rw [← toOption_eq_some_iff]
      decide +kernel
    refine .votes ⟨follows, rfl, rfl, rfl, rfl⟩ (by decide) rfl ⟨?_, ?_, by decide, by decide⟩
    · exact ⟨_, before, by decide⟩
    · exact ⟨_, after, by decide⟩

/-- In a ledger channel of two, whoever sends a proof of two unsigned
states brings the chain to a stop, and whoever checks this proof. -/
theorem submit_overcounted :
    (start 0 ledgerApps).submit (.challenge channel 0 overcounted challengeSignature) =
      .error (.overflow .addition) ∧
    overcounted.validate channel (some .consensus) = .error (.overflow .addition) := by
  constructor
  · refine (submit_eq_overflow_iff provided_ledgerApps).2 ⟨by decide, rfl, _, _, rfl, rfl, ?_⟩
    exact stops_overcounted
  · refine (SupportProof.validate_eq_overflow_iff ?_).2 ⟨_, rfl, stops_overcounted⟩
    rintro _ ⟨⟩
    exact .inr (.inr rfl)

/-- The challenge stops a chain that has run for a while, and the check
of the proof stops off the chain. A conclusion with the same proof does
not stop. -/
theorem submit_stops_overcounted :
    ((start 0 ledgerApps).run [.tick 7]).submit
        (.challenge channel 0 overcounted challengeSignature) = .error (.overflow .addition) ∧
      overcounted.validate channel (some .consensus) = .error (.overflow .addition) ∧
      ∀ o, ((start 0 ledgerApps).run [.tick 7]).submit (.conclude channel overcounted) ≠
        .error (.overflow o) := by
  obtain ⟨submits, validates, -⟩ := submit_stops_iff 0 ledgerApps [.tick 7] provided_ledgerApps
  refine ⟨(submits _ _).2 ⟨by decide, rfl, _, _, rfl, rfl, stops_overcounted⟩, ?_, ?_⟩
  · refine (validates channel overcounted (some .consensus) .addition ?_).2
      ⟨_, rfl, stops_overcounted⟩
    rintro _ ⟨⟩
    exact .inr (.inr rfl)
  · intro o stopped
    exact (submits _ o).1 stopped

end Sample

end Adjudicator

end StateChannels
