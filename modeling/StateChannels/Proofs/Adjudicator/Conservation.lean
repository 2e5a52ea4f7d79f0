import StateChannels.Proofs.Adjudicator.History
import StateChannels.Proofs.Adjudicator.Holdings

/-!
# `StateChannels.Proofs.Adjudicator.Conservation`: the funds over a run

The funds of an asset holder are what it holds for all destinations
and what was withdrawn. Along a run they grow with the deposits, and
they should grow with nothing else.

They do not quite. An outcome can have several allocations for one
asset holder, which all participants signed, and a payout serves each
of them from the funds that the channel held before. `balance_run` has
the exact account: a run adds the deposits, and what its payouts paid
from nothing. `conservation` says when there is nothing of the second
kind. An outcome that `Outcome.validate` accepts never has two
allocations for one asset holder (`overpaid_of_validate`), but a
payout does not ask for that.
-/

set_option autoImplicit false

namespace StateChannels.Adjudicator

variable {adj next : Adjudicator} {x : Call} {receipt : Receipt}

/-- What a call paid in with an asset holder, if it was a deposit. -/
def Entry.deposited (a : Address) (m : Entry) : Nat :=
  match m.call, m.receipt with
  | .deposit b _ _ _, .deposited _ paid => if b = a then paid.toNat else 0
  | _, _ => 0

/-- What a call paid from nothing, if it was a payout. -/
def Entry.overpaid (a : Address) (m : Entry) : Nat :=
  match m.call with
  | .payout id outcome => m.before.overpaid id outcome a
  | _ => 0

/-- The funds of an asset holder: what it holds and what was
withdrawn. -/
noncomputable def balance (adj : Adjudicator) (a : Address) : Nat :=
  (∑ᶠ d, (adj.held a d).toNat) + withdrawnIn a adj.withdrawals

/-- A chain that starts has no funds. -/
theorem balance_start (clock : Seconds) (apps : AppRegistry) (a : Address) :
    (start clock apps).balance a = 0 := by
  show (∑ᶠ _ : Destination, 0) + 0 = 0
  rw [finsum_zero, Nat.add_zero]

/-- One call. -/
theorem balance_submit (h : adj.submit x = .ok (receipt, next)) (a : Address) :
    next.balance a = adj.balance a + Entry.deposited a ⟨adj, x, receipt⟩ +
      Entry.overpaid a ⟨adj, x, receipt⟩ := by
  rcases submit_cases h with ⟨disputes, s, rfl, rfl⟩ | ⟨b, d, e, v, paid, rfl, rfl, made⟩ |
    ⟨id, outcome, left, rfl, rfl, made⟩
  -- A dispute call writes records only.
  · have deposits : Entry.deposited a ⟨adj, x, .storage x.channelId s⟩ = 0 := by
      cases x <;> rfl
    have pays : Entry.overpaid a ⟨adj, x, .storage x.channelId s⟩ = 0 := by
      cases x with
      | payout => cases disputes
      | _ => rfl
    rw [deposits, pays]
    rfl
  · exact balance_deposit made a
  · exact balance_payout made a

/-- An event changes the balance by what it deposits and what it overpays. -/
theorem balance_step (adj : Adjudicator) (e : Event) (a : Address) :
    (adj.step e).balance a = adj.balance a +
      ((adj.noted? e).toList.map (Entry.deposited a)).sum +
      ((adj.noted? e).toList.map (Entry.overpaid a)).sum := by
  rcases step_cases adj e with ⟨clock, rfl, stepped, noted⟩ |
    ⟨x, receipt, next, rfl, made, stepped, noted⟩ | ⟨x, failure, rfl, -, stepped, noted⟩
  · rw [stepped, noted]
    rfl
  · rw [stepped, noted]
    simpa using balance_submit made a
  · rw [stepped, noted]
    rfl

/-- A run adds its deposits to the funds, and what its payouts paid
from nothing. -/
theorem balance_run (adj : Adjudicator) (events : List Event) (a : Address) :
    (adj.run events).balance a = adj.balance a +
      ((adj.journal events).map (Entry.deposited a)).sum +
      ((adj.journal events).map (Entry.overpaid a)).sum := by
  induction events generalizing adj with
  | nil => rfl
  | cons e events ih =>
    have first := balance_step adj e a
    rw [run_cons, ih, journal, List.map_append, List.map_append, List.sum_append, List.sum_append]
    omega

/-! ### When nothing is overpaid -/

/-- Nothing is paid from nothing exactly if the channel had no funds,
or only the last allocation for the asset holder is worth anything. -/
theorem overpaid_eq_zero_iff {id : Hash} {outcome : Outcome} {a : Address} :
    adj.overpaid id outcome a = 0 ↔
      adj.held a (.ofChannel id) = .zero ∨
        ∀ allocation ∈ (outcome.allocationsOf a).dropLast, allocation.amount = 0 := by
  have funds : (adj.held a (.ofChannel id)).toNat = 0 ↔ adj.held a (.ofChannel id) = .zero := by
    rw [Uint256.ext_iff]
    rfl
  rw [overpaid, List.sum_eq_zero_iff, List.forall_mem_map, ← funds]
  constructor
  · intro h
    by_cases nothing : (adj.held a (.ofChannel id)).toNat = 0
    · exact .inl nothing
    · right
      intro allocation member
      have := h allocation member
      omega
  · rintro (nothing | worthless) allocation member
    · rw [nothing, Nat.zero_min]
    · rw [worthless allocation member, Nat.min_zero]

/-- Nothing is overpaid when the channel has no funds, or when only the last
entry of the asset holder has amounts. -/
theorem Entry.overpaid_eq_zero_iff {a : Address} {m : Entry} :
    m.overpaid a = 0 ↔ ∀ id outcome, m.call = .payout id outcome →
      m.before.held a (.ofChannel id) = .zero ∨
        ∀ allocation ∈ (outcome.allocationsOf a).dropLast, allocation.amount = 0 := by
  obtain ⟨before, call, receipt⟩ := m
  cases call with
  | payout id outcome =>
    refine Adjudicator.overpaid_eq_zero_iff.trans ⟨?_, fun h => h id outcome rfl⟩
    rintro h id' outcome' same
    cases same
    exact h
  | _ => exact iff_of_true rfl fun id outcome same => by cases same

/-- With distinct asset holders an outcome has one allocation at most
for each. -/
theorem length_allocationsOf {outcome : Outcome} (a : Address)
    (distinct : (outcome.assets.map AssetOutcome.assetHolder).Nodup) :
    (outcome.allocationsOf a).length ≤ 1 := by
  -- The entries for `a` have one asset holder, and a list without repeats holds it once.
  let mine := outcome.assets.filter fun asset => asset.assetHolder = a
  have same : mine.map AssetOutcome.assetHolder = List.replicate mine.length a := by
    refine List.eq_replicate_iff.2 ⟨List.length_map _, ?_⟩
    intro b member
    obtain ⟨asset, kept, rfl⟩ := List.mem_map.1 member
    simpa using (List.mem_filter.1 kept).2
  have nodup : (mine.map AssetOutcome.assetHolder).Nodup :=
    distinct.sublist (List.filter_sublist.map _)
  rw [same, List.nodup_replicate] at nodup
  exact Nat.le_trans (List.length_filterMap_le _ _) nodup

/-- Nothing is paid from nothing when the asset holders are distinct. -/
theorem overpaid_of_nodup {id : Hash} {outcome : Outcome}
    (distinct : (outcome.assets.map AssetOutcome.assetHolder).Nodup) (a : Address) :
    adj.overpaid id outcome a = 0 := by
  have few := length_allocationsOf a distinct
  have none : (outcome.allocationsOf a).dropLast = [] := by
    rw [← List.length_eq_zero_iff, List.length_dropLast]
    omega
  rw [overpaid, none]
  rfl

/-- So it is under an outcome that is well formed. -/
theorem overpaid_of_validate {id : Hash} {outcome : Outcome} (h : outcome.validate = .ok ())
    (a : Address) : adj.overpaid id outcome a = 0 :=
  overpaid_of_nodup (Outcome.validate_eq_ok_iff.1 h).1 a

/-- When every payout of a run names an outcome that is well formed,
the run adds its deposits to the funds and nothing else. -/
theorem balance_run_of_valid {events : List Event} (a : Address)
    (valid : ∀ m ∈ adj.journal events, ∀ id outcome, m.call = .payout id outcome →
      outcome.validate = .ok ()) :
    (adj.run events).balance a =
      adj.balance a + ((adj.journal events).map (Entry.deposited a)).sum := by
  have nothing : ((adj.journal events).map (Entry.overpaid a)).sum = 0 := by
    rw [List.sum_eq_zero_iff, List.forall_mem_map]
    intro m member
    obtain ⟨before, call, receipt⟩ := m
    cases call with
    | payout id outcome => exact overpaid_of_validate (valid _ member id outcome rfl) a
    | _ => rfl
  rw [balance_run, nothing, Nat.add_zero]

/-- The account of every run from the start, for one asset holder.

What it holds for all destinations and what was withdrawn is what was
deposited, and what payouts paid from nothing. So the funds are
conserved exactly if each payout that succeeded was harmless: the
channel had no funds with the asset holder, or of the allocations for
it in the outcome all but the last are worth nothing. -/
theorem conservation (clock : Seconds) (apps : AppRegistry) (events : List Event) (a : Address) :
    let journal := (start clock apps).journal events
    let now := (start clock apps).run events
    (∑ᶠ d, (now.held a d).toNat) + withdrawnIn a now.withdrawals =
        (journal.map (Entry.deposited a)).sum + (journal.map (Entry.overpaid a)).sum ∧
      ((∑ᶠ d, (now.held a d).toNat) + withdrawnIn a now.withdrawals =
          (journal.map (Entry.deposited a)).sum ↔
        ∀ m ∈ journal, ∀ id outcome, m.call = .payout id outcome →
          m.before.held a (.ofChannel id) = .zero ∨
            ∀ allocation ∈ (outcome.allocationsOf a).dropLast, allocation.amount = 0) := by
  intro journal now
  have account : now.balance a = (journal.map (Entry.deposited a)).sum +
      (journal.map (Entry.overpaid a)).sum := by
    have h := balance_run (start clock apps) events a
    rwa [balance_start, Nat.zero_add] at h
  have nothing : (journal.map (Entry.overpaid a)).sum = 0 ↔ ∀ m ∈ journal, m.overpaid a = 0 := by
    rw [List.sum_eq_zero_iff, List.forall_mem_map]
  refine ⟨account, ?_⟩
  -- By the account, the funds are the deposits exactly if the rest is zero.
  simp only [← Entry.overpaid_eq_zero_iff, ← nothing]
  show now.balance a = _ ↔ _
  omega

/-- After the challenge has timed out, ten units are deposited for the
channel, and its outcome is paid out: ten to Alice and ten to Bob. -/
def Sample.overdrawn : List Event :=
  Sample.unanswered ++
    [.call (.deposit .zero (.ofChannel Sample.channel.id) .zero Sample.ten),
      .call (.payout Sample.channel.id Sample.outcome)]

namespace Sample

/-- The chain with the ten units in. -/
def tenDeposited : Adjudicator :=
  { ((chain.atTime 5).setStorage channel.id challenged).atTime 65 with
    holdings := Table.insert ∅ (.zero, .ofChannel channel.id) ten }

/-- Nothing was held before, so the deposit pays ten units in. -/
theorem submit_deposit_ten :
    (chain.run unanswered).submit (.deposit .zero (.ofChannel channel.id) .zero ten) =
      .ok (.deposited (.ofChannel channel.id) ten, tenDeposited) := by
  have internal : (Destination.ofChannel channel.id).isExternal = false := by
    rw [id_channel]
    decide +kernel
  rw [run_unanswered]
  exact submit_of_deposit (deposit_eq_ok_iff.2
    ⟨internal, Nat.le_refl 0, ten, rfl, Nat.zero_lt_succ 9, rfl, rfl⟩)

/-- Each entry of the outcome is served from the same ten units. -/
theorem payouts_tenDeposited :
    tenDeposited.payouts channel.id outcome =
      [⟨.zero, [⟨⟨.ofAddress alice, ten⟩, ten⟩], .zero⟩,
        ⟨.zero, [⟨⟨.ofAddress bob, ten⟩, ten⟩], .zero⟩] := by
  have held : tenDeposited.held .zero (.ofChannel channel.id) = ten := by
    rw [Adjudicator.held, tenDeposited, Table.get?_insert_self]
    rfl
  simp only [payouts, outcome, assetPayout?, List.filterMap_cons, List.filterMap_nil, held]
  rfl

/-- The payout pays Alice and Bob ten units each. -/
theorem submit_payout_ten :
    ∃ left next, tenDeposited.submit (.payout channel.id outcome) =
        .ok (.paidOut channel.id left, next) ∧
      next.withdrawals = [⟨.zero, channel.id, alice, ten⟩, ⟨.zero, channel.id, bob, ten⟩] := by
  have stored : tenDeposited.storage channel.id = challenged :=
    (storage_setStorage (chain.atTime 5) channel.id channel.id challenged).trans (if_pos rfl)
  have final : tenDeposited.status channel.id = .finalized := by
    rw [status, stored]
    rfl
  have same : outcome.hash = (tenDeposited.storage channel.id).outcomeHash := by
    rw [stored]
    rfl
  obtain ⟨holdings, served⟩ : ∃ holdings,
      tenDeposited.holdingsAfter channel.id (tenDeposited.payouts channel.id outcome) =
        .ok holdings := by
    rw [payouts_tenDeposited]
    exact ⟨_, rfl⟩
  refine ⟨_, _, submit_of_payout (payout_eq_ok_iff.2 ⟨final, same, holdings, served, rfl, rfl⟩), ?_⟩
  show [] ++ (tenDeposited.payouts channel.id outcome).flatMap _ = _
  rw [payouts_tenDeposited]
  rfl

end Sample

open Sample in
/-- Ten units are deposited and twenty withdrawn. -/
theorem amounts_overdrawn :
    ((Sample.chain.journal Sample.overdrawn).map (Entry.deposited .zero)).sum = 10 ∧
      withdrawnIn .zero (Sample.chain.run Sample.overdrawn).withdrawals = 20 := by
  obtain ⟨left, next, paid, withdrawals⟩ := submit_payout_ten
  constructor
  · rw [overdrawn, journal_append, journal_unanswered, journal, noted?_of_ok submit_deposit_ten,
      step_of_ok submit_deposit_ten, journal, noted?_of_ok paid]
    rfl
  · rw [overdrawn, run_append, run_cons, step_of_ok submit_deposit_ten, run_cons,
      step_of_ok paid, run_nil, withdrawals]
    rfl

/-- Ten units came in and twenty went out, so the funds are not
conserved. -/
theorem not_conserved_overdrawn :
    (∑ᶠ d, ((Sample.chain.run Sample.overdrawn).held .zero d).toNat) +
        withdrawnIn .zero (Sample.chain.run Sample.overdrawn).withdrawals ≠
      ((Sample.chain.journal Sample.overdrawn).map (Entry.deposited .zero)).sum := by
  rw [amounts_overdrawn.1, amounts_overdrawn.2]
  generalize ∑ᶠ d, ((Sample.chain.run Sample.overdrawn).held .zero d).toNat = held
  omega

end StateChannels.Adjudicator
