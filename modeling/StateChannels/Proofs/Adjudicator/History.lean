import StateChannels.Proofs.Hash.Numbers
import StateChannels.Proofs.Adjudicator.Transactions

/-!
# `StateChannels.Proofs.Adjudicator.History`: runs of the chain

A run is a list of events: the clock of the chain is read at a new
time, or someone makes a call. The clock stands still while a call is
made (`Lapse.none`), for it is the time of the block that the call is
in. A call that fails leaves the chain as it is (`step_of_error`), so
every list of events is a run, with failed calls in it or not.

`Forward` says that the clock never goes back along a run. What holds
at one point of such a run and is kept by every event holds at every
later point (`run_induction`).

The journal of a run lists the calls that succeeded, each with the
chain it was made on and its receipt.
-/

set_option autoImplicit false

namespace StateChannels.Adjudicator

/-- What happens to the chain. -/
inductive Event where
  | tick (clock : Seconds)
  | call (x : Call)
deriving DecidableEq

/-- The clock never goes back: along the events no reading is below
the one before, and the first is not below `clock`. -/
def Forward (clock : Seconds) : List Event → Prop
  | [] => True
  | .tick later :: events => clock ≤ later ∧ Forward later events
  | .call _ :: events => Forward clock events

/-- Whether a run goes forward can be computed. -/
instance Forward.decidable (clock : Seconds) (events : List Event) :
    Decidable (Forward clock events) :=
  match events with
  | [] => inferInstanceAs (Decidable True)
  | .tick later :: events =>
    have := Forward.decidable later events
    inferInstanceAs (Decidable (clock ≤ later ∧ Forward later events))
  | .call _ :: events => Forward.decidable clock events

/-- A call that succeeded, the chain on which it was made, and what it
gave back. -/
structure Entry where
  before : Adjudicator
  call : Call
  receipt : Receipt

variable {adj next : Adjudicator} {x : Call} {receipt : Receipt}

/-- The chain after an event. A call that fails leaves behind what it
has written by then. -/
def step (adj : Adjudicator) : Event → Adjudicator
  | .tick clock => adj.atTime clock
  | .call x => ((x.perform .none).run adj).2

/-- The chain after a run. -/
def run (adj : Adjudicator) (events : List Event) : Adjudicator := events.foldl step adj

/-- The entry that an event makes in the journal. -/
def noted? (adj : Adjudicator) : Event → Option Entry
  | .tick _ => none
  | .call x =>
    match adj.submit x with
    | .ok (receipt, _) => some ⟨adj, x, receipt⟩
    | .error _ => none

/-- The calls that succeed in a run, in order. -/
def journal (adj : Adjudicator) : List Event → List Entry
  | [] => []
  | e :: events => (adj.noted? e).toList ++ (adj.step e).journal events

/-! ### Single events -/

/-- Reading the clock sets it, and nothing else. -/
@[simp] theorem step_tick (adj : Adjudicator) (clock : Seconds) :
    adj.step (.tick clock) = adj.atTime clock := rfl

/-- A call that succeeds leaves the chain that it gives back. -/
theorem step_of_ok (h : adj.submit x = .ok (receipt, next)) : adj.step (.call x) = next := by
  rw [step, Transaction.commit_eq_ok_iff.1 h]

/-- A call that fails has written nothing. -/
theorem step_of_error {failure : Failure AdjudicatorError} (h : adj.submit x = .error failure) :
    adj.step (.call x) = adj := by
  rw [step, (x.allOrNothing_perform .none).run_eq adj]
  rw [submit] at h
  rw [h]

/-- The journal gets a call that succeeds, with the chain it was made on. -/
theorem noted?_of_ok (h : adj.submit x = .ok (receipt, next)) :
    adj.noted? (.call x) = some ⟨adj, x, receipt⟩ := by
  simp [noted?, h]

/-- The journal gets no call that fails. -/
theorem noted?_of_error {failure : Failure AdjudicatorError} (h : adj.submit x = .error failure) :
    adj.noted? (.call x) = none := by
  simp [noted?, h]

/-- An event reads the clock, or is a call that succeeds, or is a call
that fails and changes nothing. -/
theorem step_cases (adj : Adjudicator) (e : Event) :
    (∃ clock, e = .tick clock ∧ adj.step e = adj.atTime clock ∧ adj.noted? e = none) ∨
    (∃ x receipt next, e = .call x ∧ adj.submit x = .ok (receipt, next) ∧
      adj.step e = next ∧ adj.noted? e = some ⟨adj, x, receipt⟩) ∨
    (∃ x failure, e = .call x ∧ adj.submit x = .error failure ∧
      adj.step e = adj ∧ adj.noted? e = none) := by
  cases e with
  | tick clock => exact .inl ⟨clock, rfl, rfl, rfl⟩
  | call x =>
    cases h : adj.submit x with
    | error failure => exact .inr (.inr ⟨x, failure, rfl, h, step_of_error h, noted?_of_error h⟩)
    | ok made => exact .inr (.inl ⟨x, made.1, made.2, rfl, h, step_of_ok h, noted?_of_ok h⟩)

/-- What an event does to the record of one channel. It is a dispute
call on the channel that succeeds. Or it leaves the record alone, and
if it is a call that succeeds, it is none of those and no payout of the
channel. Or it is a payout of the channel that succeeds. -/
theorem channel_cases (adj : Adjudicator) (id : Hash) (e : Event) :
    (∃ x receipt, e = .call x ∧ x.disputes ∧ x.channelId = id ∧
      adj.submit x = .ok (receipt, adj.step e)) ∨
    ((adj.step e).storage id = adj.storage id ∧
      ∀ m ∈ adj.noted? e, (m.call.disputes → m.call.channelId ≠ id) ∧
        ∀ outcome, m.call ≠ .payout id outcome) ∨
    (∃ outcome left, e = .call (.payout id outcome) ∧
      adj.submit (.payout id outcome) = .ok (.paidOut id left, adj.step e) ∧
      adj.payout id outcome = .ok (left, adj.step e)) := by
  rcases step_cases adj e with ⟨clock, rfl, -, noted⟩ |
    ⟨x, receipt, next, rfl, made, stepped, noted⟩ | ⟨x, failure, rfl, -, stepped, noted⟩
  · exact .inr (.inl ⟨rfl, by simp [noted]⟩)
  · rw [stepped]
    by_cases channel : x.channelId = id
    · subst channel
      rcases submit_cases made with ⟨disputes, -⟩ | ⟨_, _, _, _, _, rfl, -, deposited⟩ |
        ⟨_, outcome, left, rfl, rfl, paid⟩
      · exact .inl ⟨x, receipt, rfl, disputes, rfl, made⟩
      · refine .inr (.inl ⟨storage_deposit deposited, ?_⟩)
        simp [noted, Call.disputes]
      · exact .inr (.inr ⟨outcome, left, rfl, made, paid⟩)
    · refine .inr (.inl ⟨storage_submit_of_ne made channel, ?_⟩)
      -- The only entry is the call `x`, and it is about another channel.
      rintro m here
      cases Option.some.inj (noted.symm.trans here)
      refine ⟨fun _ => channel, ?_⟩
      rintro outcome rfl
      exact channel rfl
  · exact .inr (.inl ⟨by rw [stepped], by simp [noted]⟩)

/-! ### Runs and their parts -/

/-- Without events the chain stays as it is. -/
@[simp] theorem run_nil (adj : Adjudicator) : adj.run [] = adj := rfl

/-- A run goes on from the chain after its first event. -/
@[simp] theorem run_cons (adj : Adjudicator) (e : Event) (events : List Event) :
    adj.run (e :: events) = (adj.step e).run events := rfl

/-- A run of two parts is the second part, on the chain after the first. -/
theorem run_append (adj : Adjudicator) (before after : List Event) :
    adj.run (before ++ after) = (adj.run before).run after :=
  List.foldl_append

/-- The journal of two parts is that of the first, and then that of the
second on the chain after the first. -/
theorem journal_append (adj : Adjudicator) (before after : List Event) :
    adj.journal (before ++ after) = adj.journal before ++ (adj.run before).journal after := by
  induction before generalizing adj with
  | nil => rfl
  | cons e before ih => simp [journal, ih, List.append_assoc]

/-- One more event: the chain makes a step, and the journal gets an
entry if it was a call that succeeded. -/
theorem run_concat (adj : Adjudicator) (events : List Event) (e : Event) :
    adj.run (events ++ [e]) = (adj.run events).step e := run_append adj events [e]

/-- One more event makes one more entry, or none. -/
theorem journal_concat (adj : Adjudicator) (events : List Event) (e : Event) :
    adj.journal (events ++ [e]) = adj.journal events ++ ((adj.run events).noted? e).toList := by
  simp [journal_append, journal]

/-- A run goes forward if its first event does, and the rest does from the
clock after it. A call leaves the clock alone. -/
theorem forward_cons {e : Event} {events : List Event} :
    Forward adj.clock (e :: events) ↔
      adj.clock ≤ (adj.step e).clock ∧ Forward (adj.step e).clock events := by
  rcases step_cases adj e with ⟨clock, rfl, stepped, -⟩ |
    ⟨x, receipt, next, rfl, made, stepped, -⟩ | ⟨x, failure, rfl, -, stepped, -⟩
  · rw [stepped]
    rfl
  · rw [stepped, clock_submit made]
    exact (and_iff_right (UInt64.le_refl _)).symm
  · rw [stepped]
    exact (and_iff_right (UInt64.le_refl _)).symm

/-- The events after a point of a run that goes forward go forward
from the clock at that point. -/
theorem forward_append {before after : List Event} :
    Forward adj.clock (before ++ after) ↔
      Forward adj.clock before ∧ Forward (adj.run before).clock after := by
  induction before generalizing adj with
  | nil => simp [Forward]
  | cons e before ih => rw [List.cons_append, forward_cons, forward_cons, ih, and_assoc, run_cons]

/-- What every event keeps that does not set the clock back, a run
that goes forward keeps. -/
theorem run_induction {P : Adjudicator → Prop}
    (keep : ∀ (adj : Adjudicator) (e : Event),
      P adj → adj.clock ≤ (adj.step e).clock → P (adj.step e))
    {events : List Event} (forward : Forward adj.clock events) (h : P adj) :
    P (adj.run events) := by
  -- Induction on the events. The chain changes with each, so it is not fixed.
  induction events generalizing adj with
  | nil => exact h
  | cons e events ih =>
    obtain ⟨le, rest⟩ := forward_cons.1 forward
    exact ih rest (keep adj e h le)

/-! ### A challenge that no one answers

Two participants, Alice and Bob, and one state at turn 4 that both of
them signed. Alice challenges with it at time 5. The outcome has two
entries for the same asset holder, and nothing refuses it. -/

namespace Sample

/-- An address, as a number. -/
def address (n : Nat) : Address := ⟨⟨(Bytes.ofNat 20 n).toArray, by simp⟩⟩

/-- A digest, as a number. -/
def digest (n : Nat) : Hash := ⟨⟨(Bytes.ofNat 32 n).toArray, by simp⟩⟩

/-- The two halves of a signature take 64 bytes. -/
theorem size_halves (r s : Nat) : (Bytes.ofNat 32 r ++ Bytes.ofNat 32 s).toArray.size = 64 := by
  simp

/-- A signature: its two halves and its mark. -/
def signature (r s : Nat) (v : UInt8) : Signature :=
  .ofParts ⟨(Bytes.ofNat 32 r ++ Bytes.ofNat 32 s).toArray, size_halves r s⟩ v

/-- The account of the key 1. -/
def alice : Address := address 0x7e5f4552091a69125d5dfcb7b8c2659029395bdf

/-- The account of the key 2. -/
def bob : Address := address 0x2b5ad5c4795c026514f8317c7a215e218dccd6cf

/-- The channel of Alice and Bob. Alice moves at even turns. -/
def channel : Channel where
  chainId := .one
  participants := [alice, bob]
  nonce := .zero
  ne_nil := by simp
  nodup := by decide +kernel

/-- Ten units of an asset. -/
def ten : Uint256 := ⟨10, by decide⟩

/-- Ten units for Alice and ten for Bob, in two entries of one asset
holder. -/
def outcome : Outcome :=
  ⟨[⟨.zero, .allocation ⟨[⟨.ofAddress alice, ten⟩]⟩⟩,
    ⟨.zero, .allocation ⟨[⟨.ofAddress bob, ten⟩]⟩⟩]⟩

/-- The state at turn 4. A challenge with it lasts 60 seconds. -/
def state : State where
  channelId := channel.id
  turnNum := 4
  isFinal := false
  outcome
  appDefinition := .zero
  appData := []
  challengeDuration := 60

/-- Alice's signature on the state at turn 4. -/
def signatureOfAlice : Signature :=
  signature 0xea2c235f22123fc9db6e5c529eb9fc19d7bd3ee96fd3a8985ddaef1e08c6fa77
    0x01fe3e92a9bfd29c23e385fe2b29e483d0857b4281dde7fc15c5dcb2e92b6c2c 27

/-- Bob's signature on the same state. -/
def signatureOfBob : Signature :=
  signature 0xd32a15c32e3ab326f402e1c5362a28fbaaffd76133e5d84796b77554b3bda556
    0x529aa8f75742825064f52a74f355dd412e56b191db16b0ea99e29db45e2d601a 28

/-- Alice's signature on the challenge. -/
def challengeSignature : Signature :=
  signature 0x312c8fffde994a7c03260454f3acd804ed14ff7c23ebe7e3c3609d430bbc4c4c
    0x411dcef8ef6e919dc3a36e9a559c5accb2207491119dda0751cf2de10c35fcd8 27

/-- The state with both signatures. -/
def proof : SupportProof := .unanimous state [signatureOfAlice, signatureOfBob]

/-- Alice's challenge with the state. It names the record of a channel that
nobody has disputed. -/
def challenge : Call := .challenge channel 0 proof challengeSignature

/-- The chain before the first call, with the rule that lets any state
follow. -/
def chain : Adjudicator := .start 0 (.insert ∅ .zero .trivial)

/-- The state at another turn. -/
def stateAt (turn : TurnNum) : State := { state with turnNum := turn }

/-- The id of the channel, computed once. What is hashed later starts from
the number. -/
theorem id_channel :
    channel.id = digest 0x849251e15dbee927cb400b877a5367e30e78fe6feea567d03f208c34d2302a25 := by
  rw [Channel.id, Abi.Token.argsHash, keccak256_eq]
  decide +kernel

/-- The digest of the outcome, computed once. -/
theorem hash_outcome :
    outcome.hash = digest 0x4aa8db2a7e6fa4b16431ba630b7997c15dd3632acabf30196686241dbf7d31e0 := by
  rw [Outcome.hash, keccak256_eq]
  decide +kernel

/-- The digest of the part of the state that the application looks at,
computed once. It does not depend on the turn. -/
theorem appPartHash_state : state.appPartHash =
    digest 0x22625d49ec2b18fae88139001f77f9fce1d0416e505ceb6e5d66920381d15eff := by
  rw [State.appPartHash, Abi.Token.argsHash, keccak256_eq]
  decide +kernel

/-- What is hashed for the state at a turn. The digests in it are the
same at every turn, and computed once. -/
theorem token_stateAt (turn : TurnNum) : (stateAt turn).token =
    .tuple [.ofNat turn.toNat, .ofBool false,
      .ofHash (digest 0x849251e15dbee927cb400b877a5367e30e78fe6feea567d03f208c34d2302a25),
      .ofHash (digest 0x22625d49ec2b18fae88139001f77f9fce1d0416e505ceb6e5d66920381d15eff),
      .ofHash (digest 0x4aa8db2a7e6fa4b16431ba630b7997c15dd3632acabf30196686241dbf7d31e0)] := by
  rw [← id_channel, ← appPartHash_state, ← hash_outcome]
  rfl

/-- The digest of the state at turn 4, computed once. -/
theorem hash_state :
    state.hash = digest 0xeb2ee3c0d65829bb298d1b68255ed8cfe39c991e06a1e6ae7737871ceac7634d := by
  rw [State.hash, Abi.Token.argsHash, keccak256_eq,
    show state.token = (stateAt 4).token from rfl, token_stateAt]
  decide +kernel

/-- Alice's signature on the state is hers. -/
theorem recoverSigner_signatureOfAlice :
    recoverSigner state.hash signatureOfAlice = .ok alice := by
  rw [hash_state]
  exact recoverSigner_of_recovers (by decide +kernel)

/-- Bob's signature on the state is his. -/
theorem recoverSigner_signatureOfBob :
    recoverSigner state.hash signatureOfBob = .ok bob := by
  rw [hash_state]
  exact recoverSigner_of_recovers (by decide +kernel)

/-- The challenge is signed by Alice. -/
theorem recoverSigner_challengeSignature :
    recoverSigner state.challengeHash challengeSignature = .ok alice := by
  rw [State.challengeHash, State.challengeToken, hash_state,
    Abi.Token.argsHash, keccak256_eq]
  exact recoverSigner_of_recovers (by decide +kernel)

/-- Both signatures of the proof are on its one state. -/
theorem checkSignatures_proof : SupportProof.checkSignatures channel proof = .ok () := by
  refine forM_eq_ok_iff.2 fun entry member => ?_
  rcases List.mem_cons.1 member with rfl | member
  · exact checkSigner_eq_ok_iff.2 recoverSigner_signatureOfAlice
  · cases List.mem_singleton.1 member
    exact checkSigner_eq_ok_iff.2 recoverSigner_signatureOfBob

/-- The proof supports the state at turn 4. -/
theorem validate_proof : proof.validate channel (some .trivial) = .ok (.ofState state) := by
  have sameChannel : ∀ s ∈ proof.states, s.channelId = channel.id := by
    intro s member
    cases List.mem_singleton.1 member
    rfl
  exact SupportProof.validate_eq_ok_iff.2
    ⟨state, rfl, by decide, sameChannel, rfl, rfl, rfl, checkSignatures_proof, rfl⟩

/-- The record after the challenge. -/
def challenged : ChannelStorage := .challenged 5 state alice

/-- The challenge succeeds. -/
theorem submit_challenge :
    (chain.atTime 5).submit challenge =
      .ok (.storage channel.id challenged, (chain.atTime 5).setStorage channel.id challenged) := by
  have made : (chain.atTime 5).challenge channel 0 proof challengeSignature =
      .ok (challenged, (chain.atTime 5).setStorage channel.id challenged) :=
    challenge_eq_ok_iff.2 ⟨by decide, rfl, state, alice, rfl,
      validate_eq_ok_iff.2 ⟨state, .trivial, rfl, rfl, validate_proof⟩, by decide,
      recoverSigner_challengeSignature, by simp [channel], rfl, rfl⟩
  exact submit_of_challenge made

/-- The run with the challenge, without the calls: it writes one record. -/
theorem run_challenge :
    chain.run [.tick 5, .call challenge] =
      (chain.atTime 5).setStorage channel.id challenged := by
  rw [run_cons, step_tick, run_cons, step_of_ok submit_challenge, run_nil]

/-- The record of the channel after the challenge. -/
theorem storage_challenge :
    (chain.run [.tick 5, .call challenge]).storage channel.id = challenged := by
  rw [run_challenge, storage_setStorage, if_pos rfl]

/-- Alice challenges at time 5, and at time 65 no one has answered. -/
def unanswered : List Event := [.tick 5, .call challenge] ++ [.tick 65]

/-- When no one answers, only the clock changes. -/
theorem run_unanswered :
    chain.run unanswered = ((chain.atTime 5).setStorage channel.id challenged).atTime 65 := by
  rw [unanswered, run_concat, step_tick, run_challenge]

/-- The challenge is the only call of the run. -/
theorem journal_unanswered :
    chain.journal unanswered = [⟨chain.atTime 5, challenge, .storage channel.id challenged⟩] := by
  rw [unanswered, journal_concat, journal, journal, step_tick, noted?_of_ok submit_challenge]
  rfl

/-- At time 65 the challenge has run out, and the channel is final. -/
theorem status_unanswered : (chain.run unanswered).status channel.id = .finalized := by
  rw [unanswered, run_concat, step_tick, status, storage_atTime, storage_challenge]
  rfl

end Sample

end StateChannels.Adjudicator
