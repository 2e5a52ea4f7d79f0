import StateChannels.Proofs.Hash.Schedule
import StateChannels.Proofs.Store.Atomicity
import StateChannels.Proofs.Wallet.Regular

/-!
# `StateChannels.Proofs.Wallet.Sending`: what a signature that was not sent leaves

To sign a state, a wallet compares it with the supported one, signs it, gives
the signature to its store, and queues it for the other participants. Each of
these can fail. A failure before the last one leaves the store as it was. But
where the queue refuses the signature, the store has it already, and the
support that it may complete.

* `Records`: the signature comes as far as the store.
* `signAndSend_of_records`, `signAndSend_of_not_records`: the call in terms
  of this.
* `StoreEntry.Sound.add_eq_self_iff`, `Store.addSigned_eq_self_iff`: when a
  signature that is taken leaves no trace. It is the last one that is pending.
* `store_of_failed_signAndSend`: of every wallet that can be reached, which
  failures change the store, and when they occur.
* `Sample.supported_unsent`: a wallet in which this happens.
-/

set_option autoImplicit false

namespace StateChannels

/-! ### Signatures that leave no trace -/

namespace StoreEntry

variable {e : StoreEntry} {s : SignedState} {x : Option Supported}

/-- The new signature takes the last place, and that of an earlier one in
the same slot. So nothing changes if that was the last one. -/
theorem Verified.record_eq_self_iff (h : e.Verified) :
    e.record s = e ↔ e.pending.getLast? = some s := by
  constructor
  · intro same
    rw [← same, StoreEntry.record, List.getLast?_append]
    rfl
  · intro isLast
    obtain ⟨others, split⟩ := List.getLast?_eq_some_iff.1 isLast
    have nodup := h.nodup
    rw [split, List.map_append, List.map_singleton] at nodup
    -- No other signature has the slot of the last one.
    have different : ∀ p ∈ others, ¬(p.signer = s.signer ∧ p.state.turnNum = s.state.turnNum) := by
      intro p member sameSlot
      rw [← SignedState.slot_eq_iff] at sameSlot
      exact List.disjoint_of_nodup_append nodup (List.mem_map_of_mem member)
        (List.mem_singleton.2 sameSlot)
    have kept : (e.pending.filter fun p =>
        ¬(p.signer = s.signer ∧ p.state.turnNum = s.state.turnNum)) = others := by
      rw [split, List.filter_append, List.filter_eq_self.2 fun p member =>
        decide_eq_true (different p member)]
      simp
    refine StoreEntry.ext rfl rfl ?_
    rw [StoreEntry.record, kept, split]

/-- A signature that is taken leaves no trace exactly if it is the last one
that is pending. Then it completes nothing, for its state has no signature
more than before. -/
theorem Sound.add_eq_self_iff (h : e.Sound) (own : s.state.channelId = e.channel.id)
    (taken : (e.add s).1 = .ok x) : (e.add s).2 = e ↔ e.pending.getLast? = some s := by
  rcases add_cases h.toVerified own with ⟨error, -, refused⟩ | ⟨-, -, kept⟩ |
    ⟨checked, complete, supported⟩
  · rw [refused] at taken
    cases taken
  · rw [kept]
    exact h.record_eq_self_iff
  · rw [supported]
    constructor
    · intro same
      -- The turn would be later than itself.
      have after := (check_eq_ok_iff.1 checked).1
      rw [← same] at after
      exact absurd (after _ rfl) (UInt64.lt_irrefl _)
    · intro isLast
      rw [h.record_eq_self_iff.2 isLast] at complete
      have size := complete.signers.length_eq
      rw [List.length_map] at size
      exact absurd (h.incomplete s.state) (Nat.not_lt.2 size.symm.le)

end StoreEntry

namespace Store

variable {store : Store} {s : SignedState} {x : Option Supported}

/-- A signed state that the store takes leaves the store as it is exactly if
it is the last of the pending ones already. -/
theorem addSigned_eq_self_iff (h : store.Sound) (taken : (store.addSigned s).1 = .ok x) :
    (store.addSigned s).2 = store ↔
      ∃ pending, store.pending s.state.channelId = .ok pending ∧ pending.getLast? = some s := by
  cases found : store.entries.get? s.state.channelId with
  | none =>
    rw [addSigned, found] at taken
    cases taken
  | some e =>
    obtain ⟨own, sound⟩ := h _ e found
    have added := addSigned_of_found found
    rw [added] at taken
    -- Only the entry of the channel can change.
    have entry : (store.addSigned s).2 = store ↔ (e.add s).2 = e := by
      constructor
      · intro same
        have after := get?_addSigned found
        rw [same, found] at after
        exact (Option.some.inj after).symm
      · intro same
        rw [added, same, Table.insert_of_get?_eq_some found]
    rw [entry, sound.add_eq_self_iff own.symm taken]
    constructor
    · intro isLast
      exact ⟨e.pending, pending_eq_ok_iff.2 ⟨e, found, rfl⟩, isLast⟩
    · rintro ⟨pending, isPending, isLast⟩
      obtain ⟨e', found', rfl⟩ := pending_eq_ok_iff.1 isPending
      obtain rfl : e = e' := Option.some.inj (found.symm.trans found')
      exact isLast

end Store

namespace Wallet

variable {w : Wallet} {signer : Signer} {config : Config} {apps : AppRegistry} {s : State}
  {c : Channel} {supported : Option Supported} {e : OutboxError}

/-! ### As far as the store -/

/-- The state passes the comparison, and the store takes the signature of
the wallet on it, with this support as the result. -/
structure Records (w : Wallet) (s : State) (c : Channel) (supported : Option Supported) : Prop where
  passed : w.checkTransition s = .ok ()
  channel : w.store.channel s.channelId = .ok c
  taken : (w.store.addSigned (.sign s w.signer)).1 = .ok supported

/-- The comparison does not use the queue. -/
theorem checkTransition_ne_outbox : w.checkTransition s ≠ .error (.refused (.outbox e)) := by
  intro refused
  cases registered : w.apps.get? s.appDefinition with
  | none =>
    rw [checkTransition_of_unknown registered] at refused
    cases refused
  | some app =>
    cases latest : w.store.latestState s.channelId with
    | error error =>
      rw [checkTransition, registered, latest] at refused
      cases refused
    | ok prev? =>
      cases prev? with
      | none =>
        rw [checkTransition_of_unsupported latest] at refused
        cases refused
      | some prev =>
        obtain ⟨entry, found, -⟩ := Store.latestState_eq_ok_iff.1 latest
        have channel := Store.channel_eq_ok_iff.2 ⟨entry, found, rfl⟩
        rw [checkTransition_of_supported registered latest channel] at refused
        -- The next turn and the rule of the application can stop the comparison, not refuse.
        rcases bind_eq_error_iff.1 refused with stopped | ⟨following, -, refused⟩
        · cases succ : prev.turnNum.succ <;> rw [succ] at stopped <;> cases stopped
        · split at refused
          · rcases bind_eq_error_iff.1 refused with stopped | ⟨valid, -, refused⟩
            · cases checked : app.validTransition prev s entry.channel.size <;>
                rw [checked] at stopped <;> cases stopped
            · cases valid <;> cases refused
          · cases refused

/-- From the store on only the queue can fail. -/
theorem signAndSend_of_records (records : w.Records s c supported) :
    (w.signAndSend s).2.store = (w.store.addSigned (.sign s w.signer)).2 ∧
      (w.signAndSend s).1 =
        match (w.broadcast c.participants (.signedStates [.sign s w.signer])).1 with
        | .error e => .error (.refused (.outbox e))
        | .ok () => .ok supported := by
  have taken := records.taken
  rcases added : w.store.addSigned (.sign s w.signer) with ⟨result, store⟩
  rw [added] at taken
  cases taken
  rw [signAndSend, records.passed]
  simp only [records.channel, added]
  -- To queue the signature is the same with the store before and after it.
  have sent : ({ w with store } : Wallet).broadcast c.participants
      (.signedStates [.sign s w.signer]) =
    ((w.broadcast c.participants (.signedStates [.sign s w.signer])).1,
      { (w.broadcast c.participants (.signedStates [.sign s w.signer])).2 with store }) := rfl
  rw [sent]
  rcases w.broadcast c.participants (.signedStates [.sign s w.signer]) with ⟨result, next⟩
  cases result <;> exact ⟨rfl, rfl⟩

/-- Up to the store a failure changes nothing. -/
theorem signAndSend_of_not_records (sound : w.store.Sound)
    (none : ∀ c supported, ¬w.Records s c supported) :
    ∃ failure, w.signAndSend s = (.error failure, w) ∧ ∀ e, failure ≠ .refused (.outbox e) := by
  cases passed : w.checkTransition s with
  | error failure =>
    refine ⟨failure, by rw [signAndSend, passed], ?_⟩
    rintro e rfl
    exact checkTransition_ne_outbox passed
  | ok =>
    cases channel : w.store.channel s.channelId with
    | error error =>
      refine ⟨.refused (.store error), ?_, by simp⟩
      rw [signAndSend, passed]
      simp only [channel]
      rfl
    | ok c =>
      cases taken : (w.store.addSigned (.sign s w.signer)).1 with
      | ok supported => exact absurd ⟨passed, channel, taken⟩ (none c supported)
      | error error =>
        -- A store that refuses the signed state stays as it was.
        have same : w.store.addSigned (.sign s w.signer) = (.error error, w.store) := by
          rcases Store.addSigned_cases sound (.sign s w.signer) with ⟨-, refused⟩ |
            ⟨e, -, ⟨_, -, refused⟩ | ⟨-, kept, -⟩ | ⟨-, completed, -⟩⟩
          · rw [refused] at taken ⊢
            cases taken
            rfl
          · rw [refused] at taken ⊢
            cases taken
            rfl
          · cases kept.symm.trans taken
          · cases completed.symm.trans taken
        refine ⟨.refused (.store error), ?_, by simp⟩
        rw [signAndSend, passed]
        simp only [channel, same]
        rfl

/-- A signature that the store takes is that of a participant. -/
theorem Records.participant (h : w.Records s c supported) (sound : w.store.Sound) :
    w.address ∈ c.participants := by
  obtain ⟨e, found, rfl⟩ := Store.channel_eq_ok_iff.1 h.channel
  have taken := h.taken
  rcases Store.addSigned_cases sound (.sign s w.signer) with ⟨unknown, -⟩ |
    ⟨e', found', ⟨_, -, refused⟩ | ⟨checked, -⟩ | ⟨checked, -⟩⟩
  · cases unknown.symm.trans found
  · rw [refused] at taken
    cases taken
  · obtain rfl : e = e' := Option.some.inj (found.symm.trans found')
    exact (StoreEntry.check_eq_ok_iff.1 checked).2.2
  · obtain rfl : e = e' := Option.some.inj (found.symm.trans found')
    exact (StoreEntry.check_eq_ok_iff.1 checked).2.2

/-- The queue refuses a signature that came as far as the store, and no
other. -/
theorem Regular.signAndSend_eq_outbox_iff (h : Regular signer config w) (sound : w.store.Sound) :
    (w.signAndSend s).1 = .error (.refused (.outbox e)) ↔
      ∃ c supported, w.Records s c supported ∧ config.backpressure = .reject ∧
        config.outboxCapacity.toNat < w.outbox.size + (c.size - 1) ∧
        e = .full config.outboxCapacity.toNat := by
  -- Once the state is recorded, the broadcast decides alone.
  have fullOf : ∀ c supported, w.Records s c supported →
      ((w.signAndSend s).1 = .error (.refused (.outbox e)) ↔ config.backpressure = .reject ∧
        config.outboxCapacity.toNat < w.outbox.size + (c.size - 1) ∧
        e = .full config.outboxCapacity.toNat) := by
    intro c supported records
    have participant := records.participant sound
    rw [address, h.signer_eq] at participant
    rw [(signAndSend_of_records records).2, ← Channel.length_others participant,
      ← h.broadcast_eq_error_iff c.participants (.signedStates [.sign s w.signer])]
    cases (w.broadcast c.participants (.signedStates [.sign s w.signer])).1 <;> simp
  constructor
  · intro refused
    by_cases recorded : ∃ c supported, w.Records s c supported
    · obtain ⟨c, supported, records⟩ := recorded
      exact ⟨c, supported, records, (fullOf c supported records).1 refused⟩
    · push Not at recorded
      obtain ⟨failure, failed, other⟩ := signAndSend_of_not_records sound recorded
      rw [failed] at refused
      cases refused
      exact absurd rfl (other e)
  · rintro ⟨c, supported, records, full⟩
    exact (fullOf c supported records).2 full

/-- A wallet, after whatever actions, and a state to sign. The queue refuses
the signature exactly if this comes as far as the store, and the queue keeps
what it has and has fewer free places than there are other participants. Then
the store has the signature. Every other failure leaves the store as it was,
and this one does too if the same signature was the last one pending
before. -/
theorem store_of_failed_signAndSend (created : create signer config apps = .ok w)
    (actions : List Action) (s : State) :
    (∀ e, ((w.run actions).signAndSend s).1 = .error (.refused (.outbox e)) ↔
      ∃ c supported, (w.run actions).Records s c supported ∧ config.backpressure = .reject ∧
        config.outboxCapacity.toNat < (w.run actions).outbox.size + (c.size - 1) ∧
        e = .full config.outboxCapacity.toNat) ∧
    (∀ e, ((w.run actions).signAndSend s).1 = .error (.refused (.outbox e)) →
      ((w.run actions).signAndSend s).2.store =
        ((w.run actions).store.addSigned (.sign s signer)).2) ∧
    ∀ failure, ((w.run actions).signAndSend s).1 = .error failure →
      (((w.run actions).signAndSend s).2.store = (w.run actions).store ↔
        (∀ e, failure ≠ .refused (.outbox e)) ∨
          ∃ pending, (w.run actions).store.pending s.channelId = .ok pending ∧
            pending.getLast? = some (.sign s signer)) := by
  have regular := regular_run created actions
  have sound := (sound_run created actions).2
  have unsent : ∀ e, ((w.run actions).signAndSend s).1 = .error (.refused (.outbox e)) ↔
      ∃ c supported, (w.run actions).Records s c supported ∧ config.backpressure = .reject ∧
        config.outboxCapacity.toNat < (w.run actions).outbox.size + (c.size - 1) ∧
        e = .full config.outboxCapacity.toNat := fun e => regular.signAndSend_eq_outbox_iff sound
  have kept : ∀ c supported, (w.run actions).Records s c supported →
      ((w.run actions).signAndSend s).2.store =
        ((w.run actions).store.addSigned (.sign s signer)).2 := by
    intro c supported records
    rw [(signAndSend_of_records records).1, regular.signer_eq]
  refine ⟨unsent, fun e refused => ?_, fun failure failed => ?_⟩
  · obtain ⟨c, supported, records, -⟩ := (unsent e).1 refused
    exact kept c supported records
  · by_cases recorded : ∃ c supported, (w.run actions).Records s c supported
    · obtain ⟨c, supported, records⟩ := recorded
      have taken := records.taken
      rw [regular.signer_eq] at taken
      rw [kept c supported records, Store.addSigned_eq_self_iff sound taken]
      -- What fails from the store on is the queue.
      have isOutbox : ∃ e, failure = .refused (.outbox e) := by
        rw [(signAndSend_of_records records).2] at failed
        split at failed
        · exact ⟨_, (Except.error.inj failed).symm⟩
        · cases failed
      obtain ⟨e, rfl⟩ := isOutbox
      exact ⟨.inr, fun h => h.resolve_left fun other => other e rfl⟩
    · push Not at recorded
      obtain ⟨failure', failed', other⟩ := signAndSend_of_not_records sound recorded
      rw [failed'] at failed ⊢
      obtain rfl : failure' = failure := Except.error.inj failed
      exact iff_of_true rfl (.inl other)

end Wallet

/-! ### A signature that finds the queue full -/

namespace Adjudicator.Sample

/-- The digest that Alice signs for the state. -/
def signedDigest : Nat := 0x20782d8f50c31d2e6c06de90a3a14fe77db626aae28d39705f5edf8f2c170fbf

/-- What is signed for the state is this digest, computed once. -/
theorem signingDigest_state : (signingDigest state.hash).toBytes.toNat = signedDigest := by
  rw [hash_state, signingDigest, keccak256_eq]
  decide +kernel

/-- What is mixed into the nonce generator: key and digest, with a mark. -/
def seeding (mark : UInt8) : Bytes := mark :: Bytes.ofNat 32 1 ++ Bytes.ofNat 32 signedDigest

/-! The states of the nonce generator, one keyed digest at a time. -/

/-- The key of the generator after the first mark. -/
def firstKey : Bytes :=
  .ofNat 32 0x7c2e8a34a73975830a78e81ec54331c694d42256cc7f97d47f697dc7a8391b33

/-- The value of the generator after the first mark. -/
def firstValue : Bytes :=
  .ofNat 32 0xa37168e8b3ba297107d3a7a5aed41f8d999071a73d85ea08a70a37e09684c772

/-- The key of the generator after the second mark. -/
def secondKey : Bytes :=
  .ofNat 32 0xbb01808de139ea59626a5ea1ba718aa618ef3e360a4232fda55fa43a2bdacf78

/-- The value of the generator after the second mark. -/
def secondValue : Bytes :=
  .ofNat 32 0x51bec13ebaf1cf47b3fd70a6a2d5fa917054d91d5150ec05304f9951527e2936

/-- The number that comes out, which is a scalar. -/
def nonce : Nat := 0x60a5de8b3f978cbf0f7625089fae404e34a7c69b2f65f6d1a110f980beaa74f5

/-- Four keyed digests lead to the state of the generator, and the fifth
is its first output. -/
theorem keyed_steps :
    Sha256.keyed (Bytes.zeros 32) (List.replicate 32 1 ++ seeding 0) = firstKey ∧
      Sha256.keyed firstKey (List.replicate 32 1) = firstValue ∧
      Sha256.keyed firstKey (firstValue ++ seeding 1) = secondKey ∧
      Sha256.keyed secondKey firstValue = secondValue ∧
      Sha256.keyed secondKey secondValue = .ofNat 32 nonce := by
  refine ⟨?_, ?_, ?_, ?_, ?_⟩
  · rw [Sha256.keyed_eq (by decide) (by decide : _ = 3)]
    decide +kernel
  · rw [Sha256.keyed_eq (by decide) (by decide : _ = 2)]
    decide +kernel
  · rw [Sha256.keyed_eq (by decide) (by decide : _ = 3)]
    decide +kernel
  · rw [Sha256.keyed_eq (by decide) (by decide : _ = 2)]
    decide +kernel
  · rw [Sha256.keyed_eq (by decide) (by decide : _ = 2)]
    decide +kernel

/-- The four steps give the state of the generator that the output comes
from. -/
theorem seed_state : Ecdsa.Drbg.seed (.ofNat 32 1) (.ofNat 32 (signedDigest % Curve.order)) =
    ⟨secondKey, secondValue⟩ := by
  obtain ⟨isFirstKey, isFirstValue, isSecondKey, isSecondValue, -⟩ := keyed_steps
  have first : (⟨Bytes.zeros 32, List.replicate 32 1⟩ : Ecdsa.Drbg).update (seeding 0) =
      ⟨firstKey, firstValue⟩ := by
    rw [Ecdsa.Drbg.update]
    simp only [isFirstKey, isFirstValue]
  have second : (⟨firstKey, firstValue⟩ : Ecdsa.Drbg).update (seeding 1) =
      ⟨secondKey, secondValue⟩ := by
    rw [Ecdsa.Drbg.update]
    simp only [isSecondKey, isSecondValue]
  have small : signedDigest % Curve.order = signedDigest := by decide +kernel
  rw [small, Ecdsa.Drbg.seed]
  exact (congrArg (Ecdsa.Drbg.update · (seeding 1)) first).trans second

/-- The first output is in range, so it is the nonce. -/
theorem nonce?_state : Ecdsa.nonce? 1 signedDigest = some nonce := by
  have inRange : 0 < Bytes.toNat (.ofNat 32 nonce) ∧
      Bytes.toNat (.ofNat 32 nonce) < Curve.order := by
    decide +kernel
  have value : Bytes.toNat (.ofNat 32 nonce) = nonce := by decide +kernel
  rw [Ecdsa.nonce?, seed_state, Ecdsa.Drbg.nonce?]
  simp only [keyed_steps.2.2.2.2]
  rw [if_pos inRange, value]

/-- Alice's two scalars for the state. -/
theorem sign?_state : Ecdsa.sign? 1 signedDigest =
    some ⟨0xea2c235f22123fc9db6e5c529eb9fc19d7bd3ee96fd3a8985ddaef1e08c6fa77,
      0x01fe3e92a9bfd29c23e385fe2b29e483d0857b4281dde7fc15c5dcb2e92b6c2c, false⟩ := by
  rw [Ecdsa.sign?, nonce?_state]
  decide +kernel

/-- The signature of an account has the two scalars. -/
theorem sign_of_sign? {signer : Signer} {message : Hash} {r s : Nat} {odd : Bool}
    (signed : Ecdsa.sign? signer.secret (signingDigest message).toBytes.toNat = some ⟨r, s, odd⟩) :
    signer.sign message = signature r s (if odd then 28 else 27) := by
  -- To unfold the call, the scalars of unknown numbers would be computed. So the function is.
  generalize isSign : Signer.sign = sign
  delta Signer.sign at isSign
  subst isSign
  beta_reduce
  generalize Ecdsa.sign? signer.secret (signingDigest message).toBytes.toNat = x at signed ⊢
  subst signed
  rfl

/-- Alice's key makes her signature of the sample. -/
theorem sign_state : SignedState.sign state aliceKey = byAlice := by
  have signed : Ecdsa.sign? aliceKey.secret (signingDigest state.hash).toBytes.toNat =
      some ⟨0xea2c235f22123fc9db6e5c529eb9fc19d7bd3ee96fd3a8985ddaef1e08c6fa77,
        0x01fe3e92a9bfd29c23e385fe2b29e483d0857b4281dde7fc15c5dcb2e92b6c2c, false⟩ := by
    rw [signingDigest_state]
    exact sign?_state
  rw [SignedState.sign, address_aliceKey, sign_of_sign? signed, byAlice, signatureOfAlice,
    if_neg (by decide)]

/-! A queue with one place, which Alice's proposal of a strategy takes. -/

/-- A queue with one place, that keeps what it has. -/
def cramped : Config := { outboxCapacity := 1, backpressure := .reject }

/-- Alice's wallet with such a queue. -/
def crampedWallet : Wallet :=
  { wallet anyApps with config := cramped, outbox := .empty 1 .reject }

/-- One place is enough for a queue to be valid. -/
theorem create_crampedWallet : Wallet.create aliceKey cramped anyApps = .ok crampedWallet := rfl

/-- Alice's negotiation about the channel, before she proposes something. -/
def idle : Negotiation := ⟨channel.id, [alice, bob], alice, 3, 0, .idle, []⟩

/-- And after she proposes to fund it directly. -/
def proposedDirect : Negotiation :=
  ⟨channel.id, [alice, bob], alice, 3, 1, .pending .direct, [alice]⟩

/-- The wallet with the channel. -/
def opened : Wallet := { crampedWallet with store := stored }

/-- And while her proposal waits in the queue. -/
def proposing : Wallet :=
  { opened.setNegotiation channel.id proposedDirect with
    outbox := ⟨[(bob, .strategy (.proposal channel.id .direct 1))], 1, .reject⟩ }

/-- It is Alice's wallet. -/
theorem address_opened : opened.address = alice := address_aliceKey

/-- The channel is found in the store. -/
theorem channel_stored : stored.channel channel.id = .ok channel :=
  Store.channel_eq_ok_iff.2 ⟨_, get?_stored, rfl⟩

/-- The only other participant is Bob. -/
theorem others_alice : (channel.participants.filter fun p => p ≠ alice) = [bob] := by decide

/-- The queue is empty, so the proposal finds room. -/
theorem broadcast_opened : (opened.setNegotiation channel.id proposedDirect).broadcast
    channel.participants (.strategy (.proposal channel.id .direct 1)) = (.ok (), proposing) := by
  have account : (opened.setNegotiation channel.id proposedDirect).address = alice :=
    address_aliceKey
  rw [Wallet.broadcast, account, others_alice]
  rfl

/-- No negotiation has been started about the channel. -/
theorem negotiation_opened : opened.negotiation channel channel.id = .ok idle := by
  show Negotiation.start _ _ opened.address _ = _
  rw [address_opened, Negotiation.start, if_pos (by decide)]
  rfl

/-- Alice is the only one who has accepted her proposal so far. -/
theorem propose_idle :
    idle.propose .direct = (.ok (.proposal channel.id .direct 1), proposedDirect) := by
  have missing : ¬∀ p ∈ [alice, bob], p ∈ [alice] := by decide
  show (_, (idle.openAttempt 1 .direct alice).checkAgreed) = _
  rw [Negotiation.checkAgreed_of_pending rfl]
  exact congrArg _ (if_neg missing)

/-- The channel is stored, and Alice proposes. -/
def opening : List Wallet.Action := [.addChannel channel, .proposeStrategy channel.id .direct]

/-- After these two actions the proposal waits in the queue. -/
theorem run_opening : crampedWallet.run opening = proposing := by
  have account : crampedWallet.address = alice := address_aliceKey
  have added : crampedWallet.step (.addChannel channel) = opened :=
    step_addChannel_of_new account rfl
  have proposed : opened.proposeStrategy channel.id .direct = (.ok (), proposing) :=
    Wallet.proposeStrategy_of_queued channel_stored negotiation_opened propose_idle broadcast_opened
  rw [opening, Wallet.run_cons, added, Wallet.run_cons, Wallet.run_nil,
    Wallet.step_proposeStrategy, proposed]

/-- No other message finds room then. -/
theorem broadcast_full {w : Wallet} (account : w.address = alice)
    (full : w.outbox = proposing.outbox) (m : Message) :
    ∃ next, w.broadcast channel.participants m = (.error (.full 1), next) := by
  rw [Wallet.broadcast, account, others_alice, full]
  exact ⟨_, rfl⟩

/-- The entry of the channel with Bob's signature. -/
def bobsEntry : StoreEntry := (StoreEntry.ofChannel channel).record byBob

/-- The wallet when Bob's signature has come in. -/
def oneMissing : Wallet := { proposing with store := ⟨stored.entries.insert channel.id bobsEntry⟩ }

/-- One signature of two is not enough for support. -/
theorem add_byBob : (StoreEntry.ofChannel channel).add byBob = (.ok none, bobsEntry) := by
  refine StoreEntry.add_of_few
    (StoreEntry.check_eq_ok_iff.2 ⟨?_, recoverSigner_signatureOfBob, ?_⟩) ?_
  · intro turn isTurn
    cases isTurn
  · exact List.mem_cons_of_mem _ List.mem_cons_self
  · simp [StoreEntry.signaturesOn, StoreEntry.record, StoreEntry.ofChannel, channel, Channel.size,
      byBob]

/-- Then Bob's signature comes in. -/
def bobSigned : List Wallet.Action := opening ++ [.message bob (.signedStates [byBob])]

/-- Bob's signature goes into the entry, and nothing else changes. -/
theorem run_bobSigned : crampedWallet.run bobSigned = oneMissing := by
  have passed : proposing.checkTransition byBob.state = .ok () :=
    Wallet.checkTransition_of_unsupported latestState_stored
  have handled : proposing.handleSigned byBob = (.ok none, oneMissing) :=
    Wallet.handleSigned_of_added byBob passed get?_stored add_byBob
  rw [bobSigned, Wallet.run_concat, run_opening, Wallet.step_message,
    Wallet.handleMessage_of_handleSigned handled]

/-- The entry of the channel has Bob's signature. -/
theorem get?_oneMissing : oneMissing.store.entries.get? channel.id = some bobsEntry :=
  Table.get?_insert_self ..

/-- The entry is sound. -/
theorem sound_bobsEntry : bobsEntry.Sound := by
  have sound := (StoreEntry.sound_ofChannel channel).add (s := byBob) rfl
  rw [add_byBob] at sound
  exact sound

/-- Alice's own signature completes the support. -/
theorem add_byAlice : (bobsEntry.add byAlice).1 = .ok (some (.ofState state)) ∧
    (bobsEntry.add byAlice).2.latest.map SupportedState.state = some state := by
  have accepted : bobsEntry.check byAlice = .ok () := by
    refine StoreEntry.check_eq_ok_iff.2 ⟨?_, recoverSigner_signatureOfAlice, List.mem_cons_self⟩
    intro turn isTurn
    cases isTurn
  refine sound_bobsEntry.add_of_others rfl accepted fun a participant other => ?_
  have isBob : a = bob := (List.mem_pair.1 participant).resolve_left other
  exact ⟨byBob, List.mem_singleton_self _, rfl, isBob.symm⟩

/-- So the wallet records the state, before it looks for room in the queue. -/
theorem records_oneMissing : oneMissing.Records state channel (some (.ofState state)) := by
  have latest : oneMissing.store.latestState channel.id = .ok none :=
    Store.latestState_eq_ok_iff.2 ⟨_, get?_oneMissing, rfl⟩
  refine ⟨Wallet.checkTransition_of_unsupported latest,
    Store.channel_eq_ok_iff.2 ⟨_, get?_oneMissing, rfl⟩, ?_⟩
  rw [show oneMissing.signer = aliceKey from rfl, sign_state,
    Store.fst_addSigned_of_found get?_oneMissing]
  exact add_byAlice.1

/-- There is no room for her signature, but the state is supported from then
on. -/
theorem supported_unsent :
    Wallet.create aliceKey cramped anyApps = .ok crampedWallet ∧
    ((crampedWallet.run bobSigned).signAndSend state).1 =
      .error (.refused (.outbox (.full 1))) ∧
    (crampedWallet.run bobSigned).store.latestState channel.id = .ok none ∧
    ((crampedWallet.run bobSigned).signAndSend state).2.store.latestState channel.id =
      .ok (some state) := by
  rw [run_bobSigned]
  obtain ⟨store, result⟩ := Wallet.signAndSend_of_records records_oneMissing
  have account : oneMissing.address = alice := address_aliceKey
  obtain ⟨next, queued⟩ := broadcast_full account rfl
    (.signedStates [.sign state oneMissing.signer])
  refine ⟨create_crampedWallet, ?_, ?_, ?_⟩
  · rw [result, queued]
  · exact Store.latestState_eq_ok_iff.2 ⟨_, get?_oneMissing, rfl⟩
  · rw [store, show oneMissing.signer = aliceKey from rfl, sign_state]
    exact Store.latestState_eq_ok_iff.2
      ⟨_, Store.get?_addSigned get?_oneMissing, add_byAlice.2⟩

/-- The signature that was pending before is Bob's, so the store is another
one. -/
theorem store_of_failed_signAndSend_full :
    ((crampedWallet.run bobSigned).signAndSend state).1 =
      .error (.refused (.outbox (.full 1))) ∧
    ((crampedWallet.run bobSigned).signAndSend state).2.store ≠
      (crampedWallet.run bobSigned).store := by
  obtain ⟨unsent, -, kept⟩ :=
    Wallet.store_of_failed_signAndSend create_crampedWallet bobSigned state
  have failed := (unsent (.full 1)).2 ?_
  · refine ⟨failed, fun same => ?_⟩
    rcases (kept _ failed).1 same with other | ⟨pending, isPending, isLast⟩
    · exact other _ rfl
    · rw [run_bobSigned] at isPending
      obtain ⟨e, found, rfl⟩ := Store.pending_eq_ok_iff.1 isPending
      obtain rfl : bobsEntry = e := Option.some.inj (get?_oneMissing.symm.trans found)
      rw [sign_state] at isLast
      have same : byBob = byAlice := Option.some.inj isLast
      exact alice_ne_bob (congrArg SignedState.signer same).symm
  · rw [run_bobSigned]
    exact ⟨channel, _, records_oneMissing, rfl, by decide, rfl⟩

end Adjudicator.Sample

end StateChannels
