import StateChannels.Proofs.Allocation.Conservation
import StateChannels.Proofs.App.Phases
import StateChannels.Proofs.Funding.Virtual
import StateChannels.Proofs.Wallet.History

/-!
# `StateChannels.Proofs.Funding.JointUpdate`: when the joint channel can be updated

A plan for virtual funding ends with an update of the joint channel, which
comes right after the supported state of this channel. The plan is made
without a look at the rules of a transition. A wallet applies these rules
before it signs the update, and before it takes in a signature of another
participant.

The update changes the outcome. In a channel of three this is not allowed at
the first six turns, whatever the application is. So a plan that is made for a
joint channel in its first state can not be carried out.

* `Wallet.signAndSend_of_invalid`: a wallet refuses a state that is not valid at
  the next turn.
* `VirtualFundingPlan.JointBalanced.validTransition`: what the rules of the
  joint channel say to the update.
* `Store.joint_update_passes_iff`: exactly when the update of a plan passes.
-/

set_option autoImplicit false

namespace StateChannels

/-! ### A state that is not valid -/

namespace Wallet

variable {w : Wallet} {s prev : State} {c : Channel} {app : App}

/-- A state at the next turn that is not valid is refused, and nothing is
signed. -/
theorem signAndSend_of_invalid (registered : w.apps.get? s.appDefinition = some app)
    (latest : w.store.latestState s.channelId = .ok (some prev))
    (channel : w.store.channel s.channelId = .ok c)
    (next : s.turnNum.toNat = prev.turnNum.toNat + 1)
    (invalid : app.validTransition prev s c.size = .ok false) :
    w.checkTransition s = .error (.refused (.invalidTransition s.turnNum)) ∧
      w.signAndSend s = (.error (.refused (.invalidTransition s.turnNum)), w) := by
  have refused : w.checkTransition s = .error (.refused (.invalidTransition s.turnNum)) := by
    rw [checkTransition_of_supported registered latest channel, TurnNum.succ_eq_ok_iff.2 next,
      invalid]
    exact if_pos rfl
  refine ⟨refused, ?_⟩
  rw [signAndSend, refused]

end Wallet

/-! ### The update of a plan -/

namespace VirtualFundingPlan.JointBalanced

variable {plan : VirtualFundingPlan} {index : Nat} {assetHolder : Address} {target : Hash}
  {s : State} {a h b : AllocationItem}

/-- The update changes the outcome: where it had three items it has two. -/
theorem change (balanced : plan.JointBalanced index assetHolder target s a h b) :
    plan.jointUpdate.outcome ≠ s.outcome := by
  intro same
  have given := balanced.given
  rw [same, balanced.found] at given
  simp at given

/-- Whatever the application, it decides about the update if the supported
state is at turn 5 or later, and not final. Else the rules of the channel
refuse it. -/
theorem validTransition (app : App)
    (balanced : plan.JointBalanced index assetHolder target s a h b) :
    app.validTransition s plan.jointUpdate 3 =
      if s.isFinal = false ∧ 5 ≤ s.turnNum.toNat then app.accepts s plan.jointUpdate 3
      else .ok false := by
  have change := balanced.change
  obtain ⟨t, later, update⟩ := balanced.update
  rw [update] at change ⊢
  rw [App.validTransition_of_change app later change (by decide)]
  -- The update is at turn 6 or later if the supported state is at turn 5 or later.
  have setup : 2 * 3 ≤ t.toNat ↔ 5 ≤ s.turnNum.toNat := by omega
  simp only [setup]

end VirtualFundingPlan.JointBalanced

namespace Store

variable {store : Store} {jointId ledger target : Hash} {index : Nat} {assetHolder : Address}
  {nonce : Uint256} {duration : Seconds} {plan : VirtualFundingPlan}

/-- The update of a plan is a valid transition of the joint channel exactly if
the supported state of this channel is not final and at turn 5 or later. Then
a wallet that lets any state of the joint channel follow does not refuse it.
Else the wallet refuses it and does not sign it, though there is a plan. -/
theorem joint_update_passes_iff
    (planned : store.planVirtualFunding jointId index ledger assetHolder target nonce duration =
      .ok plan) :
    ∃ s, store.latestState jointId = .ok (some s) ∧
      App.trivial.validTransition s plan.jointUpdate 3 =
        .ok (s.isFinal = false ∧ 5 ≤ s.turnNum.toNat) ∧
      ∀ w : Wallet, w.store = store → store.Sound →
        w.apps.get? s.appDefinition = some .trivial →
        (s.isFinal = false ∧ 5 ≤ s.turnNum.toNat →
          w.checkTransition plan.jointUpdate = .ok ()) ∧
        (¬(s.isFinal = false ∧ 5 ≤ s.turnNum.toNat) →
          w.checkTransition plan.jointUpdate =
            .error (.refused (.invalidTransition plan.jointUpdate.turnNum)) ∧
          w.signAndSend plan.jointUpdate =
            (.error (.refused (.invalidTransition plan.jointUpdate.turnNum)), w)) := by
  obtain ⟨joint, s, a, h, b, isJoint, isLatest, participants, balanced, -⟩ :=
    planVirtualFunding_balanced planned
  have rule := balanced.validTransition .trivial
  refine ⟨s, isLatest, ?_, ?_⟩
  · rw [rule]
    split <;> simp_all [App.trivial]
  · rintro w rfl sound registered
    have size : joint.size = 3 := by
      simpa [Channel.size] using (congrArg List.length participants).symm
    obtain ⟨t, later, update⟩ := balanced.update
    -- The update is a state of the joint channel, with the application of the supported state.
    have own : plan.jointUpdate.channelId = jointId := by
      rw [← sound.channelId_of_latestState isLatest, update]
    have sameApp : plan.jointUpdate.appDefinition = s.appDefinition := by rw [update]
    have next : plan.jointUpdate.turnNum.toNat = s.turnNum.toNat + 1 := by rw [update, later]
    rw [← own] at isJoint isLatest
    rw [← sameApp] at registered
    rw [← size] at rule
    constructor
    · intro started
      rw [if_pos started] at rule
      exact Wallet.checkTransition_of_valid registered isLatest isJoint rule
    · intro early
      rw [if_neg early] at rule
      exact Wallet.signAndSend_of_invalid registered isLatest isJoint next rule

end Store

/-! ### A joint channel in its first state, and one after the setup -/

namespace Adjudicator.Sample

/-- The address of the third key. -/
def carol : Address := address 0x6813eb9362372eef6200f3b1dbc3f819671cba69

/-- The joint channel of Alice and Carol, with Bob as the hub. -/
def jointChannel : Channel where
  chainId := .one
  participants := [alice, bob, carol]
  nonce := .zero
  ne_nil := by simp
  nodup := by decide +kernel

open Allocation.Sample (units)

/-- Two units for Alice, three for Carol, and five for the hub. -/
def jointShares : JointShares where
  participants := #v[alice, bob, carol]
  items := #v[⟨.ofAddress alice, units 2⟩, ⟨.ofAddress bob, units 5⟩,
    ⟨.ofAddress carol, units 3⟩]

/-- The shares as one allocation of the joint channel. -/
def jointOutcome : Outcome := .single .zero ⟨jointShares.items.toList⟩

/-- The state of the joint channel at a turn. -/
def jointAt (turnNum : TurnNum) : State :=
  { state with channelId := jointChannel.id, turnNum, outcome := jointOutcome }

/-- The state of Alice's ledger channel with the hub: three units for each. -/
def ledgerState : State :=
  { state with
    outcome := .single .zero ⟨[⟨.ofAddress alice, units 3⟩, ⟨.ofAddress bob, units 3⟩]⟩ }

/-- The id of the joint channel. -/
theorem id_jointChannel : jointChannel.id =
    digest 0x0ff2ee65e7e50438b8a442574e03bd57db381d38f3682d6620ca4e9e6013355c := by
  rw [Channel.id, Abi.Token.argsHash, keccak256_eq]
  decide +kernel

/-- The hash of the shares. -/
theorem hash_jointOutcome : jointOutcome.hash =
    digest 0xe087e2821552ad15f3b1e4c054e712d9acf38f16ac2ff3beef5f64185aa6446c := by
  rw [Outcome.hash, keccak256_eq]
  decide +kernel

/-- What is hashed for the state at a turn. -/
theorem token_jointAt (turn : TurnNum) : (jointAt turn).token =
    .tuple [.ofNat turn.toNat, .ofBool false,
      .ofHash (digest 0x0ff2ee65e7e50438b8a442574e03bd57db381d38f3682d6620ca4e9e6013355c),
      .ofHash (digest 0x22625d49ec2b18fae88139001f77f9fce1d0416e505ceb6e5d66920381d15eff),
      .ofHash (digest 0xe087e2821552ad15f3b1e4c054e712d9acf38f16ac2ff3beef5f64185aa6446c)] := by
  rw [← id_jointChannel, ← appPartHash_state, ← hash_jointOutcome]
  simp only [State.token, State.appPartHash, State.appPart, jointAt, state]

/-- The hash of the joint channel's first state. -/
theorem hash_jointAt_zero : (jointAt 0).hash =
    digest 0xa9a26123adfa41183b8857bc7bb67ace8c69a4091ca57b239826c97f4b271a61 := by
  rw [State.hash, Abi.Token.argsHash, keccak256_eq, token_jointAt]
  decide +kernel

/-- The hash of the joint channel's state at turn 5. -/
theorem hash_jointAt_five : (jointAt 5).hash =
    digest 0xf396e4fe347b4bbcd5878fb034567e8651e03868e4e96a23362ee4b4b125a321 := by
  rw [State.hash, Abi.Token.argsHash, keccak256_eq, token_jointAt]
  decide +kernel

/-- The hash of the ledger channel's state. -/
theorem hash_ledgerState : ledgerState.hash =
    digest 0xef7163655215191b9c8b0c804e6577abe5cf5200de7dbdaba3d51dcf4e717ba9 := by
  rw [State.hash, State.token, show ledgerState.channelId = channel.id from rfl,
    id_channel, show ledgerState.appPartHash = state.appPartHash from rfl, appPartHash_state,
    Outcome.hash, Abi.Token.argsHash, keccak256_eq, keccak256_eq]
  decide +kernel

/-- The participants' signatures on the first state of the joint channel. -/
def jointSignaturesAtZero : List Signature := [
  signature 0x5ff4573d30e4af78d37cfd47d5bf08496b8ace8cd5a4b164cc3eabeef3af907e
    0x22cf3f2cb149c99f8a426c42d3c6aeb38152e74d809eee5d332df74db8f01dd1 27,
  signature 0x7c4de7a33736b524041511670e29a4ed25a36c2d296a94aab212f85fca5b4e92
    0x12bbb32c4395e4dabf90d834dc22ce4b2f6a8b5280813ead9da08e7caf4a7eb9 27,
  signature 0x5bd509fd34679960447b3410093bf9fab60f8cbcd2e844b3c892a683064e26db
    0x0f2a4456463dc72385e16dc5fbc4b8a78ae7f3bed8a989943efc7a6745d93a06 28]

/-- The participants' signatures on the last state of the setup. -/
def jointSignaturesAtFive : List Signature := [
  signature 0x4f495287b3e8b9e5d8ef8f5da237d4343b80fa0e1d24fe49a14f8140a4cc5ace
    0x2f3a8025572d1672dd82e5def1d0d5107b0fcf5c93cb5ec10712dc51fee13fdd 28,
  signature 0xbc184e35049e37f4401ed083edfb8e06103ea6d78e09dc7b62a9d080517b16c7
    0x32fec879517149d9f9a8a011817af56d590c4dc4dfd69f917e293847f6be6b6d 27,
  signature 0xe56242c0dc81b714bb8faf3a332ac1a9c188761d8622544b64eb26bc07f161d8
    0x6eb90178e5759914f015ed84b5d6fe755591c5e5b6da6699455c74d700974c27 28]

/-- Alice's and the hub's signatures on the state of their ledger channel. -/
def ledgerSignatures : List Signature := [
  signature 0xc37bbffa19d2fed89a5736981bd97098eaf540d77680b642a8239df2bf07eef1
    0x12198c89e122c7fff113dcce6e696dda2f781d7f58559fa5fa5bced372bee7d5 27,
  signature 0xef84a862aa68c91131065da43db716650987014d0c026e5b95aed2673973198e
    0x4623adf69e09ed63fcad8d6d01a858cbb7fe1244fcc0c2ac7a0430fdb8749764 28]

/-- All three signed the joint channel's first state. -/
theorem unanimous_atZero :
    Unanimous jointChannel (signedBy jointChannel (jointAt 0) jointSignaturesAtZero)
      (jointAt 0) := by
  refine unanimous_signedBy rfl ?_
  rw [hash_jointAt_zero]
  exact .cons (recoverSigner_of_recovers (by decide +kernel))
    (.cons (recoverSigner_of_recovers (by decide +kernel))
      (.cons (recoverSigner_of_recovers (by decide +kernel)) .nil))

/-- All three signed the joint channel's state at turn 5. -/
theorem unanimous_atFive :
    Unanimous jointChannel (signedBy jointChannel (jointAt 5) jointSignaturesAtFive)
      (jointAt 5) := by
  refine unanimous_signedBy rfl ?_
  rw [hash_jointAt_five]
  exact .cons (recoverSigner_of_recovers (by decide +kernel))
    (.cons (recoverSigner_of_recovers (by decide +kernel))
      (.cons (recoverSigner_of_recovers (by decide +kernel)) .nil))

/-- Alice and the hub signed the ledger channel's state. -/
theorem unanimous_ledgerState :
    Unanimous channel (signedBy channel ledgerState ledgerSignatures) ledgerState := by
  refine unanimous_signedBy rfl ?_
  rw [hash_ledgerState]
  exact .cons (recoverSigner_of_recovers (by decide +kernel))
    (.cons (recoverSigner_of_recovers (by decide +kernel)) .nil)

/-- The store that was given the joint channel with a state that everyone
signed, then Alice's ledger channel. -/
def storeAt (turn : TurnNum) (signatures : List Signature) : Store :=
  Store.empty.run
    ((.channel jointChannel :: (signedBy jointChannel (jointAt turn) signatures).map .signed) ++
      (.channel channel :: (signedBy channel ledgerState ledgerSignatures).map .signed))

/-- Alice's wallet with this store. -/
def walletAt (turn : TurnNum) (signatures : List Signature) : Wallet :=
  { wallet anyApps with store := storeAt turn signatures }

/-- The channel to fund. -/
def targetChannel : Hash := ⟨.replicate 32 7⟩

section

variable {turn next : TurnNum} {signatures : List Signature}
  (unanimous : Unanimous jointChannel (signedBy jointChannel (jointAt turn) signatures)
    (jointAt turn))
include unanimous

/-- In the store both the joint state and the ledger state are supported. -/
theorem supports_storeAt :
    (storeAt turn signatures).Supports jointChannel (jointAt turn) ∧
      (storeAt turn signatures).Supports channel ledgerState := by
  have other : channel.id ≠ jointChannel.id := by
    rw [id_channel, id_jointChannel]
    decide +kernel
  have isNew : Store.empty.entries.get? jointChannel.id = none := rfl
  obtain ⟨⟨e, found, isChannel, latest⟩, kept⟩ := Store.supports_of_unanimous isNew unanimous
  obtain ⟨ledger, kept'⟩ :=
    Store.supports_of_unanimous (kept channel.id other) unanimous_ledgerState
  -- What comes for the ledger channel leaves the joint channel as it is.
  rw [storeAt, Store.run_append]
  exact ⟨⟨e, (kept' _ other.symm).trans found, isChannel, latest⟩, ledger⟩

/-- The joint channel has no other latest state. -/
theorem eq_jointAt {s : State}
    (isLatest : (storeAt turn signatures).latestState jointChannel.id = .ok (some s)) :
    jointAt turn = s := by
  have supported := (supports_storeAt unanimous).1.isLatest
  exact Option.some.inj (Except.ok.inj (supported.symm.trans isLatest))

/-- Alice has a plan, if there is a next turn in the joint channel. -/
theorem exists_plan (later : next.toNat = turn.toNat + 1) :
    ∃ plan, (storeAt turn signatures).planVirtualFunding jointChannel.id 0 channel.id .zero
      targetChannel .one 60 = .ok plan := by
  obtain ⟨joint, ledger⟩ := supports_storeAt unanimous
  obtain ⟨guarantor, created⟩ :
      ∃ guarantor, jointShares.guarantor jointChannel 0 .one = .ok guarantor := ⟨_, rfl⟩
  obtain ⟨o, reserves⟩ : ∃ o, ledgerState.outcome.reserve .zero (jointShares.deductions 0)
      guarantor.id = .ok o := ⟨_, rfl⟩
  have proposed : (storeAt turn signatures).ledgerFundingProposal channel.id .zero guarantor.id
      (jointShares.deductions 0) = .ok (ledgerState.step 5 ⟨1, o⟩) :=
    Store.ledgerFundingProposal_eq_ok_iff.2 ⟨ledgerState, channel, o, ledger.isLatest,
      ledger.isChannel, reserves,
      State.propose_eq_ok_iff.2 ⟨.idle, 1, 5, ConsensusData.decode?_idle, rfl, rfl, rfl, rfl⟩⟩
  exact ⟨_, Store.planVirtualFunding_eq_ok_iff.2 ⟨jointChannel, jointAt turn, _, jointShares,
    guarantor, _, 0, next, joint.isChannel, joint.isLatest, rfl, rfl, rfl, by decide, created,
    proposed, later, rfl⟩⟩

end

/-- There is a plan at turn 0. -/
theorem exists_plan_atZero :
    ∃ plan, (storeAt 0 jointSignaturesAtZero).planVirtualFunding jointChannel.id 0 channel.id
      .zero targetChannel .one 60 = .ok plan :=
  exists_plan unanimous_atZero (show (1 : TurnNum).toNat = 0 + 1 from rfl)

/-- There is a plan at turn 5. -/
theorem exists_plan_atFive :
    ∃ plan, (storeAt 5 jointSignaturesAtFive).planVirtualFunding jointChannel.id 0 channel.id
      .zero targetChannel .one 60 = .ok plan :=
  exists_plan unanimous_atFive (show (6 : TurnNum).toNat = 5 + 1 from rfl)

/-- After the setup the update passes. For the first state there is a plan as
well, but Alice's wallet does not sign its update. -/
theorem joint_update_passes_iff_afterSetup :
    (∃ plan, (storeAt 5 jointSignaturesAtFive).planVirtualFunding jointChannel.id 0 channel.id
        .zero targetChannel .one 60 = .ok plan ∧
      (walletAt 5 jointSignaturesAtFive).checkTransition plan.jointUpdate = .ok ()) ∧
    ∃ plan, (storeAt 0 jointSignaturesAtZero).planVirtualFunding jointChannel.id 0 channel.id
        .zero targetChannel .one 60 = .ok plan ∧
      (walletAt 0 jointSignaturesAtZero).signAndSend plan.jointUpdate =
        (.error (.refused (.invalidTransition plan.jointUpdate.turnNum)),
          walletAt 0 jointSignaturesAtZero) := by
  constructor
  · obtain ⟨plan, planned⟩ := exists_plan_atFive
    obtain ⟨s, isLatest, -, wallets⟩ := Store.joint_update_passes_iff planned
    obtain rfl := eq_jointAt unanimous_atFive isLatest
    have passes := (wallets (walletAt 5 jointSignaturesAtFive) rfl Store.sound_empty.run rfl).1
    exact ⟨plan, planned, passes (by decide)⟩
  · obtain ⟨plan, planned⟩ := exists_plan_atZero
    obtain ⟨s, isLatest, -, wallets⟩ := Store.joint_update_passes_iff planned
    obtain rfl := eq_jointAt unanimous_atZero isLatest
    have refused := (wallets (walletAt 0 jointSignaturesAtZero) rfl Store.sound_empty.run rfl).2
    exact ⟨plan, planned, (refused (by decide)).2⟩

/-- The first state of the joint channel is supported and not final, and Alice
has a plan for it. Its update is not a valid transition. -/
theorem joint_update_invalid_atZero :
    ∃ plan, (storeAt 0 jointSignaturesAtZero).planVirtualFunding jointChannel.id 0 channel.id
        .zero targetChannel .one 60 = .ok plan ∧
      (storeAt 0 jointSignaturesAtZero).latestState jointChannel.id = .ok (some (jointAt 0)) ∧
      (jointAt 0).isFinal = false ∧ jointChannel.size = 3 ∧
      App.trivial.validTransition (jointAt 0) plan.jointUpdate 3 = .ok false := by
  obtain ⟨plan, planned⟩ := exists_plan_atZero
  obtain ⟨_, s, a, h, b, -, isLatest, -, balanced, -⟩ := Store.planVirtualFunding_balanced planned
  obtain rfl := eq_jointAt unanimous_atZero isLatest
  have early : ¬((jointAt 0).isFinal = false ∧ 5 ≤ (jointAt 0).turnNum.toNat) := by decide
  have rule := balanced.validTransition .trivial
  rw [if_neg early] at rule
  exact ⟨plan, planned, isLatest, rfl, rfl, rule⟩

end Adjudicator.Sample

end StateChannels
