import StateChannels.Proofs.Outbox.Room
import StateChannels.Proofs.Wallet.History

/-!
# `StateChannels.Proofs.Wallet.Regular`: the parts of a wallet fit together

The account and the settings of a wallet are those it was made with. Its
queue has the capacity and the policy of the settings and stays within them.
Each of its negotiations is about a stored channel, among the participants of
this channel and for the account of the wallet.

* `Regular.edit`: every write of an operation keeps this.
* `regular_run`: so it is true of every wallet that can be reached.
* `Regular.broadcast_eq_error_iff`: when the queue of such a wallet refuses
  a message for others.
-/

set_option autoImplicit false

namespace StateChannels

/-- All participants but one are one less. -/
theorem Channel.length_others {c : Channel} {a : Address} (participant : a ∈ c.participants) :
    (c.participants.filter fun p => p ≠ a).length = c.size - 1 := by
  have others : (c.participants.filter fun p => p ≠ a) = c.participants.erase a := by
    rw [c.nodup.erase_eq_filter]
    exact List.filter_congr fun p _ => by simp [bne, Bool.beq_eq_decide_eq]
  rw [others, List.length_erase_of_mem participant, Channel.size]

namespace Wallet

variable {signer : Signer} {config : Config} {apps : AppRegistry} {w w' : Wallet} {c : Channel}
  {target : Hash} {n : Negotiation} {e : OutboxError}

/-- What is true of the wallet of an account with some settings at every
time. -/
structure Regular (signer : Signer) (config : Config) (w : Wallet) : Prop where
  signer_eq : w.signer = signer
  config_eq : w.config = config
  bounded : w.outbox.Bounded config.outboxCapacity.toNat config.backpressure
  terms : ∀ target n, w.negotiations.get? target = some n →
    ∃ c, w.store.channel target = .ok c ∧
      n.terms = (target, c.participants, signer.address, config.maxStrategyAttempts)

/-- The negotiation about a stored channel, whether it goes on or is
started. -/
theorem Regular.terms_negotiation (h : Regular signer config w)
    (stored : w.store.channel target = .ok c) (current : w.negotiation c target = .ok n) :
    n.terms = (target, c.participants, signer.address, config.maxStrategyAttempts) := by
  unfold negotiation at current
  split at current
  · rename_i found
    cases current
    obtain ⟨c', stored', terms⟩ := h.terms target n found
    obtain rfl : c = c' := Except.ok.inj (stored.symm.trans stored')
    exact terms
  · rw [Negotiation.start] at current
    split at current
    · cases current
      rw [Negotiation.terms, address, h.signer_eq, h.config_eq]
    · cases current

/-- One write at a time. The queue changes by messages, the negotiations by
their steps, and the store never drops a channel. -/
theorem Regular.edit (edit : Edit w w') (h : Regular signer config w) :
    Regular signer config w' := by
  -- The channel of a negotiation stays in the store whatever the edit.
  have terms : ∀ target n, w.negotiations.get? target = some n →
      ∃ c, w'.store.channel target = .ok c ∧
        n.terms = (target, c.participants, signer.address, config.maxStrategyAttempts) := by
    intro target n found
    obtain ⟨c, stored, terms⟩ := h.terms target n found
    obtain ⟨events, -, store⟩ := edit.leads.store
    exact ⟨c, store ▸ Store.channel_run stored events, terms⟩
  cases edit with
  | accept strategies => exact ⟨h.signer_eq, h.config_eq, h.bounded, terms⟩
  | flush => exact ⟨h.signer_eq, h.config_eq, h.bounded.flush, terms⟩
  | channel made => exact ⟨h.signer_eq, h.config_eq, h.bounded, terms⟩
  | signed passed added => exact ⟨h.signer_eq, h.config_eq, h.bounded, terms⟩
  | broadcast participants m =>
    exact ⟨h.signer_eq, h.config_eq, h.bounded.pushAll m _, terms⟩
  | @negotiation c target _ n' stored current same =>
    refine ⟨h.signer_eq, h.config_eq, h.bounded, fun other m found => ?_⟩
    rw [setNegotiation, Table.get?_insert] at found
    split at found
    · rename_i isTarget
      subst isTarget
      obtain rfl : n' = m := Option.some.inj found
      exact ⟨c, stored, same.trans (h.terms_negotiation stored current)⟩
    · exact terms other m found

/-- A new wallet is regular. -/
theorem regular_create (created : create signer config apps = .ok w) :
    Regular signer config w := by
  obtain ⟨valid, made⟩ := check_bind_eq_ok_iff.1 created
  obtain ⟨-, notZero, -⟩ := Config.validate_eq_ok_iff.1 (mapError_eq_ok_iff.1 valid)
  have positive : 0 < config.outboxCapacity.toNat := by
    rw [Nat.pos_iff_ne_zero]
    exact fun zero => notZero (UInt64.toNat_inj.1 zero)
  cases made
  refine ⟨rfl, rfl, Outbox.bounded_empty positive, fun target n found => ?_⟩
  cases found

/-- A wallet is regular after whatever was done with it. -/
theorem regular_run (created : create signer config apps = .ok w) (actions : List Action) :
    Regular signer config (w.run actions) :=
  (edits_run w actions).keep (fun edit h => h.edit edit) (regular_create created)

/-- A message for others is refused exactly if the queue keeps what it has,
and the others are more than the free places. -/
theorem Regular.broadcast_eq_error_iff (h : Regular signer config w) (participants : List Address)
    (m : Message) :
    (w.broadcast participants m).1 = .error e ↔
      config.backpressure = .reject ∧
        config.outboxCapacity.toNat <
          w.outbox.size + (participants.filter fun p => p ≠ signer.address).length ∧
        e = .full config.outboxCapacity.toNat := by
  rw [broadcast, address, h.signer_eq]
  exact h.bounded.pushAll_eq_error_iff m _

end Wallet

end StateChannels
