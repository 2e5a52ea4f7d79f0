import Mathlib.Logic.Relation
import StateChannels.Proofs.Negotiation.Steps

/-!
# `StateChannels.Proofs.Wallet.Edits`: what an operation writes

An operation of a wallet writes to one of its parts after the other, and a
refusal leaves what was written before it. There are six kinds of writes
(`Edit`), each of which touches one part. What all of them keep, every
operation keeps, whatever its result is.

The six kinds say under which condition a part is written: a signed state
goes to the store only after it passed the comparison with the supported
one, and a negotiation belongs to a stored channel and stays about the same
thing.

* `edits_signAndSend`, `edits_proposeStrategy`, `edits_handleMessage` and so
  on: every operation is a sequence of edits.
-/

set_option autoImplicit false

namespace StateChannels

namespace Wallet

variable {w w' : Wallet}

/-- One write to a wallet. -/
inductive Edit : Wallet → Wallet → Prop
  | accept (w : Wallet) (strategies : List Strategy) : Edit w { w with acceptable := strategies }
  | flush (w : Wallet) : Edit w w.flush.2
  /-- A new channel is stored. -/
  | channel {w : Wallet} {c : Channel} {id : Hash} {store : Store}
      (made : w.store.addChannel c = .ok (id, store)) : Edit w { w with store }
  /-- A signed state that passes the comparison is given to the store,
  whether this takes it or not. -/
  | signed {w : Wallet} {signed : SignedState} {result : Except StoreError (Option Supported)}
      {store : Store} (passed : w.checkTransition signed.state = .ok ())
      (added : w.store.addSigned signed = (result, store)) : Edit w { w with store }
  /-- A message is queued for others, or for the first of them. -/
  | broadcast (w : Wallet) (participants : List Address) (m : Message) :
      Edit w (w.broadcast participants m).2
  /-- The negotiation about a stored channel takes a step. -/
  | negotiation {w : Wallet} {c : Channel} {target : Hash} {n n' : Negotiation}
      (stored : w.store.channel target = .ok c) (current : w.negotiation c target = .ok n)
      (terms : n'.terms = n.terms) : Edit w (w.setNegotiation target n')

/-- Any number of writes. -/
abbrev Edits : Wallet → Wallet → Prop := Relation.ReflTransGen Edit

/-- What every write keeps, any number of them keeps. -/
theorem Edits.keep {P : Wallet → Prop} (h : Edits w w')
    (step : ∀ {w w'}, Edit w w' → P w → P w') (start : P w) : P w' := by
  induction h with
  | refl => exact start
  | tail _ edit ih => exact step edit ih

/-- An operation gives a result and the wallet after it. -/
theorem Edits.snd {α : Type} {x : α × Wallet} {result : α} (h : Edits w x.2)
    (made : x = (result, w')) : Edits w w' := by
  rw [made] at h
  exact h

/-! ### Operations of the owner -/

/-- A channel is stored, or nothing is written. -/
theorem edits_addChannel (w : Wallet) (c : Channel) : Edits w (w.addChannel c).2 := by
  unfold addChannel
  split
  · split
    · exact .refl
    · rename_i made
      exact .single (.channel made)
  · exact .refl

/-- A signature is stored and then queued. If there is no room in the queue,
it is stored all the same. -/
theorem edits_signAndSend (w : Wallet) (s : State) : Edits w (w.signAndSend s).2 := by
  unfold signAndSend
  cases passed : w.checkTransition s with
  | error e => exact .refl
  | ok =>
    cases w.store.channel s.channelId with
    | error e => exact .refl
    | ok c =>
      rcases added : w.store.addSigned (.sign s w.signer) with ⟨result, store⟩
      have given : Edits w { w with store } := .single (.signed passed added)
      cases result with
      | error e =>
        simp only [added]
        exact given
      | ok supported =>
        simp only [added]
        -- Whether there is room for the messages or not, the signature is in the store.
        have sent := given.tail (.broadcast _ c.participants (.signedStates [.sign s w.signer]))
        split
        · rename_i refused
          exact Edits.snd sent refused
        · rename_i queued
          exact Edits.snd sent queued

/-- Without a state to sign nothing is written. -/
theorem edits_signAndSendNext (w : Wallet) (next : Except (Failure WalletError) State) :
    Edits w (w.signAndSendNext next).2 := by
  cases next with
  | error e => exact .refl
  | ok s => exact edits_signAndSend w s

/-- A channel is stored unless it is there. -/
theorem edits_storeChannel {c : Channel} (stored : w.storeChannel c = .ok w') : Edits w w' := by
  unfold storeChannel at stored
  split at stored
  · cases stored
    exact .refl
  · split at stored
    · cases stored
    · rename_i made
      cases stored
      exact .single (.channel made)

/-- The guarantor channel is stored before its first state is signed, and
stays stored if this is refused. -/
theorem edits_fundVirtually (w : Wallet) (jointId ledger : Hash) (assetHolder : Address)
    (target : Hash) (nonce : Uint256) :
    Edits w (w.fundVirtually jointId ledger assetHolder target nonce).2 := by
  unfold fundVirtually
  split
  · exact .refl
  · rename_i plan _
    split
    · exact .refl
    · rename_i stored made
      have signed := (edits_storeChannel made).trans (edits_signAndSend stored plan.guarantorState)
      split
      · rename_i refused
        exact Edits.snd signed refused
      · rename_i done
        exact Edits.snd signed done

/-- The negotiation takes its step before the proposal is queued. A
negotiation that refuses the proposal may have changed too. -/
theorem edits_proposeStrategy (w : Wallet) (target : Hash) (strategy : Strategy) :
    Edits w (w.proposeStrategy target strategy).2 := by
  unfold proposeStrategy
  split
  · exact .refl
  · rename_i c stored
    split
    · exact .refl
    · rename_i n current
      have terms := (Negotiation.proposed n strategy).terms
      split
      · rename_i n' proposed
        rw [proposed] at terms
        exact .single (.negotiation stored current terms)
      · rename_i m n' proposed
        rw [proposed] at terms
        -- A proposal that is sent sets the negotiation before the broadcast, which can fail.
        have sent : Edits w
            ((w.setNegotiation target n').broadcast c.participants (.strategy m)).2 :=
          (Relation.ReflTransGen.single (.negotiation stored current terms)).tail
            (.broadcast _ c.participants (.strategy m))
        split
        · rename_i refused
          exact Edits.snd sent refused
        · rename_i queued
          exact Edits.snd sent queued

/-! ### Incoming messages -/

/-- A signed state goes to the store if it passes the comparison, whether
the store takes it or not. -/
theorem edits_handleSigned (w : Wallet) (signed : SignedState) :
    Edits w (w.handleSigned signed).2 := by
  unfold handleSigned
  cases passed : w.checkTransition signed.state with
  | error e => exact .refl
  | ok =>
    rcases added : w.store.addSigned signed with ⟨result, store⟩
    cases result with
    | error e => exact .single (.signed passed added)
    | ok supported => exact .single (.signed passed added)

/-- Signed states are taken in one after the other, until one of them stops. -/
theorem edits_handleAllSigned (w : Wallet) (states : List SignedState) :
    Edits w (w.handleAllSigned states).2 := by
  induction states generalizing w with
  | nil => exact .refl
  | cons signed states ih =>
    rw [handleAllSigned]
    rcases handled : w.handleSigned signed with ⟨result, next⟩
    have first := Edits.snd (edits_handleSigned w signed) handled
    -- The others are looked at too, unless the first one stops.
    rcases result with (o | e) | event
    · exact first
    · exact first.trans (ih next)
    · exact first.trans (ih next)

/-- The negotiation takes its step before the answer is queued. -/
theorem edits_handleStrategy (w : Wallet) (sender : Address) (m : StrategyMessage) :
    Edits w (w.handleStrategy sender m).2 := by
  unfold handleStrategy
  split
  · exact .refl
  · rename_i c stored
    split
    · exact .refl
    · rename_i n current
      have terms := (Negotiation.handled n sender m w.acceptable).terms
      rcases handled : n.handle sender m w.acceptable with ⟨result, after⟩
      rw [handled] at terms
      have kept : Edits w (w.setNegotiation m.target after) :=
        .single (.negotiation stored current terms)
      simp only
      -- The answer is queued, if there is one. The rest is about the result only.
      cases answer? m result with
      | none => cases result <;> exact kept
      | some reply =>
        have sent := kept.tail (.broadcast _ c.participants (.strategy reply))
        simp only
        rcases queued : (w.setNegotiation m.target after).broadcast c.participants
          (.strategy reply) with ⟨e | _, next⟩
        · exact Edits.snd sent queued
        · cases result <;> exact Edits.snd sent queued

/-- What comes in is written like its parts, whatever is reported of it. -/
theorem edits_handleMessage (w : Wallet) (sender : Address) (m : Message) :
    Edits w (w.handleMessage sender m).2 := by
  cases m with
  | signedStates states => exact edits_handleAllSigned w states
  | strategy m =>
    have handled := edits_handleStrategy w sender m
    unfold handleMessage
    simp only
    split
    · rename_i h
      exact Edits.snd handled h
    · rename_i h
      exact Edits.snd handled h
    · rename_i h
      exact Edits.snd handled h

/-- A frame that is not read writes nothing. -/
theorem edits_handleBytes (w : Wallet) (frame : Bytes) : Edits w (w.handleBytes frame).2 := by
  unfold handleBytes
  split
  · exact edits_handleMessage ..
  · exact .refl

end Wallet

end StateChannels
