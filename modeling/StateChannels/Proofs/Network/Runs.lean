import StateChannels.Network
import StateChannels.Proofs.Wallet.Regular
import StateChannels.Proofs.Wire.Envelope

/-!
# `StateChannels.Proofs.Network.Runs`: wallets that work together

What happens on a network is that owners use their wallets, and that
wallets exchange what is in their queues. For each of the wallets this
is a run of its own: it acts when its owner does, and it takes in what
is sent to its account. So what holds along every run of a wallet holds
on every network.

* `peer_deliver`: items that are handed over in order reach the wallet
  of their account in order, and no other wallet.
* `peer_run`: after a run of the network each wallet is where a run of
  its own leads.
* `wallets_run`: so the wallets of a network stay sound and regular.
* `exchange_plain`: frames make no difference, as long as the messages
  fit in them and their outcomes are valid.
-/

set_option autoImplicit false

namespace StateChannels

variable {items : List (Address × Parcel)} {i j : Nat} {p q : Peer}

/-! ### One wallet -/

/-- What a wallet does that takes in an item. -/
def Parcel.action : Parcel → Wallet.Action
  | plain sender m => .message sender m
  | frame bytes => .frame bytes

namespace Wallet

/-- No edit changes the wallet's key. -/
theorem Edit.signer_eq {w w' : Wallet} (h : Edit w w') : w'.signer = w.signer := by
  cases h <;> rfl

/-- A wallet keeps its account. -/
theorem address_run (w : Wallet) (actions : List Action) : (w.run actions).address = w.address := by
  have kept : (w.run actions).signer = w.signer :=
    (edits_run w actions).keep (fun edit same => edit.signer_eq.trans same) rfl
  rw [address, kept, address]

/-- A run of two lists of actions is the one run after the other. -/
theorem run_append (w : Wallet) (before after : List Action) :
    w.run (before ++ after) = (w.run before).run after := List.foldl_append

end Wallet

namespace Peer

/-- The wallet after a run, on the same network. -/
def run (p : Peer) (actions : List Wallet.Action) : Peer :=
  { p with wallet := p.wallet.run actions }

/-- No actions leave the peer as it is. -/
@[simp] theorem run_nil (p : Peer) : p.run [] = p := rfl

/-- Two runs of a peer make one. -/
theorem run_run (p : Peer) (before after : List Wallet.Action) :
    (p.run before).run after = p.run (before ++ after) := by
  rw [run, run, run, Wallet.run_append]

/-- A peer's address does not change. -/
theorem address_run (p : Peer) (actions : List Wallet.Action) :
    (p.run actions).wallet.address = p.wallet.address := p.wallet.address_run actions

/-- A parcel acts on the peer by its action. -/
theorem receive_snd (p : Peer) (parcel : Parcel) :
    (p.receive parcel).2 = p.run [parcel.action] := by
  cases parcel <;> rfl

end Peer

namespace Network

variable {n n' n'' : Network}

/-! ### Handing over -/

/-- The accounts of the wallets, in order. -/
def accounts (n : Network) : List Address := n.peers.map fun p => p.wallet.address

/-- An account is found at the first place where it stands. -/
theorem indexOf?_eq (n : Network) (account : Address) :
    n.indexOf? account = n.accounts.findIdx? fun a => a = account := by
  rw [indexOf?, accounts, List.findIdx?_map]
  rfl

/-- Where an account is found depends on the accounts alone. -/
theorem indexOf?_congr (same : n'.accounts = n.accounts) (account : Address) :
    n'.indexOf? account = n.indexOf? account := by
  rw [indexOf?_eq, indexOf?_eq, same]

/-- What the wallet at an index takes in of some items: those for its
account, in their order. Of several wallets of one account the first
gets them. -/
def inbox (n : Network) (j : Nat) (items : List (Address × Parcel)) : List Wallet.Action :=
  (items.filter fun item => n.indexOf? item.1 = some j).map fun item => item.2.action

/-- An item for an account without a wallet is lost. Any other is taken
in by the wallet of its account. -/
theorem deliverTo_cases {recipient : Address} {parcel : Parcel} {events : Option (List Event)}
    (h : n.deliverTo recipient parcel = .ok (events, n')) :
    (n.indexOf? recipient = none ∧ events = none ∧ n' = n) ∨
    ∃ i p found, n.indexOf? recipient = some i ∧ n.peers[i]? = some p ∧ events = some found ∧
      (p.receive parcel).1 = .ok found ∧ n' = ⟨n.peers.set i (p.run [parcel.action])⟩ := by
  unfold deliverTo at h
  cases here : n.indexOf? recipient with
  | none =>
    rw [here] at h
    cases h
    exact .inl ⟨rfl, rfl, rfl⟩
  | some i =>
    rw [here] at h
    -- The index is that of a wallet.
    obtain ⟨inRange, -⟩ := List.findIdx?_eq_some_iff_getElem.1 here
    have isPeer : n.peers[i]? = some n.peers[i] := List.getElem?_eq_getElem inRange
    simp only [isPeer] at h
    obtain ⟨found, received, made⟩ := map_eq_ok_iff.1 h
    cases made
    exact .inr ⟨i, _, found, rfl, isPeer, rfl, received, by rw [Peer.receive_snd]⟩

/-- A delivery leaves the accounts as they are. -/
theorem accounts_deliverTo {recipient : Address} {parcel : Parcel} {events : Option (List Event)}
    (h : n.deliverTo recipient parcel = .ok (events, n')) : n'.accounts = n.accounts := by
  rcases deliverTo_cases h with ⟨-, -, rfl⟩ | ⟨i, p, _, -, isPeer, -, -, rfl⟩
  · rfl
  · obtain ⟨inRange, rfl⟩ := List.getElem?_eq_some_iff.1 isPeer
    have here : i < n.accounts.length := by simpa [accounts] using inRange
    have isAccount : n.accounts[i] = n.peers[i].wallet.address := List.getElem_map ..
    rw [accounts, List.map_set, Peer.address_run, ← isAccount]
    exact List.set_getElem_self here

/-- One item: the wallet of its account takes it in, and the others stay
as they are. -/
theorem peer_deliverTo {recipient : Address} {parcel : Parcel} {events : Option (List Event)}
    (h : n.deliverTo recipient parcel = .ok (events, n')) (isPeer : n.peers[j]? = some p) :
    n'.peers[j]? = some (p.run (n.inbox j [(recipient, parcel)])) := by
  rcases deliverTo_cases h with ⟨none, -, rfl⟩ | ⟨i, q, _, here, isOther, -, -, rfl⟩
  · simpa [inbox, none] using isPeer
  · by_cases same : i = j
    · subst same
      obtain rfl : p = q := Option.some.inj (isPeer.symm.trans isOther)
      have inRange := (List.getElem?_eq_some_iff.1 isPeer).1
      simp [inbox, here, inRange]
    · simpa [inbox, here, same] using isPeer

/-- Deliveries leave the accounts as they are. -/
theorem accounts_deliver {events : List (Option (List Event))}
    (h : n.deliver items = .ok (events, n')) : n'.accounts = n.accounts := by
  induction items generalizing n events with
  | nil =>
    cases h
    rfl
  | cons item items ih =>
    obtain ⟨⟨first, next⟩, handed, h⟩ := bind_eq_ok_iff.1 h
    obtain ⟨⟨more, last⟩, others, h⟩ := bind_eq_ok_iff.1 h
    cases h
    exact (ih others).trans (accounts_deliverTo handed)

/-- Items that are handed over in order. Each wallet takes in what is
for its account, in the same order, and nothing else happens to it. -/
theorem peer_deliver {events : List (Option (List Event))}
    (h : n.deliver items = .ok (events, n')) (isPeer : n.peers[j]? = some p) :
    n'.peers[j]? = some (p.run (n.inbox j items)) := by
  -- Induction on the items. The network changes with each of them, its accounts do not.
  induction items generalizing n p events with
  | nil =>
    cases h
    exact isPeer
  | cons item items ih =>
    obtain ⟨⟨first, next⟩, handed, h⟩ := bind_eq_ok_iff.1 h
    obtain ⟨⟨more, last⟩, others, h⟩ := bind_eq_ok_iff.1 h
    cases h
    have accounts := accounts_deliverTo handed
    have inbox_cons : n.inbox j (item :: items) = n.inbox j [item] ++ next.inbox j items := by
      have same : next.inbox j items = n.inbox j items := by
        simp only [inbox, indexOf?_congr accounts]
      rw [same, inbox, inbox, inbox, ← List.map_append, ← List.filter_append]
      rfl
    rw [inbox_cons, ← Peer.run_run]
    exact ih others (peer_deliverTo handed isPeer)

/-! ### Runs -/

/-- What can happen on a network. -/
inductive Move where
  /-- The owner of a wallet uses it, or something comes in from outside. -/
  | act (i : Nat) (a : Wallet.Action)
  /-- A wallet is flushed, and what it sends is handed over. -/
  | exchange (i : Nat)

/-- The network after a move, unless a wallet stops. -/
def step (n : Network) : Move → Except Overflow Network
  | .act i a => .ok (n.modify i fun w => w.step a)
  | .exchange i => Prod.snd <$> n.exchange i

/-- The network after a run. -/
def run (n : Network) (moves : List Move) : Except Overflow Network := moves.foldlM step n

/-- A modification changes the wallet at its place and no other. -/
theorem peer_modify (change : Wallet → Wallet) (isPeer : n.peers[j]? = some p) :
    (n.modify i change).peers[j]? =
      some (if i = j then { p with wallet := change p.wallet } else p) := by
  rw [modify, List.getElem?_modify, isPeer]
  split <;> rfl

/-- An exchange. The wallet that starts it is flushed, and then each
wallet takes in what is sent to its account. -/
theorem peer_exchange {events : List (Option (List Event))}
    (h : n.exchange i = .ok (events, n')) (isPeer : n.peers[j]? = some p) :
    n'.peers[j]? =
      some (p.run ((if i = j then [.flush] else []) ++
        (n.modify i fun w => w.flush.2).inbox j (n.outgoing i))) := by
  have flushed := peer_modify (i := i) (fun w => w.flush.2) isPeer
  have handed := peer_deliver h flushed
  rw [handed, ← Peer.run_run]
  split <;> rfl

/-- Whatever happens on the network, a wallet makes a run of its own. -/
theorem peer_step {m : Move} (h : n.step m = .ok n') (isPeer : n.peers[j]? = some p) :
    ∃ actions, n'.peers[j]? = some (p.run actions) := by
  cases m with
  | act i a =>
    cases h
    refine ⟨if i = j then [a] else [], ?_⟩
    rw [peer_modify _ isPeer]
    split <;> rfl
  | exchange i =>
    obtain ⟨⟨events, last⟩, exchanged, rfl⟩ := map_eq_ok_iff.1 h
    exact ⟨_, peer_exchange exchanged isPeer⟩

/-- A move keeps the number of peers. -/
theorem length_step {m : Move} (h : n.step m = .ok n') : n'.peers.length = n.peers.length := by
  cases m with
  | act i a =>
    cases h
    exact List.length_modify ..
  | exchange i =>
    obtain ⟨⟨events, last⟩, exchanged, rfl⟩ := map_eq_ok_iff.1 h
    have lengths := congrArg List.length (accounts_deliver exchanged)
    rw [accounts, accounts, List.length_map, List.length_map] at lengths
    rw [lengths]
    exact List.length_modify ..

/-- What a run of the network does to a peer is a run of that peer. -/
theorem peer_run {moves : List Move} (h : n.run moves = .ok n') (isPeer : n.peers[j]? = some p) :
    ∃ actions, n'.peers[j]? = some (p.run actions) := by
  -- Induction on the moves, with the runs of the wallet put together.
  induction moves generalizing n p with
  | nil =>
    cases h
    exact ⟨[], isPeer⟩
  | cons m moves ih =>
    obtain ⟨next, moved, h⟩ := bind_eq_ok_iff.1 h
    obtain ⟨before, isNext⟩ := peer_step moved isPeer
    obtain ⟨after, isLast⟩ := ih h isNext
    exact ⟨before ++ after, by rw [isLast, Peer.run_run]⟩

/-- A run keeps the number of peers. -/
theorem length_run {moves : List Move} (h : n.run moves = .ok n') :
    n'.peers.length = n.peers.length := by
  induction moves generalizing n with
  | nil =>
    cases h
    rfl
  | cons m moves ih =>
    obtain ⟨next, moved, h⟩ := bind_eq_ok_iff.1 h
    exact (ih h).trans (length_step moved)

/-- A network of new wallets runs. Then each of its wallets still has the
account, the settings and the applications that it was made with, its
parts fit together, and all that it holds to be supported is. -/
theorem wallets_run {moves : List Move}
    (created : ∀ p ∈ n.peers, ∃ signer config apps, Wallet.create signer config apps = .ok p.wallet)
    (h : n.run moves = .ok n') (isPeer : n'.peers[j]? = some q) :
    ∃ p signer config apps, n.peers[j]? = some p ∧
      Wallet.create signer config apps = .ok p.wallet ∧ q.sendsFrames = p.sendsFrames ∧
      Wallet.Regular signer config q.wallet ∧ q.wallet.apps = apps ∧ q.wallet.store.Sound := by
  have inRange : j < n.peers.length := by
    rw [← length_run h]
    exact (List.getElem?_eq_some_iff.1 isPeer).1
  have wasPeer : n.peers[j]? = some n.peers[j] := List.getElem?_eq_getElem inRange
  obtain ⟨actions, isLast⟩ := peer_run h wasPeer
  obtain rfl : q = n.peers[j].run actions := Option.some.inj (isPeer.symm.trans isLast)
  obtain ⟨signer, config, apps, made⟩ := created _ (List.getElem_mem inRange)
  obtain ⟨sameApps, sound⟩ := Wallet.sound_run made actions
  exact ⟨_, signer, config, apps, wasPeer, made, rfl, Wallet.regular_run made actions, sameApps,
    sound⟩

/-! ### Frames and messages -/

end Network

namespace Peer

/-- The same wallet, which sends messages as they are. -/
def plain (p : Peer) : Peer := { p with sendsFrames := false }

/-- A plain peer receives what the peer itself does, and ends as plain. -/
theorem receive_plain (p : Peer) (parcel : Parcel) :
    p.plain.receive parcel = ((p.receive parcel).1, (p.receive parcel).2.plain) := by
  cases parcel <;> rfl

/-- Nothing is sent for a message exactly if it is too long for a
frame. -/
theorem parcel?_eq_none_iff {letter : Letter} : p.parcel? letter = none ↔
    p.sendsFrames ∧
      ¬∃ frame, (Envelope.mk p.wallet.address letter.1 letter.2).encode = .ok frame := by
  unfold parcel?
  cases p.sendsFrames with
  | false => simp
  | true =>
    simp only [if_true, true_and]
    split
    · rename_i frame written
      simp [written]
    · rename_i written
      simp [written]

/-- Whatever is sent for a message with valid outcomes is taken in as the
message itself. -/
theorem receive_parcel? {letter : Letter} {item : Address × Parcel}
    (sent : p.parcel? letter = some item)
    (valid : ∀ o ∈ letter.2.outcomes, o.validate = .ok ()) :
    item.1 = letter.1 ∧ ∀ q : Peer,
      q.receive item.2 = q.receive (.plain p.wallet.address letter.2) := by
  unfold parcel? at sent
  split at sent
  · split at sent
    · rename_i frame written
      cases sent
      refine ⟨rfl, fun q => ?_⟩
      have read := Envelope.open?_encode_of_valid written valid []
      rw [List.append_nil] at read
      simp only [receive, Wallet.handleBytes, read]
    · cases sent
  · cases sent
    exact ⟨rfl, fun _ => rfl⟩

/-- Item by item, what a wallet sends is taken in alike whether it sends
frames or messages. -/
theorem forall₂_parcel? {letters : List Letter}
    (fits : ∀ letter ∈ letters,
      ∃ frame, (Envelope.mk p.wallet.address letter.1 letter.2).encode = .ok frame)
    (valid : ∀ letter ∈ letters, ∀ o ∈ letter.2.outcomes, o.validate = .ok ()) :
    List.Forall₂ (fun x y => x.1 = y.1 ∧ ∀ q : Peer, q.receive x.2 = q.receive y.2)
      (letters.filterMap p.parcel?) (letters.filterMap p.plain.parcel?) := by
  induction letters with
  | nil => exact .nil
  | cons letter letters ih =>
    obtain ⟨fitsFirst, fitOthers⟩ := List.forall_mem_cons.1 fits
    obtain ⟨validFirst, validOthers⟩ := List.forall_mem_cons.1 valid
    obtain ⟨item, sent⟩ := Option.ne_none_iff_exists'.1 fun none =>
      (parcel?_eq_none_iff.1 none).2 fitsFirst
    have sentPlain : p.plain.parcel? letter =
        some (letter.1, .plain p.wallet.address letter.2) := rfl
    rw [List.filterMap_cons_some sent, List.filterMap_cons_some sentPlain]
    exact .cons (receive_parcel? sent validFirst) (ih fitOthers validOthers)

end Peer

namespace Network

variable {n : Network}

/-- The same wallets, all of which send messages as they are. -/
def plain (n : Network) : Network := ⟨n.peers.map Peer.plain⟩

/-- Accounts are found at the same places in the plain network. -/
theorem indexOf?_plain (n : Network) (account : Address) :
    n.plain.indexOf? account = n.indexOf? account := by
  rw [indexOf?, plain, List.findIdx?_map]
  rfl

/-- A delivery in the plain network is the plain form of the delivery. -/
theorem deliverTo_plain (n : Network) (recipient : Address) (parcel : Parcel) :
    n.plain.deliverTo recipient parcel =
      (fun made => (made.1, made.2.plain)) <$> n.deliverTo recipient parcel := by
  unfold deliverTo
  rw [indexOf?_plain]
  cases n.indexOf? recipient with
  | none => rfl
  | some i =>
    simp only [plain, List.getElem?_map]
    cases n.peers[i]? with
    | none => rfl
    | some p =>
      simp only [Option.map_some, Peer.receive_plain]
      cases (p.receive parcel).1 with
      | error o => rfl
      | ok events =>
        show Except.ok (some events, Network.mk ((n.peers.map Peer.plain).set i _)) =
          Except.ok (some events, Network.mk ((n.peers.set i _).map Peer.plain))
        rw [List.map_set]

/-- Whoever receives, it does not matter how the wallets send. -/
theorem deliver_plain (n : Network) (items : List (Address × Parcel)) :
    n.plain.deliver items = (fun made => (made.1, made.2.plain)) <$> n.deliver items := by
  induction items generalizing n with
  | nil => rfl
  | cons item items ih =>
    rw [deliver, deliver, deliverTo_plain]
    cases n.deliverTo item.1 item.2 with
    | error o => rfl
    | ok made =>
      show (made.2.plain.deliver items >>= _) = _ <$> (made.2.deliver items >>= _)
      rw [ih]
      cases made.2.deliver items <;> rfl

/-- Items that every wallet takes in alike are handed over alike. -/
theorem deliver_congr {items items' : List (Address × Parcel)}
    (alike : List.Forall₂
      (fun x y => x.1 = y.1 ∧ ∀ q : Peer, q.receive x.2 = q.receive y.2) items items')
    (n : Network) : n.deliver items = n.deliver items' := by
  induction alike generalizing n with
  | nil => rfl
  | @cons x y items items' same _ ih =>
    obtain ⟨recipient, received⟩ := same
    have first : n.deliverTo x.1 x.2 = n.deliverTo y.1 y.2 := by
      simp only [deliverTo, recipient, received]
    rw [deliver, deliver, first]
    simp only [ih]

/-- A modification of the plain network is the plain form of the
modification. -/
theorem modify_plain (n : Network) (i : Nat) (change : Wallet → Wallet) :
    n.plain.modify i change = (n.modify i change).plain := by
  refine congrArg Network.mk (List.ext_getElem? fun k => ?_)
  simp only [plain, modify, List.getElem?_modify, List.getElem?_map]
  cases n.peers[k]? with
  | none => rfl
  | some p =>
    simp only [Option.map_some, Option.map_eq_map]
    split <;> rfl

/-- If every message that a wallet sends fits in a frame and has valid
outcomes, it is the same exchange whether the wallets send frames or
messages: the same changes at the recipients, and the same wallets
after it. -/
theorem exchange_plain (isPeer : n.peers[i]? = some p)
    (fits : ∀ letter ∈ p.wallet.flush.1,
      ∃ frame, (Envelope.mk p.wallet.address letter.1 letter.2).encode = .ok frame)
    (valid : ∀ letter ∈ p.wallet.flush.1, ∀ o ∈ letter.2.outcomes, o.validate = .ok ()) :
    n.plain.exchange i = (fun made => (made.1, made.2.plain)) <$> n.exchange i := by
  have alike : List.Forall₂
      (fun x y => x.1 = y.1 ∧ ∀ q : Peer, q.receive x.2 = q.receive y.2)
      (n.outgoing i) (n.plain.outgoing i) := by
    have isPlain : n.plain.peers[i]? = some p.plain := by rw [plain, List.getElem?_map, isPeer]; rfl
    rw [outgoing, outgoing, isPeer, isPlain]
    exact Peer.forall₂_parcel? fits valid
  rw [exchange, exchange, modify_plain, ← deliver_congr alike, deliver_plain]

end Network

end StateChannels
