import StateChannels.Wallet

/-!
# `StateChannels.Network`: wallets that exchange messages

Several wallets and the transport between them. Some wallets send
their messages as they are, others as frames of bytes. What a wallet
flushes is delivered in order, each item to the wallet of its
recipient. For a recipient without a wallet it is lost.
-/

set_option autoImplicit false

namespace StateChannels

/-- What travels: a message with its sender, or a frame. -/
inductive Parcel where
  | plain (sender : Address) (m : Message)
  | frame (bytes : Bytes)
deriving DecidableEq

/-- A wallet on the network. -/
structure Peer where
  wallet : Wallet
  /-- Whether the wallet sends frames. -/
  sendsFrames : Bool

namespace Peer

/-- What is sent for a message. One that is too long for a frame is
not sent. -/
def parcel? (p : Peer) (letter : Letter) : Option (Address × Parcel) :=
  if p.sendsFrames then
    match (Envelope.mk p.wallet.address letter.1 letter.2).encode with
    | .ok bytes => some (letter.1, .frame bytes)
    | .error _ => none
  else some (letter.1, .plain p.wallet.address letter.2)

/-- Takes in what has arrived. -/
def receive (p : Peer) (parcel : Parcel) : Except Overflow (List Event) × Peer :=
  let received :=
    match parcel with
    | .plain sender m => p.wallet.handleMessage sender m
    | .frame bytes => p.wallet.handleBytes bytes
  (received.1, { p with wallet := received.2 })

end Peer

/-- The wallets on the network. -/
structure Network where
  peers : List Peer

namespace Network

/-- The network after `change` of the wallet at an index. -/
def modify (n : Network) (i : Nat) (change : Wallet → Wallet) : Network :=
  ⟨n.peers.modify i fun p => { p with wallet := change p.wallet }⟩

/-- What is sent when the wallet at an index is flushed, in order. -/
def outgoing (n : Network) (i : Nat) : List (Address × Parcel) :=
  (n.peers[i]?.map fun p => p.wallet.flush.1.filterMap p.parcel?).getD []

/-- The index of the wallet of an account. -/
def indexOf? (n : Network) (account : Address) : Option Nat :=
  n.peers.findIdx? fun p => p.wallet.address = account

/-- Hands one item to its recipient. The result is what changed
there, if the recipient has a wallet. -/
def deliverTo (n : Network) (recipient : Address) (parcel : Parcel) :
    Except Overflow (Option (List Event) × Network) :=
  match n.indexOf? recipient with
  | none => .ok (none, n)
  | some i =>
    match n.peers[i]? with
    | none => .ok (none, n)
    | some p =>
      let received := p.receive parcel
      received.1.map fun events => (some events, ⟨n.peers.set i received.2⟩)

/-- Hands over items in order. -/
def deliver (n : Network) :
    List (Address × Parcel) → Except Overflow (List (Option (List Event)) × Network)
  | [] => .ok ([], n)
  | (recipient, parcel) :: rest => do
    let (events, n) ← n.deliverTo recipient parcel
    let (more, n) ← n.deliver rest
    return (events :: more, n)

/-- Flushes the wallet at an index, and hands over what it sends. -/
def exchange (n : Network) (i : Nat) : Except Overflow (List (Option (List Event)) × Network) :=
  (n.modify i fun w => w.flush.2).deliver (n.outgoing i)

end Network

end StateChannels
