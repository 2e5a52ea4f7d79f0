import StateChannels.Support

/-!
# `StateChannels.Store`: what a participant remembers

For each channel the store has the latest state that all participants
signed, and the signatures on later states. Nothing at or below the
supported turn is accepted any more.

Adding a signed state never touches another channel
(`Store.get?_addSigned_of_ne`).
-/

set_option autoImplicit false

namespace StateChannels

/-- Why the store refuses. -/
inductive StoreError where
  | unknownChannel (id : Hash)
  | channelExists (id : Hash)
  | staleState (supported received : TurnNum)
  | support (error : SupportError)
deriving DecidableEq

/-- The text of an error. -/
def StoreError.message : StoreError → String
  | unknownChannel id => "unknown channel " ++ id.text
  | channelExists id => "channel " ++ id.text ++ " is already stored"
  | staleState supported received =>
    s!"turn {received.toNat} is not newer than the supported turn {supported.toNat}"
  | support e => e.message

/-- A state that every participant signed. -/
@[ext] structure SupportedState where
  state : State
  signed : List SignedState
  supported : Supported
deriving DecidableEq

/-- What is remembered of a channel. -/
@[ext] structure StoreEntry where
  channel : Channel
  latest : Option SupportedState
  /-- Signatures on states later than the supported one. -/
  pending : List SignedState
deriving DecidableEq

namespace StoreEntry

/-- The entry of a new channel. -/
def ofChannel (channel : Channel) : StoreEntry := ⟨channel, none, []⟩

/-- The turn that is supported, if any. -/
def supportedTurn? (e : StoreEntry) : Option TurnNum :=
  e.latest.map fun l => l.supported.turnNum

/-- Refuses a signed state that is not later than the supported one,
whose signature is not the signer's, or whose signer is no
participant. -/
def check (e : StoreEntry) (s : SignedState) : Except StoreError Unit := do
  match e.supportedTurn? with
  | some supported =>
    if s.state.turnNum ≤ supported then
      .error (.staleState supported s.state.turnNum)
  | none => pure ()
  let _ ← s.verify.mapError .support
  if s.signer ∉ e.channel.participants then
    .error (.support (.notAParticipant s.signer))

/-- Keeps a signed state, in place of an earlier one by the same
signer at the same turn. -/
def record (e : StoreEntry) (s : SignedState) : StoreEntry :=
  let others := e.pending.filter fun p =>
    ¬(p.signer = s.signer ∧ p.state.turnNum = s.state.turnNum)
  { e with pending := others ++ [s] }

/-- The signatures that are kept on a state. -/
def signaturesOn (e : StoreEntry) (state : State) : List SignedState :=
  e.pending.filter fun p => p.state = state

/-- The entry in which `signed` support a state: what is not later is
forgotten. -/
def support (e : StoreEntry) (state : State) (signed : List SignedState) (x : Supported) :
    StoreEntry :=
  { e with
    latest := some ⟨state, signed, x⟩
    pending := e.pending.filter fun p => x.turnNum < p.state.turnNum }

/-- Makes a state the supported one, once there is a signature of
every participant. -/
def settle (e : StoreEntry) (state : State) : Except StoreError (Option Supported) × StoreEntry :=
  let same := e.signaturesOn state
  if same.length < e.channel.size then (.ok none, e)
  else
    match validateUnanimous e.channel same state.turnNum with
    | .error error => (.error (.support error), e)
    | .ok x => (.ok (some x), e.support state same x)

/-- Takes in a signed state. The result is the new support, if it
completes one. -/
def add (e : StoreEntry) (s : SignedState) : Except StoreError (Option Supported) × StoreEntry :=
  match e.check s with
  | .error error => (.error error, e)
  | .ok () => (e.record s).settle s.state

end StoreEntry

/-- The channels of a participant, by their ids. -/
@[ext] structure Store where
  entries : Table Hash StoreEntry

namespace Store

/-- The store without channels. -/
def empty : Store := ⟨∅⟩

/-- The entry of a channel. -/
def entry (s : Store) (id : Hash) : Except StoreError StoreEntry :=
  match s.entries.get? id with
  | some e => .ok e
  | none => .error (.unknownChannel id)

/-- Whether the channel is stored. -/
def contains (s : Store) (id : Hash) : Bool := s.entries.contains id

/-- The channel with an id. -/
def channel (s : Store) (id : Hash) : Except StoreError Channel := StoreEntry.channel <$> s.entry id

/-- The latest support of a channel, if any. -/
def latest (s : Store) (id : Hash) : Except StoreError (Option SupportedState) :=
  StoreEntry.latest <$> s.entry id

/-- The latest state that all participants signed, if any. -/
def latestState (s : Store) (id : Hash) : Except StoreError (Option State) := do
  let latest ← s.latest id
  return latest.map SupportedState.state

/-- The signatures on states that are not supported yet. -/
def pending (s : Store) (id : Hash) : Except StoreError (List SignedState) :=
  StoreEntry.pending <$> s.entry id

/-- Stores a new channel. The result is its id. -/
def addChannel (s : Store) (c : Channel) : Except StoreError (Hash × Store) :=
  if s.contains c.id then .error (.channelExists c.id)
  else .ok (c.id, ⟨s.entries.insert c.id (.ofChannel c)⟩)

/-- Takes in a signed state of a stored channel. The result is the
new support, if it completes one. -/
def addSigned (s : Store) (signed : SignedState) :
    Except StoreError (Option Supported) × Store :=
  match s.entries.get? signed.state.channelId with
  | none => (.error (.unknownChannel signed.state.channelId), s)
  | some e =>
    let added := e.add signed
    (added.1, ⟨s.entries.insert signed.state.channelId added.2⟩)

/-- A signed state changes its own channel only. -/
theorem get?_addSigned_of_ne (s : Store) (signed : SignedState) {id : Hash}
    (h : id ≠ signed.state.channelId) :
    (s.addSigned signed).2.entries.get? id = s.entries.get? id := by
  unfold addSigned
  split
  · rfl
  · exact Table.get?_insert_of_ne _ _ h

end Store

end StateChannels
