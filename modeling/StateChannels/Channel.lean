import StateChannels.Abi.Token
import StateChannels.Checked
import StateChannels.Distinct

/-!
# `StateChannels.Channel`: who takes turns

A channel is a list of distinct participants, who move in turn, on
one chain. A nonce tells apart channels of the same participants. The
id of a channel is the digest of these three.

Main statements: `Channel.create_eq_ok_iff` says when a channel
exists, and `Channel.indexOf?_mover` says that the mover of a turn is
the participant at the remainder of the turn number.
-/

set_option autoImplicit false

namespace StateChannels

/-- Why there is no channel of these participants. -/
inductive ChannelError where
  | noParticipants
  | duplicateParticipant (participant : Address)
deriving DecidableEq

/-- The text of an error. -/
def ChannelError.message : ChannelError → String
  | noParticipants => "a channel needs at least one participant"
  | duplicateParticipant a => "participant " ++ a.text ++ " appears more than once"

/-- A channel. -/
structure Channel where
  chainId : Uint256
  /-- The participants, in the order in which they move. -/
  participants : List Address
  nonce : Uint256
  ne_nil : participants ≠ []
  nodup : participants.Nodup
deriving DecidableEq

namespace Channel

/-- The channel of the participants, if there are any and they are
distinct. -/
def create (chainId : Uint256) (participants : List Address) (nonce : Uint256) :
    Except ChannelError Channel :=
  if h : participants = [] then .error .noParticipants
  else
    match hr : firstRepeat? participants with
    | some a => .error (.duplicateParticipant a)
    | none => .ok ⟨chainId, participants, nonce, h, firstRepeat?_eq_none_iff.1 hr⟩

/-- How many participants there are. -/
def size (c : Channel) : Nat := c.participants.length

/-- The id of the channel. -/
def id (c : Channel) : Hash :=
  (Abi.Token.tuple
    [.ofUint256 c.chainId, .array (c.participants.map .ofAddress), .ofUint256 c.nonce]).argsHash

/-- A channel has at least one participant. -/
theorem size_pos (c : Channel) : 0 < c.size := List.length_pos_iff.2 c.ne_nil

/-- The index of the participant who moves at a turn. -/
def moverIndex (c : Channel) (turn : TurnNum) : Nat := turn.toNat % c.size

/-- The mover is one of the participants. -/
theorem moverIndex_lt (c : Channel) (turn : TurnNum) : c.moverIndex turn < c.size :=
  Nat.mod_lt _ c.size_pos

/-- The participant who moves at a turn. -/
def mover (c : Channel) (turn : TurnNum) : Address :=
  c.participants.get ⟨c.moverIndex turn, c.moverIndex_lt turn⟩

/-- The index of a participant. -/
def indexOf? (c : Channel) (a : Address) : Option Nat := c.participants.idxOf? a

/-! ### Existence and movers -/

/-- A channel exists exactly for participants that are distinct and
at least one, and it consists of what was given. -/
theorem create_eq_ok_iff {chainId nonce : Uint256} {participants : List Address} {c : Channel} :
    create chainId participants nonce = .ok c ↔
      participants ≠ [] ∧ participants.Nodup ∧
        c.chainId = chainId ∧ c.participants = participants ∧ c.nonce = nonce := by
  unfold create
  split
  · simp_all
  · rename_i h
    split
    · rename_i a hr
      have : ¬participants.Nodup := fun nd => by simp [firstRepeat?_eq_none_iff.2 nd] at hr
      simp [this]
    · rename_i hr
      cases c
      simp only [Except.ok.injEq, mk.injEq]
      exact ⟨fun ⟨a, b, d⟩ => ⟨h, firstRepeat?_eq_none_iff.1 hr, a.symm, b.symm, d.symm⟩,
        fun ⟨_, _, a, b, d⟩ => ⟨a.symm, b.symm, d.symm⟩⟩

/-- An index is found for the participant who stands there, and for
no one else. -/
theorem indexOf?_eq_some_iff {c : Channel} {a : Address} {i : Nat} :
    c.indexOf? a = some i ↔ c.participants[i]? = some a := by
  unfold indexOf?
  rw [List.idxOf?_eq_some_iff]
  constructor
  · rintro ⟨h, e, _⟩
    exact List.getElem?_eq_some_iff.2 ⟨h, by simpa using e⟩
  · intro h
    obtain ⟨h, e⟩ := List.getElem?_eq_some_iff.1 h
    refine ⟨h, by simpa using e, fun j hj => ?_⟩
    have distinct := mt (List.getElem?_inj (Nat.lt_trans hj h) c.nodup).1 (Nat.ne_of_lt hj)
    simpa [List.getElem?_eq_getElem h, List.getElem?_eq_getElem (Nat.lt_trans hj h), e]
      using distinct

/-- The mover of a turn stands at the mover's index. -/
theorem indexOf?_mover (c : Channel) (turn : TurnNum) :
    c.indexOf? (c.mover turn) = some (c.moverIndex turn) :=
  indexOf?_eq_some_iff.2 (List.getElem?_eq_getElem (c.moverIndex_lt turn))

end Channel

end StateChannels
