import Mathlib.Data.List.Basic
import StateChannels.Adjudicator.Storage
import StateChannels.Proofs.Abi.Outcome
import StateChannels.State

/-!
# `StateChannels.Proofs.Abi.Binding`: what a digest binds

The digest of a state is taken in steps. The application's part and the
outcome are hashed by themselves, and the two digests are hashed with the
rest. The outcome has byte strings in its bytes, which have byte strings in
them again. None of this loses anything: from the bytes of each step its
fields can be read back, those of an outcome with `Outcome.read?`. So two
states with the same digest are the same, or two different byte strings among
those that were hashed have the same digest.

Nothing is assumed of the digest function. The functions of the library are
taken here with any such function (`State.hashBy` and so on), and those that
run have `keccak256` for it.

* `State.eq_or_clash`, `Channel.eq_or_clash`, `ChannelStorage.eq_or_clash`:
  values with the same digest are equal, or there is a collision in one of
  their parts.
* `digests_bind`: the three together. What a challenger signs is never the
  digest of the bytes of a state.
-/

set_option autoImplicit false

namespace StateChannels

/-! ### Values in slots -/

namespace Abi.Token

/-- Numbers that fit a slot have different slots. -/
theorem ofNat_inj {m n : Nat} (hm : m < 2 ^ 256) (hn : n < 2 ^ 256)
    (same : ofNat m = ofNat n) : m = n := by
  have value : Bytes.toNat (slot m) = Bytes.toNat (slot n) :=
    congrArg Bytes.toNat (Token.static.inj same)
  rwa [slot, slot, slotSize, Bytes.toNat_ofNat hm, Bytes.toNat_ofNat hn] at value

/-- Turns and durations are such numbers. -/
theorem ofUInt64_inj {m n : UInt64} (same : ofNat m.toNat = ofNat n.toNat) : m = n :=
  UInt64.toNat_inj.1 (ofNat_inj (Nat.lt_trans m.toNat_lt (by decide))
    (Nat.lt_trans n.toNat_lt (by decide)) same)

/-- A flag is told from the other one by its slot. -/
theorem ofBool_inj {a b : Bool} (same : ofBool a = ofBool b) : a = b := by
  have value : a.toNat = b.toNat := ofNat_inj (Nat.lt_of_le_of_lt a.toNat_le (by decide))
    (Nat.lt_of_le_of_lt b.toNat_le (by decide)) same
  cases a <;> cases b <;> simp_all

/-- A digest is its own slot. -/
theorem ofHash_inj {g h : Hash} (same : ofHash g = ofHash h) : g = h :=
  Hash.toBytes_inj.1 (Token.static.inj same)

/-- An amount takes all of its slot. -/
theorem ofUint256_inj {m n : Uint256} (same : ofUint256 m = ofUint256 n) : m = n := by
  have value := congrArg Bytes.toNat (Token.static.inj same)
  rw [Uint256.toNat_toBytes, Uint256.toNat_toBytes] at value
  exact Uint256.ext value

/-- An address is the end of its slot, and the rest are zeros. -/
theorem ofAddress_inj {a b : Address} (same : ofAddress a = ofAddress b) : a = b :=
  Address.toBytes_inj.1 (List.append_cancel_left (Token.static.inj same))

end Abi.Token

open Abi (Kind Token)

/-! ### Digests with any function -/

/-- Two different byte strings with the same digest. -/
def Clash (digest : Bytes → Hash) (x y : Bytes) : Prop := x ≠ y ∧ digest x = digest y

/-- Byte strings with the same digest are equal, or they clash. -/
theorem eq_or_clash {digest : Bytes → Hash} {x y : Bytes} (same : digest x = digest y) :
    x = y ∨ Clash digest x y :=
  (Classical.em (x = y)).imp_right fun differ => ⟨differ, same⟩

section

variable (digest : Bytes → Hash)

/-- The form of a state, whose parts are hashed with `digest`. -/
def State.tokenBy (s : State) : Token :=
  .tuple [.ofNat s.turnNum.toNat, .ofBool s.isFinal, .ofHash s.channelId,
    .ofHash (digest s.appPart.toArgsBytes), .ofHash (digest s.outcome.encode)]

/-- The digest of a state. -/
def State.hashBy (s : State) : Hash := digest (s.tokenBy digest).toArgsBytes

/-- The form of what a challenger signs. -/
def State.challengeTokenBy (s : State) : Token :=
  .tuple [.ofHash (s.hashBy digest), .ofText "forceMove"]

/-- The digest that a challenge with the state signs. -/
def State.challengeHashBy (s : State) : Hash := digest (s.challengeTokenBy digest).toArgsBytes

/-- The form of a channel, which is hashed for its id. -/
def Channel.token (c : Channel) : Token :=
  .tuple [.ofUint256 c.chainId, .array (c.participants.map .ofAddress), .ofUint256 c.nonce]

/-- The id of a channel. -/
def Channel.idBy (c : Channel) : Hash := digest c.token.toArgsBytes

/-- The form of a record, whose challenge is hashed with `digest`. -/
def ChannelStorage.tokenBy (r : ChannelStorage) : Token :=
  .tuple [.ofNat r.turnNumRecord.toNat, .ofNat r.finalizesAt.toNat,
    .ofHash (digest r.challengeToken.toArgsBytes)]

/-- The digest that stands for a record. -/
def ChannelStorage.fingerprintBy (r : ChannelStorage) : Hash :=
  digest (r.tokenBy digest).toArgsBytes

end

variable {digest : Bytes → Hash}

namespace State

variable {s s' : State}

/-- The part of a state that the application looks at is a tuple of one
kind. -/
theorem fits_appPart (s : State) : s.appPart.Fits (.tuple [.static 1, .static 1, .bytes]) :=
  .tuple (.cons (Token.fits_ofNat _) (.cons (Token.fits_ofAddress _) (.cons (.bytes _) .nil)))

/-- The form of a state is five slots, whatever the digest is. -/
theorem fits_tokenBy (digest : Bytes → Hash) (s : State) :
    (s.tokenBy digest).Fits (.tuple (List.replicate 5 (.static 1))) :=
  .tuple (.cons (Token.fits_ofNat _) (.cons (Token.fits_ofNat _) (.cons (Token.fits_ofHash _)
    (.cons (Token.fits_ofHash _) (.cons (Token.fits_ofHash _) .nil)))))

/-- So it is always 160 bytes long. -/
theorem length_tokenBy (digest : Bytes → Hash) (s : State) :
    (s.tokenBy digest).encode.length = 160 :=
  (fits_tokenBy digest s).length_encode rfl

/-- The form of a challenge is 128 bytes long, with its text. -/
theorem length_challengeTokenBy (digest : Bytes → Hash) (s : State) :
    (s.challengeTokenBy digest).encode.length = 128 := by
  have text : (Token.ofText "forceMove").encode.length = 64 := by decide +kernel
  -- The digest and the offset of the text are in the head, the text is the tail.
  rw [challengeTokenBy, Token.encode_tuple]
  show (Abi.Part.assemble [⟨false, (s.hashBy digest).toBytes⟩,
    ⟨true, (Token.ofText "forceMove").encode⟩]).length = 128
  rw [Abi.Part.length_assemble]
  simp [Abi.Part.headsSize, Abi.Part.tails, Abi.Part.headSize, Abi.slotSize, text]

/-- States with the same digest are equal, or there is a collision in one of
the three steps. -/
theorem eq_or_clash (outcomeShort : s.outcome.encode.length < 2 ^ 64)
    (appShort : s.appPart.toArgsBytes.length < 2 ^ 64) (same : s.hashBy digest = s'.hashBy digest) :
    s = s' ∨ Clash digest (s.tokenBy digest).toArgsBytes (s'.tokenBy digest).toArgsBytes ∨
      Clash digest s.appPart.toArgsBytes s'.appPart.toArgsBytes ∨
      Clash digest s.outcome.encode s'.outcome.encode := by
  rcases StateChannels.eq_or_clash same with parts | clash
  · have tokens := Token.eq_of_encode_eq (fits_tokenBy digest s) (fits_tokenBy digest s')
      (Nat.lt_of_le_of_lt (Nat.le_of_eq (length_tokenBy digest s)) (by decide)) parts
    obtain ⟨turn, final, channel, app, outcome⟩ :
        Token.ofNat s.turnNum.toNat = .ofNat s'.turnNum.toNat ∧
          Token.ofBool s.isFinal = .ofBool s'.isFinal ∧
          Token.ofHash s.channelId = .ofHash s'.channelId ∧
          Token.ofHash (digest s.appPart.toArgsBytes) = .ofHash (digest s'.appPart.toArgsBytes) ∧
          Token.ofHash (digest s.outcome.encode) = .ofHash (digest s'.outcome.encode) := by
      simpa [tokenBy] using tokens
    rcases StateChannels.eq_or_clash (Token.ofHash_inj app) with appParts | clash
    · rcases StateChannels.eq_or_clash (Token.ofHash_inj outcome) with outcomes | clash
      · have appTokens := Token.eq_of_encode_eq s.fits_appPart s'.fits_appPart appShort appParts
        obtain ⟨duration, definition, data⟩ :
            Token.ofNat s.challengeDuration.toNat = .ofNat s'.challengeDuration.toNat ∧
              Token.ofAddress s.appDefinition = .ofAddress s'.appDefinition ∧
              s.appData = s'.appData := by
          simpa [appPart] using appTokens
        left
        exact State.ext (Token.ofHash_inj channel) (Token.ofUInt64_inj turn)
          (Token.ofBool_inj final) (Outcome.eq_of_encode_eq outcomeShort outcomes)
          (Token.ofAddress_inj definition) data (Token.ofUInt64_inj duration)
      · exact .inr (.inr (.inr clash))
    · exact .inr (.inr (.inl clash))
  · exact .inr (.inl clash)

/-- What a challenger signs is shorter than the form of a state. -/
theorem toArgsBytes_ne (digest : Bytes → Hash) (s s' : State) :
    (s.tokenBy digest).toArgsBytes ≠ (s'.challengeTokenBy digest).toArgsBytes := by
  intro same
  have length : (s.tokenBy digest).encode.length = (s'.challengeTokenBy digest).encode.length :=
    congrArg List.length same
  rw [length_tokenBy, length_challengeTokenBy] at length
  exact absurd length (by decide)

end State

namespace Channel

variable {c c' : Channel}

/-- The kind of a channel: its chain, its participants and its nonce. -/
def kind : Kind := .tuple [.static 1, .array (.static 1), .static 1]

/-- The form of a channel is of the kind of channels. -/
theorem fits_token (short : c.token.encode.length < 2 ^ 64) : c.token.Fits kind := by
  have inner : (Token.array (c.participants.map .ofAddress)).encode.length < 2 ^ 64 :=
    Nat.lt_of_le_of_lt
      (Token.length_encode_le_tuple (List.mem_cons_of_mem _ List.mem_cons_self)) short
  refine .tuple (.cons (Token.fits_ofUint256 _) (.cons ?_ (.cons (Token.fits_ofUint256 _) .nil)))
  refine Token.Fits.of_items ?_ (by decide) inner
  intro t member
  obtain ⟨a, -, rfl⟩ := List.mem_map.1 member
  exact Token.fits_ofAddress a

/-- The form has every field of the channel, so channels with the same form
are equal. -/
theorem token_inj (same : c.token = c'.token) : c = c' := by
  obtain ⟨chain, participants, nonce⟩ : Token.ofUint256 c.chainId = .ofUint256 c'.chainId ∧
      c.participants.map Token.ofAddress = c'.participants.map Token.ofAddress ∧
      Token.ofUint256 c.nonce = .ofUint256 c'.nonce := by simpa [token] using same
  have participants := (List.map_inj_right fun _ _ => Token.ofAddress_inj).1 participants
  cases c
  cases c'
  cases Token.ofUint256_inj chain
  cases Token.ofUint256_inj nonce
  cases participants
  rfl

/-- Channels with the same id are equal, or their forms clash. -/
theorem eq_or_clash (short : c.token.toArgsBytes.length < 2 ^ 64)
    (same : c.idBy digest = c'.idBy digest) :
    c = c' ∨ Clash digest c.token.toArgsBytes c'.token.toArgsBytes := by
  refine (StateChannels.eq_or_clash same).imp_left fun bytes => ?_
  have short' : c'.token.toArgsBytes.length < 2 ^ 64 := bytes ▸ short
  exact token_inj (Token.eq_of_encode_eq (fits_token short) (fits_token short') short bytes)

end Channel

namespace ChannelStorage

variable {r r' : ChannelStorage}

/-- The form of a record is three slots. -/
theorem fits_tokenBy (digest : Bytes → Hash) (r : ChannelStorage) :
    (r.tokenBy digest).Fits (.tuple (List.replicate 3 (.static 1))) :=
  .tuple (.cons (Token.fits_ofNat _)
    (.cons (Token.fits_ofNat _) (.cons (Token.fits_ofHash _) .nil)))

/-- So is the form of the challenge in it. -/
theorem fits_challengeToken (r : ChannelStorage) :
    r.challengeToken.Fits (.tuple (List.replicate 3 (.static 1))) :=
  .tuple (.cons (Token.fits_ofHash _) (.cons (Token.fits_ofAddress _)
    (.cons (Token.fits_ofHash _) .nil)))

/-- Records with the same fingerprint are equal, or there is a collision in
one of the two steps. -/
theorem eq_or_clash (same : r.fingerprintBy digest = r'.fingerprintBy digest) :
    r = r' ∨ Clash digest (r.tokenBy digest).toArgsBytes (r'.tokenBy digest).toArgsBytes ∨
      Clash digest r.challengeToken.toArgsBytes r'.challengeToken.toArgsBytes := by
  have short : ∀ t : Token, t.Fits (.tuple (List.replicate 3 (.static 1))) →
      t.encode.length < 2 ^ 64 := fun t fits =>
    Nat.lt_of_le_of_lt (Nat.le_of_eq (fits.length_encode rfl)) (by decide)
  -- Either the digests clash, or what was hashed is the same, part by part.
  rcases StateChannels.eq_or_clash same with parts | clash
  · have tokens := Token.eq_of_encode_eq (fits_tokenBy digest r) (fits_tokenBy digest r')
      (short _ (fits_tokenBy digest r)) parts
    obtain ⟨turn, finalizes, challenge⟩ :
        Token.ofNat r.turnNumRecord.toNat = .ofNat r'.turnNumRecord.toNat ∧
          Token.ofNat r.finalizesAt.toNat = .ofNat r'.finalizesAt.toNat ∧
          Token.ofHash (digest r.challengeToken.toArgsBytes) =
            .ofHash (digest r'.challengeToken.toArgsBytes) := by
      simpa [tokenBy] using tokens
    -- The same once more for the digest inside.
    rcases StateChannels.eq_or_clash (Token.ofHash_inj challenge) with challenges | clash
    · have challengeTokens := Token.eq_of_encode_eq r.fits_challengeToken r'.fits_challengeToken
        (short _ r.fits_challengeToken) challenges
      obtain ⟨state, challenger, outcome⟩ : Token.ofHash r.stateHash = .ofHash r'.stateHash ∧
          Token.ofAddress r.challenger = .ofAddress r'.challenger ∧
          Token.ofHash r.outcomeHash = .ofHash r'.outcomeHash := by
        simpa [challengeToken] using challengeTokens
      left
      exact ChannelStorage.ext (Token.ofUInt64_inj turn) (Token.ofUInt64_inj finalizes)
        (Token.ofHash_inj state) (Token.ofAddress_inj challenger) (Token.ofHash_inj outcome)
    · exact .inr (.inr clash)
  · exact .inr (.inl clash)

end ChannelStorage

/-! ### All digests -/

/-- Whatever the digest function, values with the same digest are equal, or
two different byte strings that were hashed for them have the same digest.
The bytes of a state and the bytes that a challenger signs the digest of are
never the same. The functions that run are those with `keccak256`. -/
theorem digests_bind (digest : Bytes → Hash) :
    (∀ s s' : State, s.outcome.encode.length < 2 ^ 64 → s.appPart.toArgsBytes.length < 2 ^ 64 →
      s.hashBy digest = s'.hashBy digest →
        s = s' ∨ Clash digest (s.tokenBy digest).toArgsBytes (s'.tokenBy digest).toArgsBytes ∨
          Clash digest s.appPart.toArgsBytes s'.appPart.toArgsBytes ∨
          Clash digest s.outcome.encode s'.outcome.encode) ∧
    (∀ c c' : Channel, c.token.toArgsBytes.length < 2 ^ 64 → c.idBy digest = c'.idBy digest →
      c = c' ∨ Clash digest c.token.toArgsBytes c'.token.toArgsBytes) ∧
    (∀ r r' : ChannelStorage, r.fingerprintBy digest = r'.fingerprintBy digest →
      r = r' ∨ Clash digest (r.tokenBy digest).toArgsBytes (r'.tokenBy digest).toArgsBytes ∨
        Clash digest r.challengeToken.toArgsBytes r'.challengeToken.toArgsBytes) ∧
    (∀ s s' : State,
      (s.tokenBy digest).toArgsBytes ≠ (s'.challengeTokenBy digest).toArgsBytes ∧
        (s.hashBy digest = s'.challengeHashBy digest →
          Clash digest (s.tokenBy digest).toArgsBytes
            (s'.challengeTokenBy digest).toArgsBytes)) ∧
    State.hash = State.hashBy keccak256 ∧ State.challengeHash = State.challengeHashBy keccak256 ∧
      Channel.id = Channel.idBy keccak256 ∧
      ChannelStorage.fingerprint = ChannelStorage.fingerprintBy keccak256 := by
  refine ⟨fun _ _ => State.eq_or_clash, fun _ _ => Channel.eq_or_clash,
    fun _ _ => ChannelStorage.eq_or_clash, fun s s' => ?_, rfl, rfl, rfl, rfl⟩
  have differ := State.toArgsBytes_ne digest s s'
  exact ⟨differ, fun same => ⟨differ, same⟩⟩

namespace Clash.Sample

/-- A digest function with one value. -/
def constant : Bytes → Hash := fun _ => .zero

/-- A state of a channel without funds. -/
def state (turnNum : TurnNum) : State := ⟨.zero, turnNum, false, ⟨[]⟩, .zero, [], 0⟩

/-- A channel of one participant. -/
def channel (nonce : Uint256) : Channel :=
  ⟨.one, [.zero], nonce, List.cons_ne_nil _ _, List.pairwise_singleton _ _⟩

/-- With one digest for everything there is a collision on two states, on two
channels, on two records, and on a state and what a challenger signs. -/
theorem digests_bind_constant :
    (Clash constant ((state 0).tokenBy constant).toArgsBytes
          ((state 1).tokenBy constant).toArgsBytes ∨
        Clash constant (state 0).appPart.toArgsBytes (state 1).appPart.toArgsBytes ∨
        Clash constant (state 0).outcome.encode (state 1).outcome.encode) ∧
      Clash constant (channel .zero).token.toArgsBytes (channel .one).token.toArgsBytes ∧
      (Clash constant ((ChannelStorage.cleared 0).tokenBy constant).toArgsBytes
          ((ChannelStorage.cleared 1).tokenBy constant).toArgsBytes ∨
        Clash constant (ChannelStorage.cleared 0).challengeToken.toArgsBytes
          (ChannelStorage.cleared 1).challengeToken.toArgsBytes) ∧
      Clash constant ((state 0).tokenBy constant).toArgsBytes
        ((state 1).challengeTokenBy constant).toArgsBytes := by
  obtain ⟨states, channels, records, challenges, -⟩ := digests_bind constant
  have same (x y : Bytes) : constant x = constant y := rfl
  have outcomeShort : (state 0).outcome.encode.length < 2 ^ 64 := by decide
  have appShort : (state 0).appPart.toArgsBytes.length < 2 ^ 64 := by decide +kernel
  have channelShort : (channel .zero).token.toArgsBytes.length < 2 ^ 64 := by decide +kernel
  refine ⟨?_, ?_, ?_, (challenges (state 0) (state 1)).2 (same _ _)⟩
  · exact (states (state 0) (state 1) outcomeShort appShort (same _ _)).resolve_left (by decide)
  · exact (channels (channel .zero) (channel .one) channelShort (same _ _)).resolve_left (by decide)
  · exact (records (.cleared 0) (.cleared 1) (same _ _)).resolve_left (by decide)

end Clash.Sample

end StateChannels
