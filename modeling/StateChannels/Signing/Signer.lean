import StateChannels.Hash.Keccak
import StateChannels.Signing.Ecdsa

/-!
# `StateChannels.Signing.Signer`: signing digests as accounts do

An account is the end of the digest of its public key. It signs a
32 byte digest under a fixed text, so that the signature is of use
for nothing but messages. A signature is `r`, `s` and a mark `v`,
which is 27 or 28 by the parity of the nonce point.

The rest of the library uses `Signer.sign`, `Signer.address` and
`recoverSigner` only, and looks inside for samples alone. What is
assumed of the library that recovers keys is said with
`Ecdsa.recover?_eq_none_iff`.
-/

set_option autoImplicit false

namespace StateChannels

/-- Why no signer is recovered from a signature. -/
inductive SignatureError where
  | invalidRecoveryMark (v : UInt8)
  | unrecoverable
deriving DecidableEq, Repr

/-- The text of an error. -/
def SignatureError.message : SignatureError → String
  | .invalidRecoveryMark v => s!"invalid recovery id {v.toNat}, expected 27 or 28"
  | .unrecoverable => "could not recover signer: signature error"

/-- The digest that is signed for a message digest. -/
def signingDigest (message : Hash) : Hash :=
  keccak256 (0x19 :: Bytes.ofText "Ethereum Signed Message:\n32" ++ message.toBytes)

/-- The address of a public key: the last 20 bytes of its digest. -/
def Curve.Point.address (key : Curve.Point) : Address :=
  ⟨(keccak256 (Bytes.ofNat 32 key.x ++ Bytes.ofNat 32 key.y)).bytes.drop 12⟩

/-- The account that made the signature. -/
def recoverSigner (message : Hash) (signature : Signature) : Except SignatureError Address :=
  if signature.v = 27 ∨ signature.v = 28 then
    let digest := (signingDigest message).toBytes.toNat
    match Ecdsa.recover? digest ⟨signature.r, signature.s, signature.v == 28⟩ with
    | some key => .ok key.address
    | none => .error .unrecoverable
  else .error (.invalidRecoveryMark signature.v)

/-- A signer is recovered if the mark is one of the two, and if there
is a key: the account is that of the key. -/
theorem recoverSigner_eq_ok_iff {message : Hash} {signature : Signature} {a : Address} :
    recoverSigner message signature = .ok a ↔
      (signature.v = 27 ∨ signature.v = 28) ∧
        ∃ key, Ecdsa.recover? (signingDigest message).toBytes.toNat
          ⟨signature.r, signature.s, signature.v == 28⟩ = some key ∧ key.address = a := by
  unfold recoverSigner
  by_cases mark : signature.v = 27 ∨ signature.v = 28
  · rw [if_pos mark, and_iff_right mark]
    dsimp only
    split <;> simp [*]
  · simp [mark]

/-- A wrong mark is reported as such. With a right one there is no
signer exactly if there is no key (`Ecdsa.recover?_eq_none_iff`). -/
theorem recoverSigner_eq_error_iff {message : Hash} {signature : Signature}
    {error : SignatureError} :
    recoverSigner message signature = .error error ↔
      (signature.v ≠ 27 ∧ signature.v ≠ 28 ∧ error = .invalidRecoveryMark signature.v) ∨
      ((signature.v = 27 ∨ signature.v = 28) ∧ error = .unrecoverable ∧
        Ecdsa.recover? (signingDigest message).toBytes.toNat
          ⟨signature.r, signature.s, signature.v == 28⟩ = none) := by
  unfold recoverSigner
  by_cases mark : signature.v = 27 ∨ signature.v = 28
  · have right : ¬(signature.v ≠ 27 ∧ signature.v ≠ 28 ∧
        error = .invalidRecoveryMark signature.v) :=
      fun wrong => mark.elim wrong.1 wrong.2.1
    rw [if_pos mark, or_iff_right right, and_iff_right mark]
    dsimp only
    split <;> simp [*, eq_comm]
  · rw [if_neg mark]
    rw [not_or] at mark
    simp [mark, eq_comm]

/-- An account's private key: a scalar other than zero. -/
structure Signer where
  secret : Nat
  secret_pos : 0 < secret
  secret_lt : secret < Curve.order

namespace Signer

/-- The key with this scalar, if it is in range. -/
def ofSecret? (secret : Nat) : Option Signer :=
  if h : 0 < secret ∧ secret < Curve.order then some ⟨secret, h.1, h.2⟩ else none

/-- The first key of a random stream: 32 bytes are tried at a time,
those out of range are thrown away. -/
def ofStream? (stream : Bytes) : Option Signer :=
  if stream.length < 32 then none
  else
    match ofSecret? (Bytes.toNat (stream.take 32)) with
    | some signer => some signer
    | none => ofStream? (stream.drop 32)
termination_by stream.length
decreasing_by
  rw [List.length_drop]
  omega

/-- The account of the key. -/
def address (signer : Signer) : Address :=
  match (Curve.generator.scale 256 signer.secret).point? with
  | some key => key.address
  | none => .zero

/-- The account's signature on a message digest. In case there is
none, the zero signature stands, which no one accepts. -/
def sign (signer : Signer) (message : Hash) : Signature :=
  match Ecdsa.sign? signer.secret (signingDigest message).toBytes.toNat with
  | some ⟨r, s, odd⟩ =>
    .ofParts
      ⟨(Bytes.ofNat 32 r ++ Bytes.ofNat 32 s).toArray, by simp⟩
      (if odd then 28 else 27)
  | none => .zero

/-- The text of a signer. It shows the account, never the key. -/
def text (signer : Signer) : String :=
  "Signer \x7b addr: " ++ signer.address.text ++ " \x7d"

end Signer

end StateChannels
