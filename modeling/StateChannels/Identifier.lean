import StateChannels.Bytes

/-!
# `StateChannels.Identifier`: addresses, digests, destinations

The identifiers of the protocol are byte strings of a fixed length.
A type of its own for each keeps a channel id from standing where an
address is expected. A destination is either an external address,
padded on the left with zeros, or the id of a channel.
-/

set_option autoImplicit false

namespace StateChannels

/-- The address of an account or a contract. -/
@[ext] structure Address where
  bytes : Vector UInt8 20
deriving DecidableEq

/-- A 32 byte digest. -/
@[ext] structure Hash where
  bytes : Vector UInt8 32
deriving DecidableEq

/-- Where funds are paid: an external address or a channel. -/
@[ext] structure Destination where
  bytes : Vector UInt8 32
deriving DecidableEq

/-- A signature with its recovery mark: `r`, `s` and one byte `v`. -/
@[ext] structure Signature where
  bytes : Vector UInt8 65
deriving DecidableEq

/-- Any 32 bytes. -/
@[ext] structure Bytes32 where
  bytes : Vector UInt8 32
deriving DecidableEq

namespace Address

/-- The address of all zeros. -/
def zero : Address := ⟨.replicate 20 0⟩

/-- The address of zeros. -/
instance : Inhabited Address := ⟨zero⟩

/-- The twenty bytes of an address. -/
def toBytes (a : Address) : Bytes := a.bytes.toList

/-- The address with these bytes, if they are 20. -/
def ofBytes? (bs : Bytes) : Option Address := (bs.toVector? 20).map .mk

/-- The text of an address: its bytes in hexadecimal. -/
def text (a : Address) : String := a.toBytes.hex

/-- An address takes twenty bytes. -/
@[simp] theorem length_toBytes (a : Address) : a.toBytes.length = 20 := by
  simp [toBytes]

/-- An address is read back from its bytes. -/
@[simp] theorem ofBytes?_toBytes (a : Address) : ofBytes? a.toBytes = some a := by
  simp [ofBytes?, toBytes]

/-- Addresses with the same bytes are the same. -/
theorem toBytes_inj {a b : Address} : a.toBytes = b.toBytes ↔ a = b := by
  rw [Address.ext_iff, toBytes, toBytes, Vector.toList_inj]

end Address

namespace Hash

/-- The digest of all zeros, which stands for "nothing recorded". -/
def zero : Hash := ⟨.replicate 32 0⟩

/-- The hash of zeros. -/
instance : Inhabited Hash := ⟨zero⟩

/-- The 32 bytes of a hash. -/
def toBytes (h : Hash) : Bytes := h.bytes.toList

/-- The digest with these bytes, if they are 32. -/
def ofBytes? (bs : Bytes) : Option Hash := (bs.toVector? 32).map .mk

/-- The text of a digest: its bytes in hexadecimal. -/
def text (h : Hash) : String := h.toBytes.hex

/-- A hash takes 32 bytes. -/
@[simp] theorem length_toBytes (h : Hash) : h.toBytes.length = 32 := by
  simp [toBytes]

/-- A hash is read back from its bytes. -/
@[simp] theorem ofBytes?_toBytes (h : Hash) : ofBytes? h.toBytes = some h := by
  simp [ofBytes?, toBytes]

/-- Hashes with the same bytes are the same. -/
theorem toBytes_inj {g h : Hash} : g.toBytes = h.toBytes ↔ g = h := by
  rw [Hash.ext_iff, toBytes, toBytes, Vector.toList_inj]

end Hash

namespace Destination

/-- The destination of all zeros. -/
def zero : Destination := ⟨.replicate 32 0⟩

/-- The destination of zeros. -/
instance : Inhabited Destination := ⟨zero⟩

/-- The 32 bytes of a destination. -/
def toBytes (d : Destination) : Bytes := d.bytes.toList

/-- The destination with these bytes, if they are 32. -/
def ofBytes? (bs : Bytes) : Option Destination := (bs.toVector? 32).map .mk

/-- The text of a destination: its bytes in hexadecimal. -/
def text (d : Destination) : String := d.toBytes.hex

/-- Funds for an external address. -/
def ofAddress (a : Address) : Destination :=
  ⟨(Vector.replicate 12 (0 : UInt8) ++ a.bytes : Vector UInt8 (12 + 20))⟩

/-- Funds for a channel. -/
def ofChannel (id : Hash) : Destination := ⟨id.bytes⟩

/-- The channel with the bytes of the destination for its id. -/
def toChannel (d : Destination) : Hash := ⟨d.bytes⟩

/-- The external address, if the destination is one: its first 12
bytes are zero. -/
def address? (d : Destination) : Option Address :=
  if d.toBytes.take 12 = Bytes.zeros 12 then Address.ofBytes? (d.toBytes.drop 12) else none

/-- Whether funds go to an external address. -/
def isExternal (d : Destination) : Bool := d.address?.isSome

/-- A destination takes 32 bytes. -/
@[simp] theorem length_toBytes (d : Destination) : d.toBytes.length = 32 := by
  simp [toBytes]

/-- A destination is read back from its bytes. -/
@[simp] theorem ofBytes?_toBytes (d : Destination) : ofBytes? d.toBytes = some d := by
  simp [ofBytes?, toBytes]

/-- Destinations with the same bytes are the same. -/
theorem toBytes_inj {d e : Destination} : d.toBytes = e.toBytes ↔ d = e := by
  rw [Destination.ext_iff, toBytes, toBytes, Vector.toList_inj]

/-- The destination of an address is the address after twelve zeros. -/
@[simp] theorem toBytes_ofAddress (a : Address) :
    (ofAddress a).toBytes = Bytes.zeros 12 ++ a.toBytes := by
  rw [toBytes, ofAddress, Vector.toList_append, Vector.toList_replicate]
  rfl

/-- The destination of a channel is its id. -/
@[simp] theorem toBytes_ofChannel (id : Hash) : (ofChannel id).toBytes = id.toBytes := rfl

/-- The channel of a channel's destination is that channel. -/
@[simp] theorem toChannel_ofChannel (id : Hash) : (ofChannel id).toChannel = id := rfl

/-- Every destination is that of its channel. -/
@[simp] theorem ofChannel_toChannel (d : Destination) : ofChannel d.toChannel = d := rfl

/-- The destination of an address leads to that address. -/
@[simp] theorem address?_ofAddress (a : Address) : (ofAddress a).address? = some a := by
  simp [address?]

end Destination

namespace Signature

/-- The signature of all zeros. No one accepts it, its mark is 0. -/
def zero : Signature := ⟨.replicate 65 0⟩

/-- The signature of zeros. -/
instance : Inhabited Signature := ⟨zero⟩

/-- The 65 bytes of a signature. -/
def toBytes (s : Signature) : Bytes := s.bytes.toList

/-- The signature with these bytes, if they are 65. -/
def ofBytes? (bs : Bytes) : Option Signature := (bs.toVector? 65).map .mk

/-- A signature from `r` and `s` in 64 bytes and the mark `v`. -/
def ofParts (rs : Vector UInt8 64) (v : UInt8) : Signature := ⟨rs.push v⟩

/-- The first half. -/
def r (s : Signature) : Nat := Bytes.toNat (s.toBytes.take 32)

/-- The second half. -/
def s (s : Signature) : Nat := Bytes.toNat ((s.toBytes.drop 32).take 32)

/-- The recovery mark, the last byte. -/
def v (s : Signature) : UInt8 := s.bytes[64]

/-- The text of a signature: its bytes in hexadecimal. -/
def text (s : Signature) : String := s.toBytes.hex

/-- A signature takes 65 bytes. -/
@[simp] theorem length_toBytes (s : Signature) : s.toBytes.length = 65 := by
  simp [toBytes]

/-- A signature is read back from its bytes. -/
@[simp] theorem ofBytes?_toBytes (s : Signature) : ofBytes? s.toBytes = some s := by
  simp [ofBytes?, toBytes]

end Signature

namespace Bytes32

/-- Zeros. -/
def zero : Bytes32 := ⟨.replicate 32 0⟩

/-- The word of zeros. -/
instance : Inhabited Bytes32 := ⟨zero⟩

/-- The bytes of a word. -/
def toBytes (b : Bytes32) : Bytes := b.bytes.toList

/-- The value with these bytes, if they are 32. -/
def ofBytes? (bs : Bytes) : Option Bytes32 := (bs.toVector? 32).map .mk

end Bytes32

end StateChannels
