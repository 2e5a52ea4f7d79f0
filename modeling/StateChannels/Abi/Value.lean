import StateChannels.Abi.Token

/-!
# `StateChannels.Abi.Value`: values of any shape

The values of a program have more shapes than the ABI: there are
optional values, tables, floating point numbers. `Value` lists the
shapes, and `Value.token?` finds the token of a value or says why it
has none. Members are looked at in order, and the first one without a
token decides the error.

Main statement: `token?_byteString`, a byte string is a list of
bytes under a mark.
-/

set_option autoImplicit false

namespace StateChannels.Abi

/-- The shapes without a form in the ABI. -/
inductive Shape where
  | float32
  | float64
  | absent
  | present
  | unit
  | unitRecord
  | unitVariant
  | newtypeVariant
  | tupleVariant
  | recordVariant
  | table
deriving DecidableEq, Repr

/-- How the shape is called in an error. -/
def Shape.name : Shape → String
  | float32 => "f32"
  | float64 => "f64"
  | absent => "none"
  | present => "some"
  | unit => "unit"
  | unitRecord => "unit struct"
  | unitVariant => "unit variant (enum)"
  | newtypeVariant => "newtype variant (enum)"
  | tupleVariant => "tuple variant (enum)"
  | recordVariant => "struct variant"
  | table => "map"

/-- Why a value has no token. -/
inductive EncodeError where
  /-- The ABI has no form for the shape. -/
  | unrepresentable (shape : Shape)
  /-- A member of a marked list is not one slot. -/
  | elementNotByte
  /-- The mark is on something other than a list. -/
  | notSequence
  /-- A single character. The ABI could hold it. -/
  | character
  /-- The value refused to be encoded. -/
  | custom (text : String)
deriving DecidableEq, Repr

/-- The text of an error. -/
def EncodeError.message : EncodeError → String
  | unrepresentable shape => "type is not representable in abi encoding: " ++ shape.name
  | elementNotByte => "type is not representable in abi encoding: non-u8 element in bytes"
  | notSequence => "type is not representable in abi encoding: bytes must wrap a sequence"
  | character => "type is not yet implemented: char"
  | custom text => text

/-- A value by its shape. -/
inductive Value where
  | unsigned (n : Nat)
  | signed (z : Int)
  | bool (b : Bool)
  | text (s : String)
  /-- Bytes of a number fixed by the type. -/
  | fixed (bs : Bytes)
  | array (items : List Value)
  | tuple (items : List Value)
  /-- A record with one unnamed member counts as the member. -/
  | wrapper (content : Value)
  /-- A list marked as a byte string. -/
  | marked (content : Value)
  | character
  | unrepresentable (shape : Shape)
  /-- A value that refuses, with a text of its own. -/
  | refusing (reason : String)

/-- The byte that one slot stands for in a marked list. -/
def Token.byte? : Token → Except EncodeError UInt8
  | .static slots =>
    if slots.length = slotSize then
      match slots.getLast? with
      | some b => .ok b
      | none => .error .elementNotByte
    else .error .elementNotByte
  | _ => .error .elementNotByte

/-- The byte string that a marked token stands for. -/
def Token.unmark? : Token → Except EncodeError Token
  | .array items => .bytes <$> items.mapM byte?
  | .tuple items => .bytes <$> items.mapM byte?
  | _ => .error .notSequence

namespace Value

mutual

/-- The token of a value, or why there is none. -/
def token? : Value → Except EncodeError Token
  | unsigned n => .ok (.ofNat n)
  | signed z => .ok (.ofInt z)
  | bool b => .ok (.ofBool b)
  | text s => .ok (.ofText s)
  | fixed bs => .ok (.ofFixed bs)
  | array items => .array <$> tokens? items
  | tuple items => .tuple <$> tokens? items
  | wrapper content => content.token?
  | marked content => content.token? >>= Token.unmark?
  | character => .error .character
  | unrepresentable shape => .error (.unrepresentable shape)
  | refusing reason => .error (.custom reason)

/-- The tokens of the members of a list. -/
def tokens? : List Value → Except EncodeError (List Token)
  | [] => .ok []
  | v :: vs => do
    let t ← v.token?
    let ts ← tokens? vs
    return t :: ts

end

/-- A byte string of any length: a marked list of its bytes. -/
def byteString (bs : Bytes) : Value := marked (array (bs.map fun b => unsigned b.toNat))

/-- The bytes of a value that stands alone. -/
def toBytes? (v : Value) : Except EncodeError Bytes := Token.toBytes <$> v.token?

/-- The bytes of a list of arguments. -/
def toArgsBytes? (v : Value) : Except EncodeError Bytes := Token.toArgsBytes <$> v.token?

/-! ### Byte strings -/

/-- A byte is read back from its slot. -/
private theorem byte?_ofNat (b : UInt8) : (Token.ofNat b.toNat).byte? = .ok b := by
  have last : (slot b.toNat).getLast? = some b := by
    simp [slot, slotSize, Bytes.ofNat]
  simp [Token.ofNat, Token.byte?, last, show (slot b.toNat).length = slotSize by simp [slot]]

/-- The mark turns a list of bytes into the byte string. -/
theorem token?_byteString (bs : Bytes) : (byteString bs).token? = .ok (.bytes bs) := by
  have members : tokens? (bs.map fun b => unsigned b.toNat) =
      .ok (bs.map fun b => Token.ofNat b.toNat) := by
    induction bs with
    | nil => rfl
    | cons b bs ih => simp only [List.map_cons, tokens?, ih, token?]; rfl
  have back : (bs.map fun b => Token.ofNat b.toNat).mapM Token.byte? = .ok bs := by
    induction bs with
    | nil => rfl
    | cons b bs ih =>
      rw [List.map_cons, List.mapM_cons, byte?_ofNat, ih ?_]
      · rfl
      · simp only [List.map_cons, tokens?, token?] at members
        cases h : tokens? (bs.map fun b => unsigned b.toNat) with
        | error e => simp [h, bind, Except.bind] at members
        | ok ts => simpa [h, bind, Except.bind, pure, Except.pure] using members
  simp only [byteString, token?, members]
  change Token.unmark? (.array _) = _
  simp only [Token.unmark?, back]
  rfl

end Value

end StateChannels.Abi
