import StateChannels.Checked
import StateChannels.Outcome
import StateChannels.Proofs.Abi.Alone

/-!
# `StateChannels.Proofs.Abi.Outcome`: outcomes are read back

The bytes of an outcome are a list of asset holders, each with a byte string.
In this string there are a label and one more byte string, which is laid out
as the label says: as the list of an allocation, or as a guarantee. So the
layout alone does not tell the kind of the innermost values. `Outcome.read?`
reads the three levels one after the other. At each of them it reads tokens of
a known kind, and takes the values out of the tokens.

* `Outcome.read?_encode`: an outcome is read back from its bytes, whatever
  bytes follow. It does not have to be valid.
* `Outcome.encode_injective`: so no two outcomes have the same bytes, and the
  bytes of one do not begin those of another.
-/

set_option autoImplicit false

namespace StateChannels

/-! ### Values in slots -/

/-- The kind of a byte string behind a value in a slot, which is that of an
entry of an outcome, and of its content under a label. -/
def Abi.labelledKind : Abi.Kind := .tuple [.static 1, .bytes]

namespace Abi.Token

variable {t : Token}

/-- A number takes one slot. -/
theorem fits_ofNat (n : Nat) : (ofNat n).Fits (.static 1) := .static (Abi.length_slot n)

/-- A hash takes one slot. -/
theorem fits_ofHash (h : Hash) : (ofHash h).Fits (.static 1) := .static h.length_toBytes

/-- A destination takes one slot. -/
theorem fits_ofDestination (d : Destination) : (ofDestination d).Fits (.static 1) :=
  .static d.length_toBytes

/-- An amount takes one slot. -/
theorem fits_ofUint256 (n : Uint256) : (ofUint256 n).Fits (.static 1) := .static n.length_toBytes

/-- An address takes one slot. -/
theorem fits_ofAddress (a : Address) : (ofAddress a).Fits (.static 1) :=
  .static (by simp [slotSize])

/-! ### Byte strings under a label -/

/-- A label of one slot and bytes behind it fit the kind of labelled
content. -/
theorem fits_labelled (label : t.Fits (.static 1)) (content : Bytes) :
    (tuple [t, bytes content]).Fits labelledKind :=
  .tuple (.cons label (.cons (.bytes content) .nil))

/-- Labelled content is at least as long as the bytes it carries. -/
theorem length_le_labelled (t : Token) (content : Bytes) :
    content.length ≤ (tuple [t, bytes content]).encode.length :=
  Nat.le_trans (length_content_le content)
    (length_encode_le_tuple (List.mem_cons_of_mem _ List.mem_cons_self))

end Abi.Token

open Abi (Kind Token labelledKind)

/-! ### Contents -/

/-- The kind of an allocation. -/
def Allocation.kind : Kind := .array (.tuple [.static 1, .static 1])

/-- The kind of a guarantee. -/
def Guarantee.kind : Kind := .tuple [.static 1, .array (.static 1)]

/-- The kind of the content of an entry. -/
def AssetContent.kind : AssetContent → Kind
  | allocation _ => Allocation.kind
  | guarantee _ => Guarantee.kind

namespace Allocation

/-- An allocation's token fits the kind of allocations. -/
theorem fits_token {a : Allocation} (short : a.token.encode.length < 2 ^ 64) :
    a.token.Fits kind := by
  refine Token.Fits.of_items ?_ (by decide) short
  intro t member
  obtain ⟨item, -, rfl⟩ := List.mem_map.1 member
  exact .tuple (.cons (Token.fits_ofDestination _) (.cons (Token.fits_ofUint256 _) .nil))

/-- Takes an item out of its token. -/
def item? : Token → Option AllocationItem
  | .tuple [.static destination, .static amount] => do
    return ⟨← Destination.ofBytes? destination, ← Uint256.ofBytes? amount⟩
  | _ => none

/-- Takes an allocation out of its token. -/
def ofToken? : Token → Option Allocation
  | .array items => mk <$> items.mapM item?
  | _ => none

/-- An item is read back from its token. -/
theorem item?_token (item : AllocationItem) :
    item? (.tuple [.ofDestination item.destination, .ofUint256 item.amount]) = some item := by
  simp [item?, Token.ofDestination, Token.ofUint256]

/-- An allocation is read back from its token. -/
theorem ofToken?_token (a : Allocation) : ofToken? a.token = some a := by
  rw [token, ofToken?, mapM_map_eq_pure fun item _ => item?_token item]
  rfl

end Allocation

namespace Guarantee

/-- A guarantee's token fits the kind of guarantees. -/
theorem fits_token {g : Guarantee} (short : g.token.encode.length < 2 ^ 64) :
    g.token.Fits kind := by
  have inner : (Token.array (g.destinations.map .ofDestination)).encode.length < 2 ^ 64 :=
    Nat.lt_of_le_of_lt
      (Token.length_encode_le_tuple (List.mem_cons_of_mem _ List.mem_cons_self)) short
  refine .tuple (.cons (Token.fits_ofHash _) (.cons ?_ .nil))
  refine Token.Fits.of_items ?_ (by decide) inner
  intro t member
  obtain ⟨d, -, rfl⟩ := List.mem_map.1 member
  exact Token.fits_ofDestination d

/-- Takes a destination out of its slot. -/
def destination? : Token → Option Destination
  | .static slot => Destination.ofBytes? slot
  | _ => none

/-- Takes a guarantee out of its token. -/
def ofToken? : Token → Option Guarantee
  | .tuple [.static target, .array destinations] => do
    return ⟨← Hash.ofBytes? target, ← destinations.mapM destination?⟩
  | _ => none

/-- A guarantee is read back from its token. -/
theorem ofToken?_token (g : Guarantee) : ofToken? g.token = some g := by
  have destinations : (g.destinations.map Token.ofDestination).mapM destination? =
      some g.destinations :=
    mapM_map_eq_pure fun d _ => Destination.ofBytes?_toBytes d
  simp [token, Token.ofHash, ofToken?, destinations]

end Guarantee

namespace AssetContent

/-- The label of a content takes one slot. -/
theorem label_lt (c : AssetContent) : c.label < 2 ^ 256 := by
  cases c with
  | allocation => exact (by decide : 0 < 2 ^ 256)
  | guarantee => exact (by decide : 1 < 2 ^ 256)

/-- A content's token fits the kind its label stands for. -/
theorem fits_token {c : AssetContent} (short : c.token.toBytes.length < 2 ^ 64) :
    c.token.Fits c.kind := by
  have inner := Nat.lt_of_le_of_lt (Token.length_encode_le_toBytes c.token) short
  cases c with
  | allocation => exact Allocation.fits_token inner
  | guarantee => exact Guarantee.fits_token inner

/-- Reads the content proper, whose kind the label tells. -/
def readUnder? : Nat → Bytes → Option AssetContent
  | 0, input => do
    let t ← Allocation.kind.readAlone input
    allocation <$> Allocation.ofToken? t
  | 1, input => do
    let t ← Guarantee.kind.readAlone input
    guarantee <$> Guarantee.ofToken? t
  | _, _ => none

/-- Reads a content with its label. -/
def read? (input : Bytes) : Option AssetContent :=
  match labelledKind.readAlone input with
  | some (.tuple [.static label, .bytes content]) => readUnder? (Bytes.toNat label) content
  | _ => none

/-- A content is read back from its bytes under its own label. -/
theorem readUnder?_toBytes {c : AssetContent} (short : c.token.toBytes.length < 2 ^ 64) :
    readUnder? c.label c.token.toBytes = some c := by
  have token := Token.readAlone_toBytes (fits_token short) short []
  rw [List.append_nil] at token
  -- The label tells the kind that the content was laid out with.
  cases c with
  | allocation a =>
    rw [kind] at token
    rw [label, readUnder?, token]
    exact congrArg (Option.map allocation) (Allocation.ofToken?_token a)
  | guarantee g =>
    rw [kind] at token
    rw [label, readUnder?, token]
    exact congrArg (Option.map guarantee) (Guarantee.ofToken?_token g)

/-- A content is read back from its bytes. -/
theorem read?_encode {c : AssetContent} (short : c.encode.length < 2 ^ 64) :
    read? c.encode = some c := by
  have inner : c.token.toBytes.length ≤ c.encode.length :=
    Nat.le_trans (Token.length_le_labelled _ _) (Token.length_encode_le_toBytes _)
  have whole := Token.readAlone_toBytes
    (Token.fits_labelled (Token.fits_ofNat c.label) c.token.toBytes) short []
  -- The label fits its slot, so the number that is read is the label again.
  have label : Bytes.toNat (Abi.slot c.label) = c.label := Bytes.toNat_ofNat c.label_lt
  rw [List.append_nil] at whole
  rw [read?, encode, whole]
  simp only [Token.ofNat, label]
  exact readUnder?_toBytes (Nat.lt_of_le_of_lt inner short)

end AssetContent

namespace Outcome

variable {o o' : Outcome}

/-- The form of an entry. -/
def entryToken (asset : AssetOutcome) : Token :=
  .tuple [.ofAddress asset.assetHolder, .bytes asset.encode]

/-- An asset's bytes are no longer than the outcome's. -/
theorem length_entry_le {asset : AssetOutcome} (member : asset ∈ o.assets) :
    asset.encode.length ≤ o.encode.length :=
  Nat.le_trans (Token.length_le_labelled _ _)
    (Token.length_item_le (List.mem_map_of_mem member))

/-- An outcome's token is an array of labelled content. -/
theorem fits_token (short : o.encode.length < 2 ^ 64) :
    (Token.array (o.assets.map entryToken)).Fits (.array labelledKind) := by
  refine Token.Fits.of_items ?_ (by decide)
    (Nat.lt_of_le_of_lt (Token.length_encode_le_toBytes _) short)
  intro t member
  obtain ⟨asset, -, rfl⟩ := List.mem_map.1 member
  exact Token.fits_labelled (Token.fits_ofAddress _) _

/-- Takes an entry out of its form. The address stands behind the zeros of its
slot. -/
def entry? : Token → Option AssetOutcome
  | .tuple [.static holder, .bytes content] => do
    return ⟨← Address.ofBytes? (holder.drop 12), ← AssetContent.read? content⟩
  | _ => none

/-- An asset is read back from its entry. -/
theorem entry?_entryToken {asset : AssetOutcome} (short : asset.encode.length < 2 ^ 64) :
    entry? (entryToken asset) = some asset := by
  have content : AssetContent.read? asset.encode = some asset.content :=
    AssetContent.read?_encode short
  have holder : (Bytes.zeros 12 ++ asset.assetHolder.toBytes).drop 12 = asset.assetHolder.toBytes :=
    List.drop_left' (Bytes.length_zeros 12)
  simp [entryToken, entry?, Token.ofAddress, content, holder]

/-- Reads an outcome from the front of a byte string. -/
def read? (input : Bytes) : Option Outcome :=
  match (Kind.array labelledKind).readAlone input with
  | some (.array entries) => mk <$> entries.mapM entry?
  | _ => none

/-- An outcome is read back from its bytes, whatever bytes follow. -/
theorem read?_encode (short : o.encode.length < 2 ^ 64) (rest : Bytes) :
    read? (o.encode ++ rest) = some o := by
  have whole : (Kind.array labelledKind).readAlone (o.encode ++ rest) =
      some (.array (o.assets.map entryToken)) :=
    Token.readAlone_toBytes (fits_token short) short rest
  have entries : (o.assets.map entryToken).mapM entry? = some o.assets := by
    -- An entry is no longer than the whole, so it is short enough to be read.
    refine mapM_map_eq_pure fun asset member => entry?_entryToken ?_
    exact Nat.lt_of_le_of_lt (length_entry_le member) short
  rw [read?, whole]
  simp only [entries]
  rfl

/-- Byte strings that begin with the bytes of outcomes tell them. -/
theorem eq_of_append_eq (short : o.encode.length < 2 ^ 64) (short' : o'.encode.length < 2 ^ 64)
    {rest rest' : Bytes} (same : o.encode ++ rest = o'.encode ++ rest') : o = o' := by
  have read := read?_encode short rest
  rw [same, read?_encode short' rest'] at read
  exact (Option.some.inj read).symm

/-- An outcome is told by its bytes. -/
theorem eq_of_encode_eq (short : o.encode.length < 2 ^ 64) (same : o.encode = o'.encode) :
    o = o' :=
  eq_of_append_eq short (same ▸ short) (congrArg (· ++ []) same)

/-- Outcomes with the same bytes are the same, valid or not. Moreover the
bytes of an outcome do not begin those of another: if two byte strings that
begin with outcomes are the same, the outcomes are, and so is what follows. -/
theorem encode_injective (short : o.encode.length < 2 ^ 64) (short' : o'.encode.length < 2 ^ 64) :
    (o.encode = o'.encode ↔ o = o') ∧
      ∀ rest rest', o.encode ++ rest = o'.encode ++ rest' → o = o' ∧ rest = rest' := by
  refine ⟨⟨eq_of_encode_eq short, congrArg encode⟩, ?_⟩
  intro rest rest' same
  obtain rfl := eq_of_append_eq short short' same
  exact ⟨rfl, List.append_cancel_left same⟩

namespace Sample

/-- An entry that pays nobody, twice for one asset holder. -/
def repeated : Outcome := ⟨[⟨.zero, .allocation ⟨[]⟩⟩, ⟨.zero, .allocation ⟨[]⟩⟩]⟩

/-- An entry that reserves nothing for nobody. -/
def reserving : Outcome := ⟨[⟨.zero, .guarantee ⟨.zero, []⟩⟩]⟩

/-- The bytes of an outcome that is not valid are not those of another one,
also with something behind them. -/
theorem encode_injective_repeated :
    ¬repeated.Valid ∧ repeated.encode ≠ reserving.encode ∧
      ∀ rest, repeated.encode ++ rest ≠ reserving.encode := by
  have short : repeated.encode.length < 2 ^ 64 := by decide +kernel
  have short' : reserving.encode.length < 2 ^ 64 := by decide +kernel
  obtain ⟨bytes, fronts⟩ := encode_injective short short'
  have differ : repeated ≠ reserving := by decide
  refine ⟨fun valid => ?_, fun same => differ (bytes.1 same), fun rest same => ?_⟩
  · exact absurd valid.1 (by decide)
  · exact differ (fronts rest [] (same.trans (List.append_nil _).symm)).1

end Sample

end Outcome

end StateChannels
