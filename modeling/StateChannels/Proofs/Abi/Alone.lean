import StateChannels.Proofs.Abi.Layout

/-!
# `StateChannels.Proofs.Abi.Alone`: values that stand alone

What is hashed are the bytes of a sequence. A value that stands alone is a
sequence of one, so a dynamic value has its offset in front. The members of a
tuple can also be laid out as a list of arguments, without this word. Whoever
reads the bytes has to know which of the two they are.

* `Token.Fits.slotSize_dvd_length_encode`: values take whole slots.
* `Token.toBytes_eq`: what a value that stands alone has in front.
* `Token.readAlone_toBytes`: it is read back, whatever bytes follow.
* `Token.layout_decodable`: these together, for values of any kind.
-/

set_option autoImplicit false

namespace StateChannels.Abi

/-- Reads a value that stands alone, which is a sequence of one. -/
def Kind.readAlone (k : Kind) (input : Bytes) : Option Token :=
  match (tuple [k]).read input with
  | some (.tuple [t]) => some t
  | _ => none

/-! ### Whole slots -/

/-- A number takes one slot. -/
theorem slotSize_dvd_length_slot (n : Nat) : slotSize ∣ (slot n).length :=
  ⟨1, length_slot n⟩

/-- Padding makes whole slots. -/
theorem slotSize_dvd_length_padRight (bs : Bytes) :
    slotSize ∣ (bs.padRight slotSize).length := by
  unfold Bytes.padRight
  split
  case isTrue whole => exact Nat.dvd_of_mod_eq_zero whole
  case isFalse part =>
    rw [List.length_append, Bytes.length_zeros, slotSize]
    omega

/-- Members that take whole slots make a sequence that does. -/
theorem Part.slotSize_dvd_length_assemble {ps : List Part}
    (whole : ∀ p ∈ ps, slotSize ∣ p.content.length) : slotSize ∣ (assemble ps).length := by
  induction ps with
  | nil => exact Nat.dvd_zero slotSize
  | cons p ps ih =>
    obtain ⟨first, others⟩ := List.forall_mem_cons.1 whole
    have offset : slotSize ∣ if p.dynamic then slotSize else 0 := by
      split
      · exact Nat.dvd_refl slotSize
      · exact Nat.dvd_zero slotSize
    rw [length_assemble_cons]
    exact Nat.dvd_add (Nat.dvd_add offset first) (ih others)

namespace Token

variable {t : Token} {ts : List Token} {k : Kind}

/-- A sequence of members in whole slots takes whole slots. -/
theorem slotSize_dvd_length_sequence (whole : ∀ t ∈ ts, slotSize ∣ t.encode.length) :
    slotSize ∣ (sequence ts).length := by
  rw [sequence_eq]
  refine Part.slotSize_dvd_length_assemble ?_
  rw [parts_eq_map]
  exact List.forall_mem_map.2 whole

/-- Values take whole slots, of whatever kind. -/
theorem Fits.slotSize_dvd_length_encode (fits : t.Fits k) : slotSize ∣ t.encode.length := by
  induction t using Token.induction generalizing k with
  | static slots =>
    cases fits with
    | static length => exact ⟨_, length⟩
  | bytes content =>
    rw [encode, List.length_append]
    exact Nat.dvd_add (slotSize_dvd_length_slot _) (slotSize_dvd_length_padRight content)
  | array items ih =>
    cases fits with
    | array _ each =>
      have whole := slotSize_dvd_length_sequence fun t member => ih t member (each t member)
      rw [sequence_eq] at whole
      rw [encode_array, List.length_append]
      exact Nat.dvd_add (slotSize_dvd_length_slot _) whole
  | tuple items ih =>
    cases fits with
    | tuple each =>
      refine slotSize_dvd_length_sequence fun t member => ?_
      obtain ⟨k, memberFits⟩ := exists_fits_of_mem each member
      exact ih t member memberFits

/-! ### A sequence of one -/

/-- A dynamic value that stands alone has its offset in front, and any other
value nothing. -/
theorem toBytes_eq (t : Token) :
    t.toBytes = (if t.isDynamic then slot slotSize else []) ++ t.encode := by
  rw [toBytes, sequence_eq]
  cases dynamic : t.isDynamic <;>
    simp [Part.assemble, Part.layout, Part.headsSize, Part.headSize, Part.heads, Part.tails,
      parts, dynamic]

/-- A value that stands alone is read back, whatever bytes follow. -/
theorem readAlone_toBytes (fits : t.Fits k) (short : t.toBytes.length < 2 ^ 64) (rest : Bytes) :
    k.readAlone (t.toBytes ++ rest) = some t := by
  have sequence : (Kind.tuple [k]).read (t.toBytes ++ rest) = some (tuple [t]) :=
    read_encode (.tuple (.cons fits .nil)) short rest
  rw [Kind.readAlone, sequence]

/-- A value is no longer than its bytes when it stands alone. -/
theorem length_encode_le_toBytes (t : Token) : t.encode.length ≤ t.toBytes.length :=
  length_encode_le_tuple (List.mem_singleton_self t)

/-- An item is no longer than the bytes of the list. -/
theorem length_item_le {items : List Token} (member : t ∈ items) :
    t.encode.length ≤ (array items).toBytes.length := by
  have inner := length_encode_le member
  have outer := length_encode_le_toBytes (array items)
  rw [encode_array, List.length_append] at outer
  omega

/-- A value that stands alone takes whole slots. -/
theorem Fits.slotSize_dvd_length_toBytes (fits : t.Fits k) : slotSize ∣ t.toBytes.length := by
  refine slotSize_dvd_length_sequence fun u member => ?_
  rw [List.mem_singleton.1 member]
  exact fits.slotSize_dvd_length_encode

/-- The bytes of a tuple that stands alone are those of the arguments, behind
the offset of the tuple if it is dynamic. -/
theorem toBytes_tuple (items : List Token) :
    ((tuple items).toBytes = slot slotSize ++ (tuple items).toArgsBytes ↔
        (tuple items).isDynamic = true) ∧
      ((tuple items).toBytes = (tuple items).toArgsBytes ↔ (tuple items).isDynamic = false) := by
  have arguments : (tuple items).toArgsBytes = (tuple items).encode := rfl
  -- The word makes the bytes longer, so only one of the two equations can hold.
  have longer : slot slotSize ++ (tuple items).encode ≠ (tuple items).encode := by
    intro same
    have length := congrArg List.length same
    rw [List.length_append, length_slot, slotSize] at length
    omega
  rw [arguments, toBytes_eq]
  cases dynamic : (tuple items).isDynamic with
  | true => simp [longer]
  | false => simp [longer.symm]

/-- The layout can be read back by one who knows the kind of the value.

The reader of a kind takes static members in place, and dynamic ones where
their offset in the head leads. It finds a value of the kind in the bytes of
the value, whatever bytes follow. These bytes are whole slots. A tuple has the
bytes of its members as arguments, with the word 32 in front just if it is
dynamic.

A value of a kind has no list of `2 ^ 64` items, as nothing in memory has. Only
a list whose items take no bytes could have as many in so few bytes
(`Fits.of_items`). -/
theorem layout_decodable (fits : t.Fits k) (short : t.toBytes.length < 2 ^ 64) :
    (∀ rest, k.readAlone (t.toBytes ++ rest) = some t) ∧
    slotSize ∣ t.toBytes.length ∧
    ∀ items, t = tuple items →
      (t.toBytes = slot 32 ++ t.toArgsBytes ↔ t.isDynamic = true) ∧
      (t.toBytes = t.toArgsBytes ↔ t.isDynamic = false) ∧
      ∀ rest, k.read (t.toArgsBytes ++ rest) = some t := by
  refine ⟨readAlone_toBytes fits short, fits.slotSize_dvd_length_toBytes, ?_⟩
  rintro items rfl
  obtain ⟨behind, bare⟩ := toBytes_tuple items
  have argumentsShort := Nat.lt_of_le_of_lt (length_encode_le_toBytes (tuple items)) short
  exact ⟨behind, bare, read_encode fits argumentsShort⟩

namespace Sample

/-- A list of numbers. -/
def numbers (ns : List Nat) : Token := array (ns.map ofNat)

/-- Lists in a list, texts in a list, and a tuple in place, which has a member
without bytes. -/
def nested : Token :=
  tuple [array [numbers [1, 2], numbers [3]], array [ofText "one", ofText "two", ofText "three"],
    tuple [ofNat 7, tuple [], ofBool true]]

/-- The kind of the value. -/
def nestedKind : Kind :=
  .tuple [.array (.array (.static 1)), .array .bytes, .tuple [.static 1, .tuple [], .static 1]]

/-- Numbers fit an array of slots. -/
theorem fits_numbers {ns : List Nat} (countable : ns.length < 2 ^ 64) :
    (numbers ns).Fits (.array (.static 1)) := by
  refine .array (by rwa [List.length_map]) ?_
  exact List.forall_mem_map.2 fun n _ => .static (length_slot n)

/-- The nested arrays fit their kind. -/
theorem fits_nested : nested.Fits nestedKind := by
  have lists : ∀ t ∈ [numbers [1, 2], numbers [3]], t.Fits (.array (.static 1)) :=
    List.forall_mem_cons.2 ⟨fits_numbers (by decide),
      List.forall_mem_singleton.2 (fits_numbers (by decide))⟩
  have texts : ∀ t ∈ ["one", "two", "three"].map ofText, t.Fits .bytes :=
    List.forall_mem_map.2 fun s _ => .bytes (Bytes.ofText s)
  have inPlace : (tuple [ofNat 7, tuple [], ofBool true]).Fits
      (.tuple [.static 1, .tuple [], .static 1]) :=
    .tuple (.cons (.static (length_slot 7)) (.cons (.tuple .nil)
      (.cons (.static (length_slot 1)) .nil)))
  exact .tuple (.cons (.array (by decide) lists) (.cons (.array (by decide) texts)
    (.cons inPlace .nil)))

/-- The value is read back, and its bytes as arguments stand behind the word
32. -/
theorem layout_decodable_nested :
    nested.Fits nestedKind ∧ nested.toBytes.length < 2 ^ 64 ∧
      (∀ rest, nestedKind.readAlone (nested.toBytes ++ rest) = some nested) ∧
      nested.toBytes = slot 32 ++ nested.toArgsBytes := by
  have short : nested.toBytes.length < 2 ^ 64 := by decide +kernel
  obtain ⟨read, -, isTuple⟩ := layout_decodable fits_nested short
  obtain ⟨behind, -, -⟩ := isTuple _ rfl
  exact ⟨fits_nested, short, read, behind.2 rfl⟩

end Sample

end Token

end StateChannels.Abi
