import StateChannels.Abi.Value
import StateChannels.Checked
import StateChannels.Proofs.Abi.Alone

/-!
# `StateChannels.Proofs.Abi.Values`: which values have bytes

A value has bytes if each of its parts has a form in the ABI. Most
shapes say so by themselves. The exception is a marked list: whether it
is a byte string depends on what is in it.

* `Value.exists_token?_iff`: the values that have a token are the
  representable ones. `OneSlot` and `ByteList` say which lists can be
  marked.
* `Value.tokens?_eq_error_iff`: in a list, the first member without a
  token decides the error.
* `Value.slotSize_dvd_length_toBytes?`: whatever a value is, its bytes
  are whole slots.
-/

set_option autoImplicit false

namespace StateChannels.Abi

/-! ### Marked lists -/

/-- Only a token of one slot stands for a byte. -/
theorem Token.exists_byte?_iff {t : Token} :
    (∃ b, t.byte? = .ok b) ↔ ∃ slots, t = .static slots ∧ slots.length = slotSize := by
  constructor
  · rintro ⟨b, isByte⟩
    unfold byte? at isByte
    split at isByte
    · rename_i slots
      split at isByte
      · exact ⟨slots, rfl, ‹_›⟩
      · cases isByte
    · cases isByte
  · rintro ⟨slots, rfl, one⟩
    have nonempty : slots ≠ [] := by
      rintro rfl
      cases one
    refine ⟨slots.getLast nonempty, ?_⟩
    rw [byte?, if_pos one, List.getLast?_eq_some_getLast nonempty]

/-- What a mark makes is a byte string. -/
theorem Token.unmark?_eq_ok {t u : Token} (h : t.unmark? = .ok u) : ∃ bs, u = .bytes bs := by
  unfold unmark? at h
  split at h
  · obtain ⟨bs, -, rfl⟩ := map_eq_ok_iff.1 h
    exact ⟨bs, rfl⟩
  · obtain ⟨bs, -, rfl⟩ := map_eq_ok_iff.1 h
    exact ⟨bs, rfl⟩
  · cases h

namespace Value

mutual

/-- What holds for a value if it holds for its parts, holds for all
values. -/
@[elab_as_elim]
theorem induction {motive : Value → Prop} (unsigned : ∀ n, motive (.unsigned n))
    (signed : ∀ z, motive (.signed z)) (bool : ∀ b, motive (.bool b))
    (text : ∀ s, motive (.text s)) (fixed : ∀ bs, motive (.fixed bs))
    (array : ∀ items, (∀ v ∈ items, motive v) → motive (.array items))
    (tuple : ∀ items, (∀ v ∈ items, motive v) → motive (.tuple items))
    (wrapper : ∀ v, motive v → motive (.wrapper v)) (marked : ∀ v, motive v → motive (.marked v))
    (character : motive .character) (unrepresentable : ∀ shape, motive (.unrepresentable shape))
    (refusing : ∀ reason, motive (.refusing reason)) : ∀ v, motive v
  | .unsigned n => unsigned n
  | .signed z => signed z
  | .bool b => bool b
  | .text s => text s
  | .fixed bs => fixed bs
  | .array items => array items (inductionAll unsigned signed bool text fixed array tuple wrapper
      marked character unrepresentable refusing items)
  | .tuple items => tuple items (inductionAll unsigned signed bool text fixed array tuple wrapper
      marked character unrepresentable refusing items)
  | .wrapper v => wrapper v (induction unsigned signed bool text fixed array tuple wrapper
      marked character unrepresentable refusing v)
  | .marked v => marked v (induction unsigned signed bool text fixed array tuple wrapper
      marked character unrepresentable refusing v)
  | .character => character
  | .unrepresentable shape => unrepresentable shape
  | .refusing reason => refusing reason

/-- What holds for a value if it holds for its parts, holds for all members
of a list. -/
theorem inductionAll {motive : Value → Prop} (unsigned : ∀ n, motive (.unsigned n))
    (signed : ∀ z, motive (.signed z)) (bool : ∀ b, motive (.bool b))
    (text : ∀ s, motive (.text s)) (fixed : ∀ bs, motive (.fixed bs))
    (array : ∀ items, (∀ v ∈ items, motive v) → motive (.array items))
    (tuple : ∀ items, (∀ v ∈ items, motive v) → motive (.tuple items))
    (wrapper : ∀ v, motive v → motive (.wrapper v)) (marked : ∀ v, motive v → motive (.marked v))
    (character : motive .character) (unrepresentable : ∀ shape, motive (.unrepresentable shape))
    (refusing : ∀ reason, motive (.refusing reason)) :
    ∀ items : List Value, ∀ v ∈ items, motive v
  | [] => fun _ none => nomatch none
  | v :: vs => List.forall_mem_cons.2
      ⟨induction unsigned signed bool text fixed array tuple wrapper marked character
        unrepresentable refusing v,
      inductionAll unsigned signed bool text fixed array tuple wrapper marked character
        unrepresentable refusing vs⟩

end

variable {v : Value} {vs : List Value} {t : Token} {ts : List Token} {e : EncodeError}

/-- A value of one slot. Bytes of a fixed number are padded to whole
slots, so there are one to 32 of them. -/
inductive OneSlot : Value → Prop where
  | unsigned (n : Nat) : OneSlot (unsigned n)
  | signed (z : Int) : OneSlot (signed z)
  | bool (b : Bool) : OneSlot (bool b)
  | fixed {bs : Bytes} (nonempty : 0 < bs.length) (short : bs.length ≤ slotSize) :
    OneSlot (fixed bs)
  | wrapper {v : Value} (content : OneSlot v) : OneSlot (wrapper v)

/-- A list that a mark makes a byte string: each member is one slot. -/
inductive ByteList : Value → Prop where
  | array {items : List Value} (each : ∀ v ∈ items, OneSlot v) : ByteList (array items)
  | tuple {items : List Value} (each : ∀ v ∈ items, OneSlot v) : ByteList (tuple items)
  | wrapper {v : Value} (content : ByteList v) : ByteList (wrapper v)

/-- A value all of whose parts have a form in the ABI. -/
inductive Representable : Value → Prop where
  | unsigned (n : Nat) : Representable (unsigned n)
  | signed (z : Int) : Representable (signed z)
  | bool (b : Bool) : Representable (bool b)
  | text (s : String) : Representable (text s)
  | fixed (bs : Bytes) : Representable (fixed bs)
  | array {items : List Value} (each : ∀ v ∈ items, Representable v) : Representable (array items)
  | tuple {items : List Value} (each : ∀ v ∈ items, Representable v) : Representable (tuple items)
  | wrapper {v : Value} (content : Representable v) : Representable (wrapper v)
  | marked {v : Value} (content : ByteList v) : Representable (marked v)

/-! ### Members in order -/

/-- The tokens of a list are made one after the other. -/
theorem tokens?_eq_mapM (vs : List Value) : tokens? vs = vs.mapM token? := by
  induction vs with
  | nil => rfl
  | cons v vs ih => rw [tokens?, List.mapM_cons, ih]

/-- In a list, the first member without a token decides the error. -/
theorem tokens?_eq_error_iff : tokens? vs = .error e ↔
    ∃ before v after, vs = before ++ v :: after ∧ (∀ u ∈ before, ∃ t, u.token? = .ok t) ∧
      v.token? = .error e := by
  induction vs with
  | nil => simp [tokens?]
  | cons v vs ih =>
    rw [tokens?, bind_eq_error_iff]
    constructor
    · rintro (failed | ⟨t, made, failed⟩)
      · exact ⟨[], v, vs, rfl, List.forall_mem_nil _, failed⟩
      · obtain ⟨before, u, after, rfl, each, failed⟩ := ih.1
          ((bind_eq_error_iff.1 failed).resolve_right (by rintro ⟨_, -, ⟨⟩⟩))
        exact ⟨v :: before, u, after, rfl, List.forall_mem_cons.2 ⟨⟨t, made⟩, each⟩, failed⟩
    · rintro ⟨_ | ⟨u, before⟩, w, after, split, each, failed⟩
      · cases split
        exact .inl failed
      · cases split
        obtain ⟨⟨t, made⟩, others⟩ := List.forall_mem_cons.1 each
        exact .inr ⟨t, made, bind_eq_error_iff.2
          (.inl (ih.2 ⟨before, w, after, rfl, others, failed⟩))⟩

/-- A list has tokens exactly if each member has one. -/
theorem exists_tokens?_iff :
    (∃ ts, tokens? vs = .ok ts) ↔ ∀ v ∈ vs, ∃ t, v.token? = .ok t := by
  rw [tokens?_eq_mapM]
  exact exists_mapM_eq_ok_iff

/-! ### The values that have a token -/

/-- The values that make a byte of a byte string are those of one slot. -/
theorem exists_byte?_iff :
    (∃ t b, v.token? = .ok t ∧ t.byte? = .ok b) ↔ v.OneSlot := by
  -- What counts is that the token is one slot in place.
  have one : (∃ t b, v.token? = .ok t ∧ t.byte? = .ok b) ↔
      ∃ slots, v.token? = .ok (.static slots) ∧ slots.length = slotSize := by
    constructor
    · rintro ⟨t, b, made, isByte⟩
      obtain ⟨slots, rfl, length⟩ := Token.exists_byte?_iff.1 ⟨b, isByte⟩
      exact ⟨slots, made, length⟩
    · rintro ⟨slots, made, length⟩
      obtain ⟨b, isByte⟩ := Token.exists_byte?_iff.2 ⟨slots, rfl, length⟩
      exact ⟨_, b, made, isByte⟩
  rw [one]
  clear one
  constructor
  · rintro ⟨slots, made, length⟩
    induction v using Value.induction with
    | unsigned n => exact .unsigned n
    | signed z => exact .signed z
    | bool b => exact .bool b
    | text s => cases made
    | fixed bs =>
      cases made
      unfold Bytes.padRight at length
      split at length
      · exact .fixed (by rw [length]; decide) (Nat.le_of_eq length)
      · rw [List.length_append, Bytes.length_zeros] at length
        unfold slotSize at *
        exact .fixed (by omega) (by unfold slotSize; omega)
    | array items | tuple items =>
      obtain ⟨_, -, ⟨⟩⟩ := map_eq_ok_iff.1 made
    | wrapper v ih => exact .wrapper (ih made)
    | marked v =>
      obtain ⟨_, -, marks⟩ := bind_eq_ok_iff.1 made
      obtain ⟨_, ⟨⟩⟩ := Token.unmark?_eq_ok marks
    | character | unrepresentable | refusing => cases made
  · intro one
    induction one with
    | unsigned n => exact ⟨_, rfl, length_slot n⟩
    | signed z => exact ⟨_, rfl, length_slot _⟩
    | bool b => exact ⟨_, rfl, length_slot _⟩
    | @fixed bs nonempty short =>
      refine ⟨_, rfl, ?_⟩
      unfold Bytes.padRight
      unfold slotSize at *
      split
      · omega
      · rw [List.length_append, Bytes.length_zeros]
        omega
    | wrapper _ ih => exact ih

/-- The members of a list stand for bytes exactly if each is one slot. -/
theorem exists_bytes_iff :
    (∃ ts bs, tokens? vs = .ok ts ∧ ts.mapM Token.byte? = .ok bs) ↔ ∀ v ∈ vs, OneSlot v := by
  induction vs with
  | nil => simpa [tokens?] using ⟨[], rfl⟩
  | cons v vs ih =>
    rw [List.forall_mem_cons, ← ih, ← exists_byte?_iff]
    simp only [tokens?, bind_eq_ok_iff]
    constructor
    · rintro ⟨_, bs, ⟨t, made, ts, areMade, ⟨⟩⟩, areBytes⟩
      rw [List.mapM_cons, bind_eq_ok_iff] at areBytes
      obtain ⟨b, isByte, others⟩ := areBytes
      obtain ⟨bs, areBytes, -⟩ := bind_eq_ok_iff.1 others
      exact ⟨⟨t, b, made, isByte⟩, ts, bs, areMade, areBytes⟩
    · rintro ⟨⟨t, b, made, isByte⟩, ts, bs, areMade, areBytes⟩
      refine ⟨t :: ts, b :: bs, ⟨t, made, ts, areMade, rfl⟩, ?_⟩
      rw [List.mapM_cons, isByte, areBytes]
      rfl

/-- A mark can be put on lists of slots, and on nothing else. -/
theorem exists_unmark?_iff :
    (∃ t u, v.token? = .ok t ∧ t.unmark? = .ok u) ↔ v.ByteList := by
  constructor
  · rintro ⟨t, u, made, marks⟩
    induction v using Value.induction with
    | unsigned | signed | bool | text | fixed =>
      cases made
      cases marks
    | array items =>
      obtain ⟨ts, areMade, rfl⟩ := map_eq_ok_iff.1 made
      obtain ⟨bs, areBytes, -⟩ := map_eq_ok_iff.1 marks
      exact .array (exists_bytes_iff.1 ⟨ts, bs, areMade, areBytes⟩)
    | tuple items =>
      obtain ⟨ts, areMade, rfl⟩ := map_eq_ok_iff.1 made
      obtain ⟨bs, areBytes, -⟩ := map_eq_ok_iff.1 marks
      exact .tuple (exists_bytes_iff.1 ⟨ts, bs, areMade, areBytes⟩)
    | wrapper v ih => exact .wrapper (ih made)
    -- A byte string is no list any more, so it cannot be marked again.
    | marked v =>
      obtain ⟨_, -, inner⟩ := bind_eq_ok_iff.1 made
      obtain ⟨bs, rfl⟩ := Token.unmark?_eq_ok inner
      cases marks
    | character | unrepresentable | refusing => cases made
  · intro list
    induction list with
    | array each =>
      obtain ⟨ts, bs, areMade, areBytes⟩ := exists_bytes_iff.2 each
      exact ⟨.array ts, .bytes bs, map_eq_ok_iff.2 ⟨ts, areMade, rfl⟩,
        map_eq_ok_iff.2 ⟨bs, areBytes, rfl⟩⟩
    | tuple each =>
      obtain ⟨ts, bs, areMade, areBytes⟩ := exists_bytes_iff.2 each
      exact ⟨.tuple ts, .bytes bs, map_eq_ok_iff.2 ⟨ts, areMade, rfl⟩,
        map_eq_ok_iff.2 ⟨bs, areBytes, rfl⟩⟩
    | wrapper _ ih => exact ih

/-- The values that have a token are those all of whose parts have a
form in the ABI. -/
theorem exists_token?_iff : (∃ t, v.token? = .ok t) ↔ v.Representable := by
  constructor
  -- The tokens of the parts are made first, so each part has one.
  · rintro ⟨t, made⟩
    induction v using Value.induction generalizing t with
    | unsigned n => exact .unsigned n
    | signed z => exact .signed z
    | bool b => exact .bool b
    | text s => exact .text s
    | fixed bs => exact .fixed bs
    | array items ih =>
      obtain ⟨ts, areMade, -⟩ := map_eq_ok_iff.1 made
      refine .array fun v member => ?_
      obtain ⟨t, made⟩ := exists_tokens?_iff.1 ⟨ts, areMade⟩ v member
      exact ih v member t made
    | tuple items ih =>
      obtain ⟨ts, areMade, -⟩ := map_eq_ok_iff.1 made
      refine .tuple fun v member => ?_
      obtain ⟨t, made⟩ := exists_tokens?_iff.1 ⟨ts, areMade⟩ v member
      exact ih v member t made
    | wrapper v ih => exact .wrapper (ih t made)
    | marked v =>
      obtain ⟨u, inner, marks⟩ := bind_eq_ok_iff.1 made
      exact .marked (exists_unmark?_iff.1 ⟨u, t, inner, marks⟩)
    | character | unrepresentable | refusing => cases made
  · intro representable
    -- The form says which parts have tokens, and they are put together.
    induction representable with
    | unsigned | signed | bool | text | fixed => exact ⟨_, rfl⟩
    | array _ ih =>
      obtain ⟨ts, areMade⟩ := exists_tokens?_iff.2 ih
      exact ⟨.array ts, map_eq_ok_iff.2 ⟨ts, areMade, rfl⟩⟩
    | tuple _ ih =>
      obtain ⟨ts, areMade⟩ := exists_tokens?_iff.2 ih
      exact ⟨.tuple ts, map_eq_ok_iff.2 ⟨ts, areMade, rfl⟩⟩
    | wrapper _ ih => exact ih
    | marked list =>
      obtain ⟨t, u, made, marks⟩ := exists_unmark?_iff.2 list
      exact ⟨u, bind_eq_ok_iff.2 ⟨t, made, marks⟩⟩

/-! ### Whole slots -/

/-- The token of a value takes whole slots. -/
theorem slotSize_dvd_length_encode (made : v.token? = .ok t) : slotSize ∣ t.encode.length := by
  -- A list or a tuple has the tokens of its members.
  have members : ∀ {items : List Value} {ts : List Token},
      (∀ v ∈ items, ∀ t, v.token? = .ok t → slotSize ∣ t.encode.length) →
      tokens? items = .ok ts → slotSize ∣ (Token.sequence ts).length := by
    intro items ts each areMade
    refine Token.slotSize_dvd_length_sequence fun t member => ?_
    rw [tokens?_eq_mapM] at areMade
    obtain ⟨v, isMember, made⟩ := exists_of_mapM_eq_ok areMade t member
    exact each v isMember t made
  have bytes : ∀ bs, slotSize ∣ (Token.bytes bs).encode.length := by
    intro bs
    rw [Token.encode, List.length_append]
    exact Nat.dvd_add (slotSize_dvd_length_slot _) (slotSize_dvd_length_padRight bs)
  induction v using Value.induction generalizing t with
  | unsigned | signed | bool =>
    cases made
    exact slotSize_dvd_length_slot _
  | text s =>
    cases made
    exact bytes _
  | fixed bs =>
    cases made
    exact slotSize_dvd_length_padRight bs
  | array items ih =>
    obtain ⟨ts, areMade, rfl⟩ := map_eq_ok_iff.1 made
    have whole := members (fun v member t => ih v member) areMade
    rw [Token.sequence_eq] at whole
    rw [Token.encode_array, List.length_append]
    exact Nat.dvd_add (slotSize_dvd_length_slot _) whole
  | tuple items ih =>
    obtain ⟨ts, areMade, rfl⟩ := map_eq_ok_iff.1 made
    exact members (fun v member t => ih v member) areMade
  | wrapper v ih => exact ih made
  | marked v =>
    obtain ⟨_, -, marks⟩ := bind_eq_ok_iff.1 made
    obtain ⟨bs, rfl⟩ := Token.unmark?_eq_ok marks
    exact bytes bs
  | character | unrepresentable | refusing => cases made

/-- A value has bytes exactly if it is representable, and they are whole
slots. -/
theorem exists_toBytes?_iff : (∃ bs, v.toBytes? = .ok bs) ↔ v.Representable := by
  rw [← exists_token?_iff]
  simp only [toBytes?, map_eq_ok_iff]
  exact ⟨fun ⟨_, t, made, _⟩ => ⟨t, made⟩, fun ⟨t, made⟩ => ⟨_, t, made, rfl⟩⟩

/-- What is encoded is a whole number of slots. -/
theorem slotSize_dvd_length_toBytes? {bs : Bytes} (h : v.toBytes? = .ok bs) :
    slotSize ∣ bs.length := by
  obtain ⟨t, made, rfl⟩ := map_eq_ok_iff.1 h
  refine Token.slotSize_dvd_length_sequence fun u member => ?_
  rw [List.mem_singleton.1 member]
  exact slotSize_dvd_length_encode made

end Value

end StateChannels.Abi
