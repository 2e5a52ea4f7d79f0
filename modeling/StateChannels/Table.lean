/-!
# `StateChannels.Table`: finite tables

A table holds at most one value for each key. Rows stay in the order
in which their keys came in, and a new value for a known key takes
the place of the old one.

Main statements: looking up after an insertion (`get?_insert`), and
the keys of a table are distinct (`Table.nodup`, a field).
-/

set_option autoImplicit false

namespace StateChannels

/-- The rows of a table, for which the keys have to be distinct. -/
structure Table (κ ν : Type) where
  rows : List (κ × ν)
  nodup : (rows.map Prod.fst).Nodup

namespace Table

variable {κ ν : Type} [DecidableEq κ]

omit [DecidableEq κ] in
/-- Tables with the same rows are equal. -/
@[ext] theorem ext {s t : Table κ ν} (h : s.rows = t.rows) : s = t := by
  cases s
  cases t
  simp_all

/-- The table without rows. -/
def empty : Table κ ν := ⟨[], List.nodup_nil⟩

/-- The table without rows. -/
instance : EmptyCollection (Table κ ν) := ⟨empty⟩

/-- A table that is always there. -/
instance : Inhabited (Table κ ν) := ⟨empty⟩

/-- The value for a key. -/
def get? (t : Table κ ν) (k : κ) : Option ν :=
  (t.rows.find? fun row => row.1 = k).map Prod.snd

/-- Whether there is a value for the key. -/
def contains (t : Table κ ν) (k : κ) : Bool := (t.get? k).isSome

omit [DecidableEq κ] in
/-- The keys, in the order in which they came in. -/
def keys (t : Table κ ν) : List κ := t.rows.map Prod.fst

/-- The rows with the value of `k` replaced, or with a new row at
the end. -/
def setRow (k : κ) (v : ν) : List (κ × ν) → List (κ × ν)
  | [] => [(k, v)]
  | row :: rows => if row.1 = k then (k, v) :: rows else row :: setRow k v rows

/-- The keys after setting a row: those from before, and the new one. -/
theorem mem_keys_setRow {k a : κ} {v : ν} {rows : List (κ × ν)} :
    a ∈ (setRow k v rows).map Prod.fst ↔ a = k ∨ a ∈ rows.map Prod.fst := by
  induction rows with
  | nil => simp [setRow]
  | cons row rows ih =>
    unfold setRow
    split
    · simp_all
    · rw [List.map_cons, List.mem_cons, ih, List.map_cons, List.mem_cons]
      exact or_left_comm

/-- They stay distinct. -/
theorem nodup_setRow (k : κ) (v : ν) {rows : List (κ × ν)}
    (h : (rows.map Prod.fst).Nodup) : ((setRow k v rows).map Prod.fst).Nodup := by
  induction rows with
  | nil => simp [setRow]
  | cons row rows ih =>
    rw [List.map_cons, List.nodup_cons] at h
    unfold setRow
    split
    · simp_all
    · rename_i ne
      rw [List.map_cons, List.nodup_cons, mem_keys_setRow]
      exact ⟨by simp [ne, h.1], ih h.2⟩

/-- The table with the value `v` for the key `k`. -/
def insert (t : Table κ ν) (k : κ) (v : ν) : Table κ ν :=
  ⟨setRow k v t.rows, nodup_setRow k v t.nodup⟩

/-! ### Looking up -/

/-- Nothing is found in the empty table. -/
@[simp] theorem get?_empty (k : κ) : (∅ : Table κ ν).get? k = none := rfl

/-- What is found after setting a row: the new value at its key, and the old
ones elsewhere. -/
theorem find?_setRow (k a : κ) (v : ν) (rows : List (κ × ν)) :
    ((setRow k v rows).find? fun row => row.1 = a).map Prod.snd =
      if a = k then some v else (rows.find? fun row => row.1 = a).map Prod.snd := by
  induction rows with
  | nil => by_cases h : k = a <;> simp [setRow, h, eq_comm]
  | cons row rows ih =>
    unfold setRow
    by_cases hk : row.1 = k <;> by_cases ha : a = k <;> by_cases hr : row.1 = a <;>
      simp_all

/-- The inserted value is found under its key, and every other key
finds what it found before. -/
theorem get?_insert (t : Table κ ν) (k a : κ) (v : ν) :
    (t.insert k v).get? a = if a = k then some v else t.get? a :=
  find?_setRow k a v t.rows

/-- A value is found at the key that it was inserted at. -/
@[simp] theorem get?_insert_self (t : Table κ ν) (k : κ) (v : ν) :
    (t.insert k v).get? k = some v := by
  simp [get?_insert]

/-- At other keys nothing changes. -/
theorem get?_insert_of_ne (t : Table κ ν) {k a : κ} (v : ν) (h : a ≠ k) :
    (t.insert k v).get? a = t.get? a := by
  simp [get?_insert, h]

/-- Setting a row to the value that it has changes nothing. -/
theorem setRow_of_find? {k : κ} {v : ν} {rows : List (κ × ν)}
    (h : (rows.find? fun row => row.1 = k).map Prod.snd = some v) : setRow k v rows = rows := by
  induction rows with
  | nil => cases h
  | cons row rows ih =>
    obtain ⟨a, b⟩ := row
    unfold setRow
    by_cases here : a = k
    · have same : b = v := by simpa [here] using h
      rw [if_pos here, here, same]
    · rw [if_neg here, ih (by simpa [here] using h)]

/-- To insert what is there already changes nothing. -/
theorem insert_of_get?_eq_some {t : Table κ ν} {k : κ} {v : ν} (h : t.get? k = some v) :
    t.insert k v = t :=
  Table.ext (setRow_of_find? h)

end Table

end StateChannels
