/-!
# `StateChannels.Distinct`: the first repeated member of a list

Participants, asset holders and destinations have to be distinct, and
an error names the first member that stood in the list before. Main
statement: there is no such member exactly if the list has no
duplicates (`firstRepeat?_eq_none_iff`).
-/

set_option autoImplicit false

namespace StateChannels

variable {α : Type} [DecidableEq α]

/-- The first member of a list that is in `seen` or stood in the
list before. -/
def firstRepeatFrom? (seen : List α) : List α → Option α
  | [] => none
  | a :: as => if a ∈ seen then some a else firstRepeatFrom? (a :: seen) as

/-- The first member of a list that stood in the list before. -/
def firstRepeat? (as : List α) : Option α := firstRepeatFrom? [] as

/-- Nothing repeats when the list is distinct and has nothing that was seen. -/
theorem firstRepeatFrom?_eq_none_iff {seen as : List α} :
    firstRepeatFrom? seen as = none ↔ as.Nodup ∧ ∀ a ∈ as, a ∉ seen := by
  induction as generalizing seen with
  | nil => simp [firstRepeatFrom?]
  | cons a as ih =>
    unfold firstRepeatFrom?
    split
    · rename_i repeated
      refine iff_of_false nofun ?_
      rintro ⟨-, fresh⟩
      exact fresh a List.mem_cons_self repeated
    · rename_i new
      -- The first value counts as seen for the others, which is to say that it is none of them.
      rw [ih, List.nodup_cons]
      constructor
      · rintro ⟨distinct, fresh⟩
        have missing : a ∉ as := fun member => fresh a member List.mem_cons_self
        refine ⟨⟨missing, distinct⟩, fun b member => ?_⟩
        rcases List.mem_cons.1 member with rfl | member
        · exact new
        · exact fun before => fresh b member (List.mem_cons_of_mem _ before)
      · rintro ⟨⟨missing, distinct⟩, fresh⟩
        refine ⟨distinct, fun b member before => ?_⟩
        rcases List.mem_cons.1 before with rfl | before
        · exact missing member
        · exact fresh b (List.mem_cons_of_mem _ member) before

/-- No member is repeated exactly if the members are distinct. -/
theorem firstRepeat?_eq_none_iff {as : List α} : firstRepeat? as = none ↔ as.Nodup := by
  simp [firstRepeat?, firstRepeatFrom?_eq_none_iff]

/-- The first repetition is the last value, if that is the only one. -/
theorem firstRepeatFrom?_concat {seen as : List α} {a : α}
    (distinct : firstRepeatFrom? seen as = none) (again : a ∈ seen ∨ a ∈ as) :
    firstRepeatFrom? seen (as ++ [a]) = some a := by
  induction as generalizing seen with
  | nil =>
    have before : a ∈ seen := by simpa using again
    exact if_pos before
  | cons b as ih =>
    rw [firstRepeatFrom?] at distinct
    rw [List.cons_append, firstRepeatFrom?]
    split at distinct
    · cases distinct
    · rename_i new
      rw [if_neg new]
      apply ih distinct
      rw [List.mem_cons, or_assoc]
      rw [List.mem_cons] at again
      exact or_left_comm.1 again

/-- One more member of a list of distinct ones is the first repeated. -/
theorem firstRepeat?_concat {as : List α} {a : α} (distinct : as.Nodup) (again : a ∈ as) :
    firstRepeat? (as ++ [a]) = some a :=
  firstRepeatFrom?_concat (firstRepeat?_eq_none_iff.2 distinct) (.inr again)

end StateChannels
