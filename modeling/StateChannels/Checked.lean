import StateChannels.Bytes

/-!
# `StateChannels.Checked`: counters that may not wrap

Turn numbers, votes, times and indices are machine words. A counter at
its largest value has no successor. Some operations of the protocol
test for this and refuse, and some rely on it not to happen: there
a sum or a product without a result stops the computation. `Overflow`
is that stop. It is not a refusal by a rule of the protocol, so it is
kept apart from the errors: a `Failure ε` is either of the two.
-/

set_option autoImplicit false

namespace StateChannels

/-- The operation whose result did not fit. -/
inductive Overflow where
  | addition
  | multiplication
deriving DecidableEq, Repr

/-- The text of the stop. -/
def Overflow.message : Overflow → String
  | addition => "attempt to add with overflow"
  | multiplication => "attempt to multiply with overflow"

/-- Why a computation has no value: a rule refused with an error, or
a counter overflowed. -/
inductive Failure (ε : Type) where
  | overflow (cause : Overflow)
  | refused (error : ε)
deriving DecidableEq, Repr

namespace Failure

variable {ε ε' α : Type}

/-- The same stop, or the error inside a wider kind of error. -/
def map (f : ε → ε') : Failure ε → Failure ε'
  | .overflow o => .overflow o
  | .refused e => .refused (f e)

/-- A computation that only the rules can refuse. -/
def ofRule (f : ε → ε') (x : Except ε α) : Except (Failure ε') α :=
  x.mapError fun e => .refused (f e)

/-- A computation that only an overflow can stop. -/
def ofCounter (x : Except Overflow α) : Except (Failure ε) α :=
  x.mapError .overflow

/-- An overflow stays what it is. -/
@[simp] theorem map_overflow (f : ε → ε') (o : Overflow) :
    map f (overflow o) = overflow o := rfl

/-- A refusal is mapped. -/
@[simp] theorem map_refused (f : ε → ε') (e : ε) : map f (refused e) = refused (f e) := rfl

/-- A rule that passes does not fail. -/
@[simp] theorem ofRule_ok (f : ε → ε') (a : α) :
    ofRule f (.ok a : Except ε α) = .ok a := rfl

/-- A rule that is broken is a refusal. -/
@[simp] theorem ofRule_error (f : ε → ε') (e : ε) :
    ofRule f (.error e : Except ε α) = .error (.refused (f e)) := rfl

/-- A count that fits does not fail. -/
@[simp] theorem ofCounter_ok (a : α) :
    (ofCounter (.ok a : Except Overflow α) : Except (Failure ε) α) = .ok a := rfl

/-- A count that does not fit is an overflow. -/
@[simp] theorem ofCounter_error (o : Overflow) :
    (ofCounter (.error o : Except Overflow α) : Except (Failure ε) α) =
      .error (.overflow o) := rfl

/-- A list of rules refuses within a wider kind of error what it
refuses. -/
theorem forM_ofRule (f : ε → ε') (rule : α → Except ε Unit) (xs : List α) :
    xs.forM (fun a => ofRule f (rule a)) = ofRule f (xs.forM rule) := by
  induction xs with
  | nil => rfl
  | cons a xs ih =>
    simp only [List.forM_eq_forM, List.forM_cons] at ih ⊢
    rw [ih]
    cases rule a <;> rfl

end Failure

/-! ### When a computation succeeds -/

section Success

variable {ε ε' α β : Type}

/-- A sequence succeeds exactly if each part does. -/
theorem bind_eq_ok_iff {x : Except ε α} {f : α → Except ε β} {b : β} :
    x >>= f = .ok b ↔ ∃ a, x = .ok a ∧ f a = .ok b := by
  cases x <;> simp [bind, Except.bind]

/-- A check and what comes after it. -/
theorem check_bind_eq_ok_iff {check : Except ε Unit} {f : Unit → Except ε β} {b : β} :
    check >>= f = .ok b ↔ check = .ok () ∧ f () = .ok b := by
  cases check <;> simp [bind, Except.bind]

/-- A mapped result comes from a result. -/
theorem map_eq_ok_iff {f : α → β} {x : Except ε α} {b : β} :
    f <$> x = .ok b ↔ ∃ a, x = .ok a ∧ f a = b := by
  cases x <;> simp [Functor.map, Except.map]

/-- Mapping the errors leaves the results. -/
theorem mapError_eq_ok_iff {f : ε → ε'} {x : Except ε α} {a : α} :
    x.mapError f = .ok a ↔ x = .ok a := by
  cases x with
  | ok value =>
    show (Except.ok value : Except ε' α) = .ok a ↔ _
    simp
  | error e =>
    show (Except.error (f e) : Except ε' α) = .ok a ↔ _
    simp

/-- A check that refuses in one case leaves the other one. -/
theorem error_if_eq_ok_iff {c : Prop} [Decidable c] {e : ε} {f : α → Except ε β}
    {x : Except ε β} {b : β} :
    (if c then .error e >>= f else x) = .ok b ↔ ¬c ∧ x = .ok b := by
  by_cases h : c <;> simp [h, bind, Except.bind]

/-- A check that refuses in one case, with nothing after it. -/
theorem error_if_eq_ok_unit_iff {c : Prop} [Decidable c] {e : ε} :
    (if c then .error e else pure () : Except ε Unit) = .ok () ↔ ¬c := by
  by_cases h : c <;> simp [h, pure, Except.pure]

/-- The option has a value just if there is a result. -/
theorem toOption_eq_some_iff {x : Except ε α} {a : α} : x.toOption = some a ↔ x = .ok a := by
  cases x <;> simp [Except.toOption]

/-- Telling a refusal from an overflow leaves the results of a rule. -/
theorem Failure.ofRule_eq_ok_iff {f : ε → ε'} {x : Except ε α} {a : α} :
    Failure.ofRule f x = .ok a ↔ x = .ok a := mapError_eq_ok_iff

/-- Telling an overflow from a refusal leaves the results of a count. -/
theorem Failure.ofCounter_eq_ok_iff {x : Except Overflow α} {a : α} :
    (Failure.ofCounter x : Except (Failure ε) α) = .ok a ↔ x = .ok a := mapError_eq_ok_iff

end Success

/-! ### When a computation stops -/

section Stop

variable {ε ε' α β : Type} {o : Overflow}

/-- A sequence fails where its first part does, or its second one after
the first. -/
theorem bind_eq_error_iff {x : Except ε α} {f : α → Except ε β} {e : ε} :
    x >>= f = .error e ↔ x = .error e ∨ ∃ a, x = .ok a ∧ f a = .error e := by
  cases x <;> simp [bind, Except.bind]

/-- Mapping the results leaves the errors. -/
theorem map_eq_error_iff {f : α → β} {x : Except ε α} {e : ε} :
    f <$> x = .error e ↔ x = .error e := by
  cases x <;> simp [Functor.map, Except.map]

/-- A mapped error comes from an error. -/
theorem mapError_eq_error_iff {f : ε → ε'} {x : Except ε α} {e' : ε'} :
    x.mapError f = .error e' ↔ ∃ e, x = .error e ∧ f e = e' := by
  cases x with
  | ok value =>
    show (Except.ok value : Except ε' α) = .error e' ↔ _
    simp
  | error e =>
    show (Except.error (f e) : Except ε' α) = .error e' ↔ _
    simp

namespace Failure

/-- Rules stop nothing. -/
theorem ofRule_ne_overflow (f : ε → ε') (x : Except ε α) :
    ofRule f x ≠ .error (.overflow o) := by
  cases x with
  | ok a => simp
  | error e => simp

/-- A count overflows with the overflow it names. -/
theorem ofCounter_eq_overflow_iff {x : Except Overflow α} :
    (ofCounter x : Except (Failure ε) α) = .error (.overflow o) ↔ x = .error o := by
  cases x <;> simp

/-- In a wider kind of error a stop is the same stop. -/
theorem mapError_map_eq_overflow_iff {f : ε → ε'} {x : Except (Failure ε) α} :
    x.mapError (map f) = .error (.overflow o) ↔ x = .error (.overflow o) := by
  cases x with
  | ok a =>
    show (Except.ok a : Except (Failure ε') α) = _ ↔ _
    simp
  | error failure =>
    show (Except.error (map f failure) : Except (Failure ε') α) = _ ↔ _
    cases failure <;> simp

/-- A check that refuses in one case stops where what comes after it
does. -/
theorem refused_if_eq_overflow_iff {c : Prop} [Decidable c] {e : ε}
    {f : α → Except (Failure ε) β} {x : Except (Failure ε) β} :
    (if c then .error (.refused e) >>= f else x) = .error (.overflow o) ↔
      ¬c ∧ x = .error (.overflow o) := by
  by_cases h : c <;> simp [h, bind, Except.bind]

end Failure

end Stop

/-- A check of the members of a list succeeds exactly if it does for
each. -/
theorem forM_eq_ok_iff {ε α : Type} {f : α → Except ε Unit} {xs : List α} :
    xs.forM f = .ok () ↔ ∀ a ∈ xs, f a = .ok () := by
  induction xs with
  | nil => simp [pure, Except.pure]
  | cons a xs ih =>
    simp only [List.forM_eq_forM, List.forM_cons, check_bind_eq_ok_iff,
      List.forall_mem_cons] at ih ⊢
    rw [ih]

/-- If it fails, then with the fault of a member. -/
theorem exists_of_forM_eq_error {ε α : Type} {f : α → Except ε Unit} {xs : List α} {e : ε}
    (h : xs.forM f = .error e) : ∃ a ∈ xs, f a = .error e := by
  induction xs with
  | nil => cases h
  | cons a xs ih =>
    simp only [List.forM_eq_forM, List.forM_cons, bind_eq_error_iff] at ih h
    rcases h with failed | ⟨⟨⟩, -, failed⟩
    · exact ⟨a, List.mem_cons_self, failed⟩
    · obtain ⟨a', member, failed⟩ := ih failed
      exact ⟨a', List.mem_cons_of_mem _ member, failed⟩

/-- What succeeds for each member of a list succeeds for the list, with
the list of the results. -/
theorem mapM_eq_pure_map {m : Type → Type} [Monad m] [LawfulMonad m] {α β : Type} {f : α → m β}
    {g : α → β} {xs : List α} (h : ∀ a ∈ xs, f a = pure (g a)) :
    xs.mapM f = pure (xs.map g) := by
  induction xs with
  | nil => rfl
  | cons a xs ih =>
    rw [List.forall_mem_cons] at h
    rw [List.mapM_cons, h.1, ih h.2, pure_bind, pure_bind, List.map_cons]

/-- A list that was written member by member is read member by member. -/
theorem mapM_map_eq_pure {m : Type → Type} [Monad m] [LawfulMonad m] {α β : Type}
    {read : β → m α} {write : α → β} {xs : List α} (h : ∀ a ∈ xs, read (write a) = pure a) :
    (xs.map write).mapM read = pure xs := by
  have members : xs.mapM (read ∘ write) = pure (xs.map id) := mapM_eq_pure_map h
  rw [List.mapM_map, members, List.map_id]

/-- What a list gives, its members give. -/
theorem exists_of_mapM_eq_ok {ε α β : Type} {f : α → Except ε β} {xs : List α} {ys : List β}
    (h : xs.mapM f = .ok ys) : ∀ b ∈ ys, ∃ a ∈ xs, f a = .ok b := by
  induction xs generalizing ys with
  | nil =>
    cases h
    intro b member
    cases member
  | cons a xs ih =>
    simp only [List.mapM_cons, bind_eq_ok_iff] at h
    obtain ⟨b, first, ys, rest, ⟨⟩⟩ := h
    refine List.forall_mem_cons.2 ⟨⟨a, List.mem_cons_self, first⟩, ?_⟩
    intro b' member
    obtain ⟨a', isMember, made⟩ := ih rest b' member
    exact ⟨a', List.mem_cons_of_mem _ isMember, made⟩

/-- What succeeds for each member of a list succeeds for the list. -/
theorem exists_mapM_eq_ok {ε α β : Type} {f : α → Except ε β} {xs : List α}
    (h : ∀ a ∈ xs, ∃ b, f a = .ok b) : ∃ ys, xs.mapM f = .ok ys := by
  induction xs with
  | nil => exact ⟨[], rfl⟩
  | cons a xs ih =>
    rw [List.forall_mem_cons] at h
    obtain ⟨b, first⟩ := h.1
    obtain ⟨ys, rest⟩ := ih h.2
    refine ⟨b :: ys, ?_⟩
    rw [List.mapM_cons, first, rest]
    rfl

/-- It succeeds for no other list. -/
theorem exists_mapM_eq_ok_iff {ε α β : Type} {f : α → Except ε β} {xs : List α} :
    (∃ ys, xs.mapM f = .ok ys) ↔ ∀ a ∈ xs, ∃ b, f a = .ok b := by
  refine ⟨?_, exists_mapM_eq_ok⟩
  induction xs with
  | nil => exact fun _ => nofun
  | cons a xs ih =>
    rintro ⟨_, made⟩
    simp only [List.mapM_cons, bind_eq_ok_iff] at made
    obtain ⟨b, first, ys, rest, -⟩ := made
    exact List.forall_mem_cons.2 ⟨⟨b, first⟩, ih ⟨ys, rest⟩⟩

/-- The results stand in the order of the members. -/
theorem getElem?_of_mapM_eq_ok {ε α β : Type} {f : α → Except ε β} {xs : List α} {ys : List β}
    (h : xs.mapM f = .ok ys) :
    ys.length = xs.length ∧ ∀ (i : Nat) (a : α), xs[i]? = some a →
      ∃ b, f a = .ok b ∧ ys[i]? = some b := by
  induction xs generalizing ys with
  | nil =>
    cases h
    exact ⟨rfl, fun i a none => absurd none (by simp)⟩
  | cons a xs ih =>
    simp only [List.mapM_cons, bind_eq_ok_iff] at h
    obtain ⟨b, first, ys, rest, ⟨⟩⟩ := h
    obtain ⟨length, later⟩ := ih rest
    refine ⟨congrArg (· + 1) length, fun i a' here => ?_⟩
    cases i with
    | zero =>
      obtain rfl : a = a' := Option.some.inj here
      exact ⟨b, first, rfl⟩
    | succ i => exact later i a' here

/-- Two checks of the members of a list are the same if they are the
same for each. -/
theorem forM_congr {ε α : Type} {f g : α → Except ε Unit} {xs : List α}
    (h : ∀ a ∈ xs, f a = g a) : xs.forM f = xs.forM g := by
  induction xs with
  | nil => rfl
  | cons a xs ih =>
    rw [List.forall_mem_cons] at h
    have rest := ih h.2
    simp only [List.forM_eq_forM, List.forM_cons] at rest ⊢
    rw [h.1, rest]

/-! ### Turn numbers and times -/

/-- A turn number. Turns of a channel are counted from zero. -/
abbrev TurnNum := UInt64

/-- The turn after `t`, if there is one. -/
def TurnNum.succ? (t : TurnNum) : Option TurnNum :=
  if t.toNat + 1 < 2 ^ 64 then some (t + 1) else none

/-- The turn after `t`, where the caller relies on there being one. -/
def TurnNum.succ (t : TurnNum) : Except Overflow TurnNum :=
  match t.succ? with
  | some u => .ok u
  | none => .error .addition

/-- The turn after `t` is `u` exactly if `u` counts one more. -/
theorem TurnNum.succ?_eq_some_iff {t u : TurnNum} :
    t.succ? = some u ↔ u.toNat = t.toNat + 1 := by
  have hu := u.toNat_lt
  unfold TurnNum.succ?
  split
  · rename_i h
    rw [Option.some.injEq, ← UInt64.toNat_inj, UInt64.toNat_add]
    have one : (1 : UInt64).toNat = 1 := rfl
    rw [one, Nat.mod_eq_of_lt h]
    exact eq_comm
  · simp
    omega

/-- The turn after another one counts one more. -/
theorem TurnNum.succ_eq_ok_iff {t u : TurnNum} : t.succ = .ok u ↔ u.toNat = t.toNat + 1 := by
  rw [← TurnNum.succ?_eq_some_iff, TurnNum.succ]
  cases t.succ? <;> simp

/-- Only the largest turn has no next one. -/
theorem TurnNum.succ_eq_error_iff {t : TurnNum} {o : Overflow} :
    t.succ = .error o ↔ o = .addition ∧ t.toNat + 1 = 2 ^ 64 := by
  have bound := t.toNat_lt
  unfold TurnNum.succ TurnNum.succ?
  by_cases fits : t.toNat + 1 < 2 ^ 64
  · have notLast : t.toNat + 1 ≠ 2 ^ 64 := Nat.ne_of_lt fits
    simp [fits, notLast]
  · have last : t.toNat + 1 = 2 ^ 64 := by omega
    simp [last, eq_comm]

/-- A time or a duration in seconds. -/
abbrev Seconds := UInt64

/-- The time `d` seconds after `t`, or the largest time if that is
past the end. -/
def Seconds.addCapped (t d : Seconds) : Seconds :=
  if t.toNat + d.toNat < 2 ^ 64 then t + d else UInt64.ofNat (2 ^ 64 - 1)

/-- Capped addition is addition of numbers, capped. -/
theorem Seconds.toNat_addCapped (t d : Seconds) :
    (t.addCapped d).toNat = min (t.toNat + d.toNat) (2 ^ 64 - 1) := by
  unfold Seconds.addCapped
  split
  · rename_i h
    rw [UInt64.toNat_add, Nat.mod_eq_of_lt h]
    omega
  · rename_i h
    have : (UInt64.ofNat (2 ^ 64 - 1)).toNat = 2 ^ 64 - 1 := rfl
    rw [this]
    omega

end StateChannels
