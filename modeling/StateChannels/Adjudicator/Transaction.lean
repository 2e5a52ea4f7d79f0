import StateChannels.Adjudicator.Chain

/-!
# `StateChannels.Adjudicator.Transaction`: reading and writing the chain

A call changes the chain in place. It looks things up and checks them,
it writes, and it can be refused at any point. What it has written by
then is not taken back: a `Transaction` gives the chain after it in
both cases. `Transaction.commit` keeps the chain of a transaction that
succeeds.

The chain has a clock of its own, and a call that reads it twice can
get two times. A `Lapse` says how the clock moves in between.

Main statements: `AllOrNothing.run_eq`, the chain after a transaction
that changes nothing if it fails, and the equivalences that take
`commit` apart step by step (`commit_look_eq_ok_iff` and those after
it).
-/

set_option autoImplicit false

namespace StateChannels

/-- A program on the chain. It gives a result or is refused, and there
is a chain after it either way. -/
abbrev Transaction (α : Type) := ExceptT (Failure AdjudicatorError) (StateM Adjudicator) α

/-- What the clock reads the second time in a call, by what it read the
first time. -/
abbrev Lapse := Seconds → Seconds

/-- The clock stands still during a call, as it is the time of the
block that the call is in. -/
def Lapse.none : Lapse := id

namespace Transaction

variable {α β : Type}

/-- Looks something up that may be missing, or checks something. -/
def look (f : Adjudicator → Except (Failure AdjudicatorError) α) : Transaction α :=
  ExceptT.mk fun adj => (f adj, adj)

/-- Reads something that is always there. -/
def see (f : Adjudicator → α) : Transaction α := ExceptT.mk fun adj => (.ok (f adj), adj)

/-- Writes to the chain. -/
def write (f : Adjudicator → Adjudicator) : Transaction Unit :=
  ExceptT.mk fun adj => (.ok (), f adj)

/-- The call is refused. -/
def refuse (e : AdjudicatorError) : Transaction α := look fun _ => .error (.refused e)

/-- The clock moves on. -/
def elapse (lapse : Lapse) : Transaction Unit := write fun adj => adj.atTime (lapse adj.clock)

/-- The result of a transaction and the chain after it, if it
succeeds. -/
def commit (t : Transaction α) (adj : Adjudicator) :
    Except (Failure AdjudicatorError) (α × Adjudicator) :=
  match t.run adj with
  | (.ok a, next) => .ok (a, next)
  | (.error failure, _) => .error failure

/-! ### Step by step -/

section Steps

variable {adj : Adjudicator} {f : Adjudicator → Except (Failure AdjudicatorError) α}
  {rest : α → Transaction β}

/-- Two transactions in a row: the second one starts on the chain that
the first one leaves, if the first one succeeds. -/
theorem run_bind {t : Transaction α} :
    (t >>= rest).run adj =
      match t.run adj with
      | (.ok a, next) => (rest a).run next
      | (.error failure, next) => (.error failure, next) := by
  have step : (t >>= rest).run adj = ExceptT.bindCont rest (t.run adj).1 (t.run adj).2 := rfl
  rw [step]
  rcases t.run adj with ⟨_ | _, _⟩ <;> rfl

/-- In terms of the results, transactions are computations that can
fail. -/
theorem commit_bind {t : Transaction α} :
    commit (t >>= rest) adj = commit t adj >>= fun made => commit (rest made.1) made.2 := by
  unfold commit
  rw [run_bind]
  rcases t.run adj with ⟨_ | _, _⟩ <;> rfl

/-- A look comes before the rest. If it finds nothing, the rest is not
done. -/
theorem commit_look_bind :
    commit (look f >>= rest) adj = f adj >>= fun a => commit (rest a) adj := by
  rw [commit_bind]
  show (match (f adj, adj) with
    | (.ok a, next) => Except.ok (a, next)
    | (.error failure, _) => .error failure) >>= _ = _
  cases f adj <;> rfl

/-- What is seen is given to the rest. -/
theorem commit_see_bind {f : Adjudicator → α} :
    commit (see f >>= rest) adj = commit (rest (f adj)) adj := by
  rw [commit_bind]
  rfl

/-- The rest is done on the chain that was written. -/
theorem commit_write_bind {f : Adjudicator → Adjudicator} {rest : Unit → Transaction β} :
    commit (write f >>= rest) adj = commit (rest ()) (f adj) := by
  rw [commit_bind]
  rfl

/-- A result alone leaves the chain. -/
theorem commit_pure (a : α) : commit (pure a) adj = .ok (a, adj) := rfl

/-- The rest is done on the chain at the later time. -/
theorem commit_elapse_bind {lapse : Lapse} {rest : Unit → Transaction β} :
    commit (elapse lapse >>= rest) adj = commit (rest ()) (adj.atTime (lapse adj.clock)) := by
  rw [commit_bind]
  rfl

/-- A transaction that starts with a look succeeds exactly if the look
finds something and the rest succeeds with it. -/
theorem commit_look_eq_ok_iff {made : β × Adjudicator} :
    commit (look f >>= rest) adj = .ok made ↔
      ∃ a, f adj = .ok a ∧ commit (rest a) adj = .ok made := by
  rw [commit_look_bind, bind_eq_ok_iff]

/-- A check that refuses in one case leaves the other one. -/
theorem commit_check_eq_ok_iff {c : Prop} [Decidable c] {e : AdjudicatorError}
    {t : Transaction β} {made : β × Adjudicator} :
    commit (if c then refuse e >>= rest else t) adj = .ok made ↔
      ¬c ∧ commit t adj = .ok made := by
  by_cases h : c <;> simp [h, refuse, commit_look_eq_ok_iff]

/-- A transaction succeeds exactly if it gives a result. -/
theorem commit_eq_ok_iff {t : Transaction α} {a : α} {next : Adjudicator} :
    commit t adj = .ok (a, next) ↔ t.run adj = (.ok a, next) := by
  unfold commit
  rcases t.run adj with ⟨_ | _, _⟩ <;> constructor <;> rintro ⟨⟩ <;> rfl

/-- A result alone succeeds with itself, and the chain as it is. -/
theorem commit_pure_eq_ok_iff {a : α} {made : α × Adjudicator} :
    commit (pure a) adj = .ok made ↔ made = (a, adj) := by
  rw [commit_pure, Except.ok.injEq, eq_comm]

/-- It stops exactly if the look stops, or the rest after it. -/
theorem commit_look_eq_overflow_iff {o : Overflow} :
    commit (look f >>= rest) adj = .error (.overflow o) ↔
      f adj = .error (.overflow o) ∨
        ∃ a, f adj = .ok a ∧ commit (rest a) adj = .error (.overflow o) := by
  rw [commit_look_bind, bind_eq_error_iff]

/-- A check that refuses in one case stops where the rest does. -/
theorem commit_check_eq_overflow_iff {c : Prop} [Decidable c] {e : AdjudicatorError}
    {t : Transaction β} {o : Overflow} :
    commit (if c then refuse e >>= rest else t) adj = .error (.overflow o) ↔
      ¬c ∧ commit t adj = .error (.overflow o) := by
  by_cases h : c <;> simp [h, refuse, commit_look_eq_overflow_iff]

end Steps

/-! ### Transactions that fail -/

/-- A transaction that fails leaves the chain as it was. -/
def AllOrNothing (t : Transaction α) : Prop :=
  ∀ adj failure, (t.run adj).1 = .error failure → (t.run adj).2 = adj

/-- A transaction that does not fail on any chain. -/
def Sure (t : Transaction α) : Prop := ∀ adj, ∃ a, (t.run adj).1 = .ok a

/-- A result alone cannot fail. -/
theorem sure_pure (a : α) : Sure (pure a) := fun _ => ⟨a, rfl⟩

/-- A write cannot fail. -/
theorem Sure.write_bind {f : Adjudicator → Adjudicator} {rest : Unit → Transaction β}
    (h : Sure (rest ())) : Sure (write f >>= rest) := fun adj => h (f adj)

/-- Seeing a value cannot fail. -/
theorem Sure.see_bind {f : Adjudicator → α} {rest : α → Transaction β}
    (h : ∀ a, Sure (rest a)) : Sure (see f >>= rest) := fun adj => h (f adj) adj

/-- What does not fail has no error. -/
theorem Sure.commit_ne_error {t : Transaction α} (h : Sure t) {adj : Adjudicator}
    {failure : Failure AdjudicatorError} : commit t adj ≠ .error failure := by
  obtain ⟨a, made⟩ := h adj
  unfold commit
  generalize t.run adj = result at made ⊢
  obtain ⟨_ | _, next⟩ := result
  · cases made
  · rintro ⟨⟩

/-- What does not fail has nothing to take back. -/
theorem Sure.allOrNothing {t : Transaction α} (h : Sure t) : AllOrNothing t := by
  intro adj failure failed
  obtain ⟨a, made⟩ := h adj
  cases made.symm.trans failed

/-- A look changes nothing, so it can come before anything. -/
theorem AllOrNothing.look_bind {f : Adjudicator → Except (Failure AdjudicatorError) α}
    {rest : α → Transaction β} (h : ∀ a, AllOrNothing (rest a)) :
    AllOrNothing (look f >>= rest) := by
  intro adj failure failed
  have looked : (look f).run adj = (f adj, adj) := rfl
  rw [run_bind, looked] at failed ⊢
  cases found : f adj with
  | ok a =>
    rw [found] at failed
    exact h a adj failure failed
  | error _ => rfl

/-- Seeing a value changes nothing, so it can come before anything. -/
theorem AllOrNothing.see_bind {f : Adjudicator → α} {rest : α → Transaction β}
    (h : ∀ a, AllOrNothing (rest a)) : AllOrNothing (see f >>= rest) :=
  fun adj => h (f adj) adj

/-- A refusal alone leaves the chain. -/
theorem AllOrNothing.refuse (e : AdjudicatorError) : AllOrNothing (refuse e : Transaction α) :=
  fun _ _ _ => rfl

/-- A check that refuses in one case comes before the rest. -/
theorem AllOrNothing.check {c : Prop} [Decidable c] {e : AdjudicatorError}
    {rest : α → Transaction β} {t : Transaction β} (h : AllOrNothing t) :
    AllOrNothing (if c then Transaction.refuse e >>= rest else t) := by
  split
  · exact fun _ _ _ => rfl
  · exact h

/-- Only the result is made into another one. -/
theorem AllOrNothing.bind_pure {t : Transaction α} (h : AllOrNothing t) (g : α → β) :
    AllOrNothing (t >>= fun a => pure (g a)) := by
  intro adj failure failed
  have kept := h adj
  rw [run_bind] at failed ⊢
  generalize t.run adj = made at kept failed ⊢
  obtain ⟨_ | _, next⟩ := made
  · exact kept _ rfl
  · cases failed

/-- So the chain after it is the one that `commit` keeps, or the one
before it. -/
theorem AllOrNothing.run_eq {t : Transaction α} (h : AllOrNothing t) (adj : Adjudicator) :
    t.run adj =
      match commit t adj with
      | .ok (a, next) => (.ok a, next)
      | .error failure => (.error failure, adj) := by
  have kept := h adj
  unfold commit
  generalize t.run adj = made at kept ⊢
  obtain ⟨failure | _, next⟩ := made
  · have same : next = adj := kept failure rfl
    rw [same]
  · rfl

end Transaction

end StateChannels
