import StateChannels.Outbox

/-!
# `StateChannels.Proofs.Outbox.Room`: how many messages find room

A queue with some capacity never holds more messages than that. One that
makes room for a new message refuses nothing. One that keeps what it has
refuses a message that is sent to several recipients as soon as they are
more than the free places, and by then the messages to the first of them are
queued.

* `Bounded.push_cases`: the three things that a new message can meet.
* `Bounded.pushAll`, `Bounded.flush`: the queue stays within its capacity.
* `Bounded.pushAll_eq_error_iff`: when a message to several recipients is
  refused.
-/

set_option autoImplicit false

namespace StateChannels

namespace Outbox

variable {b b' : Outbox} {capacity : Nat} {policy : Backpressure} {letter : Letter}
  {evicted : Option Letter} {e : OutboxError}

/-- A queue with this capacity and policy. There is room for at least one
message, and there are no more messages than there is room for. -/
structure Bounded (capacity : Nat) (policy : Backpressure) (b : Outbox) : Prop where
  positive : 0 < capacity
  capacity_eq : b.capacity = capacity
  policy_eq : b.policy = policy
  size_le : b.size ≤ capacity

/-- An empty queue has room as soon as there is any capacity. -/
theorem bounded_empty (positive : 0 < capacity) : Bounded capacity policy (empty capacity policy) :=
  ⟨positive, rfl, rfl, Nat.zero_le _⟩

/-- A new message finds a free place, or the queue is full. Then it is
refused, or the oldest message makes room. -/
theorem Bounded.push_cases (h : Bounded capacity policy b) (letter : Letter) :
    (b.size < capacity ∧ b.push letter = .ok (none, { b with queue := b.queue ++ [letter] })) ∨
    (b.size = capacity ∧ policy = .reject ∧ b.push letter = .error (.full capacity)) ∨
    (b.size = capacity ∧ policy = .dropOldest ∧
      b.push letter = .ok (b.queue.head?, { b with queue := b.queue.tail ++ [letter] })) := by
  have notZero : b.capacity ≠ 0 := by
    rw [h.capacity_eq]
    exact Nat.pos_iff_ne_zero.1 h.positive
  by_cases full : b.capacity ≤ b.size
  · have size_eq : b.size = capacity := Nat.le_antisymm h.size_le (h.capacity_eq ▸ full)
    right
    rw [push_eq]
    rw [if_neg notZero, if_pos full, h.policy_eq]
    cases policy with
    | reject => exact .inl ⟨size_eq, rfl, by rw [h.capacity_eq]⟩
    | dropOldest => exact .inr ⟨size_eq, rfl, rfl⟩
  · left
    rw [push_eq]
    rw [if_neg notZero, if_neg full]
    exact ⟨h.capacity_eq ▸ Nat.not_le.1 full, rfl⟩

/-- With a message more, the queue is within its capacity. -/
theorem Bounded.push (h : Bounded capacity policy b)
    (pushed : b.push letter = .ok (evicted, b')) : Bounded capacity policy b' := by
  rcases h.push_cases letter with ⟨room, queued⟩ | ⟨-, -, refused⟩ | ⟨full, -, queued⟩
  · cases pushed.symm.trans queued
    refine ⟨h.positive, h.capacity_eq, h.policy_eq, ?_⟩
    rw [size, List.length_append]
    exact room
  · cases pushed.symm.trans refused
  · cases pushed.symm.trans queued
    refine ⟨h.positive, h.capacity_eq, h.policy_eq, ?_⟩
    have positive := h.positive
    rw [size] at full ⊢
    rw [List.length_append, List.length_tail, List.length_singleton]
    omega

/-- A queue that is flushed is within its capacity. -/
theorem Bounded.flush (h : Bounded capacity policy b) : Bounded capacity policy b.flush.2 :=
  ⟨h.positive, h.capacity_eq, h.policy_eq, Nat.zero_le _⟩

/-- Whether all recipients find room or not, the queue is within its
capacity. -/
theorem Bounded.pushAll (h : Bounded capacity policy b) (m : Message) (recipients : List Address) :
    Bounded capacity policy (b.pushAll m recipients).2 := by
  -- The queue changes with each recipient.
  induction recipients generalizing b with
  | nil => exact h
  | cons recipient rest ih =>
    rw [pushAll_cons]
    split
    · exact h
    · rename_i pushed
      exact ih (h.push pushed)

/-- A message to several recipients is refused exactly if the queue keeps
what it has, and they are more than the free places. -/
theorem Bounded.pushAll_eq_error_iff (h : Bounded capacity policy b) (m : Message)
    (recipients : List Address) :
    (b.pushAll m recipients).1 = .error e ↔
      policy = .reject ∧ capacity < b.size + recipients.length ∧ e = .full capacity := by
  induction recipients generalizing b with
  | nil =>
    have size_le := h.size_le
    constructor
    · intro refused
      cases refused
    · rintro ⟨-, more, -⟩
      rw [List.length_nil] at more
      omega
  | cons recipient rest ih =>
    rcases h.push_cases (recipient, m) with ⟨room, queued⟩ | ⟨full, rejects, refused⟩ |
      ⟨full, makesRoom, queued⟩
    · -- One place less for one recipient less.
      have sizes : ({ b with queue := b.queue ++ [(recipient, m)] } : Outbox).size + rest.length =
          b.size + (recipient :: rest).length := by
        rw [size, size, List.length_append, List.length_singleton, List.length_cons]
        omega
      rw [pushAll_cons, queued]
      exact (ih (h.push queued)).trans (by rw [sizes])
    · have more : capacity < b.size + (recipient :: rest).length := by
        rw [full, List.length_cons]
        omega
      rw [pushAll_cons, refused]
      constructor
      · intro refused
        cases refused
        exact ⟨rejects, more, rfl⟩
      · rintro ⟨-, -, rfl⟩
        rfl
    · rw [pushAll_cons, queued]
      refine (ih (h.push queued)).trans ?_
      simp [makesRoom]

end Outbox

end StateChannels
