import StateChannels.Message

/-!
# `StateChannels.Outbox`: messages that wait for the transport

A bounded queue of messages with their recipients. When it is full,
either the oldest message makes room or the new one is refused. Losing
a message is safe. A state without all signatures can be forgotten,
and a participant who does not answer is challenged on the chain.

Main statements: `Outbox.push_eq_error_iff` says when a message is
refused, and `Outbox.offer_of_push_error` that it then leaves the queue
as it is.
-/

set_option autoImplicit false

namespace StateChannels

/-- What happens to a message that finds the queue full. -/
inductive Backpressure where
  /-- The oldest message makes room. -/
  | dropOldest
  /-- The new message is refused. -/
  | reject
deriving DecidableEq

/-- Why a message is not queued. -/
inductive OutboxError where
  | full (capacity : Nat)
deriving DecidableEq

/-- The text of an error. -/
def OutboxError.message : OutboxError → String
  | full capacity => s!"outbound queue is full ({capacity} messages)"

/-- A message with its recipient. -/
abbrev Letter := Address × Message

/-- The messages that wait, oldest first. -/
@[ext] structure Outbox where
  queue : List Letter
  capacity : Nat
  policy : Backpressure
deriving DecidableEq

namespace Outbox

/-- The empty queue. -/
def empty (capacity : Nat) (policy : Backpressure) : Outbox := ⟨[], capacity, policy⟩

/-- How many messages wait. -/
def size (b : Outbox) : Nat := b.queue.length

/-- Takes the oldest message out. -/
def pop (b : Outbox) : Option Letter × Outbox :=
  (b.queue.head?, { b with queue := b.queue.tail })

/-- Takes all messages out, oldest first. -/
def flush (b : Outbox) : List Letter × Outbox := (b.queue, { b with queue := [] })

/-- Puts a message at the end. -/
def append (b : Outbox) (letter : Letter) : Outbox := { b with queue := b.queue ++ [letter] }

/-- Queues a message. The result is the message that made room, if any,
or why the message is refused, and the queue after that. -/
def offer (b : Outbox) (letter : Letter) : Except OutboxError (Option Letter) × Outbox :=
  if b.capacity = 0 then (.error (.full 0), b)
  else if b.capacity ≤ b.size then
    match b.policy with
    | .reject => (.error (.full b.capacity), b)
    | .dropOldest =>
      let (evicted, rest) := b.pop
      (.ok evicted, rest.append letter)
  else (.ok none, b.append letter)

/-- The result of queueing a message and the queue after it, unless the
message is refused. -/
def push (b : Outbox) (letter : Letter) : Except OutboxError (Option Letter × Outbox) :=
  match b.offer letter with
  | (.ok evicted, after) => .ok (evicted, after)
  | (.error e, _) => .error e

/-- Queues a message for each recipient, up to the first that is
refused. -/
def pushAll (b : Outbox) (m : Message) : List Address → Except OutboxError Unit × Outbox
  | [] => (.ok (), b)
  | recipient :: rest =>
    match b.offer (recipient, m) with
    | (.error e, b) => (.error e, b)
    | (.ok _, b) => b.pushAll m rest

/-- What a message meets: no room at all, a queue that keeps what it
has, one whose oldest message makes room, or a free place. -/
theorem push_eq (b : Outbox) (letter : Letter) :
    b.push letter =
      if b.capacity = 0 then .error (.full 0)
      else if b.capacity ≤ b.size then
        match b.policy with
        | .reject => .error (.full b.capacity)
        | .dropOldest =>
          .ok (b.queue.head?, { b with queue := b.queue.tail ++ [letter] })
      else .ok (none, { b with queue := b.queue ++ [letter] }) := by
  obtain ⟨queue, capacity, policy⟩ := b
  unfold push offer
  by_cases none : capacity = 0
  · simp only [if_pos none]
  · by_cases full : capacity ≤ size ⟨queue, capacity, policy⟩
    · simp only [if_neg none, if_pos full]
      cases policy <;> rfl
    · simp only [if_neg none, if_neg full]
      rfl

/-- A message that is refused leaves the queue as it is. -/
theorem offer_of_push_error {b : Outbox} {letter : Letter} {e : OutboxError}
    (refused : b.push letter = .error e) : b.offer letter = (.error e, b) := by
  unfold push at refused
  unfold offer at refused ⊢
  by_cases none : b.capacity = 0
  · rw [if_pos none] at refused ⊢
    rw [Except.error.inj refused]
  · by_cases full : b.capacity ≤ b.size
    · rw [if_neg none, if_pos full] at refused ⊢
      cases policy : b.policy with
      | reject =>
        rw [policy] at refused
        rw [Except.error.inj refused]
      | dropOldest =>
        rw [policy] at refused
        cases refused
    · rw [if_neg none, if_neg full] at refused
      cases refused

/-- A letter that is queued changes the queue in place. -/
theorem offer_of_push {b after : Outbox} {letter : Letter} {evicted : Option Letter}
    (queued : b.push letter = .ok (evicted, after)) : b.offer letter = (.ok evicted, after) := by
  unfold push at queued
  generalize b.offer letter = made at queued ⊢
  obtain ⟨_ | _, _⟩ := made <;> cases queued
  rfl

/-- A message for several recipients, one after the other. -/
theorem pushAll_cons (b : Outbox) (m : Message) (recipient : Address) (rest : List Address) :
    b.pushAll m (recipient :: rest) =
      match b.push (recipient, m) with
      | .error e => (.error e, b)
      | .ok (_, after) => after.pushAll m rest := by
  cases pushed : b.push (recipient, m) with
  | error e => rw [pushAll, offer_of_push_error pushed]
  | ok made => rw [pushAll, offer_of_push pushed]

/-- A message is refused exactly if there is no room at all, or if
the queue is full and keeps what it has. -/
theorem push_eq_error_iff {b : Outbox} {letter : Letter} {e : OutboxError} :
    b.push letter = .error e ↔
      (b.capacity = 0 ∨ b.capacity ≤ b.size ∧ b.policy = .reject) ∧ e = .full b.capacity := by
  rw [push_eq]
  by_cases none : b.capacity = 0
  · simp [none, eq_comm]
  · by_cases full : b.capacity ≤ b.size
    · cases policy : b.policy <;> simp [none, full, eq_comm]
    · simp [none, full]

end Outbox

end StateChannels
