import StateChannels.Outbox

/-!
# `StateChannels.Proofs.Outbox.Order`: no message is lost unseen

A queue of messages changes in three ways. A message is queued, the oldest one is taken
out, or all of them are. A message that was queued leaves in one of these actions, and
the caller gets it: as the oldest one, among all, or because it made room for a new one.

`Effect` notes what an action queues and what leaves. For one action and for a whole run
these are in balance with the queue before and after, in the order of the messages
(`Passes`). The law does not depend on the capacity, and it holds of a queue that is
longer than its capacity too.

* `passes_act`, `passes_run`: the balance of an action, and of a run.
* `in_order`: what was queued since the start is what left followed by what waits. The
  queue never outgrows its capacity, and a message is refused exactly if there is no room
  at all or if the queue is full and keeps what it has. What is taken out is the oldest
  message, or all that wait.
-/

set_option autoImplicit false

namespace StateChannels.Outbox

/-- What can be done with a queue. -/
inductive Action where
  | push (letter : Letter)
  | pop
  | flush
deriving DecidableEq

/-- What an action does, or a run of them. -/
@[ext] structure Effect where
  /-- The messages that were not refused, in the order in which they came. -/
  queued : List Letter
  /-- The messages that the caller got, in the order in which they left. -/
  left : List Letter
  after : Outbox
deriving DecidableEq

/-- The effect of an action. A refused message is not queued. -/
def act (b : Outbox) : Action → Effect
  | .push letter =>
    match b.offer letter with
    | (.ok evicted, after) => ⟨[letter], evicted.toList, after⟩
    | (.error _, after) => ⟨[], [], after⟩
  | .pop => ⟨[], b.pop.1.toList, b.pop.2⟩
  | .flush => ⟨[], b.flush.1, b.flush.2⟩

/-- The effect of a run of actions. -/
def run (b : Outbox) : List Action → Effect
  | [] => ⟨[], [], b⟩
  | a :: actions =>
    let first := b.act a
    let rest := first.after.run actions
    ⟨first.queued ++ rest.queued, first.left ++ rest.left, rest.after⟩

/-- A way from the queue `b` to the queue after an effect. What waited and what was
queued is what left and what waits now, in this order. -/
structure Passes (b : Outbox) (e : Effect) : Prop where
  order : b.queue ++ e.queued = e.left ++ e.after.queue
  capacity_eq : e.after.capacity = b.capacity
  policy_eq : e.after.policy = b.policy
  size_le : b.size ≤ b.capacity → e.after.size ≤ b.capacity

variable {b : Outbox} {letter : Letter}

/-- The oldest message and the others are the whole queue, also if there is none. -/
theorem head?_append_tail (queue : List Letter) : queue.head?.toList ++ queue.tail = queue := by
  cases queue <;> rfl

/-- Before anything is done nothing has passed. -/
theorem Passes.refl (b : Outbox) : Passes b ⟨[], [], b⟩ where
  order := List.append_nil _
  capacity_eq := rfl
  policy_eq := rfl
  size_le := fun le => le

/-- Two ways in a row are one. -/
theorem Passes.trans {e e' : Effect} (h : Passes b e) (h' : Passes e.after e') :
    Passes b ⟨e.queued ++ e'.queued, e.left ++ e'.left, e'.after⟩ where
  order := by
    calc b.queue ++ (e.queued ++ e'.queued)
        = e.left ++ (e.after.queue ++ e'.queued) := by simp [← List.append_assoc, h.order]
      _ = (e.left ++ e'.left) ++ e'.after.queue := by simp [h'.order]
  capacity_eq := h'.capacity_eq.trans h.capacity_eq
  policy_eq := h'.policy_eq.trans h.policy_eq
  size_le := by
    intro le
    have middle := h.size_le le
    rw [← h.capacity_eq] at middle ⊢
    exact h'.size_le middle

/-- Taking out the front of a queue. -/
theorem Passes.of_split {left rest : List Letter} (split : b.queue = left ++ rest) :
    Passes b ⟨[], left, { b with queue := rest }⟩ where
  order := by simp [split]
  capacity_eq := rfl
  policy_eq := rfl
  size_le := by
    intro le
    simp only [size, split, List.length_append] at le ⊢
    omega

/-- Queueing a message where there is room. -/
theorem Passes.of_room (room : b.size < b.capacity) :
    Passes b ⟨[letter], [], { b with queue := b.queue ++ [letter] }⟩ where
  order := rfl
  capacity_eq := rfl
  policy_eq := rfl
  size_le := by
    intro _
    rw [size, List.length_append, List.length_singleton]
    exact room

/-- The oldest message makes room: it is taken out first, and then there is room. With
one place this is the only message that waits. -/
theorem Passes.of_eviction (notZero : b.capacity ≠ 0) (full : b.capacity ≤ b.size) :
    Passes b ⟨[letter], b.queue.head?.toList, { b with queue := b.queue.tail ++ [letter] }⟩ where
  order := by rw [← List.append_assoc, head?_append_tail]
  capacity_eq := rfl
  policy_eq := rfl
  size_le := by
    intro le
    simp only [size, List.length_append, List.length_tail, List.length_singleton] at full le ⊢
    omega

/-- A letter that is refused leaves the queue. -/
theorem act_push_of_error {e : OutboxError} (refused : b.push letter = .error e) :
    b.act (.push letter) = ⟨[], [], b⟩ := by
  rw [act, offer_of_push_error refused]

/-- A letter that is queued is taken in, and an evicted one is lost. -/
theorem act_push_of_ok {evicted : Option Letter} {after : Outbox}
    (queued : b.push letter = .ok (evicted, after)) :
    b.act (.push letter) = ⟨[letter], evicted.toList, after⟩ := by
  rw [act, offer_of_push queued]

/-- Every action is a way in this sense. -/
theorem passes_act (b : Outbox) (a : Action) : Passes b (b.act a) := by
  cases a with
  | push letter =>
    -- A message that is not refused finds a free place or takes the place of the oldest one.
    cases pushed : b.push letter with
    | error e =>
      rw [act_push_of_error pushed]
      exact .refl b
    | ok made =>
      rw [act_push_of_ok pushed]
      rw [push_eq] at pushed
      split at pushed
      · cases pushed
      · rename_i notZero
        split at pushed
        · rename_i full
          split at pushed
          · cases pushed
          · cases pushed
            exact .of_eviction notZero full
        · rename_i free
          cases pushed
          exact .of_room (Nat.not_le.1 free)
  | pop => exact .of_split (head?_append_tail b.queue).symm
  | flush => exact .of_split (List.append_nil b.queue).symm

/-- So is every run. -/
theorem passes_run (b : Outbox) (actions : List Action) : Passes b (b.run actions) := by
  -- The queue changes with each action, so it is not fixed.
  induction actions generalizing b with
  | nil => exact .refl b
  | cons a actions ih => exact (passes_act b a).trans (ih (b.act a).after)

/-- One more action adds its effect at the end. -/
theorem run_concat (b : Outbox) (actions : List Action) (a : Action) :
    b.run (actions ++ [a]) =
      ⟨(b.run actions).queued ++ ((b.run actions).after.act a).queued,
        (b.run actions).left ++ ((b.run actions).after.act a).left,
        ((b.run actions).after.act a).after⟩ := by
  induction actions generalizing b with
  | nil => simp [run]
  | cons first actions ih => simp [run, ih]

/-- A message changes nothing exactly if it is refused. -/
theorem act_push_eq_iff :
    b.act (.push letter) = ⟨[], [], b⟩ ↔ ∃ e, b.push letter = .error e := by
  cases pushed : b.push letter with
  | error e => simp [act_push_of_error pushed]
  | ok made => simp [act_push_of_ok pushed]

/-- A queue that was empty at the start, after whatever was done with it. The messages
that were queued are those that left, in the order in which they left, followed by those
that wait. No more wait than there is room for. A further message is refused exactly if
there is no room at all, or if the queue is full and keeps what it has, and exactly then
it leaves everything as it is. The message that is taken out next is the oldest one that
waits. When all are taken out, what was queued has left, and nothing waits. -/
theorem in_order (capacity : Nat) (policy : Backpressure) (actions : List Action) :
    ∃ queued left queue,
      (empty capacity policy).run actions = ⟨queued, left, ⟨queue, capacity, policy⟩⟩ ∧
      queued = left ++ queue ∧ queue.length ≤ capacity ∧
      (∀ letter e, push ⟨queue, capacity, policy⟩ letter = .error e ↔
        (capacity = 0 ∨ queue.length = capacity ∧ policy = .reject) ∧ e = .full capacity) ∧
      (∀ letter, (empty capacity policy).run (actions ++ [.push letter]) =
          (empty capacity policy).run actions ↔
        capacity = 0 ∨ queue.length = capacity ∧ policy = .reject) ∧
      (empty capacity policy).run (actions ++ [.pop]) =
        ⟨queued, left ++ queue.head?.toList, ⟨queue.tail, capacity, policy⟩⟩ ∧
      (empty capacity policy).run (actions ++ [.flush]) =
        ⟨queued, queued, ⟨[], capacity, policy⟩⟩ := by
  have way := passes_run (empty capacity policy) actions
  have concat := run_concat (empty capacity policy) actions
  generalize (empty capacity policy).run actions = effect at way concat ⊢
  obtain ⟨queued, left, queue, capacity', policy'⟩ := effect
  obtain rfl : capacity' = capacity := way.capacity_eq
  obtain rfl : policy' = policy := way.policy_eq
  have order : queued = left ++ queue := way.order
  have short : queue.length ≤ capacity' := way.size_le (Nat.zero_le _)
  -- No queue is longer than its capacity, so a full one has exactly this length.
  have full : capacity' ≤ queue.length ↔ queue.length = capacity' := by omega
  have refused (letter : Letter) (e : OutboxError) :
      push ⟨queue, capacity', policy'⟩ letter = .error e ↔
        (capacity' = 0 ∨ queue.length = capacity' ∧ policy' = .reject) ∧
          e = .full capacity' := by
    simp only [push_eq_error_iff, size, full]
  refine ⟨queued, left, queue, rfl, order, short, refused, fun letter => ?_, ?_, ?_⟩
  · rw [concat]
    have unchanged : act ⟨queue, capacity', policy'⟩ (.push letter) = ⟨[], [], _⟩ ↔
        ∃ e, push _ letter = .error e := act_push_eq_iff
    simp only [refused, exists_and_left, exists_eq, and_true] at unchanged
    rw [← unchanged]
    simp [Effect.ext_iff]
  · rw [concat]
    simp [act, pop]
  · rw [concat]
    simp [act, flush, order]

namespace Sample

/-- A message for one of several recipients. -/
def note (recipient : UInt8) : Letter := (⟨.replicate 20 recipient⟩, .signedStates [])

/-- Three messages come to a queue with two places. The first one makes room for the
last, and then the second one is taken out. -/
def crowded : List Action := [.push (note 1), .push (note 2), .push (note 3), .pop]

/-- Of the three letters one is left, after one was evicted and one handed
over. -/
theorem run_crowded :
    (empty 2 .dropOldest).run crowded =
      ⟨[note 1, note 2, note 3], [note 1, note 2], ⟨[note 3], 2, .dropOldest⟩⟩ := by
  decide

/-- The last message waits, and leaves when all that wait are taken out. By then the
three have left in the order in which they came. -/
theorem in_order_crowded :
    ∃ queue, ((empty 2 .dropOldest).run crowded).after = ⟨queue, 2, .dropOldest⟩ ∧
      [note 1, note 2, note 3] = [note 1, note 2] ++ queue ∧ queue.length ≤ 2 ∧
      (empty 2 .dropOldest).run (crowded ++ [.flush]) =
        ⟨[note 1, note 2, note 3], [note 1, note 2, note 3],
          ⟨[], 2, .dropOldest⟩⟩ := by
  obtain ⟨queued, left, queue, made, order, short, -, -, -, flushed⟩ :=
    in_order 2 .dropOldest crowded
  obtain ⟨rfl, rfl, after⟩ := Effect.mk.inj (run_crowded.symm.trans made)
  exact ⟨queue, congrArg Effect.after made, order, short, flushed⟩

end Sample

end StateChannels.Outbox
