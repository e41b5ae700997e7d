import Mathlib.Data.List.Basic

/-!
# Bounded single-consumer channels

The non-blocking half of a bounded channel: `trySend` refuses on a full queue
and on a dropped receiver, `recv` takes the oldest element. The bound is a field
of the structure, so a channel that holds too many elements cannot be built.
-/

universe u

/-- Why a non-blocking send was refused. -/
inductive TrySendError where
  | full
  | closed
  deriving DecidableEq, Repr

/-- A queue of at most `capacity` elements; `closed` says the receiver is gone. -/
structure BoundedChannel (T : Type u) where
  capacity : Nat
  queue : List T
  closed : Bool
  bounded : queue.length ≤ capacity
  deriving DecidableEq

namespace BoundedChannel

variable {T : Type u}

/-- A fresh channel is empty and its receiver is alive. -/
def new (capacity : Nat) : BoundedChannel T := ⟨capacity, [], false, Nat.zero_le _⟩

/-- Append without waiting, or say why this is impossible. -/
def trySend (c : BoundedChannel T) (x : T) : Except TrySendError (BoundedChannel T) :=
  if c.closed then .error .closed
  else if h : c.queue.length < c.capacity then
    .ok ⟨c.capacity, c.queue ++ [x], c.closed, by
      rw [List.length_append, List.length_singleton]; exact h⟩
  else .error .full

/-- Take the oldest element, if there is one. -/
def recv (c : BoundedChannel T) : Option (T × BoundedChannel T) :=
  match c.queue, c.bounded with
  | [], _ => none
  | x :: rest, h => some (x, ⟨c.capacity, rest, c.closed, Nat.le_of_succ_le h⟩)

/-- Drop the receiver: later sends are refused and the queued elements are lost. -/
def close (c : BoundedChannel T) : BoundedChannel T :=
  ⟨c.capacity, [], true, Nat.zero_le _⟩

@[simp] theorem new_queue (n : Nat) : (new n : BoundedChannel T).queue = [] := rfl

/-- An accepted send appends exactly the offered element to an open queue with room. -/
theorem trySend_ok {c c' : BoundedChannel T} {x : T} (h : c.trySend x = .ok c') :
    c'.queue = c.queue ++ [x] ∧ c'.capacity = c.capacity ∧ c'.closed = c.closed ∧
      c.closed = false ∧ c.queue.length < c.capacity := by
  unfold trySend at h
  split at h
  · cases h
  · rename_i hopen
    split at h
    · rename_i hroom
      cases h
      exact ⟨rfl, rfl, rfl, Bool.eq_false_iff.mpr hopen, hroom⟩
    · cases h

/-- A full refusal means an open queue that holds exactly `capacity` elements. -/
theorem trySend_full {c : BoundedChannel T} {x : T} (h : c.trySend x = .error .full) :
    c.closed = false ∧ c.queue.length = c.capacity := by
  unfold trySend at h
  split at h
  · cases h
  · rename_i hopen
    split at h
    · cases h
    · rename_i hroom
      exact ⟨Bool.eq_false_iff.mpr hopen, Nat.le_antisymm c.bounded (Nat.le_of_not_lt hroom)⟩

/-- A closed refusal means that the receiver is gone. -/
theorem trySend_closed {c : BoundedChannel T} {x : T} (h : c.trySend x = .error .closed) :
    c.closed = true := by
  unfold trySend at h
  split at h
  · assumption
  · split at h <;> cases h

/-- Receiving removes exactly the head of the queue. -/
theorem recv_some {c c' : BoundedChannel T} {x : T} (h : c.recv = some (x, c')) :
    c.queue = x :: c'.queue ∧ c'.capacity = c.capacity ∧ c'.closed = c.closed := by
  obtain ⟨cap, queue, closed, bounded⟩ := c
  cases queue with
  | nil => cases h
  | cons y rest =>
      cases h
      exact ⟨rfl, rfl, rfl⟩

theorem isSome_recv {c : BoundedChannel T} : c.recv.isSome = !c.queue.isEmpty := by
  obtain ⟨cap, queue, closed, bounded⟩ := c
  cases queue <;> rfl

/-- A channel that holds an element gives its oldest one out. -/
theorem recv_of_queue {c : BoundedChannel T} {x : T} {rest : List T} (h : c.queue = x :: rest) :
    ∃ c', c.recv = some (x, c') ∧ c'.queue = rest := by
  obtain ⟨cap, queue, closed, bounded⟩ := c
  subst h
  exact ⟨_, rfl, rfl⟩

end BoundedChannel
