import Mathlib.Data.List.Forall2

/-!
# Machines that cut messages from a stream

A framer is fed one element at a time and says when its message is complete. Because it
never looks ahead, what it takes from the front of a stream does not depend on what follows,
and messages that are each read exactly are read one after the other from their
concatenation.
-/

universe u v

/-- A machine that is fed the elements of a message until it is done. -/
structure Framer (β : Type u) where
  State : Type v
  step : State → β → State
  done : State → Bool

namespace Framer

variable {β : Type u} (M : Framer β)

/-- The first message of a stream and what follows it. -/
def take : M.State → List β → Option (List β × List β)
  | s, [] => if M.done s then some ([], []) else none
  | s, b :: rest =>
      if M.done s then some ([], b :: rest)
      else (take (M.step s b) rest).map fun r => (b :: r.1, r.2)

/-- The list is exactly one message. -/
def Reads (s : M.State) (message : List β) : Prop := M.take s message = some (message, [])

/-- The messages of a stream, one for each start state, and what follows them. -/
def takeAll : List M.State → List β → Option (List (List β) × List β)
  | [], rest => some ([], rest)
  | s :: starts, stream =>
      (M.take s stream).bind fun r => (takeAll starts r.2).map fun q => (r.1 :: q.1, q.2)

variable {M} {s : M.State}

/-- What follows a message has no part in it. -/
theorem take_append {stream message rest : List β} (h : M.take s stream = some (message, rest))
    (more : List β) : M.take s (stream ++ more) = some (message, rest ++ more) := by
  induction stream generalizing s message with
  | nil =>
      simp only [take, Option.ite_none_right_eq_some, Option.some.injEq, Prod.mk.injEq] at h
      obtain ⟨hdone, rfl, rfl⟩ := h
      cases more with
      | nil => simp [take, hdone]
      | cons b more => simp [take, hdone]
  | cons b stream ih =>
      simp only [take] at h
      split at h
      · rename_i hdone
        simp only [Option.some.injEq, Prod.mk.injEq] at h
        obtain ⟨rfl, rfl⟩ := h
        simp [take, hdone]
      · rename_i hdone
        obtain ⟨⟨part, left⟩, hpart, hr⟩ := Option.map_eq_some_iff.mp h
        simp only [Prod.mk.injEq] at hr
        obtain ⟨rfl, rfl⟩ := hr
        simp [take, hdone, ih hpart]

/-- A message that is read exactly is cut off from every stream that starts with it. -/
theorem Reads.take {message : List β} (h : M.Reads s message) (rest : List β) :
    M.take s (message ++ rest) = some (message, rest) := by
  have happend := take_append h rest
  rwa [List.nil_append] at happend

/-- Messages that are each read exactly are read from the front of a stream. -/
theorem takeAll_append {starts : List M.State} {messages : List (List β)}
    (h : List.Forall₂ M.Reads starts messages) (more : List M.State) (rest : List β) :
    M.takeAll (starts ++ more) (messages.flatten ++ rest) =
      (M.takeAll more rest).map fun q => (messages ++ q.1, q.2) := by
  induction h with
  | nil =>
      change _ = (M.takeAll more rest).map fun q => (q.1, q.2)
      rw [Option.map_id']
      rfl
  | cons hread _ ih =>
      rw [List.flatten_cons, List.append_assoc, List.cons_append, takeAll, hread.take,
        Option.bind_some, ih, Option.map_map]
      rfl

/-- Messages that are each read exactly are read from their concatenation. -/
theorem takeAll_flatten {starts : List M.State} {messages : List (List β)}
    (h : List.Forall₂ M.Reads starts messages) (rest : List β) :
    M.takeAll starts (messages.flatten ++ rest) = some (messages, rest) := by
  have happend := takeAll_append h [] rest
  rwa [List.append_nil, takeAll, Option.map_some, List.append_nil] at happend

/-- The part takes the machine from one state to another within a message. -/
def Feeds (M : Framer β) (s : M.State) (part : List β) (s' : M.State) : Prop :=
  ∀ rest, M.take s (part ++ rest) = (M.take s' rest).map fun r => (part ++ r.1, r.2)

theorem Feeds.nil (s : M.State) : M.Feeds s [] s := by
  intro rest
  change M.take s rest = (M.take s rest).map fun r => (r.1, r.2)
  rw [Option.map_id']

theorem Feeds.trans {s' s'' : M.State} {first second : List β} (h : M.Feeds s first s')
    (h' : M.Feeds s' second s'') : M.Feeds s (first ++ second) s'' := by
  intro rest
  rw [List.append_assoc, h, h', Option.map_map]
  congr 1
  funext r
  exact Prod.ext (List.append_assoc ..).symm rfl

theorem Feeds.step (h : M.done s = false) (b : β) : M.Feeds s [b] (M.step s b) := by
  intro rest
  rw [List.singleton_append, Framer.take, if_neg (by rw [h]; exact Bool.false_ne_true)]
  rfl

theorem take_of_done (h : M.done s = true) (stream : List β) :
    M.take s stream = some ([], stream) := by
  cases stream with
  | nil => rw [take, if_pos h]
  | cons b rest => rw [take, if_pos h]

/-- A part that leads to the end is a message. -/
theorem Feeds.take {s' : M.State} {message : List β} (h : M.Feeds s message s')
    (hdone : M.done s' = true) (rest : List β) :
    M.take s (message ++ rest) = some (message, rest) := by
  rw [h, take_of_done hdone, Option.map_some, List.append_nil]

end Framer
