import Mathlib.Data.List.TakeWhile

/-!
# A stream that arrives in chunks

An empty chunk ends the stream for a reader that reads chunk by chunk. `following n` is what
such a reader gets of the bytes after the first `n`: empty chunks before that place are passed
over, the first one after it ends the stream. `Unended n` says that there is none after it.
-/

namespace Chunks

variable {α : Type*}

/-- The chunks up to the first empty one. -/
def untilEmpty (chunks : List (List α)) : List α :=
  (chunks.takeWhile fun c => !c.isEmpty).flatten

/-- What follows the first `n` bytes, up to the first empty chunk after them. -/
def following : Nat → List (List α) → List α
  | 0, chunks => untilEmpty chunks
  | _ + 1, [] => []
  | n + 1, c :: chunks =>
      if c.length ≤ n + 1 then following (n + 1 - c.length) chunks
      else c.drop (n + 1) ++ untilEmpty chunks

/-- No chunk that begins after the first `n` bytes is empty. -/
def Unended (n : Nat) (chunks : List (List α)) : Prop :=
  ∃ earlier later, chunks = earlier ++ later ∧ (earlier = [] ∨ earlier.flatten.length < n) ∧
    ∀ c ∈ later, c ≠ []

theorem untilEmpty_of_nonempty {chunks : List (List α)} (h : ∀ c ∈ chunks, c ≠ []) :
    untilEmpty chunks = chunks.flatten := by
  rw [untilEmpty, List.takeWhile_eq_self_iff.mpr]
  intro c hc
  simpa using h c hc

theorem untilEmpty_end (chunks : List (List α)) :
    untilEmpty (chunks ++ [[]]) = untilEmpty chunks := by
  induction chunks with
  | nil => rfl
  | cons c chunks ih =>
      cases c with
      | nil => rfl
      | cons b c => exact congrArg ((b :: c) ++ ·) ih

/-- An empty chunk adds nothing. -/
theorem following_end (n : Nat) (chunks : List (List α)) :
    following n (chunks ++ [[]]) = following n chunks := by
  induction chunks generalizing n with
  | nil => cases n <;> rfl
  | cons c chunks ih =>
      cases n with
      | zero => exact untilEmpty_end (c :: chunks)
      | succ n =>
          rw [List.cons_append, following, following, ih, untilEmpty_end]

theorem following_of_nonempty {n : Nat} {chunks : List (List α)} (h : ∀ c ∈ chunks, c ≠ []) :
    following n chunks = chunks.flatten.drop n := by
  induction chunks generalizing n with
  | nil => cases n <;> rfl
  | cons c chunks ih =>
      have htail : ∀ c ∈ chunks, c ≠ [] := fun c hc => h c (List.mem_cons_of_mem _ hc)
      cases n with
      | zero => exact untilEmpty_of_nonempty h
      | succ n =>
          rw [following, List.flatten_cons]
          split
          · rename_i hle
            rw [ih htail, List.drop_append, List.drop_eq_nil_of_le hle, List.nil_append]
          · rename_i hlt
            rw [untilEmpty_of_nonempty htail, List.drop_append_of_le_length (by omega)]

/-- Where no empty chunk follows, nothing is left out. -/
theorem Unended.following_eq {n : Nat} {chunks : List (List α)} (h : Unended n chunks) :
    following n chunks = chunks.flatten.drop n := by
  obtain ⟨earlier, later, rfl, hbefore, hnonempty⟩ := h
  induction earlier generalizing n with
  | nil => exact following_of_nonempty hnonempty
  | cons c earlier ih =>
      obtain hbefore | hbefore := hbefore
      · contradiction
      rw [List.flatten_cons, List.length_append] at hbefore
      cases n with
      | zero => contradiction
      | succ n =>
          have hle : c.length ≤ n + 1 := by omega
          have hrest : earlier.flatten.length < n + 1 - c.length := by omega
          rw [List.cons_append, following, if_pos hle, ih (.inr hrest), List.flatten_cons,
            List.drop_append, List.drop_eq_nil_of_le hle, List.nil_append]

theorem Unended.snoc {n : Nat} {chunks : List (List α)} {c : List α} (h : Unended n chunks)
    (hc : c ≠ []) : Unended n (chunks ++ [c]) := by
  obtain ⟨earlier, later, rfl, hbefore, hnonempty⟩ := h
  refine ⟨earlier, later ++ [c], List.append_assoc .., hbefore, ?_⟩
  intro c' hc'
  obtain hold | hnew := List.mem_append.mp hc'
  · exact hnonempty c' hold
  · exact List.mem_singleton.mp hnew ▸ hc

/-- A place inside of the last chunk. -/
theorem unended_of_last {n : Nat} {earlier : List (List α)} {last : List α}
    (h : earlier.flatten.length < n) (hlast : last ≠ []) : Unended n (earlier ++ [last]) :=
  ⟨earlier, [last], rfl, .inr h, by simpa using hlast⟩

end Chunks
