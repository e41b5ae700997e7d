import Mathlib.Data.List.Infix

/-!
# Searching a list for a pattern

`windows n s` are the sublists of `n` adjacent elements, in their order, and a pattern occurs in
a list when it is one of them. A list that grows at its end has to be searched again only from
one element less than the length of the pattern before its old end: an occurrence that is new
ends in the added part.

`cut pat s` is what stands before and after the first occurrence.
-/

namespace Search

variable {α : Type*}

/-- The sublists of `n` adjacent elements, for a positive `n`. -/
def windows (n : Nat) : List α → List (List α)
  | [] => []
  | a :: s => if n ≤ (a :: s).length then (a :: s).take n :: windows n s else []

/-- What stands before and after the first occurrence of a pattern that is not empty. -/
def cut [DecidableEq α] (pat : List α) : List α → Option (List α × List α)
  | [] => none
  | a :: s =>
      if pat <+: a :: s then some ([], (a :: s).drop pat.length)
      else (cut pat s).map fun parts => (a :: parts.1, parts.2)

variable {pat s t : List α}

/-- The windows are the infixes of their length. -/
theorem mem_windows_iff {w : List α} {n : Nat} (hn : 0 < n) :
    w ∈ windows n s ↔ w.length = n ∧ w <:+: s := by
  induction s with
  | nil =>
      constructor
      · intro h
        cases h
      · rintro ⟨hlength, hfound⟩
        rw [List.infix_nil.mp hfound, List.length_nil] at hlength
        omega
  | cons a s ih =>
      rw [windows]
      split
      · rename_i hle
        rw [List.mem_cons, ih, List.infix_cons_iff]
        constructor
        · rintro (rfl | ⟨hlength, hfound⟩)
          · exact ⟨List.length_take_of_le hle, .inl (List.take_prefix _ _)⟩
          · exact ⟨hlength, .inr hfound⟩
        · rintro ⟨rfl, hstarts | hfound⟩
          · exact .inl (List.prefix_iff_eq_take.mp hstarts)
          · exact .inr ⟨rfl, hfound⟩
      · rename_i hlt
        constructor
        · intro h
          cases h
        · rintro ⟨rfl, hfound⟩
          exact absurd hfound.length_le hlt

/-- A pattern occurs when a window of its length is equal to it. -/
theorem any_windows_iff [DecidableEq α] (hpat : pat ≠ []) :
    (windows pat.length s).any (fun w => decide (w = pat)) = true ↔ pat <:+: s := by
  have hpos : 0 < pat.length := List.length_pos_iff.mpr hpat
  rw [List.any_eq_true]
  constructor
  · rintro ⟨w, hw, heq⟩
    obtain rfl := of_decide_eq_true heq
    exact ((mem_windows_iff hpos).mp hw).2
  · intro h
    exact ⟨pat, (mem_windows_iff hpos).mpr ⟨rfl, h⟩, decide_eq_true rfl⟩

/-- An occurrence in a list that has grown is old, or it begins less than the length of the
pattern before the old end. -/
theorem infix_append_iff_overlap (hpat : pat ≠ []) :
    pat <:+: s ++ t ↔ pat <:+: s ∨ pat <:+: s.drop (s.length - (pat.length - 1)) ++ t := by
  constructor
  · intro h
    obtain h | h | ⟨p, q, -, hq, rfl, hp, hqt⟩ := List.infix_append_iff_ne_nil.mp h
    · exact .inl h
    · exact .inr (List.infix_append_of_infix_right h)
    · right
      -- the part in the old list is shorter than the pattern
      have hqpos : 0 < q.length := List.length_pos_iff.mpr hq
      have hdrop : p <:+ s.drop (s.length - ((p ++ q).length - 1)) := by
        apply List.suffix_of_suffix_length_le hp (List.drop_suffix _ _)
        have hle := hp.length_le
        simp only [List.length_drop, List.length_append]
        omega
      exact List.infix_append_iff.mpr (.inr (.inr ⟨p, q, rfl, hdrop, hqt⟩))
  · rintro (h | h)
    · exact List.infix_append_of_infix_left h
    · refine h.trans ⟨s.take (s.length - (pat.length - 1)), [], ?_⟩
      rw [List.append_nil, ← List.append_assoc, List.take_append_drop]

/-- A pattern does not begin in a list without its first element. -/
theorem cons_infix_append_iff {a : α} (h : a ∉ s) : a :: pat <:+: s ++ t ↔ a :: pat <:+: t := by
  induction s with
  | nil => rfl
  | cons b s ih =>
      rw [List.mem_cons, not_or] at h
      rw [List.cons_append, List.infix_cons_iff, ih h.2]
      constructor
      · rintro (hstarts | hfound)
        · exact absurd (List.cons_prefix_cons.mp hstarts).1 h.1
        · exact hfound
      · exact .inr

/-- The first occurrence is one that no other one begins before. -/
theorem cut_append [DecidableEq α] {before after : List α} (hpat : pat ≠ [])
    (hfirst : ¬ pat <:+: before ++ pat.dropLast) :
    cut pat (before ++ pat ++ after) = some (before, after) := by
  induction before with
  | nil =>
      obtain ⟨a, rest, rfl⟩ := List.exists_cons_of_ne_nil hpat
      have hstarts : a :: rest <+: a :: (rest ++ after) := List.prefix_append (a :: rest) after
      rw [List.nil_append, List.cons_append, cut, if_pos hstarts]
      simp
  | cons b before ih =>
      have hnone : ¬ pat <+: b :: (before ++ pat ++ after) := by
        intro hstarts
        have hlong : b :: before ++ pat.dropLast <+: b :: (before ++ pat ++ after) := by
          simp only [List.cons_append, List.append_assoc, List.cons_prefix_cons, true_and,
            List.prefix_append_right_inj]
          exact (List.dropLast_prefix pat).trans (List.prefix_append _ _)
        apply hfirst
        refine (List.prefix_of_prefix_length_le hstarts hlong ?_).isInfix
        simp only [List.cons_append, List.length_cons, List.length_append, List.length_dropLast]
        omega
      have hrest : ¬ pat <:+: before ++ pat.dropLast := fun h => hfirst (List.infix_cons h)
      rw [List.cons_append, List.cons_append, cut, if_neg hnone, ih hrest]
      rfl

end Search
