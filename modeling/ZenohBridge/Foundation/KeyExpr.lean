import Mathlib.Data.List.Forall2
import Mathlib.Data.List.DropRight

/-!
# Segmented keys and one-segment wildcards

A key is a list of segments joined by a separator. A pattern is a key in which a
segment may be the wildcard, which stands for exactly one segment of any content.
Segments that do not contain the separator can be read back from the joined key, so
equality and matching of keys are questions about lists of segments.
-/

namespace KeyExpr

variable {α : Type*}

/-- The segments of a key, joined by the separator. -/
def join (sep : α) (segments : List (List α)) : List α := [sep].intercalate segments

variable [DecidableEq α]

/-- What stands after the last separator of a key. -/
def lastSegment (sep : α) (key : List α) : List α := key.rtakeWhile fun c => decide (c ≠ sep)

/-- The pattern matches the key, segment by segment. -/
def Matches (sep star : α) (pattern key : List α) : Prop :=
  List.Forall₂ (fun p k => p = [star] ∨ p = k) (pattern.splitOn sep) (key.splitOn sep)

/-- None of the segments contains the separator, and there is at least one. -/
structure Plain (sep : α) (segments : List (List α)) : Prop where
  ne_nil : segments ≠ []
  free : ∀ s ∈ segments, sep ∉ s

variable {sep star : α} {xs ys : List (List α)}

theorem splitOn_join (h : Plain sep xs) : (join sep xs).splitOn sep = xs :=
  List.splitOn_intercalate sep h.free h.ne_nil

/-- A joined key determines its segments. -/
theorem join_inj (hx : Plain sep xs) (hy : Plain sep ys) : join sep xs = join sep ys ↔ xs = ys := by
  constructor
  · intro h
    rw [← splitOn_join hx, h, splitOn_join hy]
  · exact congrArg (join sep)

/-- Matching joined keys is matching their segments. -/
theorem matches_join (hx : Plain sep xs) (hy : Plain sep ys) :
    Matches sep star (join sep xs) (join sep ys) ↔
      List.Forall₂ (fun p k => p = [star] ∨ p = k) xs ys := by
  rw [Matches, splitOn_join hx, splitOn_join hy]

/-- The last segment is read back from a joined key. -/
theorem lastSegment_append {s : List α} (h : sep ∉ s) (front : List α) :
    lastSegment sep (front ++ sep :: s) = s := by
  have hplain : ∀ c ∈ s.reverse, decide (c ≠ sep) = true := by
    intro c hc
    have hne : c ≠ sep := fun heq => h (heq ▸ List.mem_reverse.mp hc)
    exact decide_eq_true hne
  have hkey : (front ++ sep :: s).reverse = s.reverse ++ sep :: front.reverse := by simp
  rw [lastSegment, List.rtakeWhile, hkey, List.takeWhile_append_of_pos hplain]
  simp

end KeyExpr
