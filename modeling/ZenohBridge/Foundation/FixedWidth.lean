import Mathlib.Algebra.Group.Nat.Defs
import Mathlib.Data.List.Lex
import Mathlib.Data.Char

/-!
# Zero-padded decimal numbers

A number below `10 ^ width`, written in decimal and padded with zeros on the left,
takes exactly `width` characters. Such numerals compare as text the way the
numbers compare, whatever text follows them.
-/

namespace FixedWidth

/-- The decimal digits of `n`, padded with zeros to at least `width` characters. -/
def zeroPad (width n : Nat) : List Char := (Nat.toDigits 10 n).leftpad width '0'

theorem isDigit_of_mem_zeroPad {width n : Nat} {c : Char} (h : c ∈ zeroPad width n) :
    c.isDigit = true := by
  rw [zeroPad, List.leftpad, List.mem_append] at h
  rcases h with h | h
  · rw [List.eq_of_mem_replicate h]
    rfl
  · exact Nat.isDigit_of_mem_toDigits (by decide) (by decide) h

theorem zeroPad_one {n : Nat} (hn : n < 10) : zeroPad 1 n = [n.digitChar] := by
  rw [zeroPad, Nat.toDigits_of_lt_base hn]
  rfl

/-- The last character is the last digit, the rest is the number without it. -/
theorem zeroPad_succ {width : Nat} (hw : 0 < width) (n : Nat) :
    zeroPad (width + 1) n = zeroPad width (n / 10) ++ [(n % 10).digitChar] := by
  by_cases hn : n < 10
  · have hdiv : n / 10 = 0 := Nat.div_eq_of_lt hn
    have hmod : n % 10 = n := Nat.mod_eq_of_lt hn
    obtain ⟨k, rfl⟩ : ∃ k, width = k + 1 := ⟨width - 1, by omega⟩
    simp only [zeroPad, List.leftpad, Nat.toDigits_of_lt_base hn, hdiv, hmod, Nat.toDigits_zero,
      List.length_singleton, Nat.add_sub_cancel]
    rw [List.replicate_succ', List.append_assoc]
  · have hdigits := Nat.toDigits_of_base_le (b := 10) (by decide) (Nat.le_of_not_lt hn)
    have hlen : (Nat.toDigits 10 n).length = (Nat.toDigits 10 (n / 10)).length + 1 := by
      rw [hdigits, List.length_append, List.length_singleton]
    rw [zeroPad, List.leftpad, hlen, hdigits, Nat.add_sub_add_right, ← List.append_assoc]
    rfl

theorem digitChar_lt {m n : Nat} (hmn : m < n) (hn : n < 10) : m.digitChar < n.digitChar := by
  have hall : ∀ b : Fin 10, ∀ a : Fin 10, a < b → a.val.digitChar < b.val.digitChar := by decide
  exact hall ⟨n, hn⟩ ⟨m, hmn.trans hn⟩ hmn

/-- Numerals of one width are ordered like their numbers, before any suffixes. -/
theorem zeroPad_append_lt {width m n : Nat} (hw : 0 < width) (hmn : m < n)
    (hn : n < 10 ^ width) (x y : List Char) : zeroPad width m ++ x < zeroPad width n ++ y := by
  induction width, hw using Nat.le_induction generalizing m n x y with
  | base =>
      rw [Nat.succ_eq_add_one, Nat.zero_add, Nat.pow_succ, Nat.pow_zero, Nat.one_mul] at hn
      rw [zeroPad_one hn, zeroPad_one (hmn.trans hn)]
      exact List.Lex.rel (digitChar_lt hmn hn)
  | succ width hw ih =>
      rw [zeroPad_succ hw, zeroPad_succ hw, List.append_assoc, List.append_assoc]
      rcases Nat.lt_or_ge (m / 10) (n / 10) with hdiv | hdiv
      · exact ih hdiv (by rw [Nat.div_lt_iff_lt_mul (by decide), ← Nat.pow_succ]; exact hn) _ _
      · have heq : m / 10 = n / 10 := Nat.le_antisymm (Nat.div_le_div_right hmn.le) hdiv
        rw [heq]
        exact List.Lex.append_left _ (List.Lex.rel (digitChar_lt (by omega) (by omega))) _

end FixedWidth
