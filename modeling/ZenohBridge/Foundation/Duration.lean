import Mathlib.Algebra.Group.Nat.Defs

/-!
# Durations and points in time

A duration is a number of seconds of 64 bits and a number of nanoseconds below one second. A
point in time is the duration since the origin of its clock, and a clock may hold fewer seconds
than a duration does.

An operation adds or scales the nanoseconds altogether. It has no result, and its caller stops
there, when the seconds of the exact value do not fit.
-/

structure Duration where
  secs : Nat
  nanos : Nat
  secs_lt : secs < 2 ^ 64
  nanos_lt : nanos < 10 ^ 9
  deriving DecidableEq

namespace Duration

/-- Whole seconds and nanoseconds, with the seconds among the nanoseconds carried over. -/
def new (secs nanos : Nat) : Option Duration :=
  if h : secs + nanos / 10 ^ 9 < 2 ^ 64 then
    some ⟨secs + nanos / 10 ^ 9, nanos % 10 ^ 9, h, Nat.mod_lt _ (by decide)⟩
  else none

def fromSecs (secs : Nat) (h : secs < 2 ^ 64) : Duration := ⟨secs, 0, h, by decide⟩

def fromMillis (millis : Nat) (h : millis < 2 ^ 64) : Duration where
  secs := millis / 1000
  nanos := millis % 1000 * 10 ^ 6
  secs_lt := by omega
  nanos_lt := by omega

def add (d e : Duration) : Option Duration := new (d.secs + e.secs) (d.nanos + e.nanos)

def mul (d : Duration) (k : Nat) : Option Duration := new (d.secs * k) (d.nanos * k)

/-- The larger one; the seconds are compared first. -/
def max (d e : Duration) : Duration :=
  if d.secs < e.secs ∨ d.secs = e.secs ∧ d.nanos ≤ e.nanos then e else d

/-- A duration in nanoseconds. -/
def toNanos (d : Duration) : Nat := d.secs * 10 ^ 9 + d.nanos

theorem toNanos_fromSecs (secs : Nat) (h : secs < 2 ^ 64) :
    (fromSecs secs h).toNanos = secs * 10 ^ 9 := Nat.add_zero _

theorem toNanos_fromMillis (millis : Nat) (h : millis < 2 ^ 64) :
    (fromMillis millis h).toNanos = millis * 10 ^ 6 := by
  change millis / 1000 * 10 ^ 9 + millis % 1000 * 10 ^ 6 = millis * 10 ^ 6
  omega

theorem isSome_new {secs nanos : Nat} :
    (new secs nanos).isSome ↔ secs * 10 ^ 9 + nanos < 2 ^ 64 * 10 ^ 9 := by
  rw [new]
  split
  · rename_i h
    exact iff_of_true rfl (by omega)
  · rename_i h
    exact iff_of_false Bool.false_ne_true (by omega)

theorem toNanos_of_new {secs nanos : Nat} {d : Duration} (h : new secs nanos = some d) :
    d.toNanos = secs * 10 ^ 9 + nanos := by
  rw [new] at h
  split at h
  · cases h
    change (secs + nanos / 10 ^ 9) * 10 ^ 9 + nanos % 10 ^ 9 = secs * 10 ^ 9 + nanos
    omega
  · contradiction

/-- A sum exists exactly when its nanoseconds fit. -/
theorem isSome_add {d e : Duration} :
    (d.add e).isSome ↔ d.toNanos + e.toNanos < 2 ^ 64 * 10 ^ 9 := by
  rw [add, isSome_new, toNanos, toNanos]
  omega

theorem toNanos_of_add {d e f : Duration} (h : d.add e = some f) :
    f.toNanos = d.toNanos + e.toNanos := by
  have hnew := toNanos_of_new h
  rw [hnew, toNanos, toNanos]
  omega

/-- A multiple exists exactly when its nanoseconds fit. -/
theorem isSome_mul {d : Duration} {k : Nat} :
    (d.mul k).isSome ↔ d.toNanos * k < 2 ^ 64 * 10 ^ 9 := by
  rw [mul, isSome_new, toNanos, Nat.add_mul, Nat.mul_right_comm]

theorem toNanos_max (d e : Duration) :
    (d.max e).toNanos = Max.max d.toNanos e.toNanos := by
  have hd := d.nanos_lt
  have he := e.nanos_lt
  rw [max]
  split
  · rename_i hle
    refine (Nat.max_eq_right ?_).symm
    simp only [toNanos]
    omega
  · rename_i hlt
    refine (Nat.max_eq_left ?_).symm
    simp only [toNanos]
    omega

end Duration

/-- A point in time of a clock that holds seconds below `limit`. -/
structure Instant (limit : Nat) where
  sinceOrigin : Duration
  secs_lt : sinceOrigin.secs < limit

namespace Instant

variable {limit : Nat}

def add (t : Instant limit) (d : Duration) : Option (Instant limit) :=
  (t.sinceOrigin.add d).bind fun since => if h : since.secs < limit then some ⟨since, h⟩ else none

/-- A later point exists exactly when the duration and the clock both hold its seconds. -/
theorem isSome_add {t : Instant limit} {d : Duration} :
    (t.add d).isSome ↔
      t.sinceOrigin.toNanos + d.toNanos < min limit (2 ^ 64) * 10 ^ 9 := by
  cases hadd : t.sinceOrigin.add d with
  | none =>
      have hlarge : ¬t.sinceOrigin.toNanos + d.toNanos < 2 ^ 64 * 10 ^ 9 := by
        rw [← Duration.isSome_add, hadd]
        exact Bool.false_ne_true
      have hmin : min limit (2 ^ 64) * 10 ^ 9 ≤ 2 ^ 64 * 10 ^ 9 :=
        Nat.mul_le_mul_right _ (Nat.min_le_right _ _)
      rw [add, hadd]
      exact iff_of_false Bool.false_ne_true fun h => hlarge (Nat.lt_of_lt_of_le h hmin)
  | some since =>
      have hsum := Duration.toNanos_of_add hadd
      have hsecs := since.secs_lt
      have hnanos := since.nanos_lt
      rw [Duration.toNanos] at hsum
      rw [add, hadd, Option.bind_some]
      split
      · exact iff_of_true rfl (by omega)
      · exact iff_of_false Bool.false_ne_true (by omega)

theorem toNanos_of_add {t u : Instant limit} {d : Duration} (h : t.add d = some u) :
    u.sinceOrigin.toNanos = t.sinceOrigin.toNanos + d.toNanos := by
  obtain ⟨since, hadd, hfits⟩ := Option.bind_eq_some_iff.mp h
  split at hfits
  · cases hfits
    exact Duration.toNanos_of_add hadd
  · contradiction

/-- Two durations can be added one after the other exactly when the last point exists. -/
theorem isSome_add_add {t : Instant limit} {d e : Duration} :
    ((t.add d).bind fun u => u.add e).isSome ↔
      t.sinceOrigin.toNanos + d.toNanos + e.toNanos < min limit (2 ^ 64) * 10 ^ 9 := by
  cases hadd : t.add d with
  | none =>
      have hlarge : ¬t.sinceOrigin.toNanos + d.toNanos < min limit (2 ^ 64) * 10 ^ 9 := by
        rw [← isSome_add, hadd]
        exact Bool.false_ne_true
      exact iff_of_false Bool.false_ne_true (by omega)
  | some u =>
      rw [Option.bind_some, isSome_add, toNanos_of_add hadd]

end Instant
