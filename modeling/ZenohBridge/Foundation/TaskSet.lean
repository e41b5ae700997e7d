import Mathlib.Data.List.Basic
import Mathlib.Data.List.Count

/-!
# Sets of tasks that end and are joined

An owner spawns tasks into a set. A task ends by itself, and its entry stays in the set with
the result until the owner joins it. The number of running tasks and the size of the set are
all that a caller has to know of the three operations.
-/

namespace TaskSet

variable {ε : Type*}

/-- A running task is `none`, an ended one that was not joined is its result. -/
abbrev Tasks (ε : Type*) := List (Option ε)

def running (tasks : Tasks ε) : Nat := tasks.countP Option.isNone

/-- A join would return at once. -/
def joinable (tasks : Tasks ε) : Bool := tasks.any Option.isSome

def spawn (tasks : Tasks ε) : Tasks ε := tasks ++ [none]

/-- A running task ends. -/
def finish (i : Nat) (result : ε) (tasks : Tasks ε) : Option (Tasks ε) :=
  match tasks[i]? with
  | some none => some (tasks.set i (some result))
  | _ => none

/-- An ended task leaves the set. -/
def join (i : Nat) (tasks : Tasks ε) : Option (Tasks ε) :=
  match tasks[i]? with
  | some (some _) => some (tasks.eraseIdx i)
  | _ => none

variable {tasks tasks' : Tasks ε} {i : Nat} {result : ε}

@[simp] theorem running_nil : running ([] : Tasks ε) = 0 := rfl

@[simp] theorem running_spawn : running (spawn tasks) = running tasks + 1 := by
  simp [running, spawn]

@[simp] theorem length_spawn : (spawn tasks).length = tasks.length + 1 := by
  simp [spawn]

theorem running_le_length : running tasks ≤ tasks.length := List.countP_le_length

theorem joinable_eq_false_iff : joinable tasks = false ↔ running tasks = tasks.length := by
  rw [joinable, running, List.countP_eq_length, List.any_eq_false]
  simp

theorem finish_eq_some (h : finish i result tasks = some tasks') :
    tasks[i]? = some none ∧ tasks' = tasks.set i (some result) := by
  rw [finish] at h
  split at h
  · next hi => exact ⟨hi, (Option.some.inj h).symm⟩
  · cases h

theorem join_eq_some (h : join i tasks = some tasks') :
    ∃ result, tasks[i]? = some (some result) ∧ tasks' = tasks.eraseIdx i := by
  rw [join] at h
  split at h
  · next result hi => exact ⟨result, hi, (Option.some.inj h).symm⟩
  · cases h

/-- A join returns at once exactly when some ended task can be joined. -/
theorem joinable_iff : joinable tasks = true ↔ ∃ i, (join i tasks).isSome = true := by
  rw [joinable, List.any_eq_true]
  constructor
  · rintro ⟨task, hmem, htask⟩
    obtain ⟨i, hi⟩ := List.mem_iff_getElem?.mp hmem
    obtain ⟨result, rfl⟩ := Option.isSome_iff_exists.mp htask
    refine ⟨i, ?_⟩
    rw [join, hi]
    rfl
  · rintro ⟨i, hi⟩
    obtain ⟨left, hjoin⟩ := Option.isSome_iff_exists.mp hi
    obtain ⟨result, hget, -⟩ := join_eq_some hjoin
    exact ⟨some result, List.mem_of_getElem? hget, rfl⟩

/-- An ended task is not running, and it stays in the set. -/
theorem running_finish (h : finish i result tasks = some tasks') :
    running tasks = running tasks' + 1 ∧ tasks'.length = tasks.length := by
  obtain ⟨hi, rfl⟩ := finish_eq_some h
  obtain ⟨hlt, hget⟩ := List.getElem?_eq_some_iff.mp hi
  have hpos : 0 < running tasks :=
    List.countP_pos_iff.mpr ⟨none, List.mem_of_getElem? hi, rfl⟩
  have hset := List.countP_set (p := Option.isNone) (a := some result) hlt
  rw [hget] at hset
  simp only [Option.isNone_none, Option.isNone_some, if_true, Bool.false_eq_true, if_false] at hset
  constructor
  · simp only [running] at hpos ⊢
    omega
  · exact List.length_set

/-- A join takes an ended task out of the set and no running one. -/
theorem running_join (h : join i tasks = some tasks') :
    running tasks' = running tasks ∧ tasks.length = tasks'.length + 1 := by
  obtain ⟨result, hi, rfl⟩ := join_eq_some h
  obtain ⟨hlt, hget⟩ := List.getElem?_eq_some_iff.mp hi
  constructor
  · have hsplit : tasks = tasks.take i ++ tasks[i] :: tasks.drop (i + 1) := by simp
    have hboth : running tasks = running (tasks.take i ++ tasks[i] :: tasks.drop (i + 1)) :=
      congrArg running hsplit
    rw [hboth, List.eraseIdx_eq_take_drop_succ, hget]
    simp [running]
  · rw [List.length_eraseIdx_of_lt hlt]
    omega

end TaskSet
