import Mathlib.Data.List.Basic

/-!
# Operations with deadlines

An operation names the instants at which it goes on by itself. It is on time when none of them
has passed, and stays so when time only passes before the next one.

Two such operations are described, each with the time by which it is over at the latest: a
retried one, whose attempts are bounded by a timeout and separated by pauses, and a poll, which
asks again after a short sleep until its deadline.
-/

namespace Deadline

/-- None of the instants has passed. -/
def OnTime (dues : List Nat) (now : Nat) : Prop := ∀ due ∈ dues, now ≤ due

/-- One of the instants has come. -/
def expired (dues : List Nat) (now : Nat) : Bool := dues.any (decide <| · ≤ now)

variable {dues dues' : List Nat} {now : Nat}

theorem onTime_nil : OnTime [] now := by
  intro due hdue
  cases hdue

theorem onTime_cons {due : Nat} : OnTime (due :: dues) now ↔ now ≤ due ∧ OnTime dues now :=
  List.forall_mem_cons

theorem onTime_append : OnTime (dues ++ dues') now ↔ OnTime dues now ∧ OnTime dues' now :=
  List.forall_mem_append

theorem onTime_singleton {due : Nat} : OnTime [due] now ↔ now ≤ due := by
  rw [onTime_cons, and_iff_left onTime_nil]

theorem expired_append :
    expired (dues ++ dues') now = false ↔ expired dues now = false ∧ expired dues' now = false := by
  rw [expired, List.any_append, Bool.or_eq_false_iff]
  rfl

theorem expired_cons {due : Nat} : expired (due :: dues) now = true ↔
    due ≤ now ∨ expired dues now = true := by
  simp only [expired, List.any_cons, Bool.or_eq_true, decide_eq_true_eq]

theorem expired_singleton {due : Nat} : expired [due] now = true ↔ due ≤ now := by
  simp [expired]

theorem not_expired_nil : ¬expired [] now = true := Bool.false_ne_true

theorem expired_append_iff : expired (dues ++ dues') now = true ↔
    expired dues now = true ∨ expired dues' now = true := by
  rw [expired, List.any_append, Bool.or_eq_true]
  rfl

/-- Time passes only while nothing is due. -/
theorem OnTime.tick (h : expired dues now = false) : OnTime dues (now + 1) := by
  intro due hdue
  simp only [expired, List.any_eq_false, decide_eq_true_eq] at h
  exact Nat.lt_of_not_le (h due hdue)

/-- The pauses of an exponential backoff. -/
def exponential (cap : Nat) : Nat → Nat → List Nat
  | _, 0 => []
  | pause, times + 1 => min pause cap :: exponential cap (2 * pause) times

/-- A retried operation, with the pauses left. -/
inductive Retry where
  | trying (since : Nat) (left : List Nat)
  | pausing (wakeAt : Nat) (left : List Nat)
  | succeeded
  | failed
  deriving DecidableEq, Repr

inductive RetryAction where
  | succeed
  | fail
  | wake
  deriving DecidableEq, Repr

namespace Retry

/-- An attempt ends at any time, a pause when it has passed. -/
def step (now : Nat) : Retry → RetryAction → Option Retry
  | .trying _ _, .succeed => some .succeeded
  | .trying _ [], .fail => some .failed
  | .trying _ (pause :: left), .fail => some (.pausing (now + pause) left)
  | .pausing wakeAt left, .wake => if wakeAt ≤ now then some (.trying now left) else none
  | _, _ => none

/-- The end of the attempt or of the pause. -/
def instants (timeout : Nat) : Retry → List Nat
  | .trying since _ => [since + timeout]
  | .pausing wakeAt _ => [wakeAt]
  | .succeeded | .failed => []

/-- The steps that are taken when an instant has come: an attempt fails at its end. -/
def forced (timeout now : Nat) : Retry → RetryAction → Bool
  | .trying since _, .fail => decide (since + timeout ≤ now)
  | .pausing _ _, .wake => true
  | _, _ => false

/-- What the pauses left and the attempts after them can take. -/
def span (timeout : Nat) : List Nat → Nat
  | [] => 0
  | pause :: left => pause + timeout + span timeout left

/-- The time by which the operation is over. -/
def latest (timeout : Nat) : Retry → Nat
  | .trying since left => since + timeout + span timeout left
  | .pausing wakeAt left => wakeAt + timeout + span timeout left
  | .succeeded | .failed => 0

/-- The attempts that may still begin. -/
def attemptsLeft : Retry → Nat
  | .trying _ left => left.length
  | .pausing _ left => left.length + 1
  | .succeeded | .failed => 0

/-- Everything that a step can do, with what it requires. -/
inductive Moved (now : Nat) : Retry → RetryAction → Retry → Prop
  | succeeded (since : Nat) (left : List Nat) : Moved now (.trying since left) .succeed .succeeded
  | failed (since : Nat) : Moved now (.trying since []) .fail .failed
  | paused (since pause : Nat) (left : List Nat) :
      Moved now (.trying since (pause :: left)) .fail (.pausing (now + pause) left)
  | woken (wakeAt : Nat) (left : List Nat) (due : wakeAt ≤ now) :
      Moved now (.pausing wakeAt left) .wake (.trying now left)

variable {timeout : Nat} {s s' : Retry} {a : RetryAction}

/-- Inversion of a step. -/
theorem moved_of_step (h : s.step now a = some s') : Moved now s a s' := by
  cases s with
  | trying since left =>
      cases a with
      | succeed =>
          obtain rfl := Option.some.inj h
          exact .succeeded since left
      | fail =>
          cases left with
          | nil =>
              obtain rfl := Option.some.inj h
              exact .failed since
          | cons pause left =>
              obtain rfl := Option.some.inj h
              exact .paused since pause left
      | wake => cases h
  | pausing wakeAt left =>
      cases a with
      | wake =>
          simp only [step, Option.ite_none_right_eq_some] at h
          obtain ⟨hdue, h⟩ := h
          obtain rfl := Option.some.inj h
          exact .woken wakeAt left hdue
      | succeed | fail => cases h
  | succeeded | failed => cases h

/-- An instant has come exactly when a step is taken for it. -/
theorem expired_iff : expired (s.instants timeout) now = true ↔
    ∃ a, s.forced timeout now a = true ∧ (s.step now a).isSome = true := by
  cases s with
  | trying since left =>
      simp only [instants, expired_singleton]
      constructor
      · intro hdue
        refine ⟨.fail, decide_eq_true hdue, ?_⟩
        cases left <;> rfl
      · rintro ⟨_ | _ | _, hforced, -⟩
        · cases hforced
        · exact of_decide_eq_true hforced
        · cases hforced
  | pausing wakeAt left =>
      simp only [instants, expired_singleton]
      constructor
      · intro hdue
        exact ⟨.wake, rfl, by simp [step, hdue]⟩
      · rintro ⟨a, hforced, hstep⟩
        obtain ⟨s', hs⟩ := Option.isSome_iff_exists.mp hstep
        cases moved_of_step hs with
        | woken _ _ hdue => exact hdue
  | succeeded | failed =>
      refine iff_of_false not_expired_nil ?_
      rintro ⟨a, hforced, -⟩
      cases hforced

/-- The timers of a step are set from now on. -/
theorem onTime_step (h : s.step now a = some s') : OnTime (s'.instants timeout) now := by
  cases moved_of_step h with
  | succeeded | failed => exact onTime_nil
  | paused | woken => exact onTime_singleton.mpr (Nat.le_add_right _ _)

/-- A step that is on time leaves the end where it was, or brings it closer. -/
theorem latest_step (h : s.step now a = some s') (hnow : OnTime (s.instants timeout) now) :
    s'.latest timeout ≤ s.latest timeout := by
  cases moved_of_step h with
  | succeeded | failed => exact Nat.zero_le _
  | paused since pause left =>
      have hdue : now ≤ since + timeout := onTime_singleton.mp hnow
      simp only [latest, span]
      omega
  | woken wakeAt left hdue =>
      have hle : now ≤ wakeAt := onTime_singleton.mp hnow
      simp only [latest]
      omega

/-- An operation that is not over has not passed its end. -/
theorem le_latest (hnow : OnTime (s.instants timeout) now)
    (hrunning : s ≠ .succeeded ∧ s ≠ .failed) : now ≤ s.latest timeout := by
  cases s with
  | trying since left =>
      have hdue : now ≤ since + timeout := onTime_singleton.mp hnow
      exact Nat.le_trans hdue (Nat.le_add_right _ _)
  | pausing wakeAt left =>
      have hdue : now ≤ wakeAt := onTime_singleton.mp hnow
      simp only [latest]
      omega
  | succeeded => exact absurd rfl hrunning.1
  | failed => exact absurd rfl hrunning.2

/-- A wake begins an attempt. -/
theorem attemptsLeft_step (h : s.step now a = some s') :
    s'.attemptsLeft + (if a = .wake then 1 else 0) ≤ s.attemptsLeft := by
  cases moved_of_step h with
  | succeeded | failed => exact Nat.zero_le _
  | paused | woken => exact Nat.le_refl _

end Retry

/-- A poll until a deadline, which sleeps for one unit of time between two queries. -/
inductive Poll where
  | querying (deadline : Nat)
  | sleeping (wakeAt deadline : Nat)
  | found
  | missed
  deriving DecidableEq, Repr

inductive PollAction where
  /-- The query has come back. -/
  | answer (yes : Bool)
  /-- The query has not come back by the deadline. -/
  | timeout
  | wake
  deriving DecidableEq, Repr

/-- The steps that are taken when an instant has come. -/
def PollAction.own : PollAction → Bool
  | .timeout | .wake => true
  | .answer _ => false

namespace Poll

/-- After a query without success the poll gives up or sleeps. -/
def again (now deadline : Nat) : Poll :=
  if deadline ≤ now then .missed else .sleeping (now + 1) deadline

def step (now : Nat) : Poll → PollAction → Option Poll
  | .querying deadline, .answer yes => some (if yes then .found else again now deadline)
  | .querying deadline, .timeout => if deadline ≤ now then some (again now deadline) else none
  | .sleeping wakeAt deadline, .wake => if wakeAt ≤ now then some (.querying deadline) else none
  | _, _ => none

/-- The timeout of the query or the end of the sleep. -/
def instants : Poll → List Nat
  | .querying deadline => [deadline]
  | .sleeping wakeAt _ => [wakeAt]
  | .found | .missed => []

/-- The poll is over, or holds to its deadline. -/
def Until (deadline : Nat) : Poll → Prop
  | .querying deadline' => deadline' = deadline
  | .sleeping wakeAt deadline' => deadline' = deadline ∧ wakeAt ≤ deadline
  | .found | .missed => True

/-- Everything that a step can do, with what it requires. -/
inductive Moved (now : Nat) : Poll → PollAction → Poll → Prop
  | found (deadline : Nat) : Moved now (.querying deadline) (.answer true) .found
  | missed (deadline : Nat) (a : PollAction) (due : deadline ≤ now) :
      Moved now (.querying deadline) a .missed
  | slept (deadline : Nat) (a : PollAction) (early : now < deadline) :
      Moved now (.querying deadline) a (.sleeping (now + 1) deadline)
  | woken (wakeAt deadline : Nat) (due : wakeAt ≤ now) :
      Moved now (.sleeping wakeAt deadline) .wake (.querying deadline)

variable {deadline : Nat} {s s' : Poll} {a : PollAction}

theorem moved_again : Moved now (.querying deadline) a (again now deadline) := by
  rw [again]
  split
  · next hdue => exact .missed deadline a hdue
  · next hearly => exact .slept deadline a (Nat.lt_of_not_le hearly)

/-- Inversion of a step. -/
theorem moved_of_step (h : s.step now a = some s') : Moved now s a s' := by
  cases s with
  | querying deadline =>
      cases a with
      | answer yes =>
          obtain rfl := Option.some.inj h
          cases yes with
          | true => exact .found deadline
          | false => exact moved_again
      | timeout =>
          simp only [step, Option.ite_none_right_eq_some] at h
          obtain rfl := Option.some.inj h.2
          exact moved_again
      | wake => cases h
  | sleeping wakeAt deadline =>
      cases a with
      | wake =>
          simp only [step, Option.ite_none_right_eq_some] at h
          obtain rfl := Option.some.inj h.2
          exact .woken wakeAt deadline h.1
      | answer | timeout => cases h
  | found | missed => cases h

/-- An instant has come exactly when a step is taken for it. -/
theorem expired_iff : expired s.instants now = true ↔
    ∃ a : PollAction, a.own = true ∧ (s.step now a).isSome = true := by
  cases s with
  | querying deadline =>
      simp only [instants, expired_singleton]
      constructor
      · intro hdue
        exact ⟨.timeout, rfl, by simp [step, hdue]⟩
      · rintro ⟨_ | _ | _, hown, hstep⟩
        · cases hown
        · simpa [step] using hstep
        · cases hstep
  | sleeping wakeAt deadline =>
      simp only [instants, expired_singleton]
      constructor
      · intro hdue
        exact ⟨.wake, rfl, by simp [step, hdue]⟩
      · rintro ⟨_ | _ | _, hown, hstep⟩
        · cases hown
        · cases hstep
        · simpa [step] using hstep
  | found | missed =>
      refine iff_of_false not_expired_nil ?_
      rintro ⟨_ | _ | _, -, hstep⟩ <;> cases hstep

/-- The deadline stays, and the poll misses it only when it has come. -/
theorem Until.step (h : s.Until deadline) (hs : s.step now a = some s') :
    s'.Until deadline ∧ (s' = .missed → deadline ≤ now) := by
  cases moved_of_step hs with
  | found => exact ⟨trivial, nofun⟩
  | missed d _ hdue =>
      obtain rfl : d = deadline := h
      exact ⟨trivial, fun _ => hdue⟩
  | slept d _ hearly =>
      obtain rfl : d = deadline := h
      exact ⟨⟨rfl, hearly⟩, nofun⟩
  | woken wakeAt d hdue =>
      obtain ⟨rfl, hle⟩ : d = deadline ∧ wakeAt ≤ deadline := h
      exact ⟨rfl, nofun⟩

/-- The timers of a step are set from now on. -/
theorem onTime_step (h : s.Until deadline) (hnow : OnTime s.instants now)
    (hs : s.step now a = some s') : OnTime s'.instants now := by
  cases moved_of_step hs with
  | found | missed => exact onTime_nil
  | slept => exact onTime_singleton.mpr (Nat.le_add_right _ _)
  | woken wakeAt d hdue =>
      obtain ⟨rfl, hle⟩ : d = deadline ∧ wakeAt ≤ deadline := h
      have hnow : now ≤ wakeAt := onTime_singleton.mp hnow
      exact onTime_singleton.mpr (Nat.le_trans hnow hle)

/-- A poll that is not over has not passed its deadline. -/
theorem Until.le (h : s.Until deadline) (hnow : OnTime s.instants now)
    (hrunning : s ≠ .found ∧ s ≠ .missed) : now ≤ deadline := by
  cases s with
  | querying d =>
      obtain rfl : d = deadline := h
      exact onTime_singleton.mp hnow
  | sleeping wakeAt d =>
      obtain ⟨rfl, hle⟩ : d = deadline ∧ wakeAt ≤ deadline := h
      exact Nat.le_trans (onTime_singleton.mp hnow) hle
  | found => exact absurd rfl hrunning.1
  | missed => exact absurd rfl hrunning.2

end Poll

end Deadline
