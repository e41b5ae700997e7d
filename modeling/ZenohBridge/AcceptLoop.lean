import ZenohBridge.Foundation.Execution
import ZenohBridge.Foundation.TaskSet

/-!
# The accept loop of a listener

`run_accept_loop` takes a permit, accepts a connection and spawns its task, which owns the
permit until it ends. Ended tasks are joined while the loop waits for an accept and at the end
of each turn. On shutdown `drain_tasks` waits, cancels the connections, waits again and aborts
what is left.

The labels carry the choices of `select!`, the outcomes of the socket calls and the ends of the
tasks. Time is a step of its own that may be taken at any moment; a run is prompt when no time
passes while the loop could go on.

## Implementation notes

Time is in milliseconds. A task releases its permit and can be joined from the same step on. A
permit that is released while the loop waits for one is available to it, as in the semaphore.
The configuration is one with which the loop can run: above the limit of a semaphore for
`maxConnections`, or of the clock for `drainTimeout`, it would panic, which no state shows here.
`drainedAt`, `cancelledAt` and `abortedAt` are history, and so is `lateErrors`, the number of
accepts that failed after shutdown was requested.
-/

namespace ZenohBridge

open Execution TaskSet

/-- How a connection task ended. -/
inductive TaskEnd where
  | returned
  | panicked
  | aborted
  deriving DecidableEq, Repr

/-- Where `run_accept_loop` is. -/
inductive LoopStage where
  /-- Before the socket is bound. -/
  | binding
  /-- The first select: a permit, or shutdown. -/
  | acquiring
  /-- The second select, with a permit in hand. -/
  | accepting
  /-- The sleep after a failed accept. -/
  | backingOff (wakeAt : Nat)
  /-- The `try_join_next` loop at the end of a turn. -/
  | reaping
  /-- `drain_tasks` in its voluntary window. -/
  | draining (deadline : Nat)
  /-- `drain_tasks` after it has cancelled the connections. -/
  | cancelled (grace : Nat)
  | stopped
  /-- The listener has returned an error before it was bound. -/
  | failed
  deriving DecidableEq, Repr

/-- What the accept loop reads of its configuration. -/
structure AcceptConfig where
  maxConnections : Nat
  drainTimeout : Nat

/-- The clock and the shutdown token, which belong to the process. -/
structure Surroundings where
  now : Nat
  shutdown : Bool
  deriving DecidableEq, Repr

/-- The loop with its semaphore and its set of connection tasks. -/
structure AcceptLoop where
  stage : LoopStage
  available : Nat
  tasks : Tasks TaskEnd
  connShutdown : Bool
  drainedAt : Option Nat
  cancelledAt : Option Nat
  abortedAt : Option Nat
  lateErrors : Nat
  deriving DecidableEq, Repr

inductive LoopAction where
  | bind (ok : Bool)
  | acquire
  | accept
  | acceptError
  | wake
  /-- An ended task is joined, by the select, the reaping loop or the drain. -/
  | reap (i : Nat)
  /-- `try_join_next` has nothing left. -/
  | reaped
  /-- The select arm of the shutdown token. -/
  | notice
  /-- The deadline of `drain_tasks`, or its grace, has passed. -/
  | deadline
  | taskEnds (i : Nat) (result : TaskEnd)
  deriving DecidableEq, Repr

/-- The steps that the loop takes by itself. The others are taken by its socket and its tasks. -/
def LoopAction.own : LoopAction → Bool
  | .acquire | .wake | .reap _ | .reaped | .notice | .deadline => true
  | .bind _ | .accept | .acceptError | .taskEnds _ _ => false

namespace AcceptLoop

/-- The sleep after a failed accept. -/
def acceptBackoff : Nat := 100

/-- The grace between the cancellation of the connections and `abort_all`. -/
def cancelGrace : Nat := 1000

def init (cfg : AcceptConfig) : AcceptLoop :=
  ⟨.binding, cfg.maxConnections, [], false, none, none, none, 0⟩

/-- The permit that the loop itself holds. -/
def held (l : AcceptLoop) : Nat := if l.stage = .accepting then 1 else 0

/-- The head of `drain_tasks`, which returns at once on an empty set. -/
def startDrain (cfg : AcceptConfig) (now : Nat) (l : AcceptLoop) : AcceptLoop :=
  if l.tasks = [] then { l with stage := .stopped, drainedAt := some now }
  else { l with stage := .draining (now + cfg.drainTimeout), drainedAt := some now }

/-- A join in `drain_tasks`, which ends with the last task. -/
def joined (l : AcceptLoop) (tasks : Tasks TaskEnd) : AcceptLoop :=
  { l with tasks := tasks, stage := if tasks = [] then .stopped else l.stage }

/-- One step of the loop or of one of its tasks. -/
def step (cfg : AcceptConfig) (env : Surroundings) (l : AcceptLoop) :
    LoopAction → Option AcceptLoop
  | .bind ok =>
      if l.stage = .binding then some { l with stage := if ok then .acquiring else .failed }
      else none
  | .acquire =>
      if l.stage = .acquiring ∧ 0 < l.available then
        some { l with stage := .accepting, available := l.available - 1 }
      else none
  | .accept =>
      -- the permit moves into the task
      if l.stage = .accepting then some { l with stage := .reaping, tasks := spawn l.tasks }
      else none
  | .acceptError =>
      if l.stage = .accepting then some { l with
        stage := .backingOff (env.now + acceptBackoff)
        available := l.available + 1
        lateErrors := if env.shutdown then l.lateErrors + 1 else l.lateErrors }
      else none
  | .wake =>
      match l.stage with
      | .backingOff wakeAt => if wakeAt ≤ env.now then some { l with stage := .reaping } else none
      | _ => none
  | .reap i =>
      match l.stage with
      | .accepting => (join i l.tasks).map fun tasks =>
          { l with stage := .acquiring, available := l.available + 1, tasks := tasks }
      | .reaping => (join i l.tasks).map fun tasks => { l with tasks := tasks }
      | .draining _ | .cancelled _ => (join i l.tasks).map l.joined
      | _ => none
  | .reaped =>
      if l.stage = .reaping ∧ joinable l.tasks = false then some { l with stage := .acquiring }
      else none
  | .notice =>
      if env.shutdown = true then
        match l.stage with
        | .acquiring => some (l.startDrain cfg env.now)
        | .accepting => some ({ l with available := l.available + 1 }.startDrain cfg env.now)
        | _ => none
      else none
  | .deadline =>
      -- `timeout_at` polls the join first
      if joinable l.tasks = false then
        match l.stage with
        | .draining deadline =>
            if deadline ≤ env.now then some { l with
              stage := .cancelled (env.now + cancelGrace)
              connShutdown := true
              cancelledAt := some env.now }
            else none
        | .cancelled grace =>
            if grace ≤ env.now then some { l with stage := .stopped, abortedAt := some env.now }
            else none
        | _ => none
      else none
  | .taskEnds i result =>
      if result = .aborted ∧ l.abortedAt = none then none
      else (finish i result l.tasks).map fun tasks =>
        { l with available := l.available + 1, tasks := tasks }

/-- The loop can take a step of its own, whatever its socket and its tasks do. -/
def urgent (env : Surroundings) (l : AcceptLoop) : Bool :=
  match l.stage with
  | .acquiring => decide (0 < l.available) || env.shutdown
  | .accepting => joinable l.tasks || env.shutdown
  | .backingOff wakeAt => decide (wakeAt ≤ env.now)
  | .reaping => true
  | .draining deadline => joinable l.tasks || decide (deadline ≤ env.now)
  | .cancelled grace => joinable l.tasks || decide (grace ≤ env.now)
  | .binding | .stopped | .failed => false

/-- Everything that a step can do, with what it requires. -/
inductive Moved (cfg : AcceptConfig) (env : Surroundings) (l : AcceptLoop) :
    LoopAction → AcceptLoop → Prop
  | bound (stage : l.stage = .binding) : Moved cfg env l (.bind true) { l with stage := .acquiring }
  | bindFailed (stage : l.stage = .binding) :
      Moved cfg env l (.bind false) { l with stage := .failed }
  | acquired (stage : l.stage = .acquiring) (free : 0 < l.available) :
      Moved cfg env l .acquire { l with stage := .accepting, available := l.available - 1 }
  | accepted (stage : l.stage = .accepting) :
      Moved cfg env l .accept { l with stage := .reaping, tasks := spawn l.tasks }
  | acceptFailed (stage : l.stage = .accepting) : Moved cfg env l .acceptError { l with
      stage := .backingOff (env.now + acceptBackoff)
      available := l.available + 1
      lateErrors := if env.shutdown then l.lateErrors + 1 else l.lateErrors }
  | woken (wakeAt : Nat) (stage : l.stage = .backingOff wakeAt) (due : wakeAt ≤ env.now) :
      Moved cfg env l .wake { l with stage := .reaping }
  | reapedIdle (i : Nat) (tasks : Tasks TaskEnd) (stage : l.stage = .accepting)
      (out : join i l.tasks = some tasks) : Moved cfg env l (.reap i)
        { l with stage := .acquiring, available := l.available + 1, tasks := tasks }
  | reapedTurn (i : Nat) (tasks : Tasks TaskEnd) (stage : l.stage = .reaping)
      (out : join i l.tasks = some tasks) : Moved cfg env l (.reap i) { l with tasks := tasks }
  | drained (i : Nat) (tasks : Tasks TaskEnd)
      (stage : (∃ deadline, l.stage = .draining deadline) ∨ ∃ grace, l.stage = .cancelled grace)
      (out : join i l.tasks = some tasks) : Moved cfg env l (.reap i) (l.joined tasks)
  | turned (stage : l.stage = .reaping) (none : joinable l.tasks = false) :
      Moved cfg env l .reaped { l with stage := .acquiring }
  | noticed (requested : env.shutdown = true) (stage : l.stage = .acquiring) :
      Moved cfg env l .notice (l.startDrain cfg env.now)
  | noticedHolding (requested : env.shutdown = true) (stage : l.stage = .accepting) :
      Moved cfg env l .notice ({ l with available := l.available + 1 }.startDrain cfg env.now)
  | expired (deadline : Nat) (stage : l.stage = .draining deadline) (due : deadline ≤ env.now)
      (none : joinable l.tasks = false) : Moved cfg env l .deadline { l with
        stage := .cancelled (env.now + cancelGrace)
        connShutdown := true
        cancelledAt := some env.now }
  | gaveUp (grace : Nat) (stage : l.stage = .cancelled grace) (due : grace ≤ env.now)
      (none : joinable l.tasks = false) :
      Moved cfg env l .deadline { l with stage := .stopped, abortedAt := some env.now }
  | ended (i : Nat) (result : TaskEnd) (tasks : Tasks TaskEnd)
      (how : result = .aborted → l.abortedAt ≠ Option.none)
      (out : finish i result l.tasks = some tasks) : Moved cfg env l (.taskEnds i result)
        { l with available := l.available + 1, tasks := tasks }

variable {cfg : AcceptConfig} {env : Surroundings} {l l' : AcceptLoop} {a : LoopAction}

/-- The steps that are no join, deadline or notice have one guard and one result. -/
theorem eq_of_ite_eq_some {c : Prop} [Decidable c] {t t' : AcceptLoop}
    (h : (if c then some t else none) = some t') : c ∧ t = t' := by
  split at h
  · next hc => exact ⟨hc, Option.some.inj h⟩
  · cases h

theorem moved_reap {i : Nat} (h : l.step cfg env (.reap i) = some l') :
    Moved cfg env l (.reap i) l' := by
  simp only [step] at h
  split at h
  · next hstage =>
      obtain ⟨tasks, hout, rfl⟩ := Option.map_eq_some_iff.mp h
      exact .reapedIdle i tasks hstage hout
  · next hstage =>
      obtain ⟨tasks, hout, rfl⟩ := Option.map_eq_some_iff.mp h
      exact .reapedTurn i tasks hstage hout
  · next deadline hstage =>
      obtain ⟨tasks, hout, rfl⟩ := Option.map_eq_some_iff.mp h
      exact .drained i tasks (.inl ⟨deadline, hstage⟩) hout
  · next grace hstage =>
      obtain ⟨tasks, hout, rfl⟩ := Option.map_eq_some_iff.mp h
      exact .drained i tasks (.inr ⟨grace, hstage⟩) hout
  · cases h

theorem moved_notice (h : l.step cfg env .notice = some l') : Moved cfg env l .notice l' := by
  simp only [step] at h
  split at h
  · next hrequested =>
      split at h
      · next hstage =>
          cases h
          exact .noticed hrequested hstage
      · next hstage =>
          cases h
          exact .noticedHolding hrequested hstage
      · cases h
  · cases h

theorem moved_deadline (h : l.step cfg env .deadline = some l') :
    Moved cfg env l .deadline l' := by
  simp only [step] at h
  split at h
  · next hnone =>
      split at h
      · next deadline hstage =>
          obtain ⟨hdue, rfl⟩ := eq_of_ite_eq_some h
          exact .expired deadline hstage hdue hnone
      · next grace hstage =>
          obtain ⟨hdue, rfl⟩ := eq_of_ite_eq_some h
          exact .gaveUp grace hstage hdue hnone
      · cases h
  · cases h

/-- Inversion of a step. -/
theorem moved_of_step (h : l.step cfg env a = some l') : Moved cfg env l a l' := by
  cases a with
  | bind ok =>
      obtain ⟨hstage, rfl⟩ := eq_of_ite_eq_some h
      cases ok with
      | true => exact .bound hstage
      | false => exact .bindFailed hstage
  | acquire =>
      obtain ⟨⟨hstage, hfree⟩, rfl⟩ := eq_of_ite_eq_some h
      exact .acquired hstage hfree
  | accept =>
      obtain ⟨hstage, rfl⟩ := eq_of_ite_eq_some h
      exact .accepted hstage
  | acceptError =>
      obtain ⟨hstage, rfl⟩ := eq_of_ite_eq_some h
      exact .acceptFailed hstage
  | wake =>
      simp only [step] at h
      split at h
      · next wakeAt hstage =>
          obtain ⟨hdue, rfl⟩ := eq_of_ite_eq_some h
          exact .woken wakeAt hstage hdue
      · cases h
  | reap i => exact moved_reap h
  | reaped =>
      obtain ⟨⟨hstage, hnone⟩, rfl⟩ := eq_of_ite_eq_some h
      exact .turned hstage hnone
  | notice => exact moved_notice h
  | deadline => exact moved_deadline h
  | taskEnds i result =>
      simp only [step] at h
      split at h
      · cases h
      · next hhow =>
          obtain ⟨tasks, hout, rfl⟩ := Option.map_eq_some_iff.mp h
          exact .ended i result tasks (fun ha hb => hhow ⟨ha, hb⟩) hout

/-- The loop is urgent exactly when it can take a step by itself. -/
theorem urgent_iff :
    l.urgent env = true ↔ ∃ a : LoopAction, a.own = true ∧ (l.step cfg env a).isSome = true := by
  constructor
  · intro h
    cases hstage : l.stage with
    | acquiring =>
        simp only [urgent, hstage, Bool.or_eq_true, decide_eq_true_eq] at h
        obtain hfree | hrequested := h
        · exact ⟨.acquire, rfl, by simp [step, hstage, hfree]⟩
        · exact ⟨.notice, rfl, by simp [step, hstage, hrequested]⟩
    | accepting =>
        simp only [urgent, hstage, Bool.or_eq_true] at h
        obtain hjoin | hrequested := h
        · obtain ⟨i, hi⟩ := joinable_iff.mp hjoin
          exact ⟨.reap i, rfl, by simp [step, hstage, hi]⟩
        · exact ⟨.notice, rfl, by simp [step, hstage, hrequested]⟩
    | backingOff wakeAt =>
        simp only [urgent, hstage, decide_eq_true_eq] at h
        exact ⟨.wake, rfl, by simp [step, hstage, h]⟩
    | reaping =>
        cases hjoin : joinable l.tasks with
        | true =>
            obtain ⟨i, hi⟩ := joinable_iff.mp hjoin
            exact ⟨.reap i, rfl, by simp [step, hstage, hi]⟩
        | false => exact ⟨.reaped, rfl, by simp [step, hstage, hjoin]⟩
    | draining due | cancelled due =>
        simp only [urgent, hstage, Bool.or_eq_true, decide_eq_true_eq] at h
        cases hjoin : joinable l.tasks with
        | true =>
            obtain ⟨i, hi⟩ := joinable_iff.mp hjoin
            exact ⟨.reap i, rfl, by simp [step, hstage, hi]⟩
        | false =>
            have hdue := h.resolve_left (by simp [hjoin])
            exact ⟨.deadline, rfl, by simp [step, hstage, hjoin, hdue]⟩
    | binding | stopped | failed => simp [urgent, hstage] at h
  · rintro ⟨a, hown, hstep⟩
    obtain ⟨l', hl⟩ := Option.isSome_iff_exists.mp hstep
    cases moved_of_step hl with
    | acquired hstage hfree => simp [urgent, hstage, hfree]
    | woken wakeAt hstage hdue => simp [urgent, hstage, hdue]
    | reapedIdle i tasks hstage hout =>
        have hjoin : joinable l.tasks = true := joinable_iff.mpr ⟨i, by rw [hout]; rfl⟩
        simp [urgent, hstage, hjoin]
    | drained i tasks hstage hout =>
        have hjoin : joinable l.tasks = true := joinable_iff.mpr ⟨i, by rw [hout]; rfl⟩
        obtain ⟨due, hstage⟩ | ⟨due, hstage⟩ := hstage <;> simp [urgent, hstage, hjoin]
    | reapedTurn _ _ hstage | turned hstage => simp [urgent, hstage]
    | noticed hrequested hstage | noticedHolding hrequested hstage =>
        simp [urgent, hstage, hrequested]
    | expired due hstage hdue | gaveUp due hstage hdue => simp [urgent, hstage, hdue]
    | bound | bindFailed | accepted | acceptFailed | ended => cases hown

@[simp] theorem startDrain_available (now : Nat) :
    (l.startDrain cfg now).available = l.available := by
  rw [startDrain]
  split <;> rfl

@[simp] theorem startDrain_tasks (now : Nat) : (l.startDrain cfg now).tasks = l.tasks := by
  rw [startDrain]
  split <;> rfl

theorem startDrain_stage (now : Nat) :
    (l.startDrain cfg now).stage =
      if l.tasks = [] then .stopped else .draining (now + cfg.drainTimeout) := by
  rw [startDrain]
  split <;> rfl

/-- The permits add up, and ended tasks do not pile up in the set. -/
structure Sound (cfg : AcceptConfig) (l : AcceptLoop) : Prop where
  permits : l.available + l.held + running l.tasks = cfg.maxConnections
  size : l.tasks.length ≤ cfg.maxConnections + if l.stage = .reaping then 1 else 0

theorem sound_init (cfg : AcceptConfig) : Sound cfg (init cfg) := by
  constructor
  · simp [init, held]
  · simp [init]

/-- A drain begins with every permit back in the semaphore or in a running task. -/
theorem sound_startDrain (now : Nat)
    (hpermits : l.available + running l.tasks = cfg.maxConnections)
    (hsize : l.tasks.length ≤ cfg.maxConnections) : Sound cfg (l.startDrain cfg now) := by
  have hstage : (l.startDrain cfg now).stage =
      if l.tasks = [] then .stopped else .draining (now + cfg.drainTimeout) :=
    startDrain_stage now
  constructor
  · rw [held, startDrain_available, startDrain_tasks, if_neg (by rw [hstage]; split <;> simp)]
    exact hpermits
  · rw [startDrain_tasks]
    omega

theorem Sound.moved (h : Sound cfg l) (hm : Moved cfg env l a l') : Sound cfg l' := by
  obtain ⟨hpermits, hsize⟩ := h
  cases hm with
  | bound hstage | bindFailed hstage | woken _ hstage _ =>
      simp only [held, hstage, reduceCtorEq, if_false] at hpermits hsize
      exact ⟨by simpa [held] using hpermits, by simp; omega⟩
  | acquired hstage hfree =>
      simp only [held, hstage, reduceCtorEq, if_false] at hpermits hsize
      exact ⟨by simp [held]; omega, by simpa using hsize⟩
  | accepted hstage =>
      simp only [held, hstage, reduceCtorEq, if_false, if_true] at hpermits hsize
      exact ⟨by simp [held]; omega, by simpa using hsize⟩
  | acceptFailed hstage =>
      simp only [held, hstage, reduceCtorEq, if_false, if_true] at hpermits hsize
      exact ⟨by simp [held]; omega, by simpa using hsize⟩
  | reapedIdle i tasks hstage hout =>
      obtain ⟨hrunning, hlength⟩ := running_join hout
      simp only [held, hstage, reduceCtorEq, if_false, if_true] at hpermits hsize
      exact ⟨by simp [held]; omega, by simp; omega⟩
  | reapedTurn i tasks hstage hout =>
      obtain ⟨hrunning, hlength⟩ := running_join hout
      simp only [held, hstage, reduceCtorEq, if_false, if_true] at hpermits hsize
      exact ⟨by simp [held, hstage]; omega, by simp [hstage]; omega⟩
  | drained i tasks hstage hout =>
      obtain ⟨hrunning, hlength⟩ := running_join hout
      have hnot : l.stage ≠ .accepting ∧ l.stage ≠ .reaping := by
        obtain ⟨deadline, hd⟩ | ⟨grace, hg⟩ := hstage
        · simp [hd]
        · simp [hg]
      simp only [held, hnot.1, hnot.2, if_false] at hpermits hsize
      have hstays : (l.joined tasks).stage ≠ .accepting ∧ (l.joined tasks).stage ≠ .reaping := by
        simp only [joined]
        split
        · simp
        · exact hnot
      refine ⟨?_, ?_⟩
      · rw [held, if_neg hstays.1]
        simp only [joined]
        omega
      · rw [if_neg hstays.2]
        simp only [joined]
        omega
  | turned hstage hnone =>
      have hall := joinable_eq_false_iff.mp hnone
      simp only [held, hstage, reduceCtorEq, if_false] at hpermits
      exact ⟨by simpa [held] using hpermits, by simp; omega⟩
  | noticed _ hstage =>
      simp only [held, hstage, reduceCtorEq, if_false] at hpermits hsize
      exact sound_startDrain _ (by omega) (by omega)
  | noticedHolding _ hstage =>
      simp only [held, hstage, reduceCtorEq, if_false, if_true] at hpermits hsize
      exact sound_startDrain _ (by simp; omega) hsize
  | expired _ hstage _ _ | gaveUp _ hstage _ _ =>
      simp only [held, hstage, reduceCtorEq, if_false] at hpermits hsize
      exact ⟨by simpa [held] using hpermits, by simpa using hsize⟩
  | ended i result tasks _ hout =>
      obtain ⟨hrunning, hlength⟩ := running_finish hout
      refine ⟨?_, by simpa [hlength] using hsize⟩
      simp only [held] at hpermits ⊢
      omega

/-- What is recorded at each stage of the drain. -/
def DrainRecord (cfg : AcceptConfig) (l : AcceptLoop) : Prop :=
  match l.stage with
  | .draining deadline => l.tasks ≠ [] ∧ l.connShutdown = false ∧ l.cancelledAt = none ∧
      l.abortedAt = none ∧ ∃ start, l.drainedAt = some start ∧ deadline = start + cfg.drainTimeout
  | .cancelled grace => l.tasks ≠ [] ∧ l.connShutdown = true ∧ l.abortedAt = none ∧
      ∃ start at', l.drainedAt = some start ∧ l.cancelledAt = some at' ∧
        start + cfg.drainTimeout ≤ at' ∧ grace = at' + cancelGrace
  | .stopped => ∃ start, l.drainedAt = some start ∧
      ((l.tasks = [] ∧ l.connShutdown = false ∧ l.cancelledAt = none ∧ l.abortedAt = none) ∨
        ∃ at', l.connShutdown = true ∧ l.cancelledAt = some at' ∧
          start + cfg.drainTimeout ≤ at' ∧
          ((l.tasks = [] ∧ l.abortedAt = none) ∨
            ∃ last, l.abortedAt = some last ∧ at' + cancelGrace ≤ last))
  | _ => l.drainedAt = none ∧ l.connShutdown = false ∧ l.cancelledAt = none ∧ l.abortedAt = none

theorem drainRecord_init (cfg : AcceptConfig) : DrainRecord cfg (init cfg) := by
  simp [DrainRecord, init]

theorem drainRecord_startDrain (now : Nat) (hshutdown : l.connShutdown = false)
    (hcancelled : l.cancelledAt = none) (haborted : l.abortedAt = none) :
    DrainRecord cfg (l.startDrain cfg now) := by
  by_cases hempty : l.tasks = []
  · simp [startDrain, hempty, DrainRecord, hshutdown, hcancelled, haborted]
  · simp [startDrain, hempty, DrainRecord, hshutdown, hcancelled, haborted]

theorem DrainRecord.moved (h : DrainRecord cfg l) (hm : Moved cfg env l a l') :
    DrainRecord cfg l' := by
  cases hm with
  | bound hstage | bindFailed hstage | acquired hstage _ | accepted hstage | acceptFailed hstage
  | woken _ hstage _ | reapedIdle _ _ hstage _ | turned hstage _ =>
      simpa [DrainRecord, hstage] using h
  | reapedTurn i tasks hstage _ => simpa [DrainRecord, hstage] using h
  | drained i tasks hstage _ =>
      obtain ⟨deadline, hstage⟩ | ⟨grace, hstage⟩ := hstage
      · simp only [DrainRecord, hstage] at h
        obtain ⟨-, hshutdown, hcancelled, haborted, start, hstart, rfl⟩ := h
        by_cases hempty : tasks = []
        · simp [DrainRecord, joined, hempty, hshutdown, hcancelled, haborted, hstart]
        · simp [DrainRecord, joined, hempty, hstage, hshutdown, hcancelled, haborted, hstart]
      · simp only [DrainRecord, hstage] at h
        obtain ⟨-, hshutdown, haborted, start, at', hstart, hcancelled, hle, rfl⟩ := h
        by_cases hempty : tasks = []
        · simp [DrainRecord, joined, hempty, hshutdown, hcancelled, haborted, hstart, hle]
        · simp [DrainRecord, joined, hempty, hstage, hshutdown, hcancelled, haborted, hstart, hle]
  | noticed _ hstage =>
      simp only [DrainRecord, hstage] at h
      exact drainRecord_startDrain _ h.2.1 h.2.2.1 h.2.2.2
  | noticedHolding _ hstage =>
      simp only [DrainRecord, hstage] at h
      exact drainRecord_startDrain _ h.2.1 h.2.2.1 h.2.2.2
  | expired deadline hstage hdue _ =>
      simp only [DrainRecord, hstage] at h
      obtain ⟨hne, -, -, haborted, start, hstart, rfl⟩ := h
      exact ⟨hne, rfl, haborted, start, env.now, hstart, rfl, hdue, rfl⟩
  | gaveUp grace hstage hdue _ =>
      simp only [DrainRecord, hstage] at h
      obtain ⟨hne, hshutdown, haborted, start, at', hstart, hcancelled, hle, rfl⟩ := h
      exact ⟨start, hstart, .inr ⟨at', hshutdown, hcancelled, hle, .inr ⟨env.now, rfl, hdue⟩⟩⟩
  | ended i result tasks _ hout =>
      obtain ⟨hrunning, hlength⟩ := running_finish hout
      have hne : l.tasks ≠ [] := by
        rintro hnil
        rw [hnil, running_nil] at hrunning
        omega
      have hne' : tasks ≠ [] := by
        rw [← List.length_pos_iff, hlength, List.length_pos_iff]
        exact hne
      cases hstage : l.stage with
      | draining | cancelled =>
          simp only [DrainRecord, hstage] at h ⊢
          exact ⟨hne', h.2⟩
      | stopped =>
          simp only [DrainRecord, hstage, hne, false_and, false_or] at h ⊢
          simpa only [hne', false_and, false_or] using h
      | binding | acquiring | accepting | backingOff | reaping | failed =>
          simpa only [DrainRecord, hstage] using h

/-- The instant at which the loop goes on by itself. -/
def due (l : AcceptLoop) : Option Nat :=
  match l.stage with
  | .backingOff wakeAt => some wakeAt
  | .draining deadline => some deadline
  | .cancelled grace => some grace
  | _ => none

theorem due_joined (tasks : Tasks TaskEnd) :
    (l.joined tasks).due = if tasks = [] then none else l.due := by
  by_cases hempty : tasks = [] <;> simp [AcceptLoop.due, joined, hempty]

/-- No timer of the loop is late, and the recorded instants are the planned ones. -/
structure OnTime (cfg : AcceptConfig) (now : Nat) (l : AcceptLoop) : Prop where
  due : ∀ at', l.due = some at' → now ≤ at'
  cancelled : ∀ start at', l.drainedAt = some start → l.cancelledAt = some at' →
    at' = start + cfg.drainTimeout
  aborted : ∀ at' last, l.cancelledAt = some at' → l.abortedAt = some last →
    last = at' + cancelGrace

theorem onTime_init (cfg : AcceptConfig) (now : Nat) : OnTime cfg now (init cfg) := by
  constructor <;> simp [init, AcceptLoop.due]

/-- A step that changes neither the timer nor the records keeps to the plan. -/
theorem OnTime.of_eq {now : Nat} (h : OnTime cfg now l)
    (hdue : ∀ at', l'.due = some at' → now ≤ at') (hdrained : l'.drainedAt = l.drainedAt)
    (hcancelled : l'.cancelledAt = l.cancelledAt) (haborted : l'.abortedAt = l.abortedAt) :
    OnTime cfg now l' := by
  constructor
  · exact hdue
  · rw [hdrained, hcancelled]
    exact h.cancelled
  · rw [hcancelled, haborted]
    exact h.aborted

theorem onTime_startDrain (now : Nat) (hcancelled : l.cancelledAt = none) :
    OnTime cfg now (l.startDrain cfg now) := by
  by_cases hempty : l.tasks = []
  · constructor <;> simp [startDrain, hempty, AcceptLoop.due, hcancelled]
  · constructor <;> simp [startDrain, hempty, AcceptLoop.due, hcancelled]

theorem OnTime.moved (hrecord : DrainRecord cfg l) (h : OnTime cfg env.now l)
    (hm : Moved cfg env l a l') : OnTime cfg env.now l' := by
  cases hm with
  | bound | bindFailed | acquired | accepted | woken | reapedIdle | turned =>
      exact h.of_eq (by simp [AcceptLoop.due]) rfl rfl rfl
  | acceptFailed => exact h.of_eq (by simp [AcceptLoop.due]) rfl rfl rfl
  | reapedTurn | ended => exact h.of_eq h.due rfl rfl rfl
  | drained i tasks hstage _ =>
      refine h.of_eq (fun at' hat => ?_) rfl rfl rfl
      rw [due_joined] at hat
      split at hat
      · cases hat
      · exact h.due at' hat
  | noticed _ hstage =>
      simp only [DrainRecord, hstage] at hrecord
      exact onTime_startDrain _ hrecord.2.2.1
  | noticedHolding _ hstage =>
      simp only [DrainRecord, hstage] at hrecord
      exact onTime_startDrain _ hrecord.2.2.1
  | expired deadline hstage hdue _ =>
      have hnot := h.due deadline (by simp [AcceptLoop.due, hstage])
      simp only [DrainRecord, hstage] at hrecord
      obtain ⟨-, -, -, haborted, start, hstart, rfl⟩ := hrecord
      constructor
      · simp [AcceptLoop.due]
      · intro start' at' hstart' hat
        cases hstart.symm.trans hstart'
        cases hat
        omega
      · intro at' last _ hlast
        exact absurd (haborted.symm.trans hlast) (by simp)
  | gaveUp grace hstage hdue _ =>
      have hnot := h.due grace (by simp [AcceptLoop.due, hstage])
      simp only [DrainRecord, hstage] at hrecord
      obtain ⟨-, -, haborted, start, at', hstart, hcancelled, hle, rfl⟩ := hrecord
      constructor
      · simp [AcceptLoop.due]
      · exact h.cancelled
      · intro at'' last hat hlast
        cases hcancelled.symm.trans hat
        cases hlast
        omega

/-- Time passes only before the timer. -/
theorem OnTime.tick (h : OnTime cfg env.now l) (hurgent : l.urgent env = false) :
    OnTime cfg (env.now + 1) l := by
  refine ⟨fun at' hat => ?_, h.cancelled, h.aborted⟩
  have hle := h.due at' hat
  have hnot : ¬ at' ≤ env.now := by
    simp only [AcceptLoop.due] at hat
    split at hat <;> simp_all [urgent]
  omega

/-- A drain that keeps to the plan is over when its two windows are. -/
theorem OnTime.drain_le {now start : Nat} (h : OnTime cfg now l) (hrecord : DrainRecord cfg l)
    (hstart : l.drainedAt = some start) (hrunning : l.stage ≠ .stopped) :
    now ≤ start + cfg.drainTimeout + cancelGrace := by
  cases hstage : l.stage with
  | draining deadline =>
      have hle := h.due deadline (by simp [AcceptLoop.due, hstage])
      simp only [DrainRecord, hstage] at hrecord
      obtain ⟨-, -, -, -, start', hstart', rfl⟩ := hrecord
      cases hstart.symm.trans hstart'
      omega
  | cancelled grace =>
      have hle := h.due grace (by simp [AcceptLoop.due, hstage])
      simp only [DrainRecord, hstage] at hrecord
      obtain ⟨-, -, -, start', at', hstart', hcancelled, -, rfl⟩ := hrecord
      have hat := h.cancelled start at' hstart hcancelled
      omega
  | stopped => exact absurd hstage hrunning
  | binding | acquiring | accepting | backingOff | reaping | failed =>
      simp only [DrainRecord, hstage, hstart] at hrecord
      exact absurd hrecord.1 (by simp)

/-- What the receiver of `on_bound` gets: nothing yet, the message, or the dropped sender. -/
def reported (l : AcceptLoop) : Option Bool :=
  match l.stage with
  | .binding => none
  | .failed => some false
  | _ => some true

/-- The task of the listener has returned. -/
def ended (l : AcceptLoop) : Bool :=
  match l.stage with
  | .stopped | .failed => true
  | _ => false

/-- The loop is between the bind and the drain. -/
def serving (l : AcceptLoop) : Bool :=
  match l.stage with
  | .acquiring | .accepting | .backingOff _ | .reaping => true
  | _ => false

theorem reported_startDrain (now : Nat) : (l.startDrain cfg now).reported = some true := by
  by_cases hempty : l.tasks = [] <;> simp [startDrain, reported, hempty]

/-- The report is made once. -/
theorem Moved.reported (hm : Moved cfg env l a l') {ok : Bool} (h : l.reported = some ok) :
    l'.reported = some ok := by
  cases hm with
  | bound hstage | bindFailed hstage => simp [AcceptLoop.reported, hstage] at h
  | acquired hstage | accepted hstage | acceptFailed hstage | woken _ hstage
  | reapedIdle _ _ hstage | turned hstage | expired _ hstage | gaveUp _ hstage =>
      simpa [AcceptLoop.reported, hstage] using h
  | reapedTurn | ended => exact h
  | drained i tasks hstage =>
      obtain ⟨deadline, hstage⟩ | ⟨grace, hstage⟩ := hstage
      · by_cases hempty : tasks = [] <;>
          simpa [AcceptLoop.reported, joined, hempty, hstage] using h
      · by_cases hempty : tasks = [] <;>
          simpa [AcceptLoop.reported, joined, hempty, hstage] using h
  | noticed _ hstage | noticedHolding _ hstage =>
      rw [reported_startDrain]
      simpa [AcceptLoop.reported, hstage] using h

/-- A listener that has returned does not run again. -/
theorem ended_of_moved (hm : Moved cfg env l a l') (h : l.ended = true) : l'.ended = true := by
  cases hm with
  | reapedTurn | ended => exact h
  | drained i tasks hstage =>
      obtain ⟨deadline, hstage⟩ | ⟨grace, hstage⟩ := hstage <;>
        simp [AcceptLoop.ended, hstage] at h
  | bound hstage | bindFailed hstage | acquired hstage | accepted hstage | acceptFailed hstage
  | woken _ hstage | reapedIdle _ _ hstage | turned hstage | noticed _ hstage
  | noticedHolding _ hstage | expired _ hstage | gaveUp _ hstage =>
      simp [AcceptLoop.ended, hstage] at h

theorem serving_of_drainedAt (hrecord : DrainRecord cfg l) (h : l.reported = some true)
    (hdrained : l.drainedAt = none) : l.serving = true := by
  cases hstage : l.stage with
  | acquiring | accepting | backingOff | reaping => simp [serving, hstage]
  | binding | failed => simp [AcceptLoop.reported, hstage] at h
  | draining | cancelled | stopped => simp [DrainRecord, hstage, hdrained] at hrecord

theorem startDrain_drainedAt (now : Nat) : (l.startDrain cfg now).drainedAt = some now := by
  rw [startDrain]
  split <;> rfl

/-- A drain is begun by the token, at the current time, and is not begun again. -/
theorem Moved.drainedAt (hm : Moved cfg env l a l') :
    l'.drainedAt = l.drainedAt ∨ (env.shutdown = true ∧ l.serving = true ∧
      l'.drainedAt = some env.now ∧ l'.lateErrors = l.lateErrors) := by
  cases hm with
  | noticed hrequested hstage | noticedHolding hrequested hstage =>
      refine .inr ⟨hrequested, by simp [serving, hstage], startDrain_drainedAt _, ?_⟩
      rw [startDrain]
      split <;> rfl
  | _ => exact .inl rfl

/-- The recorded and the planned instants of a loop lie around the present. -/
structure Recent (now : Nat) (l : AcceptLoop) : Prop where
  wake : ∀ wakeAt, l.stage = .backingOff wakeAt → wakeAt ≤ now + acceptBackoff
  drained : ∀ start, l.drainedAt = some start → start ≤ now

theorem recent_init (cfg : AcceptConfig) (now : Nat) : Recent now (init cfg) := by
  constructor <;> simp [init]

theorem Recent.mono {now now' : Nat} (h : Recent now l) (hle : now ≤ now') : Recent now' l := by
  constructor
  · intro wakeAt hstage
    have := h.wake wakeAt hstage
    omega
  · intro start hstart
    have := h.drained start hstart
    omega

/-- A step into the sleep is a failed accept. -/
theorem Moved.backingOff (hm : Moved cfg env l a l') {wakeAt : Nat}
    (h : l'.stage = .backingOff wakeAt) :
    (l.stage = .backingOff wakeAt ∧ l'.lateErrors = l.lateErrors) ∨
      (l.stage = .accepting ∧ wakeAt = env.now + acceptBackoff ∧
        l'.lateErrors = if env.shutdown then l.lateErrors + 1 else l.lateErrors) := by
  cases hm with
  | acceptFailed hstage =>
      simp only [LoopStage.backingOff.injEq] at h
      exact .inr ⟨hstage, h.symm, rfl⟩
  | drained i tasks hstage =>
      simp only [joined] at h ⊢
      split at h
      · cases h
      · exact .inl ⟨h, trivial⟩
  | noticed | noticedHolding =>
      rw [startDrain_stage] at h
      split at h <;> cases h
  | reapedTurn | ended => exact .inl ⟨h, rfl⟩
  | _ => cases h

theorem Recent.moved (h : Recent env.now l) (hm : Moved cfg env l a l') : Recent env.now l' := by
  constructor
  · intro wakeAt hstage
    obtain ⟨hbefore, -⟩ | ⟨-, rfl, -⟩ := hm.backingOff hstage
    · exact h.wake wakeAt hbefore
    · exact Nat.le_refl _
  · intro start hstart
    obtain hsame | ⟨-, -, hnow, -⟩ := hm.drainedAt
    · exact h.drained start (hsame ▸ hstart)
    · cases hnow.symm.trans hstart
      exact Nat.le_refl _

theorem Moved.lateErrors_le (hm : Moved cfg env l a l') : l.lateErrors ≤ l'.lateErrors := by
  cases hm with
  | acceptFailed =>
      simp only
      split <;> omega
  | noticed | noticedHolding =>
      rw [startDrain]
      split <;> exact Nat.le_refl _
  | _ => exact Nat.le_refl _

/-- How long after `origin` the loop may still be before its drain. -/
def delayBound (origin : Nat) (l : AcceptLoop) : Nat :=
  origin + acceptBackoff * (l.lateErrors + 1)

/-- A bound loop whose token is cancelled since `origin` at the latest drains unless its accepts
keep failing: each failure costs it one sleep. -/
structure Delayed (origin now : Nat) (l : AcceptLoop) : Prop where
  bound : l.reported = some true
  waiting : l.drainedAt = none → now ≤ l.delayBound origin
  wake : ∀ wakeAt, l.stage = .backingOff wakeAt → wakeAt ≤ l.delayBound origin
  drained : ∀ start, l.drainedAt = some start → start ≤ l.delayBound origin

theorem delayed_of_recent (h : Recent env.now l) (hbound : l.reported = some true) :
    Delayed env.now env.now l := by
  have hpos : acceptBackoff ≤ acceptBackoff * (l.lateErrors + 1) :=
    Nat.le_mul_of_pos_right _ (Nat.succ_pos _)
  constructor
  · exact hbound
  · intro _
    exact Nat.le_add_right _ _
  · intro wakeAt hstage
    have hwake := h.wake wakeAt hstage
    simp only [delayBound]
    omega
  · intro start hstart
    exact Nat.le_trans (h.drained start hstart) (Nat.le_add_right _ _)

theorem delayBound_le (origin : Nat) (h : l.lateErrors ≤ l'.lateErrors) :
    l.delayBound origin ≤ l'.delayBound origin :=
  Nat.add_le_add_left (Nat.mul_le_mul_left _ (Nat.succ_le_succ h)) origin

theorem Delayed.moved {origin : Nat} (hrecord : DrainRecord cfg l)
    (h : Delayed origin env.now l) (hrequested : env.shutdown = true)
    (hm : Moved cfg env l a l') : Delayed origin env.now l' := by
  have hle : l.delayBound origin ≤ l'.delayBound origin := delayBound_le origin hm.lateErrors_le
  constructor
  · exact hm.reported h.bound
  · intro hnone
    obtain hsame | ⟨-, -, hnow, -⟩ := hm.drainedAt
    · exact Nat.le_trans (h.waiting (hsame ▸ hnone)) hle
    · rw [hnone] at hnow
      cases hnow
  · intro wakeAt hstage
    obtain ⟨hbefore, -⟩ | ⟨haccepting, rfl, hlate⟩ := hm.backingOff hstage
    · exact Nat.le_trans (h.wake wakeAt hbefore) hle
    · -- one more failure pays for one more sleep
      simp only [DrainRecord, haccepting] at hrecord
      have hnow := h.waiting hrecord.1
      rw [if_pos hrequested] at hlate
      simp only [delayBound, hlate] at hnow ⊢
      rw [Nat.mul_succ acceptBackoff (l.lateErrors + 1)]
      omega
  · intro start hstart
    obtain hsame | ⟨-, hserving, hnow, -⟩ := hm.drainedAt
    · exact Nat.le_trans (h.drained start (hsame ▸ hstart)) hle
    · cases hnow.symm.trans hstart
      have hnone : l.drainedAt = none := by
        cases hstage : l.stage <;> simp_all [serving, DrainRecord]
      exact Nat.le_trans (h.waiting hnone) hle

/-- With the token cancelled, time passes before the drain only in the sleep. -/
theorem Delayed.tick {origin : Nat} (hrecord : DrainRecord cfg l)
    (h : Delayed origin env.now l) (hrequested : env.shutdown = true)
    (hurgent : l.urgent env = false) : Delayed origin (env.now + 1) l := by
  refine ⟨h.bound, fun hnone => ?_, h.wake, h.drained⟩
  have hserving := serving_of_drainedAt hrecord h.bound hnone
  cases hstage : l.stage with
  | backingOff wakeAt =>
      have hwake := h.wake wakeAt hstage
      simp only [urgent, hstage, decide_eq_false_iff_not] at hurgent
      omega
  | acquiring | accepting => simp [urgent, hstage, hrequested] at hurgent
  | reaping => simp [urgent, hstage] at hurgent
  | binding | draining | cancelled | stopped | failed => simp [serving, hstage] at hserving

/-- With few failed accepts the drain is over a second after its two windows, counted from
the cancellation of the token. -/
theorem OnTime.stopped_of_delayed {origin now : Nat} (h : OnTime cfg now l)
    (hrecord : DrainRecord cfg l) (hdelayed : Delayed origin now l) (hfew : l.lateErrors < 9)
    (hdue : origin + cfg.drainTimeout + 2 * cancelGrace ≤ now) : l.stage = .stopped := by
  have hbound : l.delayBound origin ≤ origin + 900 := by
    simp only [delayBound, acceptBackoff]
    omega
  by_contra hrunning
  have hgrace : cancelGrace = 1000 := rfl
  cases hdrained : l.drainedAt with
  | none =>
      have hwaiting := hdelayed.waiting hdrained
      omega
  | some start =>
      have hstart := hdelayed.drained start hdrained
      have hover := h.drain_le hrecord hdrained hrunning
      omega

end AcceptLoop

/-- A listener: its loop, with the clock and the token of the process. -/
structure Listener where
  env : Surroundings
  loop : AcceptLoop
  deriving DecidableEq, Repr

inductive ListenerAction where
  | loop (a : LoopAction)
  /-- The shutdown token is cancelled. -/
  | shutdown
  | tick
  deriving DecidableEq, Repr

namespace Listener

def start (cfg : AcceptConfig) : Listener := ⟨⟨0, false⟩, .init cfg⟩

def step (cfg : AcceptConfig) (s : Listener) : ListenerAction → Option Listener
  | .loop a => (s.loop.step cfg s.env a).map fun loop => { s with loop := loop }
  | .shutdown => some { s with env.shutdown := true }
  | .tick => some { s with env.now := s.env.now + 1 }

/-- Time does not pass while the loop could go on. -/
def Prompt (s : Listener) (a : ListenerAction) : Prop := a = .tick → s.loop.urgent s.env = false

instance (s : Listener) (a : ListenerAction) : Decidable (s.Prompt a) :=
  inferInstanceAs (Decidable (a = .tick → s.loop.urgent s.env = false))

variable {cfg : AcceptConfig} {s s' : Listener} {a : ListenerAction}

/-- What a step of the listener does to the loop. -/
theorem loop_of_step (h : s.step cfg a = some s') :
    (∃ b, AcceptLoop.Moved cfg s.env s.loop b s'.loop ∧ s'.env = s.env) ∨ s'.loop = s.loop := by
  cases a with
  | loop b =>
      obtain ⟨loop, hloop, rfl⟩ := Option.map_eq_some_iff.mp h
      exact .inl ⟨b, AcceptLoop.moved_of_step hloop, rfl⟩
  | shutdown | tick =>
      cases h
      exact .inr rfl

theorem sound_step (hs : AcceptLoop.Sound cfg s.loop) (h : s.step cfg a = some s') :
    AcceptLoop.Sound cfg s'.loop := by
  obtain ⟨b, hm, -⟩ | hsame := loop_of_step h
  · exact hs.moved hm
  · rwa [hsame]

theorem drainRecord_step (hs : AcceptLoop.DrainRecord cfg s.loop) (h : s.step cfg a = some s') :
    AcceptLoop.DrainRecord cfg s'.loop := by
  obtain ⟨b, hm, -⟩ | hsame := loop_of_step h
  · exact hs.moved hm
  · rwa [hsame]

theorem always_sound (cfg : AcceptConfig) (labels : List ListenerAction) :
    Always (step cfg) (fun s : Listener => AcceptLoop.Sound cfg s.loop) (start cfg) labels :=
  always_of_step (I := fun s : Listener => AcceptLoop.Sound cfg s.loop) (fun _ _ _ => sound_step)
    (AcceptLoop.sound_init cfg) labels

theorem always_drainRecord (cfg : AcceptConfig) (labels : List ListenerAction) :
    Always (step cfg) (fun s : Listener => AcceptLoop.DrainRecord cfg s.loop) (start cfg) labels :=
  always_of_step (I := fun s : Listener => AcceptLoop.DrainRecord cfg s.loop)
    (fun _ _ _ => drainRecord_step)
    (AcceptLoop.drainRecord_init cfg) labels

/-- In every run the permits in the semaphore, the one in the hand of the loop and those of the
running connections are the limit, and the set holds at most one ended task beyond it. -/
theorem connections_within_limit (cfg : AcceptConfig) (labels : List ListenerAction) :
    Always (step cfg) (fun s =>
      s.loop.available + s.loop.held + running s.loop.tasks = cfg.maxConnections ∧
        s.loop.tasks.length ≤ cfg.maxConnections + 1 ∧
        (s.loop.stage ≠ .reaping → s.loop.tasks.length ≤ cfg.maxConnections))
      (start cfg) labels := by
  refine Always.mono ?_ (always_sound cfg labels)
  rintro s ⟨hpermits, hsize⟩
  refine ⟨hpermits, ?_, fun hstage => ?_⟩
  · split at hsize <;> omega
  · rwa [if_neg hstage] at hsize

/-- What a listener waits for while time passes. -/
inductive Waits (cfg : AcceptConfig) (s : Listener) : Prop
  | forSocket (stage : s.loop.stage = .binding)
  /-- At the limit, with as many running connections. -/
  | atLimit (stage : s.loop.stage = .acquiring) (size : s.loop.tasks.length = cfg.maxConnections)
      (all : running s.loop.tasks = cfg.maxConnections)
  /-- For a client, with every connection in the set running and room for one more. -/
  | forClient (stage : s.loop.stage = .accepting)
      (all : running s.loop.tasks = s.loop.tasks.length)
      (room : running s.loop.tasks < cfg.maxConnections)
  | afterError (wakeAt : Nat) (stage : s.loop.stage = .backingOff wakeAt)
      (early : s.env.now < wakeAt)
  /-- For a running connection in one of the two windows of the drain. -/
  | forDrain (deadline : Nat)
      (stage : s.loop.stage = .draining deadline ∨ s.loop.stage = .cancelled deadline)
      (early : s.env.now < deadline) (some : 0 < running s.loop.tasks)
      (all : running s.loop.tasks = s.loop.tasks.length)
  | over (stage : s.loop.stage = .stopped ∨ s.loop.stage = .failed)

/-- While time can pass, no ended connection is left unjoined and no free permit unused,
except in the sleep after a failed accept. -/
theorem waits_of_not_urgent (cfg : AcceptConfig) (labels : List ListenerAction) :
    Always (step cfg) (fun s => s.loop.urgent s.env = false → Waits cfg s) (start cfg)
      labels := by
  refine (always_sound cfg labels).mono₂ ?_ (always_drainRecord cfg labels)
  rintro s ⟨hpermits, hsize⟩ hrec hurgent
  cases hstage : s.loop.stage with
  | binding => exact .forSocket hstage
  | acquiring =>
      simp only [AcceptLoop.urgent, hstage, Bool.or_eq_false_iff, decide_eq_false_iff_not]
        at hurgent
      simp only [AcceptLoop.held, hstage, reduceCtorEq, if_false] at hpermits hsize
      have hle : running s.loop.tasks ≤ s.loop.tasks.length := running_le_length
      exact .atLimit hstage (by omega) (by omega)
  | accepting =>
      simp only [AcceptLoop.urgent, hstage, Bool.or_eq_false_iff] at hurgent
      simp only [AcceptLoop.held, hstage, if_true] at hpermits
      exact .forClient hstage (joinable_eq_false_iff.mp hurgent.1) (by omega)
  | backingOff wakeAt =>
      simp only [AcceptLoop.urgent, hstage, decide_eq_false_iff_not] at hurgent
      exact .afterError wakeAt hstage (by omega)
  | reaping => simp [AcceptLoop.urgent, hstage] at hurgent
  | draining deadline =>
      simp only [AcceptLoop.urgent, hstage, Bool.or_eq_false_iff, decide_eq_false_iff_not]
        at hurgent
      simp only [AcceptLoop.DrainRecord, hstage] at hrec
      have hall := joinable_eq_false_iff.mp hurgent.1
      have hpos := List.length_pos_iff.mpr hrec.1
      exact .forDrain deadline (.inl hstage) (by omega) (by omega) hall
  | cancelled grace =>
      simp only [AcceptLoop.urgent, hstage, Bool.or_eq_false_iff, decide_eq_false_iff_not]
        at hurgent
      simp only [AcceptLoop.DrainRecord, hstage] at hrec
      have hall := joinable_eq_false_iff.mp hurgent.1
      have hpos := List.length_pos_iff.mpr hrec.1
      exact .forDrain grace (.inr hstage) (by omega) (by omega) hall
  | stopped => exact .over (.inl hstage)
  | failed => exact .over (.inr hstage)

/-- One prompt step keeps the loop to its plan. -/
theorem onTime_step (hrecord : AcceptLoop.DrainRecord cfg s.loop)
    (h : AcceptLoop.OnTime cfg s.env.now s.loop) (hprompt : s.Prompt a)
    (hs : s.step cfg a = some s') : AcceptLoop.OnTime cfg s'.env.now s'.loop := by
  cases a with
  | loop b =>
      obtain ⟨loop, hloop, rfl⟩ := Option.map_eq_some_iff.mp hs
      exact h.moved hrecord (AcceptLoop.moved_of_step hloop)
  | shutdown =>
      cases hs
      exact h
  | tick =>
      cases hs
      exact h.tick (hprompt rfl)

/-- In a prompt run that has begun to drain, the connections are cancelled after exactly
`drain_timeout`, if at all, and aborted after exactly the grace; without an abort the set is
empty when the loop has stopped, and it has stopped when both windows are over. -/
theorem drain_timeline (cfg : AcceptConfig) (labels : List ListenerAction)
    (hprompt : Along (step cfg) Prompt (start cfg) labels) :
    Always (step cfg) (fun s => ∀ begun, s.loop.drainedAt = some begun →
      (s.loop.connShutdown = true ↔ s.loop.cancelledAt = some (begun + cfg.drainTimeout)) ∧
      (s.loop.abortedAt = none ∨ s.loop.abortedAt =
        some (begun + cfg.drainTimeout + AcceptLoop.cancelGrace)) ∧
      (s.loop.stage = .stopped → s.loop.abortedAt = none → s.loop.tasks = []) ∧
      (s.loop.stage ≠ .stopped →
        s.env.now ≤ begun + cfg.drainTimeout + AcceptLoop.cancelGrace)) (start cfg) labels := by
  have hinv : Always (step cfg) (fun s => AcceptLoop.DrainRecord cfg s.loop ∧
      AcceptLoop.OnTime cfg s.env.now s.loop) (start cfg) labels := by
    refine always_of_along (fun s a s' h hp hs => ?_)
      ⟨AcceptLoop.drainRecord_init cfg, AcceptLoop.onTime_init cfg 0⟩ hprompt
    exact ⟨drainRecord_step h.1 hs, onTime_step h.1 h.2 hp hs⟩
  refine hinv.mono ?_
  rintro s ⟨hrecord, honTime⟩ begun hbegun
  have hbound := fun hrunning => honTime.drain_le hrecord hbegun hrunning
  have hexact := fun at' hat => honTime.cancelled begun at' hbegun hat
  cases hstage : s.loop.stage with
  | draining deadline =>
      simp only [AcceptLoop.DrainRecord, hstage] at hrecord
      obtain ⟨-, hshutdown, hcancelled, haborted, -⟩ := hrecord
      exact ⟨by simp [hshutdown, hcancelled], .inl haborted, by simp,
        fun _ => hbound (by simp [hstage])⟩
  | cancelled grace =>
      simp only [AcceptLoop.DrainRecord, hstage] at hrecord
      obtain ⟨-, hshutdown, haborted, start, at', -, hcancelled, -⟩ := hrecord
      obtain rfl := hexact at' hcancelled
      exact ⟨by simp [hshutdown, hcancelled], .inl haborted, by simp,
        fun _ => hbound (by simp [hstage])⟩
  | stopped =>
      simp only [AcceptLoop.DrainRecord, hstage] at hrecord
      obtain ⟨start, -, ⟨htasks, hshutdown, hcancelled, haborted⟩ |
        ⟨at', hshutdown, hcancelled, -, hend⟩⟩ := hrecord
      · exact ⟨by simp [hshutdown, hcancelled], .inl haborted, fun _ _ => htasks, by simp⟩
      · obtain rfl := hexact at' hcancelled
        refine ⟨by simp [hshutdown, hcancelled], ?_, ?_, by simp⟩
        · obtain ⟨-, haborted⟩ | ⟨last, hlast, -⟩ := hend
          · exact .inl haborted
          · exact .inr (honTime.aborted _ last hcancelled hlast ▸ hlast)
        · intro _ hnone
          obtain ⟨htasks, -⟩ | ⟨last, hlast, -⟩ := hend
          · exact htasks
          · exact absurd (hnone.symm.trans hlast) (by simp)
  | binding | acquiring | accepting | backingOff | reaping | failed =>
      simp only [AcceptLoop.DrainRecord, hstage, hbegun] at hrecord
      exact absurd hrecord.1 (by simp)

/-- A connection that ignores its token outlives both windows, and is aborted. -/
def stuckRun : List ListenerAction :=
  [.loop (.bind true), .loop .acquire, .loop .accept, .loop .reaped, .shutdown, .loop .notice,
    .tick, .loop .deadline] ++ List.replicate 1000 .tick ++
    [.loop .deadline, .loop (.taskEnds 0 .aborted)]

theorem drain_timeline_stuckRun :
    exec (step ⟨1, 1⟩) (start ⟨1, 1⟩) stuckRun =
        some ⟨⟨1001, true⟩, ⟨.stopped, 1, [some .aborted], true, some 0, some 1, some 1001, 0⟩⟩ ∧
      Always (step ⟨1, 1⟩) (fun s => ∀ begun, s.loop.drainedAt = some begun →
        (s.loop.connShutdown = true ↔ s.loop.cancelledAt = some (begun + 1)) ∧
        (s.loop.abortedAt = none ∨ s.loop.abortedAt =
          some (begun + 1 + AcceptLoop.cancelGrace)) ∧
        (s.loop.stage = .stopped → s.loop.abortedAt = none → s.loop.tasks = []) ∧
        (s.loop.stage ≠ .stopped → s.env.now ≤ begun + 1 + AcceptLoop.cancelGrace))
        (start ⟨1, 1⟩) stuckRun :=
  ⟨by decide +kernel, drain_timeline ⟨1, 1⟩ stuckRun (by decide +kernel)⟩

end Listener

end ZenohBridge
