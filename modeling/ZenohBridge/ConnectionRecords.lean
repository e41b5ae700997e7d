import ZenohBridge.Foundation.Execution
import ZenohBridge.HeadParser
import ZenohBridge.Relay

/-!
# The record of a connection

`conn_start` counts a connection and returns a guard. The guard's `finish` records the
outcome and its drop takes the connection off the gauge. The three data planes call `finish`
at their end; an abort drops the task, and with it the guard, at the await it is in.

A process is the list of its connection tasks with the counters they share. A listener
drains its tasks in `drain_tasks`: it waits, cancels the data planes, waits again, and aborts
what is left. The exporter drains its clients in `drain_all_clients` and aborts one that does
not end.

## Implementation notes

The import and the export relay are the relay model, the multiroute handler is its own; the
door before the data plane is one phase. The byte counters and the gRPC codes have no part
here. An aborted task is dropped by the runtime in a step of its own, so it may still end by
itself. `finishes` is history: how often `finish` was called on the guard.
-/

namespace ZenohBridge

open Execution

/-- The counters of one service. -/
structure Counters where
  active : Int
  total : Nat
  completed : Nat
  reset : Nat
  failed : Nat
  deriving DecidableEq

namespace Counters

def zero : Counters := ⟨0, 0, 0, 0, 0⟩

/-- `Metrics::conn_start`. -/
def connStart (c : Counters) : Counters := { c with active := c.active + 1, total := c.total + 1 }

/-- `ConnGuard::set_outcome`. -/
def setOutcome (outcome : ConnOutcome) (c : Counters) : Counters :=
  match outcome with
  | .completed => { c with completed := c.completed + 1 }
  | .reset => { c with reset := c.reset + 1 }
  | .failed => { c with failed := c.failed + 1 }

/-- The drop of a `ConnGuard`. -/
def dropGuard (c : Counters) : Counters := { c with active := c.active - 1 }

/-- The connections with a recorded outcome. -/
def recorded (c : Counters) : Nat := c.completed + c.reset + c.failed

@[simp] theorem setOutcome_active (outcome : ConnOutcome) (c : Counters) :
    (c.setOutcome outcome).active = c.active := by
  cases outcome <;> rfl

@[simp] theorem setOutcome_total (outcome : ConnOutcome) (c : Counters) :
    (c.setOutcome outcome).total = c.total := by
  cases outcome <;> rfl

@[simp] theorem setOutcome_recorded (outcome : ConnOutcome) (c : Counters) :
    (c.setOutcome outcome).recorded = c.recorded + 1 := by
  cases outcome <;> simp only [setOutcome, recorded] <;> omega

end Counters

/-- The data plane that a connection task runs. -/
inductive DataPlane where
  | importing
  | exporting
  | multiroute
  deriving DecidableEq, Repr

/-- Where a connection task is. -/
inductive TaskState (P : HttpProxyParser Octet) where
  /-- Before `conn_start`. -/
  | door
  /-- The coordinator of a relay, up to its `finish`. -/
  | relaying (relay : Relay)
  | serving (conn : Multiroute P)
  /-- The task has ended; it had a guard or not. -/
  | gone (guarded : Bool)

/-- The guard of a task. -/
inductive GuardState where
  | unborn
  | held
  | dropped
  deriving DecidableEq, Repr

/-- A connection task in the set of its listener or exporter. -/
structure ConnTask (P : HttpProxyParser Octet) where
  owner : Nat
  service : String
  plane : DataPlane
  state : TaskState P
  abortRequested : Bool
  finishes : Nat

/-- How far the drain of a listener or an exporter is. -/
inductive DrainStage where
  | running
  | draining
  /-- The data planes are cancelled. -/
  | cancelled
  deriving DecidableEq, Repr

/-- The connection tasks of a process and its counters. -/
structure BridgeProcess (P : HttpProxyParser Octet) where
  counters : String → Counters
  tasks : List (ConnTask P)
  stage : Nat → DrainStage

structure ProcessConfig where
  importing : RelayConfig
  exporting : RelayConfig
  multiroute : MultirouteConfig

inductive ProcessAction where
  | accept (owner : Nat) (service : String) (plane : DataPlane)
  | connStart (i : Nat)
  /-- The task ends at its door. -/
  | leave (i : Nat)
  | relay (i : Nat) (a : RelayAction)
  | exchange (i : Nat) (a : MultirouteAction)
  /-- The data plane has ended: `finish`, and the guard is dropped on return. -/
  | finish (i : Nat)
  | drain (owner : Nat)
  /-- An exporter that was demoted and drained serves again. -/
  | resume (owner : Nat)
  /-- `drain_timeout` has passed. -/
  | drainDeadline (owner : Nat)
  /-- The grace of `drain_tasks` has passed: `abort_all`. -/
  | abortAll (owner : Nat)
  /-- The deadline of `drain_all_clients` has passed for one client. -/
  | abortClient (i : Nat)
  /-- The runtime drops an aborted task. -/
  | dropTask (i : Nat)

/-- `fold_outcome`; a direction that did not join has no end. -/
def foldOutcome (b2z z2b : Option DirectionEnd) : ConnOutcome :=
  if b2z = none ∨ b2z = some .error ∨ z2b = none ∨ z2b = some .error then .failed
  else if b2z = some .reset ∨ z2b = some .reset then .reset
  else .completed

def Sender.joined : Sender → Option DirectionEnd
  | .ended how => some how
  | _ => none

def Receiver.joined : Receiver → Option DirectionEnd
  | .ended how => some how
  | _ => none

/-! ### The calls of `finish` -/

/-- Both tasks of a relay are joined. -/
def Relay.joined (relay : Relay) : Prop :=
  relay.receiver.finished = true ∧ relay.sender.finished = true

instance (relay : Relay) : Decidable relay.joined := inferInstanceAs (Decidable (_ ∧ _))

/-- The one at the end of `bridge_import_connection`: a tripped token makes it a reset. -/
def bridgeImportConnectionFinish (relay : Relay) : Option ConnOutcome :=
  if relay.joined then some (if relay.cancelled then .reset else .completed) else none

/-- The one at the end of `handle_client_bridge`: the ends of both directions are folded. -/
def handleClientBridgeFinish (relay : Relay) : Option ConnOutcome :=
  if relay.joined then some (foldOutcome relay.sender.joined relay.receiver.joined) else none

/-- The two of `handle_multiroute_connection`. An exchange that returned an error has closed the
connection as failed; the loop leaves the outcome of its last exchange. -/
def handleMultirouteConnectionFinish {P : HttpProxyParser Octet} (conn : Multiroute P) :
    Option ConnOutcome :=
  if conn.phase = .closed then some conn.outcome else none

namespace ConnTask

variable {P : HttpProxyParser Octet}

def guard (task : ConnTask P) : GuardState :=
  match task.state with
  | .door => .unborn
  | .relaying _ | .serving _ => .held
  | .gone guarded => if guarded then .dropped else .unborn

/-- The task has not ended. -/
def pending (task : ConnTask P) : Bool :=
  match task.state with
  | .gone _ => false
  | _ => true

/-- The data plane at `conn_start`. -/
def firstState (cfg : ProcessConfig) (P : HttpProxyParser Octet) : DataPlane → TaskState P
  | .importing => .relaying (.init cfg.importing)
  | .exporting => .relaying (.init cfg.exporting)
  | .multiroute => .serving (.init P)

/-- The outcome that the data plane hands to `finish`, once it has ended. -/
def outcome (task : ConnTask P) : Option ConnOutcome :=
  match task.state with
  | .relaying relay =>
      if task.plane = .exporting then handleClientBridgeFinish relay
      else bridgeImportConnectionFinish relay
  | .serving conn => handleMultirouteConnectionFinish conn
  | _ => none

/-- A step of a relay. The listener trips its token only at the drain deadline. -/
def onRelay (cfg : ProcessConfig) (stage : DrainStage) (a : RelayAction) (task : ConnTask P) :
    Option (ConnTask P) :=
  match task.state with
  | .relaying relay =>
      if a = .listenerDrain ∧ stage ≠ .cancelled then none
      else
        (relay.step (if task.plane = .exporting then cfg.exporting else cfg.importing) a).map
          fun relay => { task with state := .relaying relay }
  | _ => none

/-- A step of the multiroute handler. -/
def onExchange (cfg : ProcessConfig) (stage : DrainStage) (a : MultirouteAction)
    (task : ConnTask P) : Option (ConnTask P) :=
  match task.state with
  | .serving conn =>
      if a = .shutdown ∧ stage ≠ .cancelled then none
      else (conn.step cfg.multiroute a).map fun conn => { task with state := .serving conn }
  | _ => none

def requestAbort (task : ConnTask P) : ConnTask P := { task with abortRequested := true }

end ConnTask

namespace BridgeProcess

variable {P : HttpProxyParser Octet}

def start (P : HttpProxyParser Octet) : BridgeProcess P := ⟨fun _ => .zero, [], fun _ => .running⟩

def setTask (i : Nat) (task : ConnTask P) (t : BridgeProcess P) : BridgeProcess P :=
  { t with tasks := t.tasks.set i task }

/-- The counters of a service change. -/
def count (service : String) (change : Counters → Counters) (t : BridgeProcess P) :
    BridgeProcess P :=
  { t with counters := Function.update t.counters service (change (t.counters service)) }

/-- Some task of the set has not ended. -/
def busy (owner : Nat) (t : BridgeProcess P) : Bool :=
  t.tasks.any fun task => task.owner = owner && task.pending

/-- The guard is made at the end of the door. -/
def onConnStart (cfg : ProcessConfig) (i : Nat) (task : ConnTask P) (t : BridgeProcess P) :
    Option (BridgeProcess P) :=
  match task.state with
  | .door => some ((t.setTask i { task with state := ConnTask.firstState cfg P task.plane }).count
      task.service .connStart)
  | _ => none

def onLeave (i : Nat) (task : ConnTask P) (t : BridgeProcess P) : Option (BridgeProcess P) :=
  match task.state with
  | .door => some (t.setTask i { task with state := .gone false })
  | _ => none

/-- The task ends by itself. -/
def onFinish (i : Nat) (task : ConnTask P) (t : BridgeProcess P) : Option (BridgeProcess P) :=
  task.outcome.map fun outcome =>
    (t.setTask i { task with state := .gone true, finishes := task.finishes + 1 }).count
      task.service fun c => (c.setOutcome outcome).dropGuard

/-- An aborted task is dropped, with its guard if it holds one. -/
def onDropTask (i : Nat) (task : ConnTask P) (t : BridgeProcess P) : Option (BridgeProcess P) :=
  if task.abortRequested = true ∧ task.pending = true then
    match task.guard with
    | .held => some ((t.setTask i { task with state := .gone true }).count task.service .dropGuard)
    | _ => some (t.setTask i { task with state := .gone false })
  else none

def setStage (owner : Nat) (stage : DrainStage) (t : BridgeProcess P) : BridgeProcess P :=
  { t with stage := Function.update t.stage owner stage }

/-- One step of the process. -/
def step (cfg : ProcessConfig) (t : BridgeProcess P) : ProcessAction → Option (BridgeProcess P)
  | .accept owner service plane =>
      if t.stage owner = .running then
        some { t with tasks := t.tasks ++ [⟨owner, service, plane, .door, false, 0⟩] }
      else none
  | .connStart i => t.tasks[i]?.bind fun task => t.onConnStart cfg i task
  | .leave i => t.tasks[i]?.bind fun task => t.onLeave i task
  | .relay i a => t.tasks[i]?.bind fun task =>
      (task.onRelay cfg (t.stage task.owner) a).map fun task => t.setTask i task
  | .exchange i a => t.tasks[i]?.bind fun task =>
      (task.onExchange cfg (t.stage task.owner) a).map fun task => t.setTask i task
  | .finish i => t.tasks[i]?.bind fun task => t.onFinish i task
  | .drain owner =>
      if t.stage owner = .running then some (t.setStage owner .draining) else none
  | .resume owner =>
      if t.stage owner = .draining then some (t.setStage owner .running) else none
  | .drainDeadline owner =>
      if t.stage owner = .draining ∧ t.busy owner = true then some (t.setStage owner .cancelled)
      else none
  | .abortAll owner =>
      if t.stage owner = .cancelled ∧ t.busy owner = true then some { t with
        tasks := t.tasks.map fun task => if task.owner = owner then task.requestAbort else task }
      else none
  | .abortClient i => t.tasks[i]?.bind fun task =>
      if task.plane = .exporting ∧ t.stage task.owner ≠ .running then
        some (t.setTask i task.requestAbort)
      else none
  | .dropTask i => t.tasks[i]?.bind fun task => t.onDropTask i task

/-- What the accounting sees of a task. -/
structure Entry where
  service : String
  guard : GuardState
  finishes : Nat

/-- The entry of a task. -/
def entry (task : ConnTask P) : Entry := ⟨task.service, task.guard, task.finishes⟩

def book (t : BridgeProcess P) : List Entry := t.tasks.map entry

/-- What a step does to the entries and the counters. -/
inductive Booked (t : BridgeProcess P) (a : ProcessAction) (t' : BridgeProcess P) : Prop
  | kept (entries : t'.book = t.book) (counters : t'.counters = t.counters)
  | accepted (service : String) (entries : t'.book = t.book ++ [⟨service, .unborn, 0⟩])
      (counters : t'.counters = t.counters)
  | started (i : Nat) (e : Entry) (found : t.book[i]? = some e) (before : e.guard = .unborn)
      (entries : t'.book = t.book.set i { e with guard := .held })
      (counters : t'.counters =
        Function.update t.counters e.service (t.counters e.service).connStart)
  | finished (i : Nat) (e : Entry) (outcome : ConnOutcome) (found : t.book[i]? = some e)
      (before : e.guard = .held)
      (entries : t'.book = t.book.set i { e with guard := .dropped, finishes := e.finishes + 1 })
      (counters : t'.counters = Function.update t.counters e.service
        ((t.counters e.service).setOutcome outcome).dropGuard)
  /-- The runtime drops an aborted task that holds its guard. -/
  | lost (i : Nat) (e : Entry) (label : a = .dropTask i) (found : t.book[i]? = some e)
      (before : e.guard = .held)
      (entries : t'.book = t.book.set i { e with guard := .dropped })
      (counters : t'.counters =
        Function.update t.counters e.service (t.counters e.service).dropGuard)

variable {cfg : ProcessConfig} {t t' : BridgeProcess P} {a : ProcessAction} {i : Nat}
  {task task' : ConnTask P}

theorem book_get (h : t.tasks[i]? = some task) : t.book[i]? = some (entry task) := by
  rw [book, List.getElem?_map, h]
  rfl

theorem book_setTask (i : Nat) (task : ConnTask P) (t : BridgeProcess P) :
    (t.setTask i task).book = t.book.set i (entry task) :=
  List.map_set

/-- A task that keeps its entry keeps the book. -/
theorem Booked.of_same (h : t.tasks[i]? = some task) (hentry : entry task' = entry task) :
    Booked t a (t.setTask i task') := by
  refine .kept ?_ rfl
  obtain ⟨hlt, hget⟩ := List.getElem?_eq_some_iff.mp (book_get h)
  rw [book_setTask, hentry, ← hget, List.set_getElem_self hlt]

theorem onConnStart_booked (h : t.tasks[i]? = some task)
    (hs : t.onConnStart cfg i task = some t') : Booked t a t' := by
  unfold onConnStart at hs
  split at hs
  · rename_i hstate
    obtain rfl := Option.some.inj hs
    refine .started i (entry task) (book_get h) ?_ ?_ rfl
    · simp only [entry, ConnTask.guard, hstate]
    · refine (book_setTask i _ t).trans ?_
      simp only [entry, ConnTask.guard, ConnTask.firstState]
      cases task.plane <;> rfl
  · contradiction

theorem onLeave_booked (h : t.tasks[i]? = some task) (hs : t.onLeave i task = some t') :
    Booked t a t' := by
  unfold onLeave at hs
  split at hs
  · rename_i hstate
    obtain rfl := Option.some.inj hs
    apply Booked.of_same h
    simp only [entry, ConnTask.guard, hstate, Bool.false_eq_true, if_false]
  · contradiction

theorem onRelay_entry {stage : DrainStage} {b : RelayAction}
    (hs : task.onRelay cfg stage b = some task') : entry task' = entry task := by
  unfold ConnTask.onRelay at hs
  split at hs
  · rename_i hstate
    split at hs
    · contradiction
    · obtain ⟨relay, -, rfl⟩ := Option.map_eq_some_iff.mp hs
      simp only [entry, ConnTask.guard, hstate]
  · contradiction

theorem onExchange_entry {stage : DrainStage} {b : MultirouteAction}
    (hs : task.onExchange cfg stage b = some task') : entry task' = entry task := by
  unfold ConnTask.onExchange at hs
  split at hs
  · rename_i hstate
    split at hs
    · contradiction
    · obtain ⟨conn, -, rfl⟩ := Option.map_eq_some_iff.mp hs
      simp only [entry, ConnTask.guard, hstate]
  · contradiction

/-- A data plane that has ended holds its guard. -/
theorem guard_of_outcome {outcome : ConnOutcome} (h : task.outcome = some outcome) :
    task.guard = .held := by
  unfold ConnTask.outcome at h
  unfold ConnTask.guard
  split at h
  · rename_i hstate
    rw [hstate]
  · rename_i hstate
    rw [hstate]
  · contradiction

theorem onFinish_booked (h : t.tasks[i]? = some task) (hs : t.onFinish i task = some t') :
    Booked t a t' := by
  obtain ⟨outcome, houtcome, rfl⟩ := Option.map_eq_some_iff.mp hs
  exact .finished i (entry task) outcome (book_get h) (guard_of_outcome houtcome)
    (book_setTask i _ t) rfl

theorem guard_of_pending (h : task.pending = true) (hguard : task.guard ≠ .held) :
    task.guard = .unborn := by
  cases hstate : task.state with
  | door => rw [ConnTask.guard, hstate]
  | relaying relay => exact absurd (by rw [ConnTask.guard, hstate]) hguard
  | serving conn => exact absurd (by rw [ConnTask.guard, hstate]) hguard
  | gone guarded =>
      rw [ConnTask.pending, hstate] at h
      cases h

theorem onDropTask_booked (h : t.tasks[i]? = some task) (hs : t.onDropTask i task = some t') :
    Booked t (.dropTask i) t' := by
  unfold onDropTask at hs
  split at hs
  · rename_i hpending
    split at hs
    · rename_i hguard
      obtain rfl := Option.some.inj hs
      exact .lost i (entry task) rfl (book_get h) hguard (book_setTask i _ t) rfl
    · rename_i hguard
      obtain rfl := Option.some.inj hs
      apply Booked.of_same h
      have hunborn := guard_of_pending hpending.2 hguard
      rw [entry, entry, hunborn]
      rfl
  · contradiction

theorem step_booked (hs : step cfg t a = some t') : Booked t a t' := by
  cases a with
  | accept owner service plane =>
      simp only [step, Option.ite_none_right_eq_some] at hs
      obtain rfl := Option.some.inj hs.2
      refine .accepted service ?_ rfl
      exact List.map_append
  | connStart i =>
      obtain ⟨task, htask, hstart⟩ := Option.bind_eq_some_iff.mp hs
      exact onConnStart_booked htask hstart
  | leave i =>
      obtain ⟨task, htask, hleave⟩ := Option.bind_eq_some_iff.mp hs
      exact onLeave_booked htask hleave
  | relay i b =>
      obtain ⟨task, htask, hrelay⟩ := Option.bind_eq_some_iff.mp hs
      obtain ⟨task', hstep, rfl⟩ := Option.map_eq_some_iff.mp hrelay
      exact .of_same htask (onRelay_entry hstep)
  | exchange i b =>
      obtain ⟨task, htask, hexchange⟩ := Option.bind_eq_some_iff.mp hs
      obtain ⟨task', hstep, rfl⟩ := Option.map_eq_some_iff.mp hexchange
      exact .of_same htask (onExchange_entry hstep)
  | finish i =>
      obtain ⟨task, htask, hfinish⟩ := Option.bind_eq_some_iff.mp hs
      exact onFinish_booked htask hfinish
  | drain owner =>
      simp only [step, Option.ite_none_right_eq_some] at hs
      obtain rfl := Option.some.inj hs.2
      exact .kept rfl rfl
  | resume owner =>
      simp only [step, Option.ite_none_right_eq_some] at hs
      obtain rfl := Option.some.inj hs.2
      exact .kept rfl rfl
  | drainDeadline owner =>
      simp only [step, Option.ite_none_right_eq_some] at hs
      obtain rfl := Option.some.inj hs.2
      exact .kept rfl rfl
  | abortAll owner =>
      simp only [step, Option.ite_none_right_eq_some] at hs
      obtain rfl := Option.some.inj hs.2
      refine .kept ?_ rfl
      simp only [book, List.map_map]
      apply List.map_congr_left
      intro task _
      simp only [Function.comp_apply]
      split <;> rfl
  | abortClient i =>
      obtain ⟨task, htask, habort⟩ := Option.bind_eq_some_iff.mp hs
      simp only [Option.ite_none_right_eq_some] at habort
      obtain rfl := Option.some.inj habort.2
      exact .of_same htask rfl
  | dropTask i =>
      obtain ⟨task, htask, hdrop⟩ := Option.bind_eq_some_iff.mp hs
      exact onDropTask_booked htask hdrop

section Tally

/-- The sum of a quantity over the entries. -/
def tally (f : Entry → Nat) : List Entry → Nat
  | [] => 0
  | e :: rest => f e + tally f rest

theorem tally_append (f : Entry → Nat) (entries : List Entry) (e : Entry) :
    tally f (entries ++ [e]) = tally f entries + f e := by
  induction entries with
  | nil => simp only [List.nil_append, tally, Nat.zero_add, Nat.add_zero]
  | cons first rest ih => rw [List.cons_append, tally, tally, ih, Nat.add_assoc]

/-- Replacing an entry exchanges its quantity. -/
theorem tally_set (f : Entry → Nat) {entries : List Entry} {i : Nat} {e : Entry}
    (h : entries[i]? = some e) (e' : Entry) :
    tally f (entries.set i e') + f e = tally f entries + f e' := by
  induction entries generalizing i with
  | nil => cases h
  | cons first rest ih =>
      cases i with
      | zero =>
          obtain rfl := Option.some.inj h
          simp only [tally, List.set_cons_zero]
          omega
      | succ i =>
          have htail := ih h
          simp only [tally, List.set_cons_succ]
          omega

theorem tally_congr {f g : Entry → Nat} {entries : List Entry} (h : ∀ e ∈ entries, f e = g e) :
    tally f entries = tally g entries := by
  induction entries with
  | nil => rfl
  | cons first rest ih =>
      rw [tally, tally, h first List.mem_cons_self]
      rw [ih fun e he => h e (List.mem_cons_of_mem first he)]

theorem tally_zero (entries : List Entry) : tally (fun _ => 0) entries = 0 := by
  induction entries with
  | nil => rfl
  | cons e rest ih => rw [tally, ih]

end Tally

/-- The guards ever made for a service, those alive, and the records made of them. -/
def Entry.made (service : String) (e : Entry) : Nat :=
  if e.service = service ∧ e.guard ≠ .unborn then 1 else 0

def Entry.alive (service : String) (e : Entry) : Nat :=
  if e.service = service ∧ e.guard = .held then 1 else 0

def Entry.records (service : String) (e : Entry) : Nat :=
  if e.service = service then e.finishes else 0

/-- A counter of every service agrees with a quantity of the entries. -/
def Agrees (q : Counters → Int) (f : String → Entry → Nat) (t : BridgeProcess P) : Prop :=
  ∀ service, q (t.counters service) = tally (f service) t.book

/-- The counters agree with the entries. -/
structure Balanced (t : BridgeProcess P) : Prop where
  total : Agrees (fun c => c.total) Entry.made t
  active : Agrees Counters.active Entry.alive t
  recorded : Agrees (fun c => c.recorded) Entry.records t

section Agreement

variable {q : Counters → Int} {f : String → Entry → Nat} {e e' : Entry} {c : Counters}

theorem Agrees.kept (h : Agrees q f t) (entries : t'.book = t.book)
    (counters : t'.counters = t.counters) : Agrees q f t' := by
  intro service
  rw [entries, counters]
  exact h service

theorem Agrees.accepted (h : Agrees q f t) (entries : t'.book = t.book ++ [e])
    (counters : t'.counters = t.counters) (nothing : ∀ service, f service e = 0) :
    Agrees q f t' := by
  intro service
  rw [entries, counters, tally_append, nothing, h service]
  rfl

/-- An entry and the counters of its service change by the same amount. -/
theorem Agrees.set (h : Agrees q f t) (found : t.book[i]? = some e)
    (entries : t'.book = t.book.set i e')
    (counters : t'.counters = Function.update t.counters e.service c)
    (other : ∀ service, service ≠ e.service → f service e' = f service e)
    (change : q c + f e.service e = q (t.counters e.service) + f e.service e') :
    Agrees q f t' := by
  intro service
  have hset := tally_set (f service) found e'
  have hold := h service
  rw [entries, counters]
  by_cases hservice : service = e.service
  · subst hservice
    rw [Function.update_self]
    omega
  · rw [Function.update_of_ne hservice]
    have hsame := other service hservice
    omega

theorem made_other (hservice : e'.service = e.service) (service : String)
    (h : service ≠ e.service) : e'.made service = e.made service := by
  simp only [Entry.made, hservice, Ne.symm h, false_and, if_false]

theorem alive_other (hservice : e'.service = e.service) (service : String)
    (h : service ≠ e.service) : e'.alive service = e.alive service := by
  simp only [Entry.alive, hservice, Ne.symm h, false_and, if_false]

theorem records_other (hservice : e'.service = e.service) (service : String)
    (h : service ≠ e.service) : e'.records service = e.records service := by
  simp only [Entry.records, hservice, Ne.symm h, if_false]

end Agreement

theorem Balanced.step (h : Balanced t) (hs : step cfg t a = some t') : Balanced t' := by
  cases step_booked hs with
  | kept entries counters =>
      exact ⟨h.total.kept entries counters, h.active.kept entries counters,
        h.recorded.kept entries counters⟩
  | accepted service entries counters =>
      constructor
      · exact h.total.accepted entries counters fun _ => if_neg fun hmade => hmade.2 rfl
      · exact h.active.accepted entries counters fun _ => if_neg fun halive => nomatch halive.2
      · exact h.recorded.accepted entries counters fun _ => ite_self 0
  | started i e found before entries counters =>
      constructor
      · apply h.total.set found entries counters (made_other rfl)
        simp [Entry.made, before, Counters.connStart]
      · apply h.active.set found entries counters (alive_other rfl)
        simp [Entry.alive, before, Counters.connStart]
      · apply h.recorded.set found entries counters (records_other rfl)
        simp [Entry.records, Counters.connStart, Counters.recorded]
  | finished i e outcome found before entries counters =>
      constructor
      · apply h.total.set found entries counters (made_other rfl)
        simp [Entry.made, before, Counters.dropGuard]
      · apply h.active.set found entries counters (alive_other rfl)
        simp [Entry.alive, before, Counters.dropGuard]
      · apply h.recorded.set found entries counters (records_other rfl)
        have hrecorded := Counters.setOutcome_recorded outcome (t.counters e.service)
        simp only [Entry.records, if_true, Counters.recorded, Counters.dropGuard] at hrecorded ⊢
        omega
  | lost i e label found before entries counters =>
      constructor
      · apply h.total.set found entries counters (made_other rfl)
        simp [Entry.made, before, Counters.dropGuard]
      · apply h.active.set found entries counters (alive_other rfl)
        simp [Entry.alive, before, Counters.dropGuard]
      · apply h.recorded.set found entries counters (records_other rfl)
        simp [Entry.records, Counters.dropGuard, Counters.recorded]

/-- Every connection is recorded exactly once: `finish` was called once on every guard that
is gone, and without a live guard the counters of every service add up. -/
structure RecordedOnce (t : BridgeProcess P) : Prop where
  once : ∀ task ∈ t.tasks, task.guard = .dropped → task.finishes = 1
  sums : (∀ task ∈ t.tasks, task.guard ≠ .held) → ∀ service,
    (t.counters service).total = (t.counters service).completed + (t.counters service).reset +
      (t.counters service).failed ∧ (t.counters service).active = 0

/-- An abort takes no task that still holds its guard. -/
def SparesGuards (t : BridgeProcess P) : ProcessAction → Prop
  | .dropTask i => t.tasks[i]?.map ConnTask.guard ≠ some .held
  | _ => True

/-- The calls of `finish` that a guard has seen. -/
def Settled (e : Entry) : Prop := e.finishes = if e.guard = .dropped then 1 else 0

/-- The counters agree with the entries, and every guard was finished when it was dropped. -/
structure Accounted (t : BridgeProcess P) : Prop where
  balanced : Balanced t
  settled : ∀ e ∈ t.book, Settled e

theorem accounted_start (P : HttpProxyParser Octet) : Accounted (start P) := by
  refine ⟨⟨?_, ?_, ?_⟩, ?_⟩
  · exact fun _ => rfl
  · exact fun _ => rfl
  · exact fun _ => rfl
  · exact fun e he => absurd he List.not_mem_nil

theorem settled_set {entries : List Entry} {e' : Entry} (h : ∀ x ∈ entries, Settled x)
    (he : Settled e') : ∀ x ∈ entries.set i e', Settled x := by
  intro x hx
  obtain hmem | rfl := List.mem_or_eq_of_mem_set hx
  · exact h x hmem
  · exact he

theorem Accounted.step (h : Accounted t) (hspares : SparesGuards t a)
    (hs : step cfg t a = some t') : Accounted t' := by
  refine ⟨h.balanced.step hs, ?_⟩
  cases step_booked hs with
  | kept entries counters =>
      rw [entries]
      exact h.settled
  | accepted service entries counters =>
      rw [entries]
      intro e he
      obtain hold | hnew := List.mem_append.mp he
      · exact h.settled e hold
      · rw [List.mem_singleton.mp hnew]
        rfl
  | started i e found before entries counters =>
      have hold : Settled e := h.settled e (List.mem_of_getElem? found)
      rw [Settled, before] at hold
      rw [entries]
      exact settled_set h.settled hold
  | finished i e outcome found before entries counters =>
      have hold : Settled e := h.settled e (List.mem_of_getElem? found)
      rw [Settled, before] at hold
      rw [entries]
      exact settled_set h.settled (congrArg (· + 1) hold)
  | lost i e label found before entries counters =>
      subst label
      exfalso
      apply hspares
      rw [book, List.getElem?_map] at found
      obtain ⟨task, htask, rfl⟩ := Option.map_eq_some_iff.mp found
      rw [htask]
      exact congrArg some before

/-- A guard that is not alive has as many records as it was made. -/
theorem made_eq_records {e : Entry} (h : Settled e) (hgone : e.guard ≠ .held) (service : String) :
    e.made service = e.records service := by
  rw [Settled] at h
  rw [Entry.made, Entry.records, h]
  cases hguard : e.guard with
  | unborn => simp
  | held => exact absurd hguard hgone
  | dropped => simp

theorem Accounted.recordedOnce (h : Accounted t) : RecordedOnce t where
  once := by
    intro task htask hdropped
    have hsettled := h.settled (entry task) (List.mem_map_of_mem htask)
    rw [Settled] at hsettled
    exact hsettled.trans (if_pos hdropped)
  sums := by
    intro hnone service
    have hgone : ∀ e ∈ t.book, e.guard ≠ .held := by
      intro e he
      obtain ⟨task, htask, rfl⟩ := List.mem_map.mp he
      exact hnone task htask
    have hmade : tally (Entry.made service) t.book = tally (Entry.records service) t.book := by
      apply tally_congr
      intro e he
      exact made_eq_records (h.settled e he) (hgone e he) service
    have halive : tally (Entry.alive service) t.book = 0 := by
      rw [← tally_zero t.book]
      apply tally_congr
      intro e he
      exact if_neg fun halive => hgone e he halive.2
    have htotal := h.balanced.total service
    have hactive := h.balanced.active service
    have hrecorded := h.balanced.recorded service
    simp only [Counters.recorded] at htotal hactive hrecorded
    constructor
    · omega
    · omega

/-- A task that is dropped with its guard leaves no record. -/
theorem Accounted.unrecorded (h : Accounted t) (hbad : ¬ SparesGuards t a)
    (hs : BridgeProcess.step cfg t a = some t') : ¬ RecordedOnce t' := by
  cases a with
  | dropTask i =>
      obtain ⟨task, htask, hdrop⟩ := Option.bind_eq_some_iff.mp hs
      have hheld : task.guard = .held := by
        simpa only [SparesGuards, htask, Option.map_some, Option.some.injEq, not_not] using hbad
      have hfinishes : task.finishes = 0 := by
        have hsettled := h.settled (entry task) (List.mem_map_of_mem (List.mem_of_getElem? htask))
        rw [Settled] at hsettled
        simpa [entry, hheld] using hsettled
      unfold onDropTask at hdrop
      rw [hheld] at hdrop
      simp only [Option.ite_none_right_eq_some] at hdrop
      obtain rfl := Option.some.inj hdrop.2
      have hlt : i < t.tasks.length := (List.getElem?_eq_some_iff.mp htask).1
      intro hrecorded
      have honce := hrecorded.once { task with state := .gone true } (List.mem_set hlt _) rfl
      exact Nat.zero_ne_one (hfinishes.symm.trans honce)
  | _ => exact absurd trivial hbad

/-- In every run of the process, every connection is recorded exactly once if and only if no
abort of a drain takes a connection task that still holds its guard. -/
theorem recorded_once_iff_spares (cfg : ProcessConfig) (P : HttpProxyParser Octet)
    (schedule : List ProcessAction) :
    Always (step cfg) RecordedOnce (start P) schedule ↔
      Along (step cfg) SparesGuards (start P) schedule := by
  apply always_iff_along (fun _ _ => True) (fun _ => Accounted.recordedOnce)
  · intro t a t' h _ hspares hs
    exact h.step hspares hs
  · intro t a t' h _ hbad hs
    exact h.unrecorded hbad hs
  · exact accounted_start P
  · exact along_of_labels (fun _ _ => trivial) _

/-- A listener drains while one half of a relay hangs in a write to a client that does not
read. The cancel ends the other half only, the grace passes, and the coordinator is aborted
before its `finish`. -/
theorem unrecorded_after_abort_all :
    ¬ Always (step ⟨⟨1, .stream, .importing⟩, ⟨1, .stream, .exporting⟩, ⟨64, 64⟩⟩) RecordedOnce
      (start (headParser 64))
      [.accept 0 "web" .importing, .connStart 0, .relay 0 (.deliver [1]), .relay 0 .recv, .drain 0,
        .drainDeadline 0, .relay 0 .listenerDrain, .relay 0 .senderCancelled, .abortAll 0,
        .dropTask 0] := by
  intro h
  obtain ⟨t, run, task, htask, hdropped, hfinishes⟩ : ∃ t : BridgeProcess (headParser 64),
      exec (step ⟨⟨1, .stream, .importing⟩, ⟨1, .stream, .exporting⟩, ⟨64, 64⟩⟩)
        (start (headParser 64))
        [.accept 0 "web" .importing, .connStart 0, .relay 0 (.deliver [1]), .relay 0 .recv,
          .drain 0, .drainDeadline 0, .relay 0 .listenerDrain, .relay 0 .senderCancelled,
          .abortAll 0, .dropTask 0] = some t ∧
      ∃ task ∈ t.tasks, task.guard = .dropped ∧ task.finishes = 0 :=
    ⟨_, rfl, _, List.mem_singleton_self _, rfl, rfl⟩
  have honce := (h.last run).once task htask hdropped
  rw [hfinishes] at honce
  cases honce

end BridgeProcess

end ZenohBridge
