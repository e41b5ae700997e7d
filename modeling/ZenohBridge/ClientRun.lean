import ZenohBridge.Registry
import ZenohBridge.SignalHold

/-!
# The life of an exported client

`run_client` dials the backend with retries, runs the bridge, publishes the error signal unless
the bridge ended cleanly, and removes its own entry of the registry. The dial races the cancel
of the task. The setup of the bridge is bounded by the read timeout and does not look at the
cancel. While the bridge relays, a watcher turns the cancel into a reset, and a watchdog aborts
the relay tasks when the drain time has passed since the first reset.

## Implementation notes

Time is in milliseconds and belongs to the surroundings, and the configured times are such that
the clock can add them: above the limits of `Limits` the drain or the signal would panic, which no
state shows here. A setup that fails may do so at any time, at its timeout at the latest. The
undeclares after the relay have no bound. An aborted task is dropped at once; the records of
connections give this a step of its own. The pauses of the dial are those that the builder of its
backoff documents, without jitter. The task of the registry model is a view of this one. `ending`,
`cancelled`, `attempts` and the instants are history.
-/

namespace ZenohBridge

open Deadline

/-- What `run_client` reads of its configuration. -/
structure ClientConfig where
  connectTimeout : Nat
  readTimeout : Nat
  drainTimeout : Nat
  availabilityTimeout : Nat

/-- Where `run_client` is. -/
inductive RunStage where
  | dialing (dial : Retry)
  | settingUp (expires : Nat)
  /-- The relay with its watchdog, which is armed by a reset. -/
  | relaying (abortAt : Option Nat)
  | undeclaring (clean : Bool)
  | signalling
  /-- Before `remove_self`. -/
  | leaving
  | returned
  | aborted
  deriving DecidableEq, Repr

/-- What made `run_client` end. -/
inductive RunEnd where
  | cancelled
  | unreachable
  | setupFailed
  | unclean
  | clean
  deriving DecidableEq, Repr

/-- The ends that the import side is told about. -/
def RunEnd.signals : RunEnd → Bool
  | .unreachable | .setupFailed | .unclean => true
  | .cancelled | .clean => false

/-- When a task was sent its cancel, in which phase it was, and whether by a drain. -/
structure CancelRecord where
  sentAt : Nat
  phase : ClientPhase
  byDrain : Bool
  deriving DecidableEq, Repr

/-- The bridge of the task had been set up when the cancel was sent. -/
def CancelRecord.connected (r : CancelRecord) : Bool :=
  match r.phase with
  | .dialing | .setup => false
  | .relaying | .finishing | .returned | .dead => true

/-- One `run_client` with the publication of its signal. -/
structure ClientRun where
  client : Nat
  stage : RunStage
  cancel : BoundedChannel Unit
  cancelConsumed : Bool
  cancelled : Option CancelRecord
  /-- The liveliness token of the client is gone. -/
  tokenGone : Bool
  signal : Option SignalPublish
  ending : Option RunEnd
  attempts : Nat
  startedAt : Nat
  dialedAt : Option Nat
  joinedAt : Option Nat
  undeclaredAt : Option Nat
  overAt : Option Nat
  deriving DecidableEq

inductive RunAction where
  | dial (a : RetryAction)
  | dialCancelled
  | setupDone (ok : Bool)
  | watcherTakes
  /-- The connection is reset from within. -/
  | tripped
  /-- Both relay tasks have ended. -/
  | joined (clean : Bool)
  | watchdog
  | undeclared
  | publish (a : PublishAction)
  | signalled
  | removeSelf
  | tokenVanishes
  deriving DecidableEq, Repr

namespace RunStage

/-- The phase of the task as the registry sees it. -/
def phase : RunStage → ClientPhase
  | .dialing _ => .dialing
  | .settingUp _ => .setup
  | .relaying _ => .relaying
  | .undeclaring _ | .signalling | .leaving => .finishing
  | .returned => .returned
  | .aborted => .dead

/-- The timers of a stage. -/
def instants (cfg : ClientConfig) : RunStage → List Nat
  | .dialing dial => dial.instants cfg.connectTimeout
  | .settingUp expires => [expires]
  | .relaying abortAt => abortAt.toList
  | .undeclaring _ | .signalling | .leaving | .returned | .aborted => []

end RunStage

namespace ClientRun

/-- The pauses of the dial: `ExponentialBuilder` from 100 ms to at most 5 s, five times. -/
def dialPauses : List Nat := exponential 5000 100 5

/-- A spawned task, which begins with its first attempt. -/
def start (client now : Nat) : ClientRun :=
  ⟨client, .dialing (.trying now dialPauses), .new 1, false, none, false, none, none, 1, now,
    none, none, none, none⟩

/-- The task of the registry. -/
def task (c : ClientRun) : ClientTask Nat :=
  ⟨c.client, c.stage.phase, c.cancel, c.cancelled.isSome, c.cancelConsumed⟩

/-- The task has returned or was aborted. -/
def isOver (c : ClientRun) : Bool := c.overAt.isSome

/-- The cancel waits in its channel. -/
def pending (c : ClientRun) : Bool := !c.cancel.queue.isEmpty

/-- The error signal is about to be published. -/
def giveUp (cfg : ClientConfig) (now : Nat) (why : RunEnd) (c : ClientRun) : ClientRun :=
  { c with
    stage := .signalling
    signal := some (.start cfg.availabilityTimeout now)
    ending := some why }

/-- After a step of the dial. -/
def dialed (cfg : ClientConfig) (now : Nat) (c : ClientRun) : Retry → ClientRun
  | .succeeded => { c with
      stage := .settingUp (now + cfg.readTimeout)
      dialedAt := some now }
  | .failed => c.giveUp cfg now .unreachable
  | .trying since left => { c with
      stage := .dialing (.trying since left)
      attempts := c.attempts + 1 }
  | .pausing wakeAt left => { c with stage := .dialing (.pausing wakeAt left) }

/-- The token of the connection is cancelled, which arms the watchdog once. -/
def trip (cfg : ClientConfig) (now : Nat) (abortAt : Option Nat) (c : ClientRun) : ClientRun :=
  { c with stage := .relaying (some (abortAt.getD (now + cfg.drainTimeout))) }

/-- Both relay tasks are joined, the watcher is aborted. -/
def join (now : Nat) (clean : Bool) (c : ClientRun) : ClientRun :=
  { c with
    stage := .undeclaring clean
    cancel := c.cancel.close
    joinedAt := some now }

/-- The entities of a bridge are undeclared and its outcome is known. -/
def undeclare (cfg : ClientConfig) (now : Nat) (clean : Bool) (c : ClientRun) : ClientRun :=
  if clean then { c with stage := .leaving, undeclaredAt := some now, ending := some .clean }
  else { c with undeclaredAt := some now }.giveUp cfg now .unclean

/-- `cancel_tx.send(())`. -/
def sendCancel (now : Nat) (byDrain : Bool) (c : ClientRun) : ClientRun :=
  { c with
    cancel := c.task.sendCancel.cancel
    cancelled := some ⟨now, c.stage.phase, byDrain⟩ }

/-- The task is aborted; a publish that runs in it is dropped with it. -/
def abort (now : Nat) (c : ClientRun) : ClientRun :=
  { c with
    stage := .aborted
    cancel := c.cancel.close
    signal := c.signal.map SignalPublish.drop
    overAt := some now }

/-- One step of the task, of the relay in it or of its holder. -/
def step (cfg : ClientConfig) (now : Nat) (c : ClientRun) : RunAction → Option ClientRun
  | .dial a =>
      match c.stage with
      | .dialing dial => (dial.step now a).map (c.dialed cfg now)
      | _ => none
  | .dialCancelled =>
      match c.stage with
      | .dialing _ => c.cancel.recv.map fun r => { c with
          stage := .leaving
          cancel := r.2
          cancelConsumed := true
          ending := some .cancelled }
      | _ => none
  | .setupDone ok =>
      match c.stage with
      | .settingUp _ => some (if ok then { c with stage := .relaying none }
          -- the receiver of the cancel is dropped with the failed setup
          else { c with cancel := c.cancel.close }.giveUp cfg now .setupFailed)
      | _ => none
  | .watcherTakes =>
      match c.stage with
      | .relaying abortAt => c.cancel.recv.map fun r =>
          { c with cancel := r.2, cancelConsumed := true }.trip cfg now abortAt
      | _ => none
  | .tripped =>
      match c.stage with
      | .relaying abortAt => some (c.trip cfg now abortAt)
      | _ => none
  | .joined clean =>
      match c.stage with
      | .relaying _ => some (c.join now clean)
      | _ => none
  | .watchdog =>
      match c.stage with
      | .relaying (some abortAt) => if abortAt ≤ now then some (c.join now false) else none
      | _ => none
  | .undeclared =>
      match c.stage with
      | .undeclaring clean => some (c.undeclare cfg now clean)
      | _ => none
  | .publish a =>
      match c.signal with
      | some s =>
          if c.stage = .signalling ∨ a.ofHolder = true then
            (s.step cfg.availabilityTimeout now c.tokenGone a).map fun s =>
              { c with signal := some s }
          else none
      | none => none
  | .signalled =>
      match c.signal with
      | some s =>
          if c.stage = .signalling ∧ s.running = false then some { c with stage := .leaving }
          else none
      | none => none
  | .removeSelf =>
      if c.stage = .leaving then some { c with
        stage := .returned
        cancel := c.cancel.close
        overAt := some now }
      else none
  | .tokenVanishes => some { c with tokenGone := true }

/-- The task can go on at once. -/
def ready (c : ClientRun) : Bool :=
  match c.stage with
  | .dialing _ | .relaying _ => c.pending
  | .signalling => c.signal.all fun s => !s.running
  | .leaving => true
  | .settingUp _ | .undeclaring _ | .returned | .aborted => false

/-- The timers of the task and of its signal. -/
def instants (cfg : ClientConfig) (c : ClientRun) : List Nat :=
  c.stage.instants cfg ++ (c.signal.map SignalPublish.instants).getD []

/-- The steps that the task or its holder takes by itself. The ends of an attempt and of the
setup are among them at their timeouts. -/
def own (cfg : ClientConfig) (now : Nat) (c : ClientRun) : RunAction → Bool
  | .dial a =>
      match c.stage with
      | .dialing dial => dial.forced cfg.connectTimeout now a
      | _ => false
  | .setupDone _ =>
      match c.stage with
      | .settingUp expires => decide (expires ≤ now)
      | _ => false
  | .dialCancelled | .watcherTakes | .watchdog | .signalled | .removeSelf => true
  | .publish a => a.own
  | .tripped | .joined _ | .undeclared | .tokenVanishes => false

/-- The task or its holder goes on by itself. -/
def urgent (cfg : ClientConfig) (now : Nat) (c : ClientRun) : Bool :=
  c.ready || expired (c.instants cfg) now

/-- Everything that a step can do, with what it requires. -/
inductive Moved (cfg : ClientConfig) (now : Nat) (c : ClientRun) : RunAction → ClientRun → Prop
  | dialed (a : RetryAction) (dial dial' : Retry) (stage : c.stage = .dialing dial)
      (step : dial.step now a = some dial') : Moved cfg now c (.dial a) (c.dialed cfg now dial')
  | dialCancelled (dial : Retry) (channel : BoundedChannel Unit) (stage : c.stage = .dialing dial)
      (taken : c.cancel.recv = some ((), channel)) : Moved cfg now c .dialCancelled { c with
        stage := .leaving
        cancel := channel
        cancelConsumed := true
        ending := some .cancelled }
  | setUp (expires : Nat) (stage : c.stage = .settingUp expires) :
      Moved cfg now c (.setupDone true) { c with stage := .relaying none }
  | setupFailed (expires : Nat) (stage : c.stage = .settingUp expires) :
      Moved cfg now c (.setupDone false)
        ({ c with cancel := c.cancel.close }.giveUp cfg now .setupFailed)
  | watcherTook (abortAt : Option Nat) (channel : BoundedChannel Unit)
      (stage : c.stage = .relaying abortAt) (taken : c.cancel.recv = some ((), channel)) :
      Moved cfg now c .watcherTakes
        ({ c with cancel := channel, cancelConsumed := true }.trip cfg now abortAt)
  | tripped (abortAt : Option Nat) (stage : c.stage = .relaying abortAt) :
      Moved cfg now c .tripped (c.trip cfg now abortAt)
  | joined (a : RunAction) (abortAt : Option Nat) (clean : Bool)
      (stage : c.stage = .relaying abortAt)
      (how : a = .joined clean ∨ a = .watchdog) : Moved cfg now c a (c.join now clean)
  | undeclared (clean : Bool) (stage : c.stage = .undeclaring clean) :
      Moved cfg now c .undeclared (c.undeclare cfg now clean)
  | published (a : PublishAction) (s s' : SignalPublish) (signal : c.signal = some s)
      (own : c.stage = .signalling ∨ a.ofHolder = true)
      (step : s.step cfg.availabilityTimeout now c.tokenGone a = some s') :
      Moved cfg now c (.publish a) { c with signal := some s' }
  | signalled (s : SignalPublish) (signal : c.signal = some s) (stage : c.stage = .signalling)
      (done : s.running = false) : Moved cfg now c .signalled { c with stage := .leaving }
  | left (stage : c.stage = .leaving) : Moved cfg now c .removeSelf { c with
      stage := .returned
      cancel := c.cancel.close
      overAt := some now }
  | vanished : Moved cfg now c .tokenVanishes { c with tokenGone := true }

variable {cfg : ClientConfig} {now : Nat} {c c' : ClientRun} {a : RunAction}

theorem moved_dial {ra : RetryAction} (h : c.step cfg now (.dial ra) = some c') :
    Moved cfg now c (.dial ra) c' := by
  simp only [step] at h
  split at h
  · next dial hstage =>
      obtain ⟨dial', hdial, rfl⟩ := Option.map_eq_some_iff.mp h
      exact .dialed ra dial dial' hstage hdial
  · cases h

theorem moved_setupDone {ok : Bool} (h : c.step cfg now (.setupDone ok) = some c') :
    Moved cfg now c (.setupDone ok) c' := by
  simp only [step] at h
  split at h
  · next expires hstage =>
      obtain rfl := Option.some.inj h
      cases ok with
      | true => exact .setUp expires hstage
      | false => exact .setupFailed expires hstage
  · cases h

theorem moved_taken (h : c.step cfg now a = some c') (ha : a = .dialCancelled ∨ a = .watcherTakes) :
    Moved cfg now c a c' := by
  obtain rfl | rfl := ha
  · simp only [step] at h
    split at h
    · next dial hstage =>
        obtain ⟨⟨_, channel⟩, htaken, rfl⟩ := Option.map_eq_some_iff.mp h
        exact .dialCancelled dial channel hstage htaken
    · cases h
  · simp only [step] at h
    split at h
    · next abortAt hstage =>
        obtain ⟨⟨_, channel⟩, htaken, rfl⟩ := Option.map_eq_some_iff.mp h
        exact .watcherTook abortAt channel hstage htaken
    · cases h

theorem moved_watchdog (h : c.step cfg now .watchdog = some c') : Moved cfg now c .watchdog c' := by
  simp only [step] at h
  split at h
  · next abortAt hstage =>
      simp only [Option.ite_none_right_eq_some] at h
      obtain rfl := Option.some.inj h.2
      exact .joined _ (some abortAt) false hstage (.inr rfl)
  · cases h

theorem moved_publish {pa : PublishAction} (h : c.step cfg now (.publish pa) = some c') :
    Moved cfg now c (.publish pa) c' := by
  simp only [step] at h
  split at h
  · next s hsignal =>
      simp only [Option.ite_none_right_eq_some] at h
      obtain ⟨hown, h⟩ := h
      obtain ⟨s', hs, rfl⟩ := Option.map_eq_some_iff.mp h
      exact .published pa s s' hsignal hown hs
  · cases h

theorem moved_signalled (h : c.step cfg now .signalled = some c') :
    Moved cfg now c .signalled c' := by
  simp only [step] at h
  split at h
  · next s hsignal =>
      simp only [Option.ite_none_right_eq_some] at h
      obtain ⟨⟨hstage, hover⟩, h⟩ := h
      obtain rfl := Option.some.inj h
      exact .signalled s hsignal hstage hover
  · cases h

/-- Inversion of a step. -/
theorem moved_of_step (h : c.step cfg now a = some c') : Moved cfg now c a c' := by
  cases a with
  | dial ra => exact moved_dial h
  | dialCancelled => exact moved_taken h (.inl rfl)
  | setupDone ok => exact moved_setupDone h
  | watcherTakes => exact moved_taken h (.inr rfl)
  | tripped =>
      simp only [step] at h
      split at h
      · next abortAt hstage =>
          obtain rfl := Option.some.inj h
          exact .tripped abortAt hstage
      · cases h
  | joined clean =>
      simp only [step] at h
      split at h
      · next abortAt hstage =>
          obtain rfl := Option.some.inj h
          exact .joined _ abortAt clean hstage (.inl rfl)
      · cases h
  | watchdog => exact moved_watchdog h
  | undeclared =>
      simp only [step] at h
      split at h
      · next clean hstage =>
          obtain rfl := Option.some.inj h
          exact .undeclared clean hstage
      · cases h
  | publish pa => exact moved_publish h
  | signalled => exact moved_signalled h
  | removeSelf =>
      simp only [step, Option.ite_none_right_eq_some] at h
      obtain ⟨hstage, h⟩ := h
      obtain rfl := Option.some.inj h
      exact .left hstage
  | tokenVanishes =>
      obtain rfl := Option.some.inj h
      exact .vanished

/-- A step of the task is a step of the task of the registry, its `remove_self`, or nothing
that the registry sees. -/
theorem task_moved (hm : Moved cfg now c a c') :
    c'.task = c.task ∨ (∃ event, c.task.step event = some c'.task) ∨
      (c.task.phase = .finishing ∧
        c'.task = { c.task with phase := .returned, cancel := c.task.cancel.close }) := by
  cases hm with
  | dialed ra dial dial' hstage hdial =>
      cases dial' with
      | trying | pausing =>
          left
          simp only [dialed, task, hstage, RunStage.phase]
      | succeeded =>
          refine .inr (.inl ⟨.dialed true, ?_⟩)
          simp [dialed, task, hstage, RunStage.phase, ClientTask.step, ClientTask.dialed]
      | failed =>
          refine .inr (.inl ⟨.dialed false, ?_⟩)
          simp [dialed, giveUp, task, hstage, RunStage.phase, ClientTask.step, ClientTask.dialed]
  | dialCancelled dial channel hstage htaken =>
      refine .inr (.inl ⟨.dialCancelled, ?_⟩)
      simp [task, hstage, RunStage.phase, ClientTask.step, ClientTask.dialCancelled, htaken]
  | setUp expires hstage =>
      refine .inr (.inl ⟨.setupDone true, ?_⟩)
      simp [task, hstage, RunStage.phase, ClientTask.step, ClientTask.setupDone]
  | setupFailed expires hstage =>
      refine .inr (.inl ⟨.setupDone false, ?_⟩)
      simp [task, giveUp, hstage, RunStage.phase, ClientTask.step, ClientTask.setupDone]
  | watcherTook abortAt channel hstage htaken =>
      refine .inr (.inl ⟨.watcherTakes, ?_⟩)
      simp [task, trip, hstage, RunStage.phase, ClientTask.step, ClientTask.watcherTakes, htaken]
  | tripped abortAt hstage =>
      left
      simp only [trip, task, hstage, RunStage.phase]
  | joined _ abortAt clean hstage _ =>
      refine .inr (.inl ⟨.relayDone, ?_⟩)
      simp [task, join, hstage, RunStage.phase, ClientTask.step, ClientTask.relayDone]
  | undeclared clean hstage =>
      left
      cases clean <;> simp [undeclare, giveUp, task, hstage, RunStage.phase]
  | published | vanished => exact .inl rfl
  | signalled s _ hstage _ =>
      left
      simp only [task, hstage, RunStage.phase]
  | left hstage =>
      refine .inr (.inr ⟨?_, ?_⟩)
      · simp only [task, hstage, RunStage.phase]
      · simp only [task, RunStage.phase]

theorem task_sendCancel (byDrain : Bool) :
    (c.sendCancel now byDrain).task = c.task.sendCancel := rfl

/-- What is recorded at each stage. -/
def StageRecord (c : ClientRun) : Prop :=
  match c.stage with
  | .dialing dial => c.attempts + dial.attemptsLeft ≤ 6 ∧ dial ≠ .succeeded ∧ dial ≠ .failed ∧
      c.ending = none ∧ c.dialedAt = none ∧ c.joinedAt = none ∧ c.undeclaredAt = none ∧
      c.overAt = none
  | .settingUp _ | .relaying _ => c.ending = none ∧ c.dialedAt ≠ none ∧ c.joinedAt = none ∧
      c.undeclaredAt = none ∧ c.overAt = none
  | .undeclaring _ => c.ending = none ∧ c.dialedAt ≠ none ∧ c.joinedAt ≠ none ∧
      c.undeclaredAt = none ∧ c.overAt = none
  | .signalling => c.signal ≠ none ∧ c.ending ≠ none ∧ c.overAt = none
  | .leaving => c.ending ≠ none ∧ c.overAt = none
  | .returned => c.ending ≠ none ∧ c.overAt ≠ none
  | .aborted => c.overAt ≠ none

/-- The records of a client, whatever the time. -/
structure Sound (cfg : ClientConfig) (c : ClientRun) : Prop where
  stage : c.StageRecord
  attempts : c.attempts ≤ 6
  signals : c.signal.isSome = c.ending.any RunEnd.signals
  settled : ∀ s, c.signal = some s → c.stage ≠ .signalling → s.running = false
  signal : ∀ s, c.signal = some s → s.Sound cfg.availabilityTimeout c.tokenGone

/-- A task that is not over has neither returned nor been aborted. -/
theorem Sound.running {cfg : ClientConfig} {c : ClientRun} (h : Sound cfg c)
    (hover : c.overAt = none) : c.stage ≠ .returned ∧ c.stage ≠ .aborted := by
  have hrecord := h.stage
  rw [StageRecord] at hrecord
  constructor
  · intro hstage
    rw [hstage] at hrecord
    exact hrecord.2 hover
  · intro hstage
    rw [hstage] at hrecord
    exact hrecord hover

theorem sound_start (cfg : ClientConfig) (client now : Nat) : Sound cfg (start client now) where
  stage := ⟨Nat.le_refl _, nofun, nofun, rfl, rfl, rfl, rfl, rfl⟩
  attempts := Nat.le_add_left 1 5
  signals := rfl
  settled := nofun
  signal := nofun

theorem sound_giveUp {why : RunEnd} (hwhy : why.signals = true) (hattempts : c.attempts ≤ 6)
    (hover : c.overAt = none) : Sound cfg (c.giveUp cfg now why) where
  stage := ⟨Option.some_ne_none _, Option.some_ne_none _, hover⟩
  attempts := hattempts
  signals := hwhy.symm
  settled := fun _ _ hstage => absurd rfl hstage
  signal := by
    intro s hs
    obtain rfl := Option.some.inj hs
    exact SignalPublish.sound_start _ _ _

/-- Before it ends a client has nothing to signal. -/
theorem Sound.signal_none (h : Sound cfg c) (hending : c.ending = none) : c.signal = none := by
  simpa [hending] using h.signals

theorem Sound.dialed {dial dial' : Retry} {ra : RetryAction} (h : Sound cfg c)
    (hstage : c.stage = .dialing dial) (hdial : dial.step now ra = some dial') :
    Sound cfg (c.dialed cfg now dial') := by
  have hrecord := h.stage
  simp only [StageRecord, hstage] at hrecord
  obtain ⟨hattempts, -, -, hending, hdialed, hjoined, hundeclared, hover⟩ := hrecord
  have hsignal : c.signal = none := h.signal_none hending
  have hleft := Retry.attemptsLeft_step hdial
  have hnone : ∀ s, c.signal = some s → s.running = false := by
    intro s hs
    exact absurd (hsignal.symm.trans hs) nofun
  cases Retry.moved_of_step hdial with
  | succeeded =>
      refine ⟨⟨hending, Option.some_ne_none _, hjoined, hundeclared, hover⟩, h.attempts,
        h.signals, fun s hs _ => hnone s hs, h.signal⟩
  | failed => exact sound_giveUp rfl h.attempts hover
  | paused =>
      refine ⟨⟨?_, nofun, nofun, hending, hdialed, hjoined, hundeclared, hover⟩, h.attempts,
        h.signals, fun s hs _ => hnone s hs, h.signal⟩
      simp only [reduceCtorEq, if_false] at hleft
      exact Nat.le_trans (Nat.add_le_add_left hleft _) hattempts
  | woken =>
      simp only [if_true] at hleft
      refine ⟨⟨?_, nofun, nofun, hending, hdialed, hjoined, hundeclared, hover⟩, ?_,
        h.signals, fun s hs _ => hnone s hs, h.signal⟩
      · show c.attempts + 1 + Retry.attemptsLeft _ ≤ 6
        omega
      · show c.attempts + 1 ≤ 6
        omega

theorem Sound.published {pa : PublishAction} {s s' : SignalPublish} (h : Sound cfg c)
    (hsignal : c.signal = some s) (hown : c.stage = .signalling ∨ pa.ofHolder = true)
    (hstep : s.step cfg.availabilityTimeout now c.tokenGone pa = some s') :
    Sound cfg { c with signal := some s' } := by
  have hrecord := h.stage
  refine ⟨?_, h.attempts, ?_, ?_, ?_⟩
  · cases hstage : c.stage with
    | signalling =>
        simp only [StageRecord, hstage] at hrecord ⊢
        exact ⟨Option.some_ne_none _, hrecord.2⟩
    | dialing | settingUp | relaying | undeclaring | leaving | returned | aborted =>
        simpa only [StageRecord, hstage] using hrecord
  · rw [← h.signals, hsignal]
    rfl
  · intro t ht hstage
    obtain rfl := Option.some.inj ht
    rw [SignalPublish.running_ofHolder (hown.resolve_left hstage) hstep]
    exact h.settled s hsignal hstage
  · intro t ht
    obtain rfl := Option.some.inj ht
    exact (h.signal s hsignal).moved (SignalPublish.moved_of_step hstep)

theorem Sound.moved (h : Sound cfg c) (hm : Moved cfg now c a c') : Sound cfg c' := by
  have hrecord := h.stage
  cases hm with
  | dialed ra dial dial' hstage hdial => exact h.dialed hstage hdial
  | dialCancelled dial channel hstage htaken =>
      simp only [StageRecord, hstage] at hrecord
      obtain ⟨-, -, -, hending, -, -, -, hover⟩ := hrecord
      have hsignal : c.signal = none := h.signal_none hending
      refine ⟨⟨Option.some_ne_none _, hover⟩, h.attempts, ?_, ?_, h.signal⟩
      · rw [hsignal]
        rfl
      · intro s hs
        exact absurd (hsignal.symm.trans hs) nofun
  | setUp expires hstage =>
      simp only [StageRecord, hstage] at hrecord
      exact ⟨hrecord, h.attempts, h.signals, fun s hs _ => h.settled s hs (by simp [hstage]),
        h.signal⟩
  | setupFailed expires hstage =>
      simp only [StageRecord, hstage] at hrecord
      exact sound_giveUp rfl h.attempts hrecord.2.2.2.2
  | watcherTook abortAt channel hstage _ | tripped abortAt hstage =>
      simp only [StageRecord, hstage] at hrecord
      exact ⟨hrecord, h.attempts, h.signals, fun s hs _ => h.settled s hs (by simp [hstage]),
        h.signal⟩
  | joined _ abortAt clean hstage _ =>
      simp only [StageRecord, hstage] at hrecord
      obtain ⟨hending, hdialed, -, hundeclared, hover⟩ := hrecord
      exact ⟨⟨hending, hdialed, Option.some_ne_none _, hundeclared, hover⟩, h.attempts, h.signals,
        fun s hs _ => h.settled s hs (by simp [hstage]), h.signal⟩
  | undeclared clean hstage =>
      simp only [StageRecord, hstage] at hrecord
      obtain ⟨hending, -, -, -, hover⟩ := hrecord
      cases clean with
      | false => exact sound_giveUp rfl h.attempts hover
      | true =>
          have hsignal : c.signal = none := h.signal_none hending
          refine ⟨⟨Option.some_ne_none _, hover⟩, h.attempts, ?_, ?_, h.signal⟩
          · show c.signal.isSome = _
            rw [hsignal]
            rfl
          · intro s hs
            exact absurd (hsignal.symm.trans hs) nofun
  | published pa s s' hsignal hown hstep => exact h.published hsignal hown hstep
  | signalled s hsignal hstage hover =>
      simp only [StageRecord, hstage] at hrecord
      refine ⟨hrecord.2, h.attempts, h.signals, ?_, h.signal⟩
      intro t ht _
      obtain rfl := Option.some.inj (hsignal.symm.trans ht)
      exact hover
  | left hstage =>
      simp only [StageRecord, hstage] at hrecord
      exact ⟨⟨hrecord.1, Option.some_ne_none _⟩, h.attempts, h.signals,
        fun s hs _ => h.settled s hs (by simp [hstage]), h.signal⟩
  | vanished =>
      refine ⟨hrecord, h.attempts, h.signals, h.settled, fun s hs => ?_⟩
      exact ⟨(h.signal s hs).stage, (h.signal s hs).holder.vanish⟩

theorem Sound.sendCancel (h : Sound cfg c) (byDrain : Bool) :
    Sound cfg (c.sendCancel now byDrain) :=
  ⟨h.stage, h.attempts, h.signals, h.settled, h.signal⟩

theorem Sound.abort (h : Sound cfg c) : Sound cfg (c.abort now) := by
  refine ⟨Option.some_ne_none _, h.attempts, ?_, ?_, ?_⟩
  · rw [ClientRun.abort, Option.isSome_map]
    exact h.signals
  · intro s hs _
    obtain ⟨s', -, rfl⟩ := Option.map_eq_some_iff.mp hs
    exact SignalPublish.running_drop
  · intro s hs
    obtain ⟨s', hs', rfl⟩ := Option.map_eq_some_iff.mp hs
    exact (h.signal s' hs').drop

section Urgent

variable (cfg now c) in
/-- A step that the task or its holder can take by itself. -/
def Goes : Prop := ∃ a, c.own cfg now a = true ∧ (c.step cfg now a).isSome = true

theorem goes_of_ready (h : Sound cfg c) (hready : c.ready = true) : c.Goes cfg now := by
  have hrecord := h.stage
  cases hstage : c.stage with
  | dialing dial =>
      rw [ready, hstage, pending, ← BoundedChannel.isSome_recv] at hready
      exact ⟨.dialCancelled, rfl, by simp [step, hstage, hready]⟩
  | relaying abortAt =>
      rw [ready, hstage, pending, ← BoundedChannel.isSome_recv] at hready
      exact ⟨.watcherTakes, rfl, by simp [step, hstage, hready]⟩
  | signalling =>
      simp only [StageRecord, hstage] at hrecord
      obtain ⟨s, hs⟩ := Option.ne_none_iff_exists'.mp hrecord.1
      have hover : s.running = false := by simpa [ready, hstage, hs] using hready
      exact ⟨.signalled, rfl, by simp [step, hstage, hs, hover]⟩
  | leaving => exact ⟨.removeSelf, rfl, by simp [step, hstage]⟩
  | settingUp | undeclaring | returned | aborted =>
      rw [ready, hstage] at hready
      cases hready

theorem goes_of_stage (hdue : expired (c.stage.instants cfg) now = true) : c.Goes cfg now := by
  cases hstage : c.stage with
  | dialing dial =>
      rw [hstage] at hdue
      obtain ⟨a, hforced, hstep⟩ := Retry.expired_iff.mp hdue
      exact ⟨.dial a, by simp [own, hstage, hforced], by simp [step, hstage, hstep]⟩
  | settingUp expires =>
      rw [hstage] at hdue
      have hexpires := expired_singleton.mp hdue
      exact ⟨.setupDone false, by simp [own, hstage, hexpires], by simp [step, hstage]⟩
  | relaying abortAt =>
      rw [hstage] at hdue
      cases abortAt with
      | none => exact absurd hdue not_expired_nil
      | some at' =>
          have hat := expired_singleton.mp hdue
          exact ⟨.watchdog, rfl, by simp [step, hstage, hat]⟩
  | undeclaring | signalling | leaving | returned | aborted =>
      rw [hstage] at hdue
      exact absurd hdue not_expired_nil

/-- A call that is over has left the timers of its holder only. -/
theorem goes_of_signal (h : Sound cfg c) {s : SignalPublish} (hs : c.signal = some s)
    (hdue : expired s.instants now = true) : c.Goes cfg now := by
  obtain ⟨a, hown, hstep⟩ : ∃ a : PublishAction, a.own = true ∧
      (s.step cfg.availabilityTimeout now c.tokenGone a).isSome = true :=
    SignalPublish.expired_iff.mp hdue
  refine ⟨.publish a, hown, ?_⟩
  have hrunner : c.stage = .signalling ∨ a.ofHolder = true := by
    by_contra hneither
    obtain ⟨hstage, hholder⟩ := not_or.mp hneither
    have hover := h.settled s hs hstage
    cases a with
    | holder a => exact hholder rfl
    | budget => simp [SignalPublish.step, hover] at hstep
    | gate a =>
        cases hgate : s.stage with
        | gating poll =>
            rw [SignalPublish.running, hgate] at hover
            cases hover
        | _ => simp [SignalPublish.step, hgate] at hstep
    | declared | put => cases hown
  simp [step, hs, hrunner, hstep]

/-- A client is urgent exactly when a step of its own is possible. -/
theorem urgent_iff (h : Sound cfg c) : c.urgent cfg now = true ↔ c.Goes cfg now := by
  rw [urgent, Bool.or_eq_true, instants, expired_append_iff]
  constructor
  · rintro (hready | hdue | hdue)
    · exact goes_of_ready h hready
    · exact goes_of_stage hdue
    · cases hs : c.signal with
      | none =>
          rw [hs] at hdue
          exact absurd hdue not_expired_nil
      | some s =>
          rw [hs] at hdue
          exact goes_of_signal h hs hdue
  · rintro ⟨a, hown, hstep⟩
    obtain ⟨c', hc⟩ := Option.isSome_iff_exists.mp hstep
    cases moved_of_step hc with
    | dialed a dial dial' hstage hdial =>
        right; left
        have hforced : dial.forced cfg.connectTimeout now a = true := by
          simpa only [own, hstage] using hown
        rw [hstage]
        exact Retry.expired_iff.mpr ⟨a, hforced, by rw [hdial]; rfl⟩
    | dialCancelled dial channel hstage htaken =>
        left
        rw [ready, hstage, pending, ← BoundedChannel.isSome_recv, htaken]
        rfl
    | setUp expires hstage | setupFailed expires hstage =>
        right; left
        simp only [own, hstage, decide_eq_true_eq] at hown
        rw [hstage]
        exact expired_singleton.mpr hown
    | watcherTook abortAt channel hstage htaken =>
        left
        rw [ready, hstage, pending, ← BoundedChannel.isSome_recv, htaken]
        rfl
    | joined _ abortAt clean hstage how =>
        obtain rfl | rfl := how
        · cases hown
        · right; left
          cases abortAt with
          | none => simp [step, hstage] at hstep
          | some at' =>
              rw [hstage]
              exact expired_singleton.mpr (by simpa [step, hstage] using hstep)
    | published a s s' hs _ hpublish =>
        right; right
        rw [hs]
        exact SignalPublish.expired_iff.mpr ⟨a, hown, by rw [hpublish]; rfl⟩
    | signalled s hs hstage hover =>
        left
        simp [ready, hstage, hs, hover]
    | left hstage =>
        left
        rw [ready, hstage]
    | tripped | undeclared | vanished => cases hown

end Urgent

/-- An abort of a task that still runs is its death in the registry. -/
theorem task_abort (h : Sound cfg c) (hover : c.overAt = none) :
    c.task.step .die = some (c.abort now).task := by
  have hrunning : ¬(c.task.phase = .returned ∨ c.task.phase = .dead) := by
    cases hstage : c.stage with
    | returned => exact absurd hstage (h.running hover).1
    | aborted => exact absurd hstage (h.running hover).2
    | dialing | settingUp | relaying | undeclaring | signalling | leaving =>
        simp [task, hstage, RunStage.phase]
  simp only [ClientTask.step, ClientTask.die, if_neg hrunning]
  rfl

end ClientRun

end ZenohBridge
