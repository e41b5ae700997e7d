import ZenohBridge.AcceptLoop

/-!
# The life of the process

`main` boots the health server and one task for each listener and backend, waits until every
listener has reported its socket, declares readiness, and waits for the shutdown signal or for
the end of all tasks. On shutdown it withdraws readiness, waits for the tasks within a budget,
closes the session and stops the health server last.

The process is `main` with the accept loops it has spawned, on one clock and one token. A run
is prompt when no time passes while `main` or a listener could go on.

## Implementation notes

Every listener is the accept loop of its flavour, and its errors before the bind are one
failure. A backend task is only its end. When `main` has returned the runtime drops what is
left, so nothing moves any more. Arguments, logging and the opening of the session precede the
first state. As in `AcceptLoop` the settings are within the limits of what they configure: a
`drain_timeout` that the clock cannot add would make the drain panic, which no state shows here.
`noticedAt` and `wasReady` are history.
-/

namespace ZenohBridge

open Execution

/-- How `main` returned. -/
inductive ExitResult where
  | ok
  | metricsBindFailed
  | listenerFailed (i : Nat)
  | listenerSlow (i : Nat)
  /-- All bridge tasks exited before a shutdown signal. -/
  | nothingLeft
  deriving DecidableEq, Repr

/-- Where `main` is. -/
inductive MainStage where
  | starting
  /-- At the `bound_rx` of one listener, with the end of its 30 seconds. -/
  | awaitingBound (i : Nat) (deadline : Nat)
  | serving
  | draining (deadline : Nat)
  /-- In `session.close()`. -/
  | closing (clean : Bool)
  | stoppingMetrics (clean : Bool) (deadline : Nat)
  | exited (result : ExitResult)
  deriving DecidableEq, Repr

structure MainConfig where
  accept : AcceptConfig
  listeners : Nat
  backends : Nat
  /-- `--metrics-addr` is given. -/
  metrics : Bool

/-- The process. -/
structure Daemon where
  env : Surroundings
  main : MainStage
  /-- The flag behind `/readyz`. -/
  ready : Bool
  sessionOpen : Bool
  /-- The health server runs. -/
  metricsUp : Bool
  listeners : List AcceptLoop
  /-- For each backend task, whether it has ended. -/
  backends : List Bool
  noticedAt : Option Nat
  wasReady : Bool
  deriving DecidableEq, Repr

inductive DaemonAction where
  | boot (metricsBound : Bool)
  | listener (i : Nat) (a : LoopAction)
  | backendExits (i : Nat)
  /-- SIGINT or SIGTERM. -/
  | signal
  | bound
  | startFailed
  | startTimeout
  | noticeShutdown
  | allExited
  /-- The end of the drain, or of its budget. -/
  | drainEnds
  | sessionClosed
  /-- The metrics task ended, or its two seconds did. -/
  | returns
  | tick
  deriving DecidableEq, Repr

namespace Daemon

/-- The wait for one listener. -/
def bindTimeout : Nat := 30000

/-- What the budget of the drain adds to `drain_timeout`. -/
def drainMargin : Nat := 2000

/-- The wait for the metrics task. -/
def metricsTimeout : Nat := 2000

def start (cfg : MainConfig) : Daemon where
  env := ⟨0, false⟩
  main := .starting
  ready := false
  sessionOpen := true
  metricsUp := false
  listeners := List.replicate cfg.listeners (.init cfg.accept)
  backends := List.replicate cfg.backends false
  noticedAt := none
  wasReady := false

/-- The tasks are spawned and `main` has not returned. -/
def running (t : Daemon) : Bool :=
  match t.main with
  | .starting | .exited _ => false
  | _ => true

/-- `drain_all` is ready. -/
def allEnded (t : Daemon) : Bool := t.listeners.all AcceptLoop.ended && t.backends.all id

/-- The next `bound_rx`, or readiness after the last one. -/
def awaitBound (i : Nat) (t : Daemon) : Daemon :=
  if i < t.listeners.length then { t with main := .awaitingBound i (t.env.now + bindTimeout) }
  else { t with main := .serving, ready := true, wasReady := true }

/-- The error return while the listeners are awaited. -/
def abort (result : ExitResult) (t : Daemon) : Daemon :=
  { t with env.shutdown := true, metricsUp := false, main := .exited result }

def exitResult (clean : Bool) : ExitResult := if clean then .ok else .nothingLeft

/-- What the receiver of the awaited listener holds. -/
def report (t : Daemon) (i : Nat) : Option Bool := t.listeners[i]?.bind AcceptLoop.reported

def onListener (cfg : MainConfig) (i : Nat) (a : LoopAction) (t : Daemon) : Option Daemon :=
  t.listeners[i]?.bind fun l =>
    (l.step cfg.accept t.env a).map fun l => { t with listeners := t.listeners.set i l }

/-- One step of the process. -/
def step (cfg : MainConfig) (t : Daemon) : DaemonAction → Option Daemon
  | .boot metricsBound =>
      if t.main = .starting then
        if cfg.metrics = true ∧ metricsBound = false then
          some { t with main := .exited .metricsBindFailed }
        else some ({ t with metricsUp := cfg.metrics }.awaitBound 0)
      else none
  | .listener i a => if t.running = true then t.onListener cfg i a else none
  | .backendExits i =>
      if t.running = true then some { t with backends := t.backends.set i true } else none
  | .signal => if t.running = true then some { t with env.shutdown := true } else none
  | .bound =>
      match t.main with
      | .awaitingBound i _ => if t.report i = some true then some (t.awaitBound (i + 1)) else none
      | _ => none
  | .startFailed =>
      match t.main with
      | .awaitingBound i _ =>
          if t.report i = some false then some (t.abort (.listenerFailed i)) else none
      | _ => none
  | .startTimeout =>
      match t.main with
      | .awaitingBound i deadline =>
          if deadline ≤ t.env.now ∧ t.report i = none then some (t.abort (.listenerSlow i))
          else none
      | _ => none
  | .noticeShutdown =>
      if t.main = .serving ∧ t.env.shutdown = true then some { t with
        ready := false
        main := .draining (t.env.now + cfg.accept.drainTimeout + drainMargin)
        noticedAt := some t.env.now }
      else none
  | .allExited =>
      -- `select!` may take this arm when the token is cancelled too
      if t.main = .serving ∧ t.allEnded = true then
        some { t with ready := false, main := .closing false }
      else none
  | .drainEnds =>
      match t.main with
      | .draining deadline =>
          if t.allEnded = true ∨ deadline ≤ t.env.now then some { t with main := .closing true }
          else none
      | _ => none
  | .sessionClosed =>
      match t.main with
      | .closing clean => some { t with
          sessionOpen := false
          metricsUp := false
          main := if cfg.metrics then .stoppingMetrics clean (t.env.now + metricsTimeout)
            else .exited (exitResult clean) }
      | _ => none
  | .returns =>
      match t.main with
      | .stoppingMetrics clean _ => some { t with main := .exited (exitResult clean) }
      | _ => none
  | .tick => if t.running = true then some { t with env.now := t.env.now + 1 } else none

/-- The steps that `main` takes by itself; the metrics task may end before its timeout. -/
def ownMain (t : Daemon) : DaemonAction → Bool
  | .boot _ | .bound | .startFailed | .startTimeout | .noticeShutdown | .allExited
  | .drainEnds => true
  | .returns =>
      match t.main with
      | .stoppingMetrics _ deadline => decide (deadline ≤ t.env.now)
      | _ => false
  | .listener _ _ | .backendExits _ | .signal | .sessionClosed | .tick => false

/-- The steps that the process takes by itself. -/
def own (t : Daemon) : DaemonAction → Bool
  | .listener _ a => a.own
  | a => t.ownMain a

/-- `main` can take a step of its own. -/
def mainUrgent (t : Daemon) : Bool :=
  match t.main with
  | .starting => true
  | .awaitingBound i deadline => (t.report i).isSome || decide (deadline ≤ t.env.now)
  | .serving => t.env.shutdown || t.allEnded
  | .draining deadline => t.allEnded || decide (deadline ≤ t.env.now)
  | .stoppingMetrics _ deadline => decide (deadline ≤ t.env.now)
  | .closing _ | .exited _ => false

def urgent (t : Daemon) : Bool := t.mainUrgent || t.listeners.any (AcceptLoop.urgent t.env)

/-- Time does not pass while `main` or a listener could go on. -/
def Prompt (t : Daemon) (a : DaemonAction) : Prop := a = .tick → t.urgent = false

instance (t : Daemon) (a : DaemonAction) : Decidable (t.Prompt a) :=
  inferInstanceAs (Decidable (a = .tick → t.urgent = false))

/-- Everything that a step can do, with what it requires. -/
inductive Advanced (cfg : MainConfig) (t : Daemon) : DaemonAction → Daemon → Prop
  | booted (metricsBound : Bool) (main : t.main = .starting) :
      Advanced cfg t (.boot metricsBound) ({ t with metricsUp := cfg.metrics }.awaitBound 0)
  | bootFailed (main : t.main = .starting) :
      Advanced cfg t (.boot false) { t with main := .exited .metricsBindFailed }
  | moved (i : Nat) (a : LoopAction) (l l' : AcceptLoop) (running : t.running = true)
      (found : t.listeners[i]? = some l) (moved : l.Moved cfg.accept t.env a l') :
      Advanced cfg t (.listener i a) { t with listeners := t.listeners.set i l' }
  | backendExited (i : Nat) (running : t.running = true) :
      Advanced cfg t (.backendExits i) { t with backends := t.backends.set i true }
  | signalled (running : t.running = true) :
      Advanced cfg t .signal { t with env.shutdown := true }
  | bound (i deadline : Nat) (main : t.main = .awaitingBound i deadline)
      (report : t.report i = some true) : Advanced cfg t .bound (t.awaitBound (i + 1))
  | startFailed (i deadline : Nat) (main : t.main = .awaitingBound i deadline)
      (report : t.report i = some false) :
      Advanced cfg t .startFailed (t.abort (.listenerFailed i))
  | startTimedOut (i deadline : Nat) (main : t.main = .awaitingBound i deadline)
      (report : t.report i = none) (due : deadline ≤ t.env.now) :
      Advanced cfg t .startTimeout (t.abort (.listenerSlow i))
  | noticed (main : t.main = .serving) (requested : t.env.shutdown = true) :
      Advanced cfg t .noticeShutdown { t with
        ready := false
        main := .draining (t.env.now + cfg.accept.drainTimeout + drainMargin)
        noticedAt := some t.env.now }
  | leftAlone (main : t.main = .serving) (ended : t.allEnded = true) :
      Advanced cfg t .allExited { t with ready := false, main := .closing false }
  | drained (deadline : Nat) (main : t.main = .draining deadline)
      (ended : t.allEnded = true ∨ deadline ≤ t.env.now) :
      Advanced cfg t .drainEnds { t with main := .closing true }
  | closed (clean : Bool) (main : t.main = .closing clean) :
      Advanced cfg t .sessionClosed { t with
        sessionOpen := false
        metricsUp := false
        main := if cfg.metrics then .stoppingMetrics clean (t.env.now + metricsTimeout)
          else .exited (exitResult clean) }
  | returned (clean : Bool) (deadline : Nat) (main : t.main = .stoppingMetrics clean deadline) :
      Advanced cfg t .returns { t with main := .exited (exitResult clean) }
  | ticked (running : t.running = true) :
      Advanced cfg t .tick { t with env.now := t.env.now + 1 }

variable {cfg : MainConfig} {t t' : Daemon} {a : DaemonAction}

theorem eq_of_ite_eq_some {c : Prop} [Decidable c] {u u' : Daemon}
    (h : (if c then some u else none) = some u') : c ∧ u = u' := by
  split at h
  · next hc => exact ⟨hc, Option.some.inj h⟩
  · cases h

theorem advanced_boot {metricsBound : Bool} (h : t.step cfg (.boot metricsBound) = some t') :
    Advanced cfg t (.boot metricsBound) t' := by
  simp only [step] at h
  split at h
  · next hmain =>
      split at h
      · next hfailed =>
          obtain ⟨-, rfl⟩ := hfailed
          cases h
          exact .bootFailed hmain
      · cases h
        exact .booted metricsBound hmain
  · cases h

theorem advanced_listener {i : Nat} {b : LoopAction}
    (h : t.step cfg (.listener i b) = some t') : Advanced cfg t (.listener i b) t' := by
  simp only [step] at h
  split at h
  · next hrunning =>
      obtain ⟨l, hfound, hstep⟩ := Option.bind_eq_some_iff.mp h
      obtain ⟨l', hl, rfl⟩ := Option.map_eq_some_iff.mp hstep
      exact .moved i b l l' hrunning hfound (AcceptLoop.moved_of_step hl)
  · cases h

/-- The steps of `main` that depend on its stage. -/
theorem advanced_main (h : t.step cfg a = some t')
    (ha : a = .bound ∨ a = .startFailed ∨ a = .startTimeout ∨ a = .drainEnds ∨
      a = .sessionClosed ∨ a = .returns) : Advanced cfg t a t' := by
  cases hmain : t.main with
  | awaitingBound i deadline =>
      obtain rfl | rfl | rfl | rfl | rfl | rfl := ha
      · obtain ⟨hreport, rfl⟩ := eq_of_ite_eq_some (by simpa only [step, hmain] using h)
        exact .bound i deadline hmain hreport
      · obtain ⟨hreport, rfl⟩ := eq_of_ite_eq_some (by simpa only [step, hmain] using h)
        exact .startFailed i deadline hmain hreport
      · obtain ⟨⟨hdue, hreport⟩, rfl⟩ := eq_of_ite_eq_some (by simpa only [step, hmain] using h)
        exact .startTimedOut i deadline hmain hreport hdue
      all_goals simp [step, hmain] at h
  | draining deadline =>
      obtain rfl | rfl | rfl | rfl | rfl | rfl := ha
      case inr.inr.inr.inl =>
        obtain ⟨hover, rfl⟩ := eq_of_ite_eq_some (by simpa only [step, hmain] using h)
        exact .drained deadline hmain hover
      all_goals simp [step, hmain] at h
  | closing clean =>
      obtain rfl | rfl | rfl | rfl | rfl | rfl := ha
      case inr.inr.inr.inr.inl =>
        simp only [step, hmain] at h
        cases h
        exact .closed clean hmain
      all_goals simp [step, hmain] at h
  | stoppingMetrics clean deadline =>
      obtain rfl | rfl | rfl | rfl | rfl | rfl := ha
      case inr.inr.inr.inr.inr =>
        simp only [step, hmain] at h
        cases h
        exact .returned clean deadline hmain
      all_goals simp [step, hmain] at h
  | starting | serving | exited =>
      obtain rfl | rfl | rfl | rfl | rfl | rfl := ha <;> simp [step, hmain] at h

/-- Inversion of a step. -/
theorem advanced_of_step (h : t.step cfg a = some t') : Advanced cfg t a t' := by
  cases a with
  | boot metricsBound => exact advanced_boot h
  | listener i b => exact advanced_listener h
  | backendExits i =>
      obtain ⟨hrunning, rfl⟩ := eq_of_ite_eq_some h
      exact .backendExited i hrunning
  | signal =>
      obtain ⟨hrunning, rfl⟩ := eq_of_ite_eq_some h
      exact .signalled hrunning
  | noticeShutdown =>
      obtain ⟨⟨hmain, hrequested⟩, rfl⟩ := eq_of_ite_eq_some h
      exact .noticed hmain hrequested
  | allExited =>
      obtain ⟨⟨hmain, hended⟩, rfl⟩ := eq_of_ite_eq_some h
      exact .leftAlone hmain hended
  | tick =>
      obtain ⟨hrunning, rfl⟩ := eq_of_ite_eq_some h
      exact .ticked hrunning
  | bound | startFailed | startTimeout | drainEnds | sessionClosed | returns =>
      exact advanced_main h (by simp)

/-- `main` is urgent exactly when it can take a step by itself. -/
theorem mainUrgent_iff :
    t.mainUrgent = true ↔ ∃ a, t.ownMain a = true ∧ (t.step cfg a).isSome = true := by
  constructor
  · intro h
    cases hmain : t.main with
    | starting => exact ⟨.boot true, rfl, by simp [step, hmain]⟩
    | awaitingBound i deadline =>
        cases hreport : t.report i with
        | some ok =>
            cases ok with
            | true => exact ⟨.bound, rfl, by simp [step, hmain, hreport]⟩
            | false => exact ⟨.startFailed, rfl, by simp [step, hmain, hreport]⟩
        | none =>
            simp only [mainUrgent, hmain, hreport, Option.isSome_none, Bool.false_or,
              decide_eq_true_eq] at h
            exact ⟨.startTimeout, rfl, by simp [step, hmain, hreport, h]⟩
    | serving =>
        simp only [mainUrgent, hmain, Bool.or_eq_true] at h
        obtain hrequested | hended := h
        · exact ⟨.noticeShutdown, rfl, by simp [step, hmain, hrequested]⟩
        · exact ⟨.allExited, rfl, by simp [step, hmain, hended]⟩
    | draining deadline =>
        simp only [mainUrgent, hmain, Bool.or_eq_true, decide_eq_true_eq] at h
        exact ⟨.drainEnds, rfl, by simp [step, hmain, h]⟩
    | stoppingMetrics clean deadline =>
        simp only [mainUrgent, hmain] at h
        exact ⟨.returns, by simp only [ownMain, hmain, h], by simp [step, hmain]⟩
    | closing clean | exited result => simp [mainUrgent, hmain] at h
  · rintro ⟨a, hown, hstep⟩
    obtain ⟨t', ht⟩ := Option.isSome_iff_exists.mp hstep
    cases advanced_of_step ht with
    | booted _ hmain | bootFailed hmain => simp [mainUrgent, hmain]
    | bound i deadline hmain hreport | startFailed i deadline hmain hreport =>
        simp [mainUrgent, hmain, hreport]
    | startTimedOut i deadline hmain hreport hdue => simp [mainUrgent, hmain, hdue]
    | noticed hmain hrequested => simp [mainUrgent, hmain, hrequested]
    | leftAlone hmain hended => simp [mainUrgent, hmain, hended]
    | drained deadline hmain hover => simpa [mainUrgent, hmain] using hover
    | returned clean deadline hmain => simpa only [ownMain, mainUrgent, hmain] using hown
    | moved | backendExited | signalled | closed | ticked => cases hown

/-- The process is urgent exactly when it can take a step by itself. -/
theorem urgent_iff (hrunning : t.running = true) :
    t.urgent = true ↔ ∃ a, t.own a = true ∧ (t.step cfg a).isSome = true := by
  rw [urgent, Bool.or_eq_true, List.any_eq_true]
  constructor
  · rintro (hmain | ⟨l, hmem, hl⟩)
    · obtain ⟨a, hown, hstep⟩ := mainUrgent_iff.mp hmain
      refine ⟨a, ?_, hstep⟩
      cases a with
      | listener i b => cases hown
      | _ => exact hown
    · obtain ⟨i, hi⟩ := List.mem_iff_getElem?.mp hmem
      obtain ⟨b, hown, hstep⟩ : ∃ b : LoopAction, b.own = true ∧
          (l.step cfg.accept t.env b).isSome = true := AcceptLoop.urgent_iff.mp hl
      exact ⟨.listener i b, hown, by simp [step, hrunning, onListener, hi, hstep]⟩
  · rintro ⟨a, hown, hstep⟩
    cases a with
    | listener i b =>
        obtain ⟨t', ht⟩ := Option.isSome_iff_exists.mp hstep
        simp only [step, hrunning, if_true, onListener] at ht
        obtain ⟨l, hi, hl⟩ := Option.bind_eq_some_iff.mp ht
        obtain ⟨l', hl', -⟩ := Option.map_eq_some_iff.mp hl
        refine .inr ⟨l, List.mem_of_getElem? hi, ?_⟩
        exact AcceptLoop.urgent_iff.mpr ⟨b, hown, by rw [hl']; rfl⟩
    | _ =>
        refine .inl (mainUrgent_iff.mpr ⟨_, ?_, hstep⟩)
        exact hown

@[simp] theorem awaitBound_listeners (i : Nat) : (t.awaitBound i).listeners = t.listeners := by
  rw [awaitBound]
  split <;> rfl

@[simp] theorem awaitBound_backends (i : Nat) : (t.awaitBound i).backends = t.backends := by
  rw [awaitBound]
  split <;> rfl

@[simp] theorem awaitBound_env (i : Nat) : (t.awaitBound i).env = t.env := by
  rw [awaitBound]
  split <;> rfl

/-- What the steps of a loop, the token and the passage of time keep of every listener. -/
theorem listeners_advanced {I : Surroundings → AcceptLoop → Prop}
    (moved : ∀ env l b l', I env l → l.Moved cfg.accept env b l' → I env l')
    (shutdown : ∀ env l, I env l → I { env with shutdown := true } l)
    (tick : a = .tick → ∀ l ∈ t.listeners, I t.env l → I { t.env with now := t.env.now + 1 } l)
    (h : ∀ l ∈ t.listeners, I t.env l) (hs : Advanced cfg t a t') :
    ∀ l ∈ t'.listeners, I t'.env l := by
  cases hs with
  | moved i b l l' _ hfound hmoved =>
      intro k hk
      obtain hk | rfl := List.mem_or_eq_of_mem_set hk
      · exact h k hk
      · exact moved _ _ _ _ (h l (List.mem_of_getElem? hfound)) hmoved
  | signalled => exact fun l hl => shutdown _ l (h l hl)
  | startFailed | startTimedOut => exact fun l hl => shutdown _ l (h l hl)
  | ticked => exact fun l hl => tick rfl l hl (h l hl)
  | booted => simpa using h
  | bound => simpa using h
  | _ => exact h

/-- What holds of a listener in every run. -/
structure Steady (cfg : AcceptConfig) (env : Surroundings) (l : AcceptLoop) : Prop where
  sound : l.Sound cfg
  record : l.DrainRecord cfg
  recent : l.Recent env.now
  token : ∀ start, l.drainedAt = some start → env.shutdown = true

theorem steady_init (cfg : AcceptConfig) (env : Surroundings) : Steady cfg env (.init cfg) :=
  ⟨AcceptLoop.sound_init cfg, AcceptLoop.drainRecord_init cfg, AcceptLoop.recent_init cfg env.now,
    by simp [AcceptLoop.init]⟩

theorem Steady.moved {env : Surroundings} {l l' : AcceptLoop} {b : LoopAction}
    (h : Steady cfg.accept env l) (hm : l.Moved cfg.accept env b l') :
    Steady cfg.accept env l' := by
  refine ⟨h.sound.moved hm, h.record.moved hm, h.recent.moved hm, fun start hstart => ?_⟩
  obtain hsame | ⟨hrequested, -⟩ := hm.drainedAt
  · exact h.token start (hsame ▸ hstart)
  · exact hrequested

theorem steady_advanced (h : ∀ l ∈ t.listeners, Steady cfg.accept t.env l)
    (hs : Advanced cfg t a t') : ∀ l ∈ t'.listeners, Steady cfg.accept t'.env l := by
  refine listeners_advanced (fun _ _ _ _ hl hm => hl.moved hm) ?_ ?_ h hs
  · exact fun env l hl => ⟨hl.sound, hl.record, hl.recent, fun _ _ => rfl⟩
  · exact fun _ l _ hl => ⟨hl.sound, hl.record, hl.recent.mono (Nat.le_succ _), hl.token⟩

theorem steady_start (cfg : MainConfig) :
    ∀ l ∈ (start cfg).listeners, Steady cfg.accept (start cfg).env l := by
  intro l hl
  obtain rfl := List.eq_of_mem_replicate hl
  exact steady_init _ _

/-- Every listener has reported its socket. -/
def AllBound (t : Daemon) : Prop := ∀ l ∈ t.listeners, l.reported = some true

/-- What `main` knows when it goes on to close the session. -/
def Outcome (t : Daemon) (clean : Bool) : Prop :=
  if clean = true then t.env.shutdown = true else t.allEnded = true

/-- The flags, the servers and the reports at each stage of `main`. -/
def Consistent (cfg : MainConfig) (t : Daemon) : Prop :=
  match t.main with
  | .starting => t.ready = false ∧ t.wasReady = false ∧ t.sessionOpen = true
  | .awaitingBound k _ => t.ready = false ∧ t.wasReady = false ∧ t.sessionOpen = true ∧
      t.metricsUp = cfg.metrics ∧ k < t.listeners.length ∧ ∀ i < k, t.report i = some true
  | .serving => t.ready = true ∧ t.wasReady = true ∧ t.sessionOpen = true ∧
      t.metricsUp = cfg.metrics ∧ t.AllBound
  | .draining _ => t.ready = false ∧ t.sessionOpen = true ∧ t.metricsUp = cfg.metrics ∧
      t.AllBound ∧ t.env.shutdown = true
  | .closing clean => t.ready = false ∧ t.sessionOpen = true ∧ t.metricsUp = cfg.metrics ∧
      t.Outcome clean
  | .stoppingMetrics clean _ => t.ready = false ∧ t.sessionOpen = false ∧ t.Outcome clean
  | .exited .ok => t.ready = false ∧ t.sessionOpen = false ∧ t.Outcome true
  | .exited .nothingLeft => t.ready = false ∧ t.sessionOpen = false ∧ t.Outcome false
  | .exited (.listenerFailed i) => t.ready = false ∧ t.wasReady = false ∧ t.report i = some false
  | .exited (.listenerSlow i) => t.ready = false ∧ t.wasReady = false ∧ t.report i = none
  | .exited .metricsBindFailed => t.ready = false ∧ t.wasReady = false

/-- Without a step of `main` only the listeners, the backends, the token and the clock change,
and nothing that `main` has learnt becomes false. -/
theorem Consistent.frame (h : Consistent cfg t) (hrunning : t.running = true)
    (hmain : t'.main = t.main) (hready : t'.ready = t.ready) (hwas : t'.wasReady = t.wasReady)
    (hsession : t'.sessionOpen = t.sessionOpen) (hmetrics : t'.metricsUp = t.metricsUp)
    (hlength : t'.listeners.length = t.listeners.length)
    (hreport : ∀ i, t.report i = some true → t'.report i = some true)
    (hbound : t.AllBound → t'.AllBound)
    (hshutdown : t.env.shutdown = true → t'.env.shutdown = true)
    (hended : t.allEnded = true → t'.allEnded = true) : Consistent cfg t' := by
  have houtcome : ∀ clean, t.Outcome clean → t'.Outcome clean := by
    intro clean
    cases clean with
    | true => simpa [Outcome] using hshutdown
    | false => simpa [Outcome] using hended
  simp only [Consistent, hmain, hready, hwas, hsession, hmetrics, hlength] at h ⊢
  cases hstage : t.main with
  | awaitingBound k deadline =>
      simp only [hstage] at h ⊢
      obtain ⟨h1, h2, h3, h4, h5, hreports⟩ := h
      exact ⟨h1, h2, h3, h4, h5, fun i hi => hreport i (hreports i hi)⟩
  | serving =>
      simp only [hstage] at h ⊢
      exact ⟨h.1, h.2.1, h.2.2.1, h.2.2.2.1, hbound h.2.2.2.2⟩
  | draining deadline =>
      simp only [hstage] at h ⊢
      exact ⟨h.1, h.2.1, h.2.2.1, hbound h.2.2.2.1, hshutdown h.2.2.2.2⟩
  | closing clean =>
      simp only [hstage] at h ⊢
      exact ⟨h.1, h.2.1, h.2.2.1, houtcome clean h.2.2.2⟩
  | stoppingMetrics clean deadline =>
      simp only [hstage] at h ⊢
      exact ⟨h.1, h.2.1, houtcome clean h.2.2⟩
  | starting | exited => simp [running, hstage] at hrunning

theorem report_eq_some {i : Nat} {ok : Bool} (h : t.report i = some ok) :
    ∃ l, t.listeners[i]? = some l ∧ l.reported = some ok := Option.bind_eq_some_iff.mp h

theorem report_set {i : Nat} {l l' : AcceptLoop} (hfound : t.listeners[i]? = some l)
    (hkeeps : ∀ ok, l.reported = some ok → l'.reported = some ok) (j : Nat) {ok : Bool}
    (h : t.report j = some ok) :
    ({ t with listeners := t.listeners.set i l' } : Daemon).report j = some ok := by
  obtain ⟨k, hk, hreported⟩ := report_eq_some h
  by_cases hij : i = j
  · subst hij
    cases hfound.symm.trans hk
    have hlt := (List.getElem?_eq_some_iff.mp hfound).1
    simp [report, hlt, hkeeps ok hreported]
  · simp [report, List.getElem?_set_ne hij, hk, hreported]

theorem allEnded_set {i : Nat} {l l' : AcceptLoop} (hfound : t.listeners[i]? = some l)
    (hkeeps : l.ended = true → l'.ended = true) (h : t.allEnded = true) :
    ({ t with listeners := t.listeners.set i l' } : Daemon).allEnded = true := by
  simp only [allEnded, Bool.and_eq_true, List.all_eq_true] at h ⊢
  refine ⟨fun k hk => ?_, h.2⟩
  obtain hk | rfl := List.mem_or_eq_of_mem_set hk
  · exact h.1 k hk
  · exact hkeeps (h.1 l (List.mem_of_getElem? hfound))

theorem consistent_awaitBound (i : Nat) (hready : t.ready = false) (hwas : t.wasReady = false)
    (hsession : t.sessionOpen = true) (hmetrics : t.metricsUp = cfg.metrics)
    (hi : i ≤ t.listeners.length) (hreports : ∀ j < i, t.report j = some true) :
    Consistent cfg (t.awaitBound i) := by
  rw [awaitBound]
  split
  · next hlt => exact ⟨hready, hwas, hsession, hmetrics, hlt, hreports⟩
  · next hlt =>
      refine ⟨rfl, rfl, hsession, hmetrics, fun l hl => ?_⟩
      obtain ⟨j, hj⟩ := List.mem_iff_getElem?.mp hl
      have hlt' : j < t.listeners.length := (List.getElem?_eq_some_iff.mp hj).1
      simpa [report, hj] using hreports j (by omega)

theorem exited_consistent (clean : Bool) (hready : t.ready = false)
    (hsession : t.sessionOpen = false) (h : t.Outcome clean)
    (hmain : t.main = .exited (exitResult clean)) : Consistent cfg t := by
  cases clean with
  | true => simpa [Consistent, hmain, exitResult] using ⟨hready, hsession, h⟩
  | false => simpa [Consistent, hmain, exitResult] using ⟨hready, hsession, h⟩

theorem Consistent.advanced (h : Consistent cfg t) (hs : Advanced cfg t a t') :
    Consistent cfg t' := by
  cases hs with
  | booted metricsBound hmain =>
      simp only [Consistent, hmain] at h
      exact consistent_awaitBound 0 h.1 h.2.1 h.2.2 rfl (Nat.zero_le _) (by simp)
  | bootFailed hmain =>
      simp only [Consistent, hmain] at h
      exact ⟨h.1, h.2.1⟩
  | moved i b l l' hrunning hfound hmoved =>
      refine h.frame hrunning rfl rfl rfl rfl rfl (by simp)
        (fun j hj => report_set hfound (fun ok hok => hmoved.reported hok) j hj) ?_ (fun h => h)
        (allEnded_set hfound (AcceptLoop.ended_of_moved hmoved))
      intro hall k hk
      obtain hk | rfl := List.mem_or_eq_of_mem_set hk
      · exact hall k hk
      · exact hmoved.reported (hall l (List.mem_of_getElem? hfound))
  | backendExited i hrunning =>
      refine h.frame hrunning rfl rfl rfl rfl rfl rfl (fun _ hj => hj) (fun hall => hall)
        (fun h => h) ?_
      simp only [allEnded, Bool.and_eq_true, List.all_eq_true]
      rintro ⟨hlisteners, hbackends⟩
      refine ⟨hlisteners, fun b hb => ?_⟩
      obtain hb | rfl := List.mem_or_eq_of_mem_set hb
      · exact hbackends b hb
      · rfl
  | signalled hrunning =>
      exact h.frame hrunning rfl rfl rfl rfl rfl rfl (fun _ hj => hj) (fun hall => hall)
        (fun _ => rfl) (fun hall => hall)
  | bound i deadline hmain hreport =>
      simp only [Consistent, hmain] at h
      obtain ⟨hready, hwas, hsession, hmetrics, hlt, hreports⟩ := h
      refine consistent_awaitBound (i + 1) hready hwas hsession hmetrics hlt fun j hj => ?_
      obtain hj | rfl := Nat.lt_succ_iff_lt_or_eq.mp hj
      · exact hreports j hj
      · exact hreport
  | startFailed i deadline hmain hreport =>
      simp only [Consistent, hmain] at h
      exact ⟨h.1, h.2.1, hreport⟩
  | startTimedOut i deadline hmain hreport hdue =>
      simp only [Consistent, hmain] at h
      exact ⟨h.1, h.2.1, hreport⟩
  | noticed hmain hrequested =>
      simp only [Consistent, hmain] at h
      exact ⟨rfl, h.2.2.1, h.2.2.2.1, h.2.2.2.2, hrequested⟩
  | leftAlone hmain hended =>
      simp only [Consistent, hmain] at h
      exact ⟨rfl, h.2.2.1, h.2.2.2.1, hended⟩
  | drained deadline hmain hover =>
      simp only [Consistent, hmain] at h
      exact ⟨h.1, h.2.1, h.2.2.1, h.2.2.2.2⟩
  | closed clean hmain =>
      simp only [Consistent, hmain] at h
      cases hmetrics : cfg.metrics with
      | true => exact ⟨h.1, rfl, h.2.2.2⟩
      | false => exact exited_consistent clean h.1 rfl h.2.2.2 (by simp)
  | returned clean deadline hmain =>
      simp only [Consistent, hmain] at h
      exact exited_consistent clean h.1 h.2.1 h.2.2 rfl
  | ticked hrunning =>
      exact h.frame hrunning rfl rfl rfl rfl rfl rfl (fun _ hj => hj) (fun hall => hall)
        (fun h => h) (fun hall => hall)

theorem consistent_start (cfg : MainConfig) : Consistent cfg (start cfg) := ⟨rfl, rfl, rfl⟩

/-- The invariant of every run. -/
theorem always_consistent (cfg : MainConfig) (labels : List DaemonAction) :
    Always (step cfg) (fun t => Consistent cfg t ∧
      ∀ l ∈ t.listeners, Steady cfg.accept t.env l) (start cfg) labels :=
  always_of_step
    (fun _ _ _ h hs => ⟨h.1.advanced (advanced_of_step hs),
      steady_advanced h.2 (advanced_of_step hs)⟩)
    ⟨consistent_start cfg, steady_start cfg⟩ labels

/-- Readiness is over for good. -/
def Past (t : Daemon) : Prop :=
  match t.main with
  | .starting | .awaitingBound .. | .serving => False
  | _ => True

theorem Past.advanced (h : t.Past) (hs : Advanced cfg t a t') : t'.Past := by
  cases hs with
  | booted _ hmain | bootFailed hmain | bound _ _ hmain | startFailed _ _ hmain
  | startTimedOut _ _ hmain | noticed hmain | leftAlone hmain => simp [Past, hmain] at h
  | moved | backendExited | signalled | ticked => exact h
  | drained | returned => trivial
  | closed => cases hmetrics : cfg.metrics <;> simp [Past]

theorem Past.ready (h : t.Past) (hc : Consistent cfg t) : t.ready = false := by
  cases hmain : t.main with
  | starting | awaitingBound | serving => simp [Past, hmain] at h
  | draining | closing | stoppingMetrics =>
      simp only [Consistent, hmain] at hc
      exact hc.1
  | exited result =>
      cases result with
      | ok | nothingLeft | listenerFailed | listenerSlow | metricsBindFailed =>
          simp only [Consistent, hmain] at hc
          exact hc.1

/-- Readiness is true: every listener has bound its socket, and is in its accept loop unless
shutdown was requested. Once withdrawn, readiness stays withdrawn whatever happens. From the
first readiness until the session is closed the health server runs. -/
theorem readiness_truth (cfg : MainConfig) (labels : List DaemonAction) :
    Always (step cfg) (fun t =>
      (t.ready = true → ∀ l ∈ t.listeners, l.reported = some true ∧
        (t.env.shutdown = false → l.serving = true)) ∧
      (t.wasReady = true → t.ready = false → ∀ later,
        Always (step cfg) (fun u => u.ready = false) t later) ∧
      (t.wasReady = true → t.sessionOpen = true → t.metricsUp = cfg.metrics))
      (start cfg) labels := by
  refine (always_consistent cfg labels).mono ?_
  rintro t ⟨hc, hsteady⟩
  refine ⟨fun hready l hl => ?_, fun hwas hready later => ?_, fun hwas hsession => ?_⟩
  · have hmain : t.main = .serving := by
      cases hmain : t.main with
      | serving => rfl
      | starting | awaitingBound | draining | closing | stoppingMetrics =>
          simp [Consistent, hmain, hready] at hc
      | exited result => cases result <;> simp [Consistent, hmain, hready] at hc
    simp only [Consistent, hmain] at hc
    have hbound := hc.2.2.2.2 l hl
    refine ⟨hbound, fun hshutdown => ?_⟩
    refine AcceptLoop.serving_of_drainedAt (hsteady l hl).record hbound ?_
    cases hdrained : l.drainedAt with
    | none => rfl
    | some start => simp [(hsteady l hl).token start hdrained] at hshutdown
  · have hpast : t.Past := by
      cases hmain : t.main with
      | starting | awaitingBound | serving => simp [Consistent, hmain, hwas, hready] at hc
      | draining | closing | stoppingMetrics | exited => simp [Past, hmain]
    have hinv : Always (step cfg) (fun u => Consistent cfg u ∧ u.Past) t later := always_of_step
      (fun _ _ _ h hs => ⟨h.1.advanced (advanced_of_step hs), h.2.advanced (advanced_of_step hs)⟩)
      ⟨hc, hpast⟩ later
    exact hinv.mono fun u hu => hu.2.ready hu.1
  · cases hmain : t.main with
    | starting | awaitingBound => simp [Consistent, hmain, hwas] at hc
    | serving =>
        simp only [Consistent, hmain] at hc
        exact hc.2.2.2.1
    | draining | closing =>
        simp only [Consistent, hmain] at hc
        exact hc.2.2.1
    | stoppingMetrics => simp [Consistent, hmain, hsession] at hc
    | exited result => cases result <;> simp [Consistent, hmain, hsession, hwas] at hc

/-- The flag of the past is never taken back. -/
theorem wasReady_advanced (hs : Advanced cfg t a t') (h : t'.wasReady = false) :
    t.wasReady = false := by
  have hawait : ∀ (u : Daemon) i, (u.awaitBound i).wasReady = false → u.wasReady = false := by
    intro u i hu
    rw [awaitBound] at hu
    split at hu
    · exact hu
    · cases hu
  cases hs with
  | booted => exact hawait { t with metricsUp := cfg.metrics } 0 h
  | bound i => exact hawait t (i + 1) h
  | _ => exact h

/-- How a run can end. Success is returned only after a shutdown request and the close of the
session; the error of a process that is left alone, only when every task has ended; and a start
that fails, which names a listener without a socket, was not ready at any moment. -/
theorem exit_results (cfg : MainConfig) (labels : List DaemonAction) (t : Daemon)
    (run : exec (step cfg) (start cfg) labels = some t) (result : ExitResult)
    (hexited : t.main = .exited result) :
    (result = .ok → t.env.shutdown = true ∧ t.sessionOpen = false) ∧
      (result = .nothingLeft → t.allEnded = true ∧ t.sessionOpen = false) ∧
      (∀ i, result = .listenerFailed i → t.report i = some false) ∧
      (∀ i, result = .listenerSlow i → t.report i = none) ∧
      (result ≠ .ok → result ≠ .nothingLeft →
        Always (step cfg) (fun u => u.ready = false) (start cfg) labels) := by
  have hc := ((always_consistent cfg labels).last run).1
  have hnever : t.wasReady = false →
      Always (step cfg) (fun u => u.ready = false) (start cfg) labels := by
    intro hwas
    have hback := always_of_last (P := fun u : Daemon => u.wasReady = false)
      (fun _ _ _ hs h => wasReady_advanced (advanced_of_step hs) h) run hwas
    refine hback.mono₂ ?_ (always_consistent cfg labels)
    rintro u huwas ⟨hu, -⟩
    cases hready : u.ready with
    | false => rfl
    | true =>
        cases hmain : u.main with
        | exited result => cases result <;> simp [Consistent, hmain, hready] at hu
        | _ => simp [Consistent, hmain, hready, huwas] at hu
  simp only [Consistent, hexited] at hc
  cases result with
  | ok => simpa [Outcome] using ⟨hc.2.2, hc.2.1⟩
  | nothingLeft => simpa [Outcome] using ⟨hc.2.2, hc.2.1⟩
  | listenerFailed i => simpa using ⟨hc.2.2, hnever hc.2.1⟩
  | listenerSlow i => simpa using ⟨hc.2.2, hnever hc.2.1⟩
  | metricsBindFailed => simpa using hnever hc.2

/-- One listener whose port is taken. -/
def deafRun : List DaemonAction := [.boot true, .listener 0 (.bind false), .startFailed]

def deafExit : Daemon :=
  ⟨⟨0, true⟩, .exited (.listenerFailed 0), false, true, false,
    [⟨.failed, 1, [], false, none, none, none, 0⟩], [], none, false⟩

theorem exit_results_deafRun :
    ((ExitResult.listenerFailed 0 = .ok → deafExit.env.shutdown = true ∧
        deafExit.sessionOpen = false) ∧
      (ExitResult.listenerFailed 0 = .nothingLeft → deafExit.allEnded = true ∧
        deafExit.sessionOpen = false) ∧
      (∀ i, ExitResult.listenerFailed 0 = .listenerFailed i → deafExit.report i = some false) ∧
      (∀ i, ExitResult.listenerFailed 0 = .listenerSlow i → deafExit.report i = none) ∧
      (ExitResult.listenerFailed 0 ≠ .ok → ExitResult.listenerFailed 0 ≠ .nothingLeft →
        Always (step ⟨⟨1, 1⟩, 1, 0, true⟩) (fun u => u.ready = false)
          (start ⟨⟨1, 1⟩, 1, 0, true⟩) deafRun)) :=
  exit_results ⟨⟨1, 1⟩, 1, 0, true⟩ deafRun deafExit (by decide) (.listenerFailed 0) rfl

/-- What a prompt run adds for each listener. -/
def Punctual (cfg : MainConfig) (env : Surroundings) (l : AcceptLoop) : Prop :=
  Steady cfg.accept env l ∧ l.OnTime cfg.accept env.now

theorem punctual_advanced (h : ∀ l ∈ t.listeners, Punctual cfg t.env l) (hprompt : t.Prompt a)
    (hs : Advanced cfg t a t') : ∀ l ∈ t'.listeners, Punctual cfg t'.env l := by
  refine listeners_advanced ?_ ?_ ?_ h hs
  · exact fun env l b l' hl hm => ⟨hl.1.moved hm, hl.2.moved hl.1.record hm⟩
  · exact fun env l hl => ⟨⟨hl.1.sound, hl.1.record, hl.1.recent, fun _ _ => rfl⟩, hl.2⟩
  · rintro htick l hmem ⟨hl, honTime⟩
    have hurgent := hprompt htick
    simp only [urgent, Bool.or_eq_false_iff, List.any_eq_false, Bool.not_eq_true] at hurgent
    exact ⟨⟨hl.sound, hl.record, hl.recent.mono (Nat.le_succ _), hl.token⟩,
      honTime.tick (hurgent.2 l hmem)⟩

/-- While `main` drains it is within its budget, and no listener that is still to drain is
delayed by more than its failed accepts. -/
def Budgeted (cfg : MainConfig) (t : Daemon) : Prop :=
  ∀ deadline, t.main = .draining deadline → ∃ noticed, t.noticedAt = some noticed ∧
    deadline = noticed + cfg.accept.drainTimeout + drainMargin ∧ t.env.now ≤ deadline ∧
    ∀ l ∈ t.listeners, l.Delayed noticed t.env.now

theorem awaitBound_main (i deadline : Nat) : (t.awaitBound i).main ≠ .draining deadline := by
  rw [awaitBound]
  split <;> simp

theorem Budgeted.advanced (hc : Consistent cfg t)
    (hsteady : ∀ l ∈ t.listeners, Steady cfg.accept t.env l) (h : Budgeted cfg t)
    (hprompt : t.Prompt a) (hs : Advanced cfg t a t') : Budgeted cfg t' := by
  intro deadline hmain
  -- the token is cancelled as long as `main` drains
  have htoken : t.main = .draining deadline → t.env.shutdown = true := by
    intro hdraining
    simp only [Consistent, hdraining] at hc
    exact hc.2.2.2.2
  cases hs with
  | noticed hserving _ =>
      cases hmain
      simp only [Consistent, hserving] at hc
      refine ⟨t.env.now, rfl, rfl, by simp only; omega, fun l hl => ?_⟩
      exact AcceptLoop.delayed_of_recent (hsteady l hl).recent (hc.2.2.2.2 l hl)
  | moved i b l l' _ hfound hmoved =>
      obtain ⟨noticed, hnoticed, hdeadline, hle, hdelayed⟩ := h deadline hmain
      refine ⟨noticed, hnoticed, hdeadline, hle, fun k hk => ?_⟩
      obtain hk | rfl := List.mem_or_eq_of_mem_set hk
      · exact hdelayed k hk
      · have hl := List.mem_of_getElem? hfound
        exact (hdelayed l hl).moved (hsteady l hl).record (htoken hmain) hmoved
  | backendExited | signalled => exact h deadline hmain
  | ticked =>
      obtain ⟨noticed, hnoticed, hdeadline, hle, hdelayed⟩ := h deadline hmain
      have hdraining : t.main = .draining deadline := hmain
      have hurgent := hprompt rfl
      simp only [urgent, mainUrgent, hdraining, Bool.or_eq_false_iff, decide_eq_false_iff_not,
        List.any_eq_false, Bool.not_eq_true] at hurgent
      refine ⟨noticed, hnoticed, hdeadline, by simp only; omega, fun l hl => ?_⟩
      exact (hdelayed l hl).tick (hsteady l hl).record (htoken hmain) (hurgent.2 l hl)
  | booted | bound => exact absurd hmain (awaitBound_main _ _)
  | closed =>
      cases hmetrics : cfg.metrics <;> simp [hmetrics] at hmain
  | bootFailed | startFailed | startTimedOut | leftAlone | drained | returned => cases hmain

theorem AllBound.stopped_of_ended (h : t.AllBound) (hended : t.allEnded = true) :
    ∀ l ∈ t.listeners, l.stage = .stopped := by
  intro l hl
  simp only [allEnded, Bool.and_eq_true, List.all_eq_true] at hended
  have hend := hended.1 l hl
  have hbound := h l hl
  cases hstage : l.stage <;> simp_all [AcceptLoop.ended, AcceptLoop.reported]

/-- In a prompt run `main` goes on to close the session at most `drain_timeout` and two seconds
after it has noticed the shutdown. A listener on which fewer than nine accepts have failed since
the request has stopped by then: its drain ran to its end, its aborts included, before the hard
exit. -/
theorem orderly_drain_within_budget (cfg : MainConfig) (labels : List DaemonAction)
    (hprompt : Along (step cfg) Prompt (start cfg) labels) :
    Along (step cfg) (fun t a => a = .drainEnds →
      (∃ noticed, t.noticedAt = some noticed ∧
        t.env.now ≤ noticed + cfg.accept.drainTimeout + drainMargin) ∧
      ∀ l ∈ t.listeners, l.lateErrors < 9 → l.stage = .stopped) (start cfg) labels := by
  have hinv : Always (step cfg) (fun t => Consistent cfg t ∧
      (∀ l ∈ t.listeners, Punctual cfg t.env l) ∧ Budgeted cfg t) (start cfg) labels := by
    refine always_of_along (fun t a t' h hp hs => ?_) ?_ hprompt
    · have hadvanced := advanced_of_step hs
      exact ⟨h.1.advanced hadvanced, punctual_advanced h.2.1 hp hadvanced,
        h.2.2.advanced h.1 (fun l hl => (h.2.1 l hl).1) hp hadvanced⟩
    · refine ⟨consistent_start cfg, fun l hl => ⟨steady_start cfg l hl, ?_⟩, by nofun⟩
      obtain rfl := List.eq_of_mem_replicate hl
      exact AcceptLoop.onTime_init _ _
  refine hinv.along.mono ?_
  rintro t a t' hs ⟨⟨hc, hpunctual, hbudget⟩, -⟩ rfl
  cases advanced_of_step hs with
  | drained deadline hmain hover =>
      obtain ⟨noticed, hnoticed, rfl, hle, hdelayed⟩ := hbudget deadline hmain
      refine ⟨⟨noticed, hnoticed, hle⟩, fun l hl hfew => ?_⟩
      simp only [Consistent, hmain] at hc
      obtain hended | hdue := hover
      · exact hc.2.2.2.1.stopped_of_ended hended l hl
      · exact (hpunctual l hl).2.stopped_of_delayed (hpunctual l hl).1.record (hdelayed l hl)
          hfew hdue

/-- One connection that outlives both windows of the drain. -/
def drainRun : List DaemonAction :=
  [.boot true, .listener 0 (.bind true), .bound, .listener 0 .acquire, .listener 0 .accept,
    .listener 0 .reaped, .signal, .noticeShutdown, .listener 0 .notice, .tick,
    .listener 0 .deadline] ++ List.replicate 1000 .tick ++ [.listener 0 .deadline, .drainEnds]

theorem orderly_drain_drainRun :
    (exec (step ⟨⟨1, 1⟩, 1, 0, false⟩) (start ⟨⟨1, 1⟩, 1, 0, false⟩) drainRun).map
        (fun t => (t.main, t.env.now)) = some (.closing true, 1001) ∧
      Along (step ⟨⟨1, 1⟩, 1, 0, false⟩) (fun t a => a = .drainEnds →
        (∃ noticed, t.noticedAt = some noticed ∧ t.env.now ≤ noticed + 1 + drainMargin) ∧
        ∀ l ∈ t.listeners, l.lateErrors < 9 → l.stage = .stopped)
        (start ⟨⟨1, 1⟩, 1, 0, false⟩) drainRun :=
  ⟨by decide +kernel,
    orderly_drain_within_budget ⟨⟨1, 1⟩, 1, 0, false⟩ drainRun (by decide +kernel)⟩

end Daemon

end ZenohBridge
