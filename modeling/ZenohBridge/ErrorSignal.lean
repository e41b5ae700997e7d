import ZenohBridge.KeySpace
import ZenohBridge.RelayTasks
import ZenohBridge.HeadParser

/-!
# The error signal of the export side

When `run_client` gives a client up it publishes a cached sample on the error key of that
client. Two import paths declare a client token: `bridge_import_connection`, which runs the
relay, and `run_exchange`, which runs one exchange of a multiroute connection. The first one
subscribes to the error key before it declares anything else and trips the token of its
relay on the sample. The second one declares no subscriber for that key.

## Implementation notes

A system is one import path, the `run_client` task that serves its token, and the cached
sample. The loops of the two paths are the relay and the multiroute connection themselves.
The sample is delivered to every subscriber of exactly its key, early or late.
-/

namespace ZenohBridge

open Execution

/-- The import data paths that declare a client token. -/
inductive ImportPath where
  | bridgeImportConnection
  | runExchange
  deriving DecidableEq, Repr

/-- What an import path declares in its session. -/
inductive Entity where
  | errorSubscriber (key : String)
  | rxSubscriber (key : String)
  | txPublisher (key : String)
  | clientToken (key : String)
  deriving DecidableEq, Repr

/-- The declarations of a path, in the order of its setup. -/
def ImportPath.setup (service : String) (dns : Option String) (clientId : String) :
    ImportPath → List Entity
  | .bridgeImportConnection =>
      [.errorSubscriber (importKey service dns .error clientId),
        .rxSubscriber (importKey service dns .rx clientId),
        .txPublisher (importKey service dns .tx clientId),
        .clientToken (importKey service dns .clients clientId)]
  | .runExchange =>
      [.clientToken (exchangeKey service dns .clients clientId),
        .rxSubscriber (exchangeKey service dns .rx clientId),
        .txPublisher (exchangeKey service dns .tx clientId)]

/-- Where `run_client` is. -/
inductive RunClient where
  | absent
  | dialing
  | bridging
  | signalling
  | ended
  deriving DecidableEq, Repr

/-- The task that waits for one sample of the error subscriber. -/
inductive ErrorMonitor where
  | listening
  | queued
  | handled
  deriving DecidableEq, Repr

/-- One import path and the client id it serves. The exchange is entered from a state of
its connection. -/
structure SignalConfig (P : HttpProxyParser Octet) where
  path : ImportPath
  service : String
  dns : Option String
  clientId : String
  relay : RelayConfig
  importing : relay.side = .importing
  multiroute : MultirouteConfig
  conn : Multiroute P
  entered : conn.phase = .exchange

/-- Where the import path is. -/
inductive PathPhase (P : HttpProxyParser Octet) where
  | setup (pending : List Entity)
  | relaying (relay : Relay)
  | exchanging (conn : Multiroute P)
  | failed

/-- The import path, the client task of the export side and the cached sample. -/
structure SignalSystem (P : HttpProxyParser Octet) where
  phase : PathPhase P
  declared : List Entity
  monitor : ErrorMonitor
  client : RunClient
  published : Option String

inductive SignalAction where
  | declare
  /-- A declaration failed, or the setup took longer than the read timeout. -/
  | setupFailed
  | enterLoop
  | relay (a : RelayAction)
  | exchange (a : MultirouteAction)
  /-- The export side sees the client token. -/
  | observe
  | dialed (ok : Bool)
  | dialCancelled
  | bridged (clean : Bool)
  | signal (ok : Bool)
  /-- Zenoh hands the cached sample to a subscriber of exactly its key. -/
  | deliver
  | monitor
  deriving DecidableEq

namespace SignalSystem

variable {P : HttpProxyParser Octet}

/-- The key that `run_client` publishes its signal on. -/
def errorKey (cfg : SignalConfig P) : String := runClientKey cfg.service cfg.dns .error cfg.clientId

/-- The key of the client token as the export side formats it. -/
def clientsKey (cfg : SignalConfig P) : String :=
  runClientKey cfg.service cfg.dns .clients cfg.clientId

/-- The declarations of the path for this client. -/
def entities (cfg : SignalConfig P) : List Entity :=
  cfg.path.setup cfg.service cfg.dns cfg.clientId

def start (cfg : SignalConfig P) : SignalSystem P :=
  ⟨.setup (entities cfg), [], .listening, .absent, none⟩

/-- The loop that a path enters; the monitor of the relay is spawned with it. -/
def loopOf (cfg : SignalConfig P) : PathPhase P :=
  match cfg.path with
  | .bridgeImportConnection => .relaying (.init cfg.relay)
  | .runExchange => .exchanging cfg.conn

/-- A step of the import path. -/
def stepImport (cfg : SignalConfig P) (s : SignalSystem P) : SignalAction → Option (SignalSystem P)
  | .declare =>
      match s.phase with
      | .setup (e :: rest) => some { s with phase := .setup rest, declared := s.declared ++ [e] }
      | _ => none
  | .setupFailed =>
      match s.phase with
      | .setup _ => some { s with phase := .failed, declared := [] }
      | _ => none
  | .enterLoop =>
      match s.phase with
      | .setup [] => some { s with phase := loopOf cfg }
      | _ => none
  | .relay a =>
      match s.phase with
      -- the error monitor is the only one that trips the token for an error signal
      | .relaying r =>
          if a = .errorSignal then none
          else (r.step cfg.relay a).map fun r => { s with phase := .relaying r }
      | _ => none
  | .exchange a =>
      match s.phase with
      | .exchanging m => (m.step cfg.multiroute a).map fun m => { s with phase := .exchanging m }
      | _ => none
  | .monitor =>
      match s.phase, s.monitor with
      | .relaying r, .queued => (r.step cfg.relay .errorSignal).map fun r =>
          { s with phase := .relaying r, monitor := .handled }
      | _, _ => none
  | _ => none

/-- A step of `run_client` and of the session that carries its signal. -/
def stepExport (cfg : SignalConfig P) (s : SignalSystem P) : SignalAction → Option (SignalSystem P)
  | .observe =>
      if s.client = .absent ∧ .clientToken (clientsKey cfg) ∈ s.declared then
        some { s with client := .dialing }
      else none
  | .dialed ok =>
      if s.client = .dialing then
        some { s with client := if ok then .bridging else .signalling }
      else none
  | .dialCancelled => if s.client = .dialing then some { s with client := .ended } else none
  | .bridged clean =>
      if s.client = .bridging then
        some { s with client := if clean then .ended else .signalling }
      else none
  | .signal ok =>
      if s.client = .signalling then
        some { s with
          client := .ended
          published := if ok then some (errorKey cfg) else s.published }
      else none
  | .deliver =>
      match s.published with
      | some key =>
          if s.monitor = .listening ∧ .errorSubscriber key ∈ s.declared then
            some { s with monitor := .queued }
          else none
      | none => none
  | _ => none

def step (cfg : SignalConfig P) (s : SignalSystem P) (a : SignalAction) : Option (SignalSystem P) :=
  match s.stepImport cfg a with
  | some t => some t
  | none => s.stepExport cfg a

/-- The path is inside its relay or exchange loop. -/
def InLoop (s : SignalSystem P) : Prop :=
  match s.phase with
  | .relaying r => ¬ (r.receiver.finished = true ∧ r.sender.finished = true)
  | .exchanging m => m.phase = .exchange ∨ m.phase = .select ∨ ∃ carry, m.phase = .events carry
  | _ => False

/-- The token of the loop is tripped. -/
def Cancelled (s : SignalSystem P) : Prop :=
  match s.phase with
  | .relaying r => r.cancelled = true
  | _ => False

/-- The delivery and the handling of the sample trip the token; it stays tripped, and
from then on the watchdog alone ends the loop, whatever else happened. -/
def LeavesByCancellation (cfg : SignalConfig P) (s : SignalSystem P) : Prop :=
  ∃ handling t, (∀ a ∈ handling, a = .deliver ∨ a = .monitor) ∧
    exec (step cfg) s handling = some t ∧ Cancelled t ∧
    ∀ labels u, exec (step cfg) t labels = some u → Cancelled u ∧
      ∃ rest v, (∀ a ∈ rest, a = .relay .abortReceiver ∨ a = .relay .abortSender) ∧
        exec (step cfg) u rest = some v ∧ ¬ InLoop v

/-- A signal that is published finds the path out of its loop, or the path holds a
subscription on exactly its key and leaves the loop by cancellation. -/
def SignalReaches (cfg : SignalConfig P) (s : SignalSystem P) : Prop :=
  s.published = some (errorKey cfg) → InLoop s →
    .errorSubscriber (errorKey cfg) ∈ s.declared ∧ LeavesByCancellation cfg s

section Steps

variable {cfg : SignalConfig P} {s t : SignalSystem P} {a : SignalAction}

theorem step_inv (h : step cfg s a = some t) :
    s.stepImport cfg a = some t ∨ s.stepExport cfg a = some t := by
  unfold step at h
  split at h
  · rename_i himport
    exact Or.inl (himport.trans h)
  · exact Or.inr h

/-- What the export side and its signal leave of the import path. -/
structure Exported (cfg : SignalConfig P) (s t : SignalSystem P) : Prop where
  phase : t.phase = s.phase
  declared : t.declared = s.declared
  monitor : t.monitor = s.monitor ∨ t.monitor = .queued
  published : t.published = s.published ∨ t.published = some (errorKey cfg)

theorem stepExport_inv (h : s.stepExport cfg a = some t) : Exported cfg s t := by
  cases a with
  | observe | dialed ok | dialCancelled | bridged clean =>
      simp only [stepExport] at h
      split at h <;> cases h
      exact ⟨rfl, rfl, Or.inl rfl, Or.inl rfl⟩
  | signal ok =>
      simp only [stepExport] at h
      split at h <;> cases h
      refine ⟨rfl, rfl, Or.inl rfl, ?_⟩
      cases ok
      · exact Or.inl rfl
      · exact Or.inr rfl
  | deliver =>
      simp only [stepExport] at h
      split at h
      · split at h <;> cases h
        exact ⟨rfl, rfl, Or.inr rfl, Or.inl rfl⟩
      · cases h
  | _ => cases h

/-- What a step of the import path does. -/
inductive Imported (cfg : SignalConfig P) (s t : SignalSystem P) : Prop
  | declare (e : Entity) (rest : List Entity) (before : s.phase = .setup (e :: rest))
      (eq : t = { s with phase := .setup rest, declared := s.declared ++ [e] })
  | setupFailed (pending : List Entity) (before : s.phase = .setup pending)
      (eq : t = { s with phase := .failed, declared := [] })
  | enterLoop (before : s.phase = .setup []) (eq : t = { s with phase := loopOf cfg })
  | relay (a : RelayAction) (r r' : Relay) (before : s.phase = .relaying r)
      (move : r.step cfg.relay a = some r') (eq : t = { s with phase := .relaying r' })
  | exchange (m m' : Multiroute P) (before : s.phase = .exchanging m)
      (eq : t = { s with phase := .exchanging m' })
  | monitor (r r' : Relay) (before : s.phase = .relaying r)
      (move : r.step cfg.relay .errorSignal = some r')
      (eq : t = { s with phase := .relaying r', monitor := .handled })

theorem stepImport_inv (h : s.stepImport cfg a = some t) : Imported cfg s t := by
  cases a with
  | declare =>
      simp only [stepImport] at h
      split at h <;> cases h
      rename_i e rest hphase
      exact .declare e rest hphase rfl
  | setupFailed =>
      simp only [stepImport] at h
      split at h <;> cases h
      rename_i pending hphase
      exact .setupFailed pending hphase rfl
  | enterLoop =>
      simp only [stepImport] at h
      split at h <;> cases h
      rename_i hphase
      exact .enterLoop hphase rfl
  | relay b =>
      simp only [stepImport] at h
      split at h
      · rename_i r hphase
        split at h
        · cases h
        · obtain ⟨r', hmove, rfl⟩ := Option.map_eq_some_iff.mp h
          exact .relay b r r' hphase hmove rfl
      · cases h
  | exchange b =>
      simp only [stepImport] at h
      split at h
      · rename_i m hphase
        obtain ⟨m', -, rfl⟩ := Option.map_eq_some_iff.mp h
        exact .exchange m m' hphase rfl
      · cases h
  | monitor =>
      simp only [stepImport] at h
      split at h
      · rename_i r hphase hmonitor
        obtain ⟨r', hmove, rfl⟩ := Option.map_eq_some_iff.mp h
        exact .monitor r r' hphase hmove rfl
      · cases h
  | _ => cases h

end Steps

section BridgeImportConnection

variable {cfg : SignalConfig P} {s t : SignalSystem P} {a : SignalAction}

/-- The import path of a plain connection: its declarations are made in the order of the
setup, and a handled sample has tripped the token. -/
def Placed (cfg : SignalConfig P) (s : SignalSystem P) : Prop :=
  match s.phase with
  | .setup pending => s.declared ++ pending = entities cfg ∧ s.monitor ≠ .handled
  | .relaying r => s.declared = entities cfg ∧ (s.monitor = .handled → r.cancelled = true)
  | .exchanging _ => False
  | .failed => True

structure SignalInv (cfg : SignalConfig P) (s : SignalSystem P) : Prop where
  key : ∀ k, s.published = some k → k = errorKey cfg
  placed : Placed cfg s

theorem signalInv_start (cfg : SignalConfig P) : SignalInv cfg (start cfg) := by
  constructor
  · intro k hk
    cases hk
  · exact ⟨List.nil_append _, by simp [start]⟩

theorem SignalInv.exported (h : SignalInv cfg s) (e : Exported cfg s t) : SignalInv cfg t := by
  have hmonitor : t.monitor = .handled → s.monitor = .handled := by
    intro ht
    obtain hm | hm := e.monitor
    · rwa [← hm]
    · rw [hm] at ht
      cases ht
  constructor
  · intro k hk
    obtain hp | hp := e.published
    · exact h.key k (hp ▸ hk)
    · rw [hp, Option.some.injEq] at hk
      exact hk.symm
  · have hplaced := h.placed
    unfold Placed at hplaced ⊢
    rw [e.phase, e.declared]
    cases hphase : s.phase with
    | setup pending =>
        rw [hphase] at hplaced
        exact ⟨hplaced.1, fun ht => hplaced.2 (hmonitor ht)⟩
    | relaying r =>
        rw [hphase] at hplaced
        exact ⟨hplaced.1, fun ht => hplaced.2 (hmonitor ht)⟩
    | exchanging m =>
        rw [hphase] at hplaced
        exact hplaced
    | failed => trivial

theorem errorSignal_cancels {r r' : Relay} {rcfg : RelayConfig}
    (h : r.step rcfg .errorSignal = some r') : r'.cancelled = true := by
  obtain ⟨-, rfl⟩ := Relay.cancelFrom_inv h
  rfl

theorem SignalInv.imported (hpath : cfg.path = .bridgeImportConnection) (h : SignalInv cfg s)
    (i : Imported cfg s t) : SignalInv cfg t := by
  have hplaced := h.placed
  unfold Placed at hplaced
  cases i with
  | declare e rest before eq =>
      rw [before] at hplaced
      subst eq
      refine ⟨h.key, ?_, hplaced.2⟩
      rw [← hplaced.1, List.append_assoc, List.singleton_append]
  | setupFailed pending before eq =>
      subst eq
      exact ⟨h.key, trivial⟩
  | enterLoop before eq =>
      rw [before] at hplaced
      have hall : s.declared = entities cfg := (List.append_nil _).symm.trans hplaced.1
      subst eq
      refine ⟨h.key, ?_⟩
      simp only [Placed, loopOf, hpath]
      exact ⟨hall, fun ht => absurd ht hplaced.2⟩
  | relay a r r' before move eq =>
      rw [before] at hplaced
      subst eq
      exact ⟨h.key, hplaced.1, fun ht => Relay.step_cancelled move (hplaced.2 ht)⟩
  | exchange m m' before eq =>
      rw [before] at hplaced
      exact hplaced.elim
  | monitor r r' before move eq =>
      rw [before] at hplaced
      subst eq
      exact ⟨h.key, hplaced.1, fun _ => errorSignal_cancels move⟩

theorem SignalInv.step (hpath : cfg.path = .bridgeImportConnection) (h : SignalInv cfg s)
    (hs : step cfg s a = some t) : SignalInv cfg t := by
  obtain himport | hexport := step_inv hs
  · exact h.imported hpath (stepImport_inv himport)
  · exact h.exported (stepExport_inv hexport)

/-- Nothing resets a tripped token. -/
theorem Cancelled.step (h : Cancelled s) (hs : SignalSystem.step cfg s a = some t) :
    Cancelled t := by
  unfold Cancelled at h
  obtain himport | hexport := step_inv hs
  · cases stepImport_inv himport with
    | declare e rest before eq =>
        rw [before] at h
        exact h.elim
    | setupFailed pending before eq =>
        rw [before] at h
        exact h.elim
    | enterLoop before eq =>
        rw [before] at h
        exact h.elim
    | relay a r r' before move eq =>
        rw [before] at h
        subst eq
        exact Relay.step_cancelled move h
    | exchange m m' before eq =>
        rw [before] at h
        exact h.elim
    | monitor r r' before move eq =>
        subst eq
        exact errorSignal_cancels move
  · unfold Cancelled
    rw [(stepExport_inv hexport).phase]
    exact h

/-- The loop can be left by the watchdog alone. -/
def WatchdogLeaves (cfg : SignalConfig P) (s : SignalSystem P) : Prop :=
  ∃ rest v, (∀ a ∈ rest, a = .relay .abortReceiver ∨ a = .relay .abortSender) ∧
    exec (SignalSystem.step cfg) s rest = some v ∧ ¬ InLoop v

theorem WatchdogLeaves.of_step (ha : a = .relay .abortReceiver ∨ a = .relay .abortSender)
    (hs : SignalSystem.step cfg s a = some t) (h : WatchdogLeaves cfg t) : WatchdogLeaves cfg s := by
  obtain ⟨rest, v, hrest, hrun, hleft⟩ := h
  refine ⟨a :: rest, v, List.forall_mem_cons.mpr ⟨ha, hrest⟩, ?_, hleft⟩
  rw [exec, hs]
  exact hrun

theorem step_relay {b : RelayAction} {r r' : Relay} (hphase : s.phase = .relaying r)
    (hb : b ≠ .errorSignal) (hmove : r.step cfg.relay b = some r') :
    SignalSystem.step cfg s (.relay b) = some { s with phase := .relaying r' } := by
  simp only [SignalSystem.step, stepImport, hphase, if_neg hb, hmove, Option.map_some]

theorem watchdogLeaves_of_receiver {r : Relay} (hphase : s.phase = .relaying r)
    (htoken : r.cancelled = true) (hreceiver : r.receiver.finished = true) :
    WatchdogLeaves cfg s := by
  cases hsender : r.sender.finished with
  | true =>
      refine ⟨[], s, List.forall_mem_nil _, rfl, ?_⟩
      simp only [InLoop, hphase, hreceiver, hsender, and_self, not_true_eq_false, not_false_eq_true]
  | false =>
      have hmove : r.step cfg.relay .abortSender = some { r with sender := .aborted } :=
        if_pos ⟨htoken, hsender⟩
      apply WatchdogLeaves.of_step (Or.inr rfl) (step_relay hphase (by simp) hmove)
      refine ⟨[], _, List.forall_mem_nil _, rfl, ?_⟩
      simp only [InLoop, hreceiver, Sender.finished, and_self, not_true_eq_false, not_false_eq_true]

/-- On a tripped token the watchdog ends both tasks of the relay. -/
theorem Cancelled.leaves (h : Cancelled s) : WatchdogLeaves cfg s := by
  unfold Cancelled at h
  cases hphase : s.phase with
  | relaying r =>
      rw [hphase] at h
      cases hreceiver : r.receiver.finished with
      | true => exact watchdogLeaves_of_receiver hphase h hreceiver
      | false =>
          have hmove : r.step cfg.relay .abortReceiver =
              some { r with receiver := .aborted, channel := r.channel.close } :=
            if_pos ⟨h, hreceiver⟩
          apply WatchdogLeaves.of_step (Or.inl rfl) (step_relay hphase (by simp) hmove)
          exact watchdogLeaves_of_receiver rfl h rfl
  | setup pending =>
      rw [hphase] at h
      exact h.elim
  | exchanging m =>
      rw [hphase] at h
      exact h.elim
  | failed =>
      rw [hphase] at h
      exact h.elim

/-- On a tripped token a task at its `select!` can take its `cancelled()` arm. -/
theorem Cancelled.arms (h : Cancelled s) {r : Relay} (hphase : s.phase = .relaying r) :
    (r.receiver = .select → SignalSystem.step cfg s (.relay .receiverCancelled) = some { s with
      phase := .relaying { r with
        receiver := .closing .shutdown, closes := r.closes ++ [.shutdown] } }) ∧
    (r.sender = .select → SignalSystem.step cfg s (.relay .senderCancelled) = some { s with
      phase := .relaying { r with sender := .ended .reset } }) := by
  rw [Cancelled, hphase] at h
  constructor
  · intro hselect
    exact step_relay hphase (by simp) (if_pos ⟨hselect, h⟩)
  · intro hselect
    exact step_relay hphase (by simp) (if_pos ⟨hselect, h⟩)

/-- When both tasks are at their `select!`, these arms leave the loop without the watchdog. -/
theorem Cancelled.leaves_by_arms (h : Cancelled s) {r : Relay} (hphase : s.phase = .relaying r)
    (hreceiver : r.receiver = .select) (hsender : r.sender = .select) (shut : Bool) :
    ∃ t, exec (SignalSystem.step cfg) s
      [.relay .receiverCancelled, .relay (.closeDone shut), .relay .senderCancelled] = some t ∧
      ¬InLoop t := by
  let shutting : Relay :=
    { r with receiver := .closing .shutdown, closes := r.closes ++ [.shutdown] }
  let shutDown : Relay :=
    { shutting with receiver := .ended .reset, channel := shutting.channel.close }
  have hshutdown : SignalSystem.step cfg s (.relay .receiverCancelled) =
      some { s with phase := .relaying shutting } := (h.arms hphase).1 hreceiver
  have hdone : SignalSystem.step cfg { s with phase := .relaying shutting }
      (.relay (.closeDone shut)) = some { s with phase := .relaying shutDown } :=
    step_relay rfl (by simp) rfl
  have hreset : SignalSystem.step cfg { s with phase := .relaying shutDown }
      (.relay .senderCancelled) =
        some { s with phase := .relaying { shutDown with sender := .ended .reset } } :=
    (((h.step hshutdown).step hdone).arms rfl).2 hsender
  refine ⟨_, exec_cons hshutdown (exec_cons hdone (exec_cons hreset (exec_nil _))), ?_⟩
  intro hloop
  exact hloop ⟨rfl, rfl⟩

/-- The key that the import path subscribes to is the key of the signal. -/
theorem errorSubscriber_mem (hpath : cfg.path = .bridgeImportConnection) :
    .errorSubscriber (errorKey cfg) ∈ entities cfg := by
  have hkey : errorKey cfg = importKey cfg.service cfg.dns .error cfg.clientId :=
    (partKey_segmented ..).eq (importKey_segmented ..)
  simp only [entities, hpath, ImportPath.setup, hkey]
  exact List.mem_cons_self ..

theorem step_monitor {r : Relay} (hphase : s.phase = .relaying r) (hmonitor : s.monitor = .queued) :
    SignalSystem.step cfg s .monitor =
      some { s with phase := .relaying (r.withToken true), monitor := .handled } := by
  have hmove : r.step cfg.relay .errorSignal = some (r.withToken true) := if_pos cfg.importing
  simp only [SignalSystem.step, stepImport, hphase, hmonitor, hmove, Option.map_some]

/-- The error monitor has the sample, or gets it, and trips the token. -/
theorem SignalInv.handles (hpath : cfg.path = .bridgeImportConnection) (h : SignalInv cfg s)
    (hpublished : s.published = some (errorKey cfg)) (hloop : InLoop s) :
    .errorSubscriber (errorKey cfg) ∈ s.declared ∧ ∃ handling t,
      (∀ a ∈ handling, a = .deliver ∨ a = .monitor) ∧
      exec (SignalSystem.step cfg) s handling = some t ∧ Cancelled t := by
  have hplaced := h.placed
  unfold Placed at hplaced
  cases hphase : s.phase with
  | setup pending =>
      rw [InLoop, hphase] at hloop
      exact hloop.elim
  | failed =>
      rw [InLoop, hphase] at hloop
      exact hloop.elim
  | exchanging m =>
      rw [hphase] at hplaced
      exact hplaced.elim
  | relaying r =>
      rw [hphase] at hplaced
      obtain ⟨hdeclared, hhandled⟩ := hplaced
      have hmem : .errorSubscriber (errorKey cfg) ∈ s.declared :=
        hdeclared ▸ errorSubscriber_mem hpath
      refine ⟨hmem, ?_⟩
      cases hmonitor : s.monitor with
      | handled =>
          refine ⟨[], s, List.forall_mem_nil _, rfl, ?_⟩
          rw [Cancelled, hphase]
          exact hhandled hmonitor
      | queued =>
          refine ⟨[.monitor], { s with phase := .relaying (r.withToken true), monitor := .handled },
            by simp, ?_, rfl⟩
          rw [exec, step_monitor hphase hmonitor]
          rfl
      | listening =>
          have hdeliver : SignalSystem.step cfg s .deliver = some { s with monitor := .queued } := by
            simp only [SignalSystem.step, stepImport, stepExport, hpublished]
            exact if_pos ⟨hmonitor, hmem⟩
          refine ⟨[.deliver, .monitor],
            { s with phase := .relaying (r.withToken true), monitor := .handled }, by simp, ?_, rfl⟩
          rw [exec, hdeliver, Option.bind_some, exec,
            step_monitor (s := { s with monitor := .queued }) hphase rfl]
          rfl

theorem SignalInv.reaches (hpath : cfg.path = .bridgeImportConnection) (h : SignalInv cfg s) :
    SignalReaches cfg s := by
  intro hpublished hloop
  obtain ⟨hmem, handling, t, hhandling, hrun, hcancelled⟩ := h.handles hpath hpublished hloop
  refine ⟨hmem, handling, t, hhandling, hrun, hcancelled, ?_⟩
  intro labels u hu
  have hstays : Cancelled u := exec_invariant (fun _ _ _ hc hs => hc.step hs) hcancelled hu
  exact ⟨hstays, hstays.leaves⟩

end BridgeImportConnection

section RunExchange

variable {cfg : SignalConfig P}

/-- The dial fails after the exchange has entered its loop, and the export side signals. -/
def unheardSignal : List SignalAction :=
  [.declare, .declare, .declare, .enterLoop, .observe, .dialed false, .signal true]

/-- The signal is published and nobody listens. -/
theorem unheardSignal_run (hpath : cfg.path = .runExchange) :
    exec (step cfg) (start cfg) unheardSignal =
      some ⟨.exchanging cfg.conn, entities cfg, .listening, .ended, some (errorKey cfg)⟩ := by
  have hsetup : entities cfg = [.clientToken (clientsKey cfg),
      .rxSubscriber (exchangeKey cfg.service cfg.dns .rx cfg.clientId),
      .txPublisher (exchangeKey cfg.service cfg.dns .tx cfg.clientId)] := by
    simp only [entities, hpath, ImportPath.setup, clientsKey, exchangeKey, runClientKey]
  simp [unheardSignal, exec, step, stepImport, stepExport, start, hsetup, loopOf, hpath]

theorem not_reaches_of_runExchange (hpath : cfg.path = .runExchange) :
    ¬ Always (step cfg) (SignalReaches cfg) (start cfg) unheardSignal := by
  intro h
  have hlast := h.last (unheardSignal_run hpath)
  have hmem := (hlast rfl (Or.inl cfg.entered)).1
  simp [entities, hpath, ImportPath.setup] at hmem

end RunExchange

/-- Over every service, host, client id, relay and connection the error signal reaches its
path in every run exactly when that is the path of the plain connections. -/
theorem signal_reaches_iff (cfg : SignalConfig P) :
    (∀ schedule, Always (step cfg) (SignalReaches cfg) (start cfg) schedule) ↔
      cfg.path = .bridgeImportConnection := by
  constructor
  · intro h
    cases hpath : cfg.path with
    | bridgeImportConnection => rfl
    | runExchange => exact absurd (h unheardSignal) (not_reaches_of_runExchange hpath)
  · intro hpath schedule
    have hinv : Always (step cfg) (SignalInv cfg) (start cfg) schedule :=
      always_of_step (fun _ _ _ h hs => h.step hpath hs) (signalInv_start cfg) schedule
    exact hinv.mono fun _ h => h.reaches hpath

/-- A connection that has just published the head of its first request. -/
def requestSent : Multiroute (headParser 64) :=
  (exec (Multiroute.step ⟨64, 64⟩) (.init (headParser 64))
    [.tick, .read (wire "GET / HTTP/1.1\r\nHost:a\r\n\r\n"), .tick, .route (.ok "a") .host,
      .setupDone true, .publish true]).getD (.init (headParser 64))

/-- Its exchange is served by an export side whose backend refuses every dial. -/
def dialRefused : SignalConfig (headParser 64) where
  path := .runExchange
  service := "web"
  dns := some "a"
  clientId := "client_1_2"
  relay := ⟨1, .stream, .importing⟩
  importing := rfl
  multiroute := ⟨64, 64⟩
  conn := requestSent
  entered := by decide +kernel

/-- The exchange waits in its loop and has no subscription for the signal. -/
theorem signal_unheard_by_exchange :
    ¬ Always (step dialRefused) (SignalReaches dialRefused) (start dialRefused) unheardSignal :=
  not_reaches_of_runExchange rfl

end SignalSystem

end ZenohBridge
