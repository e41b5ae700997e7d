import Mathlib.Algebra.BigOperators.Group.List.Basic
import Mathlib.Algebra.GroupWithZero.Nat
import Mathlib.Data.List.AList
import ZenohBridge.Foundation.Execution
import ZenohBridge.Multiroute

/-!
# The metrics registry

`Metrics::service` gets or makes the counters of a service, and an entry is never removed, so
every guard of a service adds to the same counters. A guard has a tally of its own beside them;
each add goes to the service first and to the tally after it, in two atomic operations.

A run is any interleaving of these operations by the connections of a process. In every run the
counters of a service are the sums over its guards, modulo `2^64`.

## Implementation notes

An atomic operation on the `Arc` of a service is one on the entry of its name. The totals, the
adds that have not reached the tally, the recorded outcomes and the list of gRPC calls are
history. The clock of a guard has no part here.
-/

namespace ZenohBridge

open Execution

namespace Metrics

/-- The atomic counters of a service. -/
inductive Field where
  | active
  | total
  | bytesUp
  | bytesDown
  | completed
  | reset
  | failed
  deriving DecidableEq, Repr

/-- `metrics::Counters`. -/
structure Counters where
  active : UInt64
  total : UInt64
  bytesUp : UInt64
  bytesDown : UInt64
  completed : UInt64
  reset : UInt64
  failed : UInt64
  deriving DecidableEq, Repr

namespace Counters

def zero : Counters := ⟨0, 0, 0, 0, 0, 0, 0⟩

def get (c : Counters) : Field → UInt64
  | .active => c.active
  | .total => c.total
  | .bytesUp => c.bytesUp
  | .bytesDown => c.bytesDown
  | .completed => c.completed
  | .reset => c.reset
  | .failed => c.failed

/-- `fetch_add` and `fetch_sub`, which wrap around. -/
def fetchAdd (field : Field) (n : UInt64) (c : Counters) : Counters :=
  match field with
  | .active => { c with active := c.active + n }
  | .total => { c with total := c.total + n }
  | .bytesUp => { c with bytesUp := c.bytesUp + n }
  | .bytesDown => { c with bytesDown := c.bytesDown + n }
  | .completed => { c with completed := c.completed + n }
  | .reset => { c with reset := c.reset + n }
  | .failed => { c with failed := c.failed + n }

/-- `Counters::add_up`. -/
def addUp (n : Nat) : Counters → Counters := fetchAdd .bytesUp (UInt64.ofNat n)

/-- `Counters::add_down`. -/
def addDown (n : Nat) : Counters → Counters := fetchAdd .bytesDown (UInt64.ofNat n)

theorem get_fetchAdd (field field' : Field) (n : UInt64) (c : Counters) :
    (c.fetchAdd field n).get field' = c.get field' + if field' = field then n else 0 := by
  cases field <;> cases field' <;> simp [fetchAdd, get]

theorem get_zero (field : Field) : zero.get field = 0 := by
  cases field <;> rfl

end Counters

/-- The counter of an outcome. -/
def outcomeField : ConnOutcome → Field
  | .completed => .completed
  | .reset => .reset
  | .failed => .failed

end Metrics

/-- The registry: the counters of every service that was ever named, the gRPC completions by
service and code, and the readiness flag. -/
structure Metrics where
  services : AList fun _ : String => Metrics.Counters
  grpcStatuses : AList fun _ : String × UInt32 => UInt64
  ready : Bool
  deriving DecidableEq

namespace Metrics

def new : Metrics := ⟨∅, ∅, false⟩

/-- The counters of a service, once it has an entry. -/
def countersOf (m : Metrics) (name : String) : Counters :=
  (m.services.lookup name).getD Counters.zero

/-- An atomic operation on the counters of a service. -/
def onService (name : String) (change : Counters → Counters) (m : Metrics) : Metrics :=
  { m with services := m.services.insert name (change (m.countersOf name)) }

/-- `Metrics::service`: the entry is made when there is none. -/
def service (name : String) : Metrics → Metrics := onService name id

/-- `Metrics::record_grpc_status`. -/
def recordGrpcStatus (name : String) (code : UInt32) (m : Metrics) : Metrics :=
  let count := (m.grpcStatuses.lookup (name, code)).getD 0
  { m with grpcStatuses := m.grpcStatuses.insert (name, code) (count + 1) }

theorem countersOf_onService (name name' : String) (change : Counters → Counters) (m : Metrics) :
    (m.onService name change).countersOf name' =
      if name' = name then change (m.countersOf name) else m.countersOf name' := by
  by_cases hname : name' = name
  · subst hname
    simp [countersOf, onService]
  · simp [countersOf, onService, AList.lookup_insert_ne hname, hname]

theorem mem_onService {name name' : String} {change : Counters → Counters} {m : Metrics} :
    name' ∈ (m.onService name change).services ↔ name' = name ∨ name' ∈ m.services :=
  AList.mem_insert m.services

/-- How far `conn_start` is, and whether the guard was dropped. -/
inductive GuardPhase where
  /-- Between the two adds of `conn_start`. -/
  | opening
  | live
  | dropped
  deriving DecidableEq, Repr

/-- A `ConnGuard` with its `ConnCounters`. -/
structure Guard where
  service : String
  phase : GuardPhase
  up : UInt64
  down : UInt64
  upTotal : Nat
  downTotal : Nat
  upOpen : List Nat
  downOpen : List Nat
  outcomes : List ConnOutcome
  deriving DecidableEq, Repr

namespace Guard

def start (service : String) : Guard := ⟨service, .opening, 0, 0, 0, 0, [], [], []⟩

/-- What a guard contributes to a counter of its service. -/
def share (g : Guard) : Field → Nat
  | .active => if g.phase = .dropped then 0 else 1
  | .total => if g.phase = .opening then 0 else 1
  | .bytesUp => g.upTotal + g.upOpen.sum
  | .bytesDown => g.downTotal + g.downOpen.sum
  | .completed => g.outcomes.count .completed
  | .reset => g.outcomes.count .reset
  | .failed => g.outcomes.count .failed

end Guard

/-- The registry with the guards that were ever made. -/
structure Run where
  metrics : Metrics
  guards : List Guard
  grpcCalls : List (String × UInt32)
  deriving DecidableEq

inductive Action where
  | service (name : String)
  /-- `conn_start` up to its first add. -/
  | connStart (service : String)
  /-- The second add of `conn_start`. -/
  | connCounted (i : Nat)
  /-- `add_up` up to the add to the service. -/
  | addUp (i n : Nat)
  /-- The add to the tally of the connection. -/
  | tallyUp (i n : Nat)
  | addDown (i n : Nat)
  | tallyDown (i n : Nat)
  | setOutcome (i : Nat) (outcome : ConnOutcome)
  | dropGuard (i : Nat)
  | recordGrpcStatus (service : String) (code : UInt32)
  | setReady (ready : Bool)
  deriving DecidableEq, Repr

/-- The service whose entry an operation gets or makes. -/
def Action.names : Action → Option String
  | .service name | .connStart name => some name
  | _ => none

namespace Run

def start : Run := ⟨.new, [], []⟩

/-- An operation of a guard on the counters of its service. -/
def onGuard (i : Nat) (g : Guard) (change : Counters → Counters) (t : Run) : Run :=
  { t with metrics := t.metrics.onService g.service change, guards := t.guards.set i g }

/-- One atomic operation. -/
def step (t : Run) : Action → Option Run
  | .service name => some { t with metrics := t.metrics.service name }
  | .connStart service =>
      some { t with
        metrics := t.metrics.onService service (Counters.fetchAdd .active 1)
        guards := t.guards ++ [.start service] }
  | .connCounted i => t.guards[i]?.bind fun g =>
      if g.phase = .opening then
        some (t.onGuard i { g with phase := .live } (Counters.fetchAdd .total 1))
      else none
  | .addUp i n => t.guards[i]?.bind fun g =>
      -- the relays keep the counters beyond the drop of the guard
      if g.phase ≠ .opening then
        some (t.onGuard i { g with upOpen := n :: g.upOpen } (Counters.addUp n))
      else none
  | .tallyUp i n => t.guards[i]?.bind fun g =>
      if n ∈ g.upOpen then
        some { t with guards := t.guards.set i { g with
          up := g.up + UInt64.ofNat n
          upTotal := g.upTotal + n
          upOpen := g.upOpen.erase n } }
      else none
  | .addDown i n => t.guards[i]?.bind fun g =>
      if g.phase ≠ .opening then
        some (t.onGuard i { g with downOpen := n :: g.downOpen } (Counters.addDown n))
      else none
  | .tallyDown i n => t.guards[i]?.bind fun g =>
      if n ∈ g.downOpen then
        some { t with guards := t.guards.set i { g with
          down := g.down + UInt64.ofNat n
          downTotal := g.downTotal + n
          downOpen := g.downOpen.erase n } }
      else none
  | .setOutcome i outcome => t.guards[i]?.bind fun g =>
      if g.phase = .live then
        some (t.onGuard i { g with outcomes := outcome :: g.outcomes }
          (Counters.fetchAdd (outcomeField outcome) 1))
      else none
  | .dropGuard i => t.guards[i]?.bind fun g =>
      -- `fetch_sub(1)`
      if g.phase = .live then
        some (t.onGuard i { g with phase := .dropped } (Counters.fetchAdd .active (0 - 1)))
      else none
  | .recordGrpcStatus service code =>
      some { t with
        metrics := t.metrics.recordGrpcStatus service code
        grpcCalls := (service, code) :: t.grpcCalls }
  | .setReady ready => some { t with metrics := { t.metrics with ready := ready } }

/-- The guards' contribution to one counter of a service. -/
def sum (t : Run) (service : String) (field : Field) : Nat :=
  (t.guards.map fun g => if g.service = service then g.share field else 0).sum

variable {t t' : Run} {a : Action} {i : Nat} {g g' : Guard}

theorem sum_map_set {α : Type*} {l : List α} {x y : α} (h : l[i]? = some x) (f : α → Nat) :
    ((l.set i y).map f).sum + f x = (l.map f).sum + f y := by
  induction l generalizing i with
  | nil => cases h
  | cons z l ih =>
      cases i with
      | zero =>
          rw [List.getElem?_cons_zero, Option.some.injEq] at h
          subst h
          simp only [List.set_cons_zero, List.map_cons, List.sum_cons]
          omega
      | succ i =>
          rw [List.getElem?_cons_succ] at h
          have hrest := ih h
          simp only [List.set_cons_succ, List.map_cons, List.sum_cons]
          omega

/-- The tally of a guard is what was added to it. -/
def Tallied (g : Guard) : Prop := g.up = UInt64.ofNat g.upTotal ∧ g.down = UInt64.ofNat g.downTotal

/-- The counters are the sums over the guards, and the gRPC counts those of the calls. -/
structure Ledger (t : Run) : Prop where
  counters : ∀ service field,
    (t.metrics.countersOf service).get field = UInt64.ofNat (t.sum service field)
  entry : ∀ g ∈ t.guards, g.service ∈ t.metrics.services
  tallied : ∀ g ∈ t.guards, Tallied g
  grpc : ∀ call, t.metrics.grpcStatuses.lookup call =
    if t.grpcCalls.count call = 0 then none else some (UInt64.ofNat (t.grpcCalls.count call))

theorem ledger_start : Ledger start := by
  constructor
  · intro service field
    simpa [start, new, countersOf, sum] using Counters.get_zero field
  · simp [start]
  · simp [start]
  · simp [start, new]

/-- A guard changes one counter of its service by the change of its own contribution. -/
theorem Ledger.onGuard (h : Ledger t) (field : Field) (add sub : Nat) {delta : UInt64}
    (hdelta : delta + UInt64.ofNat sub = UInt64.ofNat add) (hfound : t.guards[i]? = some g)
    (hservice : g'.service = g.service) (htallied : Tallied g')
    (hshare : ∀ f, g'.share f + (if f = field then sub else 0) =
      g.share f + if f = field then add else 0) :
    Ledger (t.onGuard i g' (Counters.fetchAdd field delta)) := by
  have hmem : g ∈ t.guards := List.mem_of_getElem? hfound
  constructor
  · intro service f
    have hset := sum_map_set (y := g') hfound
      fun g => if g.service = service then g.share f else 0
    simp only [Run.onGuard, countersOf_onService, hservice]
    by_cases hname : service = g.service
    · subst hname
      simp only [hservice, if_true] at hset
      have hsum : sum (t.onGuard i g' (Counters.fetchAdd field delta)) g.service f +
          (if f = field then sub else 0) =
            t.sum g.service f + if f = field then add else 0 := by
        have hshare := hshare f
        simp only [sum, Run.onGuard]
        omega
      rw [if_pos rfl, Counters.get_fetchAdd, h.counters g.service f]
      by_cases hfield : f = field
      · simp only [if_pos hfield] at hsum ⊢
        have hcast := congrArg UInt64.ofNat hsum
        rw [UInt64.ofNat_add, UInt64.ofNat_add, ← hdelta, ← UInt64.add_assoc] at hcast
        exact ((UInt64.add_left_inj _).mp hcast).symm
      · simp only [if_neg hfield, Nat.add_zero] at hsum ⊢
        rw [← hsum, UInt64.add_zero]
        rfl
    · rw [if_neg hname, h.counters service f]
      simp only [hservice, Ne.symm hname, if_false, Nat.add_zero] at hset
      exact congrArg UInt64.ofNat hset.symm
  · intro k hk
    rw [Run.onGuard, mem_onService]
    obtain hk | rfl := List.mem_or_eq_of_mem_set hk
    · exact .inr (h.entry k hk)
    · exact .inr (hservice ▸ h.entry g hmem)
  · intro k hk
    obtain hk | rfl := List.mem_or_eq_of_mem_set hk
    · exact h.tallied k hk
    · exact htallied
  · exact h.grpc

/-- A tally changes no counter of a service. -/
theorem Ledger.tally (h : Ledger t) (hfound : t.guards[i]? = some g)
    (hservice : g'.service = g.service) (htallied : Tallied g')
    (hshare : ∀ f, g'.share f = g.share f) : Ledger { t with guards := t.guards.set i g' } := by
  constructor
  · intro service f
    have hset := sum_map_set (y := g') hfound
      fun g => if g.service = service then g.share f else 0
    simp only [hservice, hshare f] at hset
    rw [h.counters service f]
    simp only [sum, Nat.add_right_cancel hset]
  · intro k hk
    obtain hk | rfl := List.mem_or_eq_of_mem_set hk
    · exact h.entry k hk
    · exact hservice ▸ h.entry g (List.mem_of_getElem? hfound)
  · intro k hk
    obtain hk | rfl := List.mem_or_eq_of_mem_set hk
    · exact h.tallied k hk
    · exact htallied
  · exact h.grpc

theorem Ledger.service (h : Ledger t) (name : String) :
    Ledger { t with metrics := t.metrics.service name } := by
  refine ⟨fun s field => ?_, fun g hg => ?_, h.tallied, h.grpc⟩
  · rw [Metrics.service, countersOf_onService]
    split
    · next hs => exact hs ▸ h.counters s field
    · exact h.counters s field
  · exact mem_onService.mpr (.inr (h.entry g hg))

theorem share_start (service : String) (field : Field) :
    (Guard.start service).share field = if field = .active then 1 else 0 := by
  cases field <;> rfl

theorem Ledger.connStart (h : Ledger t) (service : String) :
    Ledger { t with
      metrics := t.metrics.onService service (Counters.fetchAdd .active 1)
      guards := t.guards ++ [.start service] } := by
  refine ⟨fun s field => ?_, fun g hg => ?_, fun g hg => ?_, h.grpc⟩
  · have hold := h.counters s field
    simp only [sum] at hold
    simp only [sum, List.map_append, List.sum_append, List.map_cons, List.map_nil, List.sum_cons,
      List.sum_nil, Nat.add_zero, UInt64.ofNat_add, ← hold, countersOf_onService, share_start]
    by_cases hname : s = service
    · subst hname
      rw [if_pos rfl, if_pos (show (Guard.start s).service = s from rfl), Counters.get_fetchAdd]
      split <;> rfl
    · rw [if_neg hname, if_neg (show ¬ (Guard.start service).service = s from Ne.symm hname)]
      exact (UInt64.add_zero _).symm
  · rw [mem_onService]
    obtain hg | hg := List.mem_append.mp hg
    · exact .inr (h.entry g hg)
    · rw [List.mem_singleton.mp hg]
      exact .inl rfl
  · obtain hg | hg := List.mem_append.mp hg
    · exact h.tallied g hg
    · rw [List.mem_singleton.mp hg]
      exact ⟨rfl, rfl⟩

theorem Ledger.recordGrpcStatus (h : Ledger t) (service : String) (code : UInt32) :
    Ledger { t with
      metrics := t.metrics.recordGrpcStatus service code
      grpcCalls := (service, code) :: t.grpcCalls } := by
  refine ⟨h.counters, h.entry, h.tallied, fun call => ?_⟩
  simp only [Metrics.recordGrpcStatus]
  by_cases hcall : call = (service, code)
  · subst hcall
    rw [AList.lookup_insert, h.grpc, List.count_cons_self, if_neg (Nat.succ_ne_zero _),
      UInt64.ofNat_add]
    split
    · next hzero => rw [hzero]; rfl
    · rfl
  · rw [AList.lookup_insert_ne hcall, h.grpc, List.count_cons_of_ne (Ne.symm hcall)]

/-- One atomic operation keeps the ledger. -/
theorem Ledger.step (h : Ledger t) (hs : t.step a = some t') : Ledger t' := by
  have htallied : ∀ {i g}, t.guards[i]? = some g → Tallied g := fun hg =>
    h.tallied _ (List.mem_of_getElem? hg)
  cases a with
  | service name =>
      cases hs
      exact h.service name
  | connStart service =>
      cases hs
      exact h.connStart service
  | connCounted i =>
      obtain ⟨g, hg, hs⟩ := Option.bind_eq_some_iff.mp hs
      split at hs
      · next hphase =>
          cases hs
          refine h.onGuard .total 1 0 rfl hg rfl ⟨(htallied hg).1, (htallied hg).2⟩ fun f => ?_
          cases f <;> simp [Guard.share, hphase]
      · cases hs
  | addUp i n =>
      obtain ⟨g, hg, hs⟩ := Option.bind_eq_some_iff.mp hs
      split at hs
      · cases hs
        refine h.onGuard .bytesUp n 0 (UInt64.add_zero _) hg ?_ ⟨(htallied hg).1, (htallied hg).2⟩
          fun f => ?_
        · rfl
        · cases f <;> simp [Guard.share]
          omega
      · cases hs
  | addDown i n =>
      obtain ⟨g, hg, hs⟩ := Option.bind_eq_some_iff.mp hs
      split at hs
      · cases hs
        refine h.onGuard .bytesDown n 0 (UInt64.add_zero _) hg ?_ ⟨(htallied hg).1, (htallied hg).2⟩
          fun f => ?_
        · rfl
        · cases f <;> simp [Guard.share]
          omega
      · cases hs
  | tallyUp i n =>
      obtain ⟨g, hg, hs⟩ := Option.bind_eq_some_iff.mp hs
      split at hs
      · next hmem =>
          cases hs
          have hsum := List.sum_erase hmem
          refine h.tally hg rfl ⟨?_, (htallied hg).2⟩ fun f => ?_
          · rw [UInt64.ofNat_add, ← (htallied hg).1]
          · cases f <;> simp only [Guard.share]
            omega
      · cases hs
  | tallyDown i n =>
      obtain ⟨g, hg, hs⟩ := Option.bind_eq_some_iff.mp hs
      split at hs
      · next hmem =>
          cases hs
          have hsum := List.sum_erase hmem
          refine h.tally hg rfl ⟨(htallied hg).1, ?_⟩ fun f => ?_
          · rw [UInt64.ofNat_add, ← (htallied hg).2]
          · cases f <;> simp only [Guard.share]
            omega
      · cases hs
  | setOutcome i outcome =>
      obtain ⟨g, hg, hs⟩ := Option.bind_eq_some_iff.mp hs
      split at hs
      · cases hs
        refine h.onGuard (outcomeField outcome) 1 0 rfl hg rfl
          ⟨(htallied hg).1, (htallied hg).2⟩ fun f => ?_
        cases outcome <;> cases f <;> simp [Guard.share, outcomeField]
      · cases hs
  | dropGuard i =>
      obtain ⟨g, hg, hs⟩ := Option.bind_eq_some_iff.mp hs
      split at hs
      · next hphase =>
          cases hs
          refine h.onGuard .active 0 1 rfl hg rfl ⟨(htallied hg).1, (htallied hg).2⟩ fun f => ?_
          cases f <;> simp [Guard.share, hphase]
      · cases hs
  | recordGrpcStatus service code =>
      cases hs
      exact h.recordGrpcStatus service code
  | setReady ready =>
      cases hs
      exact ⟨h.counters, h.entry, h.tallied, h.grpc⟩

/-- A guard operates on an entry that is there. -/
theorem mem_onGuard (h : Ledger t) (hfound : t.guards[i]? = some g)
    (hservice : g'.service = g.service) (change : Counters → Counters) (name : String) :
    name ∈ (t.onGuard i g' change).metrics.services ↔ name ∈ t.metrics.services := by
  rw [Run.onGuard, mem_onService, or_iff_right_of_imp]
  rintro rfl
  exact hservice ▸ h.entry g (List.mem_of_getElem? hfound)

/-- A service has an entry from the operation on that names it first. -/
theorem mem_services_step (h : Ledger t) (hs : t.step a = some t') (name : String) :
    name ∈ t'.metrics.services ↔ a.names = some name ∨ name ∈ t.metrics.services := by
  have hother : ∀ b : Action, b.names = none →
      (b.names = some name ∨ name ∈ t.metrics.services ↔ name ∈ t.metrics.services) := by
    intro b hb
    simp [hb]
  cases a with
  | service name' | connStart name' =>
      cases hs
      rw [Action.names, Option.some.injEq, eq_comm (a := name')]
      exact mem_onService
  | recordGrpcStatus | setReady =>
      cases hs
      exact (hother _ rfl).symm
  | connCounted i | addUp i n | addDown i n | setOutcome i outcome | dropGuard i =>
      obtain ⟨g, hg, hs⟩ := Option.bind_eq_some_iff.mp hs
      split at hs
      · cases hs
        rw [hother _ rfl]
        exact mem_onGuard h hg rfl _ name
      · cases hs
  | tallyUp i n | tallyDown i n =>
      obtain ⟨g, hg, hs⟩ := Option.bind_eq_some_iff.mp hs
      split at hs
      · cases hs
        exact (hother _ rfl).symm
      · cases hs

/-- What a whole run of operations has made of the registry. -/
theorem ledger_exec {labels : List Action} (h : Ledger t) (run : exec step t labels = some t') :
    Ledger t' ∧ ∀ name, name ∈ t'.metrics.services ↔
      name ∈ t.metrics.services ∨ ∃ a ∈ labels, a.names = some name := by
  induction labels generalizing t with
  | nil =>
      cases run
      exact ⟨h, by simp⟩
  | cons a labels ih =>
      obtain ⟨u, hu, hrest⟩ := exec_cons_eq_some run
      obtain ⟨hledger, hmem⟩ := ih (h.step hu) hrest
      refine ⟨hledger, fun name => ?_⟩
      rw [hmem, mem_services_step h hu, List.exists_mem_cons_iff, or_assoc, or_left_comm]

/-- A change of a guard that takes nothing from its contribution takes nothing from the sum. -/
theorem sum_le_of_set (hfound : t.guards[i]? = some g) (hguards : t'.guards = t.guards.set i g')
    (hservice : g'.service = g.service) {field : Field}
    (hshare : g.share field ≤ g'.share field) (service : String) :
    t.sum service field ≤ t'.sum service field := by
  have hset := sum_map_set (y := g') hfound
    fun k => if k.service = service then k.share field else 0
  simp only [hservice] at hset
  rw [sum, sum, hguards]
  split at hset
  · omega
  · omega

/-- Only the gauge of the open connections ever falls. -/
theorem sum_le_step {field : Field} (hfield : field ≠ .active) (hs : t.step a = some t')
    (service : String) : t.sum service field ≤ t'.sum service field := by
  cases a with
  | service name | recordGrpcStatus name code | setReady ready =>
      cases hs
      exact Nat.le_refl _
  | connStart name =>
      cases hs
      simp [sum]
  | connCounted i | addUp i n | addDown i n | setOutcome i outcome =>
      obtain ⟨g, hg, hs⟩ := Option.bind_eq_some_iff.mp hs
      split at hs
      · next hphase =>
          cases hs
          refine sum_le_of_set hg rfl (by rfl) ?_ service
          cases field <;> simp [Guard.share, hphase, List.count_le_count_cons]
      · cases hs
  | tallyUp i n | tallyDown i n =>
      obtain ⟨g, hg, hs⟩ := Option.bind_eq_some_iff.mp hs
      split at hs
      · next hmem =>
          cases hs
          have hsum := List.sum_erase hmem
          refine sum_le_of_set hg rfl (by rfl) ?_ service
          cases field <;> simp only [Guard.share] <;> omega
      · cases hs
  | dropGuard i =>
      obtain ⟨g, hg, hs⟩ := Option.bind_eq_some_iff.mp hs
      split at hs
      · next hphase =>
          cases hs
          refine sum_le_of_set hg rfl (by rfl) ?_ service
          cases field <;> simp [Guard.share, hphase]
          exact absurd rfl hfield
      · cases hs

theorem sum_le_exec {field : Field} (hfield : field ≠ .active) {labels : List Action}
    (run : exec step t labels = some t') (service : String) :
    t.sum service field ≤ t'.sum service field := by
  induction labels generalizing t with
  | nil =>
      cases run
      exact Nat.le_refl _
  | cons a labels ih =>
      obtain ⟨u, hu, hrest⟩ := exec_cons_eq_some run
      exact Nat.le_trans (sum_le_step hfield hu service) (ih hrest)

end Run

end Metrics

end ZenohBridge
