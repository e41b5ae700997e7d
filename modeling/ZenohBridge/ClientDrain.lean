import ZenohBridge.ClientTimeline
import ZenohBridge.RegistrySafety
import ZenohBridge.Foundation.Execution
import Mathlib.Data.List.Perm.Basic

/-!
# The clients of an exporter and their drain

The export loop spawns a task for each client and cancels it when the client disconnects. On a
demotion or a shutdown `drain_all_clients` empties the map, cancels every task that was in it
and awaits the tasks one after the other against one deadline. A task that has not returned by
then is aborted.

## Implementation notes

The clock is shared by all tasks, and time is a step of its own. A run is prompt when no time
passes while a task, a holder or the drain could go on. Client ids are numbers in the order of
the spawns. The map is drained in any order. While the drain runs the export loop does nothing
else, and it may serve again afterwards.
-/

namespace ZenohBridge

open Execution Deadline

/-- The loop of `drain_all_clients` over the handles that are left. -/
structure ClientsDrain where
  deadline : Nat
  waiting : List Nat
  deriving DecidableEq, Repr

/-- The tasks spawned by an export loop, and its drain. -/
structure Clients where
  now : Nat
  clients : List ClientRun
  drain : Option ClientsDrain

inductive ClientsAction where
  | connect
  | disconnect (i : Nat)
  | drain (entries : List Nat)
  /-- The awaited task has returned. -/
  | awaited
  /-- The deadline has passed before the awaited task returned. -/
  | abort
  | drained
  | client (i : Nat) (a : RunAction)
  | tick
  deriving DecidableEq, Repr

namespace ClientRun

/-- The entry of the task is in the map: it was not cancelled and has not removed itself. -/
def outstanding (c : ClientRun) : Bool := c.cancelled.isNone && decide (c.stage ≠ .returned)

/-- `drain_all_clients` cancels the tasks whose entry is in the map. -/
def drainCancel (now : Nat) (c : ClientRun) : ClientRun :=
  if c.outstanding then c.sendCancel now true else c

end ClientRun

namespace Clients

/-- The margin of the drain over the drain time of a connection. -/
def drainMargin : Nat := 5000

def init : Clients := ⟨0, [], none⟩

/-- The entries of the map. -/
def entries (s : Clients) : List Nat :=
  (List.range s.clients.length).filter fun i => s.clients[i]?.any ClientRun.outstanding

def step (cfg : ClientConfig) (s : Clients) : ClientsAction → Option Clients
  | .connect =>
      if s.drain = none then
        some { s with clients := s.clients ++ [.start s.clients.length s.now] }
      else none
  | .disconnect i =>
      match s.clients[i]? with
      | some c =>
          if s.drain = none ∧ c.outstanding = true then
            some { s with clients := s.clients.set i (c.sendCancel s.now false) }
          else none
      | none => none
  | .drain entries =>
      if s.drain = none ∧ entries.Perm s.entries then
        some { s with
          clients := s.clients.map (ClientRun.drainCancel s.now)
          drain := some ⟨s.now + cfg.drainTimeout + drainMargin, entries⟩ }
      else none
  | .awaited =>
      match s.drain with
      | some ⟨deadline, i :: rest⟩ =>
          if s.clients[i]?.any ClientRun.isOver = true then
            some { s with drain := some ⟨deadline, rest⟩ }
          else none
      | _ => none
  | .abort =>
      match s.drain with
      | some ⟨deadline, i :: rest⟩ =>
          match s.clients[i]? with
          | some c =>
              if c.isOver = false ∧ deadline ≤ s.now then
                some { s with
                  clients := s.clients.set i (c.abort s.now)
                  drain := some ⟨deadline, rest⟩ }
              else none
          | none => none
      | _ => none
  | .drained =>
      match s.drain with
      | some ⟨_, []⟩ => some { s with drain := none }
      | _ => none
  | .client i a =>
      match s.clients[i]? with
      | some c => (c.step cfg s.now a).map fun c => { s with clients := s.clients.set i c }
      | none => none
  | .tick => some { s with now := s.now + 1 }

/-- The drain can go on at once. -/
def drainReady (s : Clients) : Bool :=
  match s.drain with
  | some ⟨deadline, i :: _⟩ => s.clients[i]?.any ClientRun.isOver || decide (deadline ≤ s.now)
  | some ⟨_, []⟩ => true
  | none => false

/-- The steps that the drain, a task or a holder takes by itself. -/
def own (cfg : ClientConfig) (s : Clients) : ClientsAction → Bool
  | .awaited | .abort | .drained => true
  | .client i a => s.clients[i]?.any fun c => c.own cfg s.now a
  | .connect | .disconnect _ | .drain _ | .tick => false

/-- Some task, some holder or the drain goes on by itself. -/
def urgent (cfg : ClientConfig) (s : Clients) : Bool :=
  s.clients.any (ClientRun.urgent cfg s.now) || s.drainReady

/-- No time passes while something could go on. -/
def Prompt (cfg : ClientConfig) (s : Clients) (a : ClientsAction) : Prop :=
  a = .tick → s.urgent cfg = false

instance (cfg : ClientConfig) (s : Clients) (a : ClientsAction) : Decidable (Prompt cfg s a) :=
  inferInstanceAs (Decidable (_ → _))

/-- Everything that a step can do, with what it requires. -/
inductive Moved (cfg : ClientConfig) (s : Clients) : ClientsAction → Clients → Prop
  | connected (idle : s.drain = none) : Moved cfg s .connect
      { s with clients := s.clients ++ [.start s.clients.length s.now] }
  | disconnected (i : Nat) (c : ClientRun) (found : s.clients[i]? = some c)
      (idle : s.drain = none) (entry : c.outstanding = true) : Moved cfg s (.disconnect i)
        { s with clients := s.clients.set i (c.sendCancel s.now false) }
  | drainBegun (entries : List Nat) (idle : s.drain = none) (perm : entries.Perm s.entries) :
      Moved cfg s (.drain entries) { s with
        clients := s.clients.map (ClientRun.drainCancel s.now)
        drain := some ⟨s.now + cfg.drainTimeout + drainMargin, entries⟩ }
  | awaited (deadline i : Nat) (rest : List Nat) (c : ClientRun)
      (drain : s.drain = some ⟨deadline, i :: rest⟩) (found : s.clients[i]? = some c)
      (ended : c.isOver = true) : Moved cfg s .awaited { s with drain := some ⟨deadline, rest⟩ }
  | aborted (deadline i : Nat) (rest : List Nat) (c : ClientRun)
      (drain : s.drain = some ⟨deadline, i :: rest⟩) (found : s.clients[i]? = some c)
      (running : c.isOver = false) (due : deadline ≤ s.now) : Moved cfg s .abort { s with
        clients := s.clients.set i (c.abort s.now)
        drain := some ⟨deadline, rest⟩ }
  | drainEnded (deadline : Nat) (drain : s.drain = some ⟨deadline, []⟩) :
      Moved cfg s .drained { s with drain := none }
  | client (i : Nat) (a : RunAction) (c c' : ClientRun) (found : s.clients[i]? = some c)
      (moved : ClientRun.Moved cfg s.now c a c') :
      Moved cfg s (.client i a) { s with clients := s.clients.set i c' }
  | ticked : Moved cfg s .tick { s with now := s.now + 1 }

variable {cfg : ClientConfig} {s s' : Clients} {a : ClientsAction}

theorem moved_drain (h : s.step cfg a = some s') (ha : a = .awaited ∨ a = .abort ∨ a = .drained) :
    Moved cfg s a s' := by
  obtain rfl | rfl | rfl := ha
  · simp only [step] at h
    split at h
    · next deadline i rest hdrain =>
        simp only [Option.ite_none_right_eq_some, Option.any_eq_true] at h
        obtain ⟨⟨c, hfound, hover⟩, h⟩ := h
        obtain rfl := Option.some.inj h
        exact .awaited deadline i rest c hdrain hfound hover
    · cases h
  · simp only [step] at h
    split at h
    · next deadline i rest hdrain =>
        split at h
        · next c hfound =>
            simp only [Option.ite_none_right_eq_some] at h
            obtain ⟨⟨hrunning, hdue⟩, h⟩ := h
            obtain rfl := Option.some.inj h
            exact .aborted deadline i rest c hdrain hfound hrunning hdue
        · cases h
    · cases h
  · simp only [step] at h
    split at h
    · next deadline hdrain =>
        obtain rfl := Option.some.inj h
        exact .drainEnded deadline hdrain
    · cases h

/-- Inversion of a step. -/
theorem moved_of_step (h : s.step cfg a = some s') : Moved cfg s a s' := by
  cases a with
  | connect =>
      simp only [step, Option.ite_none_right_eq_some] at h
      obtain rfl := Option.some.inj h.2
      exact .connected h.1
  | disconnect i =>
      simp only [step] at h
      split at h
      · next c hfound =>
          simp only [Option.ite_none_right_eq_some] at h
          obtain ⟨⟨hidle, hentry⟩, h⟩ := h
          obtain rfl := Option.some.inj h
          exact .disconnected i c hfound hidle hentry
      · cases h
  | drain entries =>
      simp only [step, Option.ite_none_right_eq_some] at h
      obtain rfl := Option.some.inj h.2
      exact .drainBegun entries h.1.1 h.1.2
  | awaited => exact moved_drain h (.inl rfl)
  | abort => exact moved_drain h (.inr (.inl rfl))
  | drained => exact moved_drain h (.inr (.inr rfl))
  | client i a =>
      simp only [step] at h
      split at h
      · next c hfound =>
          obtain ⟨c', hc', rfl⟩ := Option.map_eq_some_iff.mp h
          exact .client i a c c' hfound (ClientRun.moved_of_step hc')
      · cases h
  | tick =>
      obtain rfl := Option.some.inj h
      exact .ticked

end Clients

namespace ClientRun

/-- A task is aborted by the deadline of its drain only. -/
def AbortRecord (cfg : ClientConfig) (c : ClientRun) : Prop :=
  c.stage = .aborted → ∃ r at', c.cancelled = some r ∧ r.byDrain = true ∧ c.overAt = some at' ∧
    r.sentAt + cfg.drainTimeout + Clients.drainMargin ≤ at'

/-- The records of a task, whatever the time. -/
structure Recorded (cfg : ClientConfig) (c : ClientRun) : Prop where
  sound : Sound cfg c
  channel : c.task.CancelKept
  abort : c.AbortRecord cfg

variable {cfg : ClientConfig} {now : Nat} {c c' : ClientRun} {a : RunAction}

theorem recorded_start (cfg : ClientConfig) (client now : Nat) :
    Recorded cfg (start client now) where
  sound := sound_start cfg client now
  channel := ClientTask.spawn_cancelKept client
  abort := nofun

/-- A task does not abort itself, and does nothing more once it is aborted. -/
theorem aborted_moved (hm : Moved cfg now c a c') (h : c'.stage = .aborted) :
    c.stage = .aborted ∧ c'.cancelled = c.cancelled ∧ c'.overAt = c.overAt := by
  cases hm with
  | dialed ra dial dial' hstage hdial =>
      cases dial' with
      | trying | pausing | succeeded | failed => cases h
  | undeclared clean hstage =>
      cases clean with
      | true | false => cases h
  | published | vanished => exact ⟨h, rfl, rfl⟩
  | dialCancelled | setUp | setupFailed | watcherTook | tripped | joined | signalled | left =>
      cases h

theorem channel_moved (h : c.task.CancelKept) (hm : Moved cfg now c a c') :
    c'.task.CancelKept := by
  obtain heq | ⟨event, hstep⟩ | ⟨-, heq⟩ := task_moved hm
  · rw [heq]
    exact h
  · exact h.step hstep
  · rw [heq]
    exact .of_over rfl h.slot fun _ => rfl

/-- A step keeps the client, its cancel and its end. -/
theorem moved_frame (hm : Moved cfg now c a c') : c'.client = c.client ∧
    c'.cancelled = c.cancelled ∧ (c.isOver = true → c'.isOver = true) := by
  cases hm with
  | dialed ra dial dial' hstage hdial =>
      cases dial' with
      | trying | pausing | succeeded | failed => exact ⟨rfl, rfl, id⟩
  | undeclared clean hstage =>
      cases clean with
      | true | false => exact ⟨rfl, rfl, id⟩
  | left hstage => exact ⟨rfl, rfl, fun _ => rfl⟩
  | dialCancelled | setUp | setupFailed | watcherTook | tripped | joined | published | signalled
  | vanished => exact ⟨rfl, rfl, id⟩

theorem Recorded.moved (h : Recorded cfg c) (hm : Moved cfg now c a c') : Recorded cfg c' where
  sound := h.sound.moved hm
  channel := channel_moved h.channel hm
  abort := by
    intro haborted
    obtain ⟨hbefore, hcancelled, hover⟩ := aborted_moved hm haborted
    rw [hcancelled, hover]
    exact h.abort hbefore

/-- A task whose entry is in the map still runs. -/
theorem Recorded.running (h : Recorded cfg c) (hentry : c.outstanding = true) :
    c.overAt = none ∧ c.cancelled = none := by
  simp only [outstanding, Bool.and_eq_true, Option.isNone_iff_eq_none, decide_eq_true_eq] at hentry
  obtain ⟨hcancelled, hreturned⟩ := hentry
  refine ⟨?_, hcancelled⟩
  have hrecord := h.sound.stage
  cases hstage : c.stage with
  | dialing =>
      simp only [StageRecord, hstage] at hrecord
      exact hrecord.2.2.2.2.2.2.2
  | settingUp | relaying | undeclaring =>
      simp only [StageRecord, hstage] at hrecord
      exact hrecord.2.2.2.2
  | signalling =>
      simp only [StageRecord, hstage] at hrecord
      exact hrecord.2.2
  | leaving =>
      simp only [StageRecord, hstage] at hrecord
      exact hrecord.2
  | returned => exact absurd hstage hreturned
  | aborted =>
      obtain ⟨r, -, hr, -⟩ := h.abort hstage
      exact absurd (hcancelled.symm.trans hr).symm (Option.some_ne_none r)

theorem Recorded.sendCancel (h : Recorded cfg c) (hentry : c.outstanding = true) (byDrain : Bool) :
    Recorded cfg (c.sendCancel now byDrain) where
  sound := h.sound.sendCancel byDrain
  channel := h.channel.sendCancel
  abort := by
    intro haborted
    obtain ⟨r, -, hr, -⟩ := h.abort haborted
    exact absurd ((h.running hentry).2.symm.trans hr) nofun

theorem Recorded.drainCancel (h : Recorded cfg c) : Recorded cfg (c.drainCancel now) := by
  rw [ClientRun.drainCancel]
  split
  · next hentry => exact h.sendCancel hentry true
  · exact h

/-- The drain aborts a task that it has cancelled, at its deadline. -/
theorem Recorded.abort_of_due {r : CancelRecord} (h : Recorded cfg c)
    (hr : c.cancelled = some r) (hdrain : r.byDrain = true)
    (hdue : r.sentAt + cfg.drainTimeout + Clients.drainMargin ≤ now) :
    Recorded cfg (c.abort now) where
  sound := h.sound.abort
  channel := .of_over rfl h.channel.slot fun _ => rfl
  abort := fun _ => ⟨r, now, hr, hdrain, rfl, hdue⟩

end ClientRun

namespace Clients

variable {cfg : ClientConfig} {s s' : Clients} {a : ClientsAction}

/-- What a drain knows of a task that it awaits. -/
def Awaited (cfg : ClientConfig) (d : ClientsDrain) (c : ClientRun) : Prop :=
  ∃ r, c.cancelled = some r ∧ r.byDrain = true ∧
    d.deadline = r.sentAt + cfg.drainTimeout + drainMargin

/-- The records of all tasks and of the drain, whatever the time. -/
structure Sound (cfg : ClientConfig) (s : Clients) : Prop where
  recorded : ∀ c ∈ s.clients, c.Recorded cfg
  ids : ∀ (i : Nat) (c : ClientRun), s.clients[i]? = some c → c.client = i
  waiting : ∀ d, s.drain = some d → ∀ i ∈ d.waiting, ∃ c, s.clients[i]? = some c ∧ Awaited cfg d c
  drained : ∀ (i : Nat) (c : ClientRun) (r : CancelRecord), s.clients[i]? = some c →
    c.cancelled = some r → r.byDrain = true →
    c.isOver = true ∨ ∃ d, s.drain = some d ∧ i ∈ d.waiting

theorem sound_init (cfg : ClientConfig) : Sound cfg init where
  recorded := List.forall_mem_nil _
  ids := by
    intro i c hc
    exact absurd (List.mem_of_getElem? hc) List.not_mem_nil
  waiting := nofun
  drained := by
    intro i c r hc
    exact absurd (List.mem_of_getElem? hc) List.not_mem_nil

/-- A list with one entry exchanged. -/
theorem of_getElem?_set {l : List ClientRun} {i j : Nat} {c c' : ClientRun}
    (h : (l.set i c')[j]? = some c) : (j = i ∧ c = c') ∨ (j ≠ i ∧ l[j]? = some c) := by
  by_cases hij : j = i
  · subst hij
    rw [List.getElem?_set_self'] at h
    obtain ⟨_, -, hc⟩ := Option.map_eq_some_iff.mp h
    exact .inl ⟨rfl, hc.symm⟩
  · rw [List.getElem?_set_ne (Ne.symm hij)] at h
    exact .inr ⟨hij, h⟩

theorem of_getElem?_append {l : List ClientRun} {j : Nat} {c c' : ClientRun}
    (h : (l ++ [c'])[j]? = some c) : l[j]? = some c ∨ (j = l.length ∧ c = c') := by
  rw [List.getElem?_append] at h
  split at h
  · exact .inl h
  · next hle =>
      obtain ⟨hj, hc⟩ := List.getElem?_eq_some_iff.mp h
      rw [List.length_singleton] at hj
      refine .inr ⟨by omega, ?_⟩
      rw [List.getElem_singleton] at hc
      exact hc.symm

/-- A step of one task keeps the records of all. -/
theorem Sound.set {i : Nat} {c c' : ClientRun} (h : Sound cfg s) (hfound : s.clients[i]? = some c)
    (hrecorded : c'.Recorded cfg) (hclient : c'.client = c.client)
    (hcancelled : c'.cancelled = c.cancelled) (hover : c.isOver = true → c'.isOver = true) :
    Sound cfg { s with clients := s.clients.set i c' } := by
  refine ⟨?_, ?_, ?_, ?_⟩
  · intro x hx
    obtain hx | rfl := List.mem_or_eq_of_mem_set hx
    · exact h.recorded x hx
    · exact hrecorded
  · intro j x hx
    obtain ⟨rfl, rfl⟩ | ⟨-, hx⟩ := of_getElem?_set hx
    · rw [hclient]
      exact h.ids j c hfound
    · exact h.ids j x hx
  · intro d hd j hj
    obtain ⟨x, hx, hawaited⟩ := h.waiting d hd j hj
    by_cases hji : j = i
    · subst hji
      obtain rfl := Option.some.inj (hfound.symm.trans hx)
      refine ⟨c', ?_, ?_⟩
      · rw [List.getElem?_set_self', hfound]
        rfl
      · rw [Awaited, hcancelled]
        exact hawaited
    · refine ⟨x, ?_, hawaited⟩
      rw [List.getElem?_set_ne (Ne.symm hji)]
      exact hx
  · intro j x r hx hr hdrain
    obtain ⟨rfl, rfl⟩ | ⟨-, hx⟩ := of_getElem?_set hx
    · obtain hend | hwaiting := h.drained j c r hfound (hcancelled ▸ hr) hdrain
      · exact .inl (hover hend)
      · exact .inr hwaiting
    · exact h.drained j x r hx hr hdrain

/-- The drain goes on when the task that it awaits is over. -/
theorem Sound.pop {deadline i : Nat} {rest : List Nat} {c : ClientRun} (h : Sound cfg s)
    (hdrain : s.drain = some ⟨deadline, i :: rest⟩) (hfound : s.clients[i]? = some c)
    (hover : c.isOver = true) : Sound cfg { s with drain := some ⟨deadline, rest⟩ } := by
  refine ⟨h.recorded, h.ids, ?_, ?_⟩
  · intro d hd j hj
    obtain rfl := Option.some.inj hd
    exact h.waiting _ hdrain j (List.mem_cons_of_mem _ hj)
  · intro j x r hx hr hbyDrain
    obtain hend | ⟨d, hd, hj⟩ := h.drained j x r hx hr hbyDrain
    · exact .inl hend
    · obtain rfl := Option.some.inj (hdrain.symm.trans hd)
      obtain rfl | hj := List.mem_cons.mp hj
      · obtain rfl := Option.some.inj (hfound.symm.trans hx)
        exact .inl hover
      · exact .inr ⟨_, rfl, hj⟩

theorem mem_entries {i : Nat} :
    i ∈ s.entries ↔ ∃ c, s.clients[i]? = some c ∧ c.outstanding = true := by
  simp only [entries, List.mem_filter, List.mem_range, Option.any_eq_true]
  constructor
  · exact And.right
  · rintro ⟨c, hc, hentry⟩
    exact ⟨(List.getElem?_eq_some_iff.mp hc).1, c, hc, hentry⟩

theorem Sound.disconnect {i : Nat} {c : ClientRun} (h : Sound cfg s) (hidle : s.drain = none)
    (hfound : s.clients[i]? = some c) (hentry : c.outstanding = true) :
    Sound cfg { s with clients := s.clients.set i (c.sendCancel s.now false) } := by
  refine ⟨?_, ?_, ?_, ?_⟩
  · intro x hx
    obtain hx | rfl := List.mem_or_eq_of_mem_set hx
    · exact h.recorded x hx
    · exact (h.recorded c (List.mem_of_getElem? hfound)).sendCancel hentry false
  · intro j x hx
    obtain ⟨rfl, rfl⟩ | ⟨-, hx⟩ := of_getElem?_set hx
    · exact h.ids j c hfound
    · exact h.ids j x hx
  · intro d hd
    exact absurd (hidle.symm.trans hd) nofun
  · intro j x r hx hr hdrain
    obtain ⟨rfl, rfl⟩ | ⟨-, hx⟩ := of_getElem?_set hx
    · obtain rfl := Option.some.inj hr
      cases hdrain
    · exact h.drained j x r hx hr hdrain

theorem Sound.drainBegun {entries : List Nat} (h : Sound cfg s) (hidle : s.drain = none)
    (hperm : entries.Perm s.entries) : Sound cfg { s with
      clients := s.clients.map (ClientRun.drainCancel s.now)
      drain := some ⟨s.now + cfg.drainTimeout + drainMargin, entries⟩ } := by
  refine ⟨?_, ?_, ?_, ?_⟩
  · intro x hx
    obtain ⟨c, hc, rfl⟩ := List.mem_map.mp hx
    exact (h.recorded c hc).drainCancel
  · intro j x hx
    rw [List.getElem?_map, Option.map_eq_some_iff] at hx
    obtain ⟨c, hc, rfl⟩ := hx
    rw [ClientRun.drainCancel]
    split
    · exact h.ids j c hc
    · exact h.ids j c hc
  · intro d hd j hj
    obtain rfl := Option.some.inj hd
    obtain ⟨c, hc, hentry⟩ := mem_entries.mp (hperm.mem_iff.mp hj)
    refine ⟨c.sendCancel s.now true, ?_, ⟨s.now, c.stage.phase, true⟩, rfl, rfl, rfl⟩
    rw [List.getElem?_map, hc, Option.map_some, ClientRun.drainCancel, if_pos hentry]
  · intro j x r hx hr hdrain
    rw [List.getElem?_map, Option.map_eq_some_iff] at hx
    obtain ⟨c, hc, rfl⟩ := hx
    by_cases hentry : c.outstanding = true
    · exact .inr ⟨_, rfl, hperm.mem_iff.mpr (mem_entries.mpr ⟨c, hc, hentry⟩)⟩
    · rw [ClientRun.drainCancel, if_neg hentry] at hr ⊢
      obtain hend | ⟨d, hd, -⟩ := h.drained j c r hc hr hdrain
      · exact .inl hend
      · exact absurd (hidle.symm.trans hd) nofun

theorem Sound.moved (h : Sound cfg s) (hm : Moved cfg s a s') : Sound cfg s' := by
  cases hm with
  | connected hidle =>
      refine ⟨?_, ?_, ?_, ?_⟩
      · intro x hx
        obtain hx | hx := List.mem_append.mp hx
        · exact h.recorded x hx
        · obtain rfl := List.mem_singleton.mp hx
          exact ClientRun.recorded_start cfg _ _
      · intro j x hx
        obtain hx | ⟨rfl, rfl⟩ := of_getElem?_append hx
        · exact h.ids j x hx
        · rfl
      · intro d hd
        exact absurd (hidle.symm.trans hd) nofun
      · intro j x r hx hr hdrain
        obtain hx | ⟨rfl, rfl⟩ := of_getElem?_append hx
        · exact h.drained j x r hx hr hdrain
        · cases hr
  | disconnected i c hfound hidle hentry => exact h.disconnect hidle hfound hentry
  | drainBegun entries hidle hperm => exact h.drainBegun hidle hperm
  | awaited deadline i rest c hdrain hfound hover => exact h.pop hdrain hfound hover
  | aborted deadline i rest c hdrain hfound hrunning hdue =>
      obtain ⟨x, hx, r, hr, hbyDrain, hdeadline⟩ := h.waiting _ hdrain i (List.mem_cons_self ..)
      obtain rfl := Option.some.inj (hfound.symm.trans hx)
      have hrecorded := h.recorded c (List.mem_of_getElem? hfound)
      have haborted : Sound cfg { s with clients := s.clients.set i (c.abort s.now) } :=
        h.set hfound (hrecorded.abort_of_due hr hbyDrain (hdeadline ▸ hdue)) rfl rfl fun _ => rfl
      refine haborted.pop hdrain (c := c.abort s.now) ?_ rfl
      rw [List.getElem?_set_self', hfound]
      rfl
  | drainEnded deadline hdrain =>
      refine ⟨h.recorded, h.ids, nofun, ?_⟩
      intro j x r hx hr hbyDrain
      obtain hend | ⟨d, hd, hj⟩ := h.drained j x r hx hr hbyDrain
      · exact .inl hend
      · obtain rfl := Option.some.inj (hdrain.symm.trans hd)
        cases hj
  | client i ra c c' hfound hmoved =>
      obtain ⟨hclient, hcancelled, hover⟩ := ClientRun.moved_frame hmoved
      have hrecorded := h.recorded c (List.mem_of_getElem? hfound)
      exact h.set hfound (hrecorded.moved hmoved) hclient hcancelled hover
  | ticked => exact ⟨h.recorded, h.ids, h.waiting, h.drained⟩

/-- The timelines of all tasks, and the deadline of the drain. -/
structure Timely (cfg : ClientConfig) (s : Clients) : Prop where
  clients : ∀ c ∈ s.clients, c.Timely cfg s.now
  deadline : ∀ d, s.drain = some d → s.now ≤ d.deadline

theorem timely_init (cfg : ClientConfig) : Timely cfg init where
  clients := List.forall_mem_nil _
  deadline := nofun

theorem forall_mem_set {P : ClientRun → Prop} {i : Nat} {c' : ClientRun}
    (h : ∀ c ∈ s.clients, P c) (hc' : P c') : ∀ c ∈ s.clients.set i c', P c := by
  intro c hc
  obtain hc | rfl := List.mem_or_eq_of_mem_set hc
  · exact h c hc
  · exact hc'

/-- The tasks that the drain cancels keep to their timelines. -/
theorem Timely.drainCancel {c : ClientRun} (h : c.Timely cfg s.now) (hrecorded : c.Recorded cfg) :
    (c.drainCancel s.now).Timely cfg s.now := by
  rw [ClientRun.drainCancel]
  split
  · next hentry => exact h.sendCancel hrecorded.channel (hrecorded.running hentry).1
  · exact h

theorem Timely.moved (h : Timely cfg s) (hsound : Sound cfg s) (hm : Moved cfg s a s')
    (hprompt : Prompt cfg s a) : Timely cfg s' := by
  cases hm with
  | connected hidle =>
      refine ⟨?_, h.deadline⟩
      intro c hc
      obtain hc | hc := List.mem_append.mp hc
      · exact h.clients c hc
      · obtain rfl := List.mem_singleton.mp hc
        exact ClientRun.timely_start cfg _ _
  | disconnected i c hfound hidle hentry =>
      have hmem := List.mem_of_getElem? hfound
      have hrecorded := hsound.recorded c hmem
      exact ⟨forall_mem_set h.clients ((h.clients c hmem).sendCancel hrecorded.channel
        (hrecorded.running hentry).1), h.deadline⟩
  | drainBegun entries hidle hperm =>
      refine ⟨?_, ?_⟩
      · intro x hx
        obtain ⟨c, hc, rfl⟩ := List.mem_map.mp hx
        exact Timely.drainCancel (h.clients c hc) (hsound.recorded c hc)
      · intro d hd
        obtain rfl := Option.some.inj hd
        exact Nat.le_add_right_of_le (Nat.le_add_right _ _)
  | awaited deadline i rest c hdrain hfound hover =>
      refine ⟨h.clients, fun d hd => ?_⟩
      obtain rfl := Option.some.inj hd
      exact h.deadline ⟨deadline, i :: rest⟩ hdrain
  | aborted deadline i rest c hdrain hfound hrunning hdue =>
      refine ⟨forall_mem_set h.clients ?_, fun d hd => ?_⟩
      · have hover : c.overAt = none := by simpa [ClientRun.isOver] using hrunning
        exact (h.clients c (List.mem_of_getElem? hfound)).abort hover
      · obtain rfl := Option.some.inj hd
        exact h.deadline ⟨deadline, i :: rest⟩ hdrain
  | drainEnded deadline hdrain => exact ⟨h.clients, nofun⟩
  | client i ra c c' hfound hmoved =>
      have hmem := List.mem_of_getElem? hfound
      exact ⟨forall_mem_set h.clients ((h.clients c hmem).moved (hsound.recorded c hmem).sound
        hmoved), h.deadline⟩
  | ticked =>
      have hquiet := hprompt rfl
      simp only [urgent, Bool.or_eq_false_iff, List.any_eq_false] at hquiet
      obtain ⟨hclients, hdrain⟩ := hquiet
      refine ⟨fun c hc => ?_, fun d hd => ?_⟩
      · exact ClientRun.Timely.tick (Bool.eq_false_iff.mpr (hclients c hc)) (h.clients c hc)
          (hsound.recorded c hc).sound
      · rw [drainReady, hd] at hdrain
        obtain ⟨deadline, waiting⟩ := d
        cases waiting with
        | nil => cases hdrain
        | cons i rest =>
            simp only [Bool.or_eq_false_iff, decide_eq_false_iff_not] at hdrain
            exact Nat.lt_of_not_le hdrain.2

/-- The records hold in every run. -/
theorem sound_run (labels : List ClientsAction) :
    Always (step cfg) (Sound cfg) init labels :=
  always_of_step (fun _ _ _ h hs => h.moved (moved_of_step hs)) (sound_init cfg) labels

/-- The drain is ready exactly when it can take a step. -/
theorem drainReady_iff (h : Sound cfg s) : s.drainReady = true ↔
    ∃ a, (a = .awaited ∨ a = .abort ∨ a = .drained) ∧ (s.step cfg a).isSome = true := by
  constructor
  · intro hready
    cases hdrain : s.drain with
    | none =>
        rw [drainReady, hdrain] at hready
        cases hready
    | some d =>
        obtain ⟨deadline, waiting⟩ := d
        cases waiting with
        | nil => exact ⟨.drained, .inr (.inr rfl), by simp [step, hdrain]⟩
        | cons i rest =>
            obtain ⟨c, hc, -⟩ := h.waiting _ hdrain i List.mem_cons_self
            cases hover : c.isOver with
            | true => exact ⟨.awaited, .inl rfl, by simp [step, hdrain, hc, hover]⟩
            | false =>
                have hdue : deadline ≤ s.now := by
                  simpa [drainReady, hdrain, hc, hover] using hready
                exact ⟨.abort, .inr (.inl rfl), by simp [step, hdrain, hc, hover, hdue]⟩
  · rintro ⟨a, ha, hstep⟩
    obtain ⟨s', hs⟩ := Option.isSome_iff_exists.mp hstep
    cases moved_drain hs ha with
    | awaited deadline i rest c hdrain hc hover => simp [drainReady, hdrain, hc, hover]
    | aborted deadline i rest c hdrain hc _ hdue => simp [drainReady, hdrain, hdue]
    | drainEnded deadline hdrain => simp [drainReady, hdrain]
    | connected | disconnected | drainBegun | client | ticked => simp at ha

/-- The tasks and the drain are urgent exactly when one of them can take a step by itself. -/
theorem urgent_iff (h : Sound cfg s) : s.urgent cfg = true ↔
    ∃ a, s.own cfg a = true ∧ (s.step cfg a).isSome = true := by
  rw [urgent, Bool.or_eq_true, List.any_eq_true]
  constructor
  · rintro (⟨c, hmem, hurgent⟩ | hready)
    · obtain ⟨i, hi⟩ := List.mem_iff_getElem?.mp hmem
      obtain ⟨a, hown, hstep⟩ := (ClientRun.urgent_iff (h.recorded c hmem).sound).mp hurgent
      exact ⟨.client i a, by simp [own, hi, hown], by simp [step, hi, hstep]⟩
    · obtain ⟨a, ha, hstep⟩ := (drainReady_iff h).mp hready
      refine ⟨a, ?_, hstep⟩
      obtain rfl | rfl | rfl := ha <;> rfl
  · rintro ⟨a, hown, hstep⟩
    cases a with
    | client i a =>
        simp only [own, Option.any_eq_true] at hown
        obtain ⟨c, hi, hown⟩ := hown
        have hmem := List.mem_of_getElem? hi
        refine .inl ⟨c, hmem, (ClientRun.urgent_iff (h.recorded c hmem).sound).mpr ⟨a, hown, ?_⟩⟩
        simpa [step, hi] using hstep
    | awaited => exact .inr ((drainReady_iff h).mpr ⟨_, .inl rfl, hstep⟩)
    | abort => exact .inr ((drainReady_iff h).mpr ⟨_, .inr (.inl rfl), hstep⟩)
    | drained => exact .inr ((drainReady_iff h).mpr ⟨_, .inr (.inr rfl), hstep⟩)
    | connect | disconnect | drain | tick => cases hown

/-- The timelines hold in every prompt run. -/
theorem timely_run {labels : List ClientsAction}
    (hprompt : Along (step cfg) (Prompt cfg) init labels) :
    Always (step cfg) (fun s => Sound cfg s ∧ Timely cfg s) init labels := by
  refine always_of_along ?_ ⟨sound_init cfg, timely_init cfg⟩ hprompt
  rintro s a s' ⟨hsound, htimely⟩ hok hs
  have hmoved := moved_of_step hs
  exact ⟨hsound.moved hmoved, htimely.moved hsound hmoved hok⟩

/-- Nothing of an unreachable client stays: in every prompt run at most six attempts are made, a
task that never got through is over when these, the pauses between them and the budget of the
signal are, one that publishes its signal is over within its budget, and the publisher of the
signal is let go within its cap. -/
theorem unreached_given_up {labels : List ClientsAction}
    (hprompt : Along (step cfg) (Prompt cfg) init labels) :
    Always (step cfg) (fun s => ∀ c ∈ s.clients, c.attempts ≤ 6 ∧
      (c.dialedAt = none → c.seen s.now ≤
        c.startedAt + (6 * cfg.connectTimeout + 3100) + ClientRun.signalBudget cfg) ∧
      ∀ p, c.signal = some p → c.seen s.now ≤ p.expires ∧
        ∀ put, p.putAt = some put → p.releasedAt.getD s.now ≤ put + Holder.errorHoldCap)
      init labels := by
  refine (timely_run hprompt).mono ?_
  rintro s ⟨hsound, htimely⟩ c hc
  have hclient := htimely.clients c hc
  have hrecords := (hsound.recorded c hc).sound
  refine ⟨hrecords.attempts, fun hnone => ?_, fun p hp => ⟨?_, fun put hput => ?_⟩⟩
  · rw [← ClientRun.dialSpan_eq]
    exact (hclient.dead hnone).1
  · exact (hclient.budget p hp).1
  · exact (hclient.signal p hp).released_le (hrecords.signal p hp) hput

section Refused

/-- The only client of an exporter, in its dial. -/
def dialingAlone (now attempts : Nat) (dial : Retry) : Clients :=
  ⟨now, [{ ClientRun.start 0 0 with stage := .dialing dial, attempts := attempts }], none⟩

/-- It was given up on. -/
def givenUpAlone (cfg : ClientConfig) (now attempts : Nat) : Clients :=
  ⟨now, [{ ClientRun.start 0 0 with attempts := attempts }.giveUp cfg now .unreachable], none⟩

/-- All attempts of a dial fail at once, with these pauses between them. -/
def refusals : List Nat → List ClientsAction
  | [] => [.client 0 (.dial .fail)]
  | pause :: left =>
      .client 0 (.dial .fail) :: List.replicate pause .tick ++
        .client 0 (.dial .wake) :: refusals left

/-- A pause passes tick by tick. -/
theorem runs_pause (cfg : ClientConfig) (attempts : Nat) (left : List Nat) {now wakeAt : Nat}
    (ticks : Nat) (h : now + ticks = wakeAt) :
    Runs (step cfg) (Prompt cfg) (dialingAlone now attempts (.pausing wakeAt left))
      (List.replicate ticks .tick) (dialingAlone wakeAt attempts (.pausing wakeAt left)) := by
  induction ticks generalizing now with
  | zero =>
      obtain rfl : now = wakeAt := h
      exact .nil
  | succ ticks ih =>
      have hearly : now < wakeAt := by omega
      have hrest := @ih (now + 1) (by omega)
      refine .cons (fun _ => ?_) rfl hrest
      simp [urgent, dialingAlone, drainReady, ClientRun.urgent, ClientRun.ready,
        ClientRun.pending, ClientRun.start, ClientRun.instants, RunStage.instants,
        Retry.instants, expired, hearly]

/-- Attempts that fail at once take the time of the pauses. -/
theorem runs_refusals (cfg : ClientConfig) (left : List Nat) (now attempts : Nat) :
    Runs (step cfg) (Prompt cfg) (dialingAlone now attempts (.trying now left)) (refusals left)
      (givenUpAlone cfg (now + Retry.span 0 left) (attempts + left.length)) := by
  induction left generalizing now attempts with
  | nil => exact .cons (by rintro ⟨⟩) rfl .nil
  | cons pause left ih =>
      have hwake : step cfg (dialingAlone (now + pause) attempts (.pausing (now + pause) left))
          (.client 0 (.dial .wake)) =
            some (dialingAlone (now + pause) (attempts + 1) (.trying (now + pause) left)) := by
        simp [step, dialingAlone, ClientRun.step, Retry.step, ClientRun.dialed]
      have hrest := ih (now + pause) (attempts + 1)
      rw [Nat.add_assoc now, Nat.add_assoc attempts, Nat.add_comm 1] at hrest
      refine .cons (by rintro ⟨⟩) rfl ((runs_pause cfg attempts left pause rfl).append ?_)
      exact .cons (by rintro ⟨⟩) hwake hrest

/-- A client whose six attempts fail; its error signal is published, and the publisher is let go
when the token has vanished. -/
def refusedRun : List ClientsAction :=
  .connect :: refusals ClientRun.dialPauses ++
    [.client 0 (.publish (.declared true)), .client 0 (.publish (.gate (.answer true))),
      .client 0 (.publish (.put true)), .client 0 .signalled, .client 0 .removeSelf, .tick,
      .client 0 (.publish (.holder (.subscribed true))), .client 0 .tokenVanishes,
      .client 0 (.publish (.holder (.probed false)))]

theorem unreached_given_up_refusedRun :
    Always (step ⟨10, 10, 1, 1⟩) (fun s => ∀ c ∈ s.clients, c.attempts ≤ 6 ∧
      (c.dialedAt = none → c.seen s.now ≤
        c.startedAt + (6 * 10 + 3100) + ClientRun.signalBudget ⟨10, 10, 1, 1⟩) ∧
      ∀ p, c.signal = some p → c.seen s.now ≤ p.expires ∧
        ∀ put, p.putAt = some put → p.releasedAt.getD s.now ≤ put + Holder.errorHoldCap)
      init refusedRun ∧
    ∃ s, exec (step ⟨10, 10, 1, 1⟩) init refusedRun = some s ∧ ∃ c ∈ s.clients,
      c.attempts = 6 ∧ c.overAt = some 3100 ∧
      ∃ p, c.signal = some p ∧ p.putAt = some 3100 ∧ p.releasedAt = some 3101 := by
  have hdial := runs_refusals ⟨10, 10, 1, 1⟩ ClientRun.dialPauses 0 1
  have hstart : Runs (step ⟨10, 10, 1, 1⟩) (Prompt ⟨10, 10, 1, 1⟩) init
      (.connect :: refusals ClientRun.dialPauses) (givenUpAlone ⟨10, 10, 1, 1⟩ 3100 6) :=
    .cons (by rintro ⟨⟩) rfl hdial
  obtain ⟨s, hs, hlast⟩ : ∃ s, Runs (step ⟨10, 10, 1, 1⟩) (Prompt ⟨10, 10, 1, 1⟩) init
      refusedRun s ∧ ∃ c ∈ s.clients, c.attempts = 6 ∧ c.overAt = some 3100 ∧
        ∃ p, c.signal = some p ∧ p.putAt = some 3100 ∧ p.releasedAt = some 3101 :=
    ⟨_, hstart.append ⟨by decide +kernel, rfl⟩, _, List.mem_cons_self, rfl, rfl, _, rfl, rfl, rfl⟩
  exact ⟨unreached_given_up hs.1, s, hs.2, hlast⟩

end Refused

/-- The drain keeps to its deadline, and every task that it has cancelled is over when it is.
A task whose bridge had been set up when its cancel was sent is over when the drain time, its
undeclares and the budget of its signal are, so that it is aborted only if the undeclares and
the budget fill the margin of the drain. -/
theorem drain_aborts_slow_only {labels : List ClientsAction}
    (hprompt : Along (step cfg) (Prompt cfg) init labels) :
    Always (step cfg) (fun s => (∀ d, s.drain = some d → s.now ≤ d.deadline) ∧
      (∀ c ∈ s.clients, ∀ r, c.cancelled = some r → r.byDrain = true → s.drain = none →
        c.isOver = true) ∧
      ∀ c ∈ s.clients, ∀ r, c.cancelled = some r → r.connected = true →
        c.seen s.now ≤ r.sentAt + cfg.drainTimeout + c.closing s.now +
          ClientRun.signalBudget cfg ∧
        (c.stage = .aborted → drainMargin ≤ c.closing s.now + ClientRun.signalBudget cfg))
      init labels := by
  refine (timely_run hprompt).mono ?_
  rintro s ⟨hsound, htimely⟩
  refine ⟨htimely.deadline, ?_, ?_⟩
  · intro c hc r hr hdrain hidle
    obtain ⟨i, hi⟩ := List.mem_iff_getElem?.mp hc
    obtain hover | ⟨d, hd, -⟩ := hsound.drained i c r hi hr hdrain
    · exact hover
    · exact absurd (hidle.symm.trans hd) nofun
  · intro c hc r hr hconnected
    have hbounded := ((htimely.clients c hc).cancelled r hr).2 hconnected
    refine ⟨hbounded.whole, fun haborted => ?_⟩
    obtain ⟨r', at', hr', -, hover, hle⟩ := (hsound.recorded c hc).abort haborted
    obtain rfl := Option.some.inj (hr.symm.trans hr')
    have hwhole := hbounded.whole
    rw [ClientRun.seen, hover, Option.getD_some] at hwhole
    omega

/-- A relaying client is drained: its watchdog ends the relay, and the import side is told. -/
def drainedRun : List ClientsAction :=
  [.connect, .client 0 (.dial .succeed), .client 0 (.setupDone true), .drain [0],
    .client 0 .watcherTakes, .tick, .client 0 .watchdog, .client 0 .undeclared,
    .client 0 (.publish (.declared true)), .client 0 (.publish (.gate (.answer true))),
    .client 0 (.publish (.put true)), .client 0 .signalled, .client 0 .removeSelf, .awaited,
    .drained, .client 0 .tokenVanishes, .client 0 (.publish (.holder (.subscribed true))),
    .client 0 (.publish (.holder (.probed false))), .tick]

theorem drain_aborts_slow_only_drainedRun :
    Always (step ⟨10, 10, 1, 1⟩) (fun s => (∀ d, s.drain = some d → s.now ≤ d.deadline) ∧
      (∀ c ∈ s.clients, ∀ r, c.cancelled = some r → r.byDrain = true → s.drain = none →
        c.isOver = true) ∧
      ∀ c ∈ s.clients, ∀ r, c.cancelled = some r → r.connected = true →
        c.seen s.now ≤ r.sentAt + 1 + c.closing s.now +
          ClientRun.signalBudget ⟨10, 10, 1, 1⟩ ∧
        (c.stage = .aborted → drainMargin ≤ c.closing s.now +
          ClientRun.signalBudget ⟨10, 10, 1, 1⟩))
      init drainedRun ∧
    (exec (step ⟨10, 10, 1, 1⟩) init drainedRun).isSome = true :=
  ⟨drain_aborts_slow_only (by decide), by decide⟩

/-- What the import side is told of a client, in every run: there is a signal exactly for the
ends that call for one, and a task that is over is done with it. A signal was put after a
subscriber had matched or the availability time was up, and its publisher is held for the whole
cap unless the token is gone, could not be watched, or the subscriber was closed. -/
theorem signal_told (labels : List ClientsAction) :
    Always (step cfg) (fun s => ∀ c ∈ s.clients,
      c.signal.isSome = c.ending.any RunEnd.signals ∧
      (c.stage = .returned → c.ending ≠ none) ∧
      ∀ p, c.signal = some p → (c.isOver = true → p.running = false) ∧
        ∀ put, p.putAt = some put → p.Gated cfg.availabilityTimeout ∧
          ((p.releasedAt = none ∧ p.holder.capOf = some (put + Holder.errorHoldCap)) ∨
            ∃ why released, p.holder = .released why ∧ p.releasedAt = some released ∧
              SignalPublish.Justified c.tokenGone put released why)) init labels := by
  refine (sound_run labels).mono fun s hsound c hc => ?_
  have hclient := (hsound.recorded c hc).sound
  refine ⟨hclient.signals, fun hstage => ?_, fun p hp => ⟨fun hover => ?_, fun put hput => ?_⟩⟩
  · have hrecord := hclient.stage
    simp only [ClientRun.StageRecord, hstage] at hrecord
    exact hrecord.1
  · refine hclient.settled p hp fun hstage => ?_
    have hrecord := hclient.stage
    simp only [ClientRun.StageRecord, hstage] at hrecord
    rw [ClientRun.isOver, hrecord.2.2] at hover
    cases hover
  · exact (hclient.signal p hp).told hput

end Clients

end ZenohBridge
