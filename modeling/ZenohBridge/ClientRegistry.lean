import ZenohBridge.ClientDrain
import ZenohBridge.ErrorSignal

/-!
# The tasks in time, the registry and the error signal

The registry knows the tasks of an exporter by their phases and their cancels, and keeps the
map. Every run of the tasks in time is a run of the registry. A step of time, of a dial or of
the publication of a signal is none of it, and a drain is a demotion after which the exporter
serves again. The export side of the error signal is a view of one task in the same way.
-/

namespace ZenohBridge

open Execution

/-- A list whose entries are modified one after the other. -/
theorem getElem?_foldl_modify {α : Type*} {f : α → α} {ks : List Nat} (hnodup : ks.Nodup)
    (l : List α) (k : Nat) : (ks.foldl (fun l k => l.modify k f) l)[k]? =
      l[k]?.map fun x => if k ∈ ks then f x else x := by
  induction ks generalizing l with
  | nil => simp
  | cons j rest ih =>
      obtain ⟨hj, hrest⟩ := List.nodup_cons.mp hnodup
      rw [List.foldl_cons, ih hrest, List.getElem?_modify]
      by_cases hjk : j = k
      · subst hjk
        simp [hj, Function.comp_def]
      · simp [hjk, Ne.symm hjk]

namespace Registry

variable {Id : Type} [DecidableEq Id] {r : Registry Id}

/-- A number is stored under one client only. -/
theorem Current.nodup_entries (h : r.Current) : r.entries.Nodup := by
  refine List.Nodup.map_on ?_ (List.NodupKeys.nodup r.map.nodupKeys)
  rintro ⟨id, k⟩ hid ⟨id', k'⟩ hid' heq
  obtain rfl : k = k' := heq
  obtain ⟨t, ht, rfl, -⟩ := (h id k).mp (AList.mem_lookup_iff.mpr hid)
  obtain ⟨u, hu, rfl, -⟩ := (h id' k).mp (AList.mem_lookup_iff.mpr hid')
  obtain rfl := Option.some.inj (ht.symm.trans hu)
  rfl

/-- The map stores exactly the outstanding tasks. -/
theorem Current.mem_entries_iff (h : r.Current) {k : Nat} :
    k ∈ r.entries ↔ ∃ t, r.tasks[k]? = some t ∧ t.Outstanding := by
  constructor
  · intro hk
    obtain ⟨⟨id, k'⟩, hid, rfl⟩ := List.mem_map.mp hk
    obtain ⟨t, ht, -, hout⟩ := (h id k').mp (AList.mem_lookup_iff.mpr hid)
    exact ⟨t, ht, hout⟩
  · rintro ⟨t, ht, hout⟩
    exact mem_entries ((h t.client k).mpr ⟨t, ht, rfl, hout⟩)

end Registry

namespace Clients

variable {cfg : ClientConfig} {s s' : Clients} {r : Registry Nat} {a : ClientsAction}

/-- The registry serves exactly these tasks. -/
structure Refines (s : Clients) (r : Registry Nat) : Prop where
  live : r.phase = .live
  safe : r.Safe
  tasks : r.tasks = s.clients.map ClientRun.task

theorem Refines.getElem? (h : Refines s r) {i : Nat} {c : ClientRun}
    (hfound : s.clients[i]? = some c) : r.tasks[i]? = some c.task := by
  rw [h.tasks, List.getElem?_map, hfound, Option.map_some]

theorem outstanding_task {c : ClientRun} : c.task.Outstanding ↔ c.outstanding = true := by
  have hphase : c.stage.phase = .returned ↔ c.stage = .returned := by
    cases c.stage <;> simp [RunStage.phase]
  simp only [ClientTask.Outstanding, ClientRun.task, ClientRun.outstanding, Bool.and_eq_true,
    Option.isNone_iff_eq_none, decide_eq_true_eq, ne_eq, hphase, Option.isSome_eq_false_iff]

/-- The map of the registry holds exactly the clients whose entry has not been taken out. -/
theorem Refines.lookup_iff (h : Refines s r) (hsound : Sound cfg s) {id k : Nat} :
    r.map.lookup id = some k ↔
      id = k ∧ ∃ c, s.clients[k]? = some c ∧ c.outstanding = true := by
  rw [h.safe.current id k, h.tasks, List.getElem?_map]
  constructor
  · rintro ⟨t, ht, rfl, hout⟩
    obtain ⟨c, hc, rfl⟩ := Option.map_eq_some_iff.mp ht
    exact ⟨hsound.ids k c hc, c, hc, outstanding_task.mp hout⟩
  · rintro ⟨rfl, c, hc, hentry⟩
    refine ⟨c.task, ?_, hsound.ids id c hc, outstanding_task.mpr hentry⟩
    rw [hc, Option.map_some]

/-- The moves of the registry behind a step: what they lead to is safe again. -/
theorem Refines.of_exec (h : Refines s r) (moves : List (RegistryAction Nat)) {r' : Registry Nat}
    (run : exec Registry.step r moves = some r') (hlive : r'.phase = .live)
    (htasks : r'.tasks = s'.clients.map ClientRun.task) :
    ∃ moves r', exec Registry.step r moves = some r' ∧ Refines s' r' :=
  ⟨moves, r', run, hlive, exec_invariant (fun _ _ _ hi hs => hi.step hs) h.safe run, htasks⟩

theorem Refines.of_step {move : RegistryAction Nat} {r' : Registry Nat} (h : Refines s r)
    (hmove : r.step move = some r') (hlive : r'.phase = .live)
    (htasks : r'.tasks = s'.clients.map ClientRun.task) :
    ∃ moves r', exec Registry.step r moves = some r' ∧ Refines s' r' :=
  h.of_exec [move] (by rw [exec, hmove, Option.bind_some, exec_nil]) hlive htasks

/-- A step of one task that the registry sees as one of its own. -/
theorem Refines.task {i : Nat} {c c' : ClientRun} {event : TaskEvent} (h : Refines s r)
    (hfound : s.clients[i]? = some c) (hclients : s'.clients = s.clients.set i c')
    (hstep : c.task.step event = some c'.task) :
    ∃ moves r', exec Registry.step r moves = some r' ∧ Refines s' r' := by
  have hmove : r.step (.task i event) = some { r with tasks := r.tasks.set i c'.task } := by
    simp only [Registry.step, h.getElem? hfound, hstep, Option.map_some]
  refine h.of_step hmove h.live ?_
  rw [hclients, h.tasks, List.map_set]

theorem Refines.client {i : Nat} {c c' : ClientRun} {ra : RunAction} (h : Refines s r)
    (hfound : s.clients[i]? = some c) (hm : ClientRun.Moved cfg s.now c ra c') :
    ∃ moves r', exec Registry.step r moves = some r' ∧
      Refines { s with clients := s.clients.set i c' } r' := by
  have htask := h.getElem? hfound
  obtain heq | ⟨event, hstep⟩ | ⟨hphase, heq⟩ := ClientRun.task_moved hm
  · refine h.of_exec [] (exec_nil r) h.live ?_
    rw [List.map_set, heq, ← h.tasks]
    refine (List.ext_getElem? fun j => ?_).symm
    by_cases hij : i = j
    · subst hij
      rw [List.getElem?_set_self', htask]
      rfl
    · rw [List.getElem?_set_ne hij]
  · exact h.task hfound rfl hstep
  · have hmove : r.step (.removeSelf i) = some { r with
        map := Registry.removeIfCurrent c.task.client i r.map
        tasks := r.tasks.set i c'.task } := by
      simp only [Registry.step, Registry.removeSelf, htask, hphase, if_true, heq]
    refine h.of_step hmove h.live ?_
    rw [h.tasks, List.map_set]

theorem Refines.connected (h : Refines s r) (hsound : Sound cfg s) :
    ∃ moves r', exec Registry.step r moves = some r' ∧
      Refines { s with clients := s.clients ++ [.start s.clients.length s.now] } r' := by
  have hfresh : r.map.lookup s.clients.length = none := by
    rw [Option.eq_none_iff_forall_ne_some]
    intro k hk
    obtain ⟨rfl, c, hc, -⟩ := (h.lookup_iff hsound).mp hk
    rw [List.getElem?_eq_none (Nat.le_refl _)] at hc
    cases hc
  have hlength : r.tasks.length = s.clients.length := by rw [h.tasks, List.length_map]
  have hmove : r.step (.put s.clients.length) = some { r with
      map := r.map.insert s.clients.length s.clients.length
      tasks := r.tasks ++ [.spawn s.clients.length] } := by
    simp [Registry.step, h.live, Registry.dispatchClientConnect, hfresh, hlength]
  refine h.of_step hmove h.live ?_
  rw [h.tasks, List.map_append]
  rfl

theorem Refines.disconnected {i : Nat} {c : ClientRun} (h : Refines s r) (hsound : Sound cfg s)
    (hfound : s.clients[i]? = some c) (hentry : c.outstanding = true) :
    ∃ moves r', exec Registry.step r moves = some r' ∧
      Refines { s with clients := s.clients.set i (c.sendCancel s.now false) } r' := by
  have hlookup : r.map.lookup i = some i := (h.lookup_iff hsound).mpr ⟨rfl, c, hfound, hentry⟩
  have hmove : r.step (.delete i) = some { r with
      map := r.map.erase i
      tasks := r.tasks.modify i .sendCancel } := by
    simp [Registry.step, h.live, Registry.handleClientDisconnect, hlookup]
  refine h.of_step hmove h.live ?_
  refine List.ext_getElem? fun j => ?_
  rw [List.map_set, List.getElem?_modify, ← h.tasks, ClientRun.task_sendCancel]
  by_cases hij : i = j
  · subst hij
    rw [List.getElem?_set_self', h.getElem? hfound]
    simp
  · rw [List.getElem?_set_ne hij]
    simp [hij]

/-- A drain is a demotion, after which the exporter serves again. -/
theorem Refines.drainBegun {entries : List Nat} (h : Refines s r) :
    ∃ moves r', exec Registry.step r moves = some r' ∧ Refines { s with
      clients := s.clients.map (ClientRun.drainCancel s.now)
      drain := some ⟨s.now + cfg.drainTimeout + drainMargin, entries⟩ } r' := by
  have run : exec Registry.step r [.demoted, .serve, .queryDone] =
      some { r.drainAllClients with phase := .live } := by
    simp [exec, Registry.step, h.live]
  refine h.of_exec _ run rfl ?_
  refine List.ext_getElem? fun k => ?_
  simp only [Registry.drainAllClients]
  rw [getElem?_foldl_modify h.safe.current.nodup_entries, List.map_map, List.getElem?_map]
  cases hfound : s.clients[k]? with
  | none =>
      rw [h.tasks, List.getElem?_map, hfound, Option.map_none, Option.map_none, Option.map_none]
  | some c =>
      rw [h.getElem? hfound, Option.map_some, Option.map_some, Function.comp_apply,
        ClientRun.drainCancel]
      have hmem : k ∈ r.entries ↔ c.outstanding = true := by
        rw [h.safe.current.mem_entries_iff, h.getElem? hfound]
        simp [outstanding_task]
      by_cases hentry : c.outstanding = true
      · rw [if_pos (hmem.mpr hentry), if_pos hentry, ClientRun.task_sendCancel]
      · rw [if_neg (mt hmem.mp hentry), if_neg hentry]

theorem Refines.moved (h : Refines s r) (hsound : Sound cfg s) (hm : Moved cfg s a s') :
    ∃ moves r', exec Registry.step r moves = some r' ∧ Refines s' r' := by
  cases hm with
  | connected => exact h.connected hsound
  | disconnected i c hfound _ hentry => exact h.disconnected hsound hfound hentry
  | drainBegun => exact h.drainBegun
  | awaited | drainEnded | ticked => exact h.of_exec [] (exec_nil r) h.live h.tasks
  | aborted deadline i rest c hdrain hfound hrunning _ =>
      have hover : c.overAt = none := by simpa [ClientRun.isOver] using hrunning
      have hrecorded := hsound.recorded c (List.mem_of_getElem? hfound)
      exact h.task hfound rfl (ClientRun.task_abort hrecorded.sound hover)
  | client i ra c c' hfound hmoved => exact h.client hfound hmoved

/-- Every run of the tasks in time is a run of the registry. Its map holds exactly the clients
whose task was neither cancelled nor has removed itself, each under its own number. -/
theorem refines_registry (labels : List ClientsAction) :
    Always (step cfg) (fun s => ∃ moves r, exec Registry.step .init moves = some r ∧
      r.tasks = s.clients.map ClientRun.task ∧
      ∀ id k, r.map.lookup id = some k ↔
        id = k ∧ ∃ c, s.clients[k]? = some c ∧ c.outstanding = true) init labels := by
  suffices h : Always (step cfg) (fun s => Sound cfg s ∧
      ∃ moves r, exec Registry.step .init moves = some r ∧ Refines s r) init labels by
    refine h.mono ?_
    rintro s ⟨hsound, moves, r, hrun, hrefines⟩
    exact ⟨moves, r, hrun, hrefines.tasks, fun id k => hrefines.lookup_iff hsound⟩
  refine always_of_step ?_ ⟨sound_init cfg, ?_⟩ labels
  · rintro s a s' ⟨hsound, moves, r, hrun, hrefines⟩ hs
    have hmoved := moved_of_step hs
    obtain ⟨more, r', hmore, hrefines'⟩ := hrefines.moved hsound hmoved
    refine ⟨hsound.moved hmoved, moves ++ more, r', ?_, hrefines'⟩
    rw [exec_append, hrun, Option.bind_some, hmore]
  · have hrun : exec Registry.step .init [.serve, .queryDone] =
        some (⟨.live, ∅, []⟩ : Registry Nat) := rfl
    exact ⟨_, _, hrun, rfl, exec_invariant (fun _ _ _ hi hs => hi.step hs) Registry.safe_init hrun,
      rfl⟩

end Clients

namespace ClientRun

variable {P : HttpProxyParser Octet} {cfg : ClientConfig} {now : Nat} {c c' : ClientRun}
  {a : RunAction}

/-- The task as the model of the error signal sees it. -/
def runClient (c : ClientRun) : RunClient :=
  match c.stage with
  | .dialing _ => .dialing
  | .settingUp _ | .relaying _ | .undeclaring _ => .bridging
  | .signalling => .signalling
  | .leaving | .returned | .aborted => .ended

/-- A step of the task is nothing to the error signal, or a step of its export side. -/
theorem runClient_moved (hm : Moved cfg now c a c') {scfg : SignalConfig P} {sys : SignalSystem P}
    (hview : sys.client = c.runClient) :
    c'.runClient = c.runClient ∨
      ∃ b sys', sys.stepExport scfg b = some sys' ∧ sys'.client = c'.runClient := by
  cases hm with
  | dialed ra dial dial' hstage hdial =>
      rw [runClient, hstage] at hview
      cases dial' with
      | trying | pausing =>
          left
          simp only [ClientRun.dialed, runClient, hstage]
      | succeeded =>
          exact .inr ⟨.dialed true, _, by rw [SignalSystem.stepExport, if_pos hview], rfl⟩
      | failed =>
          exact .inr ⟨.dialed false, _, by rw [SignalSystem.stepExport, if_pos hview], rfl⟩
  | dialCancelled dial channel hstage _ =>
      rw [runClient, hstage] at hview
      exact .inr ⟨.dialCancelled, _, by rw [SignalSystem.stepExport, if_pos hview], rfl⟩
  | setupFailed expires hstage =>
      rw [runClient, hstage] at hview
      exact .inr ⟨.bridged false, _, by rw [SignalSystem.stepExport, if_pos hview], rfl⟩
  | undeclared clean hstage =>
      rw [runClient, hstage] at hview
      refine .inr ⟨.bridged clean, _, by rw [SignalSystem.stepExport, if_pos hview], ?_⟩
      cases clean <;> rfl
  | signalled s _ hstage _ =>
      rw [runClient, hstage] at hview
      exact .inr ⟨.signal s.putAt.isSome, _, by rw [SignalSystem.stepExport, if_pos hview], rfl⟩
  | setUp expires hstage | left hstage =>
      left
      simp only [runClient, hstage]
  | watcherTook abortAt channel hstage _ | tripped abortAt hstage =>
      left
      simp only [trip, runClient, hstage]
  | joined _ abortAt clean hstage _ =>
      left
      simp only [join, runClient, hstage]
  | published | vanished => exact .inl rfl

end ClientRun

end ZenohBridge
