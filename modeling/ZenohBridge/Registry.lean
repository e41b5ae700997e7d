import ZenohBridge.Foundation.Execution
import ZenohBridge.Foundation.BoundedChannel
import Mathlib.Data.List.AList

/-!
# The client registry of the export loop

The export loop keeps one map entry per client it serves. An entry holds the
sender of a one-slot cancel channel, whose receiver belongs to the task spawned
for that client. The loop spawns and cancels, each task removes its own entry when
it is done, and all of them share the map.

## Implementation notes

A task is identified by the position at which it was spawned, which stands for the
identity of its channel (`same_channel`). The lock makes the dedupe check together
with the spawn and the insert one step, and `remove_self` another one. A removal
and its cancel send are one step. Keys, spans and the backend dial itself are not
read by the registry and are left out.
-/

namespace ZenohBridge

open Execution

/-- Where `run_client` is. In the first three phases the task holds the receiver of
its cancel channel and acts on it: the dial races it, the setup leaves it alone,
the relay has a watcher on it. -/
inductive ClientPhase where
  | dialing
  | setup
  | relaying
  /-- The bridge is over; the error signal and `remove_self` are still to come. -/
  | finishing
  | returned
  /-- Aborted by the drain fallback, or panicked, before `remove_self`. -/
  | dead
  deriving DecidableEq, Repr

/-- The phases in which a cancel still has an effect on the task. -/
def ClientPhase.live : ClientPhase → Bool
  | .dialing | .setup | .relaying => true
  | _ => false

/-- One spawned `run_client`, with what happened to its cancel. -/
structure ClientTask (Id : Type) where
  client : Id
  phase : ClientPhase
  cancel : BoundedChannel Unit
  cancelSent : Bool
  cancelConsumed : Bool
  deriving DecidableEq

namespace ClientTask

variable {Id : Type}

/-- A freshly spawned task has an empty channel of one slot. -/
def spawn (id : Id) : ClientTask Id := ⟨id, .dialing, .new 1, false, false⟩

/-- `cancel_tx.send(())`: an error means that the receiver is gone and is ignored. -/
def sendCancel (t : ClientTask Id) : ClientTask Id :=
  { t with
    cancel := match t.cancel.trySend () with
      | .ok channel => channel
      | .error _ => t.cancel
    cancelSent := true }

/-- The task was neither sent its cancel nor has it executed `remove_self`. -/
def Outstanding (t : ClientTask Id) : Prop := t.cancelSent = false ∧ t.phase ≠ .returned

/-- The `cancel_rx.recv()` arm that races the dial. -/
def dialCancelled (t : ClientTask Id) : Option (ClientTask Id) :=
  if t.phase = .dialing then
    t.cancel.recv.map fun r =>
      { t with phase := .finishing, cancel := r.2, cancelConsumed := true }
  else none

/-- The dial wins the race. A failed dial keeps the receiver until the task returns. -/
def dialed (ok : Bool) (t : ClientTask Id) : Option (ClientTask Id) :=
  if t.phase = .dialing then some { t with phase := if ok then .setup else .finishing }
  else none

/-- The Zenoh setup of `handle_client_bridge`; its failure drops the receiver. -/
def setupDone (ok : Bool) (t : ClientTask Id) : Option (ClientTask Id) :=
  if t.phase = .setup then
    if ok then some { t with phase := .relaying }
    else some { t with phase := .finishing, cancel := t.cancel.close }
  else none

/-- The external-teardown watcher receives the cancel and trips the token. -/
def watcherTakes (t : ClientTask Id) : Option (ClientTask Id) :=
  if t.phase = .relaying then
    t.cancel.recv.map fun r => { t with cancel := r.2, cancelConsumed := true }
  else none

/-- Both directions joined: the watcher is aborted and with it the receiver. -/
def relayDone (t : ClientTask Id) : Option (ClientTask Id) :=
  if t.phase = .relaying then some { t with phase := .finishing, cancel := t.cancel.close }
  else none

/-- The task dies without reaching `remove_self`. -/
def die (t : ClientTask Id) : Option (ClientTask Id) :=
  if t.phase = .returned ∨ t.phase = .dead then none
  else some { t with phase := .dead, cancel := t.cancel.close }

end ClientTask

/-- A completion of one of the awaits of `run_client`. -/
inductive TaskEvent where
  | dialCancelled
  | dialed (ok : Bool)
  | setupDone (ok : Bool)
  | watcherTakes
  | relayDone
  | die
  deriving DecidableEq, Repr

/-- One step of a client task that does not touch the map. -/
def ClientTask.step {Id : Type} (t : ClientTask Id) : TaskEvent → Option (ClientTask Id)
  | .dialCancelled => t.dialCancelled
  | .dialed ok => t.dialed ok
  | .setupDone ok => t.setupDone ok
  | .watcherTakes => t.watcherTakes
  | .relayDone => t.relayDone
  | .die => t.die

/-- What the export loop is doing: standing by, replaying the existing clients,
following the liveliness stream, or stopped. -/
inductive LoopPhase where
  | standby
  | startup
  | live
  | stopped
  deriving DecidableEq, Repr

/-- The export loop, its map from client ids to tasks, and every task spawned. -/
structure Registry (Id : Type) where
  phase : LoopPhase
  map : AList fun _ : Id => Nat
  tasks : List (ClientTask Id)

/-- The steps of the export loop and of the tasks it spawned. -/
inductive RegistryAction (Id : Type) where
  /-- The exporter is elected and enters `serve_active`. -/
  | serve
  /-- A reply of the startup query. -/
  | queryReply (id : Id)
  | queryDone
  | put (id : Id)
  | delete (id : Id)
  | demoted
  | shutdown
  | task (k : Nat) (event : TaskEvent)
  | removeSelf (k : Nat)
  deriving DecidableEq, Repr

namespace Registry

variable {Id : Type} [DecidableEq Id]

/-- The export loop before its first election. -/
def init : Registry Id := ⟨.standby, ∅, []⟩

/-- `dispatch_client_connect`: a client already in the map is a re-delivery and is
skipped, any other one is spawned and inserted. -/
def dispatchClientConnect (id : Id) (s : Registry Id) : Registry Id :=
  if (s.map.lookup id).isSome then s
  else { s with
    map := s.map.insert id s.tasks.length
    tasks := s.tasks ++ [.spawn id] }

/-- `handle_client_disconnect`: take the entry out and send its cancel. -/
def handleClientDisconnect (id : Id) (s : Registry Id) : Registry Id :=
  match s.map.lookup id with
  | none => s
  | some k => { s with map := s.map.erase id, tasks := s.tasks.modify k .sendCancel }

/-- The task numbers stored in the map. -/
def entries (s : Registry Id) : List Nat := s.map.entries.map Sigma.snd

/-- `drain_all_clients`: empty the map and cancel every drained task. -/
def drainAllClients (s : Registry Id) : Registry Id :=
  { s with
    map := ∅
    tasks := s.entries.foldl (fun tasks k => tasks.modify k .sendCancel) s.tasks }

/-- `remove_if_current`: remove the entry of `id` only if it is the task `k`. -/
def removeIfCurrent (id : Id) (k : Nat) (map : AList fun _ : Id => Nat) :
    AList fun _ : Id => Nat :=
  if map.lookup id = some k then map.erase id else map

/-- `remove_self`, after which the task returns and drops what it still holds. -/
def removeSelf (k : Nat) (s : Registry Id) : Option (Registry Id) :=
  match s.tasks[k]? with
  | none => none
  | some t =>
      if t.phase = .finishing then
        some { s with
          map := removeIfCurrent t.client k s.map
          tasks := s.tasks.set k { t with phase := .returned, cancel := t.cancel.close } }
      else none

/-- One step of the export loop or of one of its tasks. -/
def step (s : Registry Id) : RegistryAction Id → Option (Registry Id)
  | .serve => if s.phase = .standby then some { s with phase := .startup } else none
  | .queryReply id => if s.phase = .startup then some (s.dispatchClientConnect id) else none
  | .queryDone => if s.phase = .startup then some { s with phase := .live } else none
  | .put id => if s.phase = .live then some (s.dispatchClientConnect id) else none
  | .delete id => if s.phase = .live then some (s.handleClientDisconnect id) else none
  | .demoted =>
      if s.phase = .live then some { s.drainAllClients with phase := .standby } else none
  | .shutdown =>
      if s.phase = .live then some { s.drainAllClients with phase := .stopped } else none
  | .task k event =>
      match s.tasks[k]? with
      | none => none
      | some t => (t.step event).map fun t' => { s with tasks := s.tasks.set k t' }
  | .removeSelf k => s.removeSelf k

/-- A stored number is that of an outstanding task of its client, and every
outstanding task is stored under its client. -/
def Current (s : Registry Id) : Prop :=
  ∀ id k, s.map.lookup id = some k ↔
    ∃ t, s.tasks[k]? = some t ∧ t.client = id ∧ t.Outstanding

/-- No client has two tasks that were neither cancelled nor removed by themselves. -/
def AtMostOne (s : Registry Id) : Prop :=
  ∀ (j k : Nat) (t u : ClientTask Id), s.tasks[j]? = some t → s.tasks[k]? = some u →
    t.client = u.client → t.Outstanding → u.Outstanding → j = k

/-- What `remove_self` of a task that is done does. -/
theorem removeSelf_inv {s s' : Registry Id} {k : Nat} (h : s.removeSelf k = some s') :
    ∃ t, s.tasks[k]? = some t ∧ t.phase = .finishing ∧ s' = { s with
      map := removeIfCurrent t.client k s.map
      tasks := s.tasks.set k { t with phase := .returned, cancel := t.cancel.close } } := by
  unfold removeSelf at h
  split at h
  · cases h
  · rename_i t ht
    split at h
    · rename_i hp
      exact ⟨t, ht, hp, (Option.some.inj h).symm⟩
    · cases h

/-- The branches of a step, each with its guard and its result. -/
inductive Branch (s : Registry Id) : RegistryAction Id → Registry Id → Prop
  | serve (standby : s.phase = .standby) : Branch s .serve { s with phase := .startup }
  | queryReply (id : Id) (startup : s.phase = .startup) :
      Branch s (.queryReply id) (s.dispatchClientConnect id)
  | queryDone (startup : s.phase = .startup) : Branch s .queryDone { s with phase := .live }
  | put (id : Id) (live : s.phase = .live) : Branch s (.put id) (s.dispatchClientConnect id)
  | delete (id : Id) (live : s.phase = .live) :
      Branch s (.delete id) (s.handleClientDisconnect id)
  | demoted (live : s.phase = .live) :
      Branch s .demoted { s.drainAllClients with phase := .standby }
  | shutdown (live : s.phase = .live) :
      Branch s .shutdown { s.drainAllClients with phase := .stopped }
  | task (k : Nat) (event : TaskEvent) (t t' : ClientTask Id) (found : s.tasks[k]? = some t)
      (moved : t.step event = some t') :
      Branch s (.task k event) { s with tasks := s.tasks.set k t' }
  | removeSelf (k : Nat) (t : ClientTask Id) (found : s.tasks[k]? = some t)
      (finishing : t.phase = .finishing) :
      Branch s (.removeSelf k) { s with
        map := removeIfCurrent t.client k s.map
        tasks := s.tasks.set k { t with phase := .returned, cancel := t.cancel.close } }

/-- Every step takes one of its branches. -/
theorem step_branch {s s' : Registry Id} {a : RegistryAction Id} (h : s.step a = some s') :
    Branch s a s' := by
  cases a with
  | serve =>
      simp only [step, Option.ite_none_right_eq_some, Option.some.injEq] at h
      exact h.2 ▸ .serve h.1
  | queryReply id =>
      simp only [step, Option.ite_none_right_eq_some, Option.some.injEq] at h
      exact h.2 ▸ .queryReply id h.1
  | queryDone =>
      simp only [step, Option.ite_none_right_eq_some, Option.some.injEq] at h
      exact h.2 ▸ .queryDone h.1
  | put id =>
      simp only [step, Option.ite_none_right_eq_some, Option.some.injEq] at h
      exact h.2 ▸ .put id h.1
  | delete id =>
      simp only [step, Option.ite_none_right_eq_some, Option.some.injEq] at h
      exact h.2 ▸ .delete id h.1
  | demoted =>
      simp only [step, Option.ite_none_right_eq_some, Option.some.injEq] at h
      exact h.2 ▸ .demoted h.1
  | shutdown =>
      simp only [step, Option.ite_none_right_eq_some, Option.some.injEq] at h
      exact h.2 ▸ .shutdown h.1
  | task k event =>
      simp only [step] at h
      split at h
      · cases h
      · rename_i t ht
        obtain ⟨t', hmoved, rfl⟩ := Option.map_eq_some_iff.mp h
        exact .task k event t t' ht hmoved
  | removeSelf k =>
      obtain ⟨t, ht, hphase, rfl⟩ := removeSelf_inv h
      exact .removeSelf k t ht hphase

end Registry

namespace ClientTask

variable {Id : Type}

/-- The cancel of a task that can still act on it waits in the channel or was
consumed by the dial or by the watcher; before it is sent the channel is empty. -/
structure CancelKept (t : ClientTask Id) : Prop where
  slot : t.cancel.capacity = 1
  opened : t.phase.live = true → t.cancel.closed = false
  kept : t.phase.live = true → t.cancelSent = true →
    t.cancelConsumed = true ∨ t.cancel.queue ≠ []
  unsent : t.cancelSent = false → t.cancel.queue = []

variable {t t' : ClientTask Id} {event : TaskEvent}

theorem spawn_cancelKept (id : Id) : (spawn id).CancelKept where
  slot := rfl
  opened := fun _ => rfl
  kept := fun _ h => Bool.noConfusion h
  unsent := fun _ => rfl

/-- Once a task can no longer act on its cancel, only the slot matters. -/
theorem CancelKept.of_over (hover : t.phase.live = false) (slot : t.cancel.capacity = 1)
    (unsent : t.cancelSent = false → t.cancel.queue = []) : t.CancelKept where
  slot := slot
  opened := fun hl => by rw [hover] at hl; cases hl
  kept := fun hl => by rw [hover] at hl; cases hl
  unsent := unsent

@[simp] theorem sendCancel_client (t : ClientTask Id) : t.sendCancel.client = t.client := rfl

@[simp] theorem sendCancel_sent (t : ClientTask Id) : t.sendCancel.cancelSent = true := rfl

/-- Sending the cancel leaves it in the channel of a task that holds the receiver. -/
theorem CancelKept.sendCancel (h : t.CancelKept) : t.sendCancel.CancelKept := by
  have hsent : ¬ t.sendCancel.cancelSent = false := by simp
  cases hc : t.cancel.trySend () with
  | ok channel =>
      obtain ⟨hq, hcap, hclosed, hopen, -⟩ := BoundedChannel.trySend_ok hc
      have hcancel : t.sendCancel.cancel = channel := by simp only [ClientTask.sendCancel, hc]
      refine ⟨?_, ?_, ?_, fun hf => absurd hf hsent⟩
      · rw [hcancel, hcap, h.slot]
      · intro _
        rw [hcancel, hclosed, hopen]
      · intro _ _
        rw [hcancel, hq]
        exact Or.inr (by simp)
  | error e =>
      have hcancel : t.sendCancel.cancel = t.cancel := by simp only [ClientTask.sendCancel, hc]
      refine ⟨?_, ?_, ?_, fun hf => absurd hf hsent⟩
      · rw [hcancel, h.slot]
      · rw [hcancel]
        exact h.opened
      · intro hlive _
        rw [hcancel]
        cases e with
        | closed =>
            have := BoundedChannel.trySend_closed hc
            rw [h.opened hlive] at this
            cases this
        | full =>
            have hlen := (BoundedChannel.trySend_full hc).2
            rw [h.slot] at hlen
            exact Or.inr (List.ne_nil_of_length_pos (by omega))

/-- The branches of a step, each with its guard and its result. -/
inductive Branch (t : ClientTask Id) : TaskEvent → ClientTask Id → Prop
  | dialCancelled (channel : BoundedChannel Unit) (dialing : t.phase = .dialing)
      (taken : t.cancel.recv = some ((), channel)) :
      Branch t .dialCancelled { t with
        phase := .finishing, cancel := channel, cancelConsumed := true }
  | dialed (ok : Bool) (dialing : t.phase = .dialing) :
      Branch t (.dialed ok) { t with phase := if ok then .setup else .finishing }
  | setupDone (setup : t.phase = .setup) :
      Branch t (.setupDone true) { t with phase := .relaying }
  | setupFailed (setup : t.phase = .setup) :
      Branch t (.setupDone false) { t with phase := .finishing, cancel := t.cancel.close }
  | watcherTakes (channel : BoundedChannel Unit) (relaying : t.phase = .relaying)
      (taken : t.cancel.recv = some ((), channel)) :
      Branch t .watcherTakes { t with cancel := channel, cancelConsumed := true }
  | relayDone (relaying : t.phase = .relaying) :
      Branch t .relayDone { t with phase := .finishing, cancel := t.cancel.close }
  | die (running : ¬ (t.phase = .returned ∨ t.phase = .dead)) :
      Branch t .die { t with phase := .dead, cancel := t.cancel.close }

/-- Every step of a task takes one of its branches. -/
theorem step_branch (h : t.step event = some t') : Branch t event t' := by
  cases event with
  | dialCancelled =>
      simp only [step, dialCancelled, Option.ite_none_right_eq_some] at h
      obtain ⟨hdialing, h⟩ := h
      obtain ⟨⟨_, channel⟩, htaken, rfl⟩ := Option.map_eq_some_iff.mp h
      exact .dialCancelled channel hdialing htaken
  | dialed ok =>
      simp only [step, dialed, Option.ite_none_right_eq_some, Option.some.injEq] at h
      exact h.2 ▸ .dialed ok h.1
  | setupDone ok =>
      simp only [step, setupDone, Option.ite_none_right_eq_some] at h
      obtain ⟨hsetup, h⟩ := h
      cases ok <;> cases h
      · exact .setupFailed hsetup
      · exact .setupDone hsetup
  | watcherTakes =>
      simp only [step, watcherTakes, Option.ite_none_right_eq_some] at h
      obtain ⟨hrelaying, h⟩ := h
      obtain ⟨⟨_, channel⟩, htaken, rfl⟩ := Option.map_eq_some_iff.mp h
      exact .watcherTakes channel hrelaying htaken
  | relayDone =>
      simp only [step, relayDone, Option.ite_none_right_eq_some, Option.some.injEq] at h
      exact h.2 ▸ .relayDone h.1
  | die =>
      simp only [step, die, Option.ite_none_left_eq_some, Option.some.injEq] at h
      exact h.2 ▸ .die h.1

/-- A step of a task keeps the client, the record of the cancel send, and the fact
that the task has not returned. -/
theorem step_frame (h : t.step event = some t') :
    t'.client = t.client ∧ t'.cancelSent = t.cancelSent ∧
      t.phase ≠ .returned ∧ t'.phase ≠ .returned := by
  cases step_branch h with
  | dialCancelled channel before taken => exact ⟨rfl, rfl, by rw [before]; decide, by simp⟩
  | dialed ok before => exact ⟨rfl, rfl, by rw [before]; decide, by cases ok <;> simp⟩
  | watcherTakes channel before taken =>
      exact ⟨rfl, rfl, by rw [before]; decide, by simp [before]⟩
  | setupDone before | setupFailed before | relayDone before =>
      exact ⟨rfl, rfl, by rw [before]; decide, by simp⟩
  | die running => exact ⟨rfl, rfl, fun hr => running (Or.inl hr), by simp⟩

/-- A cancel that is taken out of the channel was sent. -/
theorem CancelKept.sent_of_recv (h : t.CancelKept) {channel : BoundedChannel Unit}
    (taken : t.cancel.recv = some ((), channel)) : t.cancelSent ≠ false := by
  intro hunsent
  have hempty := h.unsent hunsent
  rw [(BoundedChannel.recv_some taken).1] at hempty
  cases hempty

theorem CancelKept.step (h : t.CancelKept) (hs : t.step event = some t') : t'.CancelKept := by
  cases step_branch hs with
  | dialCancelled channel dialing taken =>
      obtain ⟨-, hcap, -⟩ := BoundedChannel.recv_some taken
      exact .of_over rfl (hcap.trans h.slot) fun hf => absurd hf (h.sent_of_recv taken)
  | watcherTakes channel relaying taken =>
      have hlive : t.phase.live = true := by rw [relaying]; rfl
      obtain ⟨-, hcap, hclosed⟩ := BoundedChannel.recv_some taken
      exact ⟨hcap.trans h.slot, fun _ => hclosed.trans (h.opened hlive), fun _ _ => Or.inl rfl,
        fun hf => absurd hf (h.sent_of_recv taken)⟩
  | dialed ok before =>
      have hlive : t.phase.live = true := by rw [before]; rfl
      exact ⟨h.slot, fun _ => h.opened hlive, fun _ => h.kept hlive, h.unsent⟩
  | setupDone before =>
      have hlive : t.phase.live = true := by rw [before]; rfl
      exact ⟨h.slot, fun _ => h.opened hlive, fun _ => h.kept hlive, h.unsent⟩
  | setupFailed | relayDone | die => exact .of_over rfl h.slot fun _ => rfl

/-- A pending cancel leaves the channel only into the dial or into the watcher, or
together with the receiver of a task whose dial, setup or relay is over. -/
theorem step_pending (hs : t.step event = some t') (hq : t.cancel.queue ≠ []) :
    t'.cancel.queue ≠ [] ∨ event = .dialCancelled ∨ event = .watcherTakes ∨
      t'.cancel.closed = true ∧ t'.phase.live = false := by
  cases step_branch hs with
  | dialCancelled => exact Or.inr (Or.inl rfl)
  | watcherTakes => exact Or.inr (Or.inr (Or.inl rfl))
  | dialed | setupDone => exact Or.inl hq
  | setupFailed | relayDone | die => exact Or.inr (Or.inr (Or.inr ⟨rfl, rfl⟩))

/-- Sending never empties the channel. -/
theorem sendCancel_pending (hq : t.cancel.queue ≠ []) : t.sendCancel.cancel.queue ≠ [] := by
  cases hc : t.cancel.trySend () with
  | ok channel =>
      have hcancel : t.sendCancel.cancel = channel := by simp only [sendCancel, hc]
      rw [hcancel, (BoundedChannel.trySend_ok hc).1]
      simp
  | error e =>
      have hcancel : t.sendCancel.cancel = t.cancel := by simp only [sendCancel, hc]
      rw [hcancel]
      exact hq

end ClientTask

end ZenohBridge
