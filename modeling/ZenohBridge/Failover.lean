import ZenohBridge.Election
import ZenohBridge.RegistrySafety

/-!
# Active and standby exporters

`run_export_loop` of every exporter of a scope stands by until its claim is the smallest of its
view, and then serves: it subscribes to the client tokens, queries the ones that exist, and
follows the stream. A claim event after which it is no longer the smallest demotes it. It stops
following the stream, undeclares its subscriber and only then drains its registry; until the
drain has the lock of the map, the clients of a demoted exporter are still served.

Here the loops of all exporters run side by side, each with its registry, against one election
and one set of client tokens. Two exporters serve at a time only while the claim of the older
one is on its way to the younger one, or while the younger one is being demoted. Once the claims
have arrived exactly one exporter holds the role, and when it has taken the events of the clients
its registry holds the clients that are there.

## Implementation notes

A step ends where the loop awaits something: the claim event and the check of the role are one
step, the end of `undeclare`, the drain with the lock held and the end of the drain's wait for
the tasks are further ones. How long that wait lasts is not part of this model.

The session delivers as in `Election`: what an observer misses before it subscribes comes with
the history, and the events of one claim reach an observer in order and are not lost. So a
partition of the network is left out, and with it the case that a claim subscriber dies, where
the loop falls back to serving. The events of one client token reach a subscriber in order, those
of different tokens in any order. The query yields every token that is there when it is sent. The
end of a loop, by return or by crash, takes its claim and its tasks with it.
-/

namespace ZenohBridge

open Execution

/-- How far the phase of serving is with the client tokens. -/
inductive WatchStage where
  | unsubscribed
  | subscribed
  | queried
  deriving DecidableEq, Repr

/-- Where an export loop stands. -/
inductive ExportStage where
  /-- Standing by; the role is checked next. -/
  | checking
  /-- Standing by with the role checked; a claim event is awaited. -/
  | waiting
  | serving
  /-- Demoted; `undeclare` of the liveliness subscriber is awaited. -/
  | undeclaring
  /-- Demoted; the lock of the map is awaited. -/
  | draining
  /-- Demoted; the map is empty and the tasks that were in it are awaited. -/
  | drained
  /-- Shut down; the lock of the map is awaited. -/
  | leaving
  /-- Shut down; the map is empty. -/
  | left
  deriving DecidableEq, Repr

/-- The phase in which the registry is while its loop stands there. -/
def ExportStage.Fits : ExportStage → LoopPhase → Prop
  | .checking, phase | .waiting, phase | .drained, phase => phase = .standby
  | .serving, phase => phase = .startup ∨ phase = .live
  | .undeclaring, phase | .draining, phase | .leaving, phase => phase = .live
  | .left, phase => phase = .stopped

/-- What an exporter knows of its election while its loop stands there. -/
def ExportStage.Role (elected : Prop) : ExportStage → Prop
  | .serving | .leaving => elected
  | .waiting | .undeclaring | .draining | .drained => ¬elected
  | .checking | .left => True

/-- The export loop of one exporter and what is on its way to it. -/
structure ExportLoop (Id : Type) where
  registry : Registry Id
  stage : ExportStage
  /-- The shutdown token is cancelled. -/
  stopping : Bool
  watch : WatchStage
  /-- Clients that the query found and that were not dispatched yet. -/
  replies : Finset Id
  /-- Events of each client token that the subscriber has not taken yet. -/
  events : Id → List SampleKind
  /-- Clients whose task has removed its entry since the phase of serving began. History. -/
  ended : List Id

/-- What an export loop and its tasks do by themselves. -/
inductive ExportAction (Id : Type) where
  | subscribe
  | query
  | reply (id : Id)
  | queryDone
  /-- The next event of a client token is taken. -/
  | take (id : Id)
  | stop
  /-- The arm of the shutdown token. -/
  | shutdown
  | undeclare
  | drain
  /-- The tasks of a drain have ended, or its deadline has passed. -/
  | awaited
  | task (k : Nat) (event : TaskEvent)
  | removeSelf (k : Nat)
  deriving DecidableEq, Repr

namespace ExportLoop

variable {Id : Type} [DecidableEq Id]

def init : ExportLoop Id :=
  ⟨.init, .checking, false, .unsubscribed, ∅, fun _ => [], []⟩

/-- The liveliness subscriber is dropped and with it what it has not taken. -/
def unwatch (l : ExportLoop Id) : ExportLoop Id :=
  { l with watch := .unsubscribed, replies := ∅, events := fun _ => [] }

/-- The call of the registry for an event of a client token. -/
def onEvent (id : Id) : SampleKind → RegistryAction Id
  | .put => .put id
  | .delete => .delete id

/-- The client whose entry the task removes. -/
def entryOf (r : Registry Id) (k : Nat) : Option Id :=
  r.tasks[k]?.bind fun t => if r.map.lookup t.client = some k then some t.client else none

/-- One step of an export loop while the given clients are there. -/
def step (clients : Finset Id) (l : ExportLoop Id) : ExportAction Id → Option (ExportLoop Id)
  | .subscribe =>
      if l.registry.phase = .startup ∧ l.watch = .unsubscribed then
        some { l with watch := .subscribed }
      else none
  | .query =>
      if l.registry.phase = .startup ∧ l.watch = .subscribed then
        some { l with watch := .queried, replies := clients }
      else none
  | .reply id =>
      if l.watch = .queried ∧ id ∈ l.replies then
        (l.registry.step (.queryReply id)).map fun r =>
          { l with registry := r, replies := l.replies.erase id }
      else none
  | .queryDone =>
      -- a shutdown does not wait for the rest of the query
      if l.watch = .queried ∧ (l.replies = ∅ ∨ l.stopping = true) then
        (l.registry.step .queryDone).map fun r => { l with registry := r, replies := ∅ }
      else none
  | .take id =>
      match l.events id with
      | [] => none
      | kind :: rest =>
          if l.stage = .serving then
            (l.registry.step (onEvent id kind)).map fun r =>
              { l with registry := r, events := Function.update l.events id rest }
          else none
  | .stop => some { l with stopping := true }
  | .shutdown =>
      if l.stage = .serving ∧ l.registry.phase = .live ∧ l.stopping = true then
        some { l with stage := .leaving }
      else none
  | .undeclare =>
      match l.stage with
      | .undeclaring => some { l.unwatch with stage := .draining }
      | .left => some l.unwatch
      | _ => none
  | .drain =>
      match l.stage with
      | .draining => (l.registry.step .demoted).map fun r =>
          { l with registry := r, stage := .drained }
      | .leaving => (l.registry.step .shutdown).map fun r =>
          { l with registry := r, stage := .left }
      | _ => none
  | .awaited => if l.stage = .drained then some { l with stage := .checking } else none
  | .task k event => (l.registry.step (.task k event)).map fun r => { l with registry := r }
  | .removeSelf k => (l.registry.step (.removeSelf k)).map fun r =>
      { l with registry := r, ended := (entryOf l.registry k).toList ++ l.ended }

/-- An event of a client token starts its way to the subscriber, if there is one. -/
def announce (id : Id) (kind : SampleKind) (l : ExportLoop Id) : ExportLoop Id :=
  if l.watch = .unsubscribed then l
  else { l with events := Function.update l.events id (l.events id ++ [kind]) }

end ExportLoop

/-- The exporters of one scope and the clients of its key space. -/
structure Failover (Id : Type) where
  election : Election
  clients : Finset Id
  /-- The ids of all clients so far; an id is minted for each connection. -/
  minted : Finset Id
  loops : String → Option (ExportLoop Id)

inductive FailoverAction (Id : Type) where
  /-- `establish` declares its subscriber. -/
  | subscribe (claim : ClaimName)
  /-- `establish` declares its token, and the loop begins. -/
  | declare (claim : ClaimName)
  | arrive (observer claim : String)
  | leave (observer : String)
  /-- A receive in `wait_until_active`. -/
  | standbyEvent (o : String)
  /-- `is_active` in a loop that stands by. -/
  | checkRole (o : String)
  /-- `changed_still_active` in a loop that serves. -/
  | claimEvent (o : String)
  | loop (o : String) (a : ExportAction Id)
  /-- The loop returns, or its process dies. -/
  | vanish (o : String)
  | connect (id : Id)
  | disconnect (id : Id)
  /-- A router delivers the token of a client once more. -/
  | refresh (o : String) (id : Id)

namespace Failover

variable {Id : Type} [DecidableEq Id]

def init (scope : String) : Failover Id := ⟨.init scope, ∅, ∅, fun _ => none⟩

/-- `elect` on the view of an exporter. -/
def holdsRole (e : Election) (o : String) : Bool :=
  match e.view o with
  | some v => elect v o
  | none => false

/-- One step of the exporters, the session between them and the clients. -/
def step (s : Failover Id) : FailoverAction Id → Option (Failover Id)
  | .subscribe claim => (s.election.step (.subscribe claim)).map fun e => { s with election := e }
  | .declare claim => (s.election.step (.declare claim)).map fun e =>
      { s with election := e, loops := Function.update s.loops claim.segment (some .init) }
  | .arrive o claim => (s.election.step (.arrive o claim)).map fun e => { s with election := e }
  | .leave o => (s.election.step (.leave o)).map fun e => { s with election := e }
  | .standbyEvent o => (s.loops o).bind fun l =>
      if l.stage = .waiting then
        (s.election.step (.apply o)).map fun e => { s with
          election := e
          loops := Function.update s.loops o (some { l with stage := .checking }) }
      else none
  | .checkRole o => (s.loops o).bind fun l =>
      if l.stage = .checking then
        (s.election.step (.drainPending o)).bind fun e =>
          if holdsRole e o = true then
            (l.registry.step .serve).map fun r => { s with
              election := e
              loops := Function.update s.loops o
                (some { l with registry := r, stage := .serving, ended := [] }) }
          else some { s with
            election := e
            loops := Function.update s.loops o (some { l with stage := .waiting }) }
      else none
  | .claimEvent o => (s.loops o).bind fun l =>
      -- while a phase of serving starts, claim events wait
      if l.stage = .serving ∧ l.registry.phase = .live then
        (s.election.step (.apply o)).bind fun e =>
          (e.step (.drainPending o)).bind fun e =>
            if holdsRole e o = true then some { s with election := e }
            else some { s with
              election := e
              loops := Function.update s.loops o (some { l with stage := .undeclaring }) }
      else none
  | .loop o a => (s.loops o).bind fun l => (l.step s.clients a).map fun l' =>
      { s with loops := Function.update s.loops o (some l') }
  | .vanish o => (s.loops o).bind fun _ => (s.election.step (.withdraw o)).map fun e =>
      { s with election := e, loops := Function.update s.loops o none }
  | .connect id =>
      if id ∈ s.minted then none
      else some { s with
        clients := insert id s.clients
        minted := insert id s.minted
        loops := fun o => (s.loops o).map (.announce id .put) }
  | .disconnect id =>
      if id ∈ s.clients then some { s with
        clients := s.clients.erase id
        loops := fun o => (s.loops o).map (.announce id .delete) }
      else none
  | .refresh o id => (s.loops o).bind fun l =>
      if id ∈ s.clients then
        some { s with loops := Function.update s.loops o (some (l.announce id .put)) }
      else none

end Failover

namespace Registry

variable {Id : Type} [DecidableEq Id] {s s' : Registry Id}

theorem mem_dispatchClientConnect {id id' : Id} :
    id' ∈ (s.dispatchClientConnect id).map ↔ id' = id ∨ id' ∈ s.map := by
  rw [dispatchClientConnect]
  split
  · next hin =>
      rw [or_iff_right_of_imp]
      rintro rfl
      exact AList.lookup_isSome.mp hin
  · exact AList.mem_insert s.map

theorem mem_handleClientDisconnect {id id' : Id} :
    id' ∈ (s.handleClientDisconnect id).map ↔ id' ≠ id ∧ id' ∈ s.map := by
  rw [handleClientDisconnect]
  split
  · next hnone =>
      rw [iff_and_self]
      rintro hmem rfl
      rw [← AList.lookup_isSome, hnone] at hmem
      cases hmem
  · exact AList.mem_erase

theorem phase_dispatchClientConnect {id : Id} :
    (s.dispatchClientConnect id).phase = s.phase := by
  rw [dispatchClientConnect]
  split <;> rfl

theorem phase_handleClientDisconnect {id : Id} :
    (s.handleClientDisconnect id).phase = s.phase := by
  rw [handleClientDisconnect]
  split <;> rfl

/-- A task that removes itself takes its entry along, if the entry is its own. -/
theorem mem_removeSelf {k : Nat} (h : s.removeSelf k = some s') (id : Id) :
    id ∈ s'.map ↔ id ∈ s.map ∧ ExportLoop.entryOf s k ≠ some id := by
  obtain ⟨t, ht, -, rfl⟩ := removeSelf_inv h
  rw [ExportLoop.entryOf, ht, Option.bind_some]
  simp only [removeIfCurrent]
  split
  · rw [AList.mem_erase, ne_eq, ne_eq, Option.some.injEq, and_comm, eq_comm (a := id)]
  · simp

/-- An outstanding task has an entry. -/
theorem Current.mem_of_outstanding (h : s.Current) {t : ClientTask Id} (ht : t ∈ s.tasks)
    (hout : t.Outstanding) : t.client ∈ s.map := by
  obtain ⟨k, hk⟩ := List.getElem?_of_mem ht
  rw [← AList.lookup_isSome, (h t.client k).mpr ⟨t, hk, rfl, hout⟩]
  rfl

end Registry

namespace ExportLoop

variable {Id : Type} [DecidableEq Id] {clients minted : Finset Id} {l l' : ExportLoop Id}
  {a : ExportAction Id} {id : Id}

/-- How an exporter that watches the client tokens stands to one of them. -/
structure Tracked (clients : Finset Id) (l : ExportLoop Id) (id : Id) : Prop where
  present : id ∈ clients → .delete ∉ l.events id ∧ (l.watch = .queried → l.stopping = true ∨
    id ∈ l.replies ∨ .put ∈ l.events id ∨ id ∈ l.registry.map ∨ id ∈ l.ended)
  /-- Nothing is left behind when the delete of the token has been taken. -/
  absent : id ∉ clients → id ∈ l.registry.map ∨ id ∈ l.replies ∨ l.events id ≠ [] →
    ∃ before, l.events id = before ++ [.delete] ∧ .delete ∉ before

/-- The invariant of one export loop. -/
structure Sound (clients minted : Finset Id) (l : ExportLoop Id) : Prop where
  safe : l.registry.Safe
  fits : l.stage.Fits l.registry.phase
  watching : l.stage = .serving → l.registry.phase = .live → l.watch = .queried ∧ l.replies = ∅
  unwatched : l.watch = .unsubscribed → ∀ id, id ∉ l.replies ∧ l.events id = []
  resting : l.stage = .draining ∨ l.registry.phase = .standby → l.watch = .unsubscribed
  idle : l.registry.phase ≠ .live → (l.registry.phase = .startup → l.watch = .unsubscribed) →
    ∀ id, id ∉ l.registry.map
  tracked : l.stage = .serving → ∀ id, Tracked clients l id
  fresh : ∀ id, id ∉ minted → l.events id = []
  known : ∀ id, id ∈ l.registry.map ∨ id ∈ l.replies → id ∈ minted
  halted : l.stage = .leaving ∨ l.stage = .left → l.stopping = true

omit [DecidableEq Id] in
/-- A token that nothing points to. -/
theorem tracked_of_none (h : id ∉ l.registry.map ∧ id ∉ l.replies ∧ l.events id = [])
    (hwatch : l.watch ≠ .queried) : Tracked clients l id := by
  obtain ⟨hmap, hreplies, hevents⟩ := h
  constructor
  · intro _
    rw [hevents]
    exact ⟨List.not_mem_nil, fun h => absurd h hwatch⟩
  · rintro - (h | h | h)
    · exact absurd h hmap
    · exact absurd h hreplies
    · exact absurd hevents h

/-- A loop to which no token points. -/
theorem sound_of_none (hsafe : l.registry.Safe) (hfits : l.stage.Fits l.registry.phase)
    (hphase : l.registry.phase ≠ .live) (hwatch : l.watch = .unsubscribed)
    (h : ∀ id, id ∉ l.registry.map ∧ id ∉ l.replies ∧ l.events id = [])
    (hhalted : l.stage = .leaving ∨ l.stage = .left → l.stopping = true) :
    Sound clients minted l := by
  refine ⟨hsafe, hfits, fun _ hlive => absurd hlive hphase, fun _ id => (h id).2, fun _ => hwatch,
    fun _ _ id => (h id).1, fun _ id => ?_, fun id _ => (h id).2.2, fun id hid => ?_, hhalted⟩
  · exact tracked_of_none (h id) (by rw [hwatch]; nofun)
  · exact absurd hid (not_or.mpr ⟨(h id).1, (h id).2.1⟩)

theorem sound_init : Sound clients minted (init : ExportLoop Id) :=
  sound_of_none Registry.safe_init rfl nofun rfl
    (fun id => ⟨AList.notMem_empty id, Finset.notMem_empty id, rfl⟩) nofun

/-- No token points to a loop that serves and has not subscribed yet. -/
theorem Sound.none_of_unsubscribed (h : Sound clients minted l) (hserving : l.stage = .serving)
    (hwatch : l.watch = .unsubscribed) (id : Id) :
    id ∉ l.registry.map ∧ id ∉ l.replies ∧ l.events id = [] := by
  refine ⟨h.idle (fun hlive => ?_) (fun _ => hwatch) id, h.unwatched hwatch id⟩
  have hqueried := (h.watching hserving hlive).1
  rw [hwatch] at hqueried
  cases hqueried

/-- The loop moves on and leaves the registry and the watch as they are. -/
theorem Sound.goto {stage : ExportStage} (h : Sound clients minted l)
    (hfits : stage.Fits l.registry.phase) (hserving : stage ≠ .serving)
    (hdraining : stage = .draining → l.watch = .unsubscribed)
    (hhalted : stage = .leaving ∨ stage = .left → l.stopping = true) :
    Sound clients minted { l with stage := stage } :=
  ⟨h.safe, hfits, fun heq => absurd heq hserving, h.unwatched,
    fun hrest => hrest.elim hdraining fun hphase => h.resting (.inr hphase), h.idle,
    fun heq => absurd heq hserving, h.fresh, h.known, hhalted⟩

/-- The subscriber of a loop that no longer serves is undeclared. -/
theorem Sound.unwatch (h : Sound clients minted l) (hserving : l.stage ≠ .serving)
    (hphase : l.registry.phase ≠ .startup) : Sound clients minted l.unwatch :=
  ⟨h.safe, h.fits, fun heq => absurd heq hserving, fun _ id => ⟨Finset.notMem_empty id, rfl⟩,
    fun _ => rfl, fun hlive _ => h.idle hlive fun hstartup => absurd hstartup hphase,
    fun heq => absurd heq hserving, fun _ _ => rfl,
    fun id hid => hid.elim (fun hmap => h.known id (.inl hmap)) fun hreply =>
      absurd hreply (Finset.notMem_empty id), h.halted⟩

omit [DecidableEq Id] in
/-- A step that leaves the events of a token alone. -/
theorem Tracked.mono (h : Tracked clients l id) (hevents : l'.events id = l.events id)
    (hwatch : l'.watch = l.watch) (hstop : l.stopping = true → l'.stopping = true)
    (hkeep : l'.stopping = true ∨ (id ∈ l.replies ∨ id ∈ l.registry.map ∨ id ∈ l.ended →
      id ∈ l'.replies ∨ id ∈ l'.registry.map ∨ id ∈ l'.ended))
    (hnone : id ∈ l'.registry.map ∨ id ∈ l'.replies → id ∈ l.registry.map ∨ id ∈ l.replies) :
    Tracked clients l' id := by
  constructor
  · intro hid
    obtain ⟨hdelete, hpresent⟩ := h.present hid
    rw [hevents, hwatch]
    refine ⟨hdelete, fun hqueried => ?_⟩
    obtain hstopping | hkeep := hkeep
    · exact .inl hstopping
    obtain hstopping | hreply | hput | hmap | hended := hpresent hqueried
    · exact .inl (hstop hstopping)
    · exact .inr ((hkeep (.inl hreply)).imp_right .inr)
    · exact .inr (.inr (.inl hput))
    · exact .inr ((hkeep (.inr (.inl hmap))).imp_right .inr)
    · exact .inr ((hkeep (.inr (.inr hended))).imp_right .inr)
  · intro hid hsome
    rw [hevents] at hsome ⊢
    apply h.absent hid
    obtain hmap | hreply | hevent := hsome
    · exact (hnone (.inl hmap)).imp_right .inl
    · exact (hnone (.inr hreply)).imp_right .inl
    · exact .inr (.inr hevent)

/-- What the registry does by itself, between the calls of the loop. -/
theorem map_task {r r' : Registry Id} {k : Nat} {event : TaskEvent}
    (h : r.step (.task k event) = some r') : r'.map = r.map ∧ r'.phase = r.phase := by
  cases Registry.step_branch h with
  | task k event t t' found moved => exact ⟨rfl, rfl⟩

/-- The loop takes the put of a token. -/
theorem Tracked.take_put {rest : List SampleKind} {r : Registry Id} (h : Tracked clients l id)
    (hnext : l.events id = .put :: rest) (hmap : id ∈ r.map) :
    Tracked clients { l with registry := r, events := Function.update l.events id rest } id := by
  constructor
  · intro hid
    obtain ⟨hdelete, -⟩ := h.present hid
    rw [hnext] at hdelete
    simp only [Function.update_self]
    exact ⟨fun hmem => hdelete (List.mem_cons_of_mem _ hmem),
      fun _ => .inr (.inr (.inr (.inl hmap)))⟩
  · intro hid _
    obtain ⟨before, heq, hbefore⟩ := h.absent hid (.inr (.inr (by simp [hnext])))
    rw [hnext] at heq
    simp only [Function.update_self]
    cases before with
    | nil => cases heq
    | cons kind before =>
        obtain ⟨-, hrest⟩ := List.cons.inj heq
        exact ⟨before, hrest, fun hmem => hbefore (List.mem_cons_of_mem _ hmem)⟩

/-- The loop takes the delete of a token, which is the last of its events. -/
theorem Tracked.take_delete {rest : List SampleKind} {r : Registry Id} (h : Tracked clients l id)
    (hnext : l.events id = .delete :: rest) (hmap : id ∉ r.map) (hreplies : id ∉ l.replies) :
    Tracked clients { l with registry := r, events := Function.update l.events id rest } id := by
  constructor
  · intro hid
    exact absurd (hnext ▸ List.mem_cons_self) (h.present hid).1
  · intro hid hsome
    obtain ⟨before, heq, hbefore⟩ := h.absent hid (.inr (.inr (by simp [hnext])))
    rw [hnext] at heq
    cases before with
    | nil =>
        obtain ⟨-, rfl⟩ := List.cons.inj heq
        simp [hmap, hreplies] at hsome
    | cons kind before =>
        obtain ⟨rfl, -⟩ := List.cons.inj heq
        exact absurd List.mem_cons_self hbefore

/-- What the registry does with an event of a client token. -/
theorem onEvent_spec {r r' : Registry Id} {kind : SampleKind}
    (h : r.step (onEvent id kind) = some r') :
    r.phase = .live ∧ r'.phase = .live ∧ (id ∈ r'.map ↔ kind = .put) ∧
      ∀ id', id' ≠ id → (id' ∈ r'.map ↔ id' ∈ r.map) := by
  cases kind with
  | put =>
      cases Registry.step_branch h with
      | put _ live =>
          refine ⟨live, Registry.phase_dispatchClientConnect.trans live, ?_, fun id' hid => ?_⟩
          · simp [Registry.mem_dispatchClientConnect]
          · rw [Registry.mem_dispatchClientConnect, or_iff_right hid]
  | delete =>
      cases Registry.step_branch h with
      | delete _ live =>
          refine ⟨live, Registry.phase_handleClientDisconnect.trans live, ?_, fun id' hid => ?_⟩
          · simp [Registry.mem_handleClientDisconnect]
          · rw [Registry.mem_handleClientDisconnect, and_iff_right hid]

/-- The loop takes an event of a client token while it follows the stream. -/
theorem Sound.take (h : Sound clients minted l) (hs : l.step clients (.take id) = some l') :
    Sound clients minted l' := by
  simp only [step] at hs
  split at hs
  · cases hs
  next kind rest hnext =>
    rw [Option.ite_none_right_eq_some] at hs
    obtain ⟨hserving, hs⟩ := hs
    obtain ⟨r, hr, rfl⟩ := Option.map_eq_some_iff.mp hs
    obtain ⟨hbefore, hafter, hown, hother⟩ := onEvent_spec hr
    obtain ⟨hwatch, hreplies⟩ := h.watching hserving hbefore
    have htracked := h.tracked hserving
    have hidle : ∀ id', id' ∉ l.replies := by simp [hreplies]
    have hminted : id ∈ minted := by
      by_contra hfresh
      rw [h.fresh id hfresh] at hnext
      cases hnext
    refine ⟨h.safe.step hr, ?_, fun _ _ => ⟨hwatch, hreplies⟩, ?_, ?_, ?_, fun _ id' => ?_, ?_, ?_,
      h.halted⟩
    · rw [hserving]
      exact .inr hafter
    · rw [hwatch]
      nofun
    · rw [hserving, hafter]
      rintro (hdraining | hstandby)
      · cases hdraining
      · cases hstandby
    · exact fun hlive => absurd hafter hlive
    · by_cases hid : id' = id
      · subst hid
        cases kind with
        | put => exact (htracked id').take_put hnext (hown.mpr rfl)
        | delete => exact (htracked id').take_delete hnext (by simp [hown]) (hidle id')
      · refine (htracked id').mono (Function.update_of_ne hid ..) rfl (fun h => h) (.inr ?_) ?_
        · exact fun hsome => hsome.imp_right fun hsome => hsome.imp_left (hother id' hid).mpr
        · exact fun hsome => hsome.imp_left (hother id' hid).mp
    · intro id' hfresh
      have hid : id' ≠ id := by
        rintro rfl
        exact hfresh hminted
      exact (Function.update_of_ne hid ..).trans (h.fresh id' hfresh)
    · rintro id' (hmem | hreply)
      · by_cases hid : id' = id
        · exact hid ▸ hminted
        · exact h.known id' (.inl ((hother id' hid).mp hmem))
      · exact absurd hreply (hidle id')

/-- A step that touches neither the events nor the stage of the watch. -/
theorem Sound.mono (h : Sound clients minted l) (hsafe : l'.registry.Safe)
    (hstage : l'.stage = l.stage) (hfits : l.stage.Fits l'.registry.phase)
    (hevents : l'.events = l.events) (hwatch : l'.watch = l.watch)
    (hstop : l.stopping = true → l'.stopping = true)
    (hlive : l.stage = .serving → l'.registry.phase = .live → l'.watch = .queried ∧ l'.replies = ∅)
    (hrest : l'.registry.phase = .standby → l.registry.phase = .standby)
    (hidle : l'.registry.phase ≠ .live → (l'.registry.phase = .startup → l.watch = .unsubscribed) →
      ∀ id, id ∉ l'.registry.map)
    (hkeep : ∀ id, l'.stopping = true ∨ (id ∈ l.replies ∨ id ∈ l.registry.map ∨ id ∈ l.ended →
      id ∈ l'.replies ∨ id ∈ l'.registry.map ∨ id ∈ l'.ended))
    (hnone : ∀ id, id ∈ l'.registry.map ∨ id ∈ l'.replies → id ∈ l.registry.map ∨ id ∈ l.replies)
    (hfewer : l'.replies ⊆ l.replies) : Sound clients minted l' := by
  refine ⟨hsafe, hstage ▸ hfits, fun heq => hlive (hstage ▸ heq), fun hun id => ?_, fun hon => ?_,
    fun hon hun => hidle hon fun hstartup => hwatch ▸ hun hstartup, fun heq id => ?_,
    fun id hid => ?_, fun id hid => h.known id (hnone id hid), fun heq => ?_⟩
  · obtain ⟨hreplies, hempty⟩ := h.unwatched (hwatch ▸ hun) id
    exact ⟨fun hreply => hreplies (hfewer hreply), hevents ▸ hempty⟩
  · rw [hwatch]
    rw [hstage] at hon
    exact h.resting (hon.imp_right hrest)
  · exact (h.tracked (hstage ▸ heq) id).mono (congrFun hevents id) hwatch hstop (hkeep id)
      (hnone id)
  · rw [hevents]
    exact h.fresh id hid
  · rw [hstage] at heq
    exact hstop (h.halted heq)

/-- A step that keeps the phase and adds no entry. -/
theorem Sound.calm (h : Sound clients minted l) (hsafe : l'.registry.Safe)
    (hphase : l'.registry.phase = l.registry.phase) (hstage : l'.stage = l.stage)
    (hevents : l'.events = l.events) (hwatch : l'.watch = l.watch)
    (hreplies : l'.replies = l.replies)
    (hstop : l.stopping = true → l'.stopping = true)
    (hkeep : ∀ id, l'.stopping = true ∨ (id ∈ l.registry.map ∨ id ∈ l.ended →
      id ∈ l'.registry.map ∨ id ∈ l'.ended))
    (hmap : ∀ id, id ∈ l'.registry.map → id ∈ l.registry.map) : Sound clients minted l' := by
  refine h.mono hsafe hstage (hphase ▸ h.fits) hevents hwatch hstop (fun hserving hlive => ?_)
    (fun hstandby => hphase ▸ hstandby) (fun hlive hun id hid => ?_) (fun id => ?_) (fun id => ?_)
    (hreplies ▸ subset_rfl)
  · rw [hwatch, hreplies]
    exact h.watching hserving (hphase ▸ hlive)
  · rw [hphase] at hlive hun
    exact h.idle hlive hun id (hmap id hid)
  · rw [hreplies]
    exact (hkeep id).imp_right Or.imp_right
  · rw [hreplies]
    exact Or.imp_left (hmap id)

/-- Only a loop that serves is in the startup of a phase of serving. -/
theorem Sound.serving_of_startup (h : Sound clients minted l)
    (hphase : l.registry.phase = .startup) : l.stage = .serving := by
  have hfits := h.fits
  rw [hphase] at hfits
  cases hstage : l.stage with
  | serving => rfl
  | checking | waiting | drained | undeclaring | draining | leaving | left =>
      rw [hstage] at hfits
      cases hfits

/-- A reply of the query is dispatched like a put. -/
theorem Sound.reply (h : Sound clients minted l) (hs : l.step clients (.reply id) = some l') :
    Sound clients minted l' := by
  simp only [step, Option.ite_none_right_eq_some] at hs
  obtain ⟨⟨hwatch, hid⟩, hs⟩ := hs
  obtain ⟨r, hr, rfl⟩ := Option.map_eq_some_iff.mp hs
  have hsafe := h.safe.step hr
  cases Registry.step_branch hr with
  | queryReply _ startup =>
      have hphase : (l.registry.dispatchClientConnect id).phase = .startup :=
        Registry.phase_dispatchClientConnect.trans startup
      refine h.mono hsafe rfl ?_ rfl rfl (fun h => h) ?_ ?_ ?_ (fun id' => .inr ?_) (fun id' => ?_)
        (Finset.erase_subset id l.replies)
      · rw [h.serving_of_startup startup, hphase]
        exact .inl rfl
      · rw [hphase]
        nofun
      · rw [hphase]
        nofun
      · rw [hphase, hwatch]
        exact fun _ hun => nomatch hun rfl
      · rintro (hreply | hmem | hended)
        · by_cases hne : id' = id
          · exact .inr (.inl (Registry.mem_dispatchClientConnect.mpr (.inl hne)))
          · exact .inl (Finset.mem_erase.mpr ⟨hne, hreply⟩)
        · exact .inr (.inl (Registry.mem_dispatchClientConnect.mpr (.inr hmem)))
        · exact .inr (.inr hended)
      · rintro (hmem | hreply)
        · obtain rfl | hmem := Registry.mem_dispatchClientConnect.mp hmem
          · exact .inr hid
          · exact .inl hmem
        · exact .inr (Finset.mem_of_mem_erase hreply)

theorem Sound.queryDone (h : Sound clients minted l) (hs : l.step clients .queryDone = some l') :
    Sound clients minted l' := by
  simp only [step, Option.ite_none_right_eq_some] at hs
  obtain ⟨⟨hwatch, hdone⟩, hs⟩ := hs
  obtain ⟨r, hr, rfl⟩ := Option.map_eq_some_iff.mp hs
  have hsafe := h.safe.step hr
  cases Registry.step_branch hr with
  | queryDone startup =>
      have hserving := h.serving_of_startup startup
      refine h.mono hsafe rfl (hserving ▸ .inr rfl) rfl rfl (fun h => h)
        (fun _ _ => ⟨hwatch, rfl⟩) nofun (fun hlive => absurd rfl hlive) (fun id' => ?_)
        (fun id' hsome => hsome.imp_right fun hmem => absurd hmem (Finset.notMem_empty id'))
        (Finset.empty_subset _)
      obtain hreplies | hstopping := hdone
      · rw [hreplies]
        exact .inr fun hsome => hsome
      · exact .inl hstopping

theorem Sound.removeSelf {k : Nat} (h : Sound clients minted l)
    (hs : l.step clients (.removeSelf k) = some l') : Sound clients minted l' := by
  simp only [step] at hs
  obtain ⟨r, hr, rfl⟩ := Option.map_eq_some_iff.mp hs
  have hmap := fun id => Registry.mem_removeSelf hr id
  have hphase : r.phase = l.registry.phase := by
    obtain ⟨t, -, -, rfl⟩ := Registry.removeSelf_inv hr
    rfl
  refine h.calm (h.safe.step hr) hphase rfl rfl rfl rfl (fun h => h) (fun id => .inr ?_)
    fun id hmem => ((hmap id).mp hmem).1
  rintro (hmem | hended)
  · by_cases hentry : entryOf l.registry k = some id
    · refine .inr (List.mem_append_left _ ?_)
      rw [hentry]
      exact List.mem_singleton_self id
    · exact .inl ((hmap id).mpr ⟨hmem, hentry⟩)
  · exact .inr (List.mem_append_right _ hended)

theorem Sound.query (h : Sound clients minted l) (hclients : clients ⊆ minted)
    (hs : l.step clients .query = some l') : Sound clients minted l' := by
  simp only [step, Option.ite_none_right_eq_some, Option.some.injEq] at hs
  obtain ⟨⟨hphase, hwatch⟩, rfl⟩ := hs
  have hserving := h.serving_of_startup hphase
  have htracked := h.tracked hserving
  refine ⟨h.safe, h.fits, ?_, nofun, ?_, ?_, fun _ id => ⟨fun hid => ?_, fun hid hsome => ?_⟩,
    h.fresh, ?_, h.halted⟩
  · rw [hphase]
    nofun
  · rw [hserving, hphase]
    rintro (hdraining | hstandby)
    · cases hdraining
    · cases hstandby
  · exact fun _ hun => nomatch hun hphase
  · exact ⟨((htracked id).present hid).1, fun _ => .inr (.inl hid)⟩
  · apply (htracked id).absent hid
    obtain hmap | hreply | hevents := hsome
    · exact .inl hmap
    · exact absurd hreply hid
    · exact .inr (.inr hevents)
  · exact fun id hid => hid.elim (fun hmap => h.known id (.inl hmap)) fun hreply => hclients hreply

theorem Sound.subscribe (h : Sound clients minted l) (hs : l.step clients .subscribe = some l') :
    Sound clients minted l' := by
  simp only [step, Option.ite_none_right_eq_some, Option.some.injEq] at hs
  obtain ⟨⟨hphase, hwatch⟩, rfl⟩ := hs
  have hserving := h.serving_of_startup hphase
  have hnone := h.none_of_unsubscribed hserving hwatch
  refine ⟨h.safe, h.fits, ?_, nofun, ?_, fun _ _ id => (hnone id).1,
    fun _ id => tracked_of_none (hnone id) nofun, h.fresh, h.known, h.halted⟩
  · rw [hphase]
    nofun
  · rw [hserving, hphase]
    rintro (hdraining | hstandby)
    · cases hdraining
    · cases hstandby

/-- The subscriber is undeclared before the drain of a demotion and after that of a shutdown. -/
theorem Sound.undeclare (h : Sound clients minted l) (hs : l.step clients .undeclare = some l') :
    Sound clients minted l' := by
  have hfits := h.fits
  simp only [step] at hs
  split at hs
  · next hstage =>
      cases hs
      rw [hstage] at hfits
      have hunwatch : Sound clients minted l.unwatch :=
        h.unwatch (by rw [hstage]; nofun) (by rw [hfits]; nofun)
      exact hunwatch.goto hfits nofun (fun _ => rfl) nofun
  · next hstage =>
      cases hs
      rw [hstage] at hfits
      exact h.unwatch (by rw [hstage]; nofun) (by rw [hfits]; nofun)
  · cases hs

/-- A drain empties the map. -/
theorem Sound.drain (h : Sound clients minted l) (hs : l.step clients .drain = some l') :
    Sound clients minted l' := by
  simp only [step] at hs
  split at hs
  · next hstage =>
      obtain ⟨r, hr, rfl⟩ := Option.map_eq_some_iff.mp hs
      have hsafe := h.safe.step hr
      cases Registry.step_branch hr with
      | demoted live =>
          have hwatch := h.resting (.inl hstage)
          exact sound_of_none hsafe rfl nofun hwatch
            (fun id => ⟨AList.notMem_empty id, h.unwatched hwatch id⟩) nofun
  · next hstage =>
      obtain ⟨r, hr, rfl⟩ := Option.map_eq_some_iff.mp hs
      have hsafe := h.safe.step hr
      cases Registry.step_branch hr with
      | shutdown live =>
          have hempty : ∀ id, id ∉ l.registry.drainAllClients.map := AList.notMem_empty
          exact ⟨hsafe, rfl, nofun, h.unwatched, nofun, fun _ _ => hempty, nofun, h.fresh,
            fun id hid => h.known id (.inr (hid.resolve_left (hempty id))),
            fun _ => h.halted (.inl hstage)⟩
  · cases hs

/-- What an export loop does by itself keeps its invariant. -/
theorem Sound.step (h : Sound clients minted l) (hclients : clients ⊆ minted)
    (hs : l.step clients a = some l') : Sound clients minted l' := by
  cases a with
  | subscribe => exact h.subscribe hs
  | query => exact h.query hclients hs
  | reply id => exact h.reply hs
  | queryDone => exact h.queryDone hs
  | take id => exact h.take hs
  | stop =>
      cases hs
      exact h.calm h.safe rfl rfl rfl rfl rfl (fun _ => rfl) (fun _ => .inl rfl)
        fun _ hmem => hmem
  | shutdown =>
      simp only [ExportLoop.step, Option.ite_none_right_eq_some, Option.some.injEq] at hs
      obtain ⟨⟨-, hlive, hstopping⟩, rfl⟩ := hs
      exact h.goto hlive nofun nofun fun _ => hstopping
  | undeclare => exact h.undeclare hs
  | drain => exact h.drain hs
  | awaited =>
      simp only [ExportLoop.step, Option.ite_none_right_eq_some, Option.some.injEq] at hs
      obtain ⟨hstage, rfl⟩ := hs
      have hfits := h.fits
      rw [hstage] at hfits
      exact h.goto hfits nofun nofun nofun
  | task k event =>
      obtain ⟨r, hr, rfl⟩ := Option.map_eq_some_iff.mp hs
      obtain ⟨hmap, hphase⟩ := map_task hr
      refine h.calm (h.safe.step hr) hphase rfl rfl rfl rfl (fun h => h) (fun id => .inr ?_) ?_
      · rw [hmap]
        exact fun hsome => hsome
      · rw [hmap]
        exact fun _ hmem => hmem
  | removeSelf k => exact h.removeSelf hs

omit [DecidableEq Id] in
theorem Tracked.congr {clients' : Finset Id} (h : Tracked clients l id)
    (hclients : id ∈ clients' ↔ id ∈ clients) (hevents : l'.events id = l.events id)
    (hwatch : l'.watch = l.watch) (hstop : l'.stopping = l.stopping)
    (hreplies : l'.replies = l.replies) (hmap : l'.registry = l.registry)
    (hended : l'.ended = l.ended) : Tracked clients' l' id := by
  constructor
  · rw [hclients, hevents, hwatch, hstop, hreplies, hmap, hended]
    exact h.present
  · rw [hclients, hevents, hreplies, hmap]
    exact h.absent

/-- A change of one token, told to a subscriber if there is one. -/
theorem Sound.announce {clients' minted' : Finset Id} {kind : SampleKind}
    (h : Sound clients minted l) (hminted : minted ⊆ minted') (hid : id ∈ minted')
    (hother : ∀ id', id' ≠ id → (id' ∈ clients' ↔ id' ∈ clients))
    (hown : l.stage = .serving → Tracked clients'
      { l with events := Function.update l.events id (l.events id ++ [kind]) } id) :
    Sound clients' minted' (l.announce id kind) := by
  rw [ExportLoop.announce]
  split
  · next hwatch =>
      refine ⟨h.safe, h.fits, h.watching, h.unwatched, h.resting, h.idle, fun hserving id' => ?_,
        fun id' hid' => h.fresh id' fun hmem => hid' (hminted hmem),
        fun id' hsome => hminted (h.known id' hsome), h.halted⟩
      exact tracked_of_none (h.none_of_unsubscribed hserving hwatch id') (by rw [hwatch]; nofun)
  · next hwatch =>
      refine ⟨h.safe, h.fits, h.watching, fun hun => absurd hun hwatch, h.resting, h.idle,
        fun hserving id' => ?_, fun id' hid' => ?_, fun id' hsome => hminted (h.known id' hsome),
        h.halted⟩
      · by_cases hne : id' = id
        · exact hne ▸ hown hserving
        · exact (h.tracked hserving id').congr (hother id' hne) (Function.update_of_ne hne ..) rfl
            rfl rfl rfl rfl
      · have hne : id' ≠ id := by
          rintro rfl
          exact hid' hid
        exact (Function.update_of_ne hne ..).trans (h.fresh id' fun hmem => hid' (hminted hmem))

/-- The token of a new client. -/
theorem Sound.connect (h : Sound clients minted l) (hid : id ∉ minted) :
    Sound (insert id clients) (insert id minted) (l.announce id .put) := by
  apply h.announce (Finset.subset_insert id minted) (Finset.mem_insert_self id minted)
  · intro id' hne
    rw [Finset.mem_insert, or_iff_right hne]
  · refine fun _ => ⟨fun _ => ?_, fun hnot => absurd (Finset.mem_insert_self id clients) hnot⟩
    simp [h.fresh id hid]

/-- The token of a client goes away. -/
theorem Sound.disconnect (h : Sound clients minted l) (hclients : clients ⊆ minted)
    (hid : id ∈ clients) : Sound (clients.erase id) minted (l.announce id .delete) := by
  apply h.announce subset_rfl (hclients hid)
  · intro id' hne
    rw [Finset.mem_erase, and_iff_right hne]
  · intro hserving
    refine ⟨fun hmem => absurd hmem (Finset.notMem_erase id clients), fun _ _ => ?_⟩
    exact ⟨l.events id, Function.update_self .., ((h.tracked hserving id).present hid).1⟩

/-- The token of a client is delivered once more. -/
theorem Sound.refresh (h : Sound clients minted l) (hclients : clients ⊆ minted)
    (hid : id ∈ clients) : Sound clients minted (l.announce id .put) := by
  apply h.announce subset_rfl (hclients hid) (fun _ _ => Iff.rfl)
  refine fun hserving => ⟨fun _ => ?_, fun hnot => absurd hid hnot⟩
  simp [((h.tracked hserving id).present hid).1]

/-- What a loop does by itself agrees with what it knows of its election. -/
theorem role_step {elected : Prop} (h : l.stage.Role elected) (hs : l.step clients a = some l') :
    l'.stage.Role elected := by
  cases a with
  | subscribe | query =>
      simp only [step, Option.ite_none_right_eq_some, Option.some.injEq] at hs
      obtain ⟨-, rfl⟩ := hs
      exact h
  | reply | queryDone =>
      simp only [step, Option.ite_none_right_eq_some] at hs
      obtain ⟨r, -, rfl⟩ := Option.map_eq_some_iff.mp hs.2
      exact h
  | take id =>
      simp only [step] at hs
      split at hs
      · cases hs
      · rw [Option.ite_none_right_eq_some] at hs
        obtain ⟨r, -, rfl⟩ := Option.map_eq_some_iff.mp hs.2
        exact h
  | stop =>
      cases hs
      exact h
  | shutdown =>
      simp only [step, Option.ite_none_right_eq_some, Option.some.injEq] at hs
      obtain ⟨⟨hstage, -⟩, rfl⟩ := hs
      rwa [hstage] at h
  | undeclare =>
      simp only [step] at hs
      split at hs
      · next hstage =>
          cases hs
          rwa [hstage] at h
      · cases hs
        exact h
      · cases hs
  | drain =>
      simp only [step] at hs
      split at hs
      · next hstage =>
          obtain ⟨r, -, rfl⟩ := Option.map_eq_some_iff.mp hs
          rwa [hstage] at h
      · obtain ⟨r, -, rfl⟩ := Option.map_eq_some_iff.mp hs
        trivial
      · cases hs
  | awaited =>
      simp only [step, Option.ite_none_right_eq_some, Option.some.injEq] at hs
      obtain ⟨-, rfl⟩ := hs
      trivial
  | task | removeSelf =>
      obtain ⟨r, -, rfl⟩ := Option.map_eq_some_iff.mp hs
      exact h

end ExportLoop

/-- The live claims after a step. Only `declare` and a claim that disappears change them. -/
def ElectionAction.liveAfter (live : Finset String) : ElectionAction → Finset String
  | .declare claim => insert claim.segment live
  | .withdraw claim => live.erase claim
  | _ => live

/-- What a step leaves alone: of the live exporters, only the one that applies events gets another
view. -/
theorem Election.step_frame {e e' : Election} {a : ElectionAction} (h : e.step a = some e') :
    e'.live = a.liveAfter e.live ∧ ∀ o, o ∈ e.live → o ∈ e.observers → a ≠ .apply o →
      a ≠ .drainPending o → e'.view o = e.view o := by
  cases a with
  | subscribe claim =>
      simp only [Election.step, Option.ite_none_left_eq_some, Option.some.injEq] at h
      obtain ⟨hfresh, rfl⟩ := h
      refine ⟨rfl, fun o _ hobserves _ _ => Function.update_of_ne ?_ ..⟩
      rintro rfl
      exact hfresh hobserves
  | declare claim =>
      simp only [Election.step, Option.ite_none_right_eq_some, Option.some.injEq] at h
      obtain ⟨⟨-, hnew, -⟩, rfl⟩ := h
      refine ⟨rfl, fun o ho _ _ _ => Function.update_of_ne ?_ ..⟩
      rintro rfl
      exact hnew ho
  | withdraw claim =>
      simp only [Election.step, Option.ite_none_right_eq_some, Option.some.injEq] at h
      obtain ⟨-, rfl⟩ := h
      exact ⟨rfl, fun _ _ _ _ _ => rfl⟩
  | leave p =>
      simp only [Election.step, Option.ite_none_right_eq_some, Option.some.injEq] at h
      obtain ⟨⟨-, hgone⟩, rfl⟩ := h
      refine ⟨rfl, fun o ho _ _ _ => Function.update_of_ne ?_ ..⟩
      rintro rfl
      exact hgone ho
  | arrive p claim =>
      simp only [Election.step] at h
      split at h
      · cases h
      simp only [Option.ite_none_right_eq_some, Option.some.injEq] at h
      obtain ⟨-, rfl⟩ := h
      exact ⟨rfl, fun _ _ _ _ _ => rfl⟩
  | apply p =>
      obtain ⟨v, event, rest, -, -, rfl⟩ := Election.apply_inv h
      refine ⟨rfl, fun o _ _ happly _ => Function.update_of_ne ?_ ..⟩
      rintro rfl
      exact happly rfl
  | drainPending p =>
      obtain ⟨v, -, rfl⟩ := Election.drainPending_inv h
      refine ⟨rfl, fun o _ _ _ hdrain => Function.update_of_ne ?_ ..⟩
      rintro rfl
      exact hdrain rfl

theorem Election.live_step {e e' : Election} {a : ElectionAction} (h : e.step a = some e') :
    e'.live = a.liveAfter e.live :=
  (Election.step_frame h).1

/-- A view changes only where events are applied to it, or while its exporter has no claim. -/
theorem Election.view_step {e e' : Election} {a : ElectionAction} {o : String} (hs : e.Synced)
    (h : e.step a = some e') (ho : o ∈ e.live) (happly : a ≠ .apply o)
    (hdrain : a ≠ .drainPending o) : e'.view o = e.view o :=
  (Election.step_frame h).2 o ho (hs.observing o (hs.viewing o ho)) happly hdrain

namespace Failover

variable {Id : Type} [DecidableEq Id] {s s' : Failover Id} {o : String} {l l' : ExportLoop Id}
  {e : Election} {id : Id}

theorem holdsRole_iff : holdsRole e o = true ↔ e.Elected o := by
  rw [holdsRole]
  split
  · next v hview => simp [Election.Elected, hview]
  · next hview => simp [Election.Elected, hview]

theorem elected_congr {e' : Election} (h : e'.view o = e.view o) : e'.Elected o ↔ e.Elected o := by
  simp only [Election.Elected, h]

/-- The invariant of the exporters: an exporter that serves holds the role by its own view, and
one that is being demoted does not. -/
structure Sound (s : Failover Id) : Prop where
  synced : s.election.Synced
  running : ∀ o, (s.loops o).isSome ↔ o ∈ s.election.live
  minted : s.clients ⊆ s.minted
  loops : ∀ o l, s.loops o = some l → l.Sound s.clients s.minted
  role : ∀ o l, s.loops o = some l → l.stage.Role (s.election.Elected o)

theorem sound_init (scope : String) : Sound (init scope : Failover Id) where
  synced := Election.synced_init scope
  running := fun o => iff_of_false Bool.false_ne_true (Finset.notMem_empty o)
  minted := Finset.empty_subset _
  loops := nofun
  role := nofun

theorem Sound.live_of_loop (h : Sound s) (hl : s.loops o = some l) : o ∈ s.election.live :=
  (h.running o).mp (by rw [hl]; rfl)

/-- A step of the election that no view of a live exporter shows. -/
theorem Sound.unseen (h : Sound s) (hsynced : e.Synced) (hlive : e.live = s.election.live)
    (hview : ∀ p ∈ s.election.live, e.view p = s.election.view p) :
    Sound { s with election := e } := by
  refine ⟨hsynced, ?_, h.minted, h.loops, fun p l hl => ?_⟩
  · rw [hlive]
    exact h.running
  · rw [elected_congr (hview p (h.live_of_loop hl))]
    exact h.role p l hl

/-- A step of one exporter, which others do not see in their views. -/
theorem Sound.onLoop (h : Sound s) (hl : s.loops o = some l) (hsynced : e.Synced)
    (hlive : e.live = s.election.live)
    (hview : ∀ p ∈ s.election.live, p ≠ o → e.view p = s.election.view p)
    (hsound : l'.Sound s.clients s.minted)
    (hrole : l'.stage.Role (e.Elected o)) :
    Sound { s with election := e, loops := Function.update s.loops o (some l') } := by
  refine ⟨hsynced, fun p => ?_, h.minted, fun p k hk => ?_, fun p k hk => ?_⟩
  · rw [hlive, ← h.running p]
    by_cases hp : p = o
    · subst hp
      simp [hl]
    · simp [Function.update_of_ne hp]
  · by_cases hp : p = o
    · subst hp
      simp only [Function.update_self, Option.some.injEq] at hk
      exact hk ▸ hsound
    · simp only [Function.update_of_ne hp] at hk
      exact h.loops p k hk
  · by_cases hp : p = o
    · subst hp
      simp only [Function.update_self, Option.some.injEq] at hk
      exact hk ▸ hrole
    · simp only [Function.update_of_ne hp] at hk
      rw [elected_congr (hview p (h.live_of_loop hk) hp)]
      exact h.role p k hk

/-- What an exporter takes into its own view, others do not see. -/
theorem view_of_own {e e' : Election} {a : ElectionAction} (hs : e.Synced)
    (h : e.step a = some e') (ha : a = .apply o ∨ a = .drainPending o) :
    e'.live = e.live ∧ ∀ p ∈ e.live, p ≠ o → e'.view p = e.view p := by
  refine ⟨?_, fun p hp hne => Election.view_step hs h hp ?_ ?_⟩
  · rw [Election.live_step h]
    obtain rfl | rfl := ha <;> rfl
  · obtain rfl | rfl := ha
    · exact fun heq => hne (ElectionAction.apply.inj heq).symm
    · nofun
  · obtain rfl | rfl := ha
    · nofun
    · exact fun heq => hne (ElectionAction.drainPending.inj heq).symm

theorem Sound.standbyEvent (h : Sound s) (hs : s.step (.standbyEvent o) = some s') :
    Sound s' := by
  obtain ⟨l, hl, hs⟩ := Option.bind_eq_some_iff.mp hs
  rw [Option.ite_none_right_eq_some] at hs
  obtain ⟨hstage, hs⟩ := hs
  obtain ⟨e, he, rfl⟩ := Option.map_eq_some_iff.mp hs
  obtain ⟨hlive, hview⟩ := view_of_own h.synced he (.inl rfl)
  have hloop := h.loops o l hl
  have hfits := hloop.fits
  rw [hstage] at hfits
  exact h.onLoop hl (h.synced.step he) hlive hview (hloop.goto hfits nofun nofun nofun) trivial

theorem Sound.checkRole (h : Sound s) (hs : s.step (.checkRole o) = some s') : Sound s' := by
  obtain ⟨l, hl, hs⟩ := Option.bind_eq_some_iff.mp hs
  rw [Option.ite_none_right_eq_some] at hs
  obtain ⟨hstage, hs⟩ := hs
  obtain ⟨e, he, hs⟩ := Option.bind_eq_some_iff.mp hs
  obtain ⟨hlive, hview⟩ := view_of_own h.synced he (.inr rfl)
  have hloop := h.loops o l hl
  have hfits := hloop.fits
  rw [hstage] at hfits
  split at hs
  · next hrole =>
      obtain ⟨r, hr, rfl⟩ := Option.map_eq_some_iff.mp hs
      refine h.onLoop hl (h.synced.step he) hlive hview ?_ (holdsRole_iff.mp hrole)
      have hsafe := hloop.safe.step hr
      cases Registry.step_branch hr with
      | serve standby =>
          have hwatch := hloop.resting (.inr standby)
          have hempty := hloop.idle (by rw [standby]; nofun) (fun _ => hwatch)
          exact ExportLoop.sound_of_none hsafe (.inl rfl) nofun hwatch
            (fun id => ⟨hempty id, hloop.unwatched hwatch id⟩) nofun
  · next hrole =>
      cases hs
      exact h.onLoop hl (h.synced.step he) hlive hview (hloop.goto hfits nofun nofun nofun)
        (mt holdsRole_iff.mpr hrole)

theorem Sound.claimEvent (h : Sound s) (hs : s.step (.claimEvent o) = some s') : Sound s' := by
  obtain ⟨l, hl, hs⟩ := Option.bind_eq_some_iff.mp hs
  rw [Option.ite_none_right_eq_some] at hs
  obtain ⟨⟨hstage, hphase⟩, hs⟩ := hs
  obtain ⟨e, he, hs⟩ := Option.bind_eq_some_iff.mp hs
  obtain ⟨e', he', hs⟩ := Option.bind_eq_some_iff.mp hs
  obtain ⟨hlive, hview⟩ := view_of_own h.synced he (.inl rfl)
  have hsynced := h.synced.step he
  obtain ⟨hlive', hview'⟩ := view_of_own hsynced he' (.inr rfl)
  have hframe : ∀ p ∈ s.election.live, p ≠ o → e'.view p = s.election.view p := by
    intro p hp hne
    rw [hview' p (hlive ▸ hp) hne, hview p hp hne]
  have hloop := h.loops o l hl
  split at hs
  · next hrole =>
      cases hs
      have hsame : Function.update s.loops o (some l) = s.loops := by
        rw [← hl, Function.update_eq_self]
      have hon := h.onLoop hl (hsynced.step he') (hlive'.trans hlive) hframe hloop
        (hstage ▸ holdsRole_iff.mp hrole)
      rwa [hsame] at hon
  · next hrole =>
      cases hs
      exact h.onLoop hl (hsynced.step he') (hlive'.trans hlive) hframe
        (hloop.goto hphase nofun nofun nofun) (mt holdsRole_iff.mpr hrole)

theorem Sound.loop {a : ExportAction Id} (h : Sound s) (hs : s.step (.loop o a) = some s') :
    Sound s' := by
  obtain ⟨l, hl, hs⟩ := Option.bind_eq_some_iff.mp hs
  obtain ⟨l', hl', rfl⟩ := Option.map_eq_some_iff.mp hs
  exact h.onLoop hl h.synced rfl (fun _ _ _ => rfl) ((h.loops o l hl).step h.minted hl')
    (ExportLoop.role_step (h.role o l hl) hl')

theorem Sound.declare {claim : ClaimName} (h : Sound s) (hs : s.step (.declare claim) = some s') :
    Sound s' := by
  obtain ⟨e, he, rfl⟩ := Option.map_eq_some_iff.mp hs
  have hlive : e.live = insert claim.segment s.election.live := Election.live_step he
  have hview : ∀ p ∈ s.election.live, e.view p = s.election.view p := fun p hp =>
    Election.view_step h.synced he hp nofun nofun
  refine ⟨h.synced.step he, fun p => ?_, h.minted, fun p k hk => ?_, fun p k hk => ?_⟩
  · rw [hlive, Finset.mem_insert, ← h.running p]
    by_cases hp : p = claim.segment
    · simp [hp]
    · simp [hp]
  · by_cases hp : p = claim.segment
    · simp only [hp, Function.update_self, Option.some.injEq] at hk
      exact hk ▸ ExportLoop.sound_init
    · simp only [Function.update_of_ne hp] at hk
      exact h.loops p k hk
  · by_cases hp : p = claim.segment
    · simp only [hp, Function.update_self, Option.some.injEq] at hk
      exact hk ▸ trivial
    · simp only [Function.update_of_ne hp] at hk
      rw [elected_congr (hview p (h.live_of_loop hk))]
      exact h.role p k hk

theorem Sound.vanish (h : Sound s) (hs : s.step (.vanish o) = some s') : Sound s' := by
  obtain ⟨l, hl, hs⟩ := Option.bind_eq_some_iff.mp hs
  obtain ⟨e, he, rfl⟩ := Option.map_eq_some_iff.mp hs
  have hlive : e.live = s.election.live.erase o := Election.live_step he
  have hview : ∀ p ∈ s.election.live, e.view p = s.election.view p := fun p hp =>
    Election.view_step h.synced he hp nofun nofun
  have hother : ∀ p k, Function.update s.loops o none p = some k → s.loops p = some k := by
    intro p k hk
    by_cases hp : p = o
    · simp [hp] at hk
    · rwa [Function.update_of_ne hp] at hk
  refine ⟨h.synced.step he, fun p => ?_, h.minted, fun p k hk => ?_, fun p k hk => ?_⟩
  · rw [hlive, Finset.mem_erase, ← h.running p]
    by_cases hp : p = o
    · simp [hp]
    · simp [hp]
  · exact h.loops p k (hother p k hk)
  · have hk := hother p k hk
    rw [elected_congr (hview p (h.live_of_loop hk))]
    exact h.role p k hk

theorem stage_announce (id : Id) (kind : SampleKind) (l : ExportLoop Id) :
    (l.announce id kind).stage = l.stage := by
  rw [ExportLoop.announce]
  split <;> rfl

/-- A change of one client token, told to every loop. -/
theorem Sound.announce {clients minted : Finset Id} {kind : SampleKind} (h : Sound s)
    (hminted : clients ⊆ minted)
    (hloops : ∀ l : ExportLoop Id, l.Sound s.clients s.minted →
      (l.announce id kind).Sound clients minted) :
    Sound { s with
      clients := clients
      minted := minted
      loops := fun o => (s.loops o).map (.announce id kind) } := by
  refine ⟨h.synced, fun p => ?_, hminted, fun p k hk => ?_, fun p k hk => ?_⟩
  · rw [Option.isSome_map]
    exact h.running p
  · obtain ⟨l, hl, rfl⟩ := Option.map_eq_some_iff.mp hk
    exact hloops l (h.loops p l hl)
  · obtain ⟨l, hl, rfl⟩ := Option.map_eq_some_iff.mp hk
    rw [stage_announce]
    exact h.role p l hl

/-- Every step of the exporters, the session and the clients keeps the invariant. -/
theorem Sound.step {a : FailoverAction Id} (h : Sound s) (hs : s.step a = some s') : Sound s' := by
  cases a with
  | subscribe | arrive | leave =>
      obtain ⟨e, he, rfl⟩ := Option.map_eq_some_iff.mp hs
      exact h.unseen (h.synced.step he) (Election.live_step he) fun p hp =>
        Election.view_step h.synced he hp nofun nofun
  | declare claim => exact h.declare hs
  | standbyEvent o => exact h.standbyEvent hs
  | checkRole o => exact h.checkRole hs
  | claimEvent o => exact h.claimEvent hs
  | loop o a => exact h.loop hs
  | vanish o => exact h.vanish hs
  | connect id =>
      simp only [Failover.step, Option.ite_none_left_eq_some, Option.some.injEq] at hs
      obtain ⟨hfresh, rfl⟩ := hs
      exact h.announce (Finset.insert_subset_insert id h.minted) fun l hl => hl.connect hfresh
  | disconnect id =>
      simp only [Failover.step, Option.ite_none_right_eq_some, Option.some.injEq] at hs
      obtain ⟨hid, rfl⟩ := hs
      exact h.announce ((Finset.erase_subset id s.clients).trans h.minted) fun l hl =>
        hl.disconnect h.minted hid
  | refresh o id =>
      obtain ⟨l, hl, hs⟩ := Option.bind_eq_some_iff.mp hs
      simp only [Option.ite_none_right_eq_some, Option.some.injEq] at hs
      obtain ⟨hid, rfl⟩ := hs
      refine h.onLoop hl h.synced rfl (fun _ _ _ => rfl) ((h.loops o l hl).refresh h.minted hid) ?_
      rw [stage_announce]
      exact h.role o l hl

/-- The exporter has a client that it has neither told to stop nor seen ending. -/
def Serves (s : Failover Id) (o : String) : Prop :=
  ∃ l, s.loops o = some l ∧ ∃ t ∈ l.registry.tasks, t.Outstanding

/-- The exporter has learned of an older claim and its registry is not drained yet. -/
def Demoting (s : Failover Id) (o : String) : Prop :=
  ∃ l, s.loops o = some l ∧ (l.stage = .undeclaring ∨ l.stage = .draining)

theorem Sound.live_of_serves (h : Sound s) (hserves : Serves s o) : o ∈ s.election.live := by
  obtain ⟨l, hl, -⟩ := hserves
  exact h.live_of_loop hl

/-- Who serves holds the role, or has lost it and not been drained yet. -/
theorem Sound.elected_of_serves (h : Sound s) (hserves : Serves s o) :
    s.election.Elected o ∨ Demoting s o := by
  obtain ⟨l, hl, t, ht, hout⟩ := hserves
  have hloop := h.loops o l hl
  have hmem := hloop.safe.current.mem_of_outstanding ht hout
  have hidle : l.registry.phase = .startup ∨ l.registry.phase = .live := by
    by_contra hnone
    obtain ⟨hstartup, hlive⟩ := not_or.mp hnone
    exact hloop.idle hlive (fun hphase => absurd hphase hstartup) t.client hmem
  have hfits := hloop.fits
  have hrole := h.role o l hl
  cases hstage : l.stage with
  | serving | leaving =>
      rw [hstage] at hrole
      exact .inl hrole
  | undeclaring => exact .inr ⟨l, hl, .inl hstage⟩
  | draining => exact .inr ⟨l, hl, .inr hstage⟩
  | checking | waiting | drained | left =>
      rw [hstage] at hfits
      obtain hphase | hphase := hidle <;> cases hfits.symm.trans hphase

/-- An exporter whose view has the claim of an older one does not hold the role. -/
theorem not_elected_of_smaller {p : String} (hs : e.Synced) (ho : o ∈ e.live) (hp : p ∈ e.live)
    (hlt : o < p) (hpending : e.pending p o = []) : ¬ e.Elected p := by
  rintro ⟨v, hview, helect⟩
  have hsync := hs.sync p (hs.observing p (hs.viewing p hp)) o
  rw [hpending, settle_nil, hview, Option.getD_some, decide_eq_decide] at hsync
  exact absurd ((elect_iff.mp helect).2 o (hsync.mpr ho)) (not_le_of_gt hlt)

/-- Two exporters serve at a time only while the claim of the older one is on its way to the
younger one, or while the younger one is being demoted. -/
theorem double_service_only_in_flight (scope : String) (schedule : List (FailoverAction Id)) :
    Always step (fun s => ∀ o p, o < p → Serves s o → Serves s p →
      s.election.pending p o ≠ [] ∨ Demoting s p) (init scope) schedule := by
  refine (always_of_step (fun s a s' h hs => h.step hs) (sound_init scope) schedule).mono ?_
  intro s h o p hlt ho hp
  refine (h.elected_of_serves hp).imp_left fun helected hpending => ?_
  exact not_elected_of_smaller h.synced (h.live_of_serves ho) (h.live_of_serves hp) hlt hpending
    helected

/-- The registry of a loop that has taken everything on its way: the clients that are there,
except for those whose connection has ended by itself. -/
structure Mirrors (s : Failover Id) (l : ExportLoop Id) : Prop where
  dispatched : ∀ id ∈ s.clients, id ∈ l.registry.map ∨ id ∈ l.ended
  noGhost : ∀ id, id ∈ l.registry.map → id ∈ s.clients

theorem Sound.mirrors (h : Sound s) (hl : s.loops o = some l) (hserving : l.stage = .serving)
    (hlive : l.registry.phase = .live) (hstop : l.stopping = false)
    (hevents : ∀ id, l.events id = []) : Mirrors s l := by
  have hloop := h.loops o l hl
  have htracked := hloop.tracked hserving
  obtain ⟨hwatch, hreplies⟩ := hloop.watching hserving hlive
  constructor
  · intro id hid
    obtain ⟨-, hpresent⟩ := (htracked id).present hid
    simpa [hstop, hreplies, hevents] using hpresent hwatch
  · intro id hmap
    by_contra hid
    obtain ⟨before, hlast, -⟩ := (htracked id).absent hid (.inl hmap)
    simp [hevents] at hlast

/-- The steps in which a demoted exporter ends its service. -/
def demotion (p : String) : ExportStage → List (FailoverAction Id)
  | .undeclaring => [.loop p .undeclare, .loop p .drain]
  | _ => [.loop p .drain]

theorem Sound.not_serves (h : Sound s) (hl : s.loops o = some l)
    (hempty : ∀ id, id ∉ l.registry.map) : ¬Serves s o := by
  rintro ⟨k, hk, t, ht, hout⟩
  obtain rfl := Option.some.inj (hl.symm.trans hk)
  exact hempty t.client ((h.loops o l hl).safe.current.mem_of_outstanding ht hout)

/-- A drain takes every client of the exporter. -/
theorem Sound.drain_ends (h : Sound s) (hl : s.loops o = some l) (hstage : l.stage = .draining) :
    ∃ s', s.step (.loop o .drain) = some s' ∧ ¬Serves s' o := by
  have hfits := (h.loops o l hl).fits
  rw [hstage] at hfits
  have hdemoted : l.registry.step .demoted =
      some { l.registry.drainAllClients with phase := .standby } := if_pos hfits
  have hdrain : s.step (.loop o .drain) = some { s with
      loops := Function.update s.loops o (some { l with
        registry := { l.registry.drainAllClients with phase := .standby }
        stage := .drained }) } := by
    simp only [Failover.step, hl, Option.bind_some, ExportLoop.step, hstage, hdemoted,
      Option.map_some]
  exact ⟨_, hdrain, (h.step hdrain).not_serves (Function.update_self ..) AList.notMem_empty⟩

/-- A demoted exporter can always end its service. -/
theorem Sound.demotion_ends (h : Sound s) (hl : s.loops o = some l)
    (hstage : l.stage = .undeclaring ∨ l.stage = .draining) :
    ∃ s', exec Failover.step s (demotion o l.stage) = some s' ∧ ¬Serves s' o := by
  obtain hstage | hstage := hstage
  · have hundeclare : s.step (.loop o .undeclare) = some { s with
        loops := Function.update s.loops o (some { l.unwatch with stage := .draining }) } := by
      simp only [Failover.step, hl, Option.bind_some, ExportLoop.step, hstage, Option.map_some]
    obtain ⟨s', hdrain, hends⟩ := (h.step hundeclare).drain_ends (Function.update_self ..) rfl
    refine ⟨s', ?_, hends⟩
    rw [hstage]
    exact exec_cons hundeclare (exec_cons hdrain (exec_nil s'))
  · obtain ⟨s', hdrain, hends⟩ := h.drain_ends hl hstage
    refine ⟨s', ?_, hends⟩
    rw [hstage]
    exact exec_cons hdrain (exec_nil s')

/-- What an agreed election means for the exporter that holds the role: whoever else serves is
being demoted and can end its service by itself, and the one that holds the role serves or finds
that it may, unless shutdown was requested. When it has taken what is on its way to it, it serves
the clients that are there and no others. -/
structure TakesOver (s : Failover Id) (o : String) (l : ExportLoop Id) : Prop where
  alone : ∀ p, p ≠ o → Serves s p → ∃ k, s.loops p = some k ∧
    (k.stage = .undeclaring ∨ k.stage = .draining) ∧
    ∃ s', exec Failover.step s (demotion p k.stage) = some s' ∧ ¬Serves s' p
  acts : l.stopping = false → l.stage = .serving ∨ l.stage = .checking ∧
    ∃ s' l', s.step (.checkRole o) = some s' ∧ s'.loops o = some l' ∧ l'.stage = .serving
  mirrors : l.stage = .serving → l.registry.phase = .live → l.stopping = false →
    (∀ id, l.events id = []) → Mirrors s l

/-- The role is there to take for the exporter that the election points to. -/
theorem Sound.promotes (h : Sound s) (hq : s.election.Quiet) (hl : s.loops o = some l)
    (helected : s.election.Elected o) (hstage : l.stage = .checking) :
    ∃ s' l', s.step (.checkRole o) = some s' ∧ s'.loops o = some l' ∧ l'.stage = .serving := by
  obtain ⟨v, hview, helect⟩ := helected
  have hchannel := (hq o (h.synced.observing o (by rw [hview]; rfl))).1
  have hphase := (h.loops o l hl).fits
  rw [hstage] at hphase
  have hrole : holdsRole { s.election with
      view := Function.update s.election.view o (some v)
      channel := Function.update s.election.channel o [] } o = true := by
    simp [holdsRole, helect]
  refine ⟨{ s with
    election := { s.election with
      view := Function.update s.election.view o (some v)
      channel := Function.update s.election.channel o [] }
    loops := Function.update s.loops o (some { l with
      registry := { l.registry with phase := .startup }
      stage := .serving
      ended := [] }) },
    _, ?_, Function.update_self .., rfl⟩
  have hserve : l.registry.step .serve = some { l.registry with phase := .startup } := if_pos hphase
  simp only [Failover.step, hl, Option.bind_some, hstage, if_true, Election.step, hview,
    hchannel, List.foldl_nil, hrole, hserve, Option.map_some]

theorem Sound.takesOver (h : Sound s) (hq : s.election.Quiet) (hl : s.loops o = some l)
    (helected : s.election.Elected o) : TakesOver s o l := by
  have hlive := h.live_of_loop hl
  obtain ⟨-, hunique, -⟩ := h.synced.agreed hq
  have hloop := h.loops o l hl
  refine ⟨fun p hne hp => ?_, fun hstop => ?_, h.mirrors hl⟩
  · obtain helected' | ⟨k, hk, hstage⟩ := h.elected_of_serves hp
    · exact absurd ((hunique ⟨o, hlive⟩).unique ⟨h.live_of_serves hp, helected'⟩
        ⟨hlive, helected⟩) hne
    · exact ⟨k, hk, hstage, h.demotion_ends hk hstage⟩
  · have hrole := h.role o l hl
    cases hstage : l.stage with
    | serving => exact .inl rfl
    | checking => exact .inr ⟨rfl, h.promotes hq hl helected hstage⟩
    | waiting | undeclaring | draining | drained =>
        rw [hstage] at hrole
        exact absurd helected hrole
    | leaving =>
        cases hstop.symm.trans (hloop.halted (.inl hstage))
    | left =>
        cases hstop.symm.trans (hloop.halted (.inr hstage))

/-- Failover: once no claim event is on its way, exactly one exporter holds the role if there is
any, and it serves or can take the role up. -/
theorem failover_serves_clients (scope : String) (schedule : List (FailoverAction Id)) :
    Always step (fun s => s.election.Quiet →
      (s.election.live.Nonempty → ∃! o, (s.loops o).isSome ∧ s.election.Elected o) ∧
      ∀ o l, s.loops o = some l → s.election.Elected o → TakesOver s o l)
      (init scope) schedule := by
  refine (always_of_step (fun s a s' h hs => h.step hs) (sound_init scope) schedule).mono ?_
  intro s h hq
  refine ⟨fun hne => ?_, fun o l hl helected => h.takesOver hq hl helected⟩
  obtain ⟨-, hunique, -⟩ := h.synced.agreed hq
  simpa only [h.running] using hunique hne

end Failover

end ZenohBridge
