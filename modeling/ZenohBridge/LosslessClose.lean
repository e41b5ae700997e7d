import ZenohBridge.Connection

/-!
# The bytes of a fault-free connection

Each direction of a connection is a pipe: what the sending end has not read yet, the chunk
it is publishing, the samples in flight, the samples queued for the receiving task and the
sample that task is writing. A fault-free direction moves bytes along this pipe and ends
with the EOF marker, so a receiving task that leaves through the marker has written
everything.

Only one exit bypasses the marker without a fault. The import side withdraws its token
when its own directions have ended, and the cancel that follows from it lets the receiving
task of the export relay take its `cancelled()` arm while samples of the client are still
in flight or queued. The `select!` is unbiased and the token is another key than the data,
so nothing orders the two. The connection loses no byte exactly when this exit is taken on
an empty pipe.
-/

namespace ZenohBridge

open Execution

instance : ∀ r : Receiver, Decidable r.active
  | .select | .writing _ => inferInstanceAs (Decidable True)
  | .closing _ | .ended _ | .aborted => inferInstanceAs (Decidable False)

/-- The chunk that a receiving task is writing. -/
def Receiver.held : Receiver → List Bytes
  | .writing x => [x.payload]
  | _ => []

/-- The chunk that a sending task is publishing. -/
def Sender.held : Sender → List Bytes
  | .publishing data => [data]
  | _ => []

/-- One direction of a connection, from the socket it reads to the socket it writes. -/
structure Direction where
  unread : Bytes
  sender : Sender
  flight : List Bytes
  queue : List Bytes
  receiver : Receiver
  written : List Bytes

namespace Direction

variable {data : Bytes} {d d' : Direction}

/-- The chunks that are published and not written yet. -/
def pending (d : Direction) : List Bytes := d.receiver.held ++ (d.queue ++ d.flight)

/-- No byte was lost so far: while the receiving task is active all bytes are in the
pipe, in order, with the EOF marker last. Afterwards all of them are written. -/
structure Kept (data : Bytes) (d : Direction) : Prop where
  account : d.receiver.active →
    d.written.flatten ++ (d.pending.flatten ++ (d.sender.held.flatten ++ d.unread)) = data
  sending : d.sender = .select ∨ (∃ c, d.sender = .publishing c ∧ (c = [] → d.unread = [])) ∨
    (d.sender = .ended .eof ∧ d.unread = [])
  unmarked : d.receiver.active → d.sender ≠ .ended .eof → [] ∉ d.queue ++ d.flight
  marked : d.receiver.active → d.sender = .ended .eof →
    ∃ chunks, d.queue ++ d.flight = chunks ++ [[]] ∧ [] ∉ chunks
  finished : ¬ d.receiver.active → d.written.flatten = data ∧ d.sender = .ended .eof

/-- The fault-free movements along a direction. -/
inductive Move : Direction → Direction → Prop
  | inject (d : Direction) (chunk rest : Bytes) (select : d.sender = .select)
      (split : d.unread = chunk ++ rest) (nonempty : chunk ≠ []) :
      Move d { d with unread := rest, flight := d.flight ++ [chunk] }
  | read (d : Direction) (chunk rest : Bytes) (select : d.sender = .select)
      (split : d.unread = chunk ++ rest) (eof : chunk = [] → rest = []) :
      Move d { d with unread := rest, sender := .publishing chunk }
  | publish (d : Direction) (chunk : Bytes) (publishing : d.sender = .publishing chunk) :
      Move d { d with
        flight := d.flight ++ [chunk]
        sender := if chunk = [] then .ended .eof else .select }
  | arrive (d : Direction) (chunk : Bytes) (rest : List Bytes) (flight : d.flight = chunk :: rest) :
      Move d { d with flight := rest, queue := d.queue ++ [chunk] }
  | hand (d : Direction) (x : Sample) (rest : List Bytes) (select : d.receiver = .select)
      (queue : d.queue = x.payload :: rest) (nonempty : x.payload ≠ []) :
      Move d { d with queue := rest, receiver := .writing x }
  | wrote (d : Direction) (x : Sample) (writing : d.receiver = .writing x) :
      Move d { d with written := d.written ++ [x.payload], receiver := .select }
  | mark (d : Direction) (rest : List Bytes) (r : Receiver) (select : d.receiver = .select)
      (queue : d.queue = [] :: rest) (left : ¬ r.active) :
      Move d { d with queue := rest, receiver := r }
  | late (d d' : Direction) (before : ¬ d.receiver.active) (after : ¬ d'.receiver.active)
      (sender : d'.sender = d.sender) (unread : d'.unread = d.unread)
      (written : d'.written = d.written) : Move d d'

/-- A sending task that reads has the EOF marker still to come. -/
theorem Kept.active_of_sending (h : Kept data d) (hs : d.sender ≠ .ended .eof) :
    d.receiver.active := by
  by_contra hr
  exact hs (h.finished hr).2

/-- The marker reaches the front of the queue after everything else. -/
theorem Kept.of_marker (h : Kept data d) (hselect : d.receiver = .select) {rest : List Bytes}
    (hqueue : d.queue = [] :: rest) :
    d.written.flatten = data ∧ d.sender = .ended .eof := by
  have ha : d.receiver.active := by rw [hselect]; trivial
  have hmem : [] ∈ d.queue ++ d.flight := by simp [hqueue]
  have hsender : d.sender = .ended .eof := by
    by_contra hne
    exact h.unmarked ha hne hmem
  obtain ⟨chunks, hsplit, hchunks⟩ := h.marked ha hsender
  have hline : d.queue ++ d.flight = [[]] := by
    cases chunks with
    | nil => exact hsplit
    | cons c chunks =>
        rw [hqueue, List.cons_append, List.cons_append] at hsplit
        exact absurd (List.mem_cons.mpr (.inl (List.cons.inj hsplit).1)) hchunks
  have hunread : d.unread = [] := by
    rcases h.sending with hs | ⟨c, hs, -⟩ | ⟨-, hu⟩
    · rw [hsender] at hs
      contradiction
    · rw [hsender] at hs
      contradiction
    · exact hu
  have haccount := h.account ha
  rw [pending, hline, hselect, hsender, hunread] at haccount
  refine ⟨?_, hsender⟩
  simpa only [Receiver.held, Sender.held, List.nil_append, List.flatten_cons, List.flatten_nil,
    List.append_nil] using haccount

/-- The marker is published after everything was read. -/
theorem Kept.unread_of_marker (h : Kept data d) {chunk : Bytes}
    (publishing : d.sender = .publishing chunk) (hc : chunk = []) : d.unread = [] := by
  rcases h.sending with hs | ⟨c, hs, hunread⟩ | ⟨hs, -⟩
  · rw [publishing] at hs
    contradiction
  · rw [publishing] at hs
    obtain rfl := Sender.publishing.inj hs
    exact hunread hc
  · rw [publishing] at hs
    contradiction

theorem Kept.publish (h : Kept data d) {chunk : Bytes} (publishing : d.sender = .publishing chunk) :
    Kept data { d with
      flight := d.flight ++ [chunk]
      sender := if chunk = [] then .ended .eof else .select } := by
  have hne : d.sender ≠ .ended .eof := by rw [publishing]; nofun
  have ha : d.receiver.active := h.active_of_sending hne
  have hclean := h.unmarked ha hne
  refine ⟨fun _ => ?_, ?_, fun _ hs => ?_, fun _ hs => ?_, fun hr => absurd ha hr⟩
  · rw [← h.account ha]
    by_cases hc : chunk = [] <;> simp [pending, publishing, hc, Sender.held]
  · by_cases hc : chunk = []
    · exact .inr (.inr ⟨if_pos hc, h.unread_of_marker publishing hc⟩)
    · exact .inl (if_neg hc)
  · have hc : chunk ≠ [] := fun hc => hs (if_pos hc)
    simpa [← List.append_assoc] using ⟨by simpa using hclean, hc⟩
  · have hc : chunk = [] := by
      by_contra hc
      have hsel : (if chunk = [] then Sender.ended .eof else .select) = .ended .eof := hs
      rw [if_neg hc] at hsel
      contradiction
    exact ⟨d.queue ++ d.flight, by simp [hc], hclean⟩

theorem Kept.move (h : Kept data d) (m : Move d d') : Kept data d' := by
  cases m with
  | inject chunk rest select split nonempty =>
      have ha : d.receiver.active := h.active_of_sending (by rw [select]; nofun)
      refine ⟨fun _ => ?_, .inl select, fun _ _ => ?_, fun _ he => ?_, fun hr => absurd ha hr⟩
      · rw [← h.account ha]
        simp [pending, select, split, Sender.held]
      · have hclean := h.unmarked ha (by rw [select]; nofun)
        simpa [← List.append_assoc] using ⟨by simpa using hclean, nonempty⟩
      · rw [select] at he
        contradiction
  | read chunk rest select split eof =>
      have ha : d.receiver.active := h.active_of_sending (by rw [select]; nofun)
      refine ⟨fun _ => ?_, .inr (.inl ⟨chunk, rfl, eof⟩), fun _ _ => ?_, nofun,
        fun hr => absurd ha hr⟩
      · rw [← h.account ha]
        simp [pending, select, split, Sender.held]
      · exact h.unmarked ha (by rw [select]; nofun)
  | publish chunk publishing => exact h.publish publishing
  | arrive chunk rest flight =>
      have hline : d.queue ++ [chunk] ++ rest = d.queue ++ d.flight := by simp [flight]
      refine ⟨fun ha => ?_, h.sending, fun ha hs => ?_, fun ha hs => ?_, h.finished⟩
      · rw [← h.account ha, pending, pending, hline]
      · exact hline ▸ h.unmarked ha hs
      · exact hline ▸ h.marked ha hs
  | hand x rest select queue nonempty =>
      have ha : d.receiver.active := by rw [select]; trivial
      refine ⟨fun _ => ?_, h.sending, fun _ hs => ?_, fun _ hs => ?_, fun hr => absurd trivial hr⟩
      · rw [← h.account ha]
        simp [pending, select, queue, Receiver.held]
      · have hclean := h.unmarked ha hs
        rw [queue] at hclean
        exact fun hmem => hclean (List.mem_cons_of_mem _ hmem)
      · obtain ⟨chunks, hsplit, hchunks⟩ := h.marked ha hs
        rw [queue, List.cons_append] at hsplit
        cases chunks with
        | nil => exact absurd (List.cons.inj hsplit).1 nonempty
        | cons c chunks =>
            exact ⟨chunks, (List.cons.inj hsplit).2, fun hmem => hchunks (List.mem_cons_of_mem _ hmem)⟩
  | wrote x writing =>
      have ha : d.receiver.active := by rw [writing]; trivial
      refine ⟨fun _ => ?_, h.sending, fun _ => h.unmarked ha, fun _ => h.marked ha,
        fun hr => absurd trivial hr⟩
      rw [← h.account ha]
      simp [pending, writing, Receiver.held]
  | mark rest r select queue left =>
      exact ⟨fun ha => absurd ha left, h.sending, fun ha => absurd ha left,
        fun ha => absurd ha left, fun _ => h.of_marker select queue⟩
  | late d' before after sender unread written =>
      refine ⟨fun ha => absurd ha after, ?_, fun ha => absurd ha after,
        fun ha => absurd ha after, fun _ => ?_⟩
      · rw [sender, unread]
        exact h.sending
      · rw [sender, written]
        exact h.finished before

/-- A receiving task may leave an empty pipe whose sending end is done. -/
theorem Kept.leave (h : Kept data d) (hsender : d.sender = .ended .eof)
    (ha : d.receiver.active) (hempty : d.pending.flatten = []) : d.written.flatten = data := by
  have haccount := h.account ha
  rcases h.sending with hs | ⟨c, hs, -⟩ | ⟨-, hunread⟩
  · rw [hsender] at hs
    contradiction
  · rw [hsender] at hs
    contradiction
  · rw [hempty, hsender, hunread] at haccount
    simpa only [Sender.held, List.flatten_nil, List.nil_append, List.append_nil] using haccount

/-- A receiving task that leaves a pipe with bytes in it has not written all of them. -/
theorem Kept.lossy (h : Kept data d) (ha : d.receiver.active) (hne : d.pending.flatten ≠ []) :
    d.written.flatten ≠ data := by
  intro heq
  have haccount := h.account ha
  rw [heq, List.append_right_eq_self, List.append_eq_nil_iff] at haccount
  exact hne haccount.1

end Direction

/-- The direction from the sending task of `src` to the receiving task of `dst`. -/
def Direction.between (unread : Bytes) (src : Relay) (flight : List Bytes) (dst : Relay) :
    Direction :=
  ⟨unread, src.sender, flight, dst.channel.queue.map Sample.payload, dst.receiver,
    dst.written.map Sample.payload⟩

/-- The relay actions that are no fault. -/
def RelayAction.faultless : RelayAction → Bool
  | .miss _ | .trip | .errorSignal | .listenerDrain => false
  | .writeDone ok | .closeDone ok | .publishDone ok => ok
  | .read result => result.isSome
  | _ => true

namespace Relay

open Direction

variable {cfg : RelayConfig} {s s' dst : Relay} {a : RelayAction} {data unread : Bytes}
  {flight : List Bytes}

/-- An active receiving task has its channel, its callback and its open socket. -/
def Tidy (s : Relay) : Prop :=
  s.receiver.active → s.channel.closed = false ∧ s.closes = [] ∧ s.callbackDropped = false

theorem tidy_init (cfg : RelayConfig) : (init cfg).Tidy := fun _ => ⟨rfl, rfl, rfl⟩

theorem Tidy.of_left (h : ¬ s.receiver.active) : s.Tidy := fun ha => absurd ha h

/-- The sending task and the token stay as they are. -/
def SameSending (s s' : Relay) : Prop := s'.sender = s.sender ∧ s'.cancelled = s.cancelled

/-- The receiving task and what it holds stay as they are. -/
def SameReceiving (s s' : Relay) : Prop :=
  s'.receiver = s.receiver ∧ s'.channel = s.channel ∧ s'.written = s.written ∧
    s'.closes = s.closes ∧ s'.callbackDropped = s.callbackDropped

theorem SameReceiving.tidy (h : SameReceiving s s') (ht : s.Tidy) : s'.Tidy := by
  obtain ⟨hr, hc, -, hcl, hd⟩ := h
  intro ha
  rw [hc, hcl, hd]
  exact ht (hr ▸ ha)

theorem SameReceiving.between (h : SameReceiving s s') (src : Relay) :
    between unread src flight s' = between unread src flight s := by
  obtain ⟨hr, hc, hw, -, -⟩ := h
  rw [Direction.between, Direction.between, hr, hc, hw]

theorem SameSending.between (h : SameSending s s') (dst : Relay) :
    between unread s' flight dst = between unread s flight dst := by
  rw [Direction.between, Direction.between, h.1]

/-- What a faultless internal action of a tidy relay can do. -/
inductive Internal (s : Relay) (a : RelayAction) (s' : Relay) : Prop
  | taken (taken : Taken s s')
  | wrote (x : Sample) (writing : s.receiver = .writing x)
      (eq : s' = { s with written := s.written ++ [x], receiver := .select })
  /-- A receiving task that has left its loop returns or is aborted. -/
  | settled (before : ¬ s.receiver.active) (after : ¬ s'.receiver.active)
      (written : s'.written = s.written) (same : SameSending s s')
  /-- An active receiving task leaves its loop because the token is tripped. -/
  | left (tripped : s.cancelled = true) (before : s.receiver.active) (after : ¬ s'.receiver.active)
      (arm : a = .receiverCancelled ∨ a = .abortReceiver)
      (written : s'.written = s.written) (same : SameSending s s')
  | senderLeft (tripped : s.cancelled = true) (arm : s.sender.finished = false)

theorem internal_inv (h : Relay.step cfg s a = some s') (hi : a.internal = true)
    (hf : a.faultless = true) (ht : s.Tidy) : Internal s a s' := by
  cases step_branch h with
  | delivered | read | readFailed | published | publishFailed | tornDown | dropped =>
      exact Bool.noConfusion hi
  | missed | tripped | errorSignalled | listenerDrained | writeFailed | halfCloseFailed =>
      exact Bool.noConfusion hf
  | taken taken => exact .taken taken
  | deserted select dropped drained =>
      have hkept := (ht (by rw [select]; trivial)).2.2
      rw [dropped] at hkept
      contradiction
  | shuts select token =>
      exact .left token (by rw [select]; trivial) id (.inl rfl) rfl ⟨rfl, rfl⟩
  | wrote sample writing => exact .wrote sample writing rfl
  | halfClosed closing | shut ok closing =>
      exact .settled (by rw [closing]; exact id) id rfl ⟨rfl, rfl⟩
  | senderReset select token => exact .senderLeft token (by rw [select]; rfl)
  | receiverAborted token running =>
      by_cases ha : s.receiver.active
      · exact .left token ha id (.inr rfl) rfl ⟨rfl, rfl⟩
      · exact .settled ha id rfl ⟨rfl, rfl⟩
  | senderAborted token running => exact .senderLeft token running

/-- The sending task of a relay goes on unless the token is tripped. -/
theorem Internal.sameSending (h : Internal s a s')
    (hkeeps : s.cancelled = true → s.sender.finished = true) : SameSending s s' := by
  cases h with
  | taken taken =>
      cases taken with
      | marker x channel select head empty eq => exact eq ▸ ⟨rfl, rfl⟩
      | data x channel select head nonempty eq => exact eq ▸ ⟨rfl, rfl⟩
  | wrote x writing eq => exact eq ▸ ⟨rfl, rfl⟩
  | settled before after written same => exact same
  | left tripped before after arm written same => exact same
  | senderLeft tripped arm =>
      rw [hkeeps tripped] at arm
      contradiction

theorem Internal.tidy (h : Internal s a s') (ht : s.Tidy)
    (hkeeps : s.cancelled = true → s.sender.finished = true) : s'.Tidy := by
  cases h with
  | taken taken =>
      cases taken with
      | marker x channel select head empty eq =>
          subst eq
          exact .of_left id
      | data x channel select head nonempty eq =>
          obtain ⟨hopen, hcloses, hdropped⟩ := ht (by rw [select]; trivial)
          have hclosed := (BoundedChannel.recv_some head).2.2
          subst eq
          exact fun _ => ⟨hclosed.trans hopen, hcloses, hdropped⟩
  | wrote x writing eq =>
      have hkept := ht (by rw [writing]; trivial)
      subst eq
      exact fun _ => hkept
  | settled before after written same => exact .of_left after
  | left tripped before after arm written same => exact .of_left after
  | senderLeft tripped arm =>
      rw [hkeeps tripped] at arm
      contradiction

/-- A receiving task that does not leave for a tripped token moves its direction on. -/
theorem Internal.kept (h : Internal s a s') {src : Relay}
    (hk : Kept data (between unread src flight s))
    (hkeeps : s.cancelled = true → s.sender.finished = true)
    (hstays : s.cancelled = true → s.receiver.active →
      a = .receiverCancelled ∨ a = .abortReceiver →
        src.sender = .ended .eof ∧ (between unread src flight s).pending.flatten = []) :
    Kept data (between unread src flight s') := by
  cases h with
  | taken taken =>
      cases taken with
      | marker x channel select head empty eq =>
          have hqueue := (BoundedChannel.recv_some head).1
          subst eq
          exact hk.move (.mark _ (channel.queue.map Sample.payload) (.closing .sendEof) select
            (by simp [between, hqueue, empty]) id)
      | data x channel select head nonempty eq =>
          have hqueue := (BoundedChannel.recv_some head).1
          subst eq
          exact hk.move (.hand _ x (channel.queue.map Sample.payload) select
            (by simp [between, hqueue]) nonempty)
  | wrote x writing eq =>
      subst eq
      have hmove := hk.move (.wrote _ x writing)
      simpa only [between, List.map_append, List.map_singleton] using hmove
  | settled before after written same =>
      exact hk.move (.late _ _ before after rfl rfl (by simp only [between, written]))
  | left tripped before after arm written same =>
      obtain ⟨hsender, hempty⟩ := hstays tripped before arm
      have hall := hk.leave hsender before hempty
      refine ⟨fun ha => absurd ha after, hk.sending, fun ha => absurd ha after,
        fun ha => absurd ha after, fun _ => ⟨?_, hsender⟩⟩
      simpa only [between, written] using hall
  | senderLeft tripped arm =>
      rw [hkeeps tripped] at arm
      contradiction

/-- A faultless read takes the next bytes of the stream. -/
theorem read_inv {result : Option Bytes} (h : Relay.step cfg s (.read result) = some s')
    (hf : result.isSome = true) :
    ∃ chunk, result = some chunk ∧ s.sender = .select ∧
      s' = { s with sender := .publishing chunk } := by
  cases step_branch h with
  | read chunk select => exact ⟨chunk, rfl, select, rfl⟩
  | readFailed select => cases hf

/-- A faultless publication. -/
theorem publishDone_inv (h : Relay.step cfg s (.publishDone true) = some s') :
    ∃ chunk, s.sender = .publishing chunk ∧ s' = { s with
      published := s.published ++ [chunk]
      sender := if chunk = [] then .ended .eof else .select } := by
  cases step_branch h with
  | published chunk publishing => exact ⟨chunk, publishing, rfl⟩

/-- A delivery without overflow is accepted, or discarded once the receiver is gone. -/
theorem delivered_kept {payload : Bytes} {rest : List Bytes} {src : Relay}
    (hd : Delivered cfg s payload s')
    (hroom : s.channel.closed = true ∨ s.channel.queue.length < s.channel.capacity) (ht : s.Tidy)
    (hk : Kept data (between unread src (payload :: rest) s)) :
    Kept data (between unread src rest s') ∧ s'.Tidy ∧ SameSending s s' ∧
      s'.receiver = s.receiver := by
  cases hd with
  | accepted channel room eq =>
      obtain ⟨hq, -, hclosed, hopen, -⟩ := BoundedChannel.trySend_ok room
      subst eq
      refine ⟨?_, fun ha => ⟨hclosed.trans hopen, (ht ha).2⟩, ⟨rfl, rfl⟩, rfl⟩
      have hmove := hk.move (.arrive _ payload rest rfl)
      simpa only [between, hq, nextSample, List.map_append, List.map_singleton] using hmove
  | discarded closed eq =>
      have hgone : ¬ s.receiver.active := by
        intro ha
        rw [(ht ha).1] at closed
        contradiction
      subst eq
      exact ⟨hk.move (.late _ _ hgone hgone rfl rfl rfl), .of_left hgone, ⟨rfl, rfl⟩, rfl⟩
  | refused full callback eq =>
      rw [full.1, full.2] at hroom
      simp at hroom

end Relay

namespace Connection

open Direction

variable {cfg : ConnectionConfig} {s s' : Connection} {a : ConnectionAction}

/-- From the client to the backend. Until the relay starts the initial buffer counts as
unread. -/
def up (cfg : ConnectionConfig) (s : Connection) : Direction :=
  between ((if s.phase = .setup ∨ s.phase = .declared then cfg.initialBuffer.getD [] else []) ++
    s.clientUnread) s.imp s.tx s.exp

/-- From the backend to the client. -/
def down (s : Connection) : Direction := between s.backendUnread s.exp s.rx s.imp

/-- The step is no fault: no read, write or publication fails, no sample is missed or
refused by a full channel, no error is signalled and nothing is shut down. -/
def FaultFree (s : Connection) : ConnectionAction → Prop
  | .startImport ok | .importPublish ok | .exportPublish ok => ok = true
  | .importer a | .exporter a => a.faultless = true
  | .clientRead result | .backendRead result => result.isSome = true
  | .deliverTx =>
      s.exp.channel.closed = true ∨ s.exp.channel.queue.length < s.exp.channel.capacity
  | .deliverRx =>
      s.imp.channel.closed = true ∨ s.imp.channel.queue.length < s.imp.channel.capacity
  | .client event => event ≠ .dialed false ∧ event ≠ .setupDone false ∧ event ≠ .die
  | _ => True

instance (s : Connection) : ∀ a, Decidable (FaultFree s a)
  | .startImport _ | .importPublish _ | .exportPublish _ => inferInstanceAs (Decidable (_ = _))
  | .importer _ | .exporter _ => inferInstanceAs (Decidable (_ = _))
  | .clientRead _ | .backendRead _ => inferInstanceAs (Decidable (_ = _))
  | .deliverTx | .deliverRx => inferInstanceAs (Decidable (_ ∨ _))
  | .client _ => inferInstanceAs (Decidable (_ ∧ _))
  | .declareToken | .liveliness | .removeSelf | .withdrawToken => inferInstanceAs (Decidable True)

/-- The write side of the backend's socket is closed: by the relay, or because the task
that owns the socket is over. -/
def BackendClosed (s : Connection) : Prop :=
  s.exp.closes ≠ [] ∨ s.exp.receiver.finished = true ∨
    ∃ t ∈ s.registry.tasks, t.phase.live = false

/-- The write side of the client's socket is closed. -/
def ClientClosed (s : Connection) : Prop :=
  s.imp.closes ≠ [] ∨ s.imp.receiver.finished = true ∨ s.phase = .withdrawn

/-- What the client sent is written to the backend before the write side of the backend
is closed, and the other way round. -/
def Lossless (cfg : ConnectionConfig) (s : Connection) : Prop :=
  (s.BackendClosed → (s.exp.written.map Sample.payload).flatten = cfg.upload) ∧
  (s.ClientClosed → (s.imp.written.map Sample.payload).flatten = cfg.backendBytes)

/-- An active receiving task of the export relay leaves through its `cancelled()` arm, or
is aborted, only when no byte of the client is in flight, queued or being written. -/
def DrainsFirst (cfg : ConnectionConfig) (s : Connection) (a : ConnectionAction) : Prop :=
  a = .exporter .receiverCancelled ∨ a = .exporter .abortReceiver →
    s.exp.receiver.active → (s.up cfg).pending.flatten = []

/-- What the client's task on the export side says about the export relay. -/
structure TaskInv (s : Connection) (t : ClientTask Unit) : Prop where
  cancel : t.CancelKept
  cancelSent : t.cancelSent = true → s.phase = .withdrawn
  starting : t.phase = .dialing ∨ t.phase = .setup → s.exp.sender = .select
  finished : t.phase.live = false → ¬ s.exp.receiver.active

/-- The invariant of the runs without a fault and without a loss. -/
structure Inv (cfg : ConnectionConfig) (s : Connection) : Prop where
  up : Kept cfg.upload (s.up cfg)
  down : Kept cfg.backendBytes s.down
  importTidy : s.imp.Tidy
  exportTidy : s.exp.Tidy
  importToken : s.imp.cancelled = false
  exportToken : s.exp.cancelled = true → s.phase = .withdrawn
  notStarted : s.phase = .setup ∨ s.phase = .declared → s.imp.sender = .select
  withdrawn : s.phase = .withdrawn → ¬ s.imp.receiver.active ∧ s.imp.sender = .ended .eof
  tasks : ∀ t ∈ s.registry.tasks, TaskInv s t
  single : s.registry.tasks.length ≤ 1
  unserved : s.registry.tasks = [] → s.exp.sender = .select
  fresh : s.phase = .setup → s.tokens = [] ∧ s.registry.tasks = []
  putFirst : .put ∈ s.tokens → s.registry.tasks = [] ∧ .put ∉ s.tokens.tail
  deleteLast : .delete ∈ s.tokens → s.phase = .withdrawn

theorem inv_init (cfg : ConnectionConfig) : Inv cfg (init cfg) where
  up := by
    refine ⟨fun _ => ?_, .inl rfl, fun _ _ => ?_, nofun, fun h => absurd trivial h⟩
    · simp [Connection.up, between, init, Relay.init, pending, Receiver.held, Sender.held,
        ConnectionConfig.upload]
    · simp [Connection.up, between, init, Relay.init]
  down := by
    refine ⟨fun _ => ?_, .inl rfl, fun _ _ => ?_, nofun, fun h => absurd trivial h⟩
    · simp [Connection.down, between, init, Relay.init, pending, Receiver.held, Sender.held]
    · simp [Connection.down, between, init, Relay.init]
  importTidy := Relay.tidy_init _
  exportTidy := Relay.tidy_init _
  importToken := rfl
  exportToken := nofun
  notStarted := fun _ => rfl
  withdrawn := nofun
  tasks := nofun
  single := Nat.zero_le _
  unserved := fun _ => rfl
  fresh := fun _ => ⟨rfl, rfl⟩
  putFirst := nofun
  deleteLast := nofun

theorem active_of_not_left {r : Relay} (ht : r.Tidy)
    (hc : r.closes ≠ [] ∨ r.receiver.finished = true) :
    ¬ r.receiver.active := by
  intro ha
  rcases hc with hc | hf
  · exact hc (ht ha).2.1
  · cases hr : r.receiver with
    | select | writing =>
        rw [hr] at hf
        contradiction
    | closing | ended | aborted =>
        rw [hr] at ha
        exact ha

theorem Inv.lossless (h : Inv cfg s) : Lossless cfg s := by
  constructor
  · rintro (hc | hf | ⟨t, ht, hover⟩)
    · exact (h.up.finished (active_of_not_left h.exportTidy (.inl hc))).1
    · exact (h.up.finished (active_of_not_left h.exportTidy (.inr hf))).1
    · exact (h.up.finished ((h.tasks t ht).finished hover)).1
  · rintro (hc | hf | hw)
    · exact (h.down.finished (active_of_not_left h.importTidy (.inl hc))).1
    · exact (h.down.finished (active_of_not_left h.importTidy (.inr hf))).1
    · exact (h.down.finished (h.withdrawn hw).1).1

/-- A tripped export token means that both sending tasks have published their marker. -/
theorem Inv.senders_done (h : Inv cfg s) (hw : s.phase = .withdrawn) :
    s.imp.sender = .ended .eof ∧ s.exp.sender = .ended .eof :=
  ⟨(h.withdrawn hw).2, (h.down.finished (h.withdrawn hw).1).2⟩

theorem Inv.relaying_task (h : Inv cfg s) {p : ClientPhase} (hp : s.taskPhase = some p)
    {t : ClientTask Unit} (ht : t ∈ s.registry.tasks) : t.phase = p := by
  obtain ⟨u, hu, rfl⟩ := Option.map_eq_some_iff.mp hp
  obtain ⟨k, hk⟩ := List.mem_iff_getElem?.mp ht
  have hlt := (List.getElem?_eq_some_iff.mp hk).1
  have hsingle := h.single
  obtain rfl : k = 0 := by omega
  rw [hk] at hu
  rw [Option.some.inj hu]

/-- A step of the import relay keeps the invariant when it keeps both directions. -/
theorem Inv.importing (h : Inv cfg s) {imp : Relay} {tx rx : List Bytes} {unread : Bytes}
    (up : Kept cfg.upload
      (Connection.up cfg { s with imp := imp, tx := tx, rx := rx, clientUnread := unread }))
    (down : Kept cfg.backendBytes (between s.backendUnread s.exp rx imp)) (tidy : imp.Tidy)
    (token : imp.cancelled = false)
    (ends : s.phase ≠ .relaying → imp.sender = s.imp.sender ∧ imp.receiver = s.imp.receiver) :
    Inv cfg { s with imp := imp, tx := tx, rx := rx, clientUnread := unread } := by
  refine ⟨up, down, tidy, h.exportTidy, token, h.exportToken, ?_, ?_,
    fun t ht => ⟨(h.tasks t ht).cancel, (h.tasks t ht).cancelSent, (h.tasks t ht).starting,
      (h.tasks t ht).finished⟩, h.single, h.unserved, h.fresh, h.putFirst, h.deleteLast⟩
  · intro hp
    have hne : s.phase ≠ .relaying := by
      rintro heq
      rcases hp with hp | hp <;> exact absurd (heq.symm.trans hp) (by decide)
    exact (ends hne).1.trans (h.notStarted hp)
  · intro hp
    have hne : s.phase ≠ .relaying := fun heq => absurd (heq.symm.trans hp) (by decide)
    obtain ⟨hsender, hreceiver⟩ := ends hne
    change ¬ imp.receiver.active ∧ imp.sender = .ended .eof
    rw [hsender, hreceiver]
    exact h.withdrawn hp

/-- A step of the export relay keeps the invariant when it keeps both directions. -/
theorem Inv.exporting (h : Inv cfg s) {exp : Relay} {tx rx : List Bytes} {unread : Bytes}
    (up : Kept cfg.upload
      (Connection.up cfg { s with exp := exp, tx := tx, rx := rx, backendUnread := unread }))
    (down : Kept cfg.backendBytes (between unread exp rx s.imp)) (tidy : exp.Tidy)
    (token : exp.cancelled = true → s.phase = .withdrawn)
    (ends : s.taskPhase ≠ some .relaying →
      exp.sender = s.exp.sender ∧ exp.receiver = s.exp.receiver) :
    Inv cfg { s with exp := exp, tx := tx, rx := rx, backendUnread := unread } := by
  refine ⟨up, down, h.importTidy, tidy, h.importToken, token, h.notStarted, h.withdrawn, ?_,
    h.single, ?_, h.fresh, h.putFirst, h.deleteLast⟩
  · intro t ht
    have inv := h.tasks t ht
    refine ⟨inv.cancel, inv.cancelSent, fun hp => ?_, fun hp => ?_⟩
    · have hne : s.taskPhase ≠ some .relaying := by
        intro heq
        rw [h.relaying_task heq ht] at hp
        rcases hp with hp | hp <;> contradiction
      exact (ends hne).1.trans (inv.starting hp)
    · have hne : s.taskPhase ≠ some .relaying := by
        intro heq
        rw [h.relaying_task heq ht] at hp
        contradiction
      change ¬ exp.receiver.active
      rw [(ends hne).2]
      exact inv.finished hp
  · intro (hnil : s.registry.tasks = [])
    have hne : s.taskPhase ≠ some .relaying := by
      intro heq
      simp only [taskPhase, hnil] at heq
      contradiction
    exact (ends hne).1.trans (h.unserved hnil)

/-- While the token of the import side stands, its sending task is not told to stop. -/
theorem Inv.import_keeps (h : Inv cfg s) :
    s.imp.cancelled = true → s.imp.sender.finished = true := by
  intro htripped
  rw [h.importToken] at htripped
  contradiction

/-- The export relay is told to stop only after its sending task has finished. -/
theorem Inv.export_keeps (h : Inv cfg s) :
    s.exp.cancelled = true → s.exp.sender.finished = true := by
  intro htripped
  rw [(h.senders_done (h.exportToken htripped)).2]
  rfl

theorem Inv.importer (h : Inv cfg s) {a : RelayAction} (hf : FaultFree s (.importer a))
    (hs : s.step cfg (.importer a) = some s') : Inv cfg s' := by
  simp only [step, Option.ite_none_right_eq_some] at hs
  obtain ⟨⟨hphase, hinternal⟩, hs⟩ := hs
  obtain ⟨imp, himp, rfl⟩ := Option.map_eq_some_iff.mp hs
  have hint := Relay.internal_inv himp hinternal hf h.importTidy
  have hsame := hint.sameSending h.import_keeps
  apply h.importing
  · have heq : Connection.up cfg { s with imp := imp } = s.up cfg := hsame.between s.exp
    exact heq ▸ h.up
  · apply hint.kept h.down h.import_keeps
    intro htripped
    rw [h.importToken] at htripped
    contradiction
  · exact hint.tidy h.importTidy h.import_keeps
  · exact hsame.2.trans h.importToken
  · exact fun hne => absurd hphase hne

theorem Inv.exporter (h : Inv cfg s) {a : RelayAction} (hf : FaultFree s (.exporter a))
    (hok : DrainsFirst cfg s (.exporter a))
    (hs : s.step cfg (.exporter a) = some s') : Inv cfg s' := by
  simp only [step, Option.ite_none_right_eq_some] at hs
  obtain ⟨⟨hphase, hinternal⟩, hs⟩ := hs
  obtain ⟨exp, hexp, rfl⟩ := Option.map_eq_some_iff.mp hs
  have hint := Relay.internal_inv hexp hinternal hf h.exportTidy
  have hsame := hint.sameSending h.export_keeps
  apply h.exporting
  · apply hint.kept h.up h.export_keeps
    intro htripped hactive harm
    refine ⟨(h.senders_done (h.exportToken htripped)).1, hok ?_ hactive⟩
    rcases harm with rfl | rfl
    · exact .inl rfl
    · exact .inr rfl
  · have heq : between s.backendUnread exp s.rx s.imp = s.down := hsame.between s.imp
    exact heq ▸ h.down
  · exact hint.tidy h.exportTidy h.export_keeps
  · exact fun htripped => h.exportToken (hsame.2 ▸ htripped)
  · exact fun hne => absurd hphase hne

/-- A faultless read of what is left of a stream. -/
theorem readable_split {unread chunk : Bytes} (h : Readable unread (some chunk)) :
    unread = chunk ++ rest unread (some chunk) ∧
      (chunk = [] → rest unread (some chunk) = []) := by
  obtain ⟨⟨left, rfl⟩, hempty⟩ := h
  refine ⟨by simp [rest], fun hnil => ?_⟩
  simp [rest, hempty hnil]

theorem Inv.clientRead (h : Inv cfg s) {result : Option Bytes}
    (hf : FaultFree s (.clientRead result))
    (hs : s.step cfg (.clientRead result) = some s') : Inv cfg s' := by
  simp only [step, Option.ite_none_right_eq_some] at hs
  obtain ⟨⟨hphase, hreadable⟩, hs⟩ := hs
  obtain ⟨imp, himp, rfl⟩ := Option.map_eq_some_iff.mp hs
  obtain ⟨chunk, rfl, hselect, rfl⟩ := Relay.read_inv himp hf
  obtain ⟨hsplit, heof⟩ := readable_split hreadable
  have hnot : ¬ (s.phase = .setup ∨ s.phase = .declared) := by rw [hphase]; decide
  have hup := h.up
  simp only [Connection.up, if_neg hnot, List.nil_append] at hup
  refine h.importing ?_ h.down h.importTidy h.importToken fun hne => absurd hphase hne
  simp only [Connection.up, if_neg hnot, List.nil_append]
  exact hup.move (.read _ chunk _ hselect hsplit heof)

theorem Inv.backendRead (h : Inv cfg s) {result : Option Bytes}
    (hf : FaultFree s (.backendRead result))
    (hs : s.step cfg (.backendRead result) = some s') : Inv cfg s' := by
  simp only [step, Option.ite_none_right_eq_some] at hs
  obtain ⟨⟨hphase, hreadable⟩, hs⟩ := hs
  obtain ⟨exp, hexp, rfl⟩ := Option.map_eq_some_iff.mp hs
  obtain ⟨chunk, rfl, hselect, rfl⟩ := Relay.read_inv hexp hf
  obtain ⟨hsplit, heof⟩ := readable_split hreadable
  refine h.exporting h.up ?_ h.exportTidy h.exportToken fun hne => absurd hphase hne
  exact h.down.move (.read _ chunk _ hselect hsplit heof)

theorem put_publishing (data : Bytes) (flight : List Bytes) :
    put true (.publishing data) flight = flight ++ [data] := rfl

theorem Inv.importPublish (h : Inv cfg s) {ok : Bool} (hf : FaultFree s (.importPublish ok))
    (hs : s.step cfg (.importPublish ok) = some s') : Inv cfg s' := by
  obtain rfl : ok = true := hf
  simp only [step, Option.ite_none_right_eq_some] at hs
  obtain ⟨hphase, hs⟩ := hs
  obtain ⟨imp, himp, rfl⟩ := Option.map_eq_some_iff.mp hs
  obtain ⟨chunk, hpublishing, rfl⟩ := Relay.publishDone_inv himp
  refine h.importing ?_ h.down h.importTidy h.importToken fun hne => absurd hphase hne
  rw [hpublishing, put_publishing]
  exact h.up.move (.publish _ chunk hpublishing)

theorem Inv.exportPublish (h : Inv cfg s) {ok : Bool} (hf : FaultFree s (.exportPublish ok))
    (hs : s.step cfg (.exportPublish ok) = some s') : Inv cfg s' := by
  obtain rfl : ok = true := hf
  simp only [step, Option.ite_none_right_eq_some] at hs
  obtain ⟨hphase, hs⟩ := hs
  obtain ⟨exp, hexp, rfl⟩ := Option.map_eq_some_iff.mp hs
  obtain ⟨chunk, hpublishing, rfl⟩ := Relay.publishDone_inv hexp
  refine h.exporting h.up ?_ h.exportTidy h.exportToken fun hne => absurd hphase hne
  rw [hpublishing, put_publishing]
  exact h.down.move (.publish _ chunk hpublishing)

theorem Inv.deliverTx (h : Inv cfg s) (hf : FaultFree s .deliverTx)
    (hs : s.step cfg .deliverTx = some s') : Inv cfg s' := by
  simp only [step] at hs
  split at hs
  · contradiction
  rename_i payload tx htx
  rw [Option.ite_none_right_eq_some] at hs
  obtain ⟨exp, hexp, rfl⟩ := Option.map_eq_some_iff.mp hs.2
  have hup := h.up
  rw [Connection.up, htx] at hup
  obtain ⟨hkept, htidy, hsame, hreceiver⟩ :=
    Relay.delivered_kept (Relay.deliver_inv hexp) hf h.exportTidy hup
  refine h.exporting hkept ?_ htidy (fun ht => h.exportToken (hsame.2 ▸ ht))
    fun _ => ⟨hsame.1, hreceiver⟩
  rw [hsame.between]
  exact h.down

theorem Inv.deliverRx (h : Inv cfg s) (hf : FaultFree s .deliverRx)
    (hs : s.step cfg .deliverRx = some s') : Inv cfg s' := by
  simp only [step] at hs
  split at hs
  · contradiction
  rename_i payload rx hrx
  obtain ⟨imp, himp, rfl⟩ := Option.map_eq_some_iff.mp hs
  have hdown := h.down
  rw [Connection.down, hrx] at hdown
  obtain ⟨hkept, htidy, hsame, hreceiver⟩ :=
    Relay.delivered_kept (Relay.deliver_inv himp) hf h.importTidy hdown
  refine h.importing ?_ hkept htidy (hsame.2.trans h.importToken) fun _ => ⟨hsame.1, hreceiver⟩
  rw [Connection.up, hsame.between]
  exact h.up

theorem Inv.declareToken (h : Inv cfg s) (hs : s.step cfg .declareToken = some s') :
    Inv cfg s' := by
  simp only [step, Option.ite_none_right_eq_some] at hs
  obtain ⟨hphase, hs⟩ := hs
  obtain rfl := Option.some.inj hs
  obtain ⟨htokens, htasks⟩ := h.fresh hphase
  have hup := h.up
  rw [Connection.up, if_pos (.inl hphase)] at hup
  refine ⟨hup, h.down, h.importTidy, h.exportTidy, h.importToken, ?_, ?_, nofun, ?_, h.single,
    h.unserved, nofun, ?_, ?_⟩
  · exact fun ht => absurd ((h.exportToken ht).symm.trans hphase) (by decide)
  · exact fun _ => h.notStarted (.inl hphase)
  · intro t ht
    rw [htasks] at ht
    contradiction
  · simp [htokens, htasks]
  · simp [htokens]

theorem Inv.startImport (h : Inv cfg s) {ok : Bool} (hf : FaultFree s (.startImport ok))
    (hs : s.step cfg (.startImport ok) = some s') : Inv cfg s' := by
  obtain rfl : ok = true := hf
  simp only [step, Option.ite_none_right_eq_some, if_true] at hs
  obtain ⟨hphase, hs⟩ := hs
  obtain rfl := Option.some.inj hs
  have hselect := h.notStarted (.inr hphase)
  have hup := h.up
  rw [Connection.up, if_pos (.inr hphase)] at hup
  have hnot : ∀ p, p = .withdrawn → s.phase ≠ p := fun p hp heq =>
    absurd (hphase.symm.trans (heq.trans hp)) (by decide)
  refine ⟨?_, h.down, h.importTidy, h.exportTidy, h.importToken, ?_, nofun, nofun, ?_, h.single,
    h.unserved, nofun, h.putFirst, ?_⟩
  · -- the initial buffer goes from the unread bytes to the samples in flight
    cases hbuffer : cfg.initialBuffer with
    | none => simpa [Connection.up, hbuffer] using hup
    | some buffer =>
        have hne : buffer ≠ [] := cfg.initial_ne_nil buffer hbuffer
        have hmove := hup.move (.inject _ buffer s.clientUnread hselect
          (by simp [between, hbuffer]) hne)
        simpa [Connection.up, between, hbuffer] using hmove
  · exact fun ht => absurd (h.exportToken ht) (hnot _ rfl)
  · intro t ht
    have inv := h.tasks t ht
    exact ⟨inv.cancel, fun hc => absurd (inv.cancelSent hc) (hnot _ rfl), inv.starting, inv.finished⟩
  · exact fun hd => absurd (h.deleteLast hd) (hnot _ rfl)

theorem Inv.withdrawToken (h : Inv cfg s) (hs : s.step cfg .withdrawToken = some s') :
    Inv cfg s' := by
  simp only [step, Option.ite_none_right_eq_some] at hs
  obtain ⟨⟨hphase, hreceiver, hsender⟩, hs⟩ := hs
  obtain rfl := Option.some.inj hs
  have hleft := active_of_not_left h.importTidy (.inr hreceiver)
  have heof : s.imp.sender = .ended .eof := by
    rcases h.up.sending with hsel | ⟨c, hpub, -⟩ | ⟨heof, -⟩
    · rw [show s.imp.sender = .select from hsel] at hsender
      contradiction
    · rw [show s.imp.sender = .publishing c from hpub] at hsender
      contradiction
    · exact heof
  have hup := h.up
  rw [Connection.up, hphase] at hup
  refine ⟨hup, h.down, .of_left hleft, h.exportTidy, h.importToken, fun _ => rfl, nofun,
    fun _ => ⟨hleft, heof⟩, ?_, h.single, h.unserved, nofun, ?_, fun _ => rfl⟩
  · intro t ht
    have inv := h.tasks t ht
    exact ⟨inv.cancel, fun _ => rfl, inv.starting, inv.finished⟩
  · intro hput
    have hold : .put ∈ s.tokens := by simpa using hput
    obtain ⟨htasks, htail⟩ := h.putFirst hold
    refine ⟨htasks, ?_⟩
    rw [List.tail_append_of_ne_nil (List.ne_nil_of_mem hold)]
    simpa using htail

/-- The export loop or the task of the client acts; both relays stay as they are. -/
theorem Inv.serving (h : Inv cfg s) {registry : Registry Unit} {tokens : List SampleKind}
    (tasks : ∀ t ∈ registry.tasks, TaskInv s t) (single : registry.tasks.length ≤ 1)
    (unserved : registry.tasks = [] → s.exp.sender = .select)
    (fresh : s.phase = .setup → tokens = [] ∧ registry.tasks = [])
    (putFirst : .put ∈ tokens → registry.tasks = [] ∧ .put ∉ tokens.tail)
    (deleteLast : .delete ∈ tokens → s.phase = .withdrawn) :
    Inv cfg { s with registry := registry, tokens := tokens } :=
  ⟨h.up, h.down, h.importTidy, h.exportTidy, h.importToken, h.exportToken, h.notStarted,
    h.withdrawn, fun t ht => ⟨(tasks t ht).cancel, (tasks t ht).cancelSent, (tasks t ht).starting,
      (tasks t ht).finished⟩, single, unserved, fresh, putFirst, deleteLast⟩

/-- The first token event starts the task of the client. -/
theorem Inv.livelinessPut (h : Inv cfg s) {tokens : List SampleKind}
    (htokens : s.tokens = .put :: tokens) {registry : Registry Unit}
    (hr : s.registry.step (.put ()) = some registry) :
    Inv cfg { s with registry := registry, tokens := tokens } := by
  obtain ⟨hnone, htail⟩ := h.putFirst (by simp [htokens])
  have hphase : s.phase ≠ .setup := by
    intro hp
    rw [(h.fresh hp).1] at htokens
    contradiction
  rw [htokens, List.tail_cons] at htail
  cases Registry.step_branch hr with
  | put _ live =>
  have htasks : (s.registry.dispatchClientConnect ()).tasks = [] ∨
      (s.registry.dispatchClientConnect ()).tasks = [.spawn ()] := by
    unfold Registry.dispatchClientConnect
    split
    · exact .inl hnone
    · simp [hnone]
  apply h.serving
  · intro t ht
    rcases htasks with htasks | htasks
    · rw [htasks] at ht
      contradiction
    · rw [htasks, List.mem_singleton] at ht
      subst ht
      exact ⟨ClientTask.spawn_cancelKept (), nofun, fun _ => h.unserved hnone, nofun⟩
  · rcases htasks with htasks | htasks <;> simp [htasks]
  · exact fun _ => h.unserved hnone
  · exact fun hp => absurd hp hphase
  · exact fun hput => absurd hput htail
  · exact fun hd => h.deleteLast (by simp [htokens, hd])

/-- The withdrawal of the token sends the task its cancel. -/
theorem Inv.livelinessDelete (h : Inv cfg s) {tokens : List SampleKind}
    (htokens : s.tokens = .delete :: tokens) {registry : Registry Unit}
    (hr : s.registry.step (.delete ()) = some registry) :
    Inv cfg { s with registry := registry, tokens := tokens } := by
  have hphase : s.phase = .withdrawn := h.deleteLast (by simp [htokens])
  cases Registry.step_branch hr with
  | delete _ live =>
  have htasks : (s.registry.handleClientDisconnect ()).tasks = s.registry.tasks ∨
      ∃ k, (s.registry.handleClientDisconnect ()).tasks =
        s.registry.tasks.modify k .sendCancel := by
    unfold Registry.handleClientDisconnect
    split
    · exact .inl rfl
    · rename_i k hk
      exact .inr ⟨k, rfl⟩
  have hlength : (s.registry.handleClientDisconnect ()).tasks.length = s.registry.tasks.length := by
    rcases htasks with htasks | ⟨k, htasks⟩ <;> simp [htasks]
  have hnil : (s.registry.handleClientDisconnect ()).tasks = [] ↔ s.registry.tasks = [] := by
    rw [← List.length_eq_zero_iff, hlength, List.length_eq_zero_iff]
  apply h.serving
  · intro t ht
    rcases htasks with htasks | ⟨k, htasks⟩
    · exact h.tasks t (htasks ▸ ht)
    · rw [htasks] at ht
      obtain ⟨i, hi⟩ := List.mem_iff_getElem?.mp ht
      rw [List.getElem?_modify] at hi
      obtain ⟨u, hu, rfl⟩ := Option.map_eq_some_iff.mp hi
      have inv := h.tasks u (List.mem_of_getElem? hu)
      split
      · exact ⟨inv.cancel.sendCancel, fun _ => hphase, inv.starting, inv.finished⟩
      · exact inv
  · exact hlength.trans_le h.single
  · exact fun hn => h.unserved (hnil.mp hn)
  · exact fun hp => absurd (hp.symm.trans hphase) (by decide)
  · intro hput
    have hold : .put ∈ s.tokens := htokens ▸ List.mem_cons_of_mem _ hput
    have htail := (h.putFirst hold).2
    rw [htokens, List.tail_cons] at htail
    exact absurd hput htail
  · exact fun _ => hphase

theorem Inv.liveliness (h : Inv cfg s) (hs : s.step cfg .liveliness = some s') : Inv cfg s' := by
  simp only [step] at hs
  split at hs
  · contradiction
  rename_i kind tokens htokens
  obtain ⟨registry, hr, rfl⟩ := Option.map_eq_some_iff.mp hs
  cases kind with
  | put => exact h.livelinessPut htokens hr
  | delete => exact h.livelinessDelete htokens hr

/-- One task is replaced by its successor. -/
theorem Inv.replaceTask (h : Inv cfg s) {k : Nat} {t u : ClientTask Unit} {r : Registry Unit}
    (ht : s.registry.tasks[k]? = some t) (hr : r.tasks = s.registry.tasks.set k u)
    (hu : TaskInv s u) : Inv cfg { s with registry := r } := by
  have hne : s.registry.tasks ≠ [] := List.ne_nil_of_mem (List.mem_of_getElem? ht)
  have hnil : r.tasks ≠ [] := by
    rw [hr]
    simpa using hne
  apply h.serving
  · intro v hv
    rw [hr] at hv
    rcases List.mem_or_eq_of_mem_set hv with hv | rfl
    · exact h.tasks v hv
    · exact hu
  · rw [hr, List.length_set]
    exact h.single
  · exact fun hn => absurd hn hnil
  · exact fun hp => absurd (h.fresh hp).2 hne
  · exact fun hp => absurd (h.putFirst hp).1 hne
  · exact h.deleteLast

/-- A cancel waits in the channel of the task only after the token was withdrawn. -/
theorem TaskInv.withdrawn_of_recv {t : ClientTask Unit} (h : TaskInv s t)
    {channel : BoundedChannel Unit} (taken : t.cancel.recv = some ((), channel)) :
    s.phase = .withdrawn := by
  apply h.cancelSent
  exact eq_true_of_ne_false (h.cancel.sent_of_recv taken)

theorem Inv.client (h : Inv cfg s) {event : TaskEvent} (hf : FaultFree s (.client event))
    (hs : s.step cfg (.client event) = some s') : Inv cfg s' := by
  obtain ⟨hdial, hsetup, hdie⟩ := hf
  cases htask : s.registry.tasks[0]? with
  | none => simp [step, clientStep, Registry.step, htask] at hs
  | some t =>
  have inv := h.tasks t (List.mem_of_getElem? htask)
  cases hnext : t.step event with
  | none => simp [step, clientStep, Registry.step, htask, hnext] at hs
  | some u =>
  have hcancel := inv.cancel.step hnext
  have hsent := (ClientTask.step_frame hnext).2.1
  simp only [step, clientStep, Registry.step, htask, hnext, Option.map_some] at hs
  cases ClientTask.step_branch hnext with
  | die => exact absurd rfl hdie
  | setupFailed setup => exact absurd rfl hsetup
  | dialCancelled channel dialing taken =>
      have hselect := inv.starting (.inl dialing)
      rw [(h.senders_done (inv.withdrawn_of_recv taken)).2] at hselect
      contradiction
  | dialed ok dialing =>
      obtain rfl : ok = true := by
        cases ok with
        | true => rfl
        | false => exact absurd rfl hdial
      obtain rfl := Option.some.inj hs
      exact h.replaceTask htask rfl
        ⟨hcancel, inv.cancelSent, fun _ => inv.starting (.inl dialing), by rintro ⟨⟩⟩
  | setupDone setup =>
      obtain rfl := Option.some.inj hs
      exact h.replaceTask htask rfl ⟨hcancel, inv.cancelSent, by simp, by rintro ⟨⟩⟩
  | watcherTakes channel relaying taken =>
      have hwithdrawn := inv.withdrawn_of_recv taken
      obtain ⟨exp, hexp, rfl⟩ := Option.map_eq_some_iff.mp hs
      obtain ⟨-, rfl⟩ := Relay.cancelFrom_inv hexp
      have hreplaced := h.replaceTask htask (r := { s.registry with tasks := _ }) rfl
        ⟨hcancel, inv.cancelSent, inv.starting, inv.finished⟩
      exact hreplaced.exporting hreplaced.up hreplaced.down hreplaced.exportTidy
        (fun _ => hwithdrawn) fun _ => ⟨rfl, rfl⟩
  | relayDone relaying =>
      simp only [Option.ite_none_right_eq_some] at hs
      obtain ⟨⟨hreceiver, -⟩, hs⟩ := hs
      obtain rfl := Option.some.inj hs
      have hleft := active_of_not_left h.exportTidy (.inr hreceiver)
      have hreplaced := h.replaceTask htask (r := { s.registry with tasks := _ }) rfl
        ⟨hcancel, inv.cancelSent, by simp, fun _ => hleft⟩
      exact hreplaced.exporting hreplaced.up hreplaced.down (.of_left hleft)
        hreplaced.exportToken fun _ => ⟨rfl, rfl⟩

theorem Inv.removeSelf (h : Inv cfg s) (hs : s.step cfg .removeSelf = some s') : Inv cfg s' := by
  obtain ⟨registry, hr, rfl⟩ := Option.map_eq_some_iff.mp hs
  obtain ⟨t, ht, hphase, rfl⟩ := Registry.removeSelf_inv hr
  have inv := h.tasks t (List.mem_of_getElem? ht)
  refine h.replaceTask ht rfl ⟨.of_over rfl inv.cancel.slot fun _ => rfl, inv.cancelSent, by simp, ?_⟩
  exact fun _ => inv.finished (by rw [hphase]; rfl)

theorem Inv.step (h : Inv cfg s) (hf : FaultFree s a) (hok : DrainsFirst cfg s a)
    (hs : s.step cfg a = some s') : Inv cfg s' := by
  cases a with
  | declareToken => exact h.declareToken hs
  | startImport ok => exact h.startImport hf hs
  | importer a => exact h.importer hf hs
  | exporter a => exact h.exporter hf hok hs
  | clientRead result => exact h.clientRead hf hs
  | backendRead result => exact h.backendRead hf hs
  | importPublish ok => exact h.importPublish hf hs
  | exportPublish ok => exact h.exportPublish hf hs
  | deliverTx => exact h.deliverTx hf hs
  | deliverRx => exact h.deliverRx hf hs
  | liveliness => exact h.liveliness hs
  | client event => exact h.client hf hs
  | removeSelf => exact h.removeSelf hs
  | withdrawToken => exact h.withdrawToken hs

/-- Leaving a pipe that still holds bytes closes the backend's socket without them. -/
theorem Inv.lossy (h : Inv cfg s) (hbad : ¬ DrainsFirst cfg s a)
    (hs : s.step cfg a = some s') : ¬ Lossless cfg s' := by
  simp only [DrainsFirst, not_forall] at hbad
  obtain ⟨harm, hactive, hpending⟩ := hbad
  have hlost := h.up.lossy hactive hpending
  rintro ⟨hbackend, -⟩
  rcases harm with rfl | rfl
  · simp only [Connection.step, Option.ite_none_right_eq_some] at hs
    obtain ⟨exp, hexp, rfl⟩ := Option.map_eq_some_iff.mp hs.2
    cases Relay.step_branch hexp with
    | shuts select token => exact hlost (hbackend (.inl (by simp)))
  · simp only [Connection.step, Option.ite_none_right_eq_some] at hs
    obtain ⟨exp, hexp, rfl⟩ := Option.map_eq_some_iff.mp hs.2
    cases Relay.step_branch hexp with
    | receiverAborted token running => exact hlost (hbackend (.inr (.inl rfl)))

/-- In every fault-free run, whatever the order of the two half-closes, of the messages
and of the `select!` arms, no byte is lost at close exactly when the receiving task of
the export relay never leaves for a tripped token while bytes of the client are in
flight, queued or being written. -/
theorem lossless_iff_drainsFirst (cfg : ConnectionConfig) (schedule : List ConnectionAction)
    (hf : Along (step cfg) FaultFree (init cfg) schedule) :
    Always (step cfg) (Lossless cfg) (init cfg) schedule ↔
      Along (step cfg) (DrainsFirst cfg) (init cfg) schedule :=
  always_iff_along FaultFree (fun _ => Inv.lossless)
    (fun _ _ _ h hf hok hs => h.step hf hok hs)
    (fun _ _ _ h _ hbad hs => h.lossy hbad hs)
    (inv_init cfg) hf

instance (s : Connection) (a : ConnectionAction) : Decidable (DrainsFirst cfg s a) :=
  inferInstanceAs (Decidable (_ → _ → _))

/-- A client and a backend that exchange one byte each. -/
def small : ConnectionConfig where
  importCapacity := 4
  exportCapacity := 4
  reliability := .stream
  initialBuffer := none
  initial_ne_nil := nofun
  clientBytes := [1]
  backendBytes := [2]

/-- Both sides are set up and the backend finishes first: its byte and its marker reach
the client, and the client's byte and marker reach the channel of the export relay. -/
def backendFirst : List ConnectionAction :=
  [.declareToken, .liveliness, .client (.dialed true), .client (.setupDone true),
    .startImport true, .backendRead (some [2]), .exportPublish true, .backendRead (some []),
    .exportPublish true, .deliverRx, .deliverRx, .importer .recv, .importer (.writeDone true),
    .importer .recv, .importer (.closeDone true), .clientRead (some [1]), .importPublish true,
    .clientRead (some []), .importPublish true, .deliverTx, .deliverTx]

/-- The import side withdraws its token and the watcher of the export side trips. -/
def teardown : List ConnectionAction := [.withdrawToken, .liveliness, .client .watcherTakes]

/-- The export relay takes the queued samples before it looks at its token. -/
theorem lossless_when_drained :
    Always (step small) (Lossless small) (init small)
      (backendFirst ++ teardown ++ [.exporter .recv, .exporter (.writeDone true),
        .exporter .recv, .exporter (.closeDone true), .client .relayDone, .removeSelf]) :=
  (lossless_iff_drainsFirst small _ (by decide)).mpr (by decide)

/-- The same run with the other `select!` arm: the byte of the client stays in the
channel of the export relay while the backend's write side is shut down. -/
theorem lossless_fails_on_cancelled_arm :
    Along (step small) FaultFree (init small)
        (backendFirst ++ teardown ++ [.exporter .receiverCancelled]) ∧
      ¬ Always (step small) (Lossless small) (init small)
        (backendFirst ++ teardown ++ [.exporter .receiverCancelled]) := by
  refine ⟨by decide, fun h => ?_⟩
  have hlast := h.last rfl
  have hwritten := hlast.1 (.inl (List.cons_ne_nil _ _))
  contradiction

end Connection

end ZenohBridge
