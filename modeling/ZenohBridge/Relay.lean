import ZenohBridge.Foundation.Execution
import ZenohBridge.Foundation.BoundedChannel

/-!
# The per-connection relay

The import side (`bridge_import_connection`) and the export side
(`handle_client_bridge`) run mirror-image relays. Each has a reception callback
built by `rx_channel`, a receiving task that writes samples to its socket, a
sending task that publishes what it reads, and one cancellation token that every
failure trips.

One step is one atomic action of one of these parties. The label of a step holds
what the scheduler and the outside world decide: which ready `select!` arm is
taken, what a read returns, whether a write or a publication succeeds.

## Implementation notes

The two relays differ only in who may trip the token from outside, so they are
one definition with a side. The read-only response tap and the byte counters of
the source do not act on the relay and are left out. The fields from `sent` on
are the history that the peers and the session can observe.
-/

namespace ZenohBridge

/-- A chunk of the relayed byte stream; the empty chunk is the EOF marker. -/
abbrev Bytes := List UInt8

/-- `--reliability`: what happens when recovery fails. -/
inductive ReliabilityMode where
  | stream
  | telemetry
  deriving DecidableEq, Repr

/-- Which of the two mirrored relays runs. -/
inductive Side where
  | importing
  | exporting
  deriving DecidableEq, Repr

/-- A sample with its position in the sequence published on its key. -/
structure Sample where
  sn : Nat
  payload : Bytes
  deriving DecidableEq, Repr

/-- The settings that the relay reads. -/
structure RelayConfig where
  capacity : Nat
  reliability : ReliabilityMode
  side : Side

/-- The reception callback is idle, or has just been refused by a full channel
and has not reset the connection yet. -/
inductive Callback where
  | idle
  | overflowed
  deriving DecidableEq, Repr

/-- The two writer operations that shut the write half of a socket down. -/
inductive Close where
  | sendEof
  | shutdown
  deriving DecidableEq, Repr

/-- How one direction of a relay ended. -/
inductive DirectionEnd where
  | eof
  | reset
  | error
  deriving DecidableEq, Repr

/-- Where the receiving task is: in its `select!`, awaiting a write, awaiting a
close of the write half, returned, or aborted by the watchdog. -/
inductive Receiver where
  | select
  | writing (sample : Sample)
  | closing (how : Close)
  | ended (how : DirectionEnd)
  | aborted
  deriving DecidableEq, Repr

/-- Where the sending task is. Publishing the empty chunk is the EOF marker. -/
inductive Sender where
  | select
  | publishing (data : Bytes)
  | ended (how : DirectionEnd)
  | aborted
  deriving DecidableEq, Repr

/-- The receiving task can still write further samples. -/
def Receiver.active : Receiver → Prop
  | .select => True
  | .writing _ => True
  | _ => False

/-- The receiving task has returned or was aborted. -/
def Receiver.finished : Receiver → Bool
  | .ended _ => true
  | .aborted => true
  | _ => false

/-- The sending task has returned or was aborted. -/
def Sender.finished : Sender → Bool
  | .ended _ => true
  | .aborted => true
  | _ => false

/-- The state of one relay, followed by the history of what passed through it. -/
structure Relay where
  cancelled : Bool
  channel : BoundedChannel Sample
  callback : Callback
  callbackDropped : Bool
  receiver : Receiver
  sender : Sender
  /-- Samples of the peer that reached this session, delivered or missed. -/
  sent : List Bytes
  delivered : List Sample
  refused : List Sample
  missed : List Sample
  /-- Samples taken from the channel since the first refusal. -/
  takenSinceRefusal : Nat
  /-- Samples handed to `write_data`. -/
  handed : List Sample
  /-- Samples whose `write_data` returned without an error. -/
  written : List Sample
  /-- The EOF marker, once the receiving task has taken it. -/
  marker : Option Sample
  closes : List Close
  published : List Bytes
  deriving DecidableEq

namespace Relay

/-- A relay at the moment both of its tasks are spawned. -/
def init (cfg : RelayConfig) : Relay where
  cancelled := false
  channel := .new cfg.capacity
  callback := .idle
  callbackDropped := false
  receiver := .select
  sender := .select
  sent := []
  delivered := []
  refused := []
  missed := []
  takenSinceRefusal := 0
  handed := []
  written := []
  marker := none
  closes := []
  published := []

/-- The first half of a callback invocation: `try_send` of the next sample. In
stream mode the overflowed callback goes on to reset the connection, in telemetry
mode it sheds the sample. A dropped receiver discards it. -/
def deliver (cfg : RelayConfig) (payload : Bytes) (s : Relay) : Option Relay :=
  if s.callback = .idle ∧ s.callbackDropped = false then
    let sample : Sample := ⟨s.sent.length, payload⟩
    let seen := { s with sent := s.sent ++ [payload], delivered := s.delivered ++ [sample] }
    match s.channel.trySend sample with
    | .ok channel => some { seen with channel := channel }
    | .error .closed => some seen
    | .error .full =>
        match cfg.reliability with
        | .stream => some { seen with refused := s.refused ++ [sample], callback := .overflowed }
        | .telemetry => some { seen with refused := s.refused ++ [sample] }
  else none

/-- The second half of an overflowed callback: `conn_cancel.cancel()`. -/
def trip (s : Relay) : Option Relay :=
  if s.callback = .overflowed then some { s with callback := .idle, cancelled := true }
  else none

/-- An unrecoverable sample miss. Only stream mode registers a listener. -/
def miss (cfg : RelayConfig) (payload : Bytes) (s : Relay) : Option Relay :=
  let seen := { s with
    sent := s.sent ++ [payload], missed := s.missed ++ [⟨s.sent.length, payload⟩] }
  match cfg.reliability with
  | .stream => some { seen with cancelled := true }
  | .telemetry => some seen

/-- The `rx.recv()` arm of the receiving task: the empty sample half-closes the
socket, any other sample is handed to `write_data`. -/
def recv (s : Relay) : Option Relay :=
  if s.receiver = .select then
    match s.channel.recv with
    | none => none
    | some (sample, channel) =>
        let taken := { s with
          channel := channel
          takenSinceRefusal := s.takenSinceRefusal + if s.refused = [] then 0 else 1 }
        if sample.payload = [] then
          some { taken with
            marker := some sample, receiver := .closing .sendEof, closes := s.closes ++ [.sendEof] }
        else some { taken with handed := s.handed ++ [sample], receiver := .writing sample }
  else none

/-- The `rx.recv()` arm on a closed and drained channel. -/
def recvNone (s : Relay) : Option Relay :=
  if s.receiver = .select ∧ s.callbackDropped = true ∧ s.channel.queue = [] then
    some { s with cancelled := true, receiver := .ended .error, channel := s.channel.close }
  else none

/-- The `cancelled()` arm of the receiving task: it shuts the writer down. -/
def receiverCancelled (s : Relay) : Option Relay :=
  if s.receiver = .select ∧ s.cancelled = true then
    some { s with receiver := .closing .shutdown, closes := s.closes ++ [.shutdown] }
  else none

/-- `write_data` returns. -/
def writeDone (ok : Bool) (s : Relay) : Option Relay :=
  match s.receiver with
  | .writing sample =>
      if ok then some { s with written := s.written ++ [sample], receiver := .select }
      else some { s with
        cancelled := true, receiver := .ended .error, channel := s.channel.close }
  | _ => none

/-- `send_eof` or `shutdown` returns. A failed `send_eof` resets the connection,
the result of `shutdown` is ignored. -/
def closeDone (ok : Bool) (s : Relay) : Option Relay :=
  match s.receiver with
  | .closing .sendEof =>
      if ok then some { s with receiver := .ended .eof, channel := s.channel.close }
      else some { s with
        cancelled := true, receiver := .ended .error, channel := s.channel.close }
  | .closing .shutdown => some { s with receiver := .ended .reset, channel := s.channel.close }
  | _ => none

/-- `read_data` returns: an error resets, data and the EOF marker are published. -/
def read (result : Option Bytes) (s : Relay) : Option Relay :=
  if s.sender = .select then
    match result with
    | some data => some { s with sender := .publishing data }
    | none => some { s with cancelled := true, sender := .ended .error }
  else none

/-- `publisher.put` returns. The EOF marker ends the direction. -/
def publishDone (ok : Bool) (s : Relay) : Option Relay :=
  match s.sender with
  | .publishing data =>
      if ok then some { s with
        published := s.published ++ [data]
        sender := if data = [] then .ended .eof else .select }
      else some { s with cancelled := true, sender := .ended .error }
  | _ => none

/-- The `cancelled()` arm of the sending task. -/
def senderCancelled (s : Relay) : Option Relay :=
  if s.sender = .select ∧ s.cancelled = true then some { s with sender := .ended .reset }
  else none

/-- Another holder of the token trips it; each side has its own ones. -/
def cancelFrom (cfg : RelayConfig) (side : Side) (s : Relay) : Option Relay :=
  if cfg.side = side then some { s with cancelled := true } else none

/-- The watchdog aborts the receiving task after the drain budget. -/
def abortReceiver (s : Relay) : Option Relay :=
  if s.cancelled = true ∧ s.receiver.finished = false then
    some { s with receiver := .aborted, channel := s.channel.close }
  else none

/-- The watchdog aborts the sending task after the drain budget. -/
def abortSender (s : Relay) : Option Relay :=
  if s.cancelled = true ∧ s.sender.finished = false then some { s with sender := .aborted }
  else none

end Relay

/-- The atomic actions of one relay and of the parties that hold its token. -/
inductive RelayAction where
  | deliver (payload : Bytes)
  | trip
  | miss (payload : Bytes)
  | dropCallback
  | recv
  | recvNone
  | receiverCancelled
  | writeDone (ok : Bool)
  | closeDone (ok : Bool)
  | read (result : Option Bytes)
  | publishDone (ok : Bool)
  | senderCancelled
  /-- The import side's error monitor saw the export's error signal. -/
  | errorSignal
  /-- The import side's listener reached its drain deadline. -/
  | listenerDrain
  /-- The export side's external-teardown watcher consumed a cancel. -/
  | extTeardown
  | abortReceiver
  | abortSender
  deriving DecidableEq, Repr

/-- One atomic action of a relay. -/
def Relay.step (cfg : RelayConfig) (s : Relay) : RelayAction → Option Relay
  | .deliver payload => s.deliver cfg payload
  | .trip => s.trip
  | .miss payload => s.miss cfg payload
  | .dropCallback => some { s with callbackDropped := true }
  | .recv => s.recv
  | .recvNone => s.recvNone
  | .receiverCancelled => s.receiverCancelled
  | .writeDone ok => s.writeDone ok
  | .closeDone ok => s.closeDone ok
  | .read result => s.read result
  | .publishDone ok => s.publishDone ok
  | .senderCancelled => s.senderCancelled
  | .errorSignal => s.cancelFrom cfg .importing
  | .listenerDrain => s.cancelFrom cfg .importing
  | .extTeardown => s.cancelFrom cfg .exporting
  | .abortReceiver => s.abortReceiver
  | .abortSender => s.abortSender

namespace Relay

variable {cfg : RelayConfig} {s s' : Relay}

/-- The next sample of the peer, as the session numbers it. -/
def nextSample (s : Relay) (payload : Bytes) : Sample := ⟨s.sent.length, payload⟩

/-- What a callback invocation can do to the channel and to the history. -/
inductive Delivered (cfg : RelayConfig) (s : Relay) (payload : Bytes) (s' : Relay) : Prop
  | accepted (channel : BoundedChannel Sample)
      (room : s.channel.trySend (s.nextSample payload) = .ok channel)
      (eq : s' = { s with
        sent := s.sent ++ [payload]
        delivered := s.delivered ++ [s.nextSample payload]
        channel := channel })
  | discarded (closed : s.channel.closed = true)
      (eq : s' = { s with
        sent := s.sent ++ [payload]
        delivered := s.delivered ++ [s.nextSample payload] })
  | refused (full : s.channel.closed = false ∧ s.channel.queue.length = s.channel.capacity)
      (callback : Callback)
      (eq : s' = { s with
        sent := s.sent ++ [payload]
        delivered := s.delivered ++ [s.nextSample payload]
        refused := s.refused ++ [s.nextSample payload]
        callback := callback })

theorem deliver_inv {payload : Bytes} (h : s.deliver cfg payload = some s') :
    Delivered cfg s payload s' := by
  unfold deliver at h
  split at h
  · simp only at h
    split at h
    · rename_i channel hsend
      exact .accepted channel hsend (Option.some.inj h).symm
    · rename_i hsend
      exact .discarded (BoundedChannel.trySend_closed hsend) (Option.some.inj h).symm
    · rename_i hidle hsend
      have hfull := BoundedChannel.trySend_full hsend
      split at h
      · exact .refused hfull .overflowed (Option.some.inj h).symm
      · refine .refused hfull s.callback ?_
        rw [← Option.some.inj h]
        rfl
  · cases h

/-- What the `rx.recv()` arm can do with the oldest queued sample. -/
inductive Taken (s s' : Relay) : Prop
  | marker (sample : Sample) (channel : BoundedChannel Sample)
      (select : s.receiver = .select)
      (head : s.channel.recv = some (sample, channel)) (empty : sample.payload = [])
      (eq : s' = { s with
        channel := channel
        takenSinceRefusal := s.takenSinceRefusal + if s.refused = [] then 0 else 1
        marker := some sample
        receiver := .closing .sendEof
        closes := s.closes ++ [.sendEof] })
  | data (sample : Sample) (channel : BoundedChannel Sample)
      (select : s.receiver = .select)
      (head : s.channel.recv = some (sample, channel)) (nonempty : sample.payload ≠ [])
      (eq : s' = { s with
        channel := channel
        takenSinceRefusal := s.takenSinceRefusal + if s.refused = [] then 0 else 1
        handed := s.handed ++ [sample]
        receiver := .writing sample })

theorem recv_inv (h : s.recv = some s') : Taken s s' := by
  unfold recv at h
  split at h
  · rename_i hselect
    split at h
    · cases h
    · rename_i sample channel hrecv
      simp only at h
      split at h
      · rename_i hempty
        exact .marker sample channel hselect hrecv hempty (Option.some.inj h).symm
      · rename_i hne
        exact .data sample channel hselect hrecv hne (Option.some.inj h).symm
  · cases h

/-- The branches of a step, each with its guard and its result. -/
inductive Branch (cfg : RelayConfig) (s : Relay) : RelayAction → Relay → Prop
  | delivered {s' : Relay} (payload : Bytes) (delivered : Delivered cfg s payload s') :
      Branch cfg s (.deliver payload) s'
  | missed (payload : Bytes) (cancelled : Bool) (kept : s.cancelled = true → cancelled = true) :
      Branch cfg s (.miss payload) { s with
        sent := s.sent ++ [payload]
        missed := s.missed ++ [s.nextSample payload]
        cancelled := cancelled }
  | tripped (overflowed : s.callback = .overflowed) :
      Branch cfg s .trip { s with callback := .idle, cancelled := true }
  | dropped : Branch cfg s .dropCallback { s with callbackDropped := true }
  | taken {s' : Relay} (taken : Taken s s') : Branch cfg s .recv s'
  | deserted (select : s.receiver = .select) (dropped : s.callbackDropped = true)
      (drained : s.channel.queue = []) :
      Branch cfg s .recvNone { s with
        cancelled := true, receiver := .ended .error, channel := s.channel.close }
  | shuts (select : s.receiver = .select) (token : s.cancelled = true) :
      Branch cfg s .receiverCancelled { s with
        receiver := .closing .shutdown, closes := s.closes ++ [.shutdown] }
  | wrote (sample : Sample) (writing : s.receiver = .writing sample) :
      Branch cfg s (.writeDone true) { s with
        written := s.written ++ [sample], receiver := .select }
  | writeFailed (sample : Sample) (writing : s.receiver = .writing sample) :
      Branch cfg s (.writeDone false) { s with
        cancelled := true, receiver := .ended .error, channel := s.channel.close }
  | halfClosed (closing : s.receiver = .closing .sendEof) :
      Branch cfg s (.closeDone true) { s with
        receiver := .ended .eof, channel := s.channel.close }
  | halfCloseFailed (closing : s.receiver = .closing .sendEof) :
      Branch cfg s (.closeDone false) { s with
        cancelled := true, receiver := .ended .error, channel := s.channel.close }
  | shut (ok : Bool) (closing : s.receiver = .closing .shutdown) :
      Branch cfg s (.closeDone ok) { s with
        receiver := .ended .reset, channel := s.channel.close }
  | read (data : Bytes) (select : s.sender = .select) :
      Branch cfg s (.read (some data)) { s with sender := .publishing data }
  | readFailed (select : s.sender = .select) :
      Branch cfg s (.read none) { s with cancelled := true, sender := .ended .error }
  | published (data : Bytes) (publishing : s.sender = .publishing data) :
      Branch cfg s (.publishDone true) { s with
        published := s.published ++ [data]
        sender := if data = [] then .ended .eof else .select }
  | publishFailed (data : Bytes) (publishing : s.sender = .publishing data) :
      Branch cfg s (.publishDone false) { s with cancelled := true, sender := .ended .error }
  | senderReset (select : s.sender = .select) (token : s.cancelled = true) :
      Branch cfg s .senderCancelled { s with sender := .ended .reset }
  | errorSignalled (side : cfg.side = .importing) :
      Branch cfg s .errorSignal { s with cancelled := true }
  | listenerDrained (side : cfg.side = .importing) :
      Branch cfg s .listenerDrain { s with cancelled := true }
  | tornDown (side : cfg.side = .exporting) :
      Branch cfg s .extTeardown { s with cancelled := true }
  | receiverAborted (token : s.cancelled = true) (running : s.receiver.finished = false) :
      Branch cfg s .abortReceiver { s with receiver := .aborted, channel := s.channel.close }
  | senderAborted (token : s.cancelled = true) (running : s.sender.finished = false) :
      Branch cfg s .abortSender { s with sender := .aborted }

/-- A missed sample is counted and never delivered. -/
theorem miss_branch {payload : Bytes} (h : s.miss cfg payload = some s') :
    Branch cfg s (.miss payload) s' := by
  unfold miss at h
  simp only at h
  split at h <;> cases h
  · exact .missed payload true fun _ => rfl
  · exact .missed payload s.cancelled id

theorem writeDone_branch {ok : Bool} (h : s.writeDone ok = some s') :
    Branch cfg s (.writeDone ok) s' := by
  unfold writeDone at h
  split at h
  · rename_i sample hwriting
    cases ok <;> cases h
    · exact .writeFailed sample hwriting
    · exact .wrote sample hwriting
  · cases h

theorem closeDone_branch {ok : Bool} (h : s.closeDone ok = some s') :
    Branch cfg s (.closeDone ok) s' := by
  unfold closeDone at h
  split at h
  · rename_i hclosing
    cases ok <;> cases h
    · exact .halfCloseFailed hclosing
    · exact .halfClosed hclosing
  · rename_i hclosing
    cases h
    exact .shut ok hclosing
  · cases h

theorem read_branch {result : Option Bytes} (h : s.read result = some s') :
    Branch cfg s (.read result) s' := by
  unfold read at h
  split at h
  · rename_i hselect
    cases result <;> cases h
    · exact .readFailed hselect
    · exact .read _ hselect
  · cases h

theorem publishDone_branch {ok : Bool} (h : s.publishDone ok = some s') :
    Branch cfg s (.publishDone ok) s' := by
  unfold publishDone at h
  split at h
  · rename_i data hpublishing
    cases ok <;> cases h
    · exact .publishFailed data hpublishing
    · exact .published data hpublishing
  · cases h

theorem cancelFrom_inv {side : Side} (h : s.cancelFrom cfg side = some s') :
    cfg.side = side ∧ s' = { s with cancelled := true } := by
  simp only [cancelFrom, Option.ite_none_right_eq_some, Option.some.injEq] at h
  exact ⟨h.1, h.2.symm⟩

/-- Every step takes one of its branches. -/
theorem step_branch {a : RelayAction} (h : Relay.step cfg s a = some s') : Branch cfg s a s' := by
  cases a with
  | deliver payload => exact .delivered payload (deliver_inv h)
  | miss payload => exact miss_branch h
  | recv => exact .taken (recv_inv h)
  | writeDone ok => exact writeDone_branch h
  | closeDone ok => exact closeDone_branch h
  | read result => exact read_branch h
  | publishDone ok => exact publishDone_branch h
  | errorSignal =>
      obtain ⟨hside, rfl⟩ := cancelFrom_inv h
      exact .errorSignalled hside
  | listenerDrain =>
      obtain ⟨hside, rfl⟩ := cancelFrom_inv h
      exact .listenerDrained hside
  | extTeardown =>
      obtain ⟨hside, rfl⟩ := cancelFrom_inv h
      exact .tornDown hside
  | dropCallback =>
      cases h
      exact .dropped
  | trip =>
      simp only [Relay.step, trip, Option.ite_none_right_eq_some, Option.some.injEq] at h
      obtain ⟨hoverflowed, rfl⟩ := h
      exact .tripped hoverflowed
  | recvNone =>
      simp only [Relay.step, recvNone, Option.ite_none_right_eq_some, Option.some.injEq] at h
      obtain ⟨⟨hselect, hdropped, hdrained⟩, rfl⟩ := h
      exact .deserted hselect hdropped hdrained
  | receiverCancelled =>
      simp only [Relay.step, receiverCancelled, Option.ite_none_right_eq_some, Option.some.injEq] at h
      obtain ⟨⟨hselect, htoken⟩, rfl⟩ := h
      exact .shuts hselect htoken
  | senderCancelled =>
      simp only [Relay.step, senderCancelled, Option.ite_none_right_eq_some, Option.some.injEq] at h
      obtain ⟨⟨hselect, htoken⟩, rfl⟩ := h
      exact .senderReset hselect htoken
  | abortReceiver =>
      simp only [Relay.step, abortReceiver, Option.ite_none_right_eq_some, Option.some.injEq] at h
      obtain ⟨⟨htoken, hrunning⟩, rfl⟩ := h
      exact .receiverAborted htoken hrunning
  | abortSender =>
      simp only [Relay.step, abortSender, Option.ite_none_right_eq_some, Option.some.injEq] at h
      obtain ⟨⟨htoken, hrunning⟩, rfl⟩ := h
      exact .senderAborted htoken hrunning

/-- What the session and the `rx.recv()` arm have done so far. -/
structure Reception where
  sent : List Bytes
  delivered : List Sample
  refused : List Sample
  missed : List Sample
  takenSinceRefusal : Nat
  handed : List Sample
  marker : Option Sample
  capacity : Nat

def reception (s : Relay) : Reception :=
  ⟨s.sent, s.delivered, s.refused, s.missed, s.takenSinceRefusal, s.handed, s.marker,
    s.channel.capacity⟩

/-- A step that neither receives a sample from the session nor takes one from the
channel: the reception stays, and an active receiver keeps its channel. -/
structure Quiet (s s' : Relay) : Prop where
  reception : s'.reception = s.reception
  active : s'.receiver.active → s.receiver.active ∧ s'.channel = s.channel

theorem Quiet.sent (q : Quiet s s') : s'.sent = s.sent :=
  congrArg Reception.sent q.reception

theorem Quiet.delivered (q : Quiet s s') : s'.delivered = s.delivered :=
  congrArg Reception.delivered q.reception

theorem Quiet.refused (q : Quiet s s') : s'.refused = s.refused :=
  congrArg Reception.refused q.reception

theorem Quiet.missed (q : Quiet s s') : s'.missed = s.missed :=
  congrArg Reception.missed q.reception

theorem Quiet.takenSinceRefusal (q : Quiet s s') :
    s'.takenSinceRefusal = s.takenSinceRefusal :=
  congrArg Reception.takenSinceRefusal q.reception

theorem Quiet.handed (q : Quiet s s') : s'.handed = s.handed :=
  congrArg Reception.handed q.reception

theorem Quiet.marker (q : Quiet s s') : s'.marker = s.marker :=
  congrArg Reception.marker q.reception

/-- The receiver and its channel stay as they are. -/
theorem Quiet.keep (hrec : s'.reception = s.reception) (hreceiver : s'.receiver = s.receiver)
    (hchannel : s'.channel = s.channel) : Quiet s s' :=
  ⟨hrec, fun ha => ⟨hreceiver ▸ ha, hchannel⟩⟩

/-- The receiver leaves its loop. -/
theorem Quiet.stop (hrec : s'.reception = s.reception) (hreceiver : ¬ s'.receiver.active) :
    Quiet s s' :=
  ⟨hrec, fun ha => absurd ha hreceiver⟩

/-- The parties other than the callback and the `rx.recv()` arm step quietly. -/
theorem step_quiet {a : RelayAction} (h : Relay.step cfg s a = some s')
    (hdeliver : ∀ p, a ≠ .deliver p) (hmiss : ∀ p, a ≠ .miss p) (hrecv : a ≠ .recv) :
    Quiet s s' := by
  cases step_branch h with
  | delivered payload delivered => exact absurd rfl (hdeliver payload)
  | missed payload cancelled kept => exact absurd rfl (hmiss payload)
  | taken taken => exact absurd rfl hrecv
  | wrote sample writing => exact ⟨rfl, fun _ => ⟨writing ▸ trivial, rfl⟩⟩
  | deserted | shuts | writeFailed | halfClosed | halfCloseFailed | shut | receiverAborted =>
      exact .stop rfl id
  | tripped | dropped | read | readFailed | published | publishFailed | senderReset
  | errorSignalled | listenerDrained | tornDown | senderAborted => exact .keep rfl rfl rfl

/-- One step of a relay, sorted by what it does to the reception history. -/
theorem step_inv {a : RelayAction} (h : Relay.step cfg s a = some s') :
    (∃ p, a = .deliver p ∧ Delivered cfg s p s') ∨
    (∃ p, a = .miss p ∧ ∃ cancelled, s' = { s with
      sent := s.sent ++ [p]
      missed := s.missed ++ [s.nextSample p]
      cancelled := cancelled }) ∨
    (a = .recv ∧ Taken s s') ∨
    ((a ≠ .recv) ∧ Quiet s s') := by
  by_cases hd : ∃ p, a = .deliver p
  · obtain ⟨p, rfl⟩ := hd
    exact Or.inl ⟨p, rfl, deliver_inv h⟩
  by_cases hm : ∃ p, a = .miss p
  · obtain ⟨p, rfl⟩ := hm
    cases step_branch h with
    | missed payload cancelled kept => exact Or.inr (Or.inl ⟨p, rfl, cancelled, rfl⟩)
  by_cases hr : a = .recv
  · subst hr
    exact Or.inr (Or.inr (Or.inl ⟨rfl, recv_inv h⟩))
  · refine Or.inr (Or.inr (Or.inr ⟨hr, step_quiet h ?_ ?_ hr⟩))
    · exact fun p hp => hd ⟨p, hp⟩
    · exact fun p hp => hm ⟨p, hp⟩

end Relay

end ZenohBridge
