import ZenohBridge.Relay

/-!
# The two tasks of a relay

What a step does to the receiving task, to the sending task and to the token they
share. The token is never reset. Outside its `rx.recv()` arm the receiving task leaves its
loop only on a tripped token, and the sending task is moved by its own actions only.
-/

namespace ZenohBridge

namespace Relay

variable {cfg : RelayConfig} {s s' : Relay} {a : RelayAction}

/-- A step outside the `rx.recv()` arm: the closes are kept as long as the receiving task
stays in its loop, and it leaves the loop on a tripped token. -/
structure Exits (s s' : Relay) : Prop where
  token : s.cancelled = true → s'.cancelled = true
  closes : s.closes <+: s'.closes
  kept : s'.receiver.active → s'.closes = s.closes
  tripped : s.receiver.active → ¬ s'.receiver.active → s'.cancelled = true

/-- The receiving task stays where it is. -/
theorem Exits.stay (htoken : s.cancelled = true → s'.cancelled = true)
    (hreceiver : s'.receiver = s.receiver) (hcloses : s'.closes = s.closes) : Exits s s' := by
  constructor
  · exact htoken
  · exact ⟨[], by rw [hcloses, List.append_nil]⟩
  · intro _
    exact hcloses
  · intro hactive hleft
    rw [hreceiver] at hleft
    exact absurd hactive hleft

/-- The receiving task leaves, or has left, with a tripped token. -/
theorem Exits.leave (htripped : s'.cancelled = true) (hreceiver : ¬ s'.receiver.active)
    (hcloses : s.closes <+: s'.closes) : Exits s s' := by
  constructor
  · intro _
    exact htripped
  · exact hcloses
  · intro hactive
    exact absurd hactive hreceiver
  · intro _ _
    exact htripped

theorem step_exits (h : Relay.step cfg s a = some s') (hrecv : a ≠ .recv) : Exits s s' := by
  have hdone : ∀ how, s.receiver = .closing how → ¬ s.receiver.active := by
    rintro how hclosing
    rw [hclosing]
    exact id
  cases step_branch h with
  | taken taken => exact absurd rfl hrecv
  | delivered payload delivered =>
      cases delivered with
      | accepted channel room eq => exact eq ▸ .stay id rfl rfl
      | discarded closed eq => exact eq ▸ .stay id rfl rfl
      | refused full callback eq => exact eq ▸ .stay id rfl rfl
  | missed payload cancelled kept => exact .stay kept rfl rfl
  | shuts select token => exact .leave token id (List.prefix_append _ _)
  | receiverAborted token running => exact .leave token id List.prefix_rfl
  | deserted | writeFailed | halfCloseFailed => exact .leave rfl id List.prefix_rfl
  | wrote sample writing =>
      constructor
      · exact id
      · exact List.prefix_rfl
      · intro _
        rfl
      · intro _ hleft
        exact absurd trivial hleft
  | halfClosed closing | shut ok closing =>
      exact ⟨id, List.prefix_rfl, fun _ => rfl, fun hactive => absurd hactive (hdone _ closing)⟩
  | tripped | readFailed | publishFailed | errorSignalled | listenerDrained | tornDown =>
      exact .stay (fun _ => rfl) rfl rfl
  | dropped | read | published | senderReset | senderAborted => exact .stay id rfl rfl

/-- A tripped token stays tripped. -/
theorem step_cancelled (h : Relay.step cfg s a = some s') (hc : s.cancelled = true) :
    s'.cancelled = true := by
  by_cases hrecv : a = .recv
  · subst hrecv
    cases recv_inv h with
    | marker sample channel select head empty eq =>
        subst eq
        exact hc
    | data sample channel select head nonempty eq =>
        subst eq
        exact hc
  · exact (step_exits h hrecv).token hc

end Relay

/-- The faults that end the sending task: its publication fails, it takes the `cancelled()`
arm, or the watchdog aborts it. -/
def RelayAction.faultsSender : RelayAction → Prop
  | .publishDone ok => ok = false
  | .senderCancelled => True
  | .abortSender => True
  | _ => False

/-- The faults of the receiving task: a sample is lost on the way, a write fails, the task
takes the `cancelled()` arm, or the watchdog aborts it. -/
def RelayAction.faultsReceiver : RelayAction → Prop
  | .miss _ => True
  | .writeDone ok => ok = false
  | .receiverCancelled => True
  | .abortReceiver => True
  | _ => False

/-- The actions of the sending task and of the watchdog on it. -/
def RelayAction.sending : RelayAction → Prop
  | .read _ => True
  | .publishDone _ => True
  | .senderCancelled => True
  | .abortSender => True
  | _ => False

/-- The actions that trip the token. -/
def RelayAction.trips : RelayAction → Prop
  | .trip => True
  | .miss _ => True
  | .recvNone => True
  | .writeDone ok => ok = false
  | .closeDone ok => ok = false
  | .read result => result = none
  | .publishDone ok => ok = false
  | .errorSignal => True
  | .listenerDrain => True
  | .extTeardown => True
  | _ => False

/-- The steps of the receiving task up to its half-close. -/
def RelayAction.halfCloses : RelayAction → Prop
  | .recv => True
  | .writeDone ok => ok = true
  | .closeDone ok => ok = true
  | _ => False

namespace Relay

/-- What a step does to the sending task and to what it has published. -/
inductive SenderMove (s : Relay) (a : RelayAction) (s' : Relay) : Prop
  | idle (label : ¬ a.sending) (sender : s'.sender = s.sender) (kept : s'.published = s.published)
  | read (data : Bytes) (label : a = .read (some data)) (before : s.sender = .select)
      (after : s'.sender = .publishing data) (kept : s'.published = s.published)
  | readError (label : a = .read none) (before : s.sender = .select)
      (after : s'.sender = .ended .error) (kept : s'.published = s.published)
  | published (data : Bytes) (label : a = .publishDone true) (before : s.sender = .publishing data)
      (after : s'.sender = if data = [] then .ended .eof else .select)
      (grown : s'.published = s.published ++ [data])
  | fault (label : a.faultsSender) (before : s.sender.finished = false)
      (after : s'.sender.finished = true) (broken : s'.sender ≠ .ended .eof)
      (kept : s'.published = s.published)

theorem step_senderMove (h : Relay.step cfg s a = some s') : SenderMove s a s' := by
  cases step_branch h with
  | delivered payload delivered =>
      cases delivered with
      | accepted channel room eq => exact .idle id (eq ▸ rfl) (eq ▸ rfl)
      | discarded closed eq => exact .idle id (eq ▸ rfl) (eq ▸ rfl)
      | refused full callback eq => exact .idle id (eq ▸ rfl) (eq ▸ rfl)
  | taken taken =>
      cases taken with
      | marker sample channel select head empty eq => exact .idle id (eq ▸ rfl) (eq ▸ rfl)
      | data sample channel select head nonempty eq => exact .idle id (eq ▸ rfl) (eq ▸ rfl)
  | read data select => exact .read data rfl select rfl rfl
  | readFailed select => exact .readError rfl select rfl rfl
  | published data publishing => exact .published data rfl publishing rfl rfl
  | publishFailed data publishing =>
      exact .fault rfl (by rw [publishing]; rfl) rfl (by simp) rfl
  | senderReset select token => exact .fault trivial (by rw [select]; rfl) rfl (by simp) rfl
  | senderAborted token running => exact .fault trivial running rfl (by simp) rfl
  | missed | tripped | dropped | deserted | shuts | wrote | writeFailed | halfClosed
  | halfCloseFailed | shut | errorSignalled | listenerDrained | tornDown | receiverAborted =>
      exact .idle id rfl rfl

/-- Every other action leaves the token as it is. -/
theorem cancelled_of_not_trips (ha : ¬ a.trips) (h : Relay.step cfg s a = some s') :
    s'.cancelled = s.cancelled := by
  cases step_branch h with
  | delivered payload delivered =>
      cases delivered with
      | accepted channel room eq => exact eq ▸ rfl
      | discarded closed eq => exact eq ▸ rfl
      | refused full callback eq => exact eq ▸ rfl
  | taken taken =>
      cases taken with
      | marker sample channel select head empty eq => exact eq ▸ rfl
      | data sample channel select head nonempty eq => exact eq ▸ rfl
  | missed | tripped | deserted | errorSignalled | listenerDrained | tornDown =>
      exact absurd trivial ha
  | writeFailed | halfCloseFailed | readFailed | publishFailed => exact absurd rfl ha
  | dropped | shuts | wrote | halfClosed | shut | read | published | senderReset
  | receiverAborted | senderAborted => rfl

/-- Where a step without a fault of the receiving task can leave it, the `rx.recv()` arm
apart. -/
inductive CalmMove (s s' : Relay) : Prop
  | stays (receiver : s'.receiver = s.receiver) (channel : s'.channel = s.channel)
  | wrote (sample : Sample) (before : s.receiver = .writing sample) (after : s'.receiver = .select)
      (channel : s'.channel = s.channel)
  | closed (how : Close) (before : s.receiver = .closing how) (after : s'.receiver.finished = true)
  | deserted (before : s.receiver = .select) (drained : s.channel.queue = [])
      (dropped : s.callbackDropped = true) (after : s'.receiver = .ended .error)

/-- Such a step performs no further close and does not bring a dropped callback back. -/
structure Calm (s s' : Relay) : Prop where
  closes : s'.closes = s.closes
  dropped : s.callbackDropped = true → s'.callbackDropped = true
  move : CalmMove s s'

theorem step_calm (h : Relay.step cfg s a = some s') (hrecv : a ≠ .recv)
    (hdeliver : ∀ p, a ≠ .deliver p) (hfault : ¬ a.faultsReceiver) : Calm s s' := by
  cases step_branch h with
  | taken taken => exact absurd rfl hrecv
  | delivered payload delivered => exact absurd rfl (hdeliver payload)
  | missed | shuts | receiverAborted => exact absurd trivial hfault
  | writeFailed sample writing => exact absurd rfl hfault
  | wrote sample writing => exact ⟨rfl, id, .wrote sample writing rfl rfl⟩
  | deserted select dropped drained => exact ⟨rfl, id, .deserted select drained dropped rfl⟩
  | halfClosed closing | halfCloseFailed closing | shut ok closing =>
      exact ⟨rfl, id, .closed _ closing rfl⟩
  | dropped => exact ⟨rfl, fun _ => rfl, .stays rfl rfl⟩
  | tripped | read | readFailed | published | publishFailed | senderReset | errorSignalled
  | listenerDrained | tornDown | senderAborted => exact ⟨rfl, id, .stays rfl rfl⟩

/-- The other parties keep the sending task where it is. -/
theorem sender_kept (ha : ¬ a.sending) (h : Relay.step cfg s a = some s') :
    s'.sender = s.sender ∧ s'.published = s.published := by
  cases step_senderMove h with
  | idle label sender kept => exact ⟨sender, kept⟩
  | read data label => exact absurd (label ▸ trivial) ha
  | readError label => exact absurd (label ▸ trivial) ha
  | published data label => exact absurd (label ▸ trivial) ha
  | fault label => cases a <;> first | exact absurd trivial ha | exact absurd label id

section Frame

/-- The relay with another state of its sending task. -/
def withSender (s : Relay) (sender : Sender) (published : List Bytes) : Relay :=
  { s with sender := sender, published := published }

/-- The other parties neither read nor change the state of the sending task. -/
theorem step_withSender (ha : ¬ a.sending) (sender : Sender) (published : List Bytes) :
    Relay.step cfg (s.withSender sender published) a =
      (Relay.step cfg s a).map fun t => t.withSender sender published := by
  cases a with
  | read result => exact absurd trivial ha
  | publishDone ok => exact absurd trivial ha
  | senderCancelled => exact absurd trivial ha
  | abortSender => exact absurd trivial ha
  | dropCallback => rfl
  | deliver p =>
      simp only [Relay.step, deliver, withSender]
      by_cases hidle : s.callback = .idle ∧ s.callbackDropped = false
      · simp only [hidle, and_self, if_true]
        cases s.channel.trySend ⟨s.sent.length, p⟩ with
        | ok channel => rfl
        | error reason =>
            cases reason with
            | closed => rfl
            | full => cases cfg.reliability <;> rfl
      · simp only [hidle, if_false, Option.map_none]
  | miss p =>
      simp only [Relay.step, miss, withSender]
      cases cfg.reliability <;> rfl
  | recv =>
      simp only [Relay.step, recv, withSender]
      by_cases hselect : s.receiver = .select
      · simp only [hselect, if_true]
        cases s.channel.recv with
        | none => rfl
        | some taken =>
            by_cases hempty : taken.1.payload = []
            · simp only [if_pos hempty, Option.map_some]
              rfl
            · simp only [if_neg hempty, Option.map_some]
              rfl
      · simp only [hselect, if_false, Option.map_none]
  | writeDone ok =>
      simp only [Relay.step, writeDone, withSender]
      cases s.receiver with
      | writing sample => cases ok <;> rfl
      | _ => rfl
  | closeDone ok =>
      simp only [Relay.step, closeDone, withSender]
      cases s.receiver with
      | closing how =>
          cases how with
          | sendEof => cases ok <;> rfl
          | shutdown => rfl
      | _ => rfl
  | trip =>
      by_cases h : s.callback = .overflowed <;> simp [Relay.step, trip, withSender, h]
  | recvNone =>
      by_cases h : s.receiver = .select ∧ s.callbackDropped = true ∧ s.channel.queue = [] <;>
        simp [Relay.step, recvNone, withSender, h]
  | receiverCancelled =>
      by_cases h : s.receiver = .select ∧ s.cancelled = true <;>
        simp [Relay.step, receiverCancelled, withSender, h]
  | abortReceiver =>
      by_cases h : s.cancelled = true ∧ s.receiver.finished = false <;>
        simp [Relay.step, abortReceiver, withSender, h]
  | errorSignal | listenerDrain =>
      by_cases h : cfg.side = .importing <;> simp [Relay.step, cancelFrom, withSender, h]
  | extTeardown =>
      by_cases h : cfg.side = .exporting <;> simp [Relay.step, cancelFrom, withSender, h]

/-- The relay with another state of its token. -/
def withToken (s : Relay) (cancelled : Bool) : Relay := { s with cancelled := cancelled }

/-- The receiving task neither reads nor trips the token on its way to the half-close. -/
theorem step_withToken (ha : a.halfCloses) (cancelled : Bool) :
    Relay.step cfg (s.withToken cancelled) a =
      (Relay.step cfg s a).map fun t => t.withToken cancelled := by
  cases a with
  | recv =>
      simp only [Relay.step, recv, withToken]
      by_cases hselect : s.receiver = .select
      · simp only [hselect, if_true]
        cases s.channel.recv with
        | none => rfl
        | some taken =>
            by_cases hempty : taken.1.payload = []
            · simp only [if_pos hempty, Option.map_some]
              rfl
            · simp only [if_neg hempty, Option.map_some]
              rfl
      · simp only [hselect, if_false, Option.map_none]
  | writeDone ok =>
      subst ha
      simp only [Relay.step, writeDone, withToken]
      cases s.receiver <;> rfl
  | closeDone ok =>
      subst ha
      simp only [Relay.step, closeDone, withToken]
      cases s.receiver with
      | closing how => cases how <;> rfl
      | _ => rfl
  | _ => exact absurd ha id

/-- The token is left as it is on the way to the half-close. -/
theorem cancelled_of_halfCloses (ha : a.halfCloses) (h : Relay.step cfg s a = some s') :
    s'.cancelled = s.cancelled := by
  have hframe := @step_withToken cfg a s ha s.cancelled
  change Relay.step cfg s a = _ at hframe
  rw [h, Option.map_some, Option.some.injEq] at hframe
  rw [hframe]
  rfl

/-- An action of the sending task as a function of its state, of what it has published and of
the token. -/
def sendingMove (a : RelayAction) (sender : Sender) (published : List Bytes) (cancelled : Bool) :
    Option (Sender × List Bytes × Bool) :=
  match a, sender with
  | .read (some data), .select => some (.publishing data, published, cancelled)
  | .read none, .select => some (.ended .error, published, true)
  | .publishDone true, .publishing data =>
      some (if data = [] then .ended .eof else .select, published ++ [data], cancelled)
  | .publishDone false, .publishing _ => some (.ended .error, published, true)
  | .senderCancelled, .select =>
      if cancelled = true then some (.ended .reset, published, cancelled) else none
  | .abortSender, sender =>
      if cancelled = true ∧ sender.finished = false then some (.aborted, published, cancelled)
      else none
  | _, _ => none

/-- The sending task reads and changes nothing else of the relay. -/
theorem step_sending_local (ha : a.sending) (s : Relay) :
    Relay.step cfg s a = (sendingMove a s.sender s.published s.cancelled).map fun x =>
      (s.withSender x.1 x.2.1).withToken x.2.2 := by
  cases a with
  | read result =>
      simp only [Relay.step, read]
      cases hsender : s.sender <;> cases result <;> rfl
  | publishDone ok =>
      simp only [Relay.step, publishDone]
      cases hsender : s.sender <;> cases ok <;> rfl
  | senderCancelled =>
      simp only [Relay.step, senderCancelled]
      cases hsender : s.sender <;> cases hcancelled : s.cancelled <;> rfl
  | abortSender =>
      simp only [Relay.step, abortSender, sendingMove]
      split <;> rfl
  | _ => exact absurd ha id

/-- A read of data and a publication that succeeds leave the token out. -/
theorem sendingMove_withToken (hfault : ¬ a.faultsSender) (htrip : ¬ a.trips) (sender : Sender)
    (published : List Bytes) (cancelled : Bool) :
    sendingMove a sender published cancelled =
      (sendingMove a sender published false).map fun x => (x.1, x.2.1, cancelled) := by
  cases a with
  | read result =>
      cases result with
      | none => exact absurd rfl htrip
      | some data => cases sender <;> rfl
  | publishDone ok =>
      cases ok with
      | false => exact absurd rfl hfault
      | true => cases sender <;> rfl
  | senderCancelled => exact absurd trivial hfault
  | abortSender => exact absurd trivial hfault
  | _ => rfl

/-- So they only move the sender on. -/
theorem step_publishing_local (ha : a.sending) (hfault : ¬ a.faultsSender) (htrip : ¬ a.trips)
    (s : Relay) :
    Relay.step cfg s a = (sendingMove a s.sender s.published false).map fun x =>
      s.withSender x.1 x.2.1 := by
  rw [step_sending_local ha, sendingMove_withToken hfault htrip, Option.map_map]
  rfl

/-- The way of the receiving task to its half-close commutes with the sending task. -/
theorem halfCloses_comm {b : RelayAction} (ha : a.halfCloses) (hb : b.sending) :
    Execution.Commute (Relay.step cfg) a b := by
  have ha' : ¬ a.sending := by
    cases a <;> first | exact id | exact absurd ha id
  intro s
  rw [step_sending_local hb s]
  cases hstep : Relay.step cfg s a with
  | none =>
      cases sendingMove b s.sender s.published s.cancelled with
      | none => rfl
      | some x => simp [step_withToken ha, step_withSender ha', hstep]
  | some t =>
      obtain ⟨hsender, hpublished⟩ := sender_kept ha' hstep
      have htoken := cancelled_of_halfCloses ha hstep
      rw [Option.bind_some, step_sending_local hb t, hsender, hpublished, htoken]
      cases sendingMove b s.sender s.published s.cancelled with
      | none => rfl
      | some x => simp [step_withToken ha, step_withSender ha', hstep]

/-- The way of the sending task to its EOF marker commutes with the other parties. -/
theorem publishing_comm {b : RelayAction} (ha : a.sending) (hfault : ¬ a.faultsSender)
    (htrip : ¬ a.trips) (hb : ¬ b.sending) : Execution.Commute (Relay.step cfg) a b := by
  intro s
  rw [step_publishing_local ha hfault htrip s]
  cases hstep : Relay.step cfg s b with
  | none =>
      cases sendingMove a s.sender s.published false with
      | none => rfl
      | some x => simp [step_withSender hb, hstep]
  | some t =>
      obtain ⟨hsender, hpublished⟩ := sender_kept hb hstep
      rw [Option.bind_some, step_publishing_local ha hfault htrip t, hsender, hpublished]
      cases sendingMove a s.sender s.published false with
      | none => rfl
      | some x => simp [step_withSender hb, hstep]

end Frame

end Relay

end ZenohBridge
