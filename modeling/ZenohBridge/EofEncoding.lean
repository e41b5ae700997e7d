import ZenohBridge.RelayTasks
import ZenohBridge.Transport

/-!
# The in-band EOF encoding

The end of a stream travels as an empty sample. A relay is put together with the reader of
its socket, and three things are shown of every run: the sending task publishes the data
chunks of its input and the empty sample exactly on a clean end; the receiving task writes
the chunks of the samples that reach it and half-closes exactly at the empty sample; and
neither end of a direction touches the token or the other direction.
-/

namespace ZenohBridge

open Execution

/-- A relay and the reader of its socket. -/
structure Duplex where
  relay : Relay
  reader : SocketReader

namespace Duplex

/-- The state in which both tasks of the relay are spawned. -/
def start (cfg : RelayConfig) (input : TransportInput) : Duplex := ⟨.init cfg, .new input⟩

/-- One action of the relay; a read returns what the reader gives out. -/
def step (cfg : RelayConfig) (s : Duplex) : RelayAction → Option Duplex
  | .read result =>
      if (readData s.reader).1 = result then
        (s.relay.step cfg (.read result)).map fun relay => ⟨relay, (readData s.reader).2⟩
      else none
  | a => (s.relay.step cfg a).map fun relay => ⟨relay, s.reader⟩

variable {cfg : RelayConfig} {s s' : Duplex} {a : RelayAction}

theorem step_read {result : Option Bytes} (h : step cfg s (.read result) = some s') :
    readData s.reader = (result, s'.reader) ∧
      s.relay.step cfg (.read result) = some s'.relay := by
  simp only [step] at h
  split at h
  · rename_i hread
    obtain ⟨relay, hrelay, rfl⟩ := Option.map_eq_some_iff.mp h
    exact ⟨Prod.ext hread rfl, hrelay⟩
  · cases h

theorem step_eq (ha : ∀ result, a ≠ .read result) :
    step cfg s a = (s.relay.step cfg a).map fun relay => ⟨relay, s.reader⟩ := by
  cases a with
  | read result => exact absurd rfl (ha result)
  | _ => rfl

theorem step_other (ha : ∀ result, a ≠ .read result) (h : step cfg s a = some s') :
    s'.reader = s.reader ∧ s.relay.step cfg a = some s'.relay := by
  rw [step_eq ha] at h
  obtain ⟨relay, hrelay, rfl⟩ := Option.map_eq_some_iff.mp h
  exact ⟨rfl, hrelay⟩

/-- A step with a reader is a step of the relay. -/
theorem step_relay (h : step cfg s a = some s') : s.relay.step cfg a = some s'.relay := by
  by_cases hread : ∃ result, a = .read result
  · obtain ⟨result, rfl⟩ := hread
    exact (step_read h).2
  · exact (step_other (fun result hr => hread ⟨result, hr⟩) h).2

section Sending

variable {chunks : List Bytes} {ending : StreamEnd}

/-- Where the sending task stands in the chunks of its input: the state of the task, what
it has published, and the reader with what it still has to give out. -/
inductive Sending (chunks : List Bytes) (ending : StreamEnd) :
    Sender → List Bytes → SocketReader → Prop
  | waiting {published rest : List Bytes} {reader : SocketReader}
      (split : chunks = published ++ rest) (yields : Yields reader rest ending) :
      Sending chunks ending .select published reader
  | publishing {published rest : List Bytes} {reader : SocketReader} {data : Bytes}
      (nonempty : data ≠ []) (split : chunks = published ++ data :: rest)
      (yields : Yields reader rest ending) :
      Sending chunks ending (.publishing data) published reader
  | marking {reader : SocketReader} (clean : ending = .clean) :
      Sending chunks ending (.publishing []) chunks reader
  | marked {reader : SocketReader} (clean : ending = .clean) :
      Sending chunks ending (.ended .eof) (chunks ++ [[]]) reader
  | broken {reader : SocketReader} (failed : ending = .failed) :
      Sending chunks ending (.ended .error) chunks reader

/-- The invariant of the sending task without faults of its own. -/
def Sends (chunks : List Bytes) (ending : StreamEnd) (s : Duplex) : Prop :=
  Sending chunks ending s.relay.sender s.relay.published s.reader

/-- A fault has ended the sending task somewhere in its input. -/
structure Stopped (chunks : List Bytes) (s : Duplex) : Prop where
  finished : s.relay.sender.finished = true
  broken : s.relay.sender ≠ .ended .eof
  published : s.relay.published <+: chunks

theorem sends_start (cfg : RelayConfig) (input : TransportInput) :
    Sends input.chunks input.ending (start cfg input) :=
  .waiting rfl (SocketReader.yields input)

/-- Before the task has finished, what it has published is data of its input. -/
theorem Sends.published_prefix (h : Sends chunks ending s)
    (hrunning : s.relay.sender.finished = false) : s.relay.published <+: chunks := by
  unfold Sends at h
  generalize s.relay.sender = sender at h hrunning
  generalize s.relay.published = published at h
  cases h with
  | waiting split yields => exact ⟨_, split.symm⟩
  | publishing nonempty split yields => exact ⟨_, split.symm⟩
  | marking clean => exact List.prefix_rfl
  | marked clean => cases hrunning
  | broken failed => cases hrunning

/-- One step: a read takes the next chunk of the reader, a publication appends it. -/
theorem Sends.step (h : Sends chunks ending s) (hs : step cfg s a = some s') :
    Sends chunks ending s' ∨ a.faultsSender ∧ Stopped chunks s' := by
  unfold Sends at h ⊢
  cases Relay.step_senderMove (step_relay hs) with
  | idle label sender kept =>
      have hother : ∀ result, a ≠ .read result := by
        rintro result rfl
        exact label trivial
      rw [sender, kept, (step_other hother hs).1]
      exact Or.inl h
  | read data label before after kept =>
      subst label
      rw [before] at h
      rw [after, kept]
      obtain ⟨hread, -⟩ := step_read hs
      cases h with
      | waiting split yields =>
          cases yields with
          | data read nonempty tail =>
              cases read.symm.trans hread
              exact Or.inl (.publishing nonempty split tail)
          | eof read =>
              cases read.symm.trans hread
              rw [List.append_nil] at split
              exact Or.inl (split ▸ .marking rfl)
          | error read => cases read.symm.trans hread
  | readError label before after kept =>
      subst label
      rw [before] at h
      rw [after, kept]
      obtain ⟨hread, -⟩ := step_read hs
      cases h with
      | waiting split yields =>
          cases yields with
          | data read nonempty tail => cases read.symm.trans hread
          | eof read => cases read.symm.trans hread
          | error read =>
              rw [List.append_nil] at split
              exact Or.inl (split ▸ .broken rfl)
  | published data label before after grown =>
      subst label
      rw [before] at h
      rw [after, grown, (step_other (by simp) hs).1]
      generalize s.relay.published = published at h
      cases h with
      | publishing nonempty split yields =>
          rw [if_neg nonempty]
          exact Or.inl (.waiting (by rw [split, List.append_assoc]; rfl) yields)
      | marking clean => exact Or.inl (.marked clean)
  | fault label before after broken kept =>
      refine Or.inr ⟨label, after, broken, ?_⟩
      rw [kept]
      exact Sends.published_prefix h before

theorem Stopped.step (h : Stopped chunks s) (hs : step cfg s a = some s') : Stopped chunks s' := by
  have hdone : ∀ x, s.relay.sender = x → x.finished = true := fun x hx => hx ▸ h.finished
  cases Relay.step_senderMove (step_relay hs) with
  | idle label sender kept => exact ⟨sender ▸ h.finished, sender ▸ h.broken, kept ▸ h.published⟩
  | read data label before => cases hdone _ before
  | readError label before => cases hdone _ before
  | published data label before => cases hdone _ before
  | fault label before after broken kept => exact ⟨after, broken, kept ▸ h.published⟩

/-- In every run, with or without faults, the task is on its way or was stopped. -/
theorem sends_or_stopped {input : TransportInput} {schedule : List RelayAction}
    (run : exec (step cfg) (start cfg input) schedule = some s) :
    Sends input.chunks input.ending s ∨ Stopped input.chunks s := by
  have hstart : Sends input.chunks input.ending (start cfg input) ∨
      Stopped input.chunks (start cfg input) := Or.inl (sends_start cfg input)
  refine exec_invariant (I := fun t => Sends input.chunks input.ending t ∨ Stopped input.chunks t)
    ?_ hstart run
  rintro s a s' (h | h) hs
  · exact (h.step hs).imp_right And.right
  · exact Or.inr (h.step hs)

/-- Without a fault of its own the task is on its way in every run. -/
theorem sends_of_run {input : TransportInput} {schedule : List RelayAction}
    (run : exec (step cfg) (start cfg input) schedule = some s)
    (hfault : ∀ a ∈ schedule, ¬ a.faultsSender) : Sends input.chunks input.ending s := by
  have hkeep : Always (step cfg) (Sends input.chunks input.ending) (start cfg input) schedule := by
    apply always_of_along _ (sends_start cfg input) (along_of_labels hfault _)
    intro s a s' h hok hs
    exact (h.step hs).resolve_right fun hstop => hok hstop.1
  exact hkeep.last run

/-- A task that is on its way and has finished has published the whole encoding. -/
theorem Sends.samples {input : TransportInput} (h : Sends input.chunks input.ending s)
    (hfinished : s.relay.sender.finished = true) : s.relay.published = input.samples := by
  unfold Sends at h
  generalize s.relay.sender = sender at h hfinished
  generalize s.relay.published = published at h ⊢
  cases h with
  | waiting split yields => cases hfinished
  | publishing nonempty split yields => cases hfinished
  | marking clean => cases hfinished
  | marked clean => rw [TransportInput.samples, if_pos clean]
  | broken failed =>
      have hne : input.ending ≠ .clean := by
        rw [failed]
        exact StreamEnd.noConfusion
      rw [TransportInput.samples, if_neg hne, List.append_nil]

/-- A task that ended at the end of its input has published it and the marker. -/
theorem Sends.published_of_eof (h : Sends chunks ending s)
    (hended : s.relay.sender = .ended .eof) : s.relay.published = chunks ++ [[]] := by
  unfold Sends at h
  rw [hended] at h
  generalize s.relay.published = published at h ⊢
  cases h with
  | marked clean => rfl

theorem Sends.published_samples {input : TransportInput} (h : Sends input.chunks input.ending s) :
    s.relay.published <+: input.samples := by
  cases hfinished : s.relay.sender.finished with
  | true => exact h.samples hfinished ▸ List.prefix_rfl
  | false => exact (h.published_prefix hfinished).trans (List.prefix_append _ _)

/-- The steps of a task that goes on without a fault of its own. -/
def Finishes (cfg : RelayConfig) (s : Duplex) : Prop :=
  ∃ rest t, (∀ a ∈ rest, ¬ a.faultsSender) ∧ exec (step cfg) s rest = some t ∧
    t.relay.sender.finished = true

theorem Finishes.of_step (hfault : ¬ a.faultsSender) (hs : step cfg s a = some s')
    (h : Finishes cfg s') : Finishes cfg s := by
  obtain ⟨rest, t, hrest, hrun, hfinished⟩ := h
  refine ⟨a :: rest, t, ?_, ?_, hfinished⟩
  · exact List.forall_mem_cons.mpr ⟨hfault, hrest⟩
  · rw [exec, hs]
    exact hrun

/-- The task finishes once its last chunk is published. -/
theorem Finishes.of_finished (hfinished : s.relay.sender.finished = true) : Finishes cfg s :=
  ⟨[], s, List.forall_mem_nil _, rfl, hfinished⟩

theorem step_publish {data : Bytes} (hsender : s.relay.sender = .publishing data) :
    step cfg s (.publishDone true) = some ⟨s.relay.withSender
      (if data = [] then .ended .eof else .select) (s.relay.published ++ [data]), s.reader⟩ := by
  simp only [step, Relay.step, Relay.publishDone, hsender]
  rfl

theorem step_read_some {data : Bytes} {reader : SocketReader}
    (hread : readData s.reader = (some data, reader)) (hsender : s.relay.sender = .select) :
    step cfg s (.read (some data)) =
      some ⟨s.relay.withSender (.publishing data) s.relay.published, reader⟩ := by
  simp only [step, Relay.step, Relay.read, hsender, hread]
  rfl

/-- A waiting task finishes: the induction follows what its reader still gives out. -/
theorem finishes_of_waiting {reader : SocketReader} (h : Yields reader chunks ending) {s : Duplex}
    (hreader : s.reader = reader) (hsender : s.relay.sender = .select) : Finishes cfg s := by
  induction h generalizing s with
  | data read nonempty tail ih =>
      rw [← hreader] at read
      apply Finishes.of_step (by simp [RelayAction.faultsSender]) (step_read_some read hsender)
      apply Finishes.of_step (by simp [RelayAction.faultsSender]) (step_publish rfl)
      rw [if_neg nonempty]
      exact ih rfl rfl
  | eof read =>
      rw [← hreader] at read
      apply Finishes.of_step (by simp [RelayAction.faultsSender]) (step_read_some read hsender)
      apply Finishes.of_step (by simp [RelayAction.faultsSender]) (step_publish rfl)
      exact Finishes.of_finished rfl
  | @error reader reader' read =>
      have hs : step cfg s (.read none) =
          some ⟨{ s.relay with cancelled := true, sender := .ended .error }, reader'⟩ := by
        simp only [step, Relay.step, Relay.read, hsender, hreader, read]
        rfl
      exact (Finishes.of_finished rfl).of_step (by simp [RelayAction.faultsSender]) hs

theorem Sends.finishes (h : Sends chunks ending s) : Finishes cfg s := by
  unfold Sends at h
  generalize hsender : s.relay.sender = sender at h
  generalize s.relay.published = published at h
  generalize hreader : s.reader = reader at h
  cases h with
  | waiting split yields => exact finishes_of_waiting yields hreader hsender
  | publishing nonempty split yields =>
      apply Finishes.of_step (by simp [RelayAction.faultsSender]) (step_publish hsender)
      rw [if_neg nonempty]
      exact finishes_of_waiting yields hreader rfl
  | marking clean =>
      apply Finishes.of_step (by simp [RelayAction.faultsSender]) (step_publish hsender)
      exact Finishes.of_finished rfl
  | marked clean => exact Finishes.of_finished (by rw [hsender]; rfl)
  | broken failed => exact Finishes.of_finished (by rw [hsender]; rfl)

end Sending

section Receiving

variable {r r' : Relay}

/-- Where the receiving task stands in the samples that reached it. -/
inductive Place (r : Relay) : Prop
  | reading (active : r.receiver.active) (opened : r.channel.closed = false)
      (split : r.sent = r.handed.map Sample.payload ++ r.channel.queue.map Sample.payload)
      (silent : r.closes = [])
  | halfClosed (rest : List Bytes)
      (left : r.receiver = .closing .sendEof ∨ r.receiver.finished = true)
      (split : r.sent = r.handed.map Sample.payload ++ [] :: rest)
      (close : r.closes = [.sendEof])
  | deserted (left : r.receiver.finished = true) (dropped : r.callbackDropped = true)
      (all : r.sent = r.handed.map Sample.payload) (silent : r.closes = [])

/-- The invariant of the receiving task without faults: it writes data only. -/
structure Receives (r : Relay) : Prop where
  data : [] ∉ r.handed.map Sample.payload
  place : Place r

theorem receives_init (cfg : RelayConfig) : Receives (.init cfg) :=
  ⟨List.not_mem_nil, .reading trivial rfl rfl rfl⟩

/-- A dropped callback delivers nothing. -/
theorem callback_alive {p : Bytes} (h : r.deliver cfg p = some r') : r.callbackDropped = false := by
  unfold Relay.deliver at h
  split at h
  · rename_i hidle
    exact hidle.2
  · cases h

theorem Receives.deliver {p : Bytes} (h : Receives r) (hs : r.deliver cfg p = some r')
    (hrefused : r'.refused = []) : Receives r' := by
  cases Relay.deliver_inv hs with
  | refused full callback eq =>
      subst eq
      exact absurd hrefused (by simp)
  | discarded closed eq =>
      subst eq
      refine ⟨h.data, ?_⟩
      cases h.place with
      | reading active opened split silent =>
          rw [opened] at closed
          cases closed
      | halfClosed rest left split close =>
          exact .halfClosed (rest ++ [p]) left (by simp [split]) close
      | deserted left dropped all silent =>
          rw [callback_alive hs] at dropped
          cases dropped
  | accepted channel room eq =>
      obtain ⟨hqueue, -, hclosed, hopen, -⟩ := BoundedChannel.trySend_ok room
      subst eq
      refine ⟨h.data, ?_⟩
      cases h.place with
      | reading active opened split silent =>
          refine .reading active (hclosed.trans hopen) ?_ silent
          simp [split, hqueue, Relay.nextSample]
      | halfClosed rest left split close =>
          exact .halfClosed (rest ++ [p]) left (by simp [split]) close
      | deserted left dropped all silent =>
          rw [callback_alive hs] at dropped
          cases dropped

theorem Receives.recv (h : Receives r) (ht : Relay.Taken r r') : Receives r' := by
  -- the `rx.recv()` arm is taken in the loop only
  have hreading : r.receiver = .select → r.sent = r.handed.map Sample.payload ++
      r.channel.queue.map Sample.payload ∧ r.closes = [] ∧ r.channel.closed = false := by
    intro hselect
    cases h.place with
    | reading active opened split silent => exact ⟨split, silent, opened⟩
    | halfClosed rest left split close =>
        rw [hselect] at left
        obtain hleft | hleft := left <;> cases hleft
    | deserted left dropped all silent =>
        rw [hselect] at left
        cases left
  cases ht with
  | marker sample channel select head empty eq =>
      obtain ⟨hsplit, hsilent, -⟩ := hreading select
      obtain ⟨hqueue, -, -⟩ := BoundedChannel.recv_some head
      subst eq
      refine ⟨h.data, .halfClosed (channel.queue.map Sample.payload) (Or.inl rfl) ?_ ?_⟩
      · simp only [hsplit, hqueue, List.map_cons, empty]
      · simp only [hsilent, List.nil_append]
  | data sample channel select head nonempty eq =>
      obtain ⟨hsplit, hsilent, hopened⟩ := hreading select
      obtain ⟨hqueue, -, hclosed⟩ := BoundedChannel.recv_some head
      subst eq
      constructor
      · rw [List.map_append, List.mem_append, not_or]
        refine ⟨h.data, ?_⟩
        rw [List.map_singleton, List.mem_singleton]
        exact nonempty.symm
      · exact .reading trivial (hclosed.trans hopened) (by simp [hsplit, hqueue]) hsilent

theorem Receives.calm (h : Receives r) (q : Relay.Quiet r r') (c : Relay.Calm r r') :
    Receives r' := by
  refine ⟨by rw [q.handed]; exact h.data, ?_⟩
  cases h.place with
  | reading active opened split silent =>
      have hagain : r'.receiver.active → r'.channel = r.channel → Place r' := by
        intro hactive hchannel
        refine .reading hactive (hchannel ▸ opened) ?_ (c.closes.trans silent)
        rw [q.sent, q.handed, hchannel]
        exact split
      cases c.move with
      | stays receiver channel => exact hagain (receiver ▸ active) channel
      | wrote sample before after channel => exact hagain (after ▸ trivial) channel
      | closed how before after =>
          rw [before] at active
          exact active.elim
      | deserted before drained dropped after =>
          refine .deserted (after ▸ rfl) (c.dropped dropped) ?_ (c.closes.trans silent)
          rw [q.sent, q.handed, split, drained, List.map_nil, List.append_nil]
  | halfClosed rest left split close =>
      have hagain : r'.receiver = .closing .sendEof ∨ r'.receiver.finished = true := by
        cases c.move with
        | stays receiver channel => exact receiver ▸ left
        | wrote sample before after channel =>
            rw [before] at left
            obtain hleft | hleft := left <;> cases hleft
        | closed how before after => exact Or.inr after
        | deserted before drained dropped after => exact Or.inr (after ▸ rfl)
      refine .halfClosed rest hagain ?_ (c.closes.trans close)
      rw [q.sent, q.handed]
      exact split
  | deserted left dropped all silent =>
      have hagain : r'.receiver.finished = true := by
        cases c.move with
        | stays receiver channel => exact receiver ▸ left
        | wrote sample before after channel =>
            rw [before] at left
            cases left
        | closed how before after => exact after
        | deserted before drained dropped after => exact after ▸ rfl
      refine .deserted hagain (c.dropped dropped) ?_ (c.closes.trans silent)
      rw [q.sent, q.handed]
      exact all

theorem Receives.step (h : Receives r) (hfault : ¬ a.faultsReceiver)
    (hs : r.step cfg a = some r') (hrefused : r'.refused = []) : Receives r' := by
  by_cases hdeliver : ∃ p, a = .deliver p
  · obtain ⟨p, rfl⟩ := hdeliver
    exact h.deliver hs hrefused
  by_cases hrecv : a = .recv
  · subst hrecv
    exact h.recv (Relay.recv_inv hs)
  · have hd : ∀ p, a ≠ .deliver p := fun p hp => hdeliver ⟨p, hp⟩
    have hm : ∀ p, a ≠ .miss p := by
      rintro p rfl
      exact hfault trivial
    exact h.calm (Relay.step_quiet hs hd hm hrecv) (Relay.step_calm hs hrecv hd hfault)

/-- A refused sample stays in the history. -/
theorem refused_nil (hs : r.step cfg a = some r') (hrefused : r'.refused = []) : r.refused = [] := by
  rcases Relay.step_inv hs with ⟨p, -, hd⟩ | ⟨p, -, cancelled, rfl⟩ | ⟨-, ht⟩ | ⟨-, q⟩
  · cases hd with
    | accepted channel room eq =>
        subst eq
        exact hrefused
    | discarded closed eq =>
        subst eq
        exact hrefused
    | refused full callback eq =>
        subst eq
        exact absurd hrefused (by simp)
  · exact hrefused
  · cases ht with
    | marker sample channel select head empty eq =>
        subst eq
        exact hrefused
    | data sample channel select head nonempty eq =>
        subst eq
        exact hrefused
  · exact q.refused ▸ hrefused

theorem receives_of_run {input : TransportInput} {schedule : List RelayAction}
    (run : exec (step cfg) (start cfg input) schedule = some s)
    (hfault : ∀ a ∈ schedule, ¬ a.faultsReceiver) (hrefused : s.relay.refused = []) :
    Receives s.relay := by
  have hkeep : Always (step cfg) (fun t => t.relay.refused = [] → Receives t.relay)
      (start cfg input) schedule := by
    apply always_of_along _ (fun _ => receives_init cfg) (along_of_labels hfault _)
    intro s a s' h hok hs hrefused
    have hs := step_relay hs
    exact (h (refused_nil hs hrefused)).step hok hs hrefused
  exact hkeep.last run hrefused

/-- The receiving task has nothing left to do with the samples that reached it. -/
def Settled (r : Relay) : Prop :=
  r.receiver.finished = true ∨ r.receiver = .select ∧ r.channel.queue = []

theorem inactive_of_finished {receiver : Receiver} (h : receiver.finished = true) :
    ¬ receiver.active := by
  cases receiver with
  | ended how => exact id
  | aborted => exact id
  | _ => cases h

/-- What a settled task has done with the whole encoding of an input. -/
theorem Receives.whole {peer : TransportInput} (h : Receives r) (hsent : r.sent = peer.samples)
    (hsettled : Settled r) :
    r.handed.map Sample.payload = peer.chunks ∧
      r.closes = if peer.ending = .clean then [.sendEof] else [] := by
  have hall : r.sent = r.handed.map Sample.payload → r.closes = [] →
      r.handed.map Sample.payload = peer.chunks ∧
        r.closes = if peer.ending = .clean then [.sendEof] else [] := by
    intro hhanded hsilent
    have hsamples := hsent.symm.trans hhanded
    have hfailed : peer.ending ≠ .clean := by
      intro hclean
      exact h.data (hsamples ▸ TransportInput.marker_mem hclean)
    rw [← hsamples, hsilent, if_neg hfailed, TransportInput.samples, if_neg hfailed, List.append_nil]
    exact ⟨rfl, rfl⟩
  cases h.place with
  | reading active opened split silent =>
      obtain hfinished | ⟨-, hdrained⟩ := hsettled
      · exact absurd active (inactive_of_finished hfinished)
      · rw [hdrained, List.map_nil, List.append_nil] at split
        exact hall split silent
  | halfClosed rest left split close =>
      obtain ⟨hhanded, -, hclean⟩ := TransportInput.marker_last peer (split.symm.trans hsent)
      rw [close, if_pos hclean]
      exact ⟨hhanded, rfl⟩
  | deserted left dropped all silent => exact hall all silent

/-- What the task has done while the encoding of an input is still arriving. -/
theorem Receives.part {peer : TransportInput} (h : Receives r) (hsent : r.sent <+: peer.samples) :
    r.handed.map Sample.payload <+: peer.chunks ∧
      (r.closes = [] ∨ r.closes = [.sendEof] ∧ r.handed.map Sample.payload = peer.chunks ∧
        peer.ending = .clean) := by
  have hdata : r.handed.map Sample.payload <+: r.sent →
      r.handed.map Sample.payload <+: peer.chunks := by
    intro hhanded
    exact TransportInput.data_prefix (hhanded.trans hsent) h.data
  cases h.place with
  | reading active opened split silent => exact ⟨hdata ⟨_, split.symm⟩, Or.inl silent⟩
  | halfClosed rest left split close =>
      obtain ⟨later, hlater⟩ := hsent
      have hcut : r.handed.map Sample.payload ++ [] :: (rest ++ later) = peer.samples := by
        rw [← hlater, split, List.append_assoc, List.cons_append]
      obtain ⟨hhanded, -, hclean⟩ := TransportInput.marker_last peer hcut
      exact ⟨hdata ⟨_, split.symm⟩, Or.inr ⟨close, hhanded, hclean⟩⟩
  | deserted left dropped all silent =>
      exact ⟨hdata ⟨[], by rw [all, List.append_nil]⟩, Or.inl silent⟩

/-- The receiving task can go on without a fault until it has settled, and takes no
further sample from the session for it. -/
def Settles (cfg : RelayConfig) (s : Duplex) : Prop :=
  ∃ rest t, (∀ a ∈ rest, ¬ a.faultsReceiver) ∧ exec (step cfg) s rest = some t ∧
    Settled t.relay ∧ t.relay.sent = s.relay.sent ∧ t.relay.refused = s.relay.refused

theorem Settles.of_settled (h : Settled s.relay) : Settles cfg s :=
  ⟨[], s, List.forall_mem_nil _, rfl, h, rfl, rfl⟩

theorem Settles.of_step (hfault : ¬ a.faultsReceiver) (hs : step cfg s a = some s')
    (hsent : s'.relay.sent = s.relay.sent) (hrefused : s'.relay.refused = s.relay.refused)
    (h : Settles cfg s') : Settles cfg s := by
  obtain ⟨rest, t, hrest, hrun, hsettled, hs1, hs2⟩ := h
  refine ⟨a :: rest, t, ?_, ?_, hsettled, hs1.trans hsent, hs2.trans hrefused⟩
  · exact List.forall_mem_cons.mpr ⟨hfault, hrest⟩
  · rw [exec, hs]
    exact hrun

theorem settles_of_closing {how : Close} (h : s.relay.receiver = .closing how) : Settles cfg s := by
  have hs : step cfg s (.closeDone true) = some ⟨{ s.relay with
      receiver := .ended (if how = .sendEof then .eof else .reset)
      channel := s.relay.channel.close }, s.reader⟩ := by
    simp only [step, Relay.step, Relay.closeDone, h]
    cases how <;> rfl
  exact (Settles.of_settled (Or.inl rfl)).of_step id hs rfl rfl

theorem settles_of_writing {sample : Sample} (h : s.relay.receiver = .writing sample)
    (hselect : Settles cfg ⟨{ s.relay with
      written := s.relay.written ++ [sample], receiver := .select }, s.reader⟩) :
    Settles cfg s := by
  have hs : step cfg s (.writeDone true) = some ⟨{ s.relay with
      written := s.relay.written ++ [sample], receiver := .select }, s.reader⟩ := by
    simp only [step, Relay.step, Relay.writeDone, h, if_true, Option.map_some]
  exact hselect.of_step (by simp [RelayAction.faultsReceiver]) hs rfl rfl

/-- From its `select!` the task settles: the induction is on the queued samples. -/
theorem settles_of_select (queue : List Sample) {s : Duplex} (hqueue : s.relay.channel.queue = queue)
    (h : s.relay.receiver = .select) : Settles cfg s := by
  induction queue generalizing s with
  | nil => exact Settles.of_settled (Or.inr ⟨h, hqueue⟩)
  | cons sample rest ih =>
      obtain ⟨channel, hrecv, hrest⟩ := BoundedChannel.recv_of_queue hqueue
      by_cases hempty : sample.payload = []
      · have hs : step cfg s .recv = some ⟨{ s.relay with
            channel := channel
            takenSinceRefusal := s.relay.takenSinceRefusal + if s.relay.refused = [] then 0 else 1
            marker := some sample
            receiver := .closing .sendEof
            closes := s.relay.closes ++ [.sendEof] }, s.reader⟩ := by
          simp only [step, Relay.step, Relay.recv, h, hrecv, if_true, if_pos hempty, Option.map_some]
        exact (settles_of_closing rfl).of_step id hs rfl rfl
      · have hs : step cfg s .recv = some ⟨{ s.relay with
            channel := channel
            takenSinceRefusal := s.relay.takenSinceRefusal + if s.relay.refused = [] then 0 else 1
            handed := s.relay.handed ++ [sample]
            receiver := .writing sample }, s.reader⟩ := by
          simp only [step, Relay.step, Relay.recv, h, hrecv, if_true, if_neg hempty, Option.map_some]
        apply Settles.of_step id hs rfl rfl
        exact settles_of_writing rfl (ih (by exact hrest) rfl)

theorem settles (cfg : RelayConfig) (s : Duplex) : Settles cfg s := by
  cases h : s.relay.receiver with
  | select => exact settles_of_select _ rfl h
  | writing sample => exact settles_of_writing h (settles_of_select _ rfl rfl)
  | closing how => exact settles_of_closing h
  | ended how => exact Settles.of_settled (Or.inl (by rw [h]; rfl))
  | aborted => exact Settles.of_settled (Or.inl (by rw [h]; rfl))

end Receiving

section Independence

/-- What an action leaves of the reader, if the reader lets it happen. -/
def nextReader (reader : SocketReader) : RelayAction → Option SocketReader
  | .read result => if (readData reader).1 = result then some (readData reader).2 else none
  | _ => some reader

theorem step_eq_bind (cfg : RelayConfig) (s : Duplex) (a : RelayAction) :
    step cfg s a = (nextReader s.reader a).bind fun reader =>
      (s.relay.step cfg a).map fun relay => ⟨relay, reader⟩ := by
  cases a with
  | read result =>
      simp only [step, nextReader]
      split <;> rfl
  | _ => rfl

/-- Actions that commute in the relay commute next to a reader that one of them uses. -/
theorem comm_lift {b : RelayAction} (h : Commute (Relay.step cfg) a b)
    (hb : ∀ result, b ≠ .read result) : Commute (step cfg) a b := by
  intro s
  simp only [step_eq hb]
  simp only [step_eq_bind cfg _ a]
  cases hnext : nextReader s.reader a with
  | none => cases s.relay.step cfg b <;> simp [hnext]
  | some reader =>
      have hcomm := congrArg (Option.map fun relay => (⟨relay, reader⟩ : Duplex)) (h s.relay)
      simpa [Option.map_bind, Option.bind_map, Function.comp_def, hnext] using hcomm

/-- The steps by which a sending task ends its direction at a clean end of its input. -/
def publishesEof : List RelayAction := [.read (some []), .publishDone true]

/-- The steps by which a receiving task ends its direction at the EOF marker. -/
def halfClosesSocket : List RelayAction := [.recv, .closeDone true]

/-- The end of the sending direction and any steps of the other parties can be taken in
either order, with the same result. -/
theorem publishesEof_comm {others : List RelayAction} (h : ∀ b ∈ others, ¬ b.sending) (s : Duplex) :
    exec (step cfg) s (publishesEof ++ others) = exec (step cfg) s (others ++ publishesEof) := by
  apply exec_comm
  intro a ha b hb
  have hother : ∀ result, b ≠ .read result := by
    rintro result rfl
    exact h _ hb trivial
  rcases List.mem_pair.mp ha with rfl | rfl
  · exact comm_lift (Relay.publishing_comm trivial id (by simp [RelayAction.trips]) (h b hb)) hother
  · refine comm_lift (Relay.publishing_comm trivial ?_ ?_ (h b hb)) hother
    · exact Bool.noConfusion
    · exact Bool.noConfusion

/-- The end of the receiving direction and any steps of the sending task can be taken in
either order, with the same result. -/
theorem halfClosesSocket_comm {others : List RelayAction} (h : ∀ b ∈ others, b.sending)
    (s : Duplex) :
    exec (step cfg) s (halfClosesSocket ++ others) =
      exec (step cfg) s (others ++ halfClosesSocket) := by
  apply exec_comm
  intro a ha b hb
  have hcloses : a.halfCloses ∧ ∀ result, a ≠ .read result := by
    rcases List.mem_pair.mp ha with rfl | rfl
    · exact ⟨trivial, by simp⟩
    · exact ⟨rfl, by simp⟩
  exact (comm_lift (Relay.halfCloses_comm hcloses.1 (h b hb)).symm hcloses.2).symm

/-- Steps that do not trip the token leave it as it was. -/
theorem cancelled_of_exec {labels : List RelayAction} (h : ∀ a ∈ labels, ¬ a.trips)
    (run : exec (step cfg) s labels = some s') : s'.relay.cancelled = s.relay.cancelled := by
  have hkeep : Always (step cfg) (fun t => t.relay.cancelled = s.relay.cancelled) s labels := by
    refine always_of_along ?_ ?_ (along_of_labels h _)
    · intro t a t' ht hok hs
      exact (Relay.cancelled_of_not_trips hok (step_relay hs)).trans ht
    · rfl
  exact hkeep.last run

theorem publishesEof_not_trips : ∀ a ∈ publishesEof, ¬ a.trips := by
  simp [publishesEof, RelayAction.trips]

theorem halfClosesSocket_not_trips : ∀ a ∈ halfClosesSocket, ¬ a.trips := by
  simp [halfClosesSocket, RelayAction.trips]

end Independence

/-- What the sending task publishes of its input: at every moment a part of the encoding,
and without a fault of its own the whole of it, which it can always reach. -/
def SendsEncoding (cfg : RelayConfig) (input : TransportInput) (schedule : List RelayAction)
    (s : Duplex) : Prop :=
  [] ∉ input.chunks ∧ s.relay.published <+: input.samples ∧
    ((∀ a ∈ schedule, ¬ a.faultsSender) →
      (s.relay.sender.finished = true → s.relay.published = input.samples) ∧ Finishes cfg s)

/-- What the receiving task does with the encoding of an input of its peer: while it arrives
it has written a part of the chunks and half-closes after all of them; once the whole
encoding was received, it can always settle, and then it has written exactly the chunks and
has half-closed exactly when the EOF marker was there. -/
def ReceivesEncoding (cfg : RelayConfig) (peer : TransportInput) (schedule : List RelayAction)
    (s : Duplex) : Prop :=
  (∀ a ∈ schedule, ¬ a.faultsReceiver) → s.relay.refused = [] → s.relay.sent <+: peer.samples →
    (s.relay.handed.map Sample.payload <+: peer.chunks ∧
      (s.relay.closes = [] ∨ s.relay.closes = [.sendEof] ∧
        s.relay.handed.map Sample.payload = peer.chunks ∧ peer.ending = .clean)) ∧
    Settles cfg s ∧
    (s.relay.sent = peer.samples → Settled s.relay →
      s.relay.handed.map Sample.payload = peer.chunks ∧
        s.relay.closes = if peer.ending = .clean then [.sendEof] else [])

/-- The end of one direction leaves the token and the other direction alone. -/
def EndsAlone (cfg : RelayConfig) (schedule : List RelayAction) (s : Duplex) : Prop :=
  ((∀ a ∈ schedule, ¬ a.trips) → s.relay.cancelled = false) ∧
    (∀ t, exec (step cfg) s publishesEof = some t → t.relay.cancelled = s.relay.cancelled) ∧
    (∀ t, exec (step cfg) s halfClosesSocket = some t → t.relay.cancelled = s.relay.cancelled) ∧
    (∀ others, (∀ b ∈ others, ¬ b.sending) →
      exec (step cfg) s (publishesEof ++ others) = exec (step cfg) s (others ++ publishesEof)) ∧
    (∀ others, (∀ b ∈ others, b.sending) →
      exec (step cfg) s (halfClosesSocket ++ others) =
        exec (step cfg) s (others ++ halfClosesSocket))

/-- The in-band EOF encoding is unambiguous, over every input of both transports, every
sample sequence that encodes one, and every run of the relay. -/
theorem eof_encoding_unambiguous (cfg : RelayConfig) (input : TransportInput)
    {schedule : List RelayAction} {s : Duplex}
    (run : exec (step cfg) (start cfg input) schedule = some s) :
    SendsEncoding cfg input schedule s ∧ (∀ peer, ReceivesEncoding cfg peer schedule s) ∧
      EndsAlone cfg schedule s := by
  refine ⟨⟨input.nil_notMem_chunks, ?_, ?_⟩, ?_, ?_⟩
  · obtain hsends | hstopped := sends_or_stopped run
    · exact hsends.published_samples
    · exact hstopped.published.trans (List.prefix_append _ _)
  · intro hfault
    have hsends := sends_of_run run hfault
    exact ⟨hsends.samples, hsends.finishes⟩
  · intro peer hfault hrefused hsent
    have hreceives := receives_of_run run hfault hrefused
    exact ⟨hreceives.part hsent, settles cfg s, hreceives.whole⟩
  · refine ⟨?_, ?_, ?_, ?_, ?_⟩
    · intro htrips
      exact cancelled_of_exec htrips run
    · intro t hrun
      exact cancelled_of_exec publishesEof_not_trips hrun
    · intro t hrun
      exact cancelled_of_exec halfClosesSocket_not_trips hrun
    · intro others hothers
      exact publishesEof_comm hothers s
    · intro others hothers
      exact halfClosesSocket_comm hothers s

/-- A WebSocket client sends an empty frame, a ping, one text message and a close. -/
theorem eof_encoding_of_ws_close :
    ∃ s, exec (step ⟨1, .stream, .importing⟩)
        (start ⟨1, .stream, .importing⟩ (.ws ⟨[.binary [], .ping [1], .text "a", .close], .clean⟩))
        [.read (some [97]), .publishDone true, .read (some []), .publishDone true] = some s ∧
      s.relay.published = [[97], []] ∧ s.relay.cancelled = false := by
  obtain ⟨s, run, hfinished⟩ : ∃ s, exec (step ⟨1, .stream, .importing⟩)
      (start ⟨1, .stream, .importing⟩ (.ws ⟨[.binary [], .ping [1], .text "a", .close], .clean⟩))
      [.read (some [97]), .publishDone true, .read (some []), .publishDone true] = some s ∧
      s.relay.sender.finished = true := ⟨_, rfl, rfl⟩
  have h := eof_encoding_unambiguous _ _ run
  refine ⟨s, run, ?_, ?_⟩
  · exact (h.1.2.2 (by simp [RelayAction.faultsSender])).1 hfinished
  · exact h.2.2.1 (by simp [RelayAction.trips])

end Duplex

end ZenohBridge
