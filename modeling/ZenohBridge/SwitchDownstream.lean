import ZenohBridge.Foundation.Chunks
import ZenohBridge.MultirouteControl
import ZenohBridge.SwitchUpstream

/-!
# The backend's bytes across a protocol switch

What the backend sends after the head of its switching response is written to the client as it
comes: what the parser holds, what it refused, and the samples up to the first empty one. The
samples of the running exchange and the place of its last response head are not kept by the
handler; `Watched` records them beside it.

Two things break the order. Bytes of an earlier response that are left where an exchange starts
are framed with those of its own backend, and a sample that is taken over a refused tail
overwrites it, so that the parser frames what was not sent in one piece. Where neither happens,
what is written is what the samples hold.
-/

namespace ZenohBridge

open Execution Chunks

namespace Multiroute

/-- A connection with the samples of its running exchange, with the last response head that was
written in that exchange, and with the number of bytes written up to the end of that head. -/
structure Watched (P : HttpProxyParser Octet) where
  conn : Multiroute P
  samples : List Octets
  headEnd : Nat
  head : Octets

variable {P : HttpProxyParser Octet} {C : P.Conserves} {cfg : MultirouteConfig}
  {s s' : Multiroute P} {a : MultirouteAction}

/-- What was written to the client in the running exchange. -/
def writtenDown (s : Multiroute P) : Octets := bytesFor s.requestNum s.log.written

theorem writtenDown_wrote (s : Multiroute P) (data : Octets) :
    (s.wrote data).writtenDown = s.writtenDown ++ data :=
  calc (s.wrote data).writtenDown
    _ = bytesFor s.requestNum (s.log.written ++ [(s.requestNum, data)]) := rfl
    _ = s.writtenDown ++ data := by
      rw [bytesFor_append, bytesFor_cons_self, bytesFor_nil, List.append_nil, writtenDown]

namespace Watched

def init (P : HttpProxyParser Octet) : Watched P := ⟨Multiroute.init P, [], 0, []⟩

/-- The samples after a step: those of one exchange. -/
def samplesAfter (w : Watched P) : MultirouteAction → List Octets
  | .sample payload => w.samples ++ [octets (.backend w.conn.requestNum) payload]
  | _ =>
      match w.conn.phase with
      | .publishHead _ _ => []
      | _ => w.samples

/-- The end of the last response head after a step to `s'`. -/
def headEndAfter (w : Watched P) (s' : Multiroute P) : Nat :=
  match w.conn.phase, w.conn.events with
  | .publishHead _ _, _ => 0
  | .events _, .responseHead _ :: _ => s'.writtenDown.length
  | _, _ => w.headEnd

/-- The last response head after a step. -/
def headAfter (w : Watched P) : Octets :=
  match w.conn.phase, w.conn.events with
  | .publishHead _ _, _ => []
  | .events _, .responseHead head :: _ => head.raw
  | _, _ => w.head

/-- What is recorded with a step to `s'`. -/
def after (w : Watched P) (a : MultirouteAction) (s' : Multiroute P) : Watched P :=
  ⟨s', w.samplesAfter a, w.headEndAfter s', w.headAfter⟩

/-- One step of the watched connection. -/
def step (cfg : MultirouteConfig) (w : Watched P) (a : MultirouteAction) : Option (Watched P) :=
  (w.conn.step cfg a).map (w.after a)

/-- After a switch the bytes written behind the switching head are a prefix of what follows that
head in the samples, up to the first empty one. -/
def WrittenInOrder (w : Watched P) : Prop :=
  w.conn.exchange.switched = true →
    ∃ n ≤ w.samples.flatten.length, w.head <:+ w.samples.flatten.take n ∧
      w.conn.writtenDown.drop w.headEnd <+: following n w.samples

instance : DecidablePred (WrittenInOrder (P := P)) := fun _ =>
  inferInstanceAs (Decidable (_ → ∃ n ≤ _, _))

/-- A protocol switch splices both directions without loss and in order. -/
def SplicedInOrder (w : Watched P) : Prop := w.conn.PublishedInOrder ∧ w.WrittenInOrder

instance : DecidablePred (SplicedInOrder (P := P)) := fun _ => inferInstanceAs (Decidable (_ ∧ _))

end Watched

/-- After a switch the bytes up to the head's end are what the samples begin with, and those
written after it are what follows in the samples. -/
def Watched.WrittenWhole (w : Watched P) : Prop :=
  w.conn.exchange.switched = true →
    w.conn.writtenDown.take w.headEnd <+: w.samples.flatten ∧
    w.conn.writtenDown.drop w.headEnd <+: following w.headEnd w.samples

/-- `TailFirst` is about the samples alone. -/
instance (s : Multiroute P) : ∀ a, Decidable (TailFirst s a)
  | .sample _ =>
      decidable_of_iff (s.phase = .select → s.exchange.respPending = [])
        ⟨fun h phase _ _ => h phase, fun h phase => h phase _ rfl⟩
  | .tick | .read _ | .readEof | .readFailed | .shutdown | .route .. | .setupDone _ | .publish _
  | .write _ | .channelClosed | .timeout | .overflow => isTrue nofun

/-- The response events and the report of a switch, in order. -/
def responses (events : List (HttpEvent Octet)) : List (HttpEvent Octet) :=
  events.filter fun e => e.side ≠ some .initiator

theorem responses_append (xs ys : List (HttpEvent Octet)) :
    responses (xs ++ ys) = responses xs ++ responses ys :=
  List.filter_append ..

theorem responses_cons {e : HttpEvent Octet} (h : e.side ≠ some .initiator)
    (events : List (HttpEvent Octet)) : responses (e :: events) = e :: responses events :=
  List.filter_cons_of_pos (decide_eq_true h)

theorem responses_cons_initiator {e : HttpEvent Octet} (h : e.side = some .initiator)
    (events : List (HttpEvent Octet)) : responses (e :: events) = responses events :=
  List.filter_cons_of_neg (by simpa using h)

theorem responses_eq_nil {events : List (HttpEvent Octet)}
    (h : ∀ e ∈ events, e.side = some .initiator) : responses events = [] :=
  List.filter_eq_nil_iff.mpr fun e he => by simpa using h e he

theorem rawsOn_responder_eq_nil {events : List (HttpEvent Octet)}
    (h : ∀ e ∈ events, e.side = some .initiator) : rawsOn .responder events = [] := by
  apply List.flatMap_eq_nil_iff.mpr
  intro e he
  exact rawOn_eq_nil (by rw [h e he]; decide)

theorem mem_responses {events : List (HttpEvent Octet)} :
    .switchProtocols ∈ responses events ↔ .switchProtocols ∈ events := by
  rw [responses, List.mem_filter]
  exact and_iff_left (by decide)

/-- Where the report of a switch waits: behind its head, or next, with the head written. -/
def Announced (written headEnd : Nat) (waiting : List (HttpEvent Octet)) : Prop :=
  (∃ before head, waiting = before ++ [.responseHead head, .switchProtocols] ∧
    .switchProtocols ∉ before) ∨ (waiting = [.switchProtocols] ∧ headEnd = written)

/-- The bytes are less than the last sample. -/
def InLast (samples : List Octets) (bytes : Octets) : Prop :=
  ∃ earlier last, samples = earlier ++ [last] ∧ bytes.length < last.length

/-- The loop of an exchange: the samples are what was written, what waits in the queue, what the
parser holds and the refused tail, and a switch that was reported came with the last sample. -/
structure RelayedDown (C : P.Conserves) (samples : List Octets) (headEnd : Nat)
    (s : Multiroute P) : Prop where
  carried : ∀ e ∈ s.phase.carry, e.side = some .initiator
  waits : s.phase = .select → .switchProtocols ∉ s.queue
  whole : samples.flatten = s.writtenDown ++ rawsOn .responder s.queue ++
    C.buffered .responder s.parser ++ s.exchange.respPending
  tail : s.exchange.respPending ≠ [] →
    ∃ earlier last, samples = earlier ++ [last] ∧ s.exchange.respPending.length ≤ last.length
  due : .switchProtocols ∈ s.queue →
    InLast samples (C.buffered .responder s.parser ++ s.exchange.respPending) ∧
      Announced s.writtenDown.length headEnd (responses s.queue)

section Relayed

variable {samples : List Octets} {headEnd : Nat}

/-- The events put aside are request events. -/
theorem RelayedDown.carried_of_events (h : RelayedDown C samples headEnd s)
    {carry : List (HttpEvent Octet)} (phase : s.phase = .events carry) :
    ∀ e ∈ carry, e.side = some .initiator := by
  have hcarry := h.carried
  rw [phase] at hcarry
  exact hcarry

/-- A drain that reports no switch. -/
theorem RelayedDown.drain (h : RelayedDown C samples headEnd s) (T : HttpProxyParser.Tunnels C)
    (tunnel : .switchProtocols ∈ s.queue → P.isTunnelled s.parser = true) {p : P.State}
    (hp : C.buffered .responder p = C.buffered .responder s.parser)
    (htunnel : P.isTunnelled s.parser = true → P.isTunnelled p = true)
    (quiet : .switchProtocols ∉ (P.drainEvents p).1)
    (hparser : s'.parser = (P.drainEvents p).2)
    (hevents : s'.events = s.events ++ (P.drainEvents p).1) (hphase : s'.phase = s.phase)
    (hwritten : s'.writtenDown = s.writtenDown)
    (hpending : s'.exchange.respPending = s.exchange.respPending) :
    RelayedDown C samples headEnd s' := by
  have hqueue : s'.queue = s.queue ++ (P.drainEvents p).1 := by
    rw [queue, queue, hphase, hevents, List.append_assoc]
  have hmem : .switchProtocols ∈ s'.queue → .switchProtocols ∈ s.queue := by
    rw [hqueue, List.mem_append]
    exact fun hm => hm.resolve_right quiet
  refine ⟨?_, ?_, ?_, ?_, ?_⟩
  · rw [hphase]
    exact h.carried
  · rw [hphase]
    exact fun hselect hm => h.waits hselect (hmem hm)
  · rw [h.whole, hwritten, hqueue, rawsOn_append, hpending, hparser, ← hp,
      C.drainEvents .responder p]
    simp only [List.append_assoc]
  · rw [hpending]
    exact h.tail
  · intro hm
    -- the report is not new, so the parser is tunnelled and the drain empty
    have hold := hmem hm
    have hempty := HttpProxyParser.drainEvents_of_none (T.nextEvent p (htunnel (tunnel hold)))
    rw [hempty] at hparser hqueue
    have hsame : s'.queue = s.queue := hqueue.trans (List.append_nil _)
    rw [hparser, hp, hpending, hwritten, hsame]
    exact h.due hold

/-- A new report is announced by its head. -/
theorem announced_of_reported (T : HttpProxyParser.Tunnels C) {p : P.State}
    {queued before : List (HttpEvent Octet)} {head : ResponseHead Octet}
    (hqueued : .switchProtocols ∉ queued)
    (hevents : (P.drainEvents p).1 = before ++ [.responseHead head, .switchProtocols])
    (written : Nat) : Announced written headEnd (responses (queued ++ (P.drainEvents p).1)) := by
  have hmem : .switchProtocols ∈ (P.drainEvents p).1 := by
    rw [hevents]
    exact List.mem_append_right _ (by simp)
  obtain ⟨-, others, hothers, hlast⟩ := T.drainEvents hmem
  have hsplit : before ++ [.responseHead head] = others := by
    have hsame : (before ++ [.responseHead head]) ++ [HttpEvent.switchProtocols] =
        others ++ [.switchProtocols] := by
      rw [← hothers, hevents, List.append_assoc]
      rfl
    exact List.append_cancel_right hsame
  refine .inl ⟨responses (queued ++ before), head, ?_, ?_⟩
  · rw [hevents, ← List.append_assoc, responses_append]
    rfl
  · rw [mem_responses, List.mem_append, not_or]
    refine ⟨hqueued, fun hbefore => hlast ?_⟩
    rw [← hsplit]
    exact List.mem_append_left _ hbefore

/-- The response bytes that are offered are a part of the last sample. -/
theorem RelayedDown.feedResponse (h : RelayedDown C samples headEnd s)
    (T : HttpProxyParser.Tunnels C) (drained : P.nextEvent s.parser = none)
    (tunnel : .switchProtocols ∈ s.queue → P.isTunnelled s.parser = true)
    (hselect : s.phase ≠ .select) {samples' : List Octets} {bytes : Octets}
    (hwhole : samples'.flatten = s.writtenDown ++ rawsOn .responder s.queue ++
      C.buffered .responder s.parser ++ bytes)
    (hlast : ∃ earlier last, samples' = earlier ++ [last] ∧ bytes.length ≤ last.length)
    (hdue : .switchProtocols ∈ s.queue →
      InLast samples' (C.buffered .responder s.parser ++ bytes)) :
    RelayedDown C samples' headEnd (s.feedResponse bytes) := by
  obtain ⟨earlier, last, hsamples, hlength⟩ := hlast
  have hsplit : (P.pushBytes .responder s.parser bytes).accepted ++
      (P.pushBytes .responder s.parser bytes).tail = bytes :=
    HttpProxyParser.pushBytes_split s.parser bytes
  have hpushed : C.buffered .responder (P.pushBytes .responder s.parser bytes).parser =
      C.buffered .responder s.parser ++ (P.pushBytes .responder s.parser bytes).accepted :=
    C.pushBytes s.parser bytes
  have hdrain := C.drainEvents .responder (P.pushBytes .responder s.parser bytes).parser
  have hkept : C.buffered .responder s.parser ++ bytes =
      rawsOn .responder (P.drainEvents (P.pushBytes .responder s.parser bytes).parser).1 ++
        (C.buffered .responder (P.drainEvents (P.pushBytes .responder s.parser bytes).parser).2 ++
          (P.pushBytes .responder s.parser bytes).tail) :=
    calc C.buffered .responder s.parser ++ bytes
      _ = C.buffered .responder (P.pushBytes .responder s.parser bytes).parser ++
          (P.pushBytes .responder s.parser bytes).tail := by
        rw [hpushed, List.append_assoc, hsplit]
      _ = _ := by rw [hdrain, List.append_assoc]
  have hqueue : (s.feedResponse bytes).queue =
      s.queue ++ (P.drainEvents (P.pushBytes .responder s.parser bytes).parser).1 :=
    (List.append_assoc ..).symm
  have hparts : (P.pushBytes .responder s.parser bytes).accepted.length +
      (P.pushBytes .responder s.parser bytes).tail.length = bytes.length := by
    rw [← List.length_append, hsplit]
  refine ⟨h.carried, fun hphase => absurd hphase hselect, ?_, fun _ => ?_, ?_⟩
  · change samples'.flatten = s.writtenDown ++ rawsOn .responder (s.feedResponse bytes).queue ++
      C.buffered .responder (P.drainEvents (P.pushBytes .responder s.parser bytes).parser).2 ++
      (P.pushBytes .responder s.parser bytes).tail
    rw [hwhole, hqueue, rawsOn_append]
    simp only [List.append_assoc, hkept]
  · refine ⟨earlier, last, hsamples, ?_⟩
    change (P.pushBytes .responder s.parser bytes).tail.length ≤ last.length
    omega
  · intro hmem
    change InLast samples' (C.buffered .responder
        (P.drainEvents (P.pushBytes .responder s.parser bytes).parser).2 ++
        (P.pushBytes .responder s.parser bytes).tail) ∧
      Announced s.writtenDown.length headEnd (responses (s.feedResponse bytes).queue)
    rw [hqueue] at hmem ⊢
    by_cases hold : .switchProtocols ∈ s.queue
    · have htunnelled := T.pushBytes .responder bytes (tunnel hold)
      rw [HttpProxyParser.drainEvents_of_none (T.nextEvent _ htunnelled), hpushed,
        List.append_assoc, hsplit, List.append_nil]
      exact ⟨hdue hold, (h.due hold).2⟩
    · have hnew := (List.mem_append.mp hmem).resolve_left hold
      obtain ⟨before, head, hevents, hshort⟩ := T.reports s.parser bytes drained hnew
      refine ⟨⟨earlier, last, hsamples, ?_⟩, announced_of_reported T hold hevents _⟩
      rw [List.length_append]
      omega

/-- A move that keeps the queue. -/
theorem RelayedDown.move (h : RelayedDown C samples headEnd s)
    (hcarried : ∀ e ∈ s'.phase.carry, e.side = some .initiator)
    (hwaits : s'.phase = .select → .switchProtocols ∉ s'.queue)
    (hqueue : s'.queue = s.queue) (hparser : s'.parser = s.parser)
    (hpending : s'.exchange.respPending = s.exchange.respPending)
    (hwritten : s'.writtenDown = s.writtenDown) : RelayedDown C samples headEnd s' := by
  refine ⟨hcarried, hwaits, ?_, ?_, ?_⟩
  · rw [hqueue, hparser, hpending, hwritten]
    exact h.whole
  · rw [hpending]
    exact h.tail
  · rw [hqueue, hparser, hpending, hwritten]
    exact h.due

/-- The event loop handles a request event. -/
theorem RelayedDown.pass (h : RelayedDown C samples headEnd s) {carry rest : List (HttpEvent Octet)}
    {e : HttpEvent Octet} (phase : s.phase = .events carry) (events : s.events = e :: rest)
    (hside : e.side = some .initiator) (hphase : s'.phase = s.phase) (hevents : s'.events = rest)
    (hparser : s'.parser = s.parser)
    (hpending : s'.exchange.respPending = s.exchange.respPending)
    (hwritten : s'.writtenDown = s.writtenDown) : RelayedDown C samples headEnd s' := by
  have hqueue : s.queue = carry ++ e :: rest := queue_of_events phase events
  have hqueue' : s'.queue = carry ++ rest := queue_of_events (hphase.trans phase) hevents
  have hresponses : responses s'.queue = responses s.queue := by
    rw [hqueue, hqueue', responses_append, responses_append, responses_cons_initiator hside]
  have hraws : rawsOn .responder s'.queue = rawsOn .responder s.queue := by
    rw [hqueue, hqueue', rawsOn_append, rawsOn_append, rawsOn_cons,
      rawOn_eq_nil (e := e) (by rw [hside]; decide), List.nil_append]
  refine ⟨?_, ?_, ?_, ?_, ?_⟩
  · rw [hphase]
    exact h.carried
  · rw [hphase, phase]
    nofun
  · rw [hraws, hparser, hpending, hwritten]
    exact h.whole
  · rw [hpending]
    exact h.tail
  · rw [← mem_responses, hresponses, mem_responses, hparser, hpending, hwritten]
    exact h.due

/-- The event loop writes a response event. -/
theorem RelayedDown.relay (h : RelayedDown C samples headEnd s)
    {carry rest : List (HttpEvent Octet)} {e : HttpEvent Octet} {headEnd' : Nat}
    (phase : s.phase = .events carry) (events : s.events = e :: rest)
    (hside : e.side = some .responder) (hphase : s'.phase = s.phase) (hevents : s'.events = rest)
    (hparser : s'.parser = s.parser)
    (hpending : s'.exchange.respPending = s.exchange.respPending)
    (hwritten : s'.writtenDown = s.writtenDown ++ e.raw)
    (hhead : ∀ head, e = .responseHead head → headEnd' = s'.writtenDown.length) :
    RelayedDown C samples headEnd' s' := by
  have hcarried := h.carried_of_events phase
  have hqueue : s.queue = carry ++ e :: rest := queue_of_events phase events
  have hqueue' : s'.queue = carry ++ rest := queue_of_events (hphase.trans phase) hevents
  have hresponses : responses s.queue = e :: responses s'.queue := by
    rw [hqueue, hqueue', responses_append, responses_append, responses_eq_nil hcarried,
      responses_cons (by rw [hside]; decide)]
    rfl
  refine ⟨?_, ?_, ?_, ?_, ?_⟩
  · rw [hphase]
    exact h.carried
  · rw [hphase, phase]
    nofun
  · rw [h.whole, hwritten, hqueue, hqueue', rawsOn_append, rawsOn_append, rawsOn_cons,
      rawsOn_responder_eq_nil hcarried, rawOn_eq_raw hside, hparser, hpending]
    simp only [List.nil_append, List.append_assoc]
  · rw [hpending]
    exact h.tail
  · intro hmem
    have hbefore : .switchProtocols ∈ s.queue := by
      rw [← mem_responses, hresponses]
      exact List.mem_cons_of_mem _ (mem_responses.mpr hmem)
    obtain ⟨hlast, hannounced⟩ := h.due hbefore
    rw [hresponses] at hannounced
    refine ⟨by rw [hparser, hpending]; exact hlast, ?_⟩
    obtain ⟨before, head, hwaiting, hfirst⟩ | ⟨hwaiting, -⟩ := hannounced
    · cases before with
      | nil =>
          obtain ⟨rfl, hrest⟩ := List.cons.inj hwaiting
          exact .inr ⟨hrest, hhead head rfl⟩
      | cons e' before =>
          obtain ⟨rfl, hrest⟩ := List.cons.inj hwaiting
          exact .inl ⟨before, head, hrest, fun hm => hfirst (List.mem_cons_of_mem _ hm)⟩
    · obtain ⟨rfl, -⟩ := List.cons.inj hwaiting
      contradiction

/-- At the re-offer of the exchange loop. -/
theorem RelayedDown.reoffered (h : RelayedDown C samples headEnd s)
    (T : HttpProxyParser.Tunnels C) (tunnel : TunnelInv s) (hplain : s.exchange.switched = false)
    (phase : s.phase = .exchange) :
    RelayedDown C samples headEnd (s.reofferClient.reofferResponse.goto (.events [])) := by
  have hopen : s.phase ≠ .closed := by rw [phase]; nofun
  have hclient : RelayedDown C samples headEnd s.reofferClient ∧ TunnelInv s.reofferClient := by
    unfold reofferClient
    split
    · refine ⟨?_, tunnel.feedClient T (by rw [phase]; trivial) _⟩
      exact h.drain T (tunnel.reported hplain hopen) (C.pushBytes_other (by decide) ..)
        (T.pushBytes .initiator _) (T.quiet _ _ (tunnel.drained hplain)) rfl rfl rfl rfl rfl
    · exact ⟨h, tunnel⟩
  obtain ⟨hclient, htunnel⟩ := hclient
  have hphase : s.reofferClient.phase = .exchange := (reofferClient_phase s).trans phase
  have hplain' : s.reofferClient.exchange.switched = false := by
    rw [(reofferClient_down s).2]
    exact hplain
  have hresponse : RelayedDown C samples headEnd s.reofferClient.reofferResponse := by
    unfold reofferResponse
    split
    · rename_i hpending
      refine hclient.feedResponse T (htunnel.drained hplain')
        (htunnel.reported hplain' (by rw [hphase]; nofun)) (by rw [hphase]; nofun) hclient.whole
        (hclient.tail hpending) fun hm => (hclient.due hm).1
    · exact hclient
  have hphase' : s.reofferClient.reofferResponse.phase = .exchange :=
    (reofferResponse_phase _).trans hphase
  refine hresponse.move nofun nofun ?_ rfl rfl rfl
  exact (settles_goto _ _).queue (by rw [hphase']; rfl) rfl

end Relayed

/-- The response bytes that the splice is about to write. -/
def heldDown (C : P.Conserves) (s : Multiroute P) : Octets :=
  match s.phase with
  | .spliceStart | .spliceUp _ => C.buffered .responder s.parser ++ s.exchange.respPending
  | .spliceDown chunks => chunks.flatten
  | .spliceWrite data => data
  | _ => []

/-- The splice: the samples are what was written and what the handler holds, and no empty sample
comes after the switching head. -/
structure SplicedDown (C : P.Conserves) (samples : List Octets) (headEnd : Nat)
    (s : Multiroute P) : Prop where
  whole : samples.flatten = s.writtenDown ++ heldDown C s
  behind : headEnd ≤ s.writtenDown.length
  unended : Unended headEnd samples

section Spliced

variable {samples : List Octets} {headEnd : Nat}

theorem SplicedDown.inOrder (h : SplicedDown C samples headEnd s) :
    s.writtenDown.take headEnd <+: samples.flatten ∧
      s.writtenDown.drop headEnd <+: following headEnd samples := by
  rw [h.unended.following_eq, h.whole, List.drop_append_of_le_length h.behind]
  exact ⟨(List.take_prefix _ _).trans (List.prefix_append _ _), List.prefix_append _ _⟩

/-- An empty sample ends what follows the head. -/
theorem SplicedDown.inOrder_end (h : SplicedDown C samples headEnd s) :
    s.writtenDown.take headEnd <+: (samples ++ [[]]).flatten ∧
      s.writtenDown.drop headEnd <+: following headEnd (samples ++ [[]]) := by
  rw [following_end, List.flatten_append, List.flatten_singleton, List.append_nil]
  exact h.inOrder

/-- A step of the splice that writes `data` out of what is held. -/
theorem SplicedDown.write (h : SplicedDown C samples headEnd s) {data : Octets}
    (hwritten : s'.writtenDown = s.writtenDown ++ data)
    (hheld : heldDown C s = data ++ heldDown C s') : SplicedDown C samples headEnd s' := by
  refine ⟨?_, ?_, h.unended⟩
  · rw [h.whole, hwritten, hheld, List.append_assoc]
  · rw [hwritten, List.length_append]
    exact Nat.le_add_right_of_le h.behind

/-- A step of the splice that writes nothing. -/
theorem SplicedDown.keep (h : SplicedDown C samples headEnd s)
    (hwritten : s'.writtenDown = s.writtenDown) (hheld : heldDown C s' = heldDown C s) :
    SplicedDown C samples headEnd s' := by
  refine ⟨?_, ?_, h.unended⟩
  · rw [h.whole, hwritten, hheld]
  · rw [hwritten]
    exact h.behind

/-- A sample that is not empty. -/
theorem SplicedDown.receive (h : SplicedDown C samples headEnd s) {data : Octets}
    (hdata : data ≠ []) (hwritten : s'.writtenDown = s.writtenDown)
    (hheld : heldDown C s' = heldDown C s ++ data) :
    SplicedDown C (samples ++ [data]) headEnd s' := by
  refine ⟨?_, ?_, h.unended.snoc hdata⟩
  · rw [List.flatten_append, List.flatten_singleton, h.whole, hwritten, hheld, List.append_assoc]
  · rw [hwritten]
    exact h.behind

/-- When the switch is handled, its head has just been written, out of the last sample. -/
theorem RelayedDown.switch (h : RelayedDown C samples headEnd s)
    {carry rest : List (HttpEvent Octet)} (phase : s.phase = .events carry)
    (events : s.events = .switchProtocols :: rest) :
    SplicedDown C samples headEnd { s with
      phase := .spliceStart
      events := carry ++ rest
      exchange := { s.exchange with switched := true } } := by
  have hcarried := h.carried_of_events phase
  have hqueue : s.queue = carry ++ .switchProtocols :: rest := queue_of_events phase events
  have hside : ∀ side, (HttpEvent.switchProtocols : HttpEvent Octet).side ≠ some side := nofun
  have hresponses : responses s.queue = .switchProtocols :: responses rest := by
    rw [hqueue, responses_append, responses_eq_nil hcarried, responses_cons (hside _)]
    rfl
  have hmem : .switchProtocols ∈ s.queue := by
    rw [hqueue]
    exact List.mem_append_right _ (List.mem_cons_self ..)
  obtain ⟨⟨earlier, last, rfl, hshort⟩, hannounced⟩ := h.due hmem
  rw [hresponses] at hannounced
  obtain ⟨before, head, hwaiting, hfirst⟩ | ⟨hwaiting, hend⟩ := hannounced
  · cases before with
    | nil =>
        obtain ⟨hhead, -⟩ := List.cons.inj hwaiting
        contradiction
    | cons e before =>
        obtain ⟨rfl, -⟩ := List.cons.inj hwaiting
        exact absurd (List.mem_cons_self ..) hfirst
  have hrest : ∀ e ∈ rest, e.side = some .initiator := by
    intro e he
    have hnil := (List.cons.inj hwaiting).2
    simpa using List.filter_eq_nil_iff.mp hnil e he
  have hwhole : (earlier ++ [last]).flatten = s.writtenDown ++
      (C.buffered .responder s.parser ++ s.exchange.respPending) := by
    rw [h.whole, hqueue, rawsOn_append, rawsOn_cons, rawsOn_responder_eq_nil hcarried,
      rawsOn_responder_eq_nil hrest, rawOn_eq_nil (hside _)]
    simp only [List.append_assoc, List.nil_append]
  refine ⟨hwhole, hend.le, unended_of_last ?_ ?_⟩
  · have hlength := congrArg List.length hwhole
    simp only [List.flatten_append, List.flatten_singleton, List.length_append] at hlength hshort
    omega
  · rintro rfl
    simp at hshort

end Spliced

/-- The bytes written carry the numbers of the exchanges so far, and before an exchange starts
none carries its number. -/
structure WrittenInv (s : Multiroute P) : Prop where
  numbered : ∀ entry ∈ s.log.written, entry.1 ≤ s.requestNum
  fresh : s.phase.kind = .dispatch → s.writtenDown = []

theorem writtenInv_init (P : HttpProxyParser Octet) : WrittenInv (init P) where
  numbered := nofun
  fresh := nofun

/-- A step outside of the dispatch that writes for the current request alone. -/
theorem WrittenInv.outside (h : WrittenInv s) {data : List Octets}
    (hkind : s'.phase.kind ≠ .dispatch) (hnum : s'.requestNum = s.requestNum)
    (hwritten : s'.log.written = s.log.written ++ data.map fun d => (s.requestNum, d)) :
    WrittenInv s' := by
  refine ⟨?_, fun hk => absurd hk hkind⟩
  rw [hnum, hwritten]
  exact mem_numbered h.numbered

theorem WrittenInv.silent (h : WrittenInv s) (hkind : s'.phase.kind ≠ .dispatch)
    (hnum : s'.requestNum = s.requestNum) (hwritten : s'.log.written = s.log.written) :
    WrittenInv s' := by
  have hnone : s'.log.written =
      s.log.written ++ ([] : List Octets).map fun d => (s.requestNum, d) :=
    hwritten.trans (List.append_nil _).symm
  exact h.outside hkind hnum hnone

theorem WrittenInv.step (h : WrittenInv s) (hs : s.step cfg a = some s') : WrittenInv s' := by
  cases step_course hs with
  | leaves _ after _ _ change | refuses _ _ _ _ after change | starts _ _ _ after change
  | completes _ _ _ _ after change | degrades _ _ _ after _ _ change | switches _ after change
  | breaks _ after change =>
      exact h.silent (by rw [after]; decide) (congrArg Control.requestNum change)
        (congrArg Control.written change)
  | waits before after same | loops before after quiet same =>
      exact h.silent (by rw [after]; decide) (congrArg Control.requestNum same)
        (congrArg Control.written same)
  | routes head before after change =>
      have hnum : s'.requestNum = s.requestNum + 1 := congrArg Control.requestNum change
      have hwritten : s'.log.written = s.log.written := congrArg Control.written change
      refine ⟨?_, fun _ => ?_⟩
      · rw [hwritten, hnum]
        exact fun entry hentry => Nat.le_succ_of_le (h.numbered entry hentry)
      · rw [writtenDown, hwritten, hnum, bytesFor, List.flatMap_eq_nil_iff]
        intro entry hentry
        have hle := h.numbered entry hentry
        exact if_neg (by omega)
  | prepares before after same =>
      have hnum : s'.requestNum = s.requestNum := congrArg Control.requestNum same
      have hwritten : s'.log.written = s.log.written := congrArg Control.written same
      refine ⟨?_, fun _ => ?_⟩
      · rw [hwritten, hnum]
        exact h.numbered
      · rw [writtenDown, hwritten, hnum]
        exact h.fresh before
  | relays carry e rest raw before events side notEnd after change =>
      have hwritten : s'.log.written = s.log.written ++ [raw].map fun d => (s.requestNum, d) :=
        congrArg Control.written change
      exact h.outside (by rw [after]; nofun) (congrArg Control.requestNum change) hwritten
  | splices before after data change =>
      refine h.outside ?_ (congrArg Control.requestNum change) (congrArg Control.written change)
      obtain after | after := after <;> rw [after] <;> decide
  | returns before back =>
      refine h.silent ?_ (congrArg Control.requestNum back.change)
        (congrArg Control.written back.change)
      obtain after | ⟨after, -, -⟩ := back.after <;> rw [after] <;> decide

/-- Samples are received in the loop of an exchange and in the splice. -/
theorem sample_inv {payload : List UInt8} (hs : s.step cfg (.sample payload) = some s') :
    (s.phase = .select ∧ payload = [] ∧ s' = s.finResponse.goto .exchange) ∨
    (s.phase = .select ∧ payload ≠ [] ∧
      s' = ((s.takeResponse (octets (.backend s.requestNum) payload)).feedResponse
        (octets (.backend s.requestNum) payload)).goto .exchange) ∨
    (s.phase = .splice ∧ payload = [] ∧ s' = s.goto .teardown) ∨
    (s.phase = .splice ∧ payload ≠ [] ∧
      s'.phase = .spliceWrite (octets (.backend s.requestNum) payload) ∧
      s'.exchange = s.exchange ∧ s'.requestNum = s.requestNum ∧
      s'.log.written = s.log.written) := by
  unfold Multiroute.step at hs
  split at hs
  case h_10 =>
    unfold stepEvents at hs
    split at hs
    · contradiction
    · split at hs <;> contradiction
  case h_11 phase =>
    simp only [stepSelect] at hs
    split at hs
    · rename_i hempty
      exact .inl ⟨phase, hempty, (Option.some.inj hs).symm⟩
    · rename_i hne
      exact .inr (.inl ⟨phase, hne, (Option.some.inj hs).symm⟩)
  case h_15 phase =>
    simp only [stepSplice] at hs
    split at hs
    · rename_i hempty
      exact .inr (.inr (.inl ⟨phase, hempty, (Option.some.inj hs).symm⟩))
    · rename_i hne
      obtain rfl := Option.some.inj hs
      exact .inr (.inr (.inr ⟨phase, hne, rfl, rfl, rfl, rfl⟩))
  all_goals
    first
    | contradiction
    | (rename_i chunks _; cases chunks <;> contradiction)

theorem Settles.writtenDown (h : Settles s s') : s'.writtenDown = s.writtenDown := by
  obtain ⟨p, o, k, e, r, rfl⟩ := h
  rfl

/-- The invariant of the backend's bytes. -/
structure DownstreamInv (C : P.Conserves) (w : Watched P) : Prop where
  client : ClientInv w.conn
  tunnel : TunnelInv w.conn
  numbers : WrittenInv w.conn
  running : w.conn.phase.kind = .running → RelayedDown C w.samples w.headEnd w.conn
  splicing : w.conn.phase.kind = .splicing → SplicedDown C w.samples w.headEnd w.conn
  finished : w.conn.phase.kind = .finished → w.WrittenWhole

theorem downstreamInv_init (T : HttpProxyParser.Tunnels C) :
    DownstreamInv C (Watched.init P) where
  client := clientInv_init P
  tunnel := tunnelInv_init T
  numbers := writtenInv_init P
  running := nofun
  splicing := nofun
  finished := nofun

variable {w : Watched P}

theorem Watched.headEnd_eq (w : Watched P) (s' : Multiroute P)
    (hpublish : w.conn.phase.kind ≠ .dispatch)
    (hhead : ∀ carry head rest, w.conn.phase = .events carry →
      w.conn.events ≠ .responseHead head :: rest) : w.headEndAfter s' = w.headEnd := by
  unfold headEndAfter
  split
  · rename_i hphase
    rw [hphase] at hpublish
    exact absurd rfl hpublish
  · rename_i hphase hevents
    exact absurd hevents (hhead _ _ _ hphase)
  · rfl

theorem Watched.head_eq (w : Watched P) (hpublish : w.conn.phase.kind ≠ .dispatch)
    (hhead : ∀ carry head rest, w.conn.phase = .events carry →
      w.conn.events ≠ .responseHead head :: rest) : w.headAfter = w.head := by
  unfold headAfter
  split
  · rename_i hphase
    rw [hphase] at hpublish
    exact absurd rfl hpublish
  · rename_i hphase hevents
    exact absurd hevents (hhead _ _ _ hphase)
  · rfl

/-- A sample is recorded, and the last head stays. -/
theorem Watched.after_sample (w : Watched P) (payload : List UInt8) (s' : Multiroute P)
    (phase : w.conn.phase = .select ∨ w.conn.phase = .splice) :
    w.after (.sample payload) s' =
      ⟨s', w.samples ++ [octets (.backend w.conn.requestNum) payload], w.headEnd, w.head⟩ := by
  have hpublish : w.conn.phase.kind ≠ .dispatch := by
    obtain phase | phase := phase <;> rw [phase] <;> decide
  have hevents : ∀ carry head rest, w.conn.phase = .events carry →
      w.conn.events ≠ .responseHead head :: rest := by
    obtain phase | phase := phase <;> rw [phase] <;> nofun
  rw [after, w.headEnd_eq s' hpublish hevents, w.head_eq hpublish hevents, samplesAfter]

section Received

variable {samples : List Octets} {headEnd : Nat}

/-- The `select!` goes back to the top of the loop. -/
theorem RelayedDown.turn (h : RelayedDown C samples headEnd s) (phase : s.phase = .select) :
    RelayedDown C samples headEnd (s.goto .exchange) := by
  refine h.move nofun nofun ?_ rfl rfl rfl
  exact (settles_goto .exchange s).queue (by rw [phase]; rfl) rfl

/-- An EOF marker over an empty tail. -/
theorem RelayedDown.receivedEnd (h : RelayedDown C samples headEnd s)
    (T : HttpProxyParser.Tunnels C) (tunnel : TunnelInv s) (hplain : s.exchange.switched = false)
    (phase : s.phase = .select) (tail : s.exchange.respPending = []) :
    RelayedDown C (samples ++ [[]]) headEnd (s.finResponse.goto .exchange) := by
  have hturned := h.turn phase
  have hqueue : (s.goto .exchange).queue = s.queue :=
    (settles_goto .exchange s).queue (by rw [phase]; rfl) rfl
  have hwaits : .switchProtocols ∉ (s.goto .exchange).queue := by
    rw [hqueue]
    exact h.waits phase
  have hended : RelayedDown C (samples ++ [[]]) headEnd (s.goto .exchange) := by
    refine ⟨hturned.carried, nofun, ?_, fun hne => absurd tail hne, fun hm => absurd hm hwaits⟩
    rw [List.flatten_append, List.flatten_singleton, List.append_nil]
    exact hturned.whole
  exact hended.drain T (fun hm => absurd hm hwaits) (C.fin ..) (T.fin .responder s.parser)
    (T.quiet_fin _ _ (tunnel.drained hplain)) rfl rfl rfl rfl rfl

/-- A sample over an empty tail. -/
theorem RelayedDown.received (h : RelayedDown C samples headEnd s) (T : HttpProxyParser.Tunnels C)
    (tunnel : TunnelInv s) (hplain : s.exchange.switched = false) (phase : s.phase = .select)
    (tail : s.exchange.respPending = []) (data : Octets) :
    RelayedDown C (samples ++ [data]) headEnd
      (((s.takeResponse data).feedResponse data).goto .exchange) := by
  have hturned := h.turn phase
  have hqueue : (s.goto .exchange).queue = s.queue :=
    (settles_goto .exchange s).queue (by rw [phase]; rfl) rfl
  have hwaits : .switchProtocols ∉ ((s.takeResponse data).goto .exchange).queue := by
    change .switchProtocols ∉ (s.goto .exchange).queue
    rw [hqueue]
    exact h.waits phase
  have htaken : RelayedDown C samples headEnd ((s.takeResponse data).goto .exchange) :=
    hturned.move nofun nofun rfl rfl rfl rfl
  refine htaken.feedResponse T (tunnel.drained hplain) (fun hm => absurd hm hwaits) nofun ?_
    ⟨samples, data, rfl, le_rfl⟩ fun hm => absurd hm hwaits
  have hwhole := htaken.whole
  have hnil : ((s.takeResponse data).goto .exchange).exchange.respPending = [] := tail
  rw [hnil, List.append_nil] at hwhole
  rw [List.flatten_append, List.flatten_singleton, hwhole]

end Received

/-- A sample, which the `select!` takes over an empty tail. -/
theorem DownstreamInv.sample (h : DownstreamInv C w) (T : HttpProxyParser.Tunnels C)
    {payload : List UInt8} (tail : TailFirst w.conn (.sample payload))
    (hs : w.conn.step cfg (.sample payload) = some s') :
    DownstreamInv C (w.after (.sample payload) s') := by
  have client := h.client.step hs
  have tunnel := h.tunnel.step T h.client hs
  have numbers := h.numbers.step hs
  obtain ⟨phase, rfl, rfl⟩ | ⟨phase, hne, rfl⟩ | ⟨phase, rfl, rfl⟩ |
    ⟨phase, hne, hphase, hexchange, hnum, hwritten⟩ := sample_inv hs
  · have hrunning := h.running (by rw [phase]; rfl)
    have hplain := h.client.unswitched (by rw [phase]; trivial)
    rw [w.after_sample _ _ (.inl phase)]
    exact ⟨client, tunnel, numbers,
      fun _ => hrunning.receivedEnd T h.tunnel hplain phase (tail phase [] rfl), nofun, nofun⟩
  · have hrunning := h.running (by rw [phase]; rfl)
    have hplain := h.client.unswitched (by rw [phase]; trivial)
    rw [w.after_sample _ _ (.inl phase)]
    exact ⟨client, tunnel, numbers,
      fun _ => hrunning.received T h.tunnel hplain phase (tail phase payload rfl) _, nofun, nofun⟩
  · have hsplicing := h.splicing (by rw [phase]; rfl)
    rw [w.after_sample _ _ (.inr phase)]
    exact ⟨client, tunnel, numbers, nofun, nofun, fun _ _ => hsplicing.inOrder_end⟩
  · have hsplicing := h.splicing (by rw [phase]; rfl)
    have hdata : octets (.backend w.conn.requestNum) payload ≠ [] := by
      simpa [octets] using hne
    rw [w.after_sample _ _ (.inr phase)]
    refine ⟨client, tunnel, numbers, ?_, fun _ => ?_, ?_⟩
    · rw [hphase]
      nofun
    · refine hsplicing.receive hdata ?_ ?_
      · rw [writtenDown, hnum, hwritten]
        rfl
      · rw [heldDown, heldDown, hphase, phase]
        rfl
    · rw [hphase]
      nofun

section Steps

variable {samples : List Octets} {headEnd : Nat} {head : Octets}

/-- A state between two exchanges or before one. -/
theorem DownstreamInv.of_idle (client : ClientInv s) (tunnel : TunnelInv s) (numbers : WrittenInv s)
    (hkind : s.phase.kind = .between ∨ s.phase.kind = .dispatch) :
    DownstreamInv C ⟨s, samples, headEnd, head⟩ := by
  constructor
  · exact client
  · exact tunnel
  · exact numbers
  all_goals
    intro hk
    obtain hidle | hidle := hkind <;> exact absurd (hidle.symm.trans hk) (by decide)

theorem DownstreamInv.of_running (client : ClientInv s) (tunnel : TunnelInv s)
    (numbers : WrittenInv s) (hkind : s.phase.kind = .running)
    (h : RelayedDown C samples headEnd s) : DownstreamInv C ⟨s, samples, headEnd, head⟩ := by
  refine ⟨client, tunnel, numbers, fun _ => h, fun hk => ?_, fun hk => ?_⟩
  · exact absurd (hkind.symm.trans hk) (by decide)
  · exact absurd (hkind.symm.trans hk) (by decide)

theorem DownstreamInv.of_splicing (client : ClientInv s) (tunnel : TunnelInv s)
    (numbers : WrittenInv s) (hkind : s.phase.kind = .splicing)
    (h : SplicedDown C samples headEnd s) : DownstreamInv C ⟨s, samples, headEnd, head⟩ := by
  refine ⟨client, tunnel, numbers, fun hk => ?_, fun _ => h, fun hk => ?_⟩
  · exact absurd (hkind.symm.trans hk) (by decide)
  · exact absurd (hkind.symm.trans hk) (by decide)

theorem DownstreamInv.of_finished (client : ClientInv s) (tunnel : TunnelInv s)
    (numbers : WrittenInv s) (hkind : s.phase.kind = .finished)
    (h : Watched.WrittenWhole ⟨s, samples, headEnd, head⟩) :
    DownstreamInv C ⟨s, samples, headEnd, head⟩ := by
  refine ⟨client, tunnel, numbers, fun hk => ?_, fun hk => ?_, fun _ => h⟩
  · exact absurd (hkind.symm.trans hk) (by decide)
  · exact absurd (hkind.symm.trans hk) (by decide)

/-- Without a switch nothing is claimed about the end. -/
theorem Watched.writtenWhole_unswitched (h : s.exchange.switched = false) :
    Watched.WrittenWhole ⟨s, samples, headEnd, head⟩ :=
  fun hswitched => absurd (hswitched.symm.trans h) (by decide)

end Steps

/-- The samples change with a sample and with the start of an exchange. -/
theorem Watched.samples_eq (w : Watched P) (hnot : ∀ payload, a ≠ .sample payload)
    (hkind : w.conn.phase.kind ≠ .dispatch) : w.samplesAfter a = w.samples := by
  have hphase : ∀ head dns, w.conn.phase ≠ .publishHead head dns := by
    intro head dns hp
    rw [hp] at hkind
    exact hkind rfl
  unfold samplesAfter
  split
  · rename_i payload
    exact absurd rfl (hnot payload)
  · split
    · rename_i hp
      exact absurd hp (hphase _ _)
    · rfl

/-- The first event is no response head. -/
theorem ne_head_of_front {e : HttpEvent Octet} {rest : List (HttpEvent Octet)}
    (events : s.events = e :: rest) (hne : ∀ head, e ≠ .responseHead head) :
    ∀ carry head rest', s.phase = .events carry → s.events ≠ .responseHead head :: rest' := by
  intro _ head _ _ hevents
  rw [events] at hevents
  exact hne head (List.cons.inj hevents).1

theorem ne_head_of_splicing (h : s.phase.kind = .splicing) :
    ∀ carry head rest, s.phase = .events carry → s.events ≠ .responseHead head :: rest := by
  intro carry head rest hphase
  rw [hphase] at h
  contradiction

theorem ne_responseHead {e : HttpEvent Octet} (h : e.side = some .initiator)
    (head : ResponseHead Octet) : e ≠ .responseHead head := by
  rintro rfl
  cases h

/-- A read of the client in the loop of an exchange. -/
theorem RelayedDown.read {samples : List Octets} {headEnd : Nat} {t : Multiroute P}
    (h : RelayedDown C samples headEnd t) (settles : Settles t s') (phase : t.phase = .select)
    (target : s'.phase = .exchange) : RelayedDown C samples headEnd s' := by
  refine h.move ?_ ?_ ?_ settles.settled.parser settles.settled.respPending settles.writtenDown
  · rw [target]
    nofun
  · rw [target]
    nofun
  · exact settles.queue (by rw [phase]; rfl) (by rw [target]; rfl)

/-- The splice writes the samples it receives. -/
theorem splice_receives {data : Octets} (phase : s.phase = .splice) (hs : s.step cfg a = some s')
    (after : s'.phase = .spliceWrite data) : ∃ payload, a = .sample payload := by
  simp only [Multiroute.step, phase] at hs
  cases a with
  | sample payload => exact ⟨payload, rfl⟩
  | read data =>
      simp only [stepSplice, Option.ite_none_right_eq_some] at hs
      obtain rfl := Option.some.inj hs.2
      contradiction
  | readEof | readFailed | channelClosed | overflow | shutdown =>
      obtain rfl := Option.some.inj hs
      contradiction
  | _ => contradiction

/-- What is recorded stays where no exchange starts and no response head is written. -/
theorem Watched.record_eq (w : Watched P) (s' : Multiroute P)
    (hnot : ∀ payload, a ≠ .sample payload) (hpublish : w.conn.phase.kind ≠ .dispatch)
    (hhead : ∀ carry head rest, w.conn.phase = .events carry →
      w.conn.events ≠ .responseHead head :: rest) :
    w.after a s' = ⟨s', w.samples, w.headEnd, w.head⟩ := by
  rw [after, w.samples_eq hnot hpublish, w.headEnd_eq s' hpublish hhead,
    w.head_eq hpublish hhead]

/-- A step inside of the loop of an exchange that writes no response head. -/
theorem DownstreamInv.loops (hnot : ∀ payload, a ≠ .sample payload) (client : ClientInv s')
    (tunnel : TunnelInv s') (numbers : WrittenInv s') (hbefore : w.conn.phase.kind = .running)
    (hhead : ∀ carry head rest, w.conn.phase = .events carry →
      w.conn.events ≠ .responseHead head :: rest)
    (hafter : s'.phase.kind = .running) (relayed : RelayedDown C w.samples w.headEnd s') :
    DownstreamInv C (w.after a s') := by
  rw [w.record_eq s' hnot (by rw [hbefore]; decide) hhead]
  exact .of_running client tunnel numbers hafter relayed

/-- The event loop handles an event that is no response head. -/
theorem DownstreamInv.handles (hnot : ∀ payload, a ≠ .sample payload) (client : ClientInv s')
    (tunnel : TunnelInv s') (numbers : WrittenInv s') {carry rest : List (HttpEvent Octet)}
    {e : HttpEvent Octet} (phase : w.conn.phase = .events carry)
    (events : w.conn.events = e :: rest)
    (hne : ∀ head, e ≠ .responseHead head) (hafter : s'.phase.kind = .running)
    (relayed : RelayedDown C w.samples w.headEnd s') :
    DownstreamInv C (w.after a s') :=
  .loops hnot client tunnel numbers (kind_of_events phase) (ne_head_of_front events hne) hafter
    relayed

/-- A step inside of the splice. -/
theorem DownstreamInv.splices (hnot : ∀ payload, a ≠ .sample payload) (client : ClientInv s')
    (tunnel : TunnelInv s') (numbers : WrittenInv s') (hbefore : w.conn.phase.kind = .splicing)
    (hafter : s'.phase.kind = .splicing) (spliced : SplicedDown C w.samples w.headEnd s') :
    DownstreamInv C (w.after a s') := by
  rw [w.record_eq s' hnot (by rw [hbefore]; decide) (ne_head_of_splicing hbefore)]
  exact .of_splicing client tunnel numbers hafter spliced

/-- The end of an exchange that did not switch. -/
theorem DownstreamInv.stops (client : ClientInv s') (tunnel : TunnelInv s')
    (numbers : WrittenInv s') (hafter : s'.phase.kind = .finished)
    (hplain : s'.exchange.switched = false) :
    DownstreamInv C (w.after a s') :=
  .of_finished client tunnel numbers hafter (Watched.writtenWhole_unswitched hplain)

/-- The control state moves on. -/
theorem DownstreamInv.moved (h : DownstreamInv C w) (hnot : ∀ payload, a ≠ .sample payload)
    (client : ClientInv s') (tunnel : TunnelInv s') (numbers : WrittenInv s')
    (settles : Settles w.conn s') (moves : Moves w.conn.phase.kind s'.phase.kind)
    (inside : s'.phase.kind = .splicing → w.conn.phase = .spliceDown [] ∧ s'.phase = .splice) :
    DownstreamInv C (w.after a s') := by
  cases hk : s'.phase.kind with
  | between => exact .of_idle client tunnel numbers (.inl hk)
  | dispatch => exact .of_idle client tunnel numbers (.inr hk)
  | running => exact absurd hk moves.ne_running
  | splicing =>
      obtain ⟨hphase, htarget⟩ := inside hk
      have hbefore : w.conn.phase.kind = .splicing := by rw [hphase]; rfl
      refine .splices hnot client tunnel numbers hbefore hk
        ((h.splicing hbefore).keep settles.writtenDown ?_)
      rw [heldDown, heldDown, htarget, hphase]
      rfl
  | finished =>
      by_cases hplain : s'.exchange.switched = false
      · exact .stops client tunnel numbers hk hplain
      have hbefore : w.conn.phase.kind = .splicing := by
        cases hb : w.conn.phase.kind with
        | splicing => rfl
        | finished => exact absurd hb moves.not_finished
        | between | dispatch | running =>
            have hfalse := h.client.unswitched (by rw [hb]; trivial)
            exact absurd (settles.settled.switched.trans hfalse) hplain
      rw [w.record_eq s' hnot (by rw [hbefore]; decide) (ne_head_of_splicing hbefore)]
      refine .of_finished client tunnel numbers hk fun _ => ?_
      change s'.writtenDown.take _ <+: _ ∧ s'.writtenDown.drop _ <+: _
      rw [settles.writtenDown]
      exact (h.splicing hbefore).inOrder

/-- A read of the client or its end, between two exchanges or in the `select!`. The parser is
drained once, and the client's bytes and their end report no switch. -/
theorem DownstreamInv.reads (h : DownstreamInv C w) (T : HttpProxyParser.Tunnels C)
    (hnot : ∀ payload, a ≠ .sample payload) (client : ClientInv s') (tunnel : TunnelInv s')
    (numbers : WrittenInv s') {t : Multiroute P} (settles : Settles t s')
    (phase : w.conn.phase = .select) (target : s'.phase = .exchange) {p : P.State}
    (hp : C.buffered .responder p = C.buffered .responder w.conn.parser)
    (htunnel : P.isTunnelled w.conn.parser = true → P.isTunnelled p = true)
    (quiet : P.nextEvent w.conn.parser = none → .switchProtocols ∉ (P.drainEvents p).1)
    (hparser : t.parser = (P.drainEvents p).2)
    (hevents : t.events = w.conn.events ++ (P.drainEvents p).1) (hphase : t.phase = w.conn.phase)
    (hwritten : t.writtenDown = w.conn.writtenDown)
    (hpending : t.exchange.respPending = w.conn.exchange.respPending) :
    DownstreamInv C (w.after a s') := by
  have hbefore : w.conn.phase.kind = .running := by rw [phase]; rfl
  have hplain := h.client.unswitched (by rw [phase]; trivial)
  refine .loops hnot client tunnel numbers hbefore (by rw [phase]; nofun) (by rw [target]; rfl) ?_
  refine RelayedDown.read ?_ settles (hphase.trans phase) target
  exact (h.running hbefore).drain T (h.tunnel.reported hplain (by rw [phase]; nofun)) hp htunnel
    (quiet (h.tunnel.drained hplain)) hparser hevents hphase hwritten hpending

/-- The event loop is done: the events put aside go back to the queue. -/
theorem DownstreamInv.restored (h : DownstreamInv C w) (hnot : ∀ payload, a ≠ .sample payload)
    (client : ClientInv s') (tunnel : TunnelInv s') (numbers : WrittenInv s')
    {carry : List (HttpEvent Octet)} (phase : w.conn.phase = .events carry)
    (events : w.conn.events = []) (settles : Settles { w.conn with events := carry } s')
    (target : s'.phase = .select ∨ s'.phase = .teardown) :
    DownstreamInv C (w.after a s') := by
  have hrunning := h.running (kind_of_events phase)
  have hplain := h.client.unswitched (by rw [phase]; trivial)
  rcases target with ht | ht
  · have hcarried := hrunning.carried_of_events phase
    have hqueue : s'.queue = carry := (queue_of_phase ht).trans settles.settled.events
    have hrestored := settles.queue_restored phase events (by rw [ht]; rfl)
    refine .loops hnot client tunnel numbers (kind_of_events phase)
      (by rw [events]; exact fun _ _ _ _ => nofun) (by rw [ht]; rfl) ?_
    refine hrunning.move ?_ (fun _ => ?_) hrestored settles.settled.parser
      settles.settled.respPending settles.writtenDown
    · rw [ht]
      nofun
    · rw [hqueue, ← mem_responses, responses_eq_nil hcarried]
      exact List.not_mem_nil
  · exact .stops client tunnel numbers (by rw [ht]; rfl) (settles.settled.switched.trans hplain)

/-- An exchange starts. -/
theorem DownstreamInv.started (h : DownstreamInv C w) {head : RequestHead Octet} {dns : String}
    (clean : StartsClean C w.conn (.publish true)) (idle : IdleUnswitched w.conn)
    (phase : w.conn.phase = .publishHead head dns)
    (client : ClientInv s') (tunnel : TunnelInv s') (numbers : WrittenInv s')
    (hs' : s' = { w.conn.published head.raw with
      phase := .exchange
      exchange := .fresh dns
      log := { (w.conn.published head.raw).log with down := .empty } }) :
    DownstreamInv C (w.after (.publish true) s') := by
  subst hs'
  obtain ⟨hraws, hbuffered⟩ := clean (by rw [phase]; rfl) rfl
  have hnone := idle (.inr (by rw [phase]; rfl))
  have hsamples : w.samplesAfter (.publish true) = [] := by
    simp only [Watched.samplesAfter, phase]
  have hwritten : w.conn.writtenDown = [] := h.numbers.fresh (by rw [phase]; rfl)
  have hqueue : w.conn.queue = w.conn.events := queue_of_phase phase
  rw [hqueue] at hraws hnone
  rw [Watched.after, hsamples]
  refine .of_running client tunnel numbers rfl
    ⟨nofun, nofun, ?_, fun hne => absurd rfl hne, fun hm => absurd hm hnone⟩
  change [] = w.conn.writtenDown ++ rawsOn .responder w.conn.events ++
    C.buffered .responder w.conn.parser ++ []
  rw [hwritten, hraws, hbuffered]
  rfl

/-- A step that receives no sample. -/
theorem DownstreamInv.other (h : DownstreamInv C w) (T : HttpProxyParser.Tunnels C)
    (hnot : ∀ payload, a ≠ .sample payload) (clean : StartsClean C w.conn a)
    (idle : IdleUnswitched w.conn) (hs : w.conn.step cfg a = some s') :
    DownstreamInv C (w.after a s') := by
  have client := h.client.step hs
  have tunnel := h.tunnel.step T h.client hs
  have numbers := h.numbers.step hs
  have hplain : parses w.conn.phase.kind → w.conn.exchange.switched = false := h.client.unswitched
  cases step_inv hs with
  | moved settles moves empty queue inside heads =>
      exact h.moved hnot client tunnel numbers settles moves inside
  | routed head rest phase events eq =>
      subst eq
      exact .of_idle client tunnel numbers (.inr rfl)
  | discarded e rest p kind events stray target eq =>
      subst eq
      refine .of_idle client tunnel numbers (.inl ?_)
      rcases target with rfl | rfl <;> rfl
  | fedClient kind settles target =>
      rcases target with ht | ht | ht
      · exact .of_idle client tunnel numbers (.inl (by rw [ht]; rfl))
      · exact .of_idle client tunnel numbers (.inl (by rw [ht]; rfl))
      · exact .stops client tunnel numbers (by rw [ht]; rfl)
          (settles.settled.switched.trans (hplain (by rw [kind]; trivial)))
  | readClient data kind pending settles target =>
      rcases target with ⟨-, ht | ht | ht⟩ | ⟨phase, ht⟩
      · exact .of_idle client tunnel numbers (.inl (by rw [ht]; rfl))
      · exact .of_idle client tunnel numbers (.inl (by rw [ht]; rfl))
      · exact .stops client tunnel numbers (by rw [ht]; rfl)
          (settles.settled.switched.trans (hplain (parses_of_reading kind)))
      · exact h.reads T hnot client tunnel numbers settles phase ht
          (C.pushBytes_other (by decide) ..) (T.pushBytes .initiator _) (T.quiet _ _)
          rfl rfl rfl rfl rfl
  | eofClient p kind pending target eq =>
      subst eq
      rcases target with ⟨-, rfl | rfl⟩ | ⟨phase, rfl⟩
      · exact .of_idle client tunnel numbers (.inl rfl)
      · exact .of_idle client tunnel numbers (.inl rfl)
      · exact h.reads T hnot client tunnel numbers (settles_goto .exchange w.conn.finClient) phase
          rfl (C.fin ..) (T.fin .initiator _) (T.quiet_fin _ _) rfl rfl rfl rfl rfl
  | started head dns phase action eq =>
      subst action
      exact h.started clean idle phase client tunnel numbers eq
  | reoffered phase eq =>
      subst eq
      have hbefore : w.conn.phase.kind = .running := by rw [phase]; rfl
      exact .loops hnot client tunnel numbers hbefore (by rw [phase]; nofun) rfl
        ((h.running hbefore).reoffered T h.tunnel (hplain (by rw [phase]; trivial)) phase)
  | restored carry phase events settles target =>
      exact h.restored hnot client tunnel numbers phase events settles target
  | forwarded carry e rest raw phase events forward eq =>
      subst eq
      have hside : e.side = some .initiator := by
        obtain ⟨-, rfl | rfl⟩ := forwarded_inv forward <;> rfl
      exact .handles hnot client tunnel numbers phase events (ne_responseHead hside)
        (kind_of_events phase)
        ((h.running (kind_of_events phase)).pass phase events hside rfl rfl rfl rfl rfl)
  | relayed carry e rest raw phase events relay eq =>
      subst eq
      obtain ⟨hside, rfl⟩ := relayed_inv relay
      rw [Watched.after, w.samples_eq hnot (by rw [phase]; nofun)]
      refine .of_running client tunnel numbers (kind_of_events phase) ?_
      refine (h.running (kind_of_events phase)).relay phase events hside rfl rfl rfl
        (noteClose_switched w.conn.exchange e).2.1 ?_ ?_
      · exact writtenDown_wrote w.conn e.raw
      · rintro head rfl
        simp only [Watched.headEndAfter, phase, events]
  | requestEnded carry rest phase events unfinished eq =>
      subst eq
      exact .handles hnot client tunnel numbers phase events (ne_responseHead rfl)
        (kind_of_events phase)
        ((h.running (kind_of_events phase)).pass phase events rfl rfl rfl rfl rfl rfl)
  | stopped carry e rest phase events side responseDone settles target =>
      exact .stops client tunnel numbers (by rw [target]; rfl)
        (settles.settled.switched.trans (hplain (by rw [phase]; trivial)))
  | switched carry rest phase events eq =>
      subst eq
      rw [w.record_eq _ hnot (by rw [phase]; nofun) (ne_head_of_front events fun _ => nofun)]
      exact .of_splicing client tunnel numbers rfl
        ((h.running (kind_of_events phase)).switch phase events)
  | carried carry e rest phase events side keeps eq =>
      subst eq
      have hrunning := h.running (kind_of_events phase)
      refine .handles hnot client tunnel numbers phase events (ne_responseHead side) rfl
        (hrunning.move ?_ nofun ?_ rfl rfl rfl)
      · intro e' he'
        obtain hold | hnew := List.mem_append.mp he'
        · exact hrunning.carried_of_events phase e' hold
        · exact List.mem_singleton.mp hnew ▸ side
      · rw [queue_of_events phase events]
        exact List.append_assoc carry [e] rest
  | received payload phase action nonempty eq => exact absurd action (hnot payload)
  | eofResponse phase action eq => exact absurd action (hnot [])
  | spliceStarted phase eq =>
      subst eq
      have hbefore : w.conn.phase.kind = .splicing := by rw [phase]; rfl
      refine .splices hnot client tunnel numbers hbefore rfl ((h.splicing hbefore).keep rfl ?_)
      rw [heldDown, heldDown, phase]
      exact congrArg (· ++ w.conn.exchange.respPending)
        (C.residue_other .initiator .responder w.conn.parser (by decide))
  | spliceTurned phase eq =>
      subst eq
      have hbefore : w.conn.phase.kind = .splicing := by rw [phase]; rfl
      have hresidue := (T.residue .responder w.conn.parser
        (h.tunnel.residue (by rw [phase]; trivial))).1
      refine .splices hnot client tunnel numbers hbefore rfl ((h.splicing hbefore).keep rfl ?_)
      rw [heldDown, heldDown, phase]
      change (List.filter _ _).flatten = _
      rw [flatten_filter_nonempty, hresidue]
      simp
  | splicedDown chunk chunks phase eq =>
      subst eq
      have hbefore : w.conn.phase.kind = .splicing := by rw [phase]; rfl
      refine .splices hnot client tunnel numbers hbefore rfl
        ((h.splicing hbefore).write (writtenDown_wrote w.conn chunk) ?_)
      rw [heldDown, phase]
      rfl
  | spliceWrote data phase eq =>
      subst eq
      have hbefore : w.conn.phase.kind = .splicing := by rw [phase]; rfl
      refine .splices hnot client tunnel numbers hbefore rfl
        ((h.splicing hbefore).write (writtenDown_wrote w.conn data) ?_)
      rw [heldDown, phase]
      exact (List.append_nil data).symm
  | spliceReceived payload phase eq =>
      exact absurd (splice_receives phase hs (by rw [eq])) (not_exists.mpr hnot)
  | splicedUp chunk chunks phase eq | splicePut data phase eq =>
      subst eq
      have hbefore : w.conn.phase.kind = .splicing := by rw [phase]; rfl
      refine .splices hnot client tunnel numbers hbefore rfl ((h.splicing hbefore).keep rfl ?_)
      rw [heldDown, heldDown, phase]
      rfl
  | spliceRead data phase eq =>
      subst eq
      have hbefore : w.conn.phase.kind = .splicing := by rw [phase]; rfl
      refine .splices hnot client tunnel numbers hbefore rfl ((h.splicing hbefore).keep rfl ?_)
      rw [heldDown, heldDown, phase]
  | tornDown next outcome marker phase markers target eq =>
      subst eq
      rcases target with rfl | ⟨rfl, -⟩
      · rw [w.record_eq _ hnot (by rw [phase]; decide) (by rw [phase]; nofun)]
        exact .of_finished client tunnel numbers rfl (h.finished (by rw [phase]; rfl))
      · exact .of_idle client tunnel numbers (.inl rfl)

theorem DownstreamInv.step {w' : Watched P} (h : DownstreamInv C w) (T : HttpProxyParser.Tunnels C)
    (clean : StartsClean C w.conn a) (idle : IdleUnswitched w.conn) (tail : TailFirst w.conn a)
    (hs : w.step cfg a = some w') :
    DownstreamInv C w' := by
  obtain ⟨s', hstep, rfl⟩ := Option.map_eq_some_iff.mp hs
  by_cases hsample : ∃ payload, a = .sample payload
  · obtain ⟨payload, rfl⟩ := hsample
    exact h.sample T tail hstep
  · exact h.other T (not_exists.mp hsample) clean idle hstep

theorem DownstreamInv.whole (h : DownstreamInv C w) : w.WrittenWhole := by
  intro hswitched
  cases hk : w.conn.phase.kind with
  | splicing => exact (h.splicing hk).inOrder
  | finished => exact h.finished hk hswitched
  | between | dispatch | running =>
      have hplain := h.client.unswitched (by rw [hk]; trivial)
      exact absurd (hswitched.symm.trans hplain) (by decide)

/-- What is watched does not change the connection. -/
theorem Watched.step_conn (w : Watched P) (a : MultirouteAction) (w' : Watched P)
    (hs : w.step cfg a = some w') : w.conn.step cfg a = some w'.conn := by
  obtain ⟨s', hstep, rfl⟩ := Option.map_eq_some_iff.mp hs
  exact hstep

/-- The last response head of the exchange has been written. -/
structure HeadWritten (w : Watched P) : Prop where
  behind : w.headEnd ≤ w.conn.writtenDown.length
  ends : w.head <:+ w.conn.writtenDown.take w.headEnd

/-- The parts of the handler in which a response is written, and what follows a switch. -/
def Responding (s : Multiroute P) : Prop := s.phase.kind = .running ∨ s.exchange.switched = true

/-- A response is being written after a step only if it was before, or its exchange starts. -/
theorem responding_inv (client : ClientInv s) (hs : s.step cfg a = some s') (h : Responding s') :
    Responding s ∨ ∃ head dns, s.phase = .publishHead head dns := by
  -- outside of an exchange nothing is switched, and a step there does not enter the loop
  have hidle : parses s.phase.kind → s'.exchange.switched = s.exchange.switched →
      s'.phase.kind ≠ .running → Responding s ∨ ∃ head dns, s.phase = .publishHead head dns := by
    intro hparses hsame hkind
    have hplain : s'.exchange.switched = false := hsame.trans (client.unswitched hparses)
    exact absurd (hplain.symm.trans (h.resolve_left hkind)) (by decide)
  cases step_course hs with
  | waits before after same =>
      exact hidle (by rw [before]; trivial) (congrArg Control.switched same) (by rw [after]; decide)
  | leaves before after outcome answers change =>
      have hsame : s'.exchange.switched = s.exchange.switched := congrArg Control.switched change
      refine hidle ?_ hsame (by rw [after]; decide)
      obtain before | before := before <;> rw [before] <;> trivial
  | routes head before after change =>
      have hsame : s'.exchange.switched = s.exchange.switched := congrArg Control.switched change
      exact hidle (by rw [before]; trivial) hsame (by rw [after]; nofun)
  | refuses head dns before action after change =>
      have hsame : s'.exchange.switched = s.exchange.switched := congrArg Control.switched change
      exact hidle (by rw [before]; trivial) hsame (by rw [after]; nofun)
  | prepares before after same =>
      exact hidle (by rw [before]; trivial) (congrArg Control.switched same) (by rw [after]; decide)
  | starts head dns before after change => exact .inr ⟨head, dns, before⟩
  | loops before | degrades _ _ before | switches before => exact .inl (.inl before)
  | relays carry e rest raw before | completes carry rest before =>
      exact .inl (.inl (kind_of_events before))
  | breaks before after change =>
      obtain before | before := before
      · exact .inl (.inl before)
      · exact .inl (.inr (client.splice before).1)
  | splices before after data change => exact .inl (.inr (client.splice before).1)
  | returns before back =>
      have hkind : s'.phase.kind ≠ .running := by
        obtain after | ⟨after, -, -⟩ := back.after <;> rw [after] <;> decide
      have hswitched : s'.exchange.switched = s.exchange.switched :=
        congrArg Control.switched back.change
      exact .inl (.inr (hswitched.symm.trans (h.resolve_left hkind)))

/-- While a response is written, the written bytes grow. -/
theorem writtenDown_grows (client : ClientInv s) (hs : s.step cfg a = some s')
    (h : Responding s) : ∃ data, s'.writtenDown = s.writtenDown ++ data := by
  have hsilent : s'.requestNum = s.requestNum → s'.log.written = s.log.written →
      ∃ data, s'.writtenDown = s.writtenDown ++ data := by
    intro hnum hwritten
    refine ⟨[], ?_⟩
    rw [writtenDown, hnum, hwritten, List.append_nil, writtenDown]
  cases step_course hs with
  | routes head before after change =>
      have hplain := client.unswitched (by rw [before]; trivial)
      rcases h with hkind | hswitched
      · rw [before] at hkind
        contradiction
      · exact absurd (hswitched.symm.trans hplain) (by decide)
  | relays carry e rest raw before events side notEnd after change =>
      have hnum : s'.requestNum = s.requestNum := congrArg Control.requestNum change
      have hwritten : s'.log.written = s.log.written ++ [(s.requestNum, raw)] :=
        congrArg Control.written change
      refine ⟨raw, ?_⟩
      rw [writtenDown, hnum, hwritten, bytesFor_append, bytesFor_cons_self, bytesFor_nil,
        List.append_nil, writtenDown]
  | splices before after data change =>
      have hnum : s'.requestNum = s.requestNum := congrArg Control.requestNum change
      have hwritten : s'.log.written = s.log.written ++ data.map fun d => (s.requestNum, d) :=
        congrArg Control.written change
      refine ⟨bytesFor s.requestNum (data.map fun d => (s.requestNum, d)), ?_⟩
      rw [writtenDown, hnum, hwritten, bytesFor_append, writtenDown]
  | leaves _ _ _ _ change | refuses _ _ _ _ _ change | starts _ _ _ _ change
  | completes _ _ _ _ _ change | degrades _ _ _ _ _ _ change | switches _ _ change
  | breaks _ _ change =>
      exact hsilent (congrArg Control.requestNum change) (congrArg Control.written change)
  | waits _ _ same | prepares _ _ same | loops _ _ _ same =>
      exact hsilent (congrArg Control.requestNum same) (congrArg Control.written same)
  | returns before back =>
      exact hsilent (congrArg Control.requestNum back.change) (congrArg Control.written back.change)

/-- What the exchange has written stays in front of its last head. -/
theorem HeadWritten.grow {w : Watched P} (h : HeadWritten w)
    (hwritten : ∃ data, s'.writtenDown = w.conn.writtenDown ++ data) (samples : List Octets) :
    HeadWritten ⟨s', samples, w.headEnd, w.head⟩ := by
  obtain ⟨data, hdata⟩ := hwritten
  constructor
  · change w.headEnd ≤ s'.writtenDown.length
    rw [hdata, List.length_append]
    exact Nat.le_add_right_of_le h.behind
  · change w.head <:+ s'.writtenDown.take w.headEnd
    rw [hdata, List.take_append_of_le_length h.behind]
    exact h.ends

/-- A response head at the front of the queue is written, if the response goes on. -/
theorem writtenDown_of_front (client : ClientInv s) {carry rest : List (HttpEvent Octet)}
    {head : ResponseHead Octet} (phase : s.phase = .events carry)
    (events : s.events = .responseHead head :: rest) (hs : s.step cfg a = some s')
    (h : Responding s') : s'.writtenDown = s.writtenDown ++ head.raw := by
  have hplain := client.unswitched (by rw [phase]; trivial)
  rw [Multiroute.step, phase] at hs
  simp only [stepEvents, events] at hs
  cases a with
  | write ok =>
      cases ok with
      | true =>
          obtain rfl := Option.some.inj hs
          exact writtenDown_wrote s head.raw
      | false =>
          obtain rfl := Option.some.inj hs
          rcases h with hkind | hswitched
          · contradiction
          · exact absurd (hswitched.symm.trans hplain) (by decide)
  | _ => contradiction

/-- A step keeps the last response head in front of what was written after it. -/
theorem headWritten_step {w : Watched P} (h : Responding w.conn → HeadWritten w)
    (client : ClientInv w.conn) (hs : w.conn.step cfg a = some s') :
    Responding s' → HeadWritten (w.after a s') := by
  intro hafter
  obtain hbefore | ⟨head, dns, phase⟩ := responding_inv client hs hafter
  · by_cases hfront : ∃ carry head rest, w.conn.phase = .events carry ∧
        w.conn.events = .responseHead head :: rest
    · obtain ⟨carry, head, rest, phase, events⟩ := hfront
      have hwritten := writtenDown_of_front client phase events hs hafter
      simp only [Watched.after, Watched.headEndAfter, Watched.headAfter, phase, events]
      refine ⟨le_rfl, ?_⟩
      change head.raw <:+ s'.writtenDown.take s'.writtenDown.length
      rw [List.take_length, hwritten]
      exact List.suffix_append _ _
    · have hkind : w.conn.phase.kind ≠ .dispatch := by
        intro hdispatch
        have hplain := client.unswitched (by rw [hdispatch]; trivial)
        rcases hbefore with hrunning | hswitched
        · exact absurd (hdispatch.symm.trans hrunning) (by decide)
        · exact absurd (hswitched.symm.trans hplain) (by decide)
      have hother : ∀ carry head rest, w.conn.phase = .events carry →
          w.conn.events ≠ .responseHead head :: rest :=
        fun carry head rest phase events => hfront ⟨carry, head, rest, phase, events⟩
      rw [Watched.after, w.headEnd_eq s' hkind hother, w.head_eq hkind hother]
      exact (h hbefore).grow (writtenDown_grows client hs hbefore) _
  · simp only [Watched.after, Watched.headEndAfter, Watched.headAfter, phase]
    exact ⟨Nat.zero_le _, List.nil_suffix⟩

/-- The written bytes up to the head's end begin the samples, so the head stands there. -/
theorem Watched.WrittenWhole.inOrder {w : Watched P} (h : w.WrittenWhole)
    (hhead : Responding w.conn → HeadWritten w) : w.WrittenInOrder := by
  intro hswitched
  obtain ⟨htaken, hafter⟩ := h hswitched
  obtain ⟨hbehind, hends⟩ := hhead (.inr hswitched)
  have hlength : (w.conn.writtenDown.take w.headEnd).length = w.headEnd :=
    List.length_take_of_le hbehind
  have hsame : w.conn.writtenDown.take w.headEnd = w.samples.flatten.take w.headEnd := by
    have htake := List.prefix_iff_eq_take.mp htaken
    rwa [hlength] at htake
  refine ⟨w.headEnd, ?_, hsame ▸ hends, hafter⟩
  have hle := htaken.length_le
  rwa [hlength] at hle

end Multiroute

end ZenohBridge
