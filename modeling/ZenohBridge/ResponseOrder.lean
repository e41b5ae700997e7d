import ZenohBridge.HeadParser
import ZenohBridge.MultirouteControl
import ZenohBridge.RequestMessages
import ZenohBridge.ResponseFraming

/-!
# Responses in step with requests

Relayed responses and responses of the bridge share one connection. The client frames what
it receives with the method of each request in turn, so one response that does not end where
the client expects it shifts every later one.

`ClientView` adds to a connection what the client has received, with the number of the
request it was written for. The client is in step when its framing cuts exactly what was
written for each answered request.
-/

namespace ZenohBridge

open Execution

/-- What was written for the first requests, request by request. -/
def answersTo (n : Nat) (received : List (Nat × Bytes)) : List Bytes :=
  (List.range n).map fun k => bytesFor (k + 1) received

/-- Everything received, in order. -/
def receivedBytes (received : List (Nat × Bytes)) : Bytes := received.flatMap (·.2)

/-- The requests with these methods are answered, each by one response, and what follows
belongs to the next request. -/
structure Answered (methods : List Bytes) (received : List (Nat × Bytes)) : Prop where
  cut : receivedBytes received =
    (answersTo methods.length received).flatten ++ bytesFor (methods.length + 1) received
  framed : List.Forall₂ Answers methods (answersTo methods.length received)

section Sequence

variable {methods : List Bytes} {received : List (Nat × Bytes)}

theorem bytesFor_of_lt {β : Type} {n k : Nat} {entries : List (Nat × List β)}
    (h : ∀ r ∈ entries, r.1 ≤ n) (hk : n < k) : bytesFor k entries = [] := by
  apply List.flatMap_eq_nil_iff.mpr
  intro r hr
  exact if_neg (Nat.ne_of_lt ((h r hr).trans_lt hk))

theorem answersTo_succ (n : Nat) (received : List (Nat × Bytes)) :
    answersTo (n + 1) received = answersTo n received ++ [bytesFor (n + 1) received] := by
  rw [answersTo, List.range_succ, List.map_append]
  rfl

/-- What is written for a later request is no part of an earlier answer. -/
theorem answersTo_append {n k : Nat} (h : n < k) (received : List (Nat × Bytes)) (data : Bytes) :
    answersTo n (received ++ [(k, data)]) = answersTo n received := by
  apply List.map_congr_left
  intro i hi
  have hne : k ≠ i + 1 := by
    have hlt := List.mem_range.mp hi
    omega
  rw [bytesFor_append, bytesFor_cons_ne hne, bytesFor_nil, List.append_nil]

/-- More is written for the next request. -/
theorem Answered.more (h : Answered methods received) (data : List Bytes) :
    Answered methods (received ++ data.map fun d => (methods.length + 1, d)) := by
  induction data generalizing received with
  | nil =>
      rw [List.map_nil, List.append_nil]
      exact h
  | cons d data ih =>
      have hone : Answered methods (received ++ [(methods.length + 1, d)]) := by
        constructor
        · rw [answersTo_append (Nat.lt_succ_self _), bytesFor_append, bytesFor_cons_self,
            bytesFor_nil, List.append_nil, ← List.append_assoc, ← h.cut, receivedBytes,
            List.flatMap_append, receivedBytes, List.flatMap_singleton]
        · rw [answersTo_append (Nat.lt_succ_self _)]
          exact h.framed
      have hrest := ih hone
      rwa [List.append_assoc, List.singleton_append] at hrest

/-- What was written for the next request is its response. -/
theorem Answered.next (h : Answered methods received) {method : Bytes}
    (hanswer : Answers method (bytesFor (methods.length + 1) received))
    (hlast : ∀ r ∈ received, r.1 ≤ methods.length + 1) : Answered (methods ++ [method]) received where
  cut := by
    rw [List.length_append, List.length_singleton, answersTo_succ,
      bytesFor_of_lt hlast (Nat.lt_succ_self _), List.append_nil, List.flatten_append,
      List.flatten_singleton]
    exact h.cut
  framed := by
    rw [List.length_append, List.length_singleton, answersTo_succ]
    exact List.rel_append h.framed (.cons hanswer .nil)

/-- The client cuts the responses as they were written. -/
theorem Answered.takeAll (h : Answered methods received) :
    responseFramer.takeAll (methods.map expectResponse) (receivedBytes received) =
      some (answersTo methods.length received, bytesFor (methods.length + 1) received) := by
  rw [h.cut]
  apply Framer.takeAll_flatten
  rw [List.forall₂_map_left_iff]
  exact h.framed

end Sequence

/-- The text of a reply. -/
def Reply.bytes : Reply → Bytes
  | .badRequest reason => http400Response reason
  | .badGateway dns => http502Response dns
  | .badGatewayKeepAlive dns => http502ResponseKeepAlive dns
  | .gatewayTimeout => http504Response

/-- The bytes without their origin. -/
def octetValues (data : Octets) : Bytes := data.map Octet.value

/-- The method of a request: what its head holds before the first space. Empty lines may
stand before the request line. -/
def methodOf (head : RequestHead Octet) : Bytes :=
  ((octetValues head.raw).dropWhile fun b => b = 13 ∨ b = 10).takeWhile (· ≠ 32)

/-- No backend was found for the request. -/
def MultirouteAction.refuses : MultirouteAction → Bool
  | .route (.ok _) .unavailable => true
  | _ => false

theorem MultirouteAction.eq_of_refuses {a : MultirouteAction} (h : a.refuses = true) :
    ∃ dns, a = .route (.ok dns) .unavailable := by
  unfold refuses at h
  split at h
  · exact ⟨_, rfl⟩
  · cases h

/-- A connection with what its client has received. -/
structure ClientView (P : HttpProxyParser Octet) where
  conn : Multiroute P
  received : List (Nat × Bytes)

namespace ClientView

variable {P : HttpProxyParser Octet} {cfg : MultirouteConfig} {t t' : ClientView P}
  {a : MultirouteAction}

def start (P : HttpProxyParser Octet) : ClientView P := ⟨.init P, []⟩

/-- What a step writes to the client, of the backend and of its own. -/
def newBytes (s s' : Multiroute P) : List (Nat × Bytes) :=
  ((s'.log.written.drop s.log.written.length).map fun w => (w.1, octetValues w.2)) ++
    (s'.log.replies.drop s.log.replies.length).map fun r => (r.1, r.2.bytes)

def step (cfg : MultirouteConfig) (t : ClientView P) (a : MultirouteAction) :
    Option (ClientView P) :=
  (t.conn.step cfg a).map fun conn => ⟨conn, t.received ++ newBytes t.conn conn⟩

/-- The number of requests that are answered: all that were routed, or all but the one that
is being served. -/
def answered (t : ClientView P) : Nat :=
  match t.conn.phase.kind with
  | .between => t.conn.requestNum
  | _ => t.conn.requestNum - 1

/-- The methods of the answered requests. -/
def methods (t : ClientView P) : List Bytes := (t.conn.log.routed.take t.answered).map methodOf

/-- The method of the request that was routed last. -/
def currentMethod (t : ClientView P) : Bytes :=
  (t.conn.log.routed.getLast?.map methodOf).getD []

/-- What was relayed of the backend's response to the current request. -/
def relayed (t : ClientView P) : Bytes :=
  octetValues (bytesFor t.conn.requestNum t.conn.log.written)

/-- As long as the connection is open, a client that frames what it receives obtains exactly
one response for each answered request, in order, and is left with what was written for the
next one. -/
def InStep (t : ClientView P) : Prop :=
  t.conn.phase ≠ .closed →
    responseFramer.takeAll (t.methods.map expectResponse) (receivedBytes t.received) =
      some (answersTo t.answered t.received, bytesFor (t.answered + 1) t.received)

/-- The response of a backend, relayed to its end on a connection that stays open, is
framed by the method of the request it answers. -/
def RelayFramed (t : ClientView P) : Prop :=
  t.conn.phase = .teardown → t.conn.exchange.switched = false → t.conn.keepsAlive = true →
    Answers t.currentMethod t.relayed

/-- A request that is refused with the 502 that keeps the connection is no HEAD. -/
def RefusesNoHead (t : ClientView P) (a : MultirouteAction) : Prop :=
  a.refuses = true → t.currentMethod ≠ asBytes "HEAD"

instance (t : ClientView P) : Decidable (InStep t) := inferInstanceAs (Decidable (_ → _))

instance (t : ClientView P) : Decidable (RelayFramed t) :=
  inferInstanceAs (Decidable (_ → _ → _ → _))

instance (t : ClientView P) (a : MultirouteAction) : Decidable (RefusesNoHead t a) :=
  inferInstanceAs (Decidable (_ → _))

theorem step_inv (h : step cfg t a = some t') :
    t.conn.step cfg a = some t'.conn ∧ t'.received = t.received ++ newBytes t.conn t'.conn := by
  obtain ⟨conn, hconn, rfl⟩ := Option.map_eq_some_iff.mp h
  exact ⟨hconn, rfl⟩

/-- What a step writes, from what it adds to the logs. -/
theorem newBytes_eq {s s' : Multiroute P} {data : List Octets} {answers : List Reply}
    (hwritten : s'.log.written = s.log.written ++ data.map fun d => (s.requestNum, d))
    (hreplies : s'.log.replies = s.log.replies ++ answers.map fun r => (s.requestNum, r)) :
    newBytes s s' = (data.map octetValues ++ answers.map Reply.bytes).map
      fun d => (s.requestNum, d) := by
  rw [newBytes, hwritten, hreplies, List.drop_left, List.drop_left, List.map_append,
    List.map_map, List.map_map, List.map_map, List.map_map]
  rfl

/-- A step that adds nothing to the logs writes nothing. -/
theorem received_of_logs (hs : step cfg t a = some t')
    (hwritten : t'.conn.log.written = t.conn.log.written)
    (hreplies : t'.conn.log.replies = t.conn.log.replies) : t'.received = t.received := by
  have hnone : newBytes t.conn t'.conn = [] := by
    apply @newBytes_eq P t.conn t'.conn [] []
    · rw [hwritten, List.map_nil, List.append_nil]
    · rw [hreplies, List.map_nil, List.append_nil]
  rw [(step_inv hs).2, hnone, List.append_nil]

/-- The answered requests and what is written for the one that is being served. -/
structure Ordered (t : ClientView P) : Prop where
  routed : t.conn.log.routed.length = t.conn.requestNum
  serving : t.conn.phase.kind ≠ .between → t.answered + 1 = t.conn.requestNum
  answered : Answered t.methods t.received
  received : ∀ r ∈ t.received, r.1 ≤ t.conn.requestNum
  written : ∀ w ∈ t.conn.log.written, w.1 ≤ t.conn.requestNum

/-- What the client has of the current response, by the part of the handler. -/
def Current (t : ClientView P) : Prop :=
  match t.conn.phase.kind with
  | .between => True
  | .dispatch => bytesFor t.conn.requestNum t.received = [] ∧ t.relayed = []
  | .running => bytesFor t.conn.requestNum t.received = t.relayed
  | .splicing => t.conn.exchange.switched = true
  | .finished => t.conn.exchange.switched = true ∨ t.conn.exchange.keepAlive = false ∨
      bytesFor t.conn.requestNum t.received = t.relayed

theorem answered_of_between (h : t.conn.phase.kind = .between) :
    t.answered = t.conn.requestNum := by
  rw [answered, h]

theorem answered_of_ne (h : t.conn.phase.kind ≠ .between) :
    t.answered = t.conn.requestNum - 1 := by
  unfold answered
  split
  · contradiction
  · rfl

theorem Ordered.answered_le (h : Ordered t) : t.answered ≤ t.conn.log.routed.length := by
  rw [h.routed]
  by_cases hk : t.conn.phase.kind = .between
  · exact (answered_of_between hk).le
  · rw [answered_of_ne hk]
    exact Nat.sub_le _ _

theorem Ordered.length_methods (h : Ordered t) : t.methods.length = t.answered := by
  rw [methods, List.length_map, List.length_take, Nat.min_eq_left h.answered_le]

theorem Ordered.inStep (h : Ordered t) : InStep t := by
  intro _
  have htake := h.answered.takeAll
  rwa [h.length_methods] at htake

/-- The last routed request is the one after the answered ones. -/
theorem Ordered.methods_succ (h : Ordered t) (hk : t.conn.phase.kind ≠ .between) :
    t.conn.log.routed.map methodOf = t.methods ++ [t.currentMethod] := by
  have hserving := h.serving hk
  have hrouted := h.routed
  have hne : t.conn.log.routed ≠ [] := by
    intro hnil
    rw [hnil, List.length_nil] at hrouted
    omega
  have hlast := List.dropLast_concat_getLast hne
  have htake : t.conn.log.routed.take t.answered = t.conn.log.routed.dropLast := by
    rw [List.dropLast_eq_take]
    congr 1
    omega
  have hcurrent : t.currentMethod = methodOf (t.conn.log.routed.getLast hne) := by
    rw [currentMethod, List.getLast?_eq_some_getLast hne]
    rfl
  rw [methods, htake, hcurrent]
  conv_lhs => rw [← hlast]
  rw [List.map_append]
  rfl

/-- A step between two requests writes nothing. -/
theorem Ordered.waits (h : Ordered t) (hs : step cfg t a = some t')
    (before : t.conn.phase.kind = .between) (after : t'.conn.phase.kind = .between)
    (same : t'.conn.control = t.conn.control) : Ordered t' := by
  have hnum : t'.conn.requestNum = t.conn.requestNum := congrArg Control.requestNum same
  have hrouted : t'.conn.log.routed = t.conn.log.routed := congrArg Control.routed same
  have hwritten : t'.conn.log.written = t.conn.log.written := congrArg Control.written same
  have hreplies : t'.conn.log.replies = t.conn.log.replies := congrArg Control.replies same
  have hreceived := received_of_logs hs hwritten hreplies
  have hmethods : t'.methods = t.methods := by
    rw [methods, methods, answered_of_between after, answered_of_between before, hnum, hrouted]
  constructor
  · rw [hrouted, hnum]
    exact h.routed
  · intro hk
    exact absurd after hk
  · rw [hmethods, hreceived]
    exact h.answered
  · rw [hreceived, hnum]
    exact h.received
  · rw [hwritten, hnum]
    exact h.written

/-- A step in the service of a request. -/
structure Serves (t t' : ClientView P) (data : List Octets) (answers : List Reply) : Prop where
  before : t.conn.phase.kind ≠ .between
  requestNum : t'.conn.requestNum = t.conn.requestNum
  routed : t'.conn.log.routed = t.conn.log.routed
  written : t'.conn.log.written =
    t.conn.log.written ++ data.map fun d => (t.conn.requestNum, d)
  received : t'.received = t.received ++
    (data.map octetValues ++ answers.map Reply.bytes).map fun d => (t.conn.requestNum, d)

/-- What is written in the service of a request is written for it. -/
theorem Ordered.serves (h : Ordered t) {data : List Octets} {answers : List Reply}
    (hserves : Serves t t' data answers) (after : t'.conn.phase.kind ≠ .between) :
    Ordered t' := by
  have hanswered : t'.answered = t.answered := by
    rw [answered_of_ne after, answered_of_ne hserves.before, hserves.requestNum]
  have hmethods : t'.methods = t.methods := by
    rw [methods, methods, hanswered, hserves.routed]
  have hnum : t.conn.requestNum = t.methods.length + 1 := by
    rw [h.length_methods, h.serving hserves.before]
  constructor
  · rw [hserves.routed, hserves.requestNum]
    exact h.routed
  · intro _
    rw [hanswered, hserves.requestNum]
    exact h.serving hserves.before
  · rw [hmethods, hserves.received, hnum]
    exact h.answered.more _
  · rw [hserves.received, hserves.requestNum]
    exact mem_numbered h.received
  · rw [hserves.written, hserves.requestNum]
    exact mem_numbered h.written

/-- The service of a request ends with its answer. -/
theorem Ordered.closes (h : Ordered t) {data : List Octets} {answers : List Reply}
    (hserves : Serves t t' data answers) (after : t'.conn.phase.kind = .between)
    (hanswer : Answers t.currentMethod (bytesFor t.conn.requestNum t'.received)) :
    Ordered t' := by
  have hnum : t.conn.requestNum = t.methods.length + 1 := by
    rw [h.length_methods, h.serving hserves.before]
  have hmethods : t'.methods = t.methods ++ [t.currentMethod] := by
    rw [methods, answered_of_between after, hserves.requestNum, hserves.routed, ← h.routed,
      List.take_length, h.methods_succ hserves.before]
  have hreceived : ∀ r ∈ t'.received, r.1 ≤ t'.conn.requestNum := by
    rw [hserves.received, hserves.requestNum]
    exact mem_numbered h.received
  constructor
  · rw [hserves.routed, hserves.requestNum]
    exact h.routed
  · intro hk
    exact absurd after hk
  · rw [hserves.requestNum, hnum] at hreceived
    rw [hnum] at hanswer
    rw [hmethods]
    refine Answered.next ?_ hanswer hreceived
    rw [hserves.received, hnum]
    exact h.answered.more _
  · exact hreceived
  · rw [hserves.written, hserves.requestNum]
    exact mem_numbered h.written

theorem Serves.of_change (hs : step cfg t a = some t') (before : t.conn.phase.kind ≠ .between)
    {c : Control} (change : t'.conn.control = c) {data : List Octets} {answers : List Reply}
    (hsame : c.requestNum = t.conn.requestNum ∧ c.routed = t.conn.log.routed)
    (hwritten : c.written = t.conn.log.written ++ data.map fun d => (t.conn.requestNum, d))
    (hreplies : c.replies = t.conn.log.replies ++ answers.map fun r => (t.conn.requestNum, r)) :
    Serves t t' data answers := by
  subst change
  exact ⟨before, hsame.1, hsame.2, hwritten, by rw [(step_inv hs).2, newBytes_eq hwritten hreplies]⟩

/-- A step in the service of a request that writes nothing. -/
theorem Serves.silent (hs : step cfg t a = some t') (before : t.conn.phase.kind ≠ .between)
    {c : Control} (change : t'.conn.control = c)
    (hsame : c.requestNum = t.conn.requestNum ∧ c.routed = t.conn.log.routed)
    (hlogs : c.written = t.conn.log.written ∧ c.replies = t.conn.log.replies) :
    Serves t t' [] [] := by
  apply Serves.of_change hs before change hsame
  · rw [hlogs.1, List.map_nil, List.append_nil]
  · rw [hlogs.2, List.map_nil, List.append_nil]

theorem bytesFor_map {β : Type} (n : Nat) (data : List (List β)) :
    bytesFor n (data.map fun d => (n, d)) = data.flatten := by
  induction data with
  | nil => rfl
  | cons d data ih => rw [List.map_cons, bytesFor_cons_self, ih, List.flatten_cons]

/-- What the client receives for the current request. -/
theorem Serves.bytesFor_received {data : List Octets} {answers : List Reply}
    (h : Serves t t' data answers) :
    bytesFor t.conn.requestNum t'.received =
      bytesFor t.conn.requestNum t.received ++
        (data.map octetValues ++ answers.map Reply.bytes).flatten := by
  rw [h.received, bytesFor_append, bytesFor_map]

theorem Serves.relayed_eq {data : List Octets} {answers : List Reply}
    (h : Serves t t' data answers) : t'.relayed = t.relayed ++ (data.map octetValues).flatten := by
  rw [relayed, h.requestNum, h.written, bytesFor_append, bytesFor_map, octetValues,
    List.map_append, List.map_flatten]
  rfl

/-- A request without a backend is answered by the bridge. -/
theorem Serves.refusal (hs : step cfg t a = some t') {head : RequestHead Octet} {dns : String}
    (before : t.conn.phase = .routing head)
    (change : t'.conn.control = { t.conn.control with
      replies := t.conn.log.replies ++ [(t.conn.requestNum, .badGatewayKeepAlive dns)] }) :
    Serves t t' [] [.badGatewayKeepAlive dns] := by
  have hbefore : t.conn.phase.kind = .dispatch := by rw [before]; rfl
  apply Serves.of_change hs (by rw [hbefore]; decide) change ⟨rfl, rfl⟩
  · rw [List.map_nil, List.append_nil]
    rfl
  · rfl

theorem Serves.bytesFor_refusal {dns : String} (h : Serves t t' [] [.badGatewayKeepAlive dns])
    (hnone : bytesFor t.conn.requestNum t.received = []) :
    bytesFor t.conn.requestNum t'.received = http502ResponseKeepAlive dns := by
  rw [h.bytesFor_received, hnone, List.nil_append, List.map_nil, List.nil_append,
    List.map_singleton, List.flatten_singleton, Reply.bytes]

/-- The client has exactly what was relayed. -/
theorem Serves.relays {data : List Octets} (h : Serves t t' data [])
    (heq : bytesFor t.conn.requestNum t.received = t.relayed) :
    bytesFor t'.conn.requestNum t'.received = t'.relayed := by
  rw [h.requestNum, h.bytesFor_received, h.relayed_eq, List.map_nil, List.append_nil, heq]

/-- The next request is routed. -/
theorem Ordered.routes (h : Ordered t) (hs : step cfg t a = some t') {head : RequestHead Octet}
    (before : t.conn.phase = .nextHead) (after : t'.conn.phase = .routing head)
    (change : t'.conn.control = { t.conn.control with
      requestNum := t.conn.requestNum + 1
      routed := t.conn.log.routed ++ [head] }) : Ordered t' ∧ Current t' := by
  have hbefore : t.conn.phase.kind = .between := by rw [before]; rfl
  have hafter : t'.conn.phase.kind = .dispatch := by rw [after]; rfl
  have hnum : t'.conn.requestNum = t.conn.requestNum + 1 := congrArg Control.requestNum change
  have hrouted : t'.conn.log.routed = t.conn.log.routed ++ [head] :=
    congrArg Control.routed change
  have hwritten : t'.conn.log.written = t.conn.log.written := congrArg Control.written change
  have hreplies : t'.conn.log.replies = t.conn.log.replies := congrArg Control.replies change
  have hreceived := received_of_logs hs hwritten hreplies
  have hanswered : t'.answered = t.answered := by
    rw [answered_of_ne (by rw [hafter]; decide), answered_of_between hbefore, hnum,
      Nat.add_sub_cancel]
  have hmethods : t'.methods = t.methods := by
    rw [methods, methods, hanswered, hrouted, List.take_append_of_le_length h.answered_le]
  refine ⟨⟨?_, ?_, ?_, ?_, ?_⟩, ?_⟩
  · rw [hrouted, List.length_append, hnum, h.routed]
    rfl
  · intro _
    rw [hanswered, answered_of_between hbefore, hnum]
  · rw [hmethods, hreceived]
    exact h.answered
  · rw [hreceived, hnum]
    exact fun r hr => (h.received r hr).trans (Nat.le_succ _)
  · rw [hwritten, hnum]
    exact fun w hw => (h.written w hw).trans (Nat.le_succ _)
  · rw [Current, hafter, relayed, hnum, hreceived, hwritten,
      bytesFor_of_lt h.received (Nat.lt_succ_self _), bytesFor_of_lt h.written (Nat.lt_succ_self _)]
    exact ⟨rfl, rfl⟩

/-- An open connection on which the client is in step. -/
def InOrder (t : ClientView P) : Prop := t.conn.phase = .closed ∨ Ordered t ∧ Current t

theorem Ordered.inOrder_between (h : Ordered t) (hk : t.conn.phase.kind = .between) :
    InOrder t := by
  refine Or.inr ⟨h, ?_⟩
  rw [Current, hk]
  trivial

/-- The 502 that keeps the connection answers a request that is no HEAD. -/
theorem Ordered.refuses (h : Ordered t) {dns : String}
    (hserves : Serves t t' [] [.badGatewayKeepAlive dns])
    (hnone : bytesFor t.conn.requestNum t.received = [])
    (hmethod : t.currentMethod ≠ asBytes "HEAD") (after : t'.conn.phase.kind = .between) :
    InOrder t' := by
  refine (h.closes hserves after ?_).inOrder_between after
  rw [hserves.bytesFor_refusal hnone]
  exact answers_http502ResponseKeepAlive hmethod dns

/-- The exchange goes on with exactly what was relayed. -/
theorem Ordered.runs (h : Ordered t) {data : List Octets} (hserves : Serves t t' data [])
    (heq : bytesFor t.conn.requestNum t.received = t.relayed)
    (after : t'.conn.phase.kind = .running) : InOrder t' := by
  refine Or.inr ⟨h.serves hserves (by rw [after]; decide), ?_⟩
  rw [Current, after]
  exact hserves.relays heq

/-- The exchange is over, and what was relayed is the answer unless the connection ends. -/
theorem Ordered.finishes (h : Ordered t) {data : List Octets} {answers : List Reply}
    (hserves : Serves t t' data answers) (after : t'.conn.phase = .teardown)
    (hend : t'.conn.exchange.switched = true ∨ t'.conn.exchange.keepAlive = false ∨
      bytesFor t'.conn.requestNum t'.received = t'.relayed) : InOrder t' := by
  have hafter : t'.conn.phase.kind = .finished := by rw [after]; rfl
  refine Or.inr ⟨h.serves hserves (by rw [hafter]; decide), ?_⟩
  rw [Current, hafter]
  exact hend

/-- An exchange on a connection that stays open ends with the backend's answer. -/
theorem Ordered.returns (h : Ordered t) (hserves : Serves t t' [] [])
    (hanswer : Answers t.currentMethod t.relayed)
    (heq : bytesFor t.conn.requestNum t.received = t.relayed)
    (after : t'.conn.phase.kind = .between) : InOrder t' := by
  refine (h.closes hserves after ?_).inOrder_between after
  rw [hserves.bytesFor_received, heq, List.map_nil, List.map_nil, List.append_nil,
    List.flatten_nil, List.append_nil]
  exact hanswer

theorem InOrder.step (h : InOrder t) (hframed : RelayFramed t) (hhead : RefusesNoHead t a)
    (hs : step cfg t a = some t') : InOrder t' := by
  have hconn := (step_inv hs).1
  obtain hclosed | ⟨hordered, hcurrent⟩ := h
  · simp [Multiroute.step, hclosed] at hconn
  rw [Current] at hcurrent
  cases Multiroute.step_course hconn with
  | waits before after same => exact (hordered.waits hs before after same).inOrder_between after
  | leaves before after outcome answers change => exact Or.inl after
  | routes head before after change => exact Or.inr (hordered.routes hs before after change)
  | refuses head dns before action after change =>
      rw [before] at hcurrent
      apply hordered.refuses (Serves.refusal hs before change) hcurrent.1
      · exact hhead (by rw [action]; rfl)
      · rw [after]
        rfl
  | prepares before after same =>
      have hserves := Serves.silent hs (by rw [before]; decide) same ⟨rfl, rfl⟩ ⟨rfl, rfl⟩
      refine Or.inr ⟨hordered.serves hserves (by rw [after]; decide), ?_⟩
      rw [before] at hcurrent
      rw [Current, after, hserves.requestNum, hserves.bytesFor_received, hserves.relayed_eq,
        hcurrent.1, hcurrent.2]
      exact ⟨rfl, rfl⟩
  | starts head dns before after change =>
      have hbefore : t.conn.phase.kind = .dispatch := by rw [before]; rfl
      have hserves := Serves.silent hs (by rw [hbefore]; decide) change ⟨rfl, rfl⟩ ⟨rfl, rfl⟩
      rw [hbefore] at hcurrent
      exact hordered.runs hserves (hcurrent.1.trans hcurrent.2.symm) (by rw [after]; rfl)
  | loops before after quiet same =>
      have hserves := Serves.silent hs (by rw [before]; decide) same ⟨rfl, rfl⟩ ⟨rfl, rfl⟩
      rw [before] at hcurrent
      exact hordered.runs hserves hcurrent after
  | relays carry e rest raw before events side notEnd after change =>
      have hbefore : t.conn.phase.kind = .running := by rw [before]; rfl
      have hserves : Serves t t' [raw] [] := by
        apply Serves.of_change hs (by rw [hbefore]; decide) change ⟨rfl, rfl⟩ rfl
        rw [List.map_nil, List.append_nil]
        rfl
      rw [hbefore] at hcurrent
      exact hordered.runs hserves hcurrent (by rw [after]; rfl)
  | completes carry rest before events after change =>
      have hbefore : t.conn.phase.kind = .running := by rw [before]; rfl
      have hserves := Serves.silent hs (by rw [hbefore]; decide) change ⟨rfl, rfl⟩ ⟨rfl, rfl⟩
      rw [hbefore] at hcurrent
      exact hordered.finishes hserves after (Or.inr (Or.inr (hserves.relays hcurrent)))
  | degrades ending answers before after bad silent change =>
      have hserves : Serves t t' [] answers := by
        apply Serves.of_change hs (by rw [before]; decide) change ⟨rfl, rfl⟩ _ rfl
        rw [List.map_nil, List.append_nil]
        rfl
      exact hordered.finishes hserves after (Or.inr (Or.inl (congrArg Control.keepAlive change)))
  | switches before after change =>
      have hserves := Serves.silent hs (by rw [before]; decide) change ⟨rfl, rfl⟩ ⟨rfl, rfl⟩
      refine Or.inr ⟨hordered.serves hserves (by rw [after]; decide), ?_⟩
      rw [Current, after]
      exact congrArg Control.switched change
  | breaks before after change => exact Or.inl after
  | splices before after data change =>
      have hserves : Serves t t' data [] := by
        apply Serves.of_change hs (by rw [before]; decide) change ⟨rfl, rfl⟩ rfl
        rw [List.map_nil, List.append_nil]
        rfl
      rw [before] at hcurrent
      have hswitched := (congrArg Control.switched change).trans hcurrent
      obtain hafter | hafter := after
      · refine Or.inr ⟨hordered.serves hserves (by rw [hafter]; decide), ?_⟩
        rw [Current, hafter]
        exact hswitched
      · exact hordered.finishes hserves hafter (Or.inl hswitched)
  | returns before back =>
      obtain ⟨hclosed | ⟨after, hplain, halive⟩, change⟩ := back
      · exact Or.inl hclosed
      have hbefore : t.conn.phase.kind = .finished := by rw [before]; rfl
      have hserves := Serves.silent hs (by rw [hbefore]; decide) change ⟨rfl, rfl⟩ ⟨rfl, rfl⟩
      have hkeep : t.conn.exchange.keepAlive = true := by
        simp only [Multiroute.keepsAlive, Bool.and_eq_true] at halive
        exact halive.1.1
      have hrelayed : bytesFor t.conn.requestNum t.received = t.relayed := by
        rw [hbefore] at hcurrent
        simpa [hplain, hkeep] using hcurrent
      apply hordered.returns hserves (hframed before hplain halive) hrelayed
      rw [after]
      rfl

/-- Only the routing of a head resolves a backend. -/
theorem routing_of_step {s s' : Multiroute P} {key : Except String String}
    {backend : BackendRoute} (h : s.step cfg (.route key backend) = some s') :
    ∃ head, s.phase = .routing head ∧ s.stepRouting head (.route key backend) = some s' := by
  unfold Multiroute.step at h
  split at h
  case h_3 head hp => exact ⟨head, hp, h⟩
  case h_10 carry hp =>
    unfold Multiroute.stepEvents at h
    split at h
    · contradiction
    · split at h <;> contradiction
  case h_13 chunks hp => cases chunks <;> contradiction
  case h_14 chunks hp => cases chunks <;> contradiction
  all_goals contradiction

/-- A refused HEAD leaves the client with the body of the 502. -/
theorem takeAll_refused_head {methods : List Bytes} {received : List (Nat × Bytes)} {dns : String}
    (h : Answered methods received)
    (hanswer : bytesFor (methods.length + 1) received = http502ResponseKeepAlive dns) :
    responseFramer.takeAll ((methods ++ [asBytes "HEAD"]).map expectResponse)
        (receivedBytes received) =
      some (answersTo methods.length received ++ [headBytes (badGatewayLines dns)],
        badGatewayText dns) := by
  have hframed : List.Forall₂ responseFramer.Reads (methods.map expectResponse)
      (answersTo methods.length received) := by
    rw [List.forall₂_map_left_iff]
    exact h.framed
  rw [h.cut, hanswer, List.map_append, Framer.takeAll_append hframed, List.map_singleton,
    Framer.takeAll, take_http502ResponseKeepAlive_head]
  rfl

theorem InOrder.out_of_step (h : InOrder t) (hbad : ¬ RefusesNoHead t a)
    (hs : ClientView.step cfg t a = some t') : ¬ InStep t' := by
  simp only [RefusesNoHead, Classical.not_imp, not_not] at hbad
  obtain ⟨hrefuses, hmethod⟩ := hbad
  obtain ⟨dns, rfl⟩ := MultirouteAction.eq_of_refuses hrefuses
  obtain ⟨head, before, hrefuse⟩ := routing_of_step (step_inv hs).1
  have hbefore : t.conn.phase.kind ≠ .between := by
    rw [before]
    exact PhaseKind.noConfusion
  obtain hclosed | ⟨hordered, hcurrent⟩ := h
  · rw [hclosed] at before
    cases before
  have hconn := Option.some.inj hrefuse
  have hafter : t'.conn.phase = .consume := by rw [← hconn]; rfl
  have hkind : t'.conn.phase.kind = .between := by rw [hafter]; rfl
  have hserves : Serves t t' [] [.badGatewayKeepAlive dns] := by
    apply Serves.refusal hs before
    rw [← hconn]
    rfl
  have hnum : t.methods.length + 1 = t.conn.requestNum := by
    rw [hordered.length_methods, hordered.serving hbefore]
  have hmethods : t'.methods = t.methods ++ [asBytes "HEAD"] := by
    rw [← hmethod, ← hordered.methods_succ hbefore, methods, answered_of_between hkind,
      hserves.requestNum, hserves.routed, ← hordered.routed, List.take_length]
  have hmore : Answered t.methods t'.received := by
    rw [hserves.received, ← hnum]
    exact hordered.answered.more _
  have hanswer : bytesFor (t.methods.length + 1) t'.received = http502ResponseKeepAlive dns := by
    rw [Current, before] at hcurrent
    rw [hnum]
    exact hserves.bytesFor_refusal hcurrent.1
  have hnothing : bytesFor (t'.answered + 1) t'.received = [] := by
    rw [answered_of_between hkind, hserves.requestNum, hserves.received]
    exact bytesFor_of_lt (mem_numbered hordered.received) (Nat.lt_succ_self _)
  intro hin
  have htake := hin (by rw [hafter]; exact MultiroutePhase.noConfusion)
  rw [hmethods, takeAll_refused_head hmore hanswer, hnothing] at htake
  exact badGatewayText_ne_nil dns (congrArg Prod.snd (Option.some.inj htake))

/-- On every run whose relayed responses are framed by the method of their request, the
client stays in step exactly when no HEAD request is refused. -/
theorem responses_in_step_iff (cfg : MultirouteConfig) (P : HttpProxyParser Octet)
    (schedule : List MultirouteAction)
    (framed : Along (step cfg) (fun t _ => RelayFramed t) (start P) schedule) :
    Always (step cfg) InStep (start P) schedule ↔
      Along (step cfg) RefusesNoHead (start P) schedule := by
  refine always_iff_along (I := InOrder) (fun t _ => RelayFramed t) ?_ ?_ ?_ ?_ framed
  · rintro t (hclosed | ⟨hordered, -⟩)
    · exact fun hopen => absurd hclosed hopen
    · exact hordered.inStep
  · intro t a t' h hframed hhead hs
    exact h.step hframed hhead hs
  · intro t a t' h _ hbad hs
    exact h.out_of_step hbad hs
  · right
    refine ⟨⟨rfl, fun hk => absurd rfl hk, ⟨rfl, .nil⟩, ?_, ?_⟩, trivial⟩
    · exact fun r hr => absurd hr List.not_mem_nil
    · exact fun w hw => absurd hw List.not_mem_nil

/-- A GET without a backend and a HEAD with one, pipelined. -/
theorem responses_in_step_of_refused_get :
    let schedule : List MultirouteAction :=
      [.tick, .read (wire "GET / HTTP/1.1\r\nHost:a\r\n\r\nHEAD / HTTP/1.1\r\nHost:b\r\n\r\n"),
        .tick, .route (.ok "a") .unavailable, .tick, .tick, .tick, .route (.ok "b") .host,
        .setupDone true, .publish true, .tick, .tick, .tick,
        .sample (wire "HTTP/1.1 204 \r\n\r\n"), .tick, .write true, .tick, .publish true]
    (exec (step ⟨64, 64⟩) (start (headParser 64)) schedule).map methods =
        some [asBytes "GET", asBytes "HEAD"] ∧
      Always (step ⟨64, 64⟩) InStep (start (headParser 64)) schedule := by
  refine ⟨by decide +kernel, (responses_in_step_iff _ _ _ ?_).mpr ?_⟩
  · decide +kernel
  · decide +kernel

/-- A HEAD without a backend. -/
theorem responses_out_of_step_of_refused_head :
    let schedule : List MultirouteAction :=
      [.tick, .read (wire "HEAD / HTTP/1.1\r\nHost:a\r\n\r\n"), .tick,
        .route (.ok "a") .unavailable]
    Along (step ⟨64, 64⟩) (fun t _ => RelayFramed t) (start (headParser 64)) schedule ∧
      ¬ Always (step ⟨64, 64⟩) InStep (start (headParser 64)) schedule := by
  decide +kernel

end ClientView

end ZenohBridge
