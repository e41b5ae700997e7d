import ZenohBridge.Foundation.Execution
import ZenohBridge.HttpParser
import Mathlib.Data.List.DropRight

/-!
# Per-request routing on a persistent HTTP connection

`handle_multiroute_connection` serves one client connection with one parser, one event
queue and one buffer of refused client bytes. It alternates between `next_request_head`,
which waits for a request head, and `run_exchange`, which relays the request to a backend
over channels of its own and the response back. A request without a backend is answered by
the bridge and skipped by `consume_request_body`.

The handler is one task. A step is the code between two awaits, or one iteration of a
loop that does not await, and its label is what the awaited operation returned.

## Implementation notes

Every byte carries where it came from, the client or the response channel of one exchange.
The routing key of a head and the backend found for it come with the label of the routing
step: the results here hold for every routing. Timeouts, the overflow of the response
channel and the drain of the listener are labels too. The texts of the replies that the
bridge writes itself are named by what they say. `Log` is the history that the results
speak about and is never read by a step.
-/

namespace ZenohBridge

/-- Where a byte of the connection came from. -/
inductive Origin where
  | client
  /-- The response channel of the exchange that serves this request. -/
  | backend (request : Nat)
  deriving DecidableEq, Repr

/-- A byte with its origin. -/
structure Octet where
  value : UInt8
  origin : Origin
  deriving DecidableEq, Repr

abbrev Octets := List Octet

/-- Bytes as they arrive from one place. -/
def octets (origin : Origin) (bytes : List UInt8) : Octets := bytes.map fun b => ⟨b, origin⟩

/-- The settings that the connection reads. -/
structure MultirouteConfig where
  bufferSize : Nat
  maxResponseSize : Nat

/-- How a non-switched exchange ended. -/
inductive ExchangeEnd where
  | ok
  | timeout
  | overflow
  | truncated
  | poisoned
  | backendGone
  | drained
  deriving DecidableEq, Repr

/-- How the connection ended, for the metric and the access log. -/
inductive ConnOutcome where
  | completed
  | reset
  | failed
  deriving DecidableEq, Repr

/-- What `resolve_backend` found; its failure counts as `unavailable`. -/
inductive BackendRoute where
  | host
  | default
  | unavailable
  deriving DecidableEq, Repr

/-- The responses that the bridge writes itself. -/
inductive Reply where
  | badRequest (reason : String)
  | badGateway (dns : String)
  | badGatewayKeepAlive (dns : String)
  | gatewayTimeout
  deriving DecidableEq, Repr

/-- The Unicode white space that `str::trim` removes. -/
def isWhiteSpace (c : Char) : Bool :=
  (9 ≤ c.toNat ∧ c.toNat ≤ 13) ∨ c.toNat ∈ [0x20, 0x85, 0xA0, 0x1680, 0x2028, 0x2029, 0x202F,
    0x205F, 0x3000] ∨ (0x2000 ≤ c.toNat ∧ c.toNat ≤ 0x200A)

/-- The elements of a comma-separated header value, trimmed and in lower case. A value that
is not valid UTF-8 has none. -/
def headerTokens (value : List UInt8) : List (List Char) :=
  match String.fromUTF8? ⟨value.toArray⟩ with
  | none => []
  | some text => (text.toList.splitOn ',').map fun token =>
      ((token.dropWhile isWhiteSpace).rdropWhile isWhiteSpace).map Char.toLower

/-- `response_wants_close`: the backend announces that it will close the connection. -/
def responseWantsClose {β : Type} (head : ResponseHead β) : Bool :=
  let tokens := head.connection.flatMap headerTokens
  head.untilClose || tokens.contains "close".toList ||
    (head.http10 && !tokens.contains "keep-alive".toList)

/-- The local variables of `run_exchange`. -/
structure Exchange where
  dns : String
  requestDone : Bool
  responseDone : Bool
  switched : Bool
  keepAlive : Bool
  ending : ExchangeEnd
  bytesWritten : Nat
  respPending : Octets
  deriving DecidableEq

/-- The variables as `run_exchange` initialises them. -/
def Exchange.fresh (dns : String) : Exchange := ⟨dns, false, false, false, true, .ok, 0, []⟩

/-- Where the handler is. -/
inductive MultiroutePhase where
  /-- The loop of `next_request_head`, and its awaited read. -/
  | nextHead
  | nextHeadRead
  | routing (head : RequestHead Octet)
  /-- The loop of `consume_request_body`: its re-offer, its event loop and its read. -/
  | consume
  | consumeEvents
  | consumeRead
  /-- `run_exchange` before its loop. -/
  | setup (head : RequestHead Octet) (dns : String)
  | publishHead (head : RequestHead Octet) (dns : String)
  /-- The loop of `run_exchange`: its re-offer, its event loop and its `select!`. -/
  | exchange
  | events (carry : List (HttpEvent Octet))
  | select
  /-- The splice after a protocol switch. -/
  | spliceStart
  | spliceUp (chunks : List Octets)
  | spliceDown (chunks : List Octets)
  | splice
  | splicePut (data : Octets)
  | spliceWrite (data : Octets)
  | teardown
  | closed
  deriving DecidableEq

/-- The bytes of one direction: what came in, what the parser accepted of it, what went
past the parser after a switch, and whether `fin` was called over a refused tail. -/
structure Stream where
  taken : Octets
  accepted : Octets
  spliced : Octets
  finEarly : Bool
  deriving DecidableEq

def Stream.empty : Stream := ⟨[], [], [], false⟩

/-- What happened on the connection so far. -/
structure Log where
  /-- The client's bytes over the whole connection. -/
  up : Stream
  /-- The response bytes of the running exchange. -/
  down : Stream
  /-- Every event drained from the parser. -/
  drained : List (HttpEvent Octet)
  /-- The heads that were routed. -/
  routed : List (RequestHead Octet)
  /-- The requests whose end was processed by their own exchange. -/
  sentWhole : List Nat
  /-- What was published, with the number of the request it was published for. -/
  tx : List (Nat × Octets)
  /-- What of the backends was written to the client, with the number of the exchange. -/
  written : List (Nat × Octets)
  replies : List (Nat × Reply)
  deriving DecidableEq

/-- The state of one client connection. -/
structure Multiroute (P : HttpProxyParser Octet) where
  phase : MultiroutePhase
  parser : P.State
  events : List (HttpEvent Octet)
  clientPending : Octets
  clientEof : Bool
  requestNum : Nat
  exchange : Exchange
  outcome : ConnOutcome
  log : Log

/-- What an await returned, or `tick` for a step without one. -/
inductive MultirouteAction where
  | tick
  | read (data : List UInt8)
  | readEof
  /-- A read error, or the read timeout where there is one. -/
  | readFailed
  | shutdown
  | route (key : Except String String) (backend : BackendRoute)
  | setupDone (ok : Bool)
  | publish (ok : Bool)
  | write (ok : Bool)
  /-- A sample of the response channel; the empty one is the EOF marker. -/
  | sample (payload : List UInt8)
  | channelClosed
  | timeout
  | overflow
  deriving DecidableEq

namespace Multiroute

variable {P : HttpProxyParser Octet}

/-- A fresh client connection. -/
def init (P : HttpProxyParser Octet) : Multiroute P where
  phase := .nextHead
  parser := P.start
  events := []
  clientPending := []
  clientEof := false
  requestNum := 0
  exchange := .fresh ""
  outcome := .completed
  log := ⟨.empty, .empty, [], [], [], [], [], []⟩

def goto (phase : MultiroutePhase) (s : Multiroute P) : Multiroute P := { s with phase := phase }

/-- The connection is over. -/
def close (outcome : ConnOutcome) (s : Multiroute P) : Multiroute P :=
  { s with phase := .closed, outcome := outcome }

/-- The bridge writes a response of its own. -/
def reply (r : Reply) (s : Multiroute P) : Multiroute P :=
  { s with log := { s.log with replies := s.log.replies ++ [(s.requestNum, r)] } }

/-- `push_bytes` of client bytes and `drain_events`; the tail becomes `client_pending`. -/
def feedClient (bytes : Octets) (s : Multiroute P) : Multiroute P :=
  let pushed := P.pushBytes .initiator s.parser bytes
  let drained := P.drainEvents pushed.parser
  { s with
    parser := drained.2
    events := s.events ++ drained.1
    clientPending := pushed.tail
    log := { s.log with
      up := { s.log.up with accepted := s.log.up.accepted ++ pushed.accepted }
      drained := s.log.drained ++ drained.1 } }

/-- `push_bytes` of response bytes and `drain_events`; the tail becomes `resp_pending`. -/
def feedResponse (bytes : Octets) (s : Multiroute P) : Multiroute P :=
  let pushed := P.pushBytes .responder s.parser bytes
  let drained := P.drainEvents pushed.parser
  { s with
    parser := drained.2
    events := s.events ++ drained.1
    exchange := { s.exchange with respPending := pushed.tail }
    log := { s.log with
      down := { s.log.down with accepted := s.log.down.accepted ++ pushed.accepted }
      drained := s.log.drained ++ drained.1 } }

/-- The client half-closed: `client_eof`, `fin` and `drain_events`. -/
def finClient (s : Multiroute P) : Multiroute P :=
  let drained := P.drainEvents (P.fin .initiator s.parser)
  { s with
    parser := drained.2
    events := s.events ++ drained.1
    clientEof := true
    log := { s.log with
      up := { s.log.up with finEarly := s.log.up.finEarly || !s.clientPending.isEmpty }
      drained := s.log.drained ++ drained.1 } }

/-- The EOF marker of the backend: `fin` and `drain_events`. -/
def finResponse (s : Multiroute P) : Multiroute P :=
  let drained := P.drainEvents (P.fin .responder s.parser)
  { s with
    parser := drained.2
    events := s.events ++ drained.1
    log := { s.log with
      down := { s.log.down with
        finEarly := s.log.down.finEarly || !s.exchange.respPending.isEmpty }
      drained := s.log.drained ++ drained.1 } }

/-- Bytes were read from the client's socket. -/
def takeClient (data : Octets) (s : Multiroute P) : Multiroute P :=
  { s with log := { s.log with up := { s.log.up with taken := s.log.up.taken ++ data } } }

/-- A sample was received in the running exchange. -/
def takeResponse (data : Octets) (s : Multiroute P) : Multiroute P :=
  { s with log := { s.log with down := { s.log.down with taken := s.log.down.taken ++ data } } }

/-- `tx_publisher.put` returned without an error. -/
def published (data : Octets) (s : Multiroute P) : Multiroute P :=
  { s with log := { s.log with tx := s.log.tx ++ [(s.requestNum, data)] } }

/-- Bytes of the backend were written to the client. -/
def wrote (data : Octets) (s : Multiroute P) : Multiroute P :=
  { s with log := { s.log with written := s.log.written ++ [(s.requestNum, data)] } }

/-- What a read may return: at most a buffer, and not nothing. -/
def Readable (cfg : MultirouteConfig) (data : List UInt8) : Prop :=
  data ≠ [] ∧ data.length ≤ cfg.bufferSize

instance (cfg : MultirouteConfig) (data : List UInt8) : Decidable (Readable cfg data) :=
  inferInstanceAs (Decidable (_ ∧ _))

/-- `NextRequest::Malformed`: a 400 if it is the client's fault, and the end. -/
def malformed (clientFault : Bool) (reason : String) (s : Multiroute P) : Multiroute P :=
  if clientFault then (s.reply (.badRequest reason)).close .reset else s.close .reset

/-- The check for a framing violation in `next_request_head`. -/
def refusePoison (s : Multiroute P) : Multiroute P :=
  match P.poison s.parser with
  | some reason => s.malformed (reason.impliesClientFault.getD true) reason.text
  | none => s.goto .nextHead

/-- The loop of `next_request_head` between two reads. -/
def stepNextHead (s : Multiroute P) : MultirouteAction → Option (Multiroute P)
  | .tick =>
      match s.events with
      | .requestHead head :: rest => some { s with
          phase := .routing head
          events := rest
          requestNum := s.requestNum + 1
          log := { s.log with routed := s.log.routed ++ [head] } }
      -- a stray event between requests is discarded
      | _ :: rest => some { s with events := rest }
      | [] =>
          if s.clientEof then some (s.close s.outcome)
          else if P.isTunnelled s.parser then some (s.malformed false
            "connection switched protocols before a routable request head")
          else if s.clientPending ≠ [] then some (s.feedClient s.clientPending).refusePoison
          else some (s.goto .nextHeadRead)
  | _ => none

/-- The awaited read of `next_request_head`. -/
def stepNextHeadRead (cfg : MultirouteConfig) (s : Multiroute P) :
    MultirouteAction → Option (Multiroute P)
  | .read data =>
      if Readable cfg data then
        some ((s.takeClient (octets .client data)).feedClient (octets .client data)).refusePoison
      else none
  | .readEof => some (s.finClient.goto .nextHead)
  | .readFailed =>
      if s.requestNum = 0 then some (s.malformed true "timeout or error reading the request")
      else some (s.close s.outcome)
  | .shutdown => some (s.close s.outcome)
  | _ => none

/-- Routing a head. -/
def stepRouting (head : RequestHead Octet) (s : Multiroute P) :
    MultirouteAction → Option (Multiroute P)
  | .route (.error e) _ => some ((s.reply (.badRequest e)).close .reset)
  | .route (.ok dns) .unavailable => some ((s.reply (.badGatewayKeepAlive dns)).goto .consume)
  | .route (.ok dns) _ => some (s.goto (.setup head dns))
  | _ => none

/-- `consume_request_body` returns early on a parser that frames no more. -/
def consumeOn (s : Multiroute P) (phase : MultiroutePhase) : Multiroute P :=
  if (P.poison s.parser).isSome ∨ P.isTunnelled s.parser = true then s.goto .nextHead
  else s.goto phase

/-- The loop of `consume_request_body` between two reads. -/
def stepConsume (s : Multiroute P) : MultirouteAction → Option (Multiroute P)
  | .tick =>
      if s.clientPending ≠ [] then some ((s.feedClient s.clientPending).consumeOn .consumeEvents)
      else some (s.goto .consumeEvents)
  | _ => none

def stepConsumeEvents (s : Multiroute P) : MultirouteAction → Option (Multiroute P)
  | .tick =>
      match s.events with
      | .endMessage .initiator :: rest => some { s with phase := .nextHead, events := rest }
      | .requestHead _ :: _ => some (s.goto .nextHead)
      | _ :: rest => some { s with events := rest }
      | [] =>
          if s.clientEof then some (s.goto .nextHead)
          else if s.clientPending ≠ [] then some (s.goto .consume)
          else some (s.goto .consumeRead)
  | _ => none

/-- The awaited read of `consume_request_body`. -/
def stepConsumeRead (cfg : MultirouteConfig) (s : Multiroute P) :
    MultirouteAction → Option (Multiroute P)
  | .read data =>
      if Readable cfg data then
        some (((s.takeClient (octets .client data)).feedClient (octets .client data)).consumeOn
          .consume)
      else none
  | .readEof => some (s.finClient.goto .consume)
  | .readFailed => some (s.goto .nextHead)
  | .shutdown => some (s.goto .nextHead)
  | _ => none

/-- The Zenoh setup of `run_exchange`; its failure fails the connection. -/
def stepSetup (head : RequestHead Octet) (dns : String) (s : Multiroute P) :
    MultirouteAction → Option (Multiroute P)
  | .setupDone true => some (s.goto (.publishHead head dns))
  | .setupDone false => some (s.close .failed)
  | _ => none

/-- The head is published and the exchange starts with fresh variables. -/
def stepPublishHead (head : RequestHead Octet) (dns : String) (s : Multiroute P) :
    MultirouteAction → Option (Multiroute P)
  | .publish true => some { s.published head.raw with
      phase := .exchange
      exchange := .fresh dns
      log := { (s.published head.raw).log with down := .empty } }
  | .publish false => some (s.close .failed)
  | _ => none

/-- The top of the exchange loop: both refused tails are offered again. -/
def stepExchange (s : Multiroute P) : MultirouteAction → Option (Multiroute P)
  | .tick =>
      let s := if s.clientPending ≠ [] then s.feedClient s.clientPending else s
      let s := if s.exchange.respPending ≠ [] then s.feedResponse s.exchange.respPending else s
      some (s.goto (.events []))
  | _ => none

/-- An exit of the exchange loop that ends the connection. -/
def endExchange (ending : ExchangeEnd) (s : Multiroute P) : Multiroute P :=
  { s with
    phase := .teardown
    exchange := { s.exchange with keepAlive := false, ending := ending } }

/-- Before the first backend byte an exit answers the client. -/
def replyIfSilent (r : Reply) (s : Multiroute P) : Multiroute P :=
  if s.exchange.bytesWritten = 0 then s.reply r else s

/-- The check for a framing violation after the event loop. -/
def afterEvents (s : Multiroute P) : Multiroute P :=
  match P.poison s.parser with
  | some reason =>
      (s.replyIfSilent (if reason.impliesClientFault.getD true then .badRequest reason.text
        else .badGateway s.exchange.dns)).endExchange .poisoned
  | none => s.goto .select

/-- The bytes of a request event that the exchange publishes. -/
def forwarded (requestDone : Bool) : HttpEvent Octet → Option Octets
  | .body .initiator raw | .trailers .initiator raw => if requestDone then none else some raw
  | _ => none

/-- A response event whose bytes would overshoot the cap. -/
def overshoots (cfg : MultirouteConfig) (x : Exchange) : HttpEvent Octet → Bool
  | .body .responder raw | .trailers .responder raw =>
      decide (cfg.maxResponseSize < x.bytesWritten + raw.length)
  | _ => false

/-- The bytes of a response event that the exchange writes. -/
def relayed (cfg : MultirouteConfig) (x : Exchange) (e : HttpEvent Octet) : Option Octets :=
  match e with
  | .responseHead head => some head.raw
  | .body .responder raw | .trailers .responder raw =>
      if overshoots cfg x e then none else some raw
  | _ => none

/-- What a response event changes in the variables before its bytes are written. -/
def noteClose (x : Exchange) : HttpEvent Octet → Exchange
  | .responseHead head =>
      if !head.interim && responseWantsClose head then { x with keepAlive := false } else x
  | _ => x

/-- An event of the exchange loop that needs no await. -/
def handleEvent (cfg : MultirouteConfig) (carry : List (HttpEvent Octet)) (e : HttpEvent Octet)
    (rest : List (HttpEvent Octet)) (s : Multiroute P) : Multiroute P :=
  if e = .endMessage .initiator ∧ s.exchange.requestDone = false then { s with
    events := rest
    exchange := { s.exchange with requestDone := true }
    log := { s.log with sentWhole := s.log.sentWhole ++ [s.requestNum] } }
  else if overshoots cfg s.exchange e then
    { s with events := carry ++ rest }.endExchange .truncated
  else if e = .endMessage .responder then { s with
    phase := .teardown
    events := carry ++ rest
    exchange := { s.exchange with responseDone := true } }
  else if e = .switchProtocols then { s with
    phase := .spliceStart
    events := carry ++ rest
    exchange := { s.exchange with switched := true } }
  -- anything else belongs to the next request and is carried aside
  else { s with phase := .events (carry ++ [e]), events := rest }

/-- The event loop of the exchange. The carried events go back in front of the queue. -/
def stepEvents (cfg : MultirouteConfig) (carry : List (HttpEvent Octet)) (s : Multiroute P)
    (a : MultirouteAction) : Option (Multiroute P) :=
  match s.events with
  | [] =>
      match a with
      | .tick => some ({ s with events := carry }.afterEvents)
      | _ => none
  | e :: rest =>
      match forwarded s.exchange.requestDone e, relayed cfg s.exchange e, a with
      | some raw, _, .publish true => some { s.published raw with events := rest }
      | some _, _, .publish false => some (s.close .failed)
      | none, some raw, .write true => some { s.wrote raw with
          events := rest
          exchange := { noteClose s.exchange e with
            bytesWritten := s.exchange.bytesWritten + raw.length } }
      | none, some _, .write false => some (s.close .failed)
      | none, none, .tick => some (s.handleEvent cfg carry e rest)
      | _, _, _ => none

/-- The `select!` of the exchange. Only the arm that reads the client has a guard. -/
def stepSelect (cfg : MultirouteConfig) (s : Multiroute P) :
    MultirouteAction → Option (Multiroute P)
  | .read data =>
      if s.exchange.requestDone = false ∧ s.clientEof = false ∧ s.clientPending = [] ∧
          Readable cfg data then
        some (((s.takeClient (octets .client data)).feedClient (octets .client data)).goto
          .exchange)
      else none
  | .readEof =>
      if s.exchange.requestDone = false ∧ s.clientEof = false ∧ s.clientPending = [] then
        some (s.finClient.goto .exchange)
      else none
  | .readFailed =>
      if s.exchange.requestDone = false ∧ s.clientEof = false ∧ s.clientPending = [] then
        some (s.close .failed)
      else none
  | .sample payload =>
      if payload = [] then some (s.finResponse.goto .exchange)
      else
        let data := octets (.backend s.requestNum) payload
        some (((s.takeResponse data).feedResponse data).goto .exchange)
  | .channelClosed =>
      some ((s.replyIfSilent (.badGateway s.exchange.dns)).endExchange .backendGone)
  | .timeout => some ((s.replyIfSilent .gatewayTimeout).endExchange .timeout)
  | .overflow => some (s.endExchange .overflow)
  | .shutdown => some (s.endExchange .drained)
  | _ => none

/-- The first client bytes of the switched protocol: what the parser holds and what it
refused. -/
def stepSpliceStart (s : Multiroute P) : MultirouteAction → Option (Multiroute P)
  | .tick =>
      let residue := P.takeTunnelResidue .initiator s.parser
      some { s with
        phase := .spliceUp ([residue.1, s.clientPending].filter fun c => !c.isEmpty)
        parser := residue.2
        clientPending := []
        log := { s.log with
          up := { s.log.up with spliced := s.log.up.spliced ++ s.clientPending } } }
  | _ => none

/-- They are published one by one; then the same is done for the response bytes. -/
def stepSpliceUp (chunks : List Octets) (s : Multiroute P) (a : MultirouteAction) :
    Option (Multiroute P) :=
  match chunks, a with
  | chunk :: chunks, .publish true => some ((s.published chunk).goto (.spliceUp chunks))
  | _ :: _, .publish false => some (s.close .failed)
  | [], .tick =>
      let residue := P.takeTunnelResidue .responder s.parser
      some { s with
        phase := .spliceDown ([residue.1, s.exchange.respPending].filter fun c => !c.isEmpty)
        parser := residue.2
        exchange := { s.exchange with respPending := [] }
        log := { s.log with
          down := { s.log.down with spliced := s.log.down.spliced ++ s.exchange.respPending } } }
  | _, _ => none

def stepSpliceDown (chunks : List Octets) (s : Multiroute P) (a : MultirouteAction) :
    Option (Multiroute P) :=
  match chunks, a with
  | chunk :: chunks, .write true => some ((s.wrote chunk).goto (.spliceDown chunks))
  | _ :: _, .write false => some (s.close .failed)
  | [], .tick => some (s.goto .splice)
  | _, _ => none

/-- The opaque relay after a switch; every exit of it leads to the teardown. -/
def stepSplice (cfg : MultirouteConfig) (s : Multiroute P) :
    MultirouteAction → Option (Multiroute P)
  | .read data =>
      if Readable cfg data then
        let data := octets .client data
        some { s.takeClient data with
          phase := .splicePut data
          log := { (s.takeClient data).log with
            up := { (s.takeClient data).log.up with spliced := s.log.up.spliced ++ data } } }
      else none
  | .sample payload =>
      if payload = [] then some (s.goto .teardown)
      else
        let data := octets (.backend s.requestNum) payload
        some { s.takeResponse data with
          phase := .spliceWrite data
          log := { (s.takeResponse data).log with
            down := { (s.takeResponse data).log.down with
              spliced := s.log.down.spliced ++ data } } }
  | .readEof | .readFailed | .channelClosed | .overflow | .shutdown => some (s.goto .teardown)
  | _ => none

def stepSplicePut (data : Octets) (s : Multiroute P) : MultirouteAction → Option (Multiroute P)
  | .publish true => some ((s.published data).goto .splice)
  | .publish false => some (s.goto .teardown)
  | _ => none

def stepSpliceWrite (data : Octets) (s : Multiroute P) : MultirouteAction → Option (Multiroute P)
  | .write true => some ((s.wrote data).goto .splice)
  | .write false => some (s.goto .teardown)
  | _ => none

/-- The `keep_alive` that `run_exchange` returns. -/
def keepsAlive (s : Multiroute P) : Bool :=
  s.exchange.keepAlive && s.exchange.responseDone && !s.clientEof

/-- The outcome that an exchange leaves for the connection. -/
def outcomeOf (ending : ExchangeEnd) (outcome : ConnOutcome) : ConnOutcome :=
  match ending with
  | .ok => outcome
  | .timeout | .truncated | .backendGone => .failed
  | .overflow | .poisoned | .drained => .reset

/-- What the connection does with the result of an exchange. -/
def afterExchange (s : Multiroute P) : Multiroute P :=
  if s.exchange.switched then s.close s.outcome
  else
    let s := { s with outcome := outcomeOf s.exchange.ending s.outcome }
    if !s.keepsAlive || P.isDone s.parser then s.close s.outcome else s.goto .nextHead

/-- The teardown publishes the EOF marker, whatever comes of it. -/
def stepTeardown (s : Multiroute P) : MultirouteAction → Option (Multiroute P)
  | .publish true => some (s.published []).afterExchange
  | .publish false => some s.afterExchange
  | _ => none

/-- One step of the handler. -/
def step (cfg : MultirouteConfig) (s : Multiroute P) (a : MultirouteAction) :
    Option (Multiroute P) :=
  match s.phase with
  | .nextHead => s.stepNextHead a
  | .nextHeadRead => s.stepNextHeadRead cfg a
  | .routing head => s.stepRouting head a
  | .consume => s.stepConsume a
  | .consumeEvents => s.stepConsumeEvents a
  | .consumeRead => s.stepConsumeRead cfg a
  | .setup head dns => s.stepSetup head dns a
  | .publishHead head dns => s.stepPublishHead head dns a
  | .exchange => s.stepExchange a
  | .events carry => s.stepEvents cfg carry a
  | .select => s.stepSelect cfg a
  | .spliceStart => s.stepSpliceStart a
  | .spliceUp chunks => s.stepSpliceUp chunks a
  | .spliceDown chunks => s.stepSpliceDown chunks a
  | .splice => s.stepSplice cfg a
  | .splicePut data => s.stepSplicePut data a
  | .spliceWrite data => s.stepSpliceWrite data a
  | .teardown => s.stepTeardown a
  | .closed => none

end Multiroute

end ZenohBridge
