import ZenohBridge.EofEncoding
import ZenohBridge.Multiroute

/-!
# The doors of a listener

An import connection passes a door before it is bridged. Some doors only peek at the client's
bytes (`handle_auto_import_connection`, `peek_full_http_head`, the TLS detection of
`handle_import_connection`), others consume them into a replay buffer while an incremental
parser looks for the routing key (`read_until`). `bridge_import_connection` publishes the
buffer as the first sample and the relay goes on from there.

Whatever the door does, the samples of a connection whose client closes cleanly are exactly
the client's bytes, and one EOF marker.

## Implementation notes

The socket is given by what its reads return, so every segmentation is one of them; a peek
sees any number of the bytes to come. The decrypted stream of a terminating listener is such
a socket too, without peeks. The clock is a label: `late` says that a deadline had passed at
a check, `timeout` that it passed while a read was pending. `timeout_at` polls the read
before the clock, so a read that completes at once never times out: `ready` holds after a
peek until a read has taken what the peek has seen. The parsers for TLS and HTTP/2, the
classifier and what flowscope reads off a request head are parameters. What a refused client
is answered is left out.
-/

namespace ZenohBridge

open Execution

/-- What `classify_first_bytes` decides on; all other decisions are relayed as they are. -/
inductive WireProtocol where
  | tls
  | http1
  | http2Preface
  | other
  deriving DecidableEq, Repr

/-- A closure that `read_until` offers every chunk to, with what it keeps between two calls.
It yields a routing key, or none for a ClientHello without SNI. -/
structure HeadReader where
  State : Type
  start : State
  step : State → Bytes → Except String (Option (Option String)) × State

/-- What of flowscope the doors use. -/
structure Inspector where
  /-- `classify_first_bytes`; nothing while it needs more bytes. -/
  classify : Bytes → Option WireProtocol
  /-- The parser of `http_head_parser`. -/
  http : HttpProxyParser UInt8
  routingKeyFromHead : RequestHead UInt8 → Except String String
  headIsWebsocketUpgrade : RequestHead UInt8 → Bool
  /-- The closure of `read_tls_sni`. -/
  tls : HeadReader
  /-- The closure of `read_h2_head`, by `require_preface`. -/
  h2 : Bool → HeadReader

/-- The doors that consume bytes to find the routing key. -/
inductive HeadDoor where
  | sni
  | host
  | h2c
  | terminatedHost
  | terminatedH2
  deriving DecidableEq, Repr

/-- `PeekOutcome`. -/
inductive PeekOutcome where
  | head (head : RequestHead UInt8)
  | needMore
  | refused

namespace Inspector

variable (I : Inspector)

/-- The closure of `read_http_head`. What the parser refused is offered again in front of the
next chunk. -/
def readHttpHead : HeadReader where
  State := Bytes × I.http.State
  start := ([], I.http.start)
  step s chunk :=
    let pushed := I.http.pushBytes .initiator s.2 (s.1 ++ chunk)
    let drained := I.http.drainEvents pushed.parser
    let result :=
      match requestHeads drained.1 with
      | head :: _ => (I.routingKeyFromHead head).map fun dns => some (some dns)
      | [] =>
          match I.http.poison drained.2 with
          | some reason => .error ("malformed HTTP request: " ++ reason.text)
          | none =>
              if I.http.isTunnelled drained.2 then
                .error "connection switched protocols before a routable request head"
              else .ok none
    (result, (pushed.tail, drained.2))

/-- `peek_http_head_outcome`. -/
def peekHttpHeadOutcome (peek : Bytes) : PeekOutcome :=
  let pushed := I.http.pushBytes .initiator I.http.start peek
  let drained := I.http.drainEvents pushed.parser
  match requestHeads drained.1 with
  | head :: _ => .head head
  | [] =>
      if (I.http.poison drained.2).isSome ∨ I.http.isTunnelled drained.2 = true then .refused
      else .needMore

/-- The closure that a door hands to `read_until`. -/
def reader : HeadDoor → HeadReader
  | .sni => I.tls
  | .host | .terminatedHost => I.readHttpHead
  | .h2c => I.h2 true
  | .terminatedH2 => I.h2 false

end Inspector

/-- Where a connection is. -/
inductive DoorPhase (I : Inspector) where
  /-- The peek loop of `handle_auto_import_connection`. -/
  | classifying
  /-- `peek_full_http_head`, with the length of the last peek. -/
  | peekingHead (lastLen : Nat)
  /-- The peek of `handle_import_connection` in HTTP mode. -/
  | detecting
  /-- The loop of `read_until`. -/
  | reading (door : HeadDoor) (parser : (I.reader door).State) (buffer : Bytes)
  | resolving (dns : Option String) (buffer : Bytes)
  /-- `bridge_import_connection` up to the relay: its setup, the initial sample, and the
  miss listener. -/
  | connecting (dns : Option String) (initialBuffer : Option Bytes)
  | forwarding (buffer : Bytes)
  | spawning
  | relaying (relay : Duplex)
  /-- The connection is upgraded and leaves the byte-stream doors. -/
  | webSocket
  | refused

/-- A client connection of a listener. -/
structure ImportConnection (I : Inspector) where
  phase : DoorPhase I
  /-- What the socket still has for its reader. -/
  input : TcpInput
  /-- A peek has seen bytes that no read has taken yet. -/
  ready : Bool
  /-- The samples published before the relay. -/
  published : List Bytes

/-- The kinds of byte-stream listeners. -/
inductive ListenerMode where
  | raw
  | http
  | auto
  /-- TLS is terminated; ALPN negotiated h2 or not. -/
  | terminate (h2 : Bool)
  deriving DecidableEq, Repr

structure DoorConfig where
  maxHeaderSize : Nat
  relay : RelayConfig

/-- What an await of the connection returned. -/
inductive DoorAction where
  | peek (n : Nat) (late : Bool)
  /-- A peek fails or times out. -/
  | peekFailed
  | read
  | timeout
  | resolve (backend : Except String BackendRoute)
  | setup (ok : Bool)
  | put (ok : Bool)
  | spawn (ok : Bool)
  | relay (a : RelayAction)

namespace ImportConnection

variable {I : Inspector}

/-- The phase in which a listener starts a connection. -/
def firstPhase (I : Inspector) : ListenerMode → DoorPhase I
  | .raw => .connecting none none
  | .http => .detecting
  | .auto => .classifying
  | .terminate false => .reading .terminatedHost (I.reader .terminatedHost).start []
  | .terminate true => .reading .terminatedH2 (I.reader .terminatedH2).start []

def start (I : Inspector) (mode : ListenerMode) (input : TcpInput) : ImportConnection I :=
  ⟨firstPhase I mode, input, false, []⟩

def goto (phase : DoorPhase I) (t : ImportConnection I) : ImportConnection I :=
  { t with phase := phase }

/-- A peek has seen bytes. -/
def seen (phase : DoorPhase I) (t : ImportConnection I) : ImportConnection I :=
  { t with phase := phase, ready := true }

/-- The client's bytes to come. -/
def unread (t : ImportConnection I) : Bytes := t.input.reads.flatten

/-- A peek into a window returns some of the bytes to come, and none only at the end. -/
def Peekable (window n : Nat) (t : ImportConnection I) : Prop :=
  n ≤ window ∧ n ≤ t.unread.length ∧ (n = 0 → t.input.reads = [] ∧ t.input.ending = .clean)

instance (window n : Nat) (t : ImportConnection I) : Decidable (Peekable window n t) :=
  inferInstanceAs (Decidable (_ ∧ _ ∧ _))

/-- What `handle_auto_import_connection` makes of a peek. -/
def classified (peeked : Bytes) (late : Bool) : DoorPhase I :=
  match I.classify peeked with
  | some .tls => .detecting
  | some .http1 => .peekingHead 0
  | some .http2Preface => .reading .h2c (I.reader .h2c).start []
  | some .other => .connecting none none
  | none => if late = true ∨ peeked.length = 64 then .connecting none none else .classifying

/-- What `peek_full_http_head` and its caller make of a peek. -/
def headPeeked (cfg : DoorConfig) (lastLen : Nat) (peeked : Bytes) (late : Bool) : DoorPhase I :=
  if lastLen < peeked.length then
    match I.peekHttpHeadOutcome peeked with
    | .head head => if I.headIsWebsocketUpgrade head then .webSocket else .detecting
    | .refused => .detecting
    | .needMore =>
        if cfg.maxHeaderSize ≤ peeked.length ∨ late = true then .detecting
        else .peekingHead peeked.length
  else if late = true then .detecting
  else .peekingHead lastLen

/-- A peek returns. -/
def onPeek (cfg : DoorConfig) (n : Nat) (late : Bool) (t : ImportConnection I) :
    Option (ImportConnection I) :=
  let peeked := t.unread.take n
  match t.phase with
  | .classifying =>
      if Peekable 64 n t then
        if n = 0 then some (t.goto .refused)
        else some (t.seen (classified peeked late))
      else none
  | .peekingHead lastLen =>
      if Peekable (max cfg.maxHeaderSize 4096) n t then
        if n = 0 then some (t.goto .detecting)
        else some (t.seen (headPeeked cfg lastLen peeked late))
      else none
  | .detecting =>
      if Peekable 16 n t then
        let door := if I.classify peeked = some .tls then .sni else .host
        some (t.seen (.reading door (I.reader door).start []))
      else none
  | _ => none

def onPeekFailed (t : ImportConnection I) : Option (ImportConnection I) :=
  match t.phase with
  | .classifying => some (t.goto .refused)
  | .peekingHead _ => some (t.goto .detecting)
  | .detecting => some (t.goto .refused)
  | _ => none

/-- A chunk in the loop of `read_until`: it is mirrored into the buffer and offered once. -/
def afterChunk (cfg : DoorConfig) (door : HeadDoor) (parser : (I.reader door).State)
    (buffer chunk : Bytes) : DoorPhase I :=
  match (I.reader door).step parser chunk with
  | (.error _, _) => .refused
  | (.ok (some dns), _) => .resolving dns (buffer ++ chunk)
  | (.ok none, parser) =>
      if cfg.maxHeaderSize ≤ (buffer ++ chunk).length then .refused
      else .reading door parser (buffer ++ chunk)

/-- A read of `read_until` returns. -/
def onRead (cfg : DoorConfig) (t : ImportConnection I) : Option (ImportConnection I) :=
  match t.phase with
  | .reading door parser buffer =>
      match t.input.readBuf with
      | (none, _) => some (t.goto .refused)
      | (some chunk, input) =>
          if chunk.length = 0 then some (t.goto .refused)
          else some { t with
            phase := afterChunk cfg door parser buffer chunk
            input := input
            ready := false }
  | _ => none

/-- `ReadHeadOutcome::Timeout`: only the h2c door goes on, with what it has consumed. -/
def onTimeout (t : ImportConnection I) : Option (ImportConnection I) :=
  if t.ready then none
  else
    match t.phase with
    | .reading .h2c _ buffer => some (t.goto (.resolving none buffer))
    | .reading _ _ _ => some (t.goto .refused)
    | _ => none

/-- `resolve_backend` returns. -/
def onResolve (backend : Except String BackendRoute) (t : ImportConnection I) :
    Option (ImportConnection I) :=
  match t.phase, backend with
  | .resolving dns buffer, .ok .host => some (t.goto (.connecting dns (some buffer)))
  | .resolving _ buffer, .ok .default => some (t.goto (.connecting none (some buffer)))
  | .resolving _ _, _ => some (t.goto .refused)
  | _, _ => none

/-- The Zenoh setup of `bridge_import_connection` ends. -/
def onSetup (ok : Bool) (t : ImportConnection I) : Option (ImportConnection I) :=
  match t.phase with
  | .connecting _ initialBuffer =>
      if ok then
        match initialBuffer with
        | some buffer => some (t.goto (.forwarding buffer))
        | none => some (t.goto .spawning)
      else some (t.goto .refused)
  | _ => none

/-- The initial buffer is published. -/
def onPut (ok : Bool) (t : ImportConnection I) : Option (ImportConnection I) :=
  match t.phase with
  | .forwarding buffer =>
      if ok then some { t with phase := .spawning, published := t.published ++ [buffer] }
      else some (t.goto .refused)
  | _ => none

/-- The miss listener is registered and the relay spawned. -/
def onSpawn (cfg : DoorConfig) (ok : Bool) (t : ImportConnection I) :
    Option (ImportConnection I) :=
  match t.phase with
  | .spawning =>
      if ok then some (t.goto (.relaying (.start cfg.relay (.tcp t.input))))
      else some (t.goto .refused)
  | _ => none

def onRelay (cfg : DoorConfig) (a : RelayAction) (t : ImportConnection I) :
    Option (ImportConnection I) :=
  match t.phase with
  | .relaying relay => (relay.step cfg.relay a).map fun relay => t.goto (.relaying relay)
  | _ => none

/-- One step of a client connection. -/
def step (cfg : DoorConfig) (t : ImportConnection I) : DoorAction → Option (ImportConnection I)
  | .peek n late => t.onPeek cfg n late
  | .peekFailed => t.onPeekFailed
  | .read => t.onRead cfg
  | .timeout => t.onTimeout
  | .resolve backend => t.onResolve backend
  | .setup ok => t.onSetup ok
  | .put ok => t.onPut ok
  | .spawn ok => t.onSpawn cfg ok
  | .relay a => t.onRelay cfg a

/-- The samples published on `tx`, the initial one and those of the relay. -/
def tx (t : ImportConnection I) : List Bytes :=
  match t.phase with
  | .relaying relay => t.published ++ relay.relay.published
  | _ => t.published

/-- Where the client's bytes are: published, held for replay, or still to come. What is held
for replay is not empty. -/
def Transparent (stream : Bytes) (t : ImportConnection I) : Prop :=
  match t.phase with
  | .classifying | .peekingHead _ | .detecting => t.published = [] ∧ t.unread = stream
  | .reading door _ buffer => t.published = [] ∧ buffer ++ t.unread = stream ∧
      (door = .h2c → buffer = [] → t.ready = true)
  | .resolving _ buffer | .connecting _ (some buffer) | .forwarding buffer =>
      t.published = [] ∧ buffer ++ t.unread = stream ∧ buffer ≠ []
  | .connecting _ none => t.published = [] ∧ t.unread = stream
  | .spawning => t.published.flatten ++ t.unread = stream ∧ [] ∉ t.published
  | .relaying relay => t.published.flatten ++ t.unread = stream ∧ [] ∉ t.published ∧
      (relay.Sends t.input.reads t.input.ending ∨ relay.Stopped t.input.reads)
  | .webSocket | .refused => True

variable {cfg : DoorConfig} {stream : Bytes} {t t' : ImportConnection I}

theorem transparent_start (I : Inspector) (mode : ListenerMode) (input : TcpInput) :
    Transparent input.reads.flatten (start I mode input) := by
  cases mode with
  | raw | http | auto => exact ⟨rfl, rfl⟩
  | terminate h2 =>
      cases h2 with
      | true => exact ⟨rfl, rfl, HeadDoor.noConfusion⟩
      | false => exact ⟨rfl, rfl, HeadDoor.noConfusion⟩

/-- A classification leaves all bytes to come. -/
theorem transparent_classified {peeked : Bytes} {late : Bool} (hnone : t.published = [])
    (hunread : t.unread = stream) :
    Transparent stream (t.seen (classified peeked late)) := by
  unfold classified
  split
  · exact ⟨hnone, hunread⟩
  · exact ⟨hnone, hunread⟩
  · exact ⟨hnone, hunread, fun _ _ => rfl⟩
  · exact ⟨hnone, hunread⟩
  · split
    · exact ⟨hnone, hunread⟩
    · exact ⟨hnone, hunread⟩

theorem transparent_headPeeked {lastLen : Nat} {peeked : Bytes} {late : Bool}
    (hnone : t.published = []) (hunread : t.unread = stream) :
    Transparent stream (t.seen (headPeeked cfg lastLen peeked late)) := by
  unfold headPeeked
  split
  · split
    · split
      · trivial
      · exact ⟨hnone, hunread⟩
    · exact ⟨hnone, hunread⟩
    · split
      · exact ⟨hnone, hunread⟩
      · exact ⟨hnone, hunread⟩
  · split
    · exact ⟨hnone, hunread⟩
    · exact ⟨hnone, hunread⟩

/-- A peek consumes nothing. -/
theorem Transparent.onPeek (h : Transparent stream t) {n : Nat} {late : Bool}
    (hs : t.onPeek cfg n late = some t') : Transparent stream t' := by
  unfold Transparent at h
  unfold ImportConnection.onPeek at hs
  split at hs
  · rename_i hphase
    rw [hphase] at h
    split at hs
    · split at hs
      · obtain rfl := Option.some.inj hs
        trivial
      · obtain rfl := Option.some.inj hs
        exact transparent_classified h.1 h.2
    · contradiction
  · rename_i hphase
    rw [hphase] at h
    split at hs
    · split at hs
      · obtain rfl := Option.some.inj hs
        exact h
      · obtain rfl := Option.some.inj hs
        exact transparent_headPeeked h.1 h.2
    · contradiction
  · rename_i hphase
    rw [hphase] at h
    split at hs
    · obtain rfl := Option.some.inj hs
      exact ⟨h.1, h.2, fun _ _ => rfl⟩
    · contradiction
  · contradiction

theorem Transparent.onPeekFailed (h : Transparent stream t)
    (hs : t.onPeekFailed = some t') : Transparent stream t' := by
  unfold Transparent at h
  unfold ImportConnection.onPeekFailed at hs
  split at hs
  · obtain rfl := Option.some.inj hs
    trivial
  · rename_i hphase
    rw [hphase] at h
    obtain rfl := Option.some.inj hs
    exact h
  · obtain rfl := Option.some.inj hs
    trivial
  · contradiction

/-- What a read takes from the socket. -/
theorem readBuf_some {input input' : TcpInput} {chunk : Bytes}
    (h : input.readBuf = (some chunk, input')) :
    input.reads.flatten = chunk ++ input'.reads.flatten := by
  unfold TcpInput.readBuf at h
  split at h
  · obtain ⟨hchunk, rfl⟩ := Prod.mk.inj h
    obtain rfl := Option.some.inj hchunk
    rfl
  · cases h
  · obtain ⟨hchunk, rfl⟩ := Prod.mk.inj h
    obtain rfl := Option.some.inj hchunk
    rw [List.flatten_cons]

theorem transparent_afterChunk {door : HeadDoor} {parser : (I.reader door).State}
    {buffer chunk : Bytes} {input : TcpInput} (hnone : t.published = [])
    (hbytes : buffer ++ chunk ++ input.reads.flatten = stream) (hne : chunk ≠ []) :
    Transparent stream { t with
      phase := afterChunk cfg door parser buffer chunk
      input := input
      ready := false } := by
  have hbuffer : buffer ++ chunk ≠ [] := fun hnil => hne (List.append_eq_nil_iff.mp hnil).2
  unfold afterChunk
  split
  · trivial
  · exact ⟨hnone, hbytes, hbuffer⟩
  · split
    · trivial
    · exact ⟨hnone, hbytes, fun _ hnil => absurd hnil hbuffer⟩

/-- A chunk is mirrored into the buffer. -/
theorem Transparent.onRead (h : Transparent stream t)
    (hs : t.onRead cfg = some t') : Transparent stream t' := by
  unfold Transparent at h
  unfold ImportConnection.onRead at hs
  split at hs
  · rename_i door parser buffer hphase
    rw [hphase] at h
    split at hs
    · obtain rfl := Option.some.inj hs
      trivial
    · rename_i chunk input hread
      split at hs
      · obtain rfl := Option.some.inj hs
        trivial
      · rename_i hlength
        obtain rfl := Option.some.inj hs
        obtain ⟨hnone, hbytes, -⟩ := h
        have hne : chunk ≠ [] := fun hnil => hlength (List.length_eq_zero_iff.mpr hnil)
        apply transparent_afterChunk hnone _ hne
        rw [List.append_assoc, ← readBuf_some hread]
        exact hbytes
  · contradiction

/-- The h2c door has consumed bytes when it times out: the peek that led to it has seen some,
and the first read does not wait for them. -/
theorem Transparent.onTimeout (h : Transparent stream t)
    (hs : t.onTimeout = some t') : Transparent stream t' := by
  unfold Transparent at h
  unfold ImportConnection.onTimeout at hs
  split at hs
  · contradiction
  · rename_i hready
    split at hs
    · rename_i parser buffer hphase
      rw [hphase] at h
      obtain rfl := Option.some.inj hs
      obtain ⟨hnone, hbytes, hpeeked⟩ := h
      exact ⟨hnone, hbytes, fun hnil => hready (hpeeked rfl hnil)⟩
    · obtain rfl := Option.some.inj hs
      trivial
    · contradiction

theorem Transparent.onResolve (h : Transparent stream t) {backend : Except String BackendRoute}
    (hs : t.onResolve backend = some t') : Transparent stream t' := by
  unfold Transparent at h
  unfold ImportConnection.onResolve at hs
  split at hs
  · rename_i hphase
    rw [hphase] at h
    obtain rfl := Option.some.inj hs
    exact h
  · rename_i hphase
    rw [hphase] at h
    obtain rfl := Option.some.inj hs
    exact h
  · obtain rfl := Option.some.inj hs
    trivial
  · contradiction

theorem Transparent.onSetup (h : Transparent stream t) {ok : Bool}
    (hs : t.onSetup ok = some t') : Transparent stream t' := by
  unfold Transparent at h
  unfold ImportConnection.onSetup at hs
  split at hs
  · rename_i dns initialBuffer hphase
    rw [hphase] at h
    split at hs
    · cases initialBuffer with
      | some buffer =>
          obtain rfl := Option.some.inj hs
          exact h
      | none =>
          obtain rfl := Option.some.inj hs
          obtain ⟨hnone, hunread⟩ := h
          refine ⟨?_, ?_⟩
          · change t.published.flatten ++ t.unread = stream
            rw [hnone, hunread]
            rfl
          · change [] ∉ t.published
            rw [hnone]
            exact List.not_mem_nil
    · obtain rfl := Option.some.inj hs
      trivial
  · contradiction

/-- The initial sample is what was held for replay. -/
theorem Transparent.onPut (h : Transparent stream t) {ok : Bool}
    (hs : t.onPut ok = some t') : Transparent stream t' := by
  unfold Transparent at h
  unfold ImportConnection.onPut at hs
  split at hs
  · rename_i buffer hphase
    rw [hphase] at h
    split at hs
    · obtain rfl := Option.some.inj hs
      obtain ⟨hnone, hbytes, hne⟩ := h
      refine ⟨?_, ?_⟩
      · change (t.published ++ [buffer]).flatten ++ t.unread = stream
        rw [hnone, List.nil_append, List.flatten_singleton, hbytes]
      · change [] ∉ t.published ++ [buffer]
        rw [hnone, List.nil_append, List.mem_singleton]
        exact Ne.symm hne
    · obtain rfl := Option.some.inj hs
      trivial
  · contradiction

theorem Transparent.onSpawn (h : Transparent stream t) {ok : Bool}
    (hs : t.onSpawn cfg ok = some t') : Transparent stream t' := by
  unfold Transparent at h
  unfold ImportConnection.onSpawn at hs
  split at hs
  · rename_i hphase
    rw [hphase] at h
    split at hs
    · obtain rfl := Option.some.inj hs
      exact ⟨h.1, h.2, Or.inl (Duplex.sends_start cfg.relay (.tcp t.input))⟩
    · obtain rfl := Option.some.inj hs
      trivial
  · contradiction

/-- The relay goes on where the door has stopped. -/
theorem Transparent.onRelay (h : Transparent stream t) {a : RelayAction}
    (hs : t.onRelay cfg a = some t') : Transparent stream t' := by
  unfold Transparent at h
  unfold ImportConnection.onRelay at hs
  split at hs
  · rename_i relay hphase
    rw [hphase] at h
    obtain ⟨relay', hrelay, rfl⟩ := Option.map_eq_some_iff.mp hs
    obtain ⟨hbytes, hnonempty, hsends | hstopped⟩ := h
    · exact ⟨hbytes, hnonempty, (hsends.step hrelay).imp_right And.right⟩
    · exact ⟨hbytes, hnonempty, Or.inr (hstopped.step hrelay)⟩
  · contradiction

theorem Transparent.step (h : Transparent stream t) {a : DoorAction}
    (hs : ImportConnection.step cfg t a = some t') : Transparent stream t' := by
  cases a with
  | peek n late => exact h.onPeek hs
  | peekFailed => exact h.onPeekFailed hs
  | read => exact h.onRead hs
  | timeout => exact h.onTimeout hs
  | resolve backend => exact h.onResolve hs
  | setup ok => exact h.onSetup hs
  | put ok => exact h.onPut hs
  | spawn ok => exact h.onSpawn hs
  | relay a => exact h.onRelay hs

/-- Routing inspection is transparent. Through every door, over every segmentation of the
client's bytes and whenever the clock strikes, a connection whose client ends cleanly has
published the client's bytes in non-empty samples, and then the EOF marker. -/
theorem inspection_transparent (cfg : DoorConfig) (I : Inspector) (mode : ListenerMode)
    (input : TcpInput) {schedule : List DoorAction} {t : ImportConnection I} {relay : Duplex}
    (run : exec (step cfg) (start I mode input) schedule = some t)
    (relaying : t.phase = .relaying relay) (ended : relay.relay.sender = .ended .eof) :
    ∃ data, t.tx = data ++ [[]] ∧ [] ∉ data ∧ data.flatten = input.reads.flatten := by
  have h : Transparent input.reads.flatten t :=
    exec_invariant (fun _ _ _ h hs => h.step hs) (transparent_start I mode input) run
  unfold Transparent at h
  rw [relaying] at h
  obtain ⟨hbytes, hnonempty, hrelay⟩ := h
  have hsends := hrelay.resolve_right fun hstopped => hstopped.broken ended
  refine ⟨t.published ++ t.input.reads, ?_, ?_, ?_⟩
  · rw [tx, relaying, List.append_assoc, ← hsends.published_of_eof ended]
  · rw [List.mem_append, not_or]
    refine ⟨hnonempty, fun hmem => ?_⟩
    exact t.input.nonempty _ hmem rfl
  · rw [List.flatten_append]
    exact hbytes

/-- A parser that has seen no request yet. -/
def silentParser : HttpProxyParser UInt8 where
  State := Unit
  start := ()
  push := fun _ bytes _ => (bytes.length, ())
  nextEvent := fun _ => none
  fin := fun _ _ => ()
  poison := fun _ => none
  isTunnelled := fun _ => false
  isDone := fun _ => false
  takeTunnelResidue := fun _ _ => ([], ())
  backlog := fun _ => 0
  push_le := fun _ _ _ => le_rfl
  nextEvent_lt := fun _ _ _ h => nomatch h

/-- The client preface of HTTP/2. -/
def clientPreface : Bytes := [80, 82, 73, 32, 42, 32, 72, 84, 84, 80, 47, 50, 46, 48, 13, 10, 13, 10,
  83, 77, 13, 10, 13, 10]

example : clientPreface = asBytes "PRI * HTTP/2.0\r\n\r\nSM\r\n\r\n" := by decide +kernel

/-- An inspection that knows the HTTP/2 preface and sees no request head. -/
def silentInspector : Inspector where
  classify bytes := if clientPreface.isPrefixOf bytes then some .http2Preface else none
  http := silentParser
  routingKeyFromHead := fun _ => .error "no authority"
  headIsWebsocketUpgrade := fun _ => false
  tls := ⟨Unit, (), fun _ _ => (.ok none, ())⟩
  h2 := fun _ => ⟨Unit, (), fun _ _ => (.ok none, ())⟩

/-- An h2c client sends its preface and its settings in two segments and waits for those of
the server. The door times out and replays both. -/
theorem inspection_transparent_of_h2c_timeout :
    let input : TcpInput := ⟨[clientPreface, [0, 0, 0, 4, 0, 0, 0, 0, 0],
      [0, 0, 0, 4, 1, 0, 0, 0, 0]], .clean, by decide⟩
    let schedule : List DoorAction :=
      [.peek 24 false, .read, .read, .timeout, .resolve (.ok .default), .setup true, .put true,
        .spawn true, .relay (.read (some [0, 0, 0, 4, 1, 0, 0, 0, 0])),
        .relay (.publishDone true), .relay (.read (some [])), .relay (.publishDone true)]
    ∃ t data, exec (step ⟨1024, ⟨1, .stream, .importing⟩⟩) (start silentInspector .auto input)
        schedule = some t ∧
      t.tx = data ++ [[]] ∧ [] ∉ data ∧ data.flatten = input.reads.flatten := by
  intro input schedule
  obtain ⟨t, relay, run, relaying, ended⟩ : ∃ t relay,
      exec (step ⟨1024, ⟨1, .stream, .importing⟩⟩) (start silentInspector .auto input) schedule =
        some t ∧ t.phase = .relaying relay ∧ relay.relay.sender = .ended .eof :=
    ⟨_, _, rfl, rfl, rfl⟩
  obtain ⟨data, htx⟩ := inspection_transparent _ _ _ _ run relaying ended
  exact ⟨t, data, run, htx⟩

end ImportConnection

end ZenohBridge
