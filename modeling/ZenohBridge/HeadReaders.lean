import ZenohBridge.HostSpellings
import ZenohBridge.Http2Parser
import ZenohBridge.ReadUntil

/-!
# The readers of routing heads

`read_tls_sni`, `read_http_head` and `read_h2_head` hand `read_until` a closure around a parser
of flowscope. It pushes what was read, takes the events, and answers with the routing key of the
first ClientHello or request head. The readers of HTTP keep what their parser refused and push
it again in front of the next chunk.

So however the client's bytes are cut into reads, the key of a reader is that of the first head
in them, and no head that is complete within the window of the parser is passed over.

## Implementation notes

The parsers are parameters, with what flowscope promises of them in `HeadParsers.Stable`: what
they frame is a function of the bytes that they have accepted, and the HTTP parsers have room for
a window until they have framed a head. How `{:?}` prints a character is a parameter too.
-/

namespace ZenohBridge

/-! ## A reader around a parser -/

/-- The reader was offered these chunks and has not answered. -/
inductive HeadReader.Passed (R : HeadReader) : List Bytes → R.State → Prop where
  | start : Passed R [] R.start
  | step {chunks s} (chunk : Bytes) (h : Passed R chunks s)
      (hnone : (R.step s chunk).1 = .ok none) : Passed R (chunks ++ [chunk]) (R.step s chunk).2

/-- What a reader answers is what is found in the bytes that it was offered, however they came,
and it passes over nothing that is found within the window. -/
structure HeadReader.Decides (R : HeadReader)
    (finds : Bytes → Option (Except String (Option String))) (w : Nat) : Prop where
  sound : ∀ {chunks s chunk dns}, R.Passed chunks s → (R.step s chunk).1 = .ok (some dns) →
    finds (chunks.flatten ++ chunk) = some (.ok dns)
  complete : ∀ {chunks s}, R.Passed chunks s → finds (chunks.flatten.take w) = none
  /-- More bytes do not change what is found. -/
  keeps : ∀ {bytes bytes' found}, finds bytes = some found → bytes <+: bytes' →
    finds bytes' = some found

/-- The head of a longer list is that of a list that it begins with. -/
theorem head?_of_begins {α : Type*} {xs ys : List α} {x : α} (h : xs.head? = some x)
    (hbegins : xs <+: ys) : ys.head? = some x := by
  obtain ⟨zs, rfl⟩ := hbegins
  rw [List.head?_append, h, Option.some_or]

section Through

variable {ε ι : Type*} (P : PushParser UInt8 ε) (item : ε → Option ι)
  (key : ι → Except String (Option String)) (stop : P.State → Option String)

/-- A reader that answers with the key of the first item, or fails where the parser stops. -/
def HeadReader.through : HeadReader where
  State := Bytes × P.State
  start := ([], P.start)
  step s chunk :=
    let read := P.read item s chunk
    let result :=
      match read.1 with
      | i :: _ => (key i).map some
      | [] =>
          match stop read.2.2 with
          | some reason => .error reason
          | none => .ok none
    (result, read.2)

variable {P item key stop} {items : Bytes → List ι} {w : Nat}

/-- Such a reader has passed what its parser has. -/
theorem HeadReader.Passed.through (hstop : ∀ p, stop p = none → P.active p = true)
    {chunks : List Bytes} {s : (HeadReader.through P item key stop).State}
    (h : (HeadReader.through P item key stop).Passed chunks s) : P.Passed item chunks s := by
  induction h with
  | start => exact .start
  | @step chunks s chunk _ hnone ih =>
      have hitems : (P.read item s chunk).1 = [] ∧ stop (P.read item s chunk).2.2 = none := by
        simp only [HeadReader.through] at hnone
        split at hnone
        · next i _ _ =>
            cases hkey : key i with
            | error e => rw [hkey] at hnone; cases hnone
            | ok dns => rw [hkey] at hnone; cases hnone
        · next hitems =>
            split at hnone
            · cases hnone
            · next hgoes => exact ⟨hitems, hgoes⟩
      exact ih.read chunk hitems.1 (hstop _ hitems.2)

theorem HeadReader.through_decides (hP : P.Reads item items w)
    (hstop : ∀ p, stop p = none → P.active p = true) :
    (HeadReader.through P item key stop).Decides (fun bytes => (items bytes).head?.map key) w := by
  constructor
  · intro chunks s chunk dns hpassed hanswer
    simp only [HeadReader.through] at hanswer
    split at hanswer
    · next i rest hitem =>
        have hfirst := (hpassed.through hstop).first hP hitem
        simp only [hfirst, Option.map_some]
        cases hkey : key i with
        | error e => rw [hkey] at hanswer; cases hanswer
        | ok found => rw [hkey] at hanswer; cases hanswer; rfl
    · split at hanswer
      · cases hanswer
      · cases hanswer
  · intro chunks s hpassed
    simp only [(hpassed.through hstop).none hP, List.head?_nil, Option.map_none]
  · rintro bytes _ found hfound ⟨more, rfl⟩
    obtain ⟨i, hfirst, rfl⟩ := Option.map_eq_some_iff.mp hfound
    simp only [head?_of_begins hfirst (hP.grows bytes more), Option.map_some]

end Through

/-! ## What flowscope offers -/

/-- A request head among the events. -/
def HttpEvent.requestHead? {β : Type} : HttpEvent β → Option (RequestHead β)
  | .requestHead head => some head
  | _ => none

/-- A request head among the events of an HTTP/2 connection. -/
def Http2Event.requestHead? {Fields : Type} : Http2Event Fields → Option (StreamHead Fields)
  | .head h => if h.dir = .initiator then some h else none
  | _ => none

/-- The HTTP/1 parser with the bytes of the client. -/
@[reducible] def HttpProxyParser.requests (P : HttpProxyParser UInt8) :
    PushParser UInt8 (HttpEvent UInt8) where
  State := P.State
  start := P.start
  push := P.push .initiator
  next := P.nextEvent
  active p := (P.poison p).isNone && !P.isTunnelled p
  backlog := P.backlog
  push_le := P.push_le .initiator
  next_lt := P.nextEvent_lt

/-- The messages of a TLS parser; the bridge passes over all but a ClientHello. -/
inductive TlsMessage where
  | clientHello (sni : Option String)
  | other

/-- The SNI of a ClientHello, which may lack one. -/
def TlsMessage.hello? : TlsMessage → Option (Option String)
  | .clientHello sni => some sni
  | .other => none

/-- The TLS parser. It takes all it is fed. -/
structure TlsParser where
  State : Type
  start : State
  feedInitiator : Bytes → State → List TlsMessage × State

/-- The parser was fed this and emitted these messages. -/
inductive TlsParser.After (T : TlsParser) : Bytes → List TlsMessage → T.State → Prop where
  | start : After T [] [] T.start
  | feed {taken emitted p} (chunk : Bytes) (h : After T taken emitted p) :
      After T (taken ++ chunk) (emitted ++ (T.feedInitiator chunk p).1) (T.feedInitiator chunk p).2

/-- The ClientHellos are a function of the bytes, however they were fed. -/
structure TlsParser.Reassembles (T : TlsParser) (hellos : Bytes → List (Option String)) : Prop where
  framed : ∀ {taken emitted p}, T.After taken emitted p →
    emitted.filterMap TlsMessage.hello? = hellos taken
  grows : ∀ bytes more, hellos bytes <+: hellos (bytes ++ more)

/-- What of flowscope the doors use. -/
structure HeadParsers where
  /-- `classify_first_bytes`; nothing while it needs more bytes. -/
  classify : Bytes → Option WireProtocol
  /-- The parser of `http_head_parser`. -/
  http : HttpProxyParser UInt8
  /-- `RequestHead::authority`. -/
  authority : RequestHead UInt8 → Except String Authority
  isWebsocketUpgrade : RequestHead UInt8 → Bool
  tls : TlsParser
  Fields : Type
  /-- The HTTP/2 parser, by `require_preface`. -/
  http2 : Bool → Http2Parser Fields
  /-- `Http2Parser::error`. -/
  error : ∀ requirePreface, (http2 requirePreface).State → Option String
  /-- `StreamHead::authority`. -/
  streamAuthority : StreamHead Fields → Option String

/-! ## The closures of the readers -/

/-- The text of an error of `routing_key`, with a character printed by `quote`. -/
def HostError.text (quote : Char → String) : HostError → String
  | .emptyHost => "empty host"
  | .strayColon => "host carries an unparseable port or stray ':'"
  | .invalidChar c => "host contains an invalid character " ++ quote c ++
      " (allowed: alphanumerics, '-', '_', '.', ':')"
  | .explicitPort host => "host '" ++ host ++ "' carries a port — routing keys are host-only " ++
      "(a client's 'Host: " ++ host ++ "' routes by the bare name); drop the port"

def DoorError.text (quote : Char → String) : DoorError → String
  | .sni reason => "unroutable TLS SNI: " ++ reason.text quote
  | .target reason => "unroutable request target: " ++ reason
  | .host reason => "unroutable Host/authority: " ++ reason.text quote
  | .noAuthority => "HTTP/2 request has no :authority"
  | .authority reason => "unroutable HTTP/2 :authority: " ++ reason.text quote

/-- What the bridge adds to flowscope: the case mapping and the printing of a character. -/
structure KeyText where
  lower : LowercaseMapping
  quote : Char → String

namespace HeadParsers

variable (F : HeadParsers) (K : KeyText)

/-- The routing key of an SNI. -/
def sniKey (sni : Option String) : Except String (Option String) :=
  (sniRoutingKey K.lower sni).mapError (DoorError.text K.quote)

/-- `routing_key_from_head`. -/
def headKey (head : RequestHead UInt8) : Except String String :=
  (routingKeyFromHead K.lower (F.authority head)).mapError (DoorError.text K.quote)

/-- `h2_routing_key`. -/
def streamKey (head : StreamHead F.Fields) : Except String String :=
  (h2RoutingKey K.lower (F.streamAuthority head)).mapError (DoorError.text K.quote)

/-- The closure of `read_tls_sni`. -/
def readTlsSni : HeadReader where
  State := F.tls.State
  start := F.tls.start
  step p chunk :=
    let fed := F.tls.feedInitiator chunk p
    let result :=
      match fed.1.filterMap TlsMessage.hello? with
      | sni :: _ => (sniKey K sni).map some
      | [] => .ok none
    (result, fed.2)

/-- The closure of `read_h2_head`. What the parser refused is offered again in front of the next
chunk. -/
def readH2Head (requirePreface : Bool) : HeadReader where
  State := Bytes × (F.http2 requirePreface).State
  start := ([], (F.http2 requirePreface).start)
  step s chunk :=
    let pushed := (F.http2 requirePreface).pushBytes .initiator s.2 (s.1 ++ chunk)
    let drained := (F.http2 requirePreface).drainEvents .initiator pushed.parser
    let result :=
      match drained.1.filterMap Http2Event.requestHead? with
      | head :: _ => (F.streamKey K head).map fun dns => some (some dns)
      | [] =>
          if (F.http2 requirePreface).isFailed drained.2 then
            .error ("malformed HTTP/2 connection: " ++
              (F.error requirePreface drained.2).getD "unknown")
          else .ok none
    (result, (pushed.tail, drained.2))

/-- The doors with these parsers. The closure of `read_http_head` is there already. -/
def inspector : Inspector where
  classify := F.classify
  http := F.http
  routingKeyFromHead := F.headKey K
  headIsWebsocketUpgrade := F.isWebsocketUpgrade
  tls := F.readTlsSni K
  h2 := F.readH2Head K

end HeadParsers

/-- What the parsers frame, as functions of the bytes. -/
structure HeadFraming (F : HeadParsers) where
  hellos : Bytes → List (Option String)
  heads : Bytes → List (RequestHead UInt8)
  streams : Bool → Bytes → List (StreamHead F.Fields)

/-- What flowscope promises. -/
structure HeadParsers.Stable (F : HeadParsers) (framing : HeadFraming F) (w : Nat) : Prop where
  /-- A decision on a prefix stands. -/
  classify : ∀ bytes bytes' protocol, F.classify bytes = some protocol → bytes <+: bytes' →
    F.classify bytes' = some protocol
  /-- A TLS record is known from its header, which is shorter than any window. -/
  tlsHeader : ∀ bytes, F.classify bytes = some .tls → F.classify (bytes.take 16) = some .tls
  tls : F.tls.Reassembles framing.hellos
  http : F.http.requests.Reads HttpEvent.requestHead? framing.heads w
  http2 : ∀ requirePreface, ((F.http2 requirePreface).on .initiator).Reads Http2Event.requestHead?
    (framing.streams requirePreface) w

/-- The routing key that the reader of a door finds in some bytes, or why it has none. -/
def HeadParsers.finds (F : HeadParsers) (K : KeyText) (framing : HeadFraming F) (door : HeadDoor)
    (bytes : Bytes) : Option (Except String (Option String)) :=
  match door with
  | .sni => (framing.hellos bytes).head?.map (HeadParsers.sniKey K)
  | .host | .terminatedHost => (framing.heads bytes).head?.map fun head =>
      (F.headKey K head).map some
  | .h2c => (framing.streams true bytes).head?.map fun head => (F.streamKey K head).map some
  | .terminatedH2 => (framing.streams false bytes).head?.map fun head =>
      (F.streamKey K head).map some

section Doors

variable {F : HeadParsers} {K : KeyText} {framing : HeadFraming F} {w : Nat}

/-- The push loop of the bridge around the HTTP/1 parser. -/
theorem HttpProxyParser.requests_pushLoop (P : HttpProxyParser UInt8) (fuel : Nat) (p : P.State)
    (accepted pending : Bytes) :
    P.requests.pushLoop fuel p accepted pending =
      ⟨(P.pushLoop .initiator fuel p accepted pending).accepted,
        (P.pushLoop .initiator fuel p accepted pending).tail,
        (P.pushLoop .initiator fuel p accepted pending).parser⟩ := by
  induction fuel generalizing p accepted pending with
  | zero => rfl
  | succ fuel ih =>
      unfold PushParser.pushLoop HttpProxyParser.pushLoop
      split
      · rfl
      · by_cases hzero : (P.push .initiator pending p).1 = 0
        · simp only [requests, hzero, if_true]
        · simp only [requests, hzero, if_false]
          exact ih _ _ _

theorem HttpProxyParser.requests_drain (P : HttpProxyParser UInt8) (fuel : Nat) (p : P.State) :
    P.requests.drain fuel p = P.drain fuel p := by
  induction fuel generalizing p with
  | zero => rfl
  | succ fuel ih =>
      unfold PushParser.drain HttpProxyParser.drain
      cases hnext : P.nextEvent p with
      | none => simp only [requests, hnext]
      | some r =>
          simp only [requests, hnext]
          exact congrArg (fun d => (r.1 :: d.1, d.2)) (ih r.2)

/-- What the HTTP/1 reader and the peek read. -/
theorem HttpProxyParser.requests_read (P : HttpProxyParser UInt8) (s : Bytes × P.State)
    (chunk : Bytes) :
    P.requests.read HttpEvent.requestHead? s chunk =
      (requestHeads (P.drainEvents (P.pushBytes .initiator s.2 (s.1 ++ chunk)).parser).1,
        (P.pushBytes .initiator s.2 (s.1 ++ chunk)).tail,
        (P.drainEvents (P.pushBytes .initiator s.2 (s.1 ++ chunk)).parser).2) := by
  simp only [PushParser.read, PushParser.pushAll, PushParser.drainAll]
  rw [requests_pushLoop, requests_drain]
  rfl

/-- Why the reader of HTTP/1 heads gives up. -/
def httpStop (P : HttpProxyParser UInt8) (p : P.State) : Option String :=
  match P.poison p with
  | some reason => some ("malformed HTTP request: " ++ reason.text)
  | none =>
      if P.isTunnelled p then some "connection switched protocols before a routable request head"
      else none

theorem active_of_httpStop {P : HttpProxyParser UInt8} {p : P.State} (h : httpStop P p = none) :
    P.requests.active p = true := by
  unfold httpStop at h
  split at h
  · cases h
  · next hpoison =>
      split at h
      · cases h
      · next htunnel =>
          simp only [hpoison, Option.isNone_none, Bool.true_and, Bool.not_eq_true',
            Bool.not_eq_true] at htunnel ⊢
          exact htunnel

theorem map_map_some {α : Type} (x : Except String α) :
    x.map (fun dns => some (some dns)) = (x.map some).map some := by
  cases x <;> rfl

/-- `read_http_head` reads through its parser. -/
theorem readHttpHead_eq (I : Inspector) :
    I.readHttpHead = .through I.http.requests HttpEvent.requestHead?
      (fun head => (I.routingKeyFromHead head).map some) (httpStop I.http) := by
  simp only [Inspector.readHttpHead, HeadReader.through, map_map_some]
  congr
  funext s chunk
  rw [HttpProxyParser.requests_read]
  simp only [httpStop]
  congr 1
  generalize I.http.pushBytes .initiator s.2 (s.1 ++ chunk) = pushed
  cases requestHeads (I.http.drainEvents pushed.parser).1 with
  | cons head rest => rfl
  | nil =>
      cases I.http.poison (I.http.drainEvents pushed.parser).2 with
      | some reason => rfl
      | none => cases I.http.isTunnelled (I.http.drainEvents pushed.parser).2 <;> rfl

/-- Why the reader of HTTP/2 heads gives up. -/
def http2Stop (F : HeadParsers) (requirePreface : Bool) (p : (F.http2 requirePreface).State) :
    Option String :=
  if (F.http2 requirePreface).isFailed p then
    some ("malformed HTTP/2 connection: " ++ (F.error requirePreface p).getD "unknown")
  else none

theorem active_of_http2Stop {F : HeadParsers} {requirePreface : Bool}
    {p : (F.http2 requirePreface).State} (h : http2Stop F requirePreface p = none) :
    ((F.http2 requirePreface).on .initiator).active p = true := by
  unfold http2Stop at h
  split at h
  · cases h
  · next hopen => simpa using hopen

/-- `read_h2_head` reads through its parser. -/
theorem readH2Head_eq (F : HeadParsers) (K : KeyText) (requirePreface : Bool) :
    F.readH2Head K requirePreface =
      .through ((F.http2 requirePreface).on .initiator) Http2Event.requestHead?
        (fun head => (F.streamKey K head).map some) (http2Stop F requirePreface) := by
  simp only [HeadParsers.readH2Head, HeadReader.through, map_map_some]
  congr
  funext s chunk
  simp only [PushParser.read, Http2Parser.pushBytes, Http2Parser.drainEvents]
  congr 1
  split
  · next hheads => simp only [hheads]
  · next hheads =>
      simp only [hheads, http2Stop]
      split
      · next hfailed => simp only [hfailed, if_true]
      · next hfailed => simp only [hfailed]; rfl

/-- What the TLS reader was fed. -/
theorem readTlsSni_after {chunks : List Bytes} {p : (F.readTlsSni K).State}
    (h : (F.readTlsSni K).Passed chunks p) :
    ∃ emitted, F.tls.After chunks.flatten emitted p ∧ emitted.filterMap TlsMessage.hello? = [] := by
  induction h with
  | start => exact ⟨[], .start, rfl⟩
  | @step chunks p chunk _ hnone ih =>
      obtain ⟨emitted, hafter, hnothing⟩ := ih
      refine ⟨emitted ++ (F.tls.feedInitiator chunk p).1, ?_, ?_⟩
      · rw [List.flatten_append, List.flatten_singleton]
        exact hafter.feed chunk
      · simp only [HeadParsers.readTlsSni] at hnone
        split at hnone
        · next sni _ _ =>
            cases hkey : HeadParsers.sniKey K sni with
            | error e => rw [hkey] at hnone; cases hnone
            | ok dns => rw [hkey] at hnone; cases hnone
        · next hnew => rw [List.filterMap_append, hnothing, hnew, List.append_nil]

theorem readTlsSni_decides {hellos : Bytes → List (Option String)}
    (hT : F.tls.Reassembles hellos) (w : Nat) : (F.readTlsSni K).Decides
      (fun bytes => (hellos bytes).head?.map (HeadParsers.sniKey K)) w := by
  constructor
  · intro chunks p chunk dns hpassed hanswer
    obtain ⟨emitted, hafter, hnothing⟩ := readTlsSni_after hpassed
    have hframed := hT.framed (hafter.feed chunk)
    rw [List.filterMap_append, hnothing, List.nil_append] at hframed
    simp only [HeadParsers.readTlsSni] at hanswer
    split at hanswer
    · next sni rest hnew =>
        rw [hnew] at hframed
        simp only [← hframed, List.head?_cons, Option.map_some]
        cases hkey : HeadParsers.sniKey K sni with
        | error e => rw [hkey] at hanswer; cases hanswer
        | ok found => rw [hkey] at hanswer; cases hanswer; rfl
    · cases hanswer
  · intro chunks p hpassed
    obtain ⟨emitted, hafter, hnothing⟩ := readTlsSni_after hpassed
    have hall := hT.framed hafter
    rw [hnothing] at hall
    obtain ⟨more, hmore⟩ := List.take_prefix w chunks.flatten
    have hfew := hT.grows (chunks.flatten.take w) more
    rw [hmore, ← hall] at hfew
    simp only [List.prefix_nil.mp hfew, List.head?_nil, Option.map_none]
  · rintro bytes _ found hfound ⟨more, rfl⟩
    obtain ⟨sni, hfirst, rfl⟩ := Option.map_eq_some_iff.mp hfound
    simp only [head?_of_begins hfirst (hT.grows bytes more), Option.map_some]

/-- Every door decides on what is framed of the stream. -/
theorem HeadParsers.Stable.decides (h : F.Stable framing w) (K : KeyText) (door : HeadDoor) :
    ((F.inspector K).reader door).Decides (F.finds K framing door) w := by
  have hhttp : (F.inspector K).readHttpHead.Decides (F.finds K framing .host) w := by
    rw [readHttpHead_eq]
    exact HeadReader.through_decides h.http fun _ => active_of_httpStop
  have hhttp2 : ∀ requirePreface, (F.readH2Head K requirePreface).Decides
      (fun bytes => (framing.streams requirePreface bytes).head?.map fun head =>
        (F.streamKey K head).map some) w := by
    intro requirePreface
    rw [readH2Head_eq]
    exact HeadReader.through_decides (h.http2 requirePreface) fun _ => active_of_http2Stop
  cases door with
  | sni => exact readTlsSni_decides h.tls w
  | host | terminatedHost => exact hhttp
  | h2c => exact hhttp2 true
  | terminatedH2 => exact hhttp2 false

/-- `peek_http_head_outcome` is a read of a fresh parser. -/
theorem peekHttpHeadOutcome_eq (I : Inspector) (peek : Bytes) :
    I.peekHttpHeadOutcome peek =
      match (I.http.requests.read HttpEvent.requestHead? ([], I.http.start) peek).1 with
      | head :: _ => .head head
      | [] =>
          if I.http.requests.active
              (I.http.requests.read HttpEvent.requestHead? ([], I.http.start) peek).2.2 then
            .needMore
          else .refused := by
  rw [HttpProxyParser.requests_read, Inspector.peekHttpHeadOutcome]
  simp only [List.nil_append]
  generalize requestHeads
    (I.http.drainEvents (I.http.pushBytes .initiator I.http.start peek).parser).1 = heads
  cases heads with
  | cons head rest => rfl
  | nil =>
      simp only [Bool.and_eq_true, Option.isNone_iff_eq_none, Bool.not_eq_true']
      split
      · next hrefused =>
          rw [if_neg]
          rintro ⟨hpoison, htunnel⟩
          simp [hpoison, htunnel] at hrefused
      · next hopen =>
          rw [if_pos]
          simpa using hopen

section Peek

variable {bytes : Bytes}

/-- A head that is peeked at is the first one. -/
theorem HeadParsers.Stable.head_of_peek (h : F.Stable framing w) {head : RequestHead UInt8}
    (hpeek : (F.inspector K).peekHttpHeadOutcome bytes = .head head) :
    (framing.heads bytes).head? = some head := by
  rw [peekHttpHeadOutcome_eq] at hpeek
  split at hpeek
  · next hitem =>
      cases hpeek
      exact PushParser.Passed.start.first h.http hitem
  · split at hpeek
    · cases hpeek
    · cases hpeek

/-- What is refused without a head has none to come. -/
theorem HeadParsers.Stable.none_of_refused (h : F.Stable framing w)
    (hpeek : (F.inspector K).peekHttpHeadOutcome bytes = .refused) (more : Bytes) :
    framing.heads (bytes ++ more) = [] := by
  rw [peekHttpHeadOutcome_eq] at hpeek
  split at hpeek
  · cases hpeek
  · next hnone =>
      split at hpeek
      · cases hpeek
      · next hinactive => exact h.http.none_of_inactive hnone (Bool.eq_false_iff.mpr hinactive) more

/-- A peek that needs more has no head within the window. -/
theorem HeadParsers.Stable.none_of_needMore (h : F.Stable framing w)
    (hpeek : (F.inspector K).peekHttpHeadOutcome bytes = .needMore) :
    framing.heads (bytes.take w) = [] := by
  rw [peekHttpHeadOutcome_eq] at hpeek
  split at hpeek
  · cases hpeek
  · next hnone =>
      split at hpeek
      · next hactive =>
          have hpassed := PushParser.Passed.start.read bytes hnone hactive
          simpa using hpassed.none h.http
      · cases hpeek

end Peek

end Doors

end ZenohBridge
