import ZenohBridge.Foundation.PushParser
import ZenohBridge.HttpParser
import ZenohBridge.Transport

/-!
# The HTTP/2 parser

The bridge reads HTTP/2 in two places: for the authority of the first request of a connection,
and for the status of gRPC calls in the response stream. Either way it pushes the bytes of one
side into a parser of flowscope, which may accept a part of them, and drains the events.

The parser is a parameter. As for `HttpProxyParser`, `backlog` bounds the events it has ready.
-/

namespace ZenohBridge

/-- What the bridge reads of a head. -/
structure StreamHead (Fields : Type) where
  dir : FlowSide
  streamId : Nat
  endStream : Bool
  fields : Fields

/-- The events of the HTTP/2 parser; the bridge passes over all others. -/
inductive Http2Event (Fields : Type) where
  | head (head : StreamHead Fields)
  | trailers (streamId : Nat) (fields : Fields)
  | other

/-- The parser as the bridge calls it. -/
structure Http2Parser (Fields : Type) where
  State : Type
  start : State
  /-- Offer bytes on one side; the result is how many of them were accepted. -/
  push : FlowSide → Bytes → State → Nat × State
  nextEvent : State → Option (Http2Event Fields × State)
  isFailed : State → Bool
  /-- A bound on the events that are ready. -/
  backlog : State → Nat
  push_le : ∀ side bytes p, (push side bytes p).1 ≤ bytes.length
  nextEvent_lt : ∀ p e p', nextEvent p = some (e, p') → backlog p' < backlog p

namespace Http2Parser

variable {Fields : Type} (P : Http2Parser Fields)

/-- The parser with the bytes of one side. -/
@[reducible] def on (side : FlowSide) : PushParser UInt8 (Http2Event Fields) where
  State := P.State
  start := P.start
  push := P.push side
  next := P.nextEvent
  active p := !P.isFailed p
  backlog := P.backlog
  push_le := P.push_le side
  next_lt := P.nextEvent_lt

/-- Push until all bytes are accepted or a push accepts none. -/
def pushBytes (side : FlowSide) (p : P.State) (bytes : Bytes) : (P.on side).Pushed :=
  (P.on side).pushAll p bytes

/-- Every event the parser can currently produce. -/
def drainEvents (side : FlowSide) (p : P.State) : List (Http2Event Fields) × P.State :=
  (P.on side).drainAll p

end Http2Parser

end ZenohBridge
