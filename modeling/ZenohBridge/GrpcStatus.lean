import ZenohBridge.Foundation.Execution
import ZenohBridge.Http2Parser

/-!
# The gRPC status scanner

On a terminated HTTP/2 connection the scanner feeds every response chunk to a parser of its own
and reports the status of each stream once. A parser may accept a chunk in part, and the readers
of request heads keep what was refused for their next push. The scanner does not: what its
parser refuses during one call is never offered again. So it sees the whole response as long as
no chunk is larger than what one push takes of a drained parser.

The parser and the functions that find a status in a head or in trailers are parameters.
-/

namespace ZenohBridge

open Execution

/-- How flowscope finds a status: `grpc_status` and `grpc_status_of`. -/
structure GrpcReader (Fields Status : Type) where
  grpcStatus : Fields → Option Status
  grpcStatusOf : StreamHead Fields → Option Status

namespace Http2Parser

variable {Fields : Type} (P : Http2Parser Fields)

/-- A parser whose events are drained and that has not failed accepts some of any bytes. -/
def Accepts : Prop :=
  ∀ p bytes, P.nextEvent p = none → P.isFailed p = false → bytes ≠ [] →
    0 < (P.push .responder bytes p).1

/-- A fresh parser has no event, and one whose events are drained and that has not failed
accepts a window of any bytes, or all of them. -/
structure Windowed (w : Nat) : Prop where
  idle : P.nextEvent P.start = none
  takes : ∀ p bytes, P.nextEvent p = none → P.isFailed p = false →
    min w bytes.length ≤ (P.push .responder bytes p).1

variable {P}

/-- A window of a byte is progress. -/
theorem Windowed.accepts {w : Nat} (h : P.Windowed w) (hpos : 0 < w) : P.Accepts := by
  intro p bytes hdrained hopen hne
  have hlength : 0 < bytes.length := List.length_pos_iff.mpr hne
  have htakes := h.takes p bytes hdrained hopen
  omega

/-- A chunk of at most a window is accepted whole. -/
theorem Windowed.accepted {w : Nat} (h : P.Windowed w) {p : P.State} {bytes : Bytes}
    (drained : P.nextEvent p = none) (hopen : P.isFailed p = false) (hfits : bytes.length ≤ w) :
    (P.pushBytes .responder p bytes).accepted = bytes := by
  have hall : (P.push .responder bytes p).1 = bytes.length := by
    have hleast := h.takes p bytes drained hopen
    have hmost := P.push_le .responder bytes p
    omega
  have hfirst : bytes.take (P.push .responder bytes p).1 <+:
      (P.pushBytes .responder p bytes).accepted :=
    PushParser.take_prefix_pushAll (P := P.on .responder) p bytes
  have hrest : (P.pushBytes .responder p bytes).accepted <+: bytes :=
    ⟨_, PushParser.pushAll_split (P := P.on .responder) p bytes⟩
  rw [hall, List.take_length] at hfirst
  exact hrest.eq_of_length_le hfirst.length_le

end Http2Parser

section Scanner

variable {Fields Status : Type} {P : Http2Parser Fields} (R : GrpcReader Fields Status)

/-- The stream and the status that an event reports. -/
def GrpcReader.found : Http2Event Fields → Option (Nat × Status)
  | .trailers streamId fields => (R.grpcStatus fields).map fun s => (streamId, s)
  | .head head =>
      if head.endStream then (R.grpcStatusOf head).map fun s => (head.streamId, s) else none
  | .other => none

/-- One event: the streams seen after it, and the call of `on_status`. -/
def GrpcReader.report (seen : List Nat) (event : Http2Event Fields) :
    List Nat × List (Nat × Status) :=
  match R.found event with
  | none => (seen, [])
  | some (streamId, status) =>
      if streamId ∈ seen then (seen, []) else (streamId :: seen, [(streamId, status)])

/-- The event loop: the streams seen after it, and the calls of `on_status`. -/
def GrpcReader.reportAll (seen : List Nat) :
    List (Http2Event Fields) → List Nat × List (Nat × Status)
  | [] => (seen, [])
  | event :: events =>
      let first := R.report seen event
      let rest := reportAll first.1 events
      (rest.1, first.2 ++ rest.2)

structure GrpcStatusScanner (P : Http2Parser Fields) where
  parser : P.State
  seen : List Nat

/-- `GrpcStatusScanner::new`. -/
def GrpcStatusScanner.new (P : Http2Parser Fields) : GrpcStatusScanner P := ⟨P.start, []⟩

/-- `GrpcStatusScanner::feed`, with the calls of `on_status`. -/
def GrpcStatusScanner.feed (s : GrpcStatusScanner P) (chunk : Bytes) :
    GrpcStatusScanner P × List (Nat × Status) :=
  let pushed := P.pushBytes .responder s.parser chunk
  let drained := P.drainEvents .responder pushed.parser
  let reports := R.reportAll s.seen drained.1
  (⟨drained.2, reports.1⟩, reports.2)

/-- A scanner with what it was fed, what its parser accepted of it and what it reported. -/
structure GrpcScan (P : Http2Parser Fields) (Status : Type) where
  scanner : GrpcStatusScanner P
  fed : Bytes
  accepted : Bytes
  reported : List (Nat × Status)

def GrpcScan.new (P : Http2Parser Fields) (Status : Type) : GrpcScan P Status :=
  ⟨.new P, [], [], []⟩

/-- One call of `feed`. -/
def GrpcScan.step (t : GrpcScan P Status) (chunk : Bytes) : Option (GrpcScan P Status) :=
  some
    { scanner := (t.scanner.feed R chunk).1
      fed := t.fed ++ chunk
      accepted := t.accepted ++ (P.pushBytes .responder t.scanner.parser chunk).accepted
      reported := t.reported ++ (t.scanner.feed R chunk).2 }

variable {R} {t t' : GrpcScan P Status} {chunk : Bytes}

theorem GrpcReader.reportAll_append (seen : List Nat) (xs ys : List (Http2Event Fields)) :
    R.reportAll seen (xs ++ ys) =
      ((R.reportAll (R.reportAll seen xs).1 ys).1,
        (R.reportAll seen xs).2 ++ (R.reportAll (R.reportAll seen xs).1 ys).2) := by
  induction xs generalizing seen with
  | nil => rfl
  | cons e xs ih =>
      simp only [List.cons_append, GrpcReader.reportAll, ih, List.append_assoc]

/-- The reported streams: each once, and from then on it is seen. -/
structure Reported (seen : List Nat) (reported : List (Nat × Status)) : Prop where
  nodup : (reported.map Prod.fst).Nodup
  seen : ∀ id, id ∈ reported.map Prod.fst → id ∈ seen

theorem Reported.report {seen : List Nat} {reported : List (Nat × Status)}
    (h : Reported seen reported) (event : Http2Event Fields) :
    Reported (R.report seen event).1 (reported ++ (R.report seen event).2) := by
  rw [GrpcReader.report]
  split
  · rwa [List.append_nil]
  · rename_i streamId status _
    split
    · rwa [List.append_nil]
    · rename_i hnew
      constructor
      · rw [List.map_append, List.nodup_append]
        refine ⟨h.nodup, List.pairwise_singleton _ _, ?_⟩
        rintro id hid _ hsingle rfl
        obtain rfl := List.mem_singleton.mp hsingle
        exact hnew (h.seen _ hid)
      · intro id hid
        rw [List.map_append, List.mem_append] at hid
        obtain hid | hid := hid
        · exact List.mem_cons_of_mem _ (h.seen id hid)
        · obtain rfl := List.mem_singleton.mp hid
          exact List.mem_cons_self

theorem Reported.reportAll {seen : List Nat} {reported : List (Nat × Status)}
    (h : Reported seen reported) (events : List (Http2Event Fields)) :
    Reported (R.reportAll seen events).1 (reported ++ (R.reportAll seen events).2) := by
  induction events generalizing seen reported with
  | nil => rwa [GrpcReader.reportAll, List.append_nil]
  | cons e events ih =>
      rw [GrpcReader.reportAll, ← List.append_assoc]
      exact ih (h.report e)

/-- The first status of each stream that is not seen yet, in order. -/
def firstStatuses (seen : List Nat) : List (Nat × Status) → List (Nat × Status)
  | [] => []
  | (streamId, status) :: found =>
      if streamId ∈ seen then firstStatuses seen found
      else (streamId, status) :: firstStatuses (streamId :: seen) found

/-- The calls of `on_status` follow from the statuses that the events bear. -/
theorem GrpcReader.reportAll_eq (seen : List Nat) (events : List (Http2Event Fields)) :
    (R.reportAll seen events).2 = firstStatuses seen (events.filterMap R.found) := by
  induction events generalizing seen with
  | nil => rfl
  | cons e events ih =>
      rw [GrpcReader.reportAll]
      simp only [GrpcReader.report]
      cases hfound : R.found e with
      | none =>
          rw [List.filterMap_cons_none hfound]
          exact ih seen
      | some found =>
          obtain ⟨streamId, status⟩ := found
          rw [List.filterMap_cons_some hfound, firstStatuses]
          simp only
          split
          · exact ih seen
          · rw [ih]
            rfl

/-- However the bytes were pushed, the events drained bear the statuses that the bytes frame. -/
def Http2Parser.Frames (P : Http2Parser Fields) (R : GrpcReader Fields Status)
    (framed : Bytes → List (Nat × Status)) : Prop :=
  (P.on .responder).Frames R.found framed

/-- The parser is drained, and what was reported is what its events report. -/
def GrpcScan.Tracks (R : GrpcReader Fields Status) (t : GrpcScan P Status) : Prop :=
  ∃ emitted, (P.on .responder).After t.accepted emitted t.scanner.parser ∧
    P.nextEvent t.scanner.parser = none ∧
    R.reportAll [] emitted = (t.scanner.seen, t.reported)

theorem GrpcScan.Tracks.step (h : t.Tracks R) (hs : t.step R chunk = some t') : t'.Tracks R := by
  obtain ⟨emitted, hafter, -, hreports⟩ := h
  obtain rfl := Option.some.inj hs
  obtain ⟨hdrain, hnone⟩ := (hafter.pushAll chunk).drainAll
  refine ⟨_, hdrain, hnone, ?_⟩
  rw [GrpcReader.reportAll_append, hreports]
  rfl

/-- What was reported depends on the accepted bytes only. -/
theorem GrpcScan.Tracks.reported {framed : Bytes → List (Nat × Status)}
    (hframed : P.Frames R framed) (h : t.Tracks R) :
    t.reported = firstStatuses [] (framed t.accepted) := by
  obtain ⟨emitted, hafter, hnone, hreports⟩ := h
  rw [← hframed hafter hnone, ← GrpcReader.reportAll_eq, hreports]

theorem GrpcScan.reported_step (h : Reported t.scanner.seen t.reported)
    (hs : t.step R chunk = some t') : Reported t'.scanner.seen t'.reported := by
  obtain rfl := Option.some.inj hs
  exact h.reportAll _

/-- A call with at most a window keeps up with what is fed, unless the parser has failed. -/
theorem GrpcScan.accepted_step {w : Nat} (hwindow : P.Windowed w) (htracks : t.Tracks R)
    (h : t.accepted = t.fed) (hopen : P.isFailed t.scanner.parser = false)
    (hfits : chunk.length ≤ w) (hs : t.step R chunk = some t') : t'.accepted = t'.fed := by
  obtain ⟨emitted, -, hdrained, -⟩ := htracks
  obtain rfl := Option.some.inj hs
  change t.accepted ++ (P.pushBytes .responder t.scanner.parser chunk).accepted = t.fed ++ chunk
  rw [h, hwindow.accepted hdrained hopen hfits]

end Scanner

/-- A parser that makes an event of each byte and holds at most `window` bytes without one. -/
def byteParser {Fields : Type} (event : UInt8 → Http2Event Fields) (window : Nat) :
    Http2Parser Fields where
  State := Bytes
  start := []
  push side bytes held :=
    match side with
    | .initiator => (0, held)
    | .responder =>
        ((bytes.take (window - held.length)).length, held ++ bytes.take (window - held.length))
  nextEvent
    | [] => none
    | b :: held => some (event b, held)
  isFailed _ := false
  backlog := List.length
  push_le := by
    rintro (_ | _) bytes held
    · exact Nat.zero_le _
    · exact List.length_take_le' _ _
  nextEvent_lt := by
    rintro (_ | ⟨b, held⟩) e held' h
    · cases h
    · cases h
      exact Nat.lt_succ_self _

section ByteParser

variable {Fields Status : Type} {event : UInt8 → Http2Event Fields} {window : Nat}

theorem byteParser_windowed (event : UInt8 → Http2Event Fields) (window : Nat) :
    (byteParser event window).Windowed window where
  idle := rfl
  takes := by
    rintro (_ | ⟨b, held⟩) bytes hnone _
    · exact Nat.le_of_eq List.length_take.symm
    · cases hnone

/-- A fresh parser accepts one window of a longer chunk. -/
theorem byteParser_accepted {chunk : Bytes} (hlong : window < chunk.length) :
    ((byteParser event window).pushBytes .responder [] chunk).accepted = chunk.take window := by
  have hne : chunk ≠ [] := List.length_pos_iff.mp (Nat.zero_lt_of_lt hlong)
  have hlength : (chunk.take window).length = window := List.length_take_of_le (Nat.le_of_lt hlong)
  have hfull : ∀ rest,
      ((byteParser event window).push .responder rest (chunk.take window)).1 = 0 := by
    intro rest
    change (rest.take (window - (chunk.take window).length)).length = 0
    rw [hlength, Nat.sub_self, List.take_zero, List.length_nil]
  have haccepted : ((byteParser event window).pushBytes .responder [] chunk).accepted =
      chunk.take (chunk.take window).length :=
    PushParser.accepted_of_full (P := (byteParser event window).on .responder) hne hfull
  rw [haccepted, hlength]

end ByteParser

/-- In every run, for every parser with the window, the scanner keeps up with the response and
reports what its bytes frame, not what its chunks are, as long as the parser has not failed, if
and only if no chunk is larger than the window. In every run it reports a stream once at most. -/
theorem grpc_scanner_keeps_up_iff {Fields Status : Type} (R : GrpcReader Fields Status)
    (w limit : Nat) :
    ((∀ (P : Http2Parser Fields), P.Windowed w → ∀ chunks : List Bytes,
        (∀ chunk ∈ chunks, chunk.length ≤ limit) →
        Along (GrpcScan.step R) (fun t _ => P.isFailed t.scanner.parser = false) (.new P Status)
          chunks →
        Always (GrpcScan.step R) (fun t => t.accepted = t.fed ∧
          ∀ framed, P.Frames R framed → t.reported = firstStatuses [] (framed t.fed))
          (.new P Status) chunks) ↔ limit ≤ w) ∧
    ∀ (P : Http2Parser Fields) (chunks : List Bytes),
      Always (GrpcScan.step R) (fun t => (t.reported.map Prod.fst).Nodup) (.new P Status)
        chunks := by
  refine ⟨⟨fun hall => ?_, fun hlimit P hwindow chunks hsizes hopen => ?_⟩, fun P chunks => ?_⟩
  · by_contra hlarge
    have hlong : w < (List.replicate limit (0 : UInt8)).length := by
      rw [List.length_replicate]
      omega
    have hrun := hall (byteParser (fun _ => .other) w) (byteParser_windowed _ w)
      [List.replicate limit 0] (by simp) (fun _ _ => ⟨rfl, trivial⟩)
    have hkept := (hrun.2 _ rfl).1
    change [] ++ ((byteParser _ w).pushBytes .responder [] _).accepted =
      [] ++ List.replicate limit 0 at hkept
    rw [List.nil_append, List.nil_append, byteParser_accepted hlong] at hkept
    have hlength := congrArg List.length hkept
    rw [List.length_take] at hlength
    omega
  · have hstart : (GrpcScan.new P Status).Tracks R := ⟨[], .start, hwindow.idle, rfl⟩
    have hok := hopen.and (along_of_labels hsizes (GrpcScan.new P Status))
    have hkept : Always (GrpcScan.step R) (fun t => t.Tracks R ∧ t.accepted = t.fed)
        (.new P Status) chunks := by
      refine always_of_along (fun t chunk t' h ok hs => ?_) ⟨hstart, rfl⟩ hok
      obtain ⟨htracks, heq⟩ := h
      exact ⟨htracks.step hs,
        GrpcScan.accepted_step hwindow htracks heq ok.1 (Nat.le_trans ok.2 hlimit) hs⟩
    refine hkept.mono fun t h => ⟨h.2, fun framed hframed => ?_⟩
    rw [h.1.reported hframed, h.2]
  · have hstart : Reported (GrpcScan.new P Status).scanner.seen (GrpcScan.new P Status).reported :=
      ⟨List.nodup_nil, fun _ h => h⟩
    have hreported : Always (GrpcScan.step R) (fun t => Reported t.scanner.seen t.reported)
        (.new P Status) chunks :=
      always_of_step (I := fun t => Reported t.scanner.seen t.reported)
        (fun _ _ _ h hs => GrpcScan.reported_step h hs) hstart chunks
    exact hreported.mono fun _ h => h.nodup

/-- A parser with a window of two bytes, which `Accepts` allows: each byte is a trailer. -/
def pairParser : Http2Parser Nat := byteParser (fun b => .trailers b.toNat 0) 2

/-- The status of every trailer. -/
def plainReader : GrpcReader Nat Nat := ⟨some, fun _ => none⟩

/-- It accepts some of any bytes once its events are drained. -/
theorem pairParser_accepts : pairParser.Accepts :=
  (byteParser_windowed (fun b => .trailers b.toNat 0) 2).accepts (by decide)

/-- The events of the bytes that it has accepted are emitted or will be. -/
theorem pairParser_after {taken : Bytes} {emitted : List (Http2Event Nat)}
    {held : (pairParser.on .responder).State}
    (h : (pairParser.on .responder).After taken emitted held) :
    emitted ++ List.map (fun b => .trailers b.toNat 0) held =
      taken.map fun b => .trailers b.toNat 0 := by
  induction h with
  | start => rfl
  | @push taken emitted held bytes _ ih =>
      have hheld : ((pairParser.on .responder).push bytes held).2 =
          List.append held (bytes.take (2 - List.length held)) := rfl
      have htaken : bytes.take ((pairParser.on .responder).push bytes held).1 =
          bytes.take (2 - List.length held) := by
        change bytes.take (bytes.take (2 - List.length held)).length = _
        rw [List.length_take, List.take_eq_take_iff]
        omega
      rw [hheld, htaken, List.map_append, ← ih, List.append_assoc]
      exact congrArg _ (List.map_append ..)
  | @next taken emitted held e held' _ hnext ih =>
      cases held with
      | nil => cases hnext
      | cons b held =>
          cases hnext
          rw [List.append_assoc]
          exact ih

/-- Its statuses are those of the bytes, however they were pushed. -/
theorem pairParser_frames :
    pairParser.Frames plainReader fun bytes => bytes.map fun b => (b.toNat, 0) := by
  intro taken emitted held h hnone
  cases held with
  | cons b held => cases hnone
  | nil =>
      have hevents : emitted = taken.map fun b => .trailers b.toNat 0 := by
        simpa using pairParser_after h
      rw [hevents, List.filterMap_map]
      exact List.filterMap_eq_map.symm ▸ rfl

/-- Two chunks of at most two bytes. -/
theorem grpc_scanner_keeps_up_pairs :
    Always (GrpcScan.step plainReader)
      (fun t => t.accepted = t.fed ∧
        t.reported = firstStatuses [] (t.fed.map fun b => (b.toNat, 0)))
      (.new pairParser Nat) [[1, 2], [3]] := by
  have hsizes : ∀ chunk ∈ ([[1, 2], [3]] : List Bytes), chunk.length ≤ 2 := by decide
  have hopen : Along (GrpcScan.step plainReader)
      (fun t _ => pairParser.isFailed t.scanner.parser = false) (.new pairParser Nat)
      [[1, 2], [3]] := fun _ _ => ⟨rfl, fun _ _ => ⟨rfl, trivial⟩⟩
  have hrun := (grpc_scanner_keeps_up_iff plainReader 2 2).1.mpr (Nat.le_refl 2)
    pairParser (byteParser_windowed _ 2) _ hsizes hopen
  exact hrun.mono fun t h => ⟨h.1, h.2 _ pairParser_frames⟩

/-- One call with three bytes on a parser that accepts some of any bytes: the third is refused
while two events wait, and lost. -/
theorem grpc_scanner_loses_tail :
    pairParser.Accepts ∧
      (GrpcScan.step plainReader (.new pairParser Nat) [1, 2, 3]).map
        (fun t => (t.fed, t.accepted, t.reported)) = some ([1, 2, 3], [1, 2], [(1, 0), (2, 0)]) ∧
      (exec (GrpcScan.step plainReader) (.new pairParser Nat) [[1, 2], [3]]).map
        (fun t => t.reported) = some [(1, 0), (2, 0), (3, 0)] :=
  ⟨pairParser_accepts, by decide +kernel, by decide +kernel⟩

end ZenohBridge
