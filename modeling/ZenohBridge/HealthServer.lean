import ZenohBridge.Foundation.Execution
import ZenohBridge.Foundation.Utf8Lossy
import ZenohBridge.MetricsHead
import ZenohBridge.Scrape

/-!
# The health server

`serve_on` accepts connections as long as one of its permits is free and sheds them otherwise.
Each handler reads the head of a request within the request timeout, takes the path out of its
first line and writes the answer.

The path is found in what the read loop has got, which depends on how the bytes were cut into
reads. The first line does not, unless it is longer than the cap.

## Implementation notes

Time is in milliseconds. The registry changes at any time and is read at one moment here, when
the head is complete; that a scrape loads each value at a moment of its own is the matter of
`Metrics.Scraped`. Writing the answer has no bound. `shown`, `cancelledAt`, `acceptErrors`,
`lateErrors` and `shedAt` are history: the registry as a handler read it, the moment of the
cancellation, the failed accepts, those of them after it, and the handlers that were open when a
connection was shed.
-/

namespace ZenohBridge

open Execution

/-- What `handle_conn` has come to with the reads it was given. -/
inductive ConnReply where
  | waiting
  | dropped
  | answered (answer : Bytes)
  deriving DecidableEq, Repr

/-- `str::lines` takes a carriage return off the end of a line. -/
def stripReturn (line : List Char) : List Char :=
  if line.getLast? = some '\r' then line.dropLast else line

/-- The first of `str::lines`. -/
def firstLine (text : List Char) : Option (List Char) :=
  if text = [] then none
  else if '\n' ∈ text then some (stripReturn (text.takeWhile (· ≠ '\n')))
  else some text

/-- `str::split_whitespace`. -/
def words (line : List Char) : List (List Char) :=
  (line.splitOnP isWhiteSpace).filter (· ≠ [])

/-- The second word of the first line. -/
def requestPath (text : List Char) : String :=
  (((firstLine text).bind fun line => (words line)[1]?).map String.ofList).getD "/"

/-- `handle_conn`, without its timeout. -/
def handleConn (m : Metrics) (reads : List HeadRead) : ConnReply :=
  match readHead [] 0 reads with
  | .reading _ => .waiting
  | .dropped _ => .dropped
  | .stopped got _ => .answered (Metrics.healthResponse (requestPath (Utf8.lossy got)) m)

/-- The reads take a stream to pieces: bytes of it, then its end or a failure. -/
def ReadsOf (stream : Bytes) : List HeadRead → Prop
  | [] => True
  | .err :: _ => True
  | .ok [] :: _ => stream = []
  | .ok (b :: bytes) :: unread => ∃ rest, stream = b :: bytes ++ rest ∧ ReadsOf rest unread

section Path

variable {text rest line : List Char}

/-- The first line ends at the first line feed. -/
theorem firstLine_append (text rest : List Char) :
    firstLine (text ++ '\n' :: rest) = some (stripReturn (text.takeWhile (· ≠ '\n'))) := by
  have hmem : '\n' ∈ text ++ '\n' :: rest := by simp
  rw [firstLine, if_neg (List.ne_nil_of_mem hmem), if_pos hmem, List.takeWhile_append]
  split
  · next hall =>
      have hnone : List.takeWhile (· ≠ '\n') ('\n' :: rest) = [] := by simp
      have heq := List.IsPrefix.eq_of_length (List.takeWhile_prefix (· ≠ '\n')) hall
      rw [hnone, List.append_nil, heq]
  · rfl

/-- What follows a line feed is not part of the path. -/
theorem requestPath_append (text rest rest' : List Char) :
    requestPath (text ++ '\n' :: rest) = requestPath (text ++ '\n' :: rest') := by
  rw [requestPath, requestPath, firstLine_append, firstLine_append]

theorem stripReturn_append (before : List Char) {line : List Char} (hne : line ≠ []) :
    stripReturn (before ++ line) = before ++ stripReturn line := by
  rw [stripReturn, stripReturn, List.getLast?_append_of_ne_nil _ hne]
  split
  · rw [List.dropLast_append_of_ne_nil hne]
  · rfl

theorem stripReturn_cons {c : Char} (hc : c ≠ '\r') (line : List Char) :
    stripReturn (c :: line) = c :: stripReturn line := by
  cases line with
  | nil => simp [stripReturn, hc]
  | cons d line => exact stripReturn_append [c] (List.cons_ne_nil d line)

theorem words_append {word : List Char} (hne : word ≠ [])
    (hword : ∀ c ∈ word, isWhiteSpace c = false) (rest : List Char) :
    words (word ++ ' ' :: rest) = word :: words rest := by
  have hspace : isWhiteSpace ' ' = true := by decide
  have hsplit : (word ++ ' ' :: rest).splitOnP isWhiteSpace = word :: rest.splitOnP isWhiteSpace :=
    List.splitOnP_append_cons_of_forall_mem hword ' ' hspace rest
  rw [words, hsplit, List.filter_cons_of_pos (by simpa using hne)]
  rfl

/-- The path of a request line is its second word. -/
theorem path_of_request {method target version : List Char}
    (hmethod : method ≠ [] ∧ ∀ c ∈ method, isWhiteSpace c = false)
    (htarget : target ≠ [] ∧ ∀ c ∈ target, isWhiteSpace c = false) (hversion : '\n' ∉ version)
    (rest : List Char) :
    requestPath (method ++ ' ' :: (target ++ ' ' :: version) ++ '\n' :: rest) =
      String.ofList target := by
  have hline : ∀ c ∈ method ++ ' ' :: (target ++ ' ' :: version), c ≠ '\n' := by
    intro c hc hnewline
    subst hnewline
    simp only [List.mem_append, List.mem_cons] at hc
    obtain hc | hc | hc | hc | hc := hc
    · exact absurd (hmethod.2 _ hc) (by decide)
    · exact absurd hc (by decide)
    · exact absurd (htarget.2 _ hc) (by decide)
    · exact absurd hc (by decide)
    · exact hversion hc
  have htake : (method ++ ' ' :: (target ++ ' ' :: version)).takeWhile (· ≠ '\n') =
      method ++ ' ' :: (target ++ ' ' :: version) :=
    List.takeWhile_eq_self_iff.mpr fun c hc => by simpa using hline c hc
  have hspace : ' ' ≠ '\r' := by decide
  rw [requestPath, firstLine_append, htake, stripReturn_append _ (List.cons_ne_nil _ _),
    stripReturn_cons hspace, stripReturn_append _ (List.cons_ne_nil _ _), stripReturn_cons hspace,
    Option.bind_some, words_append hmethod.1 hmethod.2, words_append htarget.1 htarget.2]
  rfl

end Path

section Reads

variable {stream got : Bytes} {reads : List HeadRead}

/-- What the reads of a stream have delivered before they go on. -/
theorem ReadsOf.split {chunks : List Bytes} (hne : ∀ c ∈ chunks, c ≠ [])
    (h : ReadsOf stream (chunks.map .ok ++ reads)) :
    ∃ rest, stream = chunks.flatten ++ rest ∧ ReadsOf rest reads := by
  induction chunks generalizing stream with
  | nil => exact ⟨stream, rfl, h⟩
  | cons chunk chunks ih =>
      obtain ⟨hchunk, hchunks⟩ := List.forall_mem_cons.mp hne
      obtain ⟨b, bytes, rfl⟩ := List.exists_cons_of_ne_nil hchunk
      obtain ⟨rest, rfl, hrest⟩ := h
      obtain ⟨rest', rfl, hreads⟩ := ih hchunks hrest
      exact ⟨rest', by rw [List.flatten_cons, List.append_assoc], hreads⟩

/-- When the loop stops it has the whole stream, a complete head, or more than the cap. -/
theorem stopped_got {unread : List HeadRead} (h : ReadsOf stream reads)
    (hstop : readHead [] 0 reads = .stopped got unread) :
    got <+: stream ∧ (got = stream ∨ HeadComplete got) := by
  have hstart : ¬HeadComplete [] := by
    rintro (hfound | hlength)
    · exact absurd (List.infix_nil.mp hfound) (by decide)
    · exact absurd hlength (by decide)
  obtain ⟨chunks, hon, hcases⟩ := readHead_eq hstart reads
  obtain ⟨rfl, hloop⟩ | ⟨_, rfl, hloop⟩ | ⟨last, _, rfl, hlast, hloop⟩ := hcases
  · cases hloop.symm.trans hstop
  · cases hloop.symm.trans hstop
  · obtain ⟨rfl, -⟩ := HeadLoop.stopped.inj (hstop.symm.trans hloop)
    obtain ⟨rest, rfl, hrest⟩ := h.split hon.nonempty
    rw [List.nil_append]
    cases last with
    | nil =>
        obtain rfl : rest = [] := hrest
        exact ⟨List.prefix_rfl, .inl rfl⟩
    | cons b bytes =>
        obtain ⟨rest, rfl, -⟩ := hrest
        refine ⟨⟨rest, by rw [List.append_assoc]⟩, .inr ?_⟩
        rw [List.nil_append] at hlast
        exact hlast.resolve_left (List.cons_ne_nil _ _)

theorem path_of_newline {got : Bytes} (hgot : got <+: stream) (hline : 10 ∈ got) :
    requestPath (Utf8.lossy got) = requestPath (Utf8.lossy stream) := by
  obtain ⟨rest, rfl⟩ := hgot
  obtain ⟨before, after, rfl⟩ := List.append_of_mem hline
  rw [List.append_assoc, List.cons_append, Utf8.lossy_append (by decide),
    Utf8.lossy_append (by decide)]
  exact requestPath_append _ _ _

/-- The path does not depend on the reads if the first line is not longer than the cap. -/
theorem path_of_stopped {unread : List HeadRead} (h : ReadsOf stream reads)
    (hline : 10 ∈ stream.take 8193 ∨ stream.length ≤ 8192)
    (hstop : readHead [] 0 reads = .stopped got unread) :
    requestPath (Utf8.lossy got) = requestPath (Utf8.lossy stream) := by
  obtain ⟨hgot, rfl | hfound | hlength⟩ := stopped_got h hstop
  · rfl
  · exact path_of_newline hgot (hfound.subset (by decide))
  · obtain hmem | hshort := hline
    · refine path_of_newline hgot ?_
      obtain ⟨rest, rfl⟩ := hgot
      rw [List.take_append_of_le_length (by omega)] at hmem
      exact List.mem_of_mem_take hmem
    · have hle := hgot.length_le
      omega

/-- The bytes that reads have delivered. -/
def delivered (reads : List HeadRead) : Bytes :=
  reads.flatMap fun
    | .ok bytes => bytes
    | .err => []

/-- Reads without a failure that deliver a complete head stop the loop. -/
theorem stops_of_complete (hreads : .err ∉ reads) (hcomplete : HeadComplete (delivered reads)) :
    ∃ got unread, readHead [] 0 reads = .stopped got unread := by
  have hstart : ¬HeadComplete [] := by
    rintro (hfound | hlength)
    · exact absurd (List.infix_nil.mp hfound) (by decide)
    · exact absurd hlength (by decide)
  obtain ⟨chunks, hon, hcases⟩ := readHead_eq hstart reads
  obtain ⟨rfl, -⟩ | ⟨_, rfl, -⟩ | ⟨last, _, rfl, -, hloop⟩ := hcases
  · have hall : delivered (chunks.map .ok) = chunks.flatten := by
      rw [delivered, List.flatMap_map, List.flatMap_id']
    rw [hall] at hcomplete
    exact absurd hcomplete (hon.incomplete chunks List.prefix_rfl)
  · simp at hreads
  · exact ⟨_, _, hloop⟩

/-- However a stream is cut into reads, the answer is that to its first line, unless this is
longer than the cap. It comes once a complete head was read. -/
theorem answered_by_first_line (m : Metrics) (h : ReadsOf stream reads)
    (hline : 10 ∈ stream.take 8193 ∨ stream.length ≤ 8192) :
    (∀ answer, handleConn m reads = .answered answer →
      answer = Metrics.healthResponse (requestPath (Utf8.lossy stream)) m) ∧
    (.err ∉ reads → HeadComplete (delivered reads) →
      handleConn m reads =
        .answered (Metrics.healthResponse (requestPath (Utf8.lossy stream)) m)) := by
  constructor
  · intro answer hanswer
    rw [handleConn] at hanswer
    split at hanswer
    · cases hanswer
    · cases hanswer
    · next got unread hstop =>
        rw [← path_of_stopped h hline hstop]
        exact (ConnReply.answered.inj hanswer).symm
  · intro hreads hcomplete
    obtain ⟨got, unread, hstop⟩ := stops_of_complete hreads hcomplete
    simp only [handleConn, hstop, path_of_stopped h hline hstop]

end Reads

/-- However the bytes of a request are cut into reads, a handler that answers answers for the
target of the request line, and it answers once a complete head was read. -/
theorem answered_by_target (m : Metrics) {method target version : List Char}
    (hmethod : method ≠ [] ∧ ∀ c ∈ method, isWhiteSpace c = false)
    (htarget : target ≠ [] ∧ ∀ c ∈ target, isWhiteSpace c = false) (hversion : '\n' ∉ version)
    (hfits : (Utf8.encode (method ++ ' ' :: (target ++ ' ' :: version))).length ≤ 8192)
    (rest : Bytes) {reads : List HeadRead}
    (h : ReadsOf (Utf8.encode (method ++ ' ' :: (target ++ ' ' :: version)) ++ 10 :: rest) reads) :
    (∀ answer, handleConn m reads = .answered answer →
      answer = Metrics.healthResponse (String.ofList target) m) ∧
    (.err ∉ reads → HeadComplete (delivered reads) →
      handleConn m reads = .answered (Metrics.healthResponse (String.ofList target) m)) := by
  have hline : 10 ∈ (Utf8.encode (method ++ ' ' :: (target ++ ' ' :: version)) ++
      10 :: rest).take 8193 := by
    rw [List.take_append, List.mem_append]
    right
    rw [show 8193 - (Utf8.encode (method ++ ' ' :: (target ++ ' ' :: version))).length =
      8192 - (Utf8.encode (method ++ ' ' :: (target ++ ' ' :: version))).length + 1 by omega,
      List.take_succ_cons]
    exact List.mem_cons_self
  have hpath : requestPath (Utf8.lossy (Utf8.encode (method ++ ' ' :: (target ++ ' ' :: version)) ++
      10 :: rest)) = String.ofList target := by
    rw [Utf8.lossy_append (by decide), Utf8.lossy_encode]
    exact path_of_request hmethod htarget hversion _
  have hanswer := answered_by_first_line m h (.inl hline)
  rwa [hpath] at hanswer

theorem word_of_all {word : List Char} (hne : word ≠ [])
    (hall : (word.all fun c => !isWhiteSpace c) = true) :
    word ≠ [] ∧ ∀ c ∈ word, isWhiteSpace c = false := by
  refine ⟨hne, ?_⟩
  intro c hc
  simpa using List.all_eq_true.mp hall c hc

/-- A request that was cut in its target. -/
theorem answered_by_target_readyz :
    handleConn .new [.ok (asBytes "GET /rea"), .ok (asBytes "dyz HTTP/1.1\r\n\r\n")] =
      .answered (Metrics.healthResponse (String.ofList "/readyz".toList) .new) := by
  have hmethod : "GET".toList ≠ [] ∧ ∀ c ∈ "GET".toList, isWhiteSpace c = false :=
    word_of_all (by decide +kernel) (by decide +kernel)
  have htarget : "/readyz".toList ≠ [] ∧ ∀ c ∈ "/readyz".toList, isWhiteSpace c = false :=
    word_of_all (by decide +kernel) (by decide +kernel)
  have hversion : '\n' ∉ "HTTP/1.1\r".toList := by decide +kernel
  have hfits : (Utf8.encode ("GET".toList ++ ' ' :: ("/readyz".toList ++ ' ' ::
      "HTTP/1.1\r".toList))).length ≤ 8192 := by decide +kernel
  have hstream : Utf8.encode ("GET".toList ++ ' ' :: ("/readyz".toList ++ ' ' ::
      "HTTP/1.1\r".toList)) ++ 10 :: asBytes "\r\n" =
        asBytes "GET /rea" ++ asBytes "dyz HTTP/1.1\r\n\r\n" := by decide +kernel
  have hreads : ReadsOf (asBytes "GET /rea" ++ asBytes "dyz HTTP/1.1\r\n\r\n")
      [.ok (asBytes "GET /rea"), .ok (asBytes "dyz HTTP/1.1\r\n\r\n")] :=
    ⟨_, rfl, [], (List.append_nil _).symm, trivial⟩
  have hfound : crlfCrlf <:+: delivered
      [.ok (asBytes "GET /rea"), .ok (asBytes "dyz HTTP/1.1\r\n\r\n")] := by decide +kernel
  exact (answered_by_target .new hmethod htarget hversion hfits _ (hstream ▸ hreads)).2
    (by decide +kernel) (.inl hfound)

/-- How far the task of a connection is. -/
inductive HandlerStage where
  | reading (since : Nat)
  | writing (left : Bytes)
  /-- The task is over and its permit given back. -/
  | closed
  deriving DecidableEq, Repr

structure Handler where
  stage : HandlerStage
  reads : List HeadRead
  shown : Option Metrics
  sent : Bytes
  deriving DecidableEq

inductive HandlerAction where
  | read (r : HeadRead)
  | timeout
  | write (n : Nat)
  /-- The answer was written, or a write failed. -/
  | close
  deriving DecidableEq, Repr

namespace Handler

def accepted (now : Nat) : Handler := ⟨.reading now, [], none, []⟩

/-- One more read, after which the handler reads on, drops the connection or answers. -/
def hear (m : Metrics) (r : HeadRead) (h : Handler) : Handler :=
  let reads := h.reads ++ [r]
  match handleConn m reads with
  | .waiting => { h with reads := reads }
  | .dropped => { h with stage := .closed, reads := reads }
  | .answered answer => { h with stage := .writing answer, reads := reads, shown := some m }

/-- The task of a connection. -/
def step (requestTimeout now : Nat) (m : Metrics) (h : Handler) : HandlerAction → Option Handler
  | .read r =>
      match h.stage with
      | .reading _ => some (h.hear m r)
      | _ => none
  | .timeout =>
      match h.stage with
      | .reading since =>
          if since + requestTimeout ≤ now then some { h with stage := .closed } else none
      | _ => none
  | .write n =>
      match h.stage with
      | .writing left =>
          if 0 < n ∧ n ≤ left.length then
            some { h with stage := .writing (left.drop n), sent := h.sent ++ left.take n }
          else none
      | _ => none
  | .close =>
      match h.stage with
      | .writing _ => some { h with stage := .closed }
      | _ => none

def isOpen (h : Handler) : Bool := decide (h.stage ≠ .closed)

/-- The request timeout has passed. -/
def overdue (requestTimeout now : Nat) (h : Handler) : Bool :=
  match h.stage with
  | .reading since => decide (since + requestTimeout ≤ now)
  | _ => false

/-- A handler that is overdue can time out. -/
theorem isSome_timeout (h : Handler) (m : Metrics) {requestTimeout now : Nat} :
    (h.step requestTimeout now m .timeout).isSome = h.overdue requestTimeout now := by
  cases hstage : h.stage with
  | reading since =>
      simp only [step, overdue, hstage]
      split
      · next hdue => simp [hdue]
      · next hearly => simp [hearly]
  | writing | closed => simp [step, overdue, hstage]

/-- What was sent is the beginning of the answer to what was read. -/
structure Sound (h : Handler) : Prop where
  reading : ∀ since, h.stage = .reading since → h.sent = []
  writing : ∀ left, h.stage = .writing left →
    ∃ m, h.shown = some m ∧ handleConn m h.reads = .answered (h.sent ++ left)
  sent : h.sent ≠ [] →
    ∃ m left, h.shown = some m ∧ handleConn m h.reads = .answered (h.sent ++ left)

/-- The request timeout has not passed. -/
def Timely (requestTimeout now : Nat) (h : Handler) : Prop :=
  ∀ since, h.stage = .reading since → now ≤ since + requestTimeout

/-- Everything that a task can do, with what it requires. -/
inductive Moved (requestTimeout now : Nat) (m : Metrics) : Handler → Handler → Prop
  | heard (since : Nat) (reads reads' : List HeadRead) (shown : Option Metrics) (sent : Bytes) :
      Moved requestTimeout now m ⟨.reading since, reads, shown, sent⟩
        ⟨.reading since, reads', shown, sent⟩
  | dropped (since : Nat) (reads reads' : List HeadRead) (shown : Option Metrics) (sent : Bytes) :
      Moved requestTimeout now m ⟨.reading since, reads, shown, sent⟩
        ⟨.closed, reads', shown, sent⟩
  | answered (since : Nat) (reads reads' : List HeadRead) (shown : Option Metrics) (sent : Bytes)
      (answer : Bytes) (complete : handleConn m reads' = .answered answer) :
      Moved requestTimeout now m ⟨.reading since, reads, shown, sent⟩
        ⟨.writing answer, reads', some m, sent⟩
  | wrote (n : Nat) (left : Bytes) (reads : List HeadRead) (shown : Option Metrics)
      (sent : Bytes) : Moved requestTimeout now m ⟨.writing left, reads, shown, sent⟩
        ⟨.writing (left.drop n), reads, shown, sent ++ left.take n⟩
  | closed (left : Bytes) (reads : List HeadRead) (shown : Option Metrics) (sent : Bytes) :
      Moved requestTimeout now m ⟨.writing left, reads, shown, sent⟩ ⟨.closed, reads, shown, sent⟩

variable {requestTimeout now : Nat} {m : Metrics} {h h' : Handler} {a : HandlerAction}

/-- Inversion of a step. -/
theorem moved_of_step (hs : h.step requestTimeout now m a = some h') :
    Moved requestTimeout now m h h' := by
  obtain ⟨stage, reads, shown, sent⟩ := h
  cases stage with
  | reading since =>
      cases a with
      | read r =>
          obtain rfl := Option.some.inj hs
          simp only [hear]
          split
          · exact .heard since reads _ shown sent
          · exact .dropped since reads _ shown sent
          · next answer hanswer => exact .answered since reads _ shown sent answer hanswer
      | timeout =>
          simp only [step, Option.ite_none_right_eq_some] at hs
          obtain ⟨-, hs⟩ := hs
          obtain rfl := Option.some.inj hs
          exact .dropped since reads reads shown sent
      | write n | close => cases hs
  | writing left =>
      cases a with
      | write n =>
          simp only [step, Option.ite_none_right_eq_some] at hs
          obtain ⟨-, hs⟩ := hs
          obtain rfl := Option.some.inj hs
          exact .wrote n left reads shown sent
      | close =>
          obtain rfl := Option.some.inj hs
          exact .closed left reads shown sent
      | read r | timeout => cases hs
  | closed => cases a <;> cases hs

theorem Moved.isOpen (hm : Moved requestTimeout now m h h') : h.isOpen = true := by
  cases hm <;> rfl

theorem sound_accepted (now : Nat) : (accepted now).Sound := by
  constructor
  · intro since _
    rfl
  · intro left hleft
    cases hleft
  · intro hsent
    exact absurd rfl hsent

theorem Sound.moved (h₀ : h.Sound) (hm : Moved requestTimeout now m h h') : h'.Sound := by
  cases hm with
  | heard since reads reads' shown sent =>
      have hnone : sent = [] := h₀.reading since rfl
      refine ⟨fun _ _ => hnone, fun _ hleft => ?_, fun hsent => absurd hnone hsent⟩
      cases hleft
  | dropped since reads reads' shown sent =>
      have hnone : sent = [] := h₀.reading since rfl
      refine ⟨fun _ _ => hnone, fun _ hleft => ?_, fun hsent => absurd hnone hsent⟩
      cases hleft
  | answered since reads reads' shown sent answer hanswer =>
      obtain rfl : sent = [] := h₀.reading since rfl
      refine ⟨fun _ _ => rfl, fun left hleft => ?_, fun hsent => absurd rfl hsent⟩
      cases hleft
      exact ⟨m, rfl, hanswer⟩
  | wrote n left reads shown sent =>
      obtain ⟨seen, hshown, hanswer⟩ := h₀.writing left rfl
      have hsplit : sent ++ left = sent ++ left.take n ++ left.drop n := by
        rw [List.append_assoc, List.take_append_drop]
      rw [hsplit] at hanswer
      refine ⟨fun _ hsince => ?_, fun _ hleft => ?_, fun _ => ⟨seen, _, hshown, hanswer⟩⟩
      · cases hsince
      · cases hleft
        exact ⟨seen, hshown, hanswer⟩
  | closed left reads shown sent =>
      refine ⟨fun _ hsince => ?_, fun _ hleft => ?_, h₀.sent⟩
      · cases hsince
      · cases hleft

theorem timely_accepted (now : Nat) : (accepted now).Timely requestTimeout now := by
  intro since hsince
  cases hsince
  exact Nat.le_add_right _ _

theorem Timely.moved (h₀ : h.Timely requestTimeout now) (hm : Moved requestTimeout now m h h') :
    h'.Timely requestTimeout now := by
  intro since hsince
  cases hm with
  | heard => exact h₀ since hsince
  | dropped | answered | wrote | closed => cases hsince

theorem Timely.tick (hdue : h.overdue requestTimeout now = false) :
    h.Timely requestTimeout (now + 1) := by
  intro since hsince
  simp only [overdue, hsince, decide_eq_false_iff_not, Nat.not_le] at hdue
  exact hdue

end Handler

/-- Where `serve_on` is. -/
inductive ServeStage where
  | accepting
  | backingOff (wakeAt : Nat)
  | stopped
  deriving DecidableEq, Repr

structure HealthServer where
  now : Nat
  metrics : Metrics
  cancelledAt : Option Nat
  stage : ServeStage
  /-- The permits in the semaphore. -/
  available : Nat
  handlers : List Handler
  acceptErrors : Nat
  lateErrors : Nat
  shedAt : List Nat
  deriving DecidableEq

inductive HealthAction where
  | cancel
  | stop
  | connect
  | acceptFails
  | wake
  | handler (i : Nat) (a : HandlerAction)
  | count (m : Metrics)
  | tick
  deriving DecidableEq

namespace HealthServer

/-- `MAX_CONCURRENT`. -/
def maxConcurrent : Nat := 64

/-- The sleep after a failed accept. -/
def acceptBackoff : Nat := 100

def start (m : Metrics) : HealthServer := ⟨0, m, none, .accepting, maxConcurrent, [], 0, 0, []⟩

/-- The handlers that hold a permit. -/
def openHandlers (s : HealthServer) : Nat := s.handlers.countP Handler.isOpen

/-- A connection was accepted: `try_acquire_owned` gives its handler a permit, or it is shed. -/
def acceptConn (s : HealthServer) : HealthServer :=
  if 0 < s.available then
    { s with available := s.available - 1, handlers := s.handlers ++ [.accepted s.now] }
  else { s with shedAt := s.shedAt ++ [s.openHandlers] }

/-- A handler went on. Its permit is dropped with its task. -/
def putBack (i : Nat) (h : Handler) (s : HealthServer) : HealthServer :=
  { s with
    available := s.available + if h.isOpen then 0 else 1
    handlers := s.handlers.set i h }

/-- `serve_on`, its handlers and their surroundings. -/
def step (requestTimeout : Nat) (s : HealthServer) : HealthAction → Option HealthServer
  | .cancel => some { s with cancelledAt := some (s.cancelledAt.getD s.now) }
  | .stop =>
      if s.stage = .accepting ∧ s.cancelledAt ≠ none then some { s with stage := .stopped }
      else none
  | .connect => if s.stage = .accepting then some s.acceptConn else none
  | .acceptFails =>
      if s.stage = .accepting then
        some { s with
          stage := .backingOff (s.now + acceptBackoff)
          acceptErrors := s.acceptErrors + 1
          lateErrors := s.lateErrors + if s.cancelledAt = none then 0 else 1 }
      else none
  | .wake =>
      match s.stage with
      | .backingOff wakeAt => if wakeAt ≤ s.now then some { s with stage := .accepting } else none
      | _ => none
  | .handler i a =>
      (s.handlers[i]?.bind fun h => h.step requestTimeout s.now s.metrics a).map fun h =>
        s.putBack i h
  | .count m => some { s with metrics := m }
  | .tick => some { s with now := s.now + 1 }

/-- The steps that the server and its handlers take by themselves. -/
def own : HealthAction → Bool
  | .stop | .wake | .handler _ .timeout => true
  | .cancel | .connect | .acceptFails | .handler _ _ | .count _ | .tick => false

/-- Something could go on without its surroundings. -/
def urgent (requestTimeout : Nat) (s : HealthServer) : Bool :=
  (match s.stage with
    | .accepting => decide (s.cancelledAt ≠ none)
    | .backingOff wakeAt => decide (wakeAt ≤ s.now)
    | .stopped => false) || s.handlers.any (Handler.overdue requestTimeout s.now)

/-- Time does not pass while the server could go on. -/
def Prompt (requestTimeout : Nat) (s : HealthServer) (a : HealthAction) : Prop :=
  a = .tick → s.urgent requestTimeout = false

instance (requestTimeout : Nat) (s : HealthServer) (a : HealthAction) :
    Decidable (s.Prompt requestTimeout a) :=
  inferInstanceAs (Decidable (a = .tick → s.urgent requestTimeout = false))

/-- The permits, and what every handler has sent. -/
structure Sound (s : HealthServer) : Prop where
  permits : s.available + s.openHandlers = maxConcurrent
  shed : ∀ n ∈ s.shedAt, n = maxConcurrent
  handlers : ∀ h ∈ s.handlers, h.Sound
  accepting : s.stage = .accepting → acceptBackoff * s.acceptErrors ≤ s.now
  backingOff : ∀ wakeAt, s.stage = .backingOff wakeAt →
    acceptBackoff * s.acceptErrors ≤ wakeAt ∧ wakeAt ≤ s.now + acceptBackoff
  stopped : s.stage = .stopped → acceptBackoff * s.acceptErrors ≤ s.now

variable {requestTimeout : Nat} {s s' : HealthServer} {a : HealthAction} {i : Nat} {h h' : Handler}

theorem openHandlers_putBack (hget : s.handlers[i]? = some h) (hopen : h.isOpen = true) :
    (s.putBack i h').available + (s.putBack i h').openHandlers = s.available + s.openHandlers := by
  obtain ⟨hlt, hget⟩ := List.getElem?_eq_some_iff.mp hget
  have hpos : 0 < s.openHandlers :=
    List.countP_pos_iff.mpr ⟨h, hget ▸ List.getElem_mem hlt, hopen⟩
  have hset := List.countP_set (p := Handler.isOpen) (a := h') hlt
  rw [hget, hopen] at hset
  simp only [if_true] at hset
  simp only [putBack, openHandlers] at hpos hset ⊢
  rw [hset]
  split <;> omega

/-- Everything that a step can do, with what it requires. -/
inductive Moved (requestTimeout : Nat) (s : HealthServer) (a : HealthAction) : HealthServer → Prop
  | cancelled : Moved requestTimeout s a { s with cancelledAt := some (s.cancelledAt.getD s.now) }
  | stopped (stage : s.stage = .accepting) : Moved requestTimeout s a { s with stage := .stopped }
  | admitted (stage : s.stage = .accepting) (free : 0 < s.available) : Moved requestTimeout s a
      { s with available := s.available - 1, handlers := s.handlers ++ [.accepted s.now] }
  | shed (stage : s.stage = .accepting) (full : s.available = 0) :
      Moved requestTimeout s a { s with shedAt := s.shedAt ++ [s.openHandlers] }
  | failed (stage : s.stage = .accepting) : Moved requestTimeout s a { s with
      stage := .backingOff (s.now + acceptBackoff)
      acceptErrors := s.acceptErrors + 1
      lateErrors := s.lateErrors + if s.cancelledAt = none then 0 else 1 }
  | woken (wakeAt : Nat) (stage : s.stage = .backingOff wakeAt) (due : wakeAt ≤ s.now) :
      Moved requestTimeout s a { s with stage := .accepting }
  | handled (i : Nat) (h h' : Handler) (member : s.handlers[i]? = some h)
      (moved : Handler.Moved requestTimeout s.now s.metrics h h') :
      Moved requestTimeout s a (s.putBack i h')
  | counted (m : Metrics) : Moved requestTimeout s a { s with metrics := m }
  | ticked (time : a = .tick) : Moved requestTimeout s a { s with now := s.now + 1 }

/-- Inversion of a step. -/
theorem moved_of_step (hs : s.step requestTimeout a = some s') : Moved requestTimeout s a s' := by
  cases a with
  | cancel =>
      obtain rfl := Option.some.inj hs
      exact .cancelled
  | stop =>
      simp only [step, Option.ite_none_right_eq_some] at hs
      obtain ⟨⟨hstage, -⟩, hs⟩ := hs
      obtain rfl := Option.some.inj hs
      exact .stopped hstage
  | connect =>
      simp only [step, acceptConn, Option.ite_none_right_eq_some] at hs
      obtain ⟨hstage, hs⟩ := hs
      obtain rfl := Option.some.inj hs
      split
      · next hfree => exact .admitted hstage hfree
      · next hfull => exact .shed hstage (Nat.eq_zero_of_not_pos hfull)
  | acceptFails =>
      simp only [step, Option.ite_none_right_eq_some] at hs
      obtain ⟨hstage, hs⟩ := hs
      obtain rfl := Option.some.inj hs
      exact .failed hstage
  | wake =>
      simp only [step] at hs
      split at hs
      · next wakeAt hstage =>
          obtain ⟨hdue, hs⟩ := Option.ite_none_right_eq_some.mp hs
          obtain rfl := Option.some.inj hs
          exact .woken wakeAt hstage hdue
      · cases hs
  | handler i b =>
      obtain ⟨h', hstep, rfl⟩ := Option.map_eq_some_iff.mp hs
      obtain ⟨h, hget, hstep⟩ := Option.bind_eq_some_iff.mp hstep
      exact .handled i h h' hget (Handler.moved_of_step hstep)
  | count m =>
      obtain rfl := Option.some.inj hs
      exact .counted m
  | tick =>
      obtain rfl := Option.some.inj hs
      exact .ticked rfl

/-- The server is urgent exactly when it or a handler can take a step by itself. -/
theorem urgent_iff : s.urgent requestTimeout = true ↔
    ∃ a, own a = true ∧ (s.step requestTimeout a).isSome = true := by
  rw [urgent, Bool.or_eq_true, List.any_eq_true]
  constructor
  · rintro (hloop | ⟨h, hmem, hoverdue⟩)
    · cases hstage : s.stage with
      | accepting =>
          have hcancelled : s.cancelledAt ≠ none := by simpa [hstage] using hloop
          exact ⟨.stop, rfl, by simp [step, hstage, hcancelled]⟩
      | backingOff wakeAt =>
          have hdue : wakeAt ≤ s.now := by simpa [hstage] using hloop
          exact ⟨.wake, rfl, by simp [step, hstage, hdue]⟩
      | stopped =>
          rw [hstage] at hloop
          cases hloop
    · obtain ⟨i, hi⟩ := List.mem_iff_getElem?.mp hmem
      refine ⟨.handler i .timeout, rfl, ?_⟩
      simp only [step, hi, Option.bind_some, Option.isSome_map, h.isSome_timeout, hoverdue]
  · rintro ⟨a, hown, hstep⟩
    cases a with
    | stop =>
        left
        obtain ⟨hstage, hcancelled⟩ : s.stage = .accepting ∧ s.cancelledAt ≠ none := by
          simpa [step] using hstep
        simp [hstage, hcancelled]
    | wake =>
        left
        cases hstage : s.stage with
        | backingOff wakeAt => simpa [step, hstage] using hstep
        | accepting | stopped => simp [step, hstage] at hstep
    | handler i b =>
        right
        cases b with
        | timeout =>
            simp only [step, Option.isSome_map] at hstep
            obtain ⟨h', hstep⟩ := Option.isSome_iff_exists.mp hstep
            obtain ⟨h, hi, hstep⟩ := Option.bind_eq_some_iff.mp hstep
            refine ⟨h, List.mem_of_getElem? hi, ?_⟩
            rw [← Handler.isSome_timeout h s.metrics, hstep]
            rfl
        | read | write | close => cases hown
    | cancel | connect | acceptFails | count | tick => cases hown

/-- A property of the handlers that a new one has, and that the moves of one keep. -/
theorem Moved.forall_handlers {P : Handler → Prop} (hm : Moved requestTimeout s a s')
    (h₀ : ∀ h ∈ s.handlers, P h) (hnew : P (.accepted s.now))
    (hmoved : ∀ h h', P h → Handler.Moved requestTimeout s.now s.metrics h h' → P h') :
    ∀ h ∈ s'.handlers, P h := by
  cases hm with
  | cancelled | stopped | shed | failed | woken | counted | ticked => exact h₀
  | admitted =>
      intro h hmem
      obtain hmem | hmem := List.mem_append.mp hmem
      · exact h₀ h hmem
      · rw [List.mem_singleton.mp hmem]
        exact hnew
  | handled i before after hget hm =>
      intro h hmem
      obtain hmem | rfl := List.mem_or_eq_of_mem_set hmem
      · exact h₀ h hmem
      · exact hmoved before h (h₀ before (List.mem_of_getElem? hget)) hm

theorem sound_start (m : Metrics) : (start m).Sound := by
  constructor
  · rfl
  · intro n hn
    cases hn
  · intro h hmem
    cases hmem
  · intro _
    exact Nat.le_refl 0
  · intro wakeAt hstage
    cases hstage
  · intro hstage
    cases hstage

/-- One step keeps the permits. -/
theorem Moved.permits (hm : Moved requestTimeout s a s') :
    s'.available + s'.openHandlers = s.available + s.openHandlers := by
  cases hm with
  | cancelled | stopped | shed | failed | woken | counted | ticked => rfl
  | admitted hstage hfree =>
      have hopen : [Handler.accepted s.now].countP Handler.isOpen = 1 := rfl
      simp only [openHandlers, List.countP_append, hopen]
      omega
  | handled i h h' hget hm => exact openHandlers_putBack hget hm.isOpen

/-- A connection is shed with all permits held. -/
theorem Moved.shedAt (hm : Moved requestTimeout s a s') :
    s'.shedAt = s.shedAt ∨ s'.shedAt = s.shedAt ++ [s.openHandlers] ∧ s.available = 0 := by
  cases hm with
  | shed hstage hfull => exact .inr ⟨rfl, hfull⟩
  | _ => exact .inl rfl

theorem Sound.moved (h₀ : s.Sound) (hm : Moved requestTimeout s a s') : s'.Sound := by
  have hpermits := hm.permits.trans h₀.permits
  have hshed : ∀ n ∈ s'.shedAt, n = maxConcurrent := by
    obtain hsame | ⟨hadded, hfull⟩ := hm.shedAt
    · rw [hsame]
      exact h₀.shed
    · intro n hn
      rw [hadded, List.mem_append, List.mem_singleton] at hn
      obtain hn | rfl := hn
      · exact h₀.shed n hn
      · rw [← h₀.permits, hfull, Nat.zero_add]
  have hhandlers : ∀ h ∈ s'.handlers, h.Sound :=
    hm.forall_handlers h₀.handlers (Handler.sound_accepted s.now) fun _ _ h hm => h.moved hm
  cases hm with
  | cancelled | admitted | shed | handled | counted =>
      exact ⟨hpermits, hshed, hhandlers, h₀.accepting, h₀.backingOff, h₀.stopped⟩
  | stopped hstage =>
      refine ⟨hpermits, hshed, hhandlers, fun hafter => ?_, fun _ hafter => ?_,
        fun _ => h₀.accepting hstage⟩
      · cases hafter
      · cases hafter
  | failed hstage =>
      refine ⟨hpermits, hshed, hhandlers, fun hafter => ?_, fun wakeAt hafter => ?_,
        fun hafter => ?_⟩
      · cases hafter
      · cases hafter
        have hrate := h₀.accepting hstage
        exact ⟨by rw [Nat.mul_succ]; omega, Nat.le_refl _⟩
      · cases hafter
  | woken wakeAt hstage hdue =>
      refine ⟨hpermits, hshed, hhandlers, fun _ => ?_, fun _ hafter => ?_, fun hafter => ?_⟩
      · exact Nat.le_trans (h₀.backingOff wakeAt hstage).1 hdue
      · cases hafter
      · cases hafter
  | ticked =>
      refine ⟨hpermits, hshed, hhandlers, fun hafter => ?_, fun wakeAt hafter => ?_,
        fun hafter => ?_⟩
      · exact Nat.le_succ_of_le (h₀.accepting hafter)
      · obtain ⟨hrate, hwake⟩ := h₀.backingOff wakeAt hafter
        exact ⟨hrate, Nat.le_trans hwake (by dsimp only; omega)⟩
      · exact Nat.le_succ_of_le (h₀.stopped hafter)

/-- The accepts have failed at most once in each backoff. -/
theorem Sound.acceptErrors_le (h₀ : s.Sound) :
    acceptBackoff * s.acceptErrors ≤ s.now + acceptBackoff := by
  cases hstage : s.stage with
  | accepting => exact Nat.le_add_right_of_le (h₀.accepting hstage)
  | backingOff wakeAt =>
      obtain ⟨hrate, hwake⟩ := h₀.backingOff wakeAt hstage
      exact Nat.le_trans hrate hwake
  | stopped => exact Nat.le_add_right_of_le (h₀.stopped hstage)

/-- The time by which the server has stopped, once its token was cancelled. -/
def stopBound (s : HealthServer) (origin : Nat) : Nat :=
  origin + acceptBackoff * (s.lateErrors + 1)

/-- No request is read beyond its timeout, and the server does not outlive its token for long. -/
structure Timely (requestTimeout : Nat) (s : HealthServer) : Prop where
  handlers : ∀ h ∈ s.handlers, h.Timely requestTimeout s.now
  due : ∀ wakeAt, s.stage = .backingOff wakeAt → s.now ≤ wakeAt
  accepting : ∀ origin, s.cancelledAt = some origin → s.stage = .accepting →
    s.now ≤ s.stopBound origin
  backingOff : ∀ origin wakeAt, s.cancelledAt = some origin → s.stage = .backingOff wakeAt →
    wakeAt ≤ s.stopBound origin

theorem timely_start (m : Metrics) : (start m).Timely requestTimeout := by
  constructor
  · intro h hmem
    cases hmem
  · intro wakeAt hstage
    cases hstage
  · intro origin hcancelled
    cases hcancelled
  · intro origin wakeAt hcancelled
    cases hcancelled

theorem not_urgent_handlers (hurgent : s.urgent requestTimeout = false) :
    ∀ h ∈ s.handlers, h.overdue requestTimeout s.now = false := by
  intro h hmem
  have hall := (Bool.or_eq_false_iff.mp hurgent).2
  exact Bool.eq_false_iff.mpr (List.any_eq_false.mp hall h hmem)

theorem Timely.cancelled (h₀ : s.Timely requestTimeout) (hsound : s.Sound) :
    Timely requestTimeout { s with cancelledAt := some (s.cancelledAt.getD s.now) } := by
  refine ⟨h₀.handlers, h₀.due, fun origin horigin hstage => ?_,
    fun origin wakeAt horigin hstage => ?_⟩
  · cases hbefore : s.cancelledAt with
    | none =>
        simp only [hbefore, Option.getD_none, Option.some.injEq] at horigin
        exact horigin ▸ Nat.le_add_right _ _
    | some at' =>
        simp only [hbefore, Option.getD_some, Option.some.injEq] at horigin
        exact h₀.accepting origin (horigin ▸ hbefore) hstage
  · cases hbefore : s.cancelledAt with
    | none =>
        simp only [hbefore, Option.getD_none, Option.some.injEq] at horigin
        have hwake := (hsound.backingOff wakeAt hstage).2
        simp only [stopBound, ← horigin, Nat.mul_succ]
        omega
    | some at' =>
        simp only [hbefore, Option.getD_some, Option.some.injEq] at horigin
        exact h₀.backingOff origin wakeAt (horigin ▸ hbefore) hstage

theorem Timely.failed (h₀ : s.Timely requestTimeout) (hstage : s.stage = .accepting) :
    Timely requestTimeout { s with
      stage := .backingOff (s.now + acceptBackoff)
      acceptErrors := s.acceptErrors + 1
      lateErrors := s.lateErrors + if s.cancelledAt = none then 0 else 1 } := by
  refine ⟨h₀.handlers, fun wakeAt hafter => ?_, fun origin _ hafter => ?_,
    fun origin wakeAt horigin hafter => ?_⟩
  · cases hafter
    exact Nat.le_add_right _ _
  · cases hafter
  · cases hafter
    -- one more failure pays for one more sleep
    have hlate : s.cancelledAt ≠ none := by
      rw [show s.cancelledAt = some origin from horigin]
      exact Option.some_ne_none origin
    have hnow := h₀.accepting origin horigin hstage
    rw [if_neg hlate]
    simp only [stopBound, Nat.mul_succ] at hnow ⊢
    omega

theorem Timely.ticked (h₀ : s.Timely requestTimeout) (hurgent : s.urgent requestTimeout = false) :
    Timely requestTimeout { s with now := s.now + 1 } := by
  have hloop := (Bool.or_eq_false_iff.mp hurgent).1
  refine ⟨fun h hmem => Handler.Timely.tick (not_urgent_handlers hurgent h hmem),
    fun wakeAt hafter => ?_, fun origin horigin hafter => ?_, h₀.backingOff⟩
  · rw [show s.stage = .backingOff wakeAt from hafter, decide_eq_false_iff_not] at hloop
    exact Nat.lt_of_not_le hloop
  · have hnone : s.cancelledAt = some origin := horigin
    rw [show s.stage = .accepting from hafter, hnone] at hloop
    cases hloop

/-- One prompt step. -/
theorem timely_step (hsound : s.Sound) (h₀ : s.Timely requestTimeout)
    (hprompt : s.Prompt requestTimeout a) (hs : s.step requestTimeout a = some s') :
    s'.Timely requestTimeout := by
  have hm := moved_of_step hs
  have hhandlers : ∀ h ∈ s'.handlers, h.Timely requestTimeout s.now :=
    hm.forall_handlers h₀.handlers (Handler.timely_accepted s.now) fun _ _ h hm => h.moved hm
  cases hm with
  | ticked htime => exact h₀.ticked (hprompt htime)
  | cancelled => exact h₀.cancelled hsound
  | failed hstage => exact h₀.failed hstage
  | admitted | shed | handled | counted =>
      exact ⟨hhandlers, h₀.due, h₀.accepting, h₀.backingOff⟩
  | stopped hstage =>
      refine ⟨h₀.handlers, fun _ hafter => ?_, fun _ _ hafter => ?_, fun _ _ _ hafter => ?_⟩
      · cases hafter
      · cases hafter
      · cases hafter
  | woken wakeAt hstage hdue =>
      refine ⟨h₀.handlers, fun _ hafter => ?_, fun origin horigin _ => ?_,
        fun _ _ _ hafter => ?_⟩
      · cases hafter
      · exact Nat.le_trans (h₀.due wakeAt hstage) (h₀.backingOff origin wakeAt horigin hstage)
      · cases hafter

/-- Once its token was cancelled a timely server runs on for one backoff after each failure. -/
theorem Timely.stop_le (h₀ : s.Timely requestTimeout) {origin : Nat}
    (horigin : s.cancelledAt = some origin) (hrunning : s.stage ≠ .stopped) :
    s.now ≤ s.stopBound origin := by
  cases hstage : s.stage with
  | accepting => exact h₀.accepting origin horigin hstage
  | backingOff wakeAt =>
      exact Nat.le_trans (h₀.due wakeAt hstage) (h₀.backingOff origin wakeAt horigin hstage)
  | stopped => exact absurd hstage hrunning

/-- In every prompt run at most 64 connections are open, and one is shed only beside 64 others.
No open one is read from beyond the request timeout, so that a client that says nothing gives
its permit back. What a handler has sent is the beginning of the answer to what it has read,
with the registry as it was when the head was complete. The accepts fail at most once in each
backoff, and the server stops one backoff after its token was cancelled, and after each accept
that fails from then on. -/
theorem served_within_bounds (requestTimeout : Nat) (m : Metrics) (labels : List HealthAction)
    (hprompt : Along (step requestTimeout) (fun s a => s.Prompt requestTimeout a) (start m)
      labels) :
    Always (step requestTimeout) (fun s =>
      s.available + s.openHandlers = maxConcurrent ∧ (∀ n ∈ s.shedAt, n = maxConcurrent) ∧
      (∀ h ∈ s.handlers,
        (∀ since, h.stage = .reading since → s.now ≤ since + requestTimeout) ∧
        (h.sent ≠ [] → ∃ m' left, h.shown = some m' ∧
          handleConn m' h.reads = .answered (h.sent ++ left))) ∧
      acceptBackoff * s.acceptErrors ≤ s.now + acceptBackoff ∧
      (∀ origin, s.cancelledAt = some origin → s.stage ≠ .stopped →
        s.now ≤ origin + acceptBackoff * (s.lateErrors + 1))) (start m) labels := by
  have hinv : Always (step requestTimeout) (fun s => s.Sound ∧ s.Timely requestTimeout)
      (start m) labels := by
    refine always_of_along (fun s a s' h hp hs => ?_) ⟨sound_start m, timely_start m⟩ hprompt
    exact ⟨h.1.moved (moved_of_step hs), timely_step h.1 h.2 hp hs⟩
  refine hinv.mono ?_
  rintro s ⟨hsound, htimely⟩
  refine ⟨hsound.permits, hsound.shed, fun h hmem => ⟨htimely.handlers h hmem, ?_⟩,
    hsound.acceptErrors_le, fun origin horigin hrunning => htimely.stop_le horigin hrunning⟩
  exact (hsound.handlers h hmem).sent

/-- One client says nothing and times out, one asks for `/healthz` in two reads. -/
def twoClients : List HealthAction :=
  [.connect, .connect, .handler 1 (.read (.ok (asBytes "GET /healthz HTTP/1.1\r\n"))), .tick,
    .handler 0 .timeout, .handler 1 (.read (.ok (asBytes "\r\n"))), .handler 1 (.write 15),
    .cancel, .acceptFails] ++ List.replicate 100 .tick ++ [.wake, .handler 1 .close, .stop]

theorem served_within_bounds_twoClients :
    ((exec (step 1) (start .new) twoClients).map fun s =>
      (s.now, s.stage, s.handlers.map Handler.sent)) =
        some (101, .stopped, [[], asBytes "HTTP/1.1 200 OK"]) ∧
      Always (step 1) (fun s =>
        s.available + s.openHandlers = maxConcurrent ∧ (∀ n ∈ s.shedAt, n = maxConcurrent) ∧
        (∀ h ∈ s.handlers,
          (∀ since, h.stage = .reading since → s.now ≤ since + 1) ∧
          (h.sent ≠ [] → ∃ m' left, h.shown = some m' ∧
            handleConn m' h.reads = .answered (h.sent ++ left))) ∧
        acceptBackoff * s.acceptErrors ≤ s.now + acceptBackoff ∧
        (∀ origin, s.cancelledAt = some origin → s.stage ≠ .stopped →
          s.now ≤ origin + acceptBackoff * (s.lateErrors + 1))) (start .new) twoClients :=
  ⟨by decide +kernel, served_within_bounds 1 .new twoClients (by decide +kernel)⟩

end HealthServer

end ZenohBridge
