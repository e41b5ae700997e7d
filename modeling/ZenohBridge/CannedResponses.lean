import ZenohBridge.Foundation.Search
import ZenohBridge.ResponseFraming

/-!
# The canned error responses

A name or a reason that a client has chosen is written into the body of an error response.
Whatever it contains, the head of the response ends before it: no line of the head has a
carriage return, so the first blank line is the one of the template. The length that the head
gives is the number of bytes of the body, so a reader is left with the bytes that followed.
-/

namespace ZenohBridge

open Search

section Reader

/-- The lines of a head, without their ends. -/
def headLines : Bytes → List Bytes
  | [] => [[]]
  | 13 :: 10 :: rest => [] :: headLines rest
  | b :: rest =>
      match headLines rest with
      | [] => [[b]]
      | line :: lines => (b :: line) :: lines

/-- A message with a body of known length. -/
structure FramedMessage where
  status : Bytes
  fields : List (Bytes × Bytes)
  body : Bytes
  deriving DecidableEq, Repr

/-- The first message of a stream and what follows it: the head up to the first blank line, and
as many bytes after it as the one `Content-Length` of the head says. -/
def readMessage (stream : Bytes) : Option (FramedMessage × Bytes) := do
  let (head, rest) ← cut crlfCrlf stream
  let lines := headLines head
  match fieldValues "content-length" lines.tail with
  | [value] =>
      let length ← parseDecimal value
      if length ≤ rest.length then
        some (⟨lines.headD [], lines.tail.map field, rest.take length⟩, rest.drop length)
      else none
  | _ => none

/-- A line and further lines, each after the end of the one before. -/
def joinLines (line : Bytes) : List Bytes → Bytes
  | [] => line
  | next :: lines => line ++ 13 :: 10 :: joinLines next lines

/-- A line of a head that does not end it. -/
structure IsHeadLine (line : Bytes) : Prop where
  nonempty : line ≠ []
  noReturn : (13 : UInt8) ∉ line

variable {line rest : Bytes} {lines : List Bytes}

theorem headLines_cons {b : UInt8} (h : b ≠ 13) {text : Bytes}
    (hlines : headLines text = line :: lines) :
    headLines (b :: text) = (b :: line) :: lines := by
  rw [headLines.eq_def]
  split
  · simp_all
  · simp_all
  · simp_all

/-- A text without a carriage return belongs to one line. -/
theorem headLines_append (h : (13 : UInt8) ∉ line) (hrest : headLines rest = [] :: lines) :
    headLines (line ++ rest) = line :: lines := by
  induction line with
  | nil => exact hrest
  | cons b line ih =>
      rw [List.mem_cons, not_or] at h
      exact headLines_cons (Ne.symm h.1) (ih h.2)

/-- A head is split where its lines end. -/
theorem headLines_joinLines (h : ∀ l ∈ line :: lines, (13 : UInt8) ∉ l) :
    headLines (joinLines line lines) = line :: lines := by
  induction lines generalizing line with
  | nil =>
      have hlast : headLines (line ++ []) = [line] :=
        headLines_append (h line List.mem_cons_self) rfl
      rwa [List.append_nil] at hlast
  | cons next lines ih =>
      obtain ⟨hline, hmore⟩ := List.forall_mem_cons.mp h
      have hnext : headLines (13 :: 10 :: joinLines next lines) = [] :: next :: lines := by
        rw [headLines, ih hmore]
      exact headLines_append hline hnext

theorem exists_joinLines_cons (c : UInt8) (text : Bytes) (lines : List Bytes) :
    ∃ after, joinLines (c :: text) lines = c :: after := by
  cases lines with
  | nil => exact ⟨_, rfl⟩
  | cons => exact ⟨_, rfl⟩

/-- No blank line stands in a head or across its end. -/
theorem not_crlfCrlf_joinLines (h : ∀ l ∈ line :: lines, IsHeadLine l) :
    ¬ crlfCrlf <:+: joinLines line lines ++ crlfCrlf.dropLast := by
  induction lines generalizing line with
  | nil =>
      intro hfound
      have hend := (cons_infix_append_iff (h line List.mem_cons_self).noReturn).mp hfound
      exact absurd hend.length_le (by decide)
  | cons next lines ih =>
      obtain ⟨hline, hmore⟩ := List.forall_mem_cons.mp h
      obtain ⟨hne, hreturn⟩ := hmore next List.mem_cons_self
      intro hfound
      rw [joinLines, List.append_assoc] at hfound
      have hend := (cons_infix_append_iff hline.noReturn).mp hfound
      rw [List.cons_append, List.cons_append] at hend
      obtain hstarts | hlater := List.infix_cons_iff.mp hend
      · -- the line after the end is not empty
        obtain ⟨c, text, rfl⟩ := List.exists_cons_of_ne_nil hne
        obtain ⟨after, hafter⟩ := exists_joinLines_cons c text lines
        rw [hafter] at hstarts
        have hc : 13 = c := (List.cons_prefix_cons.mp (List.cons_prefix_cons.mp
          (List.cons_prefix_cons.mp hstarts).2).2).1
        simp [hc] at hreturn
      · obtain hstarts | hlater := List.infix_cons_iff.mp hlater
        · exact absurd (List.cons_prefix_cons.mp hstarts).1 (by decide)
        · exact ih hmore hlater

theorem headBytes_eq (line : Bytes) (lines : List Bytes) :
    headBytes (line :: lines) = joinLines line lines ++ crlfCrlf := by
  induction lines generalizing line with
  | nil => simp [headBytes, joinLines, crlfCrlf]
  | cons next lines ih =>
      have hnext := ih next
      simp only [headBytes, List.flatMap_cons, List.append_assoc] at hnext ⊢
      rw [hnext, joinLines]
      simp

/-- A message whose head gives the length of its body. -/
theorem readMessage_of_cut {stream head status body next : Bytes}
    (hcut : cut crlfCrlf stream = some (head, body ++ next))
    (hlines : headLines head = status :: lines)
    (hlength : fieldValues "content-length" lines = [decimal body.length]) :
    readMessage stream = some (⟨status, lines.map field, body⟩, next) := by
  have hle : body.length ≤ (body ++ next).length := by simp
  simp only [readMessage, hcut, Option.bind_eq_bind, Option.bind_some, hlines, List.tail_cons,
    List.headD_cons, hlength, parseDecimal_decimal, if_pos hle, List.take_left, List.drop_left]

/-- A reader finds the end of a head where it is. -/
theorem cut_headBytes (h : ∀ l ∈ line :: lines, IsHeadLine l) (rest : Bytes) :
    cut crlfCrlf (headBytes (line :: lines) ++ rest) = some (joinLines line lines, rest) := by
  rw [headBytes_eq]
  exact cut_append (by decide) (not_crlfCrlf_joinLines h)

end Reader

section Canned

/-- The lines of a canned response. -/
def cannedLines (status : String) (body : Bytes) (close : Bool) : List Bytes :=
  [asBytes status, asBytes "Content-Type: text/plain",
    asBytes "Content-Length: " ++ decimal body.length,
    asBytes (if close then "Connection: close" else "Connection: keep-alive")]

/-- The fields of a canned response. -/
def cannedFields (body : Bytes) (close : Bool) : List (Bytes × Bytes) :=
  [(asBytes "content-type", asBytes "text/plain"),
    (asBytes "content-length", decimal body.length),
    (asBytes "connection", asBytes (if close then "close" else "keep-alive"))]

/-- A stream that starts with a canned response: up to its first blank line it has the lines
of the template, and a reader takes the body from it and is left with what followed. -/
structure StartsCanned (stream : Bytes) (status : String) (body : Bytes) (close : Bool)
    (next : Bytes) : Prop where
  head : (cut crlfCrlf stream).map (fun parts => (headLines parts.1, parts.2)) =
    some (cannedLines status body close, body ++ next)
  message : readMessage stream =
    some (⟨asBytes status, cannedFields body close, body⟩, next)

variable {status : String} {body : Bytes} {close : Bool}

theorem cannedLines_ok (h : IsHeadLine (asBytes status)) :
    ∀ l ∈ cannedLines status body close, IsHeadLine l := by
  have htype : IsHeadLine (asBytes "Content-Type: text/plain") :=
    ⟨by decide +kernel, by decide +kernel⟩
  have hlength : IsHeadLine (asBytes "Content-Length: " ++ decimal body.length) := by
    constructor
    · intro hempty
      exact decimal_ne_nil _ (List.append_eq_nil_iff.mp hempty).2
    · rw [List.mem_append, not_or]
      constructor
      · decide +kernel
      · intro hmem
        exact absurd (toNat_of_mem_decimal hmem).1 (by decide)
  have hconnection : IsHeadLine
      (asBytes (if close then "Connection: close" else "Connection: keep-alive")) := by
    cases close with
    | true => exact ⟨by decide +kernel, by decide +kernel⟩
    | false => exact ⟨by decide +kernel, by decide +kernel⟩
  simp only [cannedLines, List.forall_mem_cons, List.not_mem_nil, false_implies, implies_true,
    and_true]
  exact ⟨h, htype, hlength, hconnection⟩

theorem cannedLines_fields :
    (cannedLines status body close).tail.map field = cannedFields body close := by
  have htype : field (asBytes "Content-Type: text/plain") =
      (asBytes "content-type", asBytes "text/plain") := by decide +kernel
  have hconnection : field
      (asBytes (if close then "Connection: close" else "Connection: keep-alive")) =
        (asBytes "connection", asBytes (if close then "close" else "keep-alive")) := by
    cases close with
    | true => decide +kernel
    | false => decide +kernel
  simp only [cannedLines, cannedFields, List.tail_cons, List.map_cons, List.map_nil, htype,
    field_contentLength, hconnection]

/-- A name is looked up among the fields. -/
theorem fieldValues_eq (name : String) (lines : List Bytes) :
    fieldValues name lines = (lines.map field).filterMap fun f =>
      if f.1 = asBytes name then some f.2 else none := by
  rw [fieldValues, List.filterMap_map]
  rfl

theorem cannedLines_length :
    fieldValues "content-length" (cannedLines status body close).tail = [decimal body.length] := by
  have hnames : asBytes "content-type" ≠ asBytes "content-length" ∧
      asBytes "connection" ≠ asBytes "content-length" := by decide +kernel
  rw [fieldValues_eq, cannedLines_fields]
  simp only [cannedFields, List.filterMap_cons, List.filterMap_nil, hnames.1, hnames.2, if_false,
    if_true]

/-- A response in the form of the template. -/
theorem startsCanned (h : IsHeadLine (asBytes status)) (body : Bytes) (close : Bool)
    (next : Bytes) :
    StartsCanned (headBytes (cannedLines status body close) ++ body ++ next) status body close
      next := by
  have hok : ∀ l ∈ cannedLines status body close, IsHeadLine l := cannedLines_ok h
  have hcut := cut_headBytes hok (body ++ next)
  have hlines := headLines_joinLines fun l hl => (hok l hl).noReturn
  rw [← List.append_assoc] at hcut
  constructor
  · rw [cannedLines, hcut, Option.map_some, hlines]
  · rw [← @cannedLines_fields status body close]
    exact readMessage_of_cut hcut hlines cannedLines_length

theorem http400Response_eq (reason : String) :
    http400Response reason =
      headBytes (cannedLines "HTTP/1.1 400 Bad Request" (asBytes ("400 Bad Request: " ++ reason))
        true) ++ asBytes ("400 Bad Request: " ++ reason) := by
  have hfront : asBytes "HTTP/1.1 400 Bad Request\r\nContent-Type: text/plain\r\nContent-Length: " =
      asBytes "HTTP/1.1 400 Bad Request" ++ [13, 10] ++ (asBytes "Content-Type: text/plain" ++
        [13, 10]) ++ asBytes "Content-Length: " := by decide +kernel
  have hend : asBytes "\r\nConnection: close\r\n\r\n" =
      [13, 10] ++ (asBytes "Connection: close" ++ [13, 10]) ++ [13, 10] := by decide +kernel
  simp only [http400Response, headBytes, cannedLines, hfront, hend, List.flatMap_cons,
    List.flatMap_nil, List.append_assoc, List.nil_append, if_true]

theorem http502Body_eq (dns : String) (close : Bool) :
    http502Body dns close =
      headBytes (cannedLines "HTTP/1.1 502 Bad Gateway" (badGatewayText dns) close) ++
        badGatewayText dns := by
  have hfront : asBytes "HTTP/1.1 502 Bad Gateway\r\nContent-Type: text/plain\r\nContent-Length: " =
      asBytes "HTTP/1.1 502 Bad Gateway" ++ [13, 10] ++ (asBytes "Content-Type: text/plain" ++
        [13, 10]) ++ asBytes "Content-Length: " := by decide +kernel
  have hend : asBytes "\r\n" = [13, 10] := by decide +kernel
  have hconnection :
      asBytes (if close then "Connection: close\r\n" else "Connection: keep-alive\r\n") =
        asBytes (if close then "Connection: close" else "Connection: keep-alive") ++ [13, 10] := by
    cases close with
    | true => decide +kernel
    | false => decide +kernel
  simp only [http502Body, headBytes, cannedLines, hfront, hend, hconnection, List.flatMap_cons,
    List.flatMap_nil, List.append_assoc, List.nil_append]

theorem http504Response_eq :
    http504Response =
      headBytes (cannedLines "HTTP/1.1 504 Gateway Timeout" (asBytes "504 Gateway Timeout")
        true) ++ asBytes "504 Gateway Timeout" := by
  decide +kernel

end Canned

/-- The canned responses delimit themselves. Whatever the reason or the name and whatever bytes
follow, the first blank line ends the head of the template, its length is that of the body, and
a reader is left with the bytes that followed. -/
theorem canned_responses_delimited (next : Bytes) :
    (∀ reason, StartsCanned (http400Response reason ++ next) "HTTP/1.1 400 Bad Request"
      (asBytes ("400 Bad Request: " ++ reason)) true next) ∧
    (∀ dns, StartsCanned (http502Response dns ++ next) "HTTP/1.1 502 Bad Gateway"
      (badGatewayText dns) true next) ∧
    (∀ dns, StartsCanned (http502ResponseKeepAlive dns ++ next) "HTTP/1.1 502 Bad Gateway"
      (badGatewayText dns) false next) ∧
    StartsCanned (http504Response ++ next) "HTTP/1.1 504 Gateway Timeout"
      (asBytes "504 Gateway Timeout") true next := by
  have hbad : IsHeadLine (asBytes "HTTP/1.1 502 Bad Gateway") :=
    ⟨by decide +kernel, by decide +kernel⟩
  refine ⟨?_, ?_, ?_, ?_⟩
  · intro reason
    rw [http400Response_eq]
    exact startsCanned ⟨by decide +kernel, by decide +kernel⟩ _ true next
  · intro dns
    rw [http502Response, http502Body_eq]
    exact startsCanned hbad _ true next
  · intro dns
    rw [http502ResponseKeepAlive, http502Body_eq]
    exact startsCanned hbad _ false next
  · rw [http504Response_eq]
    exact startsCanned ⟨by decide +kernel, by decide +kernel⟩ _ true next

/-- A reason that looks like a second response. -/
example : (readMessage (http400Response "\r\n\r\nHTTP/1.1 200 OK" ++ [72])).map (·.2) =
    some [72] := by
  decide +kernel

end ZenohBridge
