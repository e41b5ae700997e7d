import ZenohBridge.Foundation.Framer
import ZenohBridge.Transport

/-!
# Responses of the bridge, and how a client frames them

The texts of `http_util` as bytes, and the message framing of RFC 9112 as a client applies
it to what it receives: a machine that is fed the bytes of the responses to one request,
interim ones included, and is done at the end of the final response. The end depends on the
method of the request: the response to a HEAD request ends with its header section.

## Implementation notes

A response that only ends with the connection, a tunnel and a malformed response have no
end in the stream; the machine stays `stuck` there.
-/

namespace ZenohBridge

/-- A number as `format!` writes it. -/
def decimal (n : Nat) : Bytes := (Nat.toDigits 10 n).map fun c => UInt8.ofNat c.toNat

/-- `http_400_response`. -/
def http400Response (reason : String) : Bytes :=
  let body := asBytes ("400 Bad Request: " ++ reason)
  asBytes "HTTP/1.1 400 Bad Request\r\nContent-Type: text/plain\r\nContent-Length: " ++
    decimal body.length ++ asBytes "\r\nConnection: close\r\n\r\n" ++ body

/-- The body of a 502. -/
def badGatewayText (dns : String) : Bytes :=
  asBytes ("502 Bad Gateway: No backend available for " ++ dns)

/-- `http_502_body`. -/
def http502Body (dns : String) (close : Bool) : Bytes :=
  let body := badGatewayText dns
  let connection := if close then "Connection: close\r\n" else "Connection: keep-alive\r\n"
  asBytes "HTTP/1.1 502 Bad Gateway\r\nContent-Type: text/plain\r\nContent-Length: " ++
    decimal body.length ++ asBytes "\r\n" ++ asBytes connection ++ asBytes "\r\n" ++ body

/-- `http_502_response`. -/
def http502Response (dns : String) : Bytes := http502Body dns true

/-- `http_502_response_keep_alive`. -/
def http502ResponseKeepAlive (dns : String) : Bytes := http502Body dns false

/-- `http_504_response`. -/
def http504Response : Bytes :=
  let body := asBytes "504 Gateway Timeout"
  asBytes "HTTP/1.1 504 Gateway Timeout\r\nContent-Type: text/plain\r\nContent-Length: " ++
    decimal body.length ++ asBytes "\r\nConnection: close\r\n\r\n" ++ body

section Grammar

/-- The blanks around a field value. -/
def isBlank (b : UInt8) : Bool := b = 32 || b = 9

def trimBlanks (value : Bytes) : Bytes :=
  ((value.dropWhile isBlank).reverse.dropWhile isBlank).reverse

/-- Field names and codings are compared without case. -/
def lowerByte (b : UInt8) : UInt8 := if 65 ≤ b ∧ b ≤ 90 then b + 32 else b

def isDigitByte (b : UInt8) : Bool := 48 ≤ b && b ≤ 57

/-- A decimal number; nothing else is one. -/
def parseDecimal (digits : Bytes) : Option Nat :=
  if digits ≠ [] ∧ digits.all isDigitByte = true then
    some (digits.foldl (fun n b => 10 * n + (b.toNat - 48)) 0)
  else none

/-- The value of a hexadecimal digit. -/
def hexDigit (b : UInt8) : Option Nat :=
  if isDigitByte b then some (b.toNat - 48)
  else if 97 ≤ lowerByte b ∧ lowerByte b ≤ 102 then some ((lowerByte b).toNat - 87)
  else none

/-- The size at the front of a chunk line; an extension after it is ignored. -/
def chunkSize (line : Bytes) : Option Nat :=
  let digits := trimBlanks (line.takeWhile (· ≠ 59))
  if digits = [] then none
  else digits.foldl (fun n b => n.bind fun n => (hexDigit b).map fun d => 16 * n + d) (some 0)

/-- The name and the value of a field line. -/
def field (line : Bytes) : Bytes × Bytes :=
  ((line.takeWhile (· ≠ 58)).map lowerByte, trimBlanks ((line.dropWhile (· ≠ 58)).drop 1))

/-- The values of all fields with a name. -/
def fieldValues (name : String) (lines : List Bytes) : List Bytes :=
  lines.filterMap fun line => if (field line).1 = asBytes name then some (field line).2 else none

/-- The status code of a status line. -/
def statusCode (line : Bytes) : Option Nat :=
  let code := ((line.dropWhile (· ≠ 32)).drop 1).take 3
  if code.length = 3 then parseDecimal code else none

end Grammar

/-- Where a client is in the responses to one request. A line is kept in reverse. -/
inductive ResponsePart where
  | head (lines : List Bytes) (line : Bytes)
  | fixed (left : Nat)
  | chunkHead (line : Bytes)
  | chunkData (left : Nat)
  | chunkEnd (line : Bytes)
  | trailers (line : Bytes)
  | stuck
  | complete
  deriving DecidableEq

/-- The body length of a final response (RFC 9112 §6.3), as the part that follows its head. -/
def bodyPart (method : Bytes) (status : Nat) (fields : List Bytes) : ResponsePart :=
  if method = asBytes "HEAD" ∨ status = 204 ∨ status = 304 then .complete
  else if method = asBytes "CONNECT" ∧ 200 ≤ status ∧ status < 300 then .stuck
  else
    match fieldValues "transfer-encoding" fields, fieldValues "content-length" fields with
    | [], [] => .stuck
    | [], value :: values =>
        match parseDecimal value with
        | some n =>
            if values.all (· = value) then (if n = 0 then .complete else .fixed n) else .stuck
        | none => .stuck
    | codings, _ =>
        let last := ((codings.getLast?.getD []).reverse.takeWhile (· ≠ 44)).reverse
        if (trimBlanks last).map lowerByte = asBytes "chunked" then .chunkHead [] else .stuck

/-- The part after a complete header section. An interim response is followed by another
one; 101 leaves HTTP. -/
def afterHead (method : Bytes) (lines : List Bytes) : ResponsePart :=
  match lines with
  | [] => .stuck
  | statusLine :: fields =>
      match statusCode statusLine with
      | none => .stuck
      | some status =>
          if status = 101 then .stuck
          else if 100 ≤ status ∧ status < 200 then .head [] []
          else bodyPart method status fields

/-- A client reads one byte. -/
def ResponsePart.step (method : Bytes) : ResponsePart → UInt8 → ResponsePart
  | .head lines line, b =>
      match b, line with
      | 10, 13 :: rest =>
          if rest = [] then afterHead method lines.reverse else .head (rest.reverse :: lines) []
      | b, line => .head lines (b :: line)
  | .fixed left, _ => if left ≤ 1 then .complete else .fixed (left - 1)
  | .chunkHead line, b =>
      match b, line with
      | 10, 13 :: rest =>
          match chunkSize rest.reverse with
          | none => .stuck
          | some 0 => .trailers []
          | some n => .chunkData n
      | b, line => .chunkHead (b :: line)
  | .chunkData left, _ => if left ≤ 1 then .chunkEnd [] else .chunkData (left - 1)
  | .chunkEnd line, b =>
      match b, line with
      | 13, [] => .chunkEnd [13]
      | 10, [13] => .chunkHead []
      | _, _ => .stuck
  | .trailers line, b =>
      match b, line with
      | 10, 13 :: rest => if rest = [] then .complete else .trailers []
      | b, line => .trailers (b :: line)
  | .stuck, _ => .stuck
  | .complete, _ => .complete

/-- The client's framer; its state carries the method of the request. -/
def responseFramer : Framer UInt8 where
  State := Bytes × ResponsePart
  step s b := (s.1, s.2.step s.1 b)
  done s := s.2 = .complete

/-- The responses to a request with this method are expected. -/
def expectResponse (method : Bytes) : responseFramer.State := (method, .head [] [])

/-- The bytes are the response to a request with this method, interim responses before it
included. -/
def Answers (method response : Bytes) : Prop :=
  responseFramer.Reads (expectResponse method) response

instance (method response : Bytes) : Decidable (Answers method response) :=
  inferInstanceAs (Decidable (_ = _))

example : Answers (asBytes "GET") (asBytes ("HTTP/1.1 100 Continue\r\n\r\n" ++
    "HTTP/1.1 200 OK\r\nTransfer-Encoding: chunked\r\n\r\n3\r\nabc\r\n0\r\n\r\n")) := by
  decide +kernel

section Decimal

variable {n : Nat} {b : UInt8} {c : Char}

/-- A decimal digit is one byte. -/
theorem toNat_of_mem_toDigits (h : c ∈ Nat.toDigits 10 n) :
    (UInt8.ofNat c.toNat).toNat = c.toNat ∧ 48 ≤ c.toNat ∧ c.toNat ≤ 57 := by
  have hdigit : c.isDigit = true := Nat.isDigit_of_mem_toDigits (by omega) (by omega) h
  obtain ⟨hlow, hhigh⟩ := Char.isDigit_iff_toNat.mp hdigit
  have hrange : 48 ≤ c.toNat ∧ c.toNat ≤ 57 := ⟨hlow, hhigh⟩
  rw [UInt8.toNat_ofNat']
  omega

theorem toNat_of_mem_decimal (h : b ∈ decimal n) : 48 ≤ b.toNat ∧ b.toNat ≤ 57 := by
  obtain ⟨c, hc, rfl⟩ := List.mem_map.mp h
  obtain ⟨heq, hrange⟩ := toNat_of_mem_toDigits hc
  rwa [heq]

theorem decimal_ne_nil (n : Nat) : decimal n ≠ [] := by
  rw [decimal, ne_eq, List.map_eq_nil_iff]
  exact Nat.toDigits_ne_nil

theorem foldl_decimal (n : Nat) :
    (decimal n).foldl (fun sum b => 10 * sum + (b.toNat - 48)) 0 = n := by
  rw [decimal, List.foldl_map]
  calc (Nat.toDigits 10 n).foldl (fun sum c => 10 * sum + ((UInt8.ofNat c.toNat).toNat - 48)) 0
      = (Nat.toDigits 10 n).foldl (fun sum c => 10 * sum + (c.toNat - 48)) 0 := by
        apply List.foldl_ext
        intro sum c hc
        rw [(toNat_of_mem_toDigits hc).1]
    _ = Nat.ofDigitChars 10 (Nat.toDigits 10 n) 0 := Nat.ofDigitChars_eq_foldl.symm
    _ = n := Nat.ofDigitChars_ten_toDigits

/-- A number is read back as it was written. -/
theorem parseDecimal_decimal (n : Nat) : parseDecimal (decimal n) = some n := by
  have hdigits : (decimal n).all isDigitByte = true := by
    rw [List.all_eq_true]
    intro b hb
    obtain ⟨hlow, hhigh⟩ := toNat_of_mem_decimal hb
    simp only [isDigitByte, Bool.and_eq_true, decide_eq_true_eq, UInt8.le_iff_toNat_le]
    exact ⟨hlow, hhigh⟩
  rw [parseDecimal, if_pos ⟨decimal_ne_nil n, hdigits⟩, foldl_decimal]

/-- A list without blanks at its ends is left as it is. -/
theorem trimBlanks_eq {value : Bytes} (h : ∀ b ∈ value, isBlank b = false) :
    trimBlanks value = value := by
  have hkeep : ∀ bytes : Bytes, (∀ b ∈ bytes, isBlank b = false) →
      bytes.dropWhile isBlank = bytes := by
    intro bytes hbytes
    cases bytes with
    | nil => rfl
    | cons b rest => rw [List.dropWhile_cons, if_neg (by simp [hbytes b])]
  rw [trimBlanks, hkeep value h, hkeep, List.reverse_reverse]
  intro b hb
  exact h b (List.mem_reverse.mp hb)

theorem isBlank_of_mem_decimal (h : b ∈ decimal n) : isBlank b = false := by
  obtain ⟨hlow, -⟩ := toNat_of_mem_decimal h
  have hspace : b ≠ 32 := by rintro rfl; exact absurd hlow (by decide)
  have htab : b ≠ 9 := by rintro rfl; exact absurd hlow (by decide)
  simp only [isBlank, hspace, htab, decide_false, Bool.or_self]

end Decimal

section HeaderSection

variable {method line : Bytes} {lines : List Bytes}

/-- A header section as it stands on the wire. -/
def headBytes (lines : List Bytes) : Bytes := lines.flatMap (· ++ [13, 10]) ++ [13, 10]

/-- A byte other than the end of a line is kept. -/
theorem step_head {b : UInt8} (h : b ≠ 10) (acc : Bytes) :
    (ResponsePart.head lines acc).step method b = .head lines (b :: acc) := by
  simp only [ResponsePart.step]
  split
  · exact absurd rfl h
  · rfl

theorem feeds_text (h : (10 : UInt8) ∉ line) (acc : Bytes) :
    responseFramer.Feeds (method, .head lines acc) line
      (method, .head lines (line.reverse ++ acc)) := by
  induction line generalizing acc with
  | nil => exact .nil _
  | cons b line ih =>
      rw [List.mem_cons, not_or] at h
      have hstep : responseFramer.Feeds (method, .head lines acc) [b]
          (method, .head lines (b :: acc)) := by
        rw [← step_head (Ne.symm h.1)]
        exact .step rfl b
      have hline := hstep.trans (ih h.2 (b :: acc))
      rwa [List.singleton_append, ← List.singleton_append (l := acc), ← List.append_assoc,
        ← List.reverse_cons] at hline

/-- The end of a line. -/
theorem feeds_end (line : Bytes) :
    responseFramer.Feeds (method, .head lines line.reverse) [13, 10]
      (method, if line = [] then afterHead method lines.reverse else .head (line :: lines) []) := by
  have hcr : responseFramer.Feeds (method, .head lines line.reverse) [13]
      (method, .head lines (13 :: line.reverse)) := .step rfl 13
  have hstep : (ResponsePart.head lines (13 :: line.reverse)).step method 10 =
      if line = [] then afterHead method lines.reverse else .head (line :: lines) [] := by
    simp only [ResponsePart.step, List.reverse_eq_nil_iff, List.reverse_reverse]
  have hlf : responseFramer.Feeds (method, .head lines (13 :: line.reverse)) [10]
      (method, if line = [] then afterHead method lines.reverse
        else .head (line :: lines) []) := by
    rw [← hstep]
    exact .step rfl 10
  exact hcr.trans hlf

theorem feeds_line (h : line ≠ [] ∧ (10 : UInt8) ∉ line) :
    responseFramer.Feeds (method, .head lines []) (line ++ [13, 10])
      (method, .head (line :: lines) []) := by
  have htext := @feeds_text method line lines h.2 []
  rw [List.append_nil] at htext
  have hend := @feeds_end method lines line
  rw [if_neg h.1] at hend
  exact htext.trans hend

theorem feeds_lines (h : ∀ line ∈ lines, line ≠ [] ∧ (10 : UInt8) ∉ line) (before : List Bytes) :
    responseFramer.Feeds (method, .head before []) (lines.flatMap (· ++ [13, 10]))
      (method, .head (lines.reverse ++ before) []) := by
  induction lines generalizing before with
  | nil => exact .nil _
  | cons line lines ih =>
      obtain ⟨hline, hlines⟩ := List.forall_mem_cons.mp h
      rw [List.flatMap_cons, List.reverse_cons, List.append_assoc lines.reverse,
        List.singleton_append]
      exact (feeds_line hline).trans (ih hlines (line :: before))

/-- The header section is read up to its end. -/
theorem feeds_headBytes (h : ∀ line ∈ lines, line ≠ [] ∧ (10 : UInt8) ∉ line) :
    responseFramer.Feeds (expectResponse method) (headBytes lines)
      (method, afterHead method lines) := by
  have hlines := @feeds_lines method lines h []
  have hend := @feeds_end method lines.reverse []
  rw [if_pos rfl, List.reverse_reverse] at hend
  rw [List.append_nil] at hlines
  exact hlines.trans hend

/-- A body of known length is read up to its end. -/
theorem feeds_fixed {body : Bytes} (h : body ≠ []) :
    responseFramer.Feeds (method, .fixed body.length) body (method, .complete) := by
  induction body with
  | nil => exact absurd rfl h
  | cons b body ih =>
      by_cases hlast : body = []
      · rw [hlast]
        exact .step rfl b
      · have hlength : ¬ (b :: body).length ≤ 1 := by
          have hpos := List.length_pos_iff.mpr hlast
          rw [List.length_cons]
          omega
        have hstep : (ResponsePart.fixed (b :: body).length).step method b =
            .fixed body.length := if_neg hlength
        have hbyte : responseFramer.Feeds (method, .fixed (b :: body).length) [b]
            (method, .fixed body.length) := by
          rw [← hstep]
          exact .step rfl b
        exact hbyte.trans (ih hlast)

end HeaderSection

section BadGateway

/-- The header section of the 502 that keeps the connection. -/
def badGatewayLines (dns : String) : List Bytes :=
  [asBytes "HTTP/1.1 502 Bad Gateway", asBytes "Content-Type: text/plain",
    asBytes "Content-Length: " ++ decimal (badGatewayText dns).length,
    asBytes "Connection: keep-alive"]

theorem http502ResponseKeepAlive_eq (dns : String) :
    http502ResponseKeepAlive dns = headBytes (badGatewayLines dns) ++ badGatewayText dns := by
  have hfront : asBytes "HTTP/1.1 502 Bad Gateway\r\nContent-Type: text/plain\r\nContent-Length: " =
      asBytes "HTTP/1.1 502 Bad Gateway" ++ [13, 10] ++ (asBytes "Content-Type: text/plain" ++
        [13, 10]) ++ asBytes "Content-Length: " := by decide +kernel
  have hend : asBytes "\r\n" = [13, 10] := by decide +kernel
  have hkeep : asBytes "Connection: keep-alive\r\n" =
      asBytes "Connection: keep-alive" ++ [13, 10] := by decide +kernel
  simp only [http502ResponseKeepAlive, http502Body, headBytes, badGatewayLines, hfront, hend,
    hkeep, List.flatMap_cons, List.flatMap_nil, List.append_assoc, List.nil_append,
    Bool.false_eq_true, if_false]

theorem badGatewayLines_ok (dns : String) :
    ∀ line ∈ badGatewayLines dns, line ≠ [] ∧ (10 : UInt8) ∉ line := by
  have hlength : asBytes "Content-Length: " ++ decimal (badGatewayText dns).length ≠ [] ∧
      (10 : UInt8) ∉ asBytes "Content-Length: " ++ decimal (badGatewayText dns).length := by
    constructor
    · intro h
      exact decimal_ne_nil _ (List.append_eq_nil_iff.mp h).2
    · rw [List.mem_append, not_or]
      constructor
      · decide +kernel
      · intro h
        exact absurd (toNat_of_mem_decimal h).1 (by decide)
  simp only [badGatewayLines, List.forall_mem_cons, List.not_mem_nil, false_implies, implies_true,
    and_true]
  exact ⟨by decide +kernel, by decide +kernel, hlength, by decide +kernel⟩

theorem badGatewayText_ne_nil (dns : String) : badGatewayText dns ≠ [] := by
  apply asBytes_ne_nil
  intro h
  exact absurd (String.append_eq_empty_iff.mp h).1 (by decide)

/-- The colon separates the name and the value of a field. -/
theorem field_append {name : Bytes} (h : (58 : UInt8) ∉ name) (value : Bytes) :
    field (name ++ 58 :: value) = (name.map lowerByte, trimBlanks value) := by
  have hname : ∀ b ∈ name, decide (b ≠ 58) = true := by
    intro b hb
    rw [decide_eq_true_eq]
    rintro rfl
    exact h hb
  rw [field, List.takeWhile_append_of_pos hname, List.dropWhile_append_of_pos hname]
  simp

theorem field_contentLength (n : Nat) :
    field (asBytes "Content-Length: " ++ decimal n) = (asBytes "content-length", decimal n) := by
  have hsplit : asBytes "Content-Length: " = asBytes "Content-Length" ++ [58, 32] := by
    decide +kernel
  have hname : (asBytes "Content-Length").map lowerByte = asBytes "content-length" := by
    decide +kernel
  have htrim : trimBlanks (32 :: decimal n) = decimal n :=
    trimBlanks_eq fun b hb => isBlank_of_mem_decimal hb
  rw [hsplit, List.append_assoc, List.cons_append, field_append (by decide +kernel), hname]
  exact congrArg _ htrim

/-- The fields of the 502 that decide its length. -/
theorem fieldValues_badGateway (dns : String) :
    fieldValues "transfer-encoding" (badGatewayLines dns).tail = [] ∧
      fieldValues "content-length" (badGatewayLines dns).tail =
        [decimal (badGatewayText dns).length] := by
  have htype : (field (asBytes "Content-Type: text/plain")).1 = asBytes "content-type" := by
    decide +kernel
  have hconnection : (field (asBytes "Connection: keep-alive")).1 = asBytes "connection" := by
    decide +kernel
  have hnames : asBytes "content-type" ≠ asBytes "transfer-encoding" ∧
      asBytes "content-length" ≠ asBytes "transfer-encoding" ∧
      asBytes "connection" ≠ asBytes "transfer-encoding" ∧
      asBytes "content-type" ≠ asBytes "content-length" ∧
      asBytes "connection" ≠ asBytes "content-length" := by decide +kernel
  obtain ⟨h1, h2, h3, h4, h5⟩ := hnames
  constructor
  · simp only [badGatewayLines, List.tail_cons, fieldValues, List.filterMap_cons,
      List.filterMap_nil, htype, hconnection, field_contentLength, h1, h2, h3, if_false]
  · simp only [badGatewayLines, List.tail_cons, fieldValues, List.filterMap_cons,
      List.filterMap_nil, htype, hconnection, field_contentLength, h4, h5, if_false, if_true]

/-- The client takes the length of the 502 from its header, except after HEAD. -/
theorem afterHead_badGateway (method : Bytes) (dns : String) :
    afterHead method (badGatewayLines dns) =
      if method = asBytes "HEAD" then .complete else .fixed (badGatewayText dns).length := by
  have hstatus : statusCode (asBytes "HTTP/1.1 502 Bad Gateway") = some 502 := by decide +kernel
  have hafter : afterHead method (badGatewayLines dns) =
      bodyPart method 502 (badGatewayLines dns).tail := by
    simp [afterHead, badGatewayLines, hstatus]
  have hlength : (badGatewayText dns).length ≠ 0 := by
    rw [ne_eq, List.length_eq_zero_iff]
    exact badGatewayText_ne_nil dns
  obtain ⟨hcoding, hvalues⟩ := fieldValues_badGateway dns
  rw [hafter, bodyPart, hcoding, hvalues]
  simp [parseDecimal_decimal, hlength]

/-- The 502 that keeps the connection ends where the client expects it to, except after
HEAD. -/
theorem answers_http502ResponseKeepAlive {method : Bytes} (h : method ≠ asBytes "HEAD")
    (dns : String) : Answers method (http502ResponseKeepAlive dns) := by
  have hhead := @feeds_headBytes method (badGatewayLines dns) (badGatewayLines_ok dns)
  rw [afterHead_badGateway, if_neg h] at hhead
  have hwhole := hhead.trans (feeds_fixed (badGatewayText_ne_nil dns))
  have htake := hwhole.take rfl []
  rwa [List.append_nil, ← http502ResponseKeepAlive_eq] at htake

/-- After HEAD its body is left in the stream. -/
theorem take_http502ResponseKeepAlive_head (dns : String) :
    responseFramer.take (expectResponse (asBytes "HEAD")) (http502ResponseKeepAlive dns) =
      some (headBytes (badGatewayLines dns), badGatewayText dns) := by
  have hhead := @feeds_headBytes (asBytes "HEAD") (badGatewayLines dns) (badGatewayLines_ok dns)
  rw [afterHead_badGateway, if_pos rfl] at hhead
  rw [http502ResponseKeepAlive_eq]
  exact hhead.take rfl _

end BadGateway

end ZenohBridge
