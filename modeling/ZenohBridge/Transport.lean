import ZenohBridge.Relay

/-!
# The readers of the two transports

A relay reads its socket through `TransportReader::read_data`: a non-empty chunk is data,
the empty chunk is a clean end, an error is an error. TCP hands over what the socket read;
WebSocket skips what carries no data and takes a close frame for the end.

The abstract layer is `Yields`: the chunks a reader gives out until it ends, and how it
ends. Each reader is connected to it by one theorem for every input of its transport.
-/

namespace ZenohBridge

/-- How the input of a socket ends. -/
inductive StreamEnd where
  | clean
  | failed
  deriving DecidableEq, Repr

/-- `TransportReader`: one call of `read_data` gives a chunk, or nothing on an error. -/
class TransportReader (ρ : Type) where
  readData : ρ → Option Bytes × ρ

export TransportReader (readData)

/-- The reader gives out the chunks one by one and then ends. The empty chunk is never
among them: it is the end. -/
inductive Yields {ρ : Type} [TransportReader ρ] : ρ → List Bytes → StreamEnd → Prop
  | data {r r' : ρ} {chunk : Bytes} {chunks : List Bytes} {ending : StreamEnd}
      (read : readData r = (some chunk, r')) (nonempty : chunk ≠ [])
      (tail : Yields r' chunks ending) : Yields r (chunk :: chunks) ending
  | eof {r r' : ρ} (read : readData r = (some [], r')) : Yields r [] .clean
  | error {r r' : ρ} (read : readData r = (none, r')) : Yields r [] .failed

/-- No chunk that a reader gives out as data is empty. -/
theorem Yields.nil_notMem {ρ : Type} [TransportReader ρ] {r : ρ} {chunks : List Bytes}
    {ending : StreamEnd} (h : Yields r chunks ending) : [] ∉ chunks := by
  induction h with
  | data read nonempty tail ih =>
      intro hmem
      rcases List.mem_cons.mp hmem with hhead | htail
      · exact nonempty hhead.symm
      · exact ih htail
  | eof read => exact List.not_mem_nil
  | error read => exact List.not_mem_nil

section Tcp

/-- What a TCP socket has for its reader: non-empty reads, then its end. -/
structure TcpInput where
  reads : List Bytes
  ending : StreamEnd
  nonempty : ∀ r ∈ reads, r ≠ []

/-- The reader keeps one buffer; what a read filled in is split off as a whole. -/
structure TcpReader where
  inner : TcpInput
  buffer : Bytes

def TcpReader.new (input : TcpInput) : TcpReader := ⟨input, []⟩

/-- `read_buf`: the bytes of the next read, none of them at the end of the stream. -/
def TcpInput.readBuf (input : TcpInput) : Option Bytes × TcpInput :=
  match input with
  | ⟨[], .clean, h⟩ => (some [], ⟨[], .clean, h⟩)
  | ⟨[], .failed, h⟩ => (none, ⟨[], .failed, h⟩)
  | ⟨r :: rest, ending, h⟩ => (some r, ⟨rest, ending, fun x hx => h x (List.mem_cons_of_mem _ hx)⟩)

/-- `TcpReader::read_data`. -/
def TcpReader.readData (reader : TcpReader) : Option Bytes × TcpReader :=
  match reader.inner.readBuf with
  | (none, inner) => (none, ⟨inner, reader.buffer⟩)
  | (some filled, inner) =>
      if filled.length = 0 then (some [], ⟨inner, reader.buffer⟩)
      else (some (reader.buffer ++ filled), ⟨inner, []⟩)

instance : TransportReader TcpReader := ⟨TcpReader.readData⟩

/-- A TCP reader gives out exactly the reads of its socket. -/
theorem TcpReader.yields (input : TcpInput) :
    Yields (TcpReader.new input) input.reads input.ending := by
  obtain ⟨reads, ending, hne⟩ := input
  induction reads with
  | nil =>
      cases ending with
      | clean => exact .eof rfl
      | failed => exact .error rfl
  | cons r rest ih =>
      have hr : r ≠ [] := hne r (List.mem_cons_self ..)
      have hrest : ∀ x ∈ rest, x ≠ [] := fun x hx => hne x (List.mem_cons_of_mem _ hx)
      apply Yields.data _ hr (ih hrest)
      change TcpReader.readData _ = _
      simp only [TcpReader.readData, TcpReader.new, TcpInput.readBuf, List.length_eq_zero_iff]
      rw [if_neg hr, List.nil_append]

end Tcp

section WebSocket

/-- The messages of a WebSocket stream. -/
inductive WsMessage where
  | binary (data : Bytes)
  | text (content : String)
  | ping (data : Bytes)
  | pong (data : Bytes)
  | frame (data : Bytes)
  | close
  deriving DecidableEq, Repr

/-- `text.as_bytes()`. -/
def asBytes (text : String) : Bytes := text.toUTF8.data.toList

/-- The terminator of a header section. -/
def crlfCrlf : Bytes := [13, 10, 13, 10]

/-- What a WebSocket stream has for its reader. A clean end is the end of the stream. -/
structure WsInput where
  messages : List WsMessage
  ending : StreamEnd

structure WsReader where
  inner : WsInput

/-- `WsReader::read_data`: the loop over `next()`. -/
def WsReader.readLoop (ending : StreamEnd) : List WsMessage → Option Bytes × List WsMessage
  | [] =>
      match ending with
      | .clean => (some [], [])
      | .failed => (none, [])
  | .binary data :: rest => if data.isEmpty then readLoop ending rest else (some data, rest)
  | .text content :: rest =>
      if content.isEmpty then readLoop ending rest else (some (asBytes content), rest)
  | .close :: rest => (some [], rest)
  | .ping _ :: rest => readLoop ending rest
  | .pong _ :: rest => readLoop ending rest
  | .frame _ :: rest => readLoop ending rest

def WsReader.readData (reader : WsReader) : Option Bytes × WsReader :=
  let (chunk, rest) := readLoop reader.inner.ending reader.inner.messages
  (chunk, ⟨⟨rest, reader.inner.ending⟩⟩)

instance : TransportReader WsReader := ⟨WsReader.readData⟩

/-- The bytes of a data message; a message without bytes is no data. -/
def WsMessage.payload : WsMessage → Option Bytes
  | .binary data => if data = [] then none else some data
  | .text content => if content = "" then none else some (asBytes content)
  | _ => none

/-- The data of the messages before the first close. -/
def WsInput.chunks (input : WsInput) : List Bytes :=
  (input.messages.takeWhile (· ≠ .close)).filterMap WsMessage.payload

/-- A close frame ends the input cleanly, whatever the stream does afterwards. -/
def WsInput.closing (input : WsInput) : StreamEnd :=
  if .close ∈ input.messages then .clean else input.ending

theorem asBytes_ne_nil {text : String} (h : text ≠ "") : asBytes text ≠ [] := by
  intro hnil
  apply h
  rw [← String.utf8ByteSize_eq_zero_iff, ← String.size_toByteArray]
  change text.toByteArray.data.size = 0
  rw [← Array.length_toList]
  exact List.length_eq_zero_iff.mpr hnil

/-- A message is a close, is skipped by the loop, or carries the next chunk. -/
inductive WsMessage.Seen (m : WsMessage) : Prop
  | close (eq : m = .close)
  | skipped (going : m ≠ .close) (empty : m.payload = none)
      (loop : ∀ ending rest, WsReader.readLoop ending (m :: rest) = WsReader.readLoop ending rest)
  | data (chunk : Bytes) (going : m ≠ .close) (nonempty : chunk ≠ [])
      (carries : m.payload = some chunk)
      (loop : ∀ ending rest, WsReader.readLoop ending (m :: rest) = (some chunk, rest))

theorem WsMessage.seen (m : WsMessage) : m.Seen := by
  cases m with
  | close => exact .close rfl
  | ping d => exact .skipped (by simp) rfl fun _ _ => rfl
  | pong d => exact .skipped (by simp) rfl fun _ _ => rfl
  | frame d => exact .skipped (by simp) rfl fun _ _ => rfl
  | binary d =>
      by_cases hd : d = []
      · exact .skipped (by simp) (if_pos hd) fun _ _ => by simp [WsReader.readLoop, hd]
      · exact .data d (by simp) hd (if_neg hd) fun _ _ => by simp [WsReader.readLoop, hd]
  | text content =>
      by_cases ht : content = ""
      · exact .skipped (by simp) (if_pos ht) fun _ _ => by simp [WsReader.readLoop, ht]
      · exact .data (asBytes content) (by simp) (asBytes_ne_nil ht) (if_neg ht) fun _ _ => by
          simp [WsReader.readLoop, ht]

/-- Readers whose next read is the same give out the same. -/
theorem Yields.congr {ρ : Type} [TransportReader ρ] {r t : ρ} (h : readData r = readData t)
    {chunks : List Bytes} {ending : StreamEnd} (y : Yields t chunks ending) :
    Yields r chunks ending := by
  cases y with
  | data read nonempty tail => exact .data (h.trans read) nonempty tail
  | eof read => exact .eof (h.trans read)
  | error read => exact .error (h.trans read)

/-- A WebSocket reader gives out exactly the non-empty data messages before the close. -/
theorem WsReader.yields (input : WsInput) :
    Yields (WsReader.mk input) input.chunks input.closing := by
  obtain ⟨messages, ending⟩ := input
  induction messages with
  | nil =>
      cases ending with
      | clean => exact .eof rfl
      | failed => exact .error rfl
  | cons m rest ih =>
      cases m.seen with
      | close eq =>
          subst eq
          simpa [WsInput.chunks, WsInput.closing] using
            Yields.eof (r := WsReader.mk ⟨.close :: rest, ending⟩) rfl
      | skipped hopen hempty hloop =>
          have hchunks : WsInput.chunks ⟨m :: rest, ending⟩ = WsInput.chunks ⟨rest, ending⟩ := by
            simp [WsInput.chunks, hopen, hempty]
          have hclosing : WsInput.closing ⟨m :: rest, ending⟩ = WsInput.closing ⟨rest, ending⟩ := by
            simp [WsInput.closing, Ne.symm hopen]
          rw [hchunks, hclosing]
          apply Yields.congr _ ih
          change WsReader.readData _ = WsReader.readData _
          simp only [WsReader.readData, hloop]
      | data chunk hopen hne hcarries hloop =>
          have hchunks :
              WsInput.chunks ⟨m :: rest, ending⟩ = chunk :: WsInput.chunks ⟨rest, ending⟩ := by
            simp [WsInput.chunks, hopen, hcarries]
          have hclosing : WsInput.closing ⟨m :: rest, ending⟩ = WsInput.closing ⟨rest, ending⟩ := by
            simp [WsInput.closing, Ne.symm hopen]
          rw [hchunks, hclosing]
          apply Yields.data _ hne ih
          change WsReader.readData _ = _
          simp only [WsReader.readData, hloop]

end WebSocket

section Either

/-- The input of one of the two transports. -/
inductive TransportInput where
  | tcp (input : TcpInput)
  | ws (input : WsInput)

/-- The reader of one of the two transports. -/
inductive SocketReader where
  | tcp (reader : TcpReader)
  | ws (reader : WsReader)

def SocketReader.new : TransportInput → SocketReader
  | .tcp input => .tcp (.new input)
  | .ws input => .ws ⟨input⟩

instance : TransportReader SocketReader where
  readData
    | .tcp reader => (readData reader).map id .tcp
    | .ws reader => (readData reader).map id .ws

namespace TransportInput

/-- The non-empty data chunks of an input, in order. -/
def chunks : TransportInput → List Bytes
  | .tcp input => input.reads
  | .ws input => input.chunks

/-- How an input ends. -/
def ending : TransportInput → StreamEnd
  | .tcp input => input.ending
  | .ws input => input.closing

/-- The samples that encode an input: its chunks, and the EOF marker on a clean end. -/
def samples (input : TransportInput) : List Bytes :=
  input.chunks ++ if input.ending = .clean then [[]] else []

end TransportInput

/-- Wrapping the state of a reader does not change what it gives out. -/
theorem Yields.wrap {ρ τ : Type} [TransportReader ρ] [TransportReader τ] (f : ρ → τ)
    (hf : ∀ r, readData (f r) = (readData r).map id f) {r : ρ} {chunks : List Bytes}
    {ending : StreamEnd} (h : Yields r chunks ending) : Yields (f r) chunks ending := by
  induction h with
  | data read nonempty tail ih => exact .data (by rw [hf, read]; rfl) nonempty ih
  | eof read => exact .eof (by rw [hf, read]; rfl)
  | error read => exact .error (by rw [hf, read]; rfl)

/-- Over every input of the two transports the reader gives out exactly its data. -/
theorem SocketReader.yields (input : TransportInput) :
    Yields (SocketReader.new input) input.chunks input.ending := by
  cases input with
  | tcp input => exact (TcpReader.yields input).wrap SocketReader.tcp fun _ => rfl
  | ws input => exact (WsReader.yields input).wrap SocketReader.ws fun _ => rfl

namespace TransportInput

variable {input : TransportInput} {front rest : List Bytes}

theorem nil_notMem_chunks (input : TransportInput) : [] ∉ input.chunks :=
  (SocketReader.yields input).nil_notMem

theorem marker_mem (h : input.ending = .clean) : [] ∈ input.samples := by
  rw [samples, if_pos h]
  exact List.mem_append_right _ (List.mem_singleton_self _)

/-- The EOF marker is the last sample of an encoding and all of its data stands before. -/
theorem marker_last (input : TransportInput) (h : front ++ [] :: rest = input.samples) :
    front = input.chunks ∧ rest = [] ∧ input.ending = .clean := by
  have hchunks := input.nil_notMem_chunks
  unfold samples at h
  split at h
  · rename_i hclean
    obtain rfl | ⟨middle, last, rfl⟩ := List.eq_nil_or_concat rest
    · exact ⟨List.append_cancel_right h, rfl, hclean⟩
    · rw [List.concat_eq_append, ← List.cons_append, ← List.append_assoc] at h
      have hfront : front ++ [] :: middle = input.chunks := (List.append_inj' h rfl).1
      exact absurd (hfront ▸ List.mem_append_right _ (List.mem_cons_self ..)) hchunks
  · rw [List.append_nil] at h
    exact absurd (h ▸ List.mem_append_right _ (List.mem_cons_self ..)) hchunks

/-- What an encoding starts with and is not the marker is data. -/
theorem data_prefix (h : front <+: input.samples) (hdata : [] ∉ front) : front <+: input.chunks := by
  unfold samples at h
  split at h
  · obtain hall | hdata' := List.prefix_concat_iff.mp h
    · exact absurd (hall ▸ List.mem_append_right _ (List.mem_singleton_self _)) hdata
    · exact hdata'
  · rwa [List.append_nil] at h

end TransportInput

end Either

end ZenohBridge
