import ZenohBridge.HeadReaders

/-!
# The route of an auto-detected connection

`handle_auto_import_connection` peeks until the classifier decides, `peek_full_http_head` peeks
until a request head is there, `handle_import_connection` peeks once more, and the readers of
the doors take chunk after chunk. None of them sees the whole stream, and how much each of
them sees is up to the network.

`entrance` is the decision on the whole stream at once. Every connection whose client is in
time takes the entrance of its bytes. The routing key that its reader answers with is that of the
first head in the whole stream, and as long as it reads on there is no head in what it has read.

## Implementation notes

A request head longer than `max_header_size` is left out, since the peek that completes it may
see past the limit. `http_head_parser` gives its parser room for `max_header_size` bytes at
least, which is the window here.

Between two peeks nothing is consumed, so a peek sees what the one before it has seen, as far
as its own window goes. The last window is the smallest one.
-/

namespace ZenohBridge

open Execution

/-- How a connection goes on after it was classified. -/
inductive Entrance where
  /-- Relayed as it is, to the default backend. -/
  | unkeyed
  | keyed (door : HeadDoor)
  | webSocket
  deriving DecidableEq, Repr

/-- The first request head of the stream is complete within `max_header_size`. -/
def HeadFraming.HeadFits {F : HeadParsers} (framing : HeadFraming F) (cfg : DoorConfig)
    (stream : Bytes) : Prop :=
  framing.heads stream ≠ [] → framing.heads (stream.take cfg.maxHeaderSize) ≠ []

/-- The entrance that a stream asks for, seen as a whole. -/
def HeadParsers.entrance (F : HeadParsers) (framing : HeadFraming F) (cfg : DoorConfig)
    (stream : Bytes) : Option Entrance :=
  match F.classify (stream.take 64) with
  | some .tls => some (.keyed .sni)
  | some .http2Preface => some (.keyed .h2c)
  | some .other => some .unkeyed
  | some .http1 =>
      match (framing.heads (stream.take cfg.maxHeaderSize)).head? with
      | some head => some (if F.isWebsocketUpgrade head then .webSocket else .keyed .host)
      | none => some (.keyed .host)
  | none => if 64 ≤ stream.length then some .unkeyed else none

namespace ImportConnection

variable {F : HeadParsers} {K : KeyText} {framing : HeadFraming F} {w : Nat} {cfg : DoorConfig}
  {stream : Bytes}

/-- No deadline strikes and no peek fails. -/
def InTime : DoorAction → Prop
  | .peek _ late => late = false
  | .peekFailed | .timeout => False
  | _ => True

/-- The lengths of the peeks of a schedule. -/
def peeks (schedule : List DoorAction) : List Nat :=
  schedule.filterMap fun
    | .peek n _ => some n
    | _ => none

/-- A peek sees what the peeks before it have seen, within the smallest window. -/
def Growing (schedule : List DoorAction) : Prop :=
  (peeks schedule).Pairwise fun m n => min m 16 ≤ n

/-- What the phase of a connection says about its stream, with the peeks to come. -/
def Routes (framing : HeadFraming F) (cfg : DoorConfig) (stream : Bytes) (later : List Nat) :
    DoorPhase (F.inspector K) → Prop
  | .classifying => True
  | .peekingHead _ => stream ≠ [] ∧ F.classify (stream.take 64) = some .http1
  | .detecting =>
      (∃ m, F.classify (stream.take m) = some .tls ∧ (∀ n ∈ later, min m 16 ≤ n) ∧
        F.entrance framing cfg stream = some (.keyed .sni)) ∨
      F.classify (stream.take 64) = some .http1 ∧
        F.entrance framing cfg stream = some (.keyed .host)
  | .reading door parser buffer =>
      F.entrance framing cfg stream = some (.keyed door) ∧
      ∃ chunks, ((F.inspector K).reader door).Passed chunks parser ∧ buffer = chunks.flatten ∧
        (buffer = [] ∨ buffer.length < cfg.maxHeaderSize)
  | .resolving dns _ =>
      ∃ door, F.entrance framing cfg stream = some (.keyed door) ∧
        F.finds K framing door stream = some (.ok dns)
  | .connecting dns (some _) =>
      ∃ door key, F.entrance framing cfg stream = some (.keyed door) ∧
        F.finds K framing door stream = some (.ok key) ∧ (dns = key ∨ dns = none)
  | .connecting dns none => dns = none ∧ F.entrance framing cfg stream = some .unkeyed
  | .webSocket => F.entrance framing cfg stream = some .webSocket
  | _ => True

section Decisions

variable {m n : Nat} {p q : WireProtocol} {head : RequestHead UInt8}

/-- A peek that sees more decides the same. -/
theorem classify_of_le (hF : F.Stable framing w) (h : F.classify (stream.take m) = some p)
    (hle : m ≤ n) : F.classify (stream.take n) = some p :=
  hF.classify _ _ _ h (List.take_prefix_take_left hle)

theorem classify_agrees (hF : F.Stable framing w) (h : F.classify (stream.take m) = some p)
    (h' : F.classify (stream.take n) = some q) : p = q := by
  obtain hle | hle := Nat.le_total m n
  · exact Option.some.inj ((classify_of_le hF h hle).symm.trans h')
  · exact Option.some.inj (h.symm.trans (classify_of_le hF h' hle))

/-- The last peek knows TLS if it sees as much of the record header as the first one has. -/
theorem classify_tls (hF : F.Stable framing w) (h : F.classify (stream.take m) = some .tls)
    (hle : min m 16 ≤ n) : F.classify (stream.take n) = some .tls := by
  have htake := hF.tlsHeader _ h
  rw [List.take_take, Nat.min_comm] at htake
  exact classify_of_le hF htake hle

theorem entrance_tls (h : F.classify (stream.take 64) = some .tls) :
    F.entrance framing cfg stream = some (.keyed .sni) := by
  rw [HeadParsers.entrance, h]

theorem entrance_h2c (h : F.classify (stream.take 64) = some .http2Preface) :
    F.entrance framing cfg stream = some (.keyed .h2c) := by
  rw [HeadParsers.entrance, h]

theorem entrance_other (h : F.classify (stream.take 64) = some .other) :
    F.entrance framing cfg stream = some .unkeyed := by
  rw [HeadParsers.entrance, h]

theorem entrance_undecided (h : F.classify (stream.take 64) = none) (hlen : 64 ≤ stream.length) :
    F.entrance framing cfg stream = some .unkeyed := by
  rw [HeadParsers.entrance, h]
  exact if_pos hlen

/-- HTTP/1 is an upgrade or goes to the door that reads the host. -/
theorem entrance_of_head (h : F.classify (stream.take 64) = some .http1)
    (hhead : (framing.heads (stream.take cfg.maxHeaderSize)).head? = some head) :
    F.entrance framing cfg stream =
      some (if F.isWebsocketUpgrade head then .webSocket else .keyed .host) := by
  rw [HeadParsers.entrance, h]
  simp only [hhead]

theorem entrance_of_none (h : F.classify (stream.take 64) = some .http1)
    (hnone : framing.heads (stream.take cfg.maxHeaderSize) = []) :
    F.entrance framing cfg stream = some (.keyed .host) := by
  rw [HeadParsers.entrance, h]
  simp only [hnone, List.head?_nil]

/-- A peek that is refused has no head to come. -/
theorem entrance_of_refused (hF : F.Stable framing w)
    (h : F.classify (stream.take 64) = some .http1)
    (hrefused : (F.inspector K).peekHttpHeadOutcome (stream.take n) = .refused) :
    F.entrance framing cfg stream = some (.keyed .host) := by
  have hnone := hF.none_of_refused hrefused (stream.drop n)
  rw [List.take_append_drop] at hnone
  exact entrance_of_none h (hF.http.nil_of_prefix (List.take_prefix _ _) hnone)

/-- A peek that fills the limit without a head has none within it. -/
theorem entrance_of_full (hF : F.Stable framing w) (hroom : cfg.maxHeaderSize ≤ w)
    (h : F.classify (stream.take 64) = some .http1)
    (hmore : (F.inspector K).peekHttpHeadOutcome (stream.take n) = .needMore)
    (hle : cfg.maxHeaderSize ≤ n) : F.entrance framing cfg stream = some (.keyed .host) := by
  have hnone := hF.none_of_needMore hmore
  rw [List.take_take] at hnone
  apply entrance_of_none h
  exact hF.http.nil_of_prefix (List.take_prefix_take_left (by omega)) hnone

/-- A head that is peeked at is the first one within the limit. -/
theorem entrance_of_peek (hF : F.Stable framing w) (hfits : framing.HeadFits cfg stream)
    (h : F.classify (stream.take 64) = some .http1)
    (hpeek : (F.inspector K).peekHttpHeadOutcome (stream.take n) = .head head) :
    F.entrance framing cfg stream =
      some (if F.isWebsocketUpgrade head then .webSocket else .keyed .host) := by
  have hgrows : ∀ k, framing.heads (stream.take k) <+: framing.heads stream := by
    intro k
    have hmore := hF.http.grows (stream.take k) (stream.drop k)
    rwa [List.take_append_drop] at hmore
  have hfirst := head?_of_begins (hF.head_of_peek hpeek) (hgrows n)
  have hsome : framing.heads stream ≠ [] := by
    intro hnil
    rw [hnil] at hfirst
    cases hfirst
  have hwithin := mt List.head?_eq_none_iff.mp (hfits hsome)
  obtain ⟨head', hhead'⟩ := Option.ne_none_iff_exists'.mp hwithin
  have hsame := head?_of_begins hhead' (hgrows cfg.maxHeaderSize)
  obtain rfl := Option.some.inj (hfirst.symm.trans hsame)
  exact entrance_of_head h hhead'

end Decisions

section Steps

variable {t t' : ImportConnection (F.inspector K)} {n : Nat} {later : List Nat}

/-- A reader that has been offered nothing. -/
theorem Routes.fresh {door : HeadDoor}
    (h : F.entrance framing cfg stream = some (.keyed door)) :
    Routes framing cfg stream later (K := K)
      (.reading door ((F.inspector K).reader door).start []) :=
  ⟨h, [], .start, rfl, .inl rfl⟩

theorem Routes.classified (hF : F.Stable framing w) (hn : n ≤ 64) (hne : stream ≠ [])
    (hlater : ∀ k ∈ later, min n 16 ≤ k) :
    Routes framing cfg stream later (K := K) (classified (stream.take n) false) := by
  unfold ImportConnection.classified
  split
  · rename_i h
    exact .inl ⟨n, h, hlater, entrance_tls (classify_of_le hF h hn)⟩
  · rename_i h
    exact ⟨hne, classify_of_le hF h hn⟩
  · rename_i h
    exact Routes.fresh (entrance_h2c (classify_of_le hF h hn))
  · rename_i h
    exact ⟨rfl, entrance_other (classify_of_le hF h hn)⟩
  · rename_i h
    split
    · rename_i hfull
      have hlen : (stream.take n).length = 64 := hfull.resolve_left Bool.false_ne_true
      rw [List.length_take] at hlen
      obtain rfl : n = 64 := by omega
      exact ⟨rfl, entrance_undecided h (by omega)⟩
    · trivial

theorem Routes.headPeeked (hF : F.Stable framing w) (hroom : cfg.maxHeaderSize ≤ w)
    (hfits : framing.HeadFits cfg stream) (hne : stream ≠ [])
    (h : F.classify (stream.take 64) = some .http1) (lastLen : Nat) :
    Routes framing cfg stream later (K := K) (headPeeked cfg lastLen (stream.take n) false) := by
  unfold ImportConnection.headPeeked
  split
  · split
    · rename_i head hhead
      have hentrance := entrance_of_peek hF hfits h hhead
      split
      · rename_i hupgrade
        exact hentrance.trans (congrArg some (if_pos hupgrade))
      · rename_i hplain
        exact .inr ⟨h, hentrance.trans (congrArg some (if_neg hplain))⟩
    · rename_i hrefused
      exact .inr ⟨h, entrance_of_refused hF h hrefused⟩
    · rename_i hmore
      split
      · rename_i hfull
        have hlen := hfull.resolve_right Bool.false_ne_true
        rw [List.length_take] at hlen
        exact .inr ⟨h, entrance_of_full hF hroom h hmore (by omega)⟩
      · exact ⟨hne, h⟩
  · split
    · contradiction
    · exact ⟨hne, h⟩

/-- The last peek decides between the readers as the first one has. -/
theorem Routes.detected (hF : F.Stable framing w)
    (h : Routes framing cfg stream (n :: later) (K := K) .detecting) :
    let door := if F.classify (stream.take n) = some .tls then HeadDoor.sni else .host
    Routes framing cfg stream later (K := K)
      (.reading door ((F.inspector K).reader door).start []) := by
  intro door
  apply Routes.fresh
  obtain ⟨m, hm, hlater, hsni⟩ | ⟨hhttp, hhost⟩ := h
  · have htls := classify_tls hF hm (hlater n List.mem_cons_self)
    simp only [door, htls, if_true]
    exact hsni
  · have hnot : F.classify (stream.take n) ≠ some .tls := by
      intro htls
      cases classify_agrees hF htls hhttp
    simp only [door, hnot, if_false]
    exact hhost

/-- A chunk is answered as all the bytes read so far. -/
theorem Routes.afterChunk (hF : F.Stable framing w) {door : HeadDoor}
    {parser : ((F.inspector K).reader door).State} {buffer chunk : Bytes}
    (h : Routes framing cfg stream later (.reading door parser buffer))
    (hbytes : buffer ++ chunk <+: stream) :
    Routes framing cfg stream later (afterChunk cfg door parser buffer chunk) := by
  obtain ⟨hentrance, chunks, hpassed, rfl, -⟩ := h
  have hreader := hF.decides K door
  unfold ImportConnection.afterChunk
  split
  · trivial
  · rename_i dns next hstep
    have hanswer := hreader.sound hpassed (congrArg Prod.fst hstep)
    exact ⟨door, hentrance, hreader.keeps hanswer hbytes⟩
  · rename_i next hstep
    split
    · trivial
    · rename_i hbelow
      refine ⟨hentrance, chunks ++ [chunk], ?_, (flatten_concat chunks chunk).symm,
        .inr (Nat.lt_of_not_le hbelow)⟩
      have hnext := hpassed.step chunk (congrArg Prod.fst hstep)
      rwa [hstep] at hnext

theorem Routes.onPeek (hF : F.Stable framing w) (hroom : cfg.maxHeaderSize ≤ w)
    (hfits : framing.HeadFits cfg stream)
    (h : Routes framing cfg stream (n :: later) t.phase) (hunread : Transparent stream t)
    (hlater : ∀ k ∈ later, min n 16 ≤ k) (hs : t.onPeek cfg n false = some t') :
    Routes framing cfg stream later t'.phase := by
  unfold Transparent at hunread
  unfold ImportConnection.onPeek at hs
  split at hs
  · rename_i hphase
    rw [hphase] at hunread
    split at hs
    · rename_i hpeek
      split at hs
      · obtain rfl := Option.some.inj hs
        trivial
      · rename_i hsome
        obtain rfl := Option.some.inj hs
        have hne : stream ≠ [] := by
          rintro rfl
          have := hpeek.2.1
          rw [hunread.2, List.length_nil] at this
          omega
        change Routes framing cfg stream later
          (ImportConnection.classified (t.unread.take n) false)
        rw [hunread.2]
        exact Routes.classified hF hpeek.1 hne hlater
    · contradiction
  · rename_i lastLen hphase
    rw [hphase] at h hunread
    obtain ⟨hne, hhttp⟩ := h
    split at hs
    · rename_i hpeek
      split at hs
      · rename_i hzero
        have hreads := (hpeek.2.2 hzero).1
        have hnil : t.unread = [] := by rw [unread, hreads, List.flatten_nil]
        exact absurd (hunread.2.symm.trans hnil) hne
      · obtain rfl := Option.some.inj hs
        change Routes framing cfg stream later
          (ImportConnection.headPeeked cfg lastLen (t.unread.take n) false)
        rw [hunread.2]
        exact Routes.headPeeked hF hroom hfits hne hhttp lastLen
    · contradiction
  · rename_i hphase
    rw [hphase] at h hunread
    split at hs
    · obtain rfl := Option.some.inj hs
      have hdetected := h.detected hF
      rw [← hunread.2] at hdetected ⊢
      exact hdetected
    · contradiction
  · contradiction

theorem Routes.onRead (hF : F.Stable framing w) (h : Routes framing cfg stream later t.phase)
    (hunread : Transparent stream t) (hs : t.onRead cfg = some t') :
    Routes framing cfg stream later t'.phase := by
  unfold Transparent at hunread
  unfold ImportConnection.onRead at hs
  split at hs
  · rename_i door parser buffer hphase
    rw [hphase] at h hunread
    split at hs
    · obtain rfl := Option.some.inj hs
      trivial
    · rename_i chunk input hread
      split at hs
      · obtain rfl := Option.some.inj hs
        trivial
      · obtain rfl := Option.some.inj hs
        apply Routes.afterChunk hF h
        rw [← hunread.2.1, unread, readBuf_some hread, ← List.append_assoc]
        exact List.prefix_append _ _
  · contradiction

/-- The default backend takes the connection without its key. -/
theorem Routes.onResolve (h : Routes framing cfg stream later t.phase)
    {backend : Except String BackendRoute} (hs : t.onResolve backend = some t') :
    Routes framing cfg stream later t'.phase := by
  unfold ImportConnection.onResolve at hs
  split at hs
  · rename_i dns buffer hphase
    rw [hphase] at h
    obtain ⟨door, hentrance, hfinds⟩ := h
    obtain rfl := Option.some.inj hs
    exact ⟨door, dns, hentrance, hfinds, .inl rfl⟩
  · rename_i dns buffer hphase
    rw [hphase] at h
    obtain ⟨door, hentrance, hfinds⟩ := h
    obtain rfl := Option.some.inj hs
    exact ⟨door, dns, hentrance, hfinds, .inr rfl⟩
  · obtain rfl := Option.some.inj hs
    trivial
  · contradiction

/-- A connection past its setup has its route behind it. -/
theorem Routes.onSetup {ok : Bool} (hs : t.onSetup ok = some t') :
    Routes framing cfg stream later t'.phase := by
  unfold ImportConnection.onSetup at hs
  split at hs
  · split at hs
    · split at hs
      · obtain rfl := Option.some.inj hs
        trivial
      · obtain rfl := Option.some.inj hs
        trivial
    · obtain rfl := Option.some.inj hs
      trivial
  · contradiction

theorem Routes.onPut {ok : Bool} (hs : t.onPut ok = some t') :
    Routes framing cfg stream later t'.phase := by
  unfold ImportConnection.onPut at hs
  split at hs
  · split at hs
    · obtain rfl := Option.some.inj hs
      trivial
    · obtain rfl := Option.some.inj hs
      trivial
  · contradiction

theorem Routes.onSpawn {ok : Bool} (hs : t.onSpawn cfg ok = some t') :
    Routes framing cfg stream later t'.phase := by
  unfold ImportConnection.onSpawn at hs
  split at hs
  · split at hs
    · obtain rfl := Option.some.inj hs
      trivial
    · obtain rfl := Option.some.inj hs
      trivial
  · contradiction

theorem Routes.onRelay {a : RelayAction} (hs : t.onRelay cfg a = some t') :
    Routes framing cfg stream later t'.phase := by
  unfold ImportConnection.onRelay at hs
  split at hs
  · obtain ⟨relay, -, rfl⟩ := Option.map_eq_some_iff.mp hs
    trivial
  · contradiction

/-- A step of a client that is in time keeps what the phase says about the stream. -/
theorem Routes.step (hF : F.Stable framing w) (hroom : cfg.maxHeaderSize ≤ w)
    (hfits : framing.HeadFits cfg stream) {a : DoorAction}
    {rest : List DoorAction} (h : Routes framing cfg stream (peeks (a :: rest)) t.phase)
    (hunread : Transparent stream t) (htime : InTime a) (hgrow : Growing (a :: rest))
    (hs : ImportConnection.step cfg t a = some t') :
    Routes framing cfg stream (peeks rest) t'.phase := by
  cases a with
  | peek n late =>
      obtain rfl : late = false := htime
      exact h.onPeek hF hroom hfits hunread (List.pairwise_cons.mp hgrow).1 hs
  | peekFailed => exact htime.elim
  | read => exact h.onRead hF hunread hs
  | timeout => exact htime.elim
  | resolve backend => exact h.onResolve hs
  | setup ok => exact Routes.onSetup hs
  | put ok => exact Routes.onPut hs
  | spawn ok => exact Routes.onSpawn hs
  | relay a => exact Routes.onRelay hs

theorem Growing.tail {a : DoorAction} {rest : List DoorAction} (h : Growing (a :: rest)) :
    Growing rest := by
  cases a with
  | peek n late => exact List.Pairwise.of_cons h
  | _ => exact h

/-- What holds along a schedule, with the peeks that are left at each of its steps. -/
theorem Routes.run (hF : F.Stable framing w) (hroom : cfg.maxHeaderSize ≤ w)
    (hfits : framing.HeadFits cfg stream)
    {schedule : List DoorAction} (h : Routes framing cfg stream (peeks schedule) t.phase)
    (hunread : Transparent stream t) (htime : ∀ a ∈ schedule, InTime a) (hgrow : Growing schedule)
    (run : exec (ImportConnection.step cfg) t schedule = some t') :
    Routes framing cfg stream [] t'.phase := by
  induction schedule generalizing t with
  | nil =>
      obtain rfl := Option.some.inj run
      exact h
  | cons a rest ih =>
      obtain ⟨u, hs, hrest⟩ := exec_cons_eq_some run
      have hstep := h.step hF hroom hfits hunread (htime a List.mem_cons_self) hgrow hs
      apply ih hstep (hunread.step hs) _ hgrow.tail hrest
      intro b hb
      exact htime b (List.mem_cons_of_mem _ hb)

end Steps

/-- What an auto-detected connection does is what its bytes ask for, seen at once. -/
structure RoutedByBytes (framing : HeadFraming F) (cfg : DoorConfig) (stream : Bytes)
    (phase : DoorPhase (F.inspector K)) : Prop where
  /-- A reader that reads on has passed over no head. -/
  reader : ∀ door parser buffer, phase = .reading door parser buffer →
    F.entrance framing cfg stream = some (.keyed door) ∧ F.finds K framing door buffer = none
  key : ∀ dns buffer, phase = .resolving dns buffer →
    ∃ door, F.entrance framing cfg stream = some (.keyed door) ∧
      F.finds K framing door stream = some (.ok dns)
  replay : ∀ dns buffer, phase = .connecting dns (some buffer) →
    ∃ door key, F.entrance framing cfg stream = some (.keyed door) ∧
      F.finds K framing door stream = some (.ok key) ∧ (dns = key ∨ dns = none)
  unkeyed : ∀ dns, phase = .connecting dns none →
    dns = none ∧ F.entrance framing cfg stream = some .unkeyed
  webSocket : phase = .webSocket → F.entrance framing cfg stream = some .webSocket

/-- The route of an auto-detected connection is a function of the client's bytes. However
these are cut into segments and however the peeks and reads fall among them, a connection
whose client is in time takes the entrance of the whole stream, is routed by the key of the first
head in it, and passes over no head. -/
theorem auto_routed_by_bytes (cfg : DoorConfig) {F : HeadParsers} (K : KeyText)
    {framing : HeadFraming F} {w : Nat} (stable : F.Stable framing w)
    (room : cfg.maxHeaderSize ≤ w) (input : TcpInput)
    (fits : framing.HeadFits cfg input.reads.flatten) {schedule : List DoorAction}
    (inTime : ∀ a ∈ schedule, InTime a) (growing : Growing schedule)
    {t : ImportConnection (F.inspector K)}
    (run : exec (step cfg) (start (F.inspector K) .auto input) schedule = some t) :
    RoutedByBytes framing cfg input.reads.flatten t.phase := by
  have hstart : Routes framing cfg input.reads.flatten (peeks schedule)
      (start (F.inspector K) .auto input).phase := trivial
  have h := hstart.run stable room fits (transparent_start (F.inspector K) .auto input) inTime
    growing run
  constructor
  · intro door parser buffer hphase
    rw [hphase] at h
    obtain ⟨hentrance, chunks, hpassed, rfl, hsize⟩ := h
    refine ⟨hentrance, ?_⟩
    have hwithin : chunks.flatten.length ≤ w := by
      obtain hnil | hlt := hsize
      · rw [hnil]
        exact Nat.zero_le w
      · omega
    have hnone := (stable.decides K door).complete hpassed
    rwa [List.take_of_length_le hwithin] at hnone
  · intro dns buffer hphase
    rw [hphase] at h
    exact h
  · intro dns buffer hphase
    rw [hphase] at h
    exact h
  · intro dns hphase
    rw [hphase] at h
    exact h
  · intro hphase
    rw [hphase] at h
    exact h

/-- The record of a TLS ClientHello for `api.local`. -/
def clientHello : Bytes :=
  [22, 3, 1, 0, 65, 1, 0, 0, 61, 3, 3] ++ List.replicate 32 7 ++
    [0, 0, 2, 19, 1, 1, 0, 0, 18, 0, 0, 0, 14, 0, 12, 0, 0, 9] ++ asBytes "api.local"

/-- `GET / HTTP/1.1` with a `Host` of `API.local`. -/
def getRequest : Bytes :=
  [71, 69, 84, 32, 47, 32, 72, 84, 84, 80, 47, 49, 46, 49, 13, 10,
    72, 111, 115, 116, 58, 32, 65, 80, 73, 46, 108, 111, 99, 97, 108, 13, 10, 13, 10]

/-- What a parser frames that knows one message, at the start of a stream. -/
def framedOnce {α : Type} (known : Bytes) (item : α) (bytes : Bytes) : List α :=
  if known.isPrefixOf bytes then [item] else []

section Once

variable {α : Type} {known bytes : Bytes} {item : α}

theorem isPrefixOf_append (h : known.isPrefixOf bytes) (more : Bytes) :
    known.isPrefixOf (bytes ++ more) := by
  rw [List.isPrefixOf_iff_prefix] at h ⊢
  exact h.trans (List.prefix_append bytes more)

theorem framedOnce_grows (known : Bytes) (item : α) (bytes more : Bytes) :
    framedOnce known item bytes <+: framedOnce known item (bytes ++ more) := by
  unfold framedOnce
  split
  · rename_i h
    rw [if_pos (isPrefixOf_append h more)]
  · exact List.nil_prefix

end Once

/-- A TLS parser that knows that ClientHello. -/
def helloParser : TlsParser where
  State := Bytes
  start := []
  feedInitiator chunk seen :=
    (if clientHello.isPrefixOf seen then []
      else framedOnce clientHello (.clientHello (some "api.local")) (seen ++ chunk), seen ++ chunk)

/-- An HTTP/1 parser that knows that request. -/
def requestParser : HttpProxyParser UInt8 where
  State := Bytes × Bool
  start := ([], false)
  push side bytes p :=
    match side with
    | .initiator => (bytes.length, (p.1 ++ bytes, p.2))
    | .responder => (0, p)
  nextEvent p :=
    if p.2 = false ∧ getRequest.isPrefixOf p.1 then some (.requestHead ⟨getRequest⟩, (p.1, true))
    else none
  fin := fun _ p => p
  poison := fun _ => none
  isTunnelled := fun _ => false
  isDone := fun _ => false
  takeTunnelResidue := fun _ p => ([], p)
  backlog p := if p.2 then 0 else 1
  push_le := by
    rintro (_ | _) bytes p
    · exact Nat.le_refl _
    · exact Nat.zero_le _
  nextEvent_lt := by
    rintro ⟨seen, done⟩ e p' h
    rw [Option.ite_none_right_eq_some] at h
    obtain ⟨⟨rfl, -⟩, h⟩ := h
    cases h
    exact Nat.zero_lt_one

/-- An HTTP/2 parser that frames nothing. -/
def quietParser : Http2Parser Unit where
  State := Unit
  start := ()
  push := fun _ bytes _ => (bytes.length, ())
  nextEvent := fun _ => none
  isFailed := fun _ => false
  backlog := fun _ => 0
  push_le := fun _ _ _ => Nat.le_refl _
  nextEvent_lt := by
    rintro p e p' ⟨⟩

/-- Parsers that know TLS by its record header and HTTP/1 by its method. -/
def sampleParsers : HeadParsers where
  classify bytes :=
    if bytes.length < 6 then none
    else if bytes.take 2 = [22, 3] then some .tls
    else if bytes.take 4 = [71, 69, 84, 32] then some .http1
    else some .other
  http := requestParser
  authority := fun _ => .ok ⟨"API.local", none⟩
  isWebsocketUpgrade := fun _ => false
  tls := helloParser
  Fields := Unit
  http2 := fun _ => quietParser
  error := fun _ _ => none
  streamAuthority := fun _ => none

def sampleFraming : HeadFraming sampleParsers where
  hellos := framedOnce clientHello (some "api.local")
  heads := framedOnce getRequest ⟨getRequest⟩
  streams := fun _ _ => []

theorem helloParser_reassembles :
    helloParser.Reassembles (framedOnce clientHello (some "api.local")) where
  framed := by
    intro taken emitted p h
    suffices hall : p = taken ∧ emitted.filterMap TlsMessage.hello? =
        framedOnce clientHello (some "api.local") taken from hall.2
    induction h with
    | start => exact ⟨rfl, rfl⟩
    | @feed taken emitted p chunk _ ih =>
        obtain ⟨rfl, hframed⟩ := ih
        refine ⟨rfl, ?_⟩
        rw [List.filterMap_append, hframed]
        simp only [helloParser]
        split
        · rename_i hknown
          simp only [framedOnce, hknown, isPrefixOf_append hknown chunk, if_true,
            List.filterMap_nil, List.append_nil]
        · rename_i hnew
          simp only [framedOnce, if_neg hnew, List.nil_append]
          split
          · rfl
          · rfl
  grows := framedOnce_grows _ _

theorem requestParser_after {taken : Bytes} {emitted : List (HttpEvent UInt8)}
    {p : requestParser.requests.State} (h : requestParser.requests.After taken emitted p) :
    p.1 = taken ∧
      emitted.filterMap HttpEvent.requestHead? = (if p.2 then [⟨getRequest⟩] else []) ∧
      (p.2 → getRequest.isPrefixOf p.1) := by
  induction h with
  | start => exact ⟨rfl, rfl, fun h => absurd h Bool.false_ne_true⟩
  | @push taken emitted p input _ ih =>
      obtain ⟨rfl, hemitted, hknown⟩ := ih
      have htaken : (requestParser.push .initiator input p).1 = input.length := rfl
      refine ⟨?_, hemitted, ?_⟩
      · rw [htaken, List.take_length]
        rfl
      · intro hdone
        exact isPrefixOf_append (hknown hdone) input
  | @next taken emitted p e p' _ hnext ih =>
      obtain ⟨rfl, hemitted, -⟩ := ih
      obtain ⟨⟨hnew, hknown⟩, h⟩ := Option.ite_none_right_eq_some.mp hnext
      cases h
      rw [List.filterMap_append, hemitted, hnew]
      exact ⟨rfl, rfl, fun _ => hknown⟩

theorem requestParser_reads (w : Nat) : requestParser.requests.Reads HttpEvent.requestHead?
    (framedOnce getRequest ⟨getRequest⟩) w where
  latches := ⟨rfl, fun _ _ _ => rfl, fun _ _ _ _ _ => rfl⟩
  framed := by
    intro taken emitted p h hdrained
    obtain ⟨rfl, hemitted, hknown⟩ := requestParser_after h
    rw [hemitted, framedOnce]
    obtain ⟨seen, _ | _⟩ := p
    · have hnew : ¬getRequest.isPrefixOf seen := by
        intro hknown
        have hnext : requestParser.nextEvent (seen, false) =
            some (.requestHead ⟨getRequest⟩, (seen, true)) := if_pos ⟨rfl, hknown⟩
        cases hdrained.symm.trans hnext
      rw [if_neg hnew]
      rfl
    · rw [if_pos (hknown rfl)]
      rfl
  grows := framedOnce_grows _ _
  final := by
    intro taken emitted p _ _ hinactive
    cases hinactive
  window := by
    intro taken emitted p _ _ input _ _
    exact Nat.min_le_right _ _

theorem quietParser_reads (w : Nat) : (quietParser.on .initiator).Reads Http2Event.requestHead?
    (fun _ => []) w where
  latches := ⟨rfl, fun _ _ _ => rfl, fun _ _ _ _ _ => rfl⟩
  framed := by
    intro taken emitted p h _
    induction h with
    | start => rfl
    | push input _ ih => exact ih rfl
    | next _ hnext => cases hnext
  grows := fun _ _ => List.prefix_rfl
  final := by
    intro taken emitted p _ _ hinactive
    cases hinactive
  window := by
    intro taken emitted p _ _ input _ _
    exact Nat.min_le_right _ _

theorem sample_stable (w : Nat) : sampleParsers.Stable sampleFraming w where
  classify := by
    rintro bytes _ protocol h ⟨more, rfl⟩
    simp only [sampleParsers] at h ⊢
    split at h
    · cases h
    · rename_i hlen
      have hlong : ¬(bytes ++ more).length < 6 := by
        rw [List.length_append]
        omega
      rw [if_neg hlong, List.take_append_of_le_length (by omega),
        List.take_append_of_le_length (by omega)]
      exact h
  tlsHeader := by
    intro bytes h
    simp only [sampleParsers] at h ⊢
    split at h
    · cases h
    · rename_i hlen
      have hlong : ¬(bytes.take 16).length < 6 := by
        rw [List.length_take]
        omega
      rw [if_neg hlong, List.take_take, List.take_take]
      exact h
  tls := helloParser_reassembles
  http := requestParser_reads w
  http2 := fun _ => quietParser_reads w

def sampleText : KeyText := ⟨.narrow, fun c => c.toString⟩

def sampleDoor : DoorConfig := ⟨1024, ⟨1, .stream, .importing⟩⟩

/-- The ClientHello in two segments, of which the first is too short to be classified. -/
def helloInput : TcpInput := ⟨[clientHello.take 3, clientHello.drop 3], .clean, by decide⟩

def helloSchedule : List DoorAction :=
  [.peek 3 false, .peek 64 false, .peek 16 false, .read, .read, .resolve (.ok .host)]

/-- The request in two such segments. -/
def requestInput : TcpInput := ⟨[getRequest.take 3, getRequest.drop 3], .clean, by decide⟩

def requestSchedule : List DoorAction :=
  [.peek 3 false, .peek 35 false, .peek 35 false, .peek 16 false, .read, .read,
    .resolve (.ok .host)]

theorem hello_connects :
    (exec (step sampleDoor) (start (sampleParsers.inspector sampleText) .auto helloInput)
      helloSchedule).map phase = some (.connecting (some "api.local") (some clientHello)) := rfl

theorem request_connects :
    (exec (step sampleDoor) (start (sampleParsers.inspector sampleText) .auto requestInput)
      requestSchedule).map phase = some (.connecting (some "api.local") (some getRequest)) := rfl

/-- Both connections are routed by the name in all of their bytes. -/
theorem auto_routed_by_bytes_doors :
    (∃ t : ImportConnection (sampleParsers.inspector sampleText),
      t.phase = .connecting (some "api.local") (some clientHello) ∧
      RoutedByBytes sampleFraming sampleDoor clientHello t.phase) ∧
    ∃ t : ImportConnection (sampleParsers.inspector sampleText),
      t.phase = .connecting (some "api.local") (some getRequest) ∧
      RoutedByBytes sampleFraming sampleDoor getRequest t.phase := by
  constructor
  · obtain ⟨t, run, hphase⟩ := Option.map_eq_some_iff.mp hello_connects
    have hbytes : helloInput.reads.flatten = clientHello := rfl
    have hfits : sampleFraming.HeadFits sampleDoor helloInput.reads.flatten := by
      intro hhead
      exact absurd rfl hhead
    have htime : ∀ a ∈ helloSchedule, InTime a := by simp [helloSchedule, InTime]
    have hgrowing : Growing helloSchedule := by
      change [3, 64, 16].Pairwise fun m n => min m 16 ≤ n
      decide
    have hroutes := auto_routed_by_bytes sampleDoor sampleText (sample_stable 1024)
      (Nat.le_refl 1024) helloInput hfits htime hgrowing run
    rw [hbytes] at hroutes
    exact ⟨t, hphase, hroutes⟩
  · obtain ⟨t, run, hphase⟩ := Option.map_eq_some_iff.mp request_connects
    have hbytes : requestInput.reads.flatten = getRequest := rfl
    have hfits : sampleFraming.HeadFits sampleDoor requestInput.reads.flatten := by
      intro hhead
      rw [hbytes] at hhead ⊢
      rwa [List.take_of_length_le (by decide)]
    have htime : ∀ a ∈ requestSchedule, InTime a := by simp [requestSchedule, InTime]
    have hgrowing : Growing requestSchedule := by
      change [3, 35, 35, 16].Pairwise fun m n => min m 16 ≤ n
      decide
    have hroutes := auto_routed_by_bytes sampleDoor sampleText (sample_stable 1024)
      (Nat.le_refl 1024) requestInput hfits htime hgrowing run
    rw [hbytes] at hroutes
    exact ⟨t, hphase, hroutes⟩

end ImportConnection

end ZenohBridge
