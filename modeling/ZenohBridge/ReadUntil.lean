import ZenohBridge.ImportDoors

/-!
# The size of a routing head

`read_until` is the shell of the head readers. It offers every chunk to an incremental parser
first and compares what it has buffered with `max_header_size` only when the parser has no
answer yet. A head within the limit is therefore always parsed. A longer one is refused only
if the reads before the one that completes it already fill the limit.

## Implementation notes

The reads of a stream are given as a list, so every segmentation is one of them. A list that
ends without an answer is a reader that still waits.
-/

namespace ZenohBridge

open Execution

/-- What a read of the stream returns. A read of no bytes is its end. -/
inductive ReadResult where
  | bytes (chunk : Bytes)
  | failed (reason : String)
  | timeout

/-- `ReadHeadOutcome`. -/
inductive ReadHeadOutcome (T : Type) where
  | parsed (value : T) (buffer : Bytes)
  | timeout (buffer : Bytes)

section ReadUntil

variable {σ T : Type} (maxHeaderSize : Nat) (what : String)
  (step : σ → Bytes → Except String (Option T) × σ)

/-- The loop of `read_until`. -/
def readUntil : σ → Bytes → List ReadResult → Option (Except String (ReadHeadOutcome T))
  | _, _, [] => none
  | _, buffer, .timeout :: _ => some (.ok (.timeout buffer))
  | _, _, .failed reason :: _ =>
      some (.error ("read error while reading " ++ what ++ ": " ++ reason))
  | parser, buffer, .bytes chunk :: rest =>
      if chunk.length = 0 then some (.error ("connection closed before complete " ++ what))
      else
        match step parser chunk with
        | (.error e, _) => some (.error e)
        | (.ok (some value), _) => some (.ok (.parsed value (buffer ++ chunk)))
        | (.ok none, parser) =>
            if maxHeaderSize ≤ (buffer ++ chunk).length then
              some (.error (what ++ " exceeds maximum size of " ++ toString maxHeaderSize ++
                " bytes"))
            else readUntil parser (buffer ++ chunk) rest

/-- The parser after some chunks. -/
def feed (parser : σ) (chunks : List Bytes) : σ := chunks.foldl (fun s c => (step s c).2) parser

theorem feed_append (parser : σ) (chunks : List Bytes) (chunk : Bytes) :
    feed step parser (chunks ++ [chunk]) = (step (feed step parser chunks) chunk).2 := by
  simp [feed]

/-- The answers of the parser depend on what it has seen and not on how it was cut. -/
def Incremental (start : σ) (answer : Bytes → Except String (Option T)) : Prop :=
  ∀ chunks chunk, (step (feed step start chunks) chunk).1 = answer (chunks.flatten ++ chunk)

end ReadUntil

/-- The first `L` bytes of the stream are what the parser needs. -/
structure FirstYields {T : Type} (answer : Bytes → Except String (Option T)) (stream : Bytes)
    (L : Nat) : Prop where
  nonempty : stream ≠ []
  within : L ≤ stream.length
  before : ∀ n, n < L → answer (stream.take n) = .ok none
  after : ∀ n, L ≤ n → ∃ value, answer (stream.take n) = .ok (some value)

/-- A segmentation of the stream into reads. -/
structure Segments (stream : Bytes) (reads : List Bytes) : Prop where
  flatten : reads.flatten = stream
  nonempty : ∀ chunk ∈ reads, chunk ≠ []
  window : ∀ chunk ∈ reads, chunk.length ≤ 4096

def Parses {T : Type} (r : Option (Except String (ReadHeadOutcome T))) : Prop :=
  ∃ value buffer, r = some (.ok (.parsed value buffer))

def Fails {T : Type} (r : Option (Except String (ReadHeadOutcome T))) : Prop :=
  ∃ e, r = some (.error e)

theorem Fails.not_parses {T : Type} {r : Option (Except String (ReadHeadOutcome T))} (h : Fails r) :
    ¬Parses r := by
  rintro ⟨value, buffer, hparsed⟩
  obtain ⟨e, he⟩ := h
  cases he.symm.trans hparsed

/-- The reads that come before the one with which `L` bytes are complete. -/
structure Completes (L : Nat) (reads early : List Bytes) : Prop where
  split : ∃ chunk late, reads = early ++ chunk :: late ∧
    L ≤ (early ++ [chunk]).flatten.length
  early : early = [] ∨ early.flatten.length < L

/-- The reads before the completing one fill the limit. -/
def FillsEarly (L maxHeaderSize : Nat) (reads : List Bytes) : Prop :=
  ∃ early, Completes L reads early ∧ early ≠ [] ∧ maxHeaderSize ≤ early.flatten.length

theorem exists_completes {L : Nat} {reads : List Bytes} (hne : reads ≠ [])
    (hL : L ≤ reads.flatten.length) : ∃ early, Completes L reads early := by
  induction reads generalizing L with
  | nil => exact absurd rfl hne
  | cons chunk rest ih =>
      by_cases hfirst : L ≤ chunk.length
      · exact ⟨[], ⟨chunk, rest, rfl, by simpa using hfirst⟩, .inl rfl⟩
      · have hlen : L - chunk.length ≤ rest.flatten.length := by
          simp only [List.flatten_cons, List.length_append] at hL
          omega
        have hrest : rest ≠ [] := by
          rintro rfl
          simp only [List.flatten_nil, List.length_nil] at hlen
          omega
        obtain ⟨early, ⟨last, late, rfl, hlast⟩, hearly⟩ := ih hrest hlen
        refine ⟨chunk :: early, ⟨last, late, rfl, ?_⟩, .inr ?_⟩
        · simp only [List.cons_append, List.flatten_cons, List.length_append] at hlast ⊢
          omega
        · obtain rfl | hearly := hearly
          · simp only [List.flatten_cons, List.flatten_nil, List.append_nil]
            omega
          · simp only [List.flatten_cons, List.length_append]
            omega

section Verdict

variable {σ T : Type} {step : σ → Bytes → Except String (Option T) × σ} {start : σ}
  {answer : Bytes → Except String (Option T)} {stream : Bytes} {L maxHeaderSize : Nat}
  {what : String} {reads early seen : List Bytes} {chunk : Bytes} {rest : List ReadResult}

theorem flatten_concat (seen : List Bytes) (chunk : Bytes) :
    (seen ++ [chunk]).flatten = seen.flatten ++ chunk := by
  simp

theorem flatten_initial (a b : List Bytes) : a.flatten <+: (a ++ b).flatten := by
  rw [List.flatten_append]
  exact List.prefix_append _ _

/-- An iteration of the loop before the head is complete. -/
theorem readUntil_incomplete (hinc : Incremental step start answer) (hchunk : chunk ≠ [])
    (hanswer : answer (seen ++ [chunk]).flatten = .ok none) :
    readUntil maxHeaderSize what step (feed step start seen) seen.flatten (.bytes chunk :: rest) =
      if maxHeaderSize ≤ (seen ++ [chunk]).flatten.length then
        some (.error (what ++ " exceeds maximum size of " ++ toString maxHeaderSize ++ " bytes"))
      else
        readUntil maxHeaderSize what step (feed step start (seen ++ [chunk]))
          (seen ++ [chunk]).flatten rest := by
  rw [flatten_concat, ← hinc] at hanswer
  have hstep : step (feed step start seen) chunk = (.ok none, feed step start (seen ++ [chunk])) := by
    rw [feed_append, ← hanswer]
  have hlen : ¬chunk.length = 0 := by
    rwa [List.length_eq_zero_iff]
  rw [readUntil, if_neg hlen, hstep, flatten_concat]

/-- The iteration with which the head is complete. -/
theorem readUntil_complete (hinc : Incremental step start answer) (hchunk : chunk ≠ []) {value : T}
    (hanswer : answer (seen ++ [chunk]).flatten = .ok (some value)) :
    readUntil maxHeaderSize what step (feed step start seen) seen.flatten (.bytes chunk :: rest) =
      some (.ok (.parsed value (seen ++ [chunk]).flatten)) := by
  rw [flatten_concat, ← hinc] at hanswer
  have hstep : step (feed step start seen) chunk =
      (.ok (some value), feed step start (seen ++ [chunk])) := by
    rw [feed_append, ← hanswer]
  have hlen : ¬chunk.length = 0 := by
    rwa [List.length_eq_zero_iff]
  rw [readUntil, if_neg hlen, hstep, flatten_concat]

/-- Before the head is complete the parser has no answer. -/
theorem FirstYields.answer_none (hyields : FirstYields answer stream L) {bytes : Bytes}
    (hbytes : bytes <+: stream) (hlen : bytes.length < L) : answer bytes = .ok none := by
  rw [List.prefix_iff_eq_take.mp hbytes]
  exact hyields.before _ hlen

theorem FirstYields.answer_some (hyields : FirstYields answer stream L) {bytes : Bytes}
    (hbytes : bytes <+: stream) (hlen : L ≤ bytes.length) :
    ∃ value, answer bytes = .ok (some value) := by
  rw [List.prefix_iff_eq_take.mp hbytes]
  exact hyields.after _ hlen

/-- The loop passes over early reads that stay below the limit. -/
theorem readUntil_early (seen : List Bytes) (hinc : Incremental step start answer)
    (hyields : FirstYields answer stream L) (hnonempty : ∀ c ∈ early, c ≠ [])
    (hinit : (seen ++ early).flatten <+: stream) (hL : (seen ++ early).flatten.length < L)
    (hmax : (seen ++ early).flatten.length < maxHeaderSize) :
    readUntil maxHeaderSize what step (feed step start seen) seen.flatten
        (early.map .bytes ++ rest) =
      readUntil maxHeaderSize what step (feed step start (seen ++ early)) (seen ++ early).flatten
        rest := by
  induction early generalizing seen with
  | nil => simp
  | cons chunk early ih =>
      have happ : seen ++ chunk :: early = (seen ++ [chunk]) ++ early := by simp
      rw [happ] at hinit hL hmax ⊢
      have hfirst := flatten_initial (seen ++ [chunk]) early
      have hle := hfirst.length_le
      rw [List.map_cons, List.cons_append, readUntil_incomplete hinc
        (hnonempty chunk List.mem_cons_self)
        (hyields.answer_none (hfirst.trans hinit) (by omega)), if_neg (by omega)]
      apply ih (seen ++ [chunk]) _ hinit hL hmax
      intro c hc
      exact hnonempty c (List.mem_cons_of_mem _ hc)

/-- Early reads that fill the limit end the loop with an error. -/
theorem readUntil_overfull (seen : List Bytes) (hinc : Incremental step start answer)
    (hyields : FirstYields answer stream L) (hnonempty : ∀ c ∈ early, c ≠ []) (hearly : early ≠ [])
    (hinit : (seen ++ early).flatten <+: stream) (hL : (seen ++ early).flatten.length < L)
    (hmax : maxHeaderSize ≤ (seen ++ early).flatten.length) :
    Fails (readUntil maxHeaderSize what step (feed step start seen) seen.flatten
      (early.map .bytes ++ rest)) := by
  induction early generalizing seen with
  | nil => exact absurd rfl hearly
  | cons chunk early ih =>
      have happ : seen ++ chunk :: early = (seen ++ [chunk]) ++ early := by simp
      rw [happ] at hinit hL hmax
      have hfirst := flatten_initial (seen ++ [chunk]) early
      have hle := hfirst.length_le
      rw [List.map_cons, List.cons_append, readUntil_incomplete hinc
        (hnonempty chunk List.mem_cons_self)
        (hyields.answer_none (hfirst.trans hinit) (by omega))]
      split
      · exact ⟨_, rfl⟩
      · rename_i hfits
        apply ih (seen ++ [chunk]) _ _ hinit hL hmax
        · intro c hc
          exact hnonempty c (List.mem_cons_of_mem _ hc)
        · rintro rfl
          simp only [List.append_nil] at hmax
          exact hfits hmax

/-- A head is parsed if the reads before the completing one stay below the limit. -/
theorem parses_of_completes (hinc : Incremental step start answer)
    (hyields : FirstYields answer stream L) (hreads : Segments stream reads)
    (hearly : Completes L reads early) (hfits : early = [] ∨ early.flatten.length < maxHeaderSize) :
    Parses (readUntil maxHeaderSize what step start [] (reads.map .bytes ++ rest)) := by
  obtain ⟨⟨chunk, late, rfl, hchunk⟩, hbefore⟩ := hearly
  have happ : early ++ chunk :: late = (early ++ [chunk]) ++ late := by simp
  have hcomplete : (early ++ [chunk]).flatten <+: stream := by
    rw [← hreads.flatten, happ]
    exact flatten_initial _ _
  obtain ⟨value, hvalue⟩ := hyields.answer_some hcomplete hchunk
  have hlast : ∀ rest, Parses (readUntil maxHeaderSize what step (feed step start early)
      early.flatten (.bytes chunk :: rest)) := by
    intro rest
    rw [readUntil_complete hinc (hreads.nonempty chunk (by simp)) hvalue]
    exact ⟨value, _, rfl⟩
  rw [List.map_append, List.map_cons, List.append_assoc, List.cons_append]
  by_cases hnil : early = []
  · subst hnil
    exact hlast _
  · have hinit := (flatten_initial early [chunk]).trans hcomplete
    have hskip : ∀ rest, readUntil maxHeaderSize what step start [] (early.map .bytes ++ rest) =
        readUntil maxHeaderSize what step (feed step start early) early.flatten rest := by
      intro rest
      exact readUntil_early [] hinc hyields (fun c hc => hreads.nonempty c (by simp [hc])) hinit
        (hbefore.resolve_left hnil) (hfits.resolve_left hnil)
    rw [hskip]
    exact hlast _

/-- A head is refused if the reads before the completing one fill the limit. -/
theorem fails_of_fillsEarly (hinc : Incremental step start answer)
    (hyields : FirstYields answer stream L) (hreads : Segments stream reads)
    (hfull : FillsEarly L maxHeaderSize reads) :
    Fails (readUntil maxHeaderSize what step start [] (reads.map .bytes ++ rest)) := by
  obtain ⟨early, ⟨⟨chunk, late, rfl, hchunk⟩, hbefore⟩, hne, hmax⟩ := hfull
  have hinit : early.flatten <+: stream := by
    rw [← hreads.flatten]
    exact flatten_initial _ _
  rw [List.map_append, List.append_assoc]
  exact readUntil_overfull [] hinc hyields
    (fun c hc => hreads.nonempty c (by simp [hc])) hne hinit (hbefore.resolve_left hne) hmax

/-- The verdict on a head does not depend on how the reads fell, and is the one that
`max_header_size` asks for, exactly when the head is within the limit or both segmentations
fill the limit before the read that completes the head. -/
theorem head_size_verdict_iff (hinc : Incremental step start answer)
    (hyields : FirstYields answer stream L) {reads' : List Bytes} {rest' : List ReadResult}
    (hreads : Segments stream reads) (hreads' : Segments stream reads') :
    let r := readUntil maxHeaderSize what step start [] (reads.map .bytes ++ rest)
    let r' := readUntil maxHeaderSize what step start [] (reads'.map .bytes ++ rest')
    (((Parses r ∧ Parses r') ∨ (Fails r ∧ Fails r')) ∧ (Parses r ↔ L ≤ maxHeaderSize) ∧
        (Parses r' ↔ L ≤ maxHeaderSize)) ↔
      (L ≤ maxHeaderSize ∨ FillsEarly L maxHeaderSize reads ∧ FillsEarly L maxHeaderSize reads') := by
  intro r r'
  -- a head that is not refused early is parsed
  have hparses : ∀ {reads : List Bytes} {rest : List ReadResult}, Segments stream reads →
      L ≤ maxHeaderSize ∨ ¬FillsEarly L maxHeaderSize reads →
      Parses (readUntil maxHeaderSize what step start [] (reads.map .bytes ++ rest)) := by
    intro reads rest hreads hcond
    have hne : reads ≠ [] := by
      rintro rfl
      exact hyields.nonempty hreads.flatten.symm
    obtain ⟨early, hearly⟩ := exists_completes hne (hreads.flatten ▸ hyields.within)
    apply parses_of_completes hinc hyields hreads hearly
    by_cases hnil : early = []
    · exact .inl hnil
    · right
      obtain hle | hnot := hcond
      · have := hearly.early.resolve_left hnil
        omega
      · by_contra hfull
        exact hnot ⟨early, hearly, hnil, Nat.le_of_not_lt hfull⟩
  have hfails : ∀ {reads : List Bytes} {rest : List ReadResult}, Segments stream reads →
      FillsEarly L maxHeaderSize reads →
      Fails (readUntil maxHeaderSize what step start [] (reads.map .bytes ++ rest)) :=
    fun hreads hfull => fails_of_fillsEarly hinc hyields hreads hfull
  constructor
  · rintro ⟨-, hr, hr'⟩
    by_cases hL : L ≤ maxHeaderSize
    · exact .inl hL
    · right
      constructor
      · by_contra hnot
        exact hL (hr.mp (hparses hreads (.inr hnot)))
      · by_contra hnot
        exact hL (hr'.mp (hparses hreads' (.inr hnot)))
  · intro hcond
    by_cases hL : L ≤ maxHeaderSize
    · have hp : Parses r := hparses hreads (.inl hL)
      have hp' : Parses r' := hparses hreads' (.inl hL)
      exact ⟨.inl ⟨hp, hp'⟩, ⟨fun _ => hL, fun _ => hp⟩, ⟨fun _ => hL, fun _ => hp'⟩⟩
    · obtain ⟨hfull, hfull'⟩ := hcond.resolve_left hL
      have hf : Fails r := hfails hreads hfull
      have hf' : Fails r' := hfails hreads' hfull'
      exact ⟨.inr ⟨hf, hf'⟩, ⟨fun h => absurd h hf.not_parses, fun h => absurd h hL⟩,
        ⟨fun h => absurd h hf'.not_parses, fun h => absurd h hL⟩⟩

end Verdict

/-- A parser that waits for the first `L` bytes. -/
def lengthStep (L : Nat) (seen : Nat) (chunk : Bytes) : Except String (Option Unit) × Nat :=
  (.ok (if L ≤ seen + chunk.length then some () else none), seen + chunk.length)

def lengthAnswer (L : Nat) (bytes : Bytes) : Except String (Option Unit) :=
  .ok (if L ≤ bytes.length then some () else none)

theorem feed_lengthStep (L seen : Nat) (chunks : List Bytes) :
    feed (lengthStep L) seen chunks = seen + chunks.flatten.length := by
  induction chunks generalizing seen with
  | nil => rfl
  | cons chunk rest ih =>
      calc
        feed (lengthStep L) seen (chunk :: rest) = feed (lengthStep L) (seen + chunk.length) rest := rfl
        _ = seen + chunk.length + rest.flatten.length := ih _
        _ = seen + (chunk :: rest).flatten.length := by
            rw [List.flatten_cons, List.length_append]
            omega

theorem incremental_lengthStep (L : Nat) : Incremental (lengthStep L) 0 (lengthAnswer L) := by
  intro chunks chunk
  rw [feed_lengthStep]
  simp [lengthStep, lengthAnswer]

theorem firstYields_lengthAnswer {L : Nat} {stream : Bytes} (hne : stream ≠ [])
    (hL : L ≤ stream.length) : FirstYields (lengthAnswer L) stream L := by
  refine ⟨hne, hL, ?_, ?_⟩
  · intro n hn
    have hlen : ¬L ≤ (stream.take n).length := by
      rw [List.length_take]
      omega
    rw [lengthAnswer, if_neg hlen]
  · intro n hn
    have hlen : L ≤ (stream.take n).length := by
      rw [List.length_take]
      omega
    exact ⟨(), by rw [lengthAnswer, if_pos hlen]⟩

/-- A head of three bytes has one verdict in both segmentations. -/
theorem head_size_verdict_small :
    let r := readUntil 1024 "TLS ClientHello" (lengthStep 3) 0 [] ([[22, 3], [1]].map .bytes ++ [])
    let r' := readUntil 1024 "TLS ClientHello" (lengthStep 3) 0 [] ([[22, 3, 1]].map .bytes ++ [])
    ((Parses r ∧ Parses r') ∨ (Fails r ∧ Fails r')) ∧ (Parses r ↔ 3 ≤ 1024) ∧
      (Parses r' ↔ 3 ≤ 1024) := by
  have hyields : FirstYields (lengthAnswer 3) [22, 3, 1] 3 :=
    firstYields_lengthAnswer (by decide) (by decide)
  exact (head_size_verdict_iff (incremental_lengthStep 3) hyields
    ⟨rfl, by decide, by decide⟩ ⟨rfl, by decide, by decide⟩).mpr (.inl (by decide))

/-- A head of 1500 bytes with a limit of 1024 is parsed if it comes in one read, and refused if
the first read has 1024 bytes. -/
theorem head_size_verdict_depends :
    ¬∀ (σ T : Type) (step : σ → Bytes → Except String (Option T) × σ) (start : σ)
      (answer : Bytes → Except String (Option T)) (stream : Bytes) (L maxHeaderSize : Nat)
      (what : String) (reads reads' : List Bytes) (rest rest' : List ReadResult),
      Incremental step start answer → FirstYields answer stream L → Segments stream reads →
      Segments stream reads' →
      let r := readUntil maxHeaderSize what step start [] (reads.map .bytes ++ rest)
      let r' := readUntil maxHeaderSize what step start [] (reads'.map .bytes ++ rest')
      ((Parses r ∧ Parses r') ∨ (Fails r ∧ Fails r')) ∧ (Parses r ↔ L ≤ maxHeaderSize) ∧
        (Parses r' ↔ L ≤ maxHeaderSize) := by
  intro hall
  obtain ⟨a, ha⟩ : ∃ a : Bytes, a.length = 1024 := ⟨.replicate 1024 0, List.length_replicate⟩
  obtain ⟨b, hb⟩ : ∃ b : Bytes, b.length = 476 := ⟨.replicate 476 0, List.length_replicate⟩
  have hlen : (a ++ b).length = 1500 := by
    rw [List.length_append, ha, hb]
  have hne : ∀ {bytes : Bytes}, 0 < bytes.length → bytes ≠ [] := List.ne_nil_of_length_pos
  have hyields : FirstYields (lengthAnswer 1500) (a ++ b) 1500 :=
    firstYields_lengthAnswer (hne (by omega)) (by omega)
  have hone : Segments (a ++ b) [a ++ b] := by
    refine ⟨List.append_nil _, ?_, ?_⟩
    · intro c hc
      rw [List.mem_singleton.mp hc]
      exact hne (by omega)
    · intro c hc
      rw [List.mem_singleton.mp hc]
      omega
  have htwo : Segments (a ++ b) [a, b] := by
    refine ⟨by simp, ?_, ?_⟩
    · intro c hc
      obtain rfl | rfl : c = a ∨ c = b := by simpa using hc
      · exact hne (by omega)
      · exact hne (by omega)
    · intro c hc
      obtain rfl | rfl : c = a ∨ c = b := by simpa using hc
      · omega
      · omega
  have hinc := incremental_lengthStep 1500
  have hparses : Parses (readUntil 1024 "TLS ClientHello" (lengthStep 1500) 0 []
      ([a ++ b].map .bytes ++ [])) :=
    parses_of_completes hinc hyields hone ⟨⟨a ++ b, [], rfl, by simp; omega⟩, .inl rfl⟩ (.inl rfl)
  have hverdict := hall Nat Unit (lengthStep 1500) 0 (lengthAnswer 1500) (a ++ b) 1500 1024
    "TLS ClientHello" [a ++ b] [a, b] [] [] hinc hyields hone htwo
  have hle := hverdict.2.1.mp hparses
  omega

namespace ImportConnection

variable {I : Inspector} {cfg : DoorConfig}

/-- What the phase after a run of `read_until` is. -/
def outcomePhase : Except String (ReadHeadOutcome (Option String)) → DoorPhase I
  | .ok (.parsed dns buffer) => .resolving dns buffer
  | .ok (.timeout _) => .refused
  | .error _ => .refused

/-- A read takes one chunk into the loop. -/
theorem step_read (cfg : DoorConfig) {door : HeadDoor} {parser : (I.reader door).State}
    {buffer chunk : Bytes}
    {rest : List Bytes} {t : ImportConnection I} (hphase : t.phase = .reading door parser buffer)
    (hreads : t.input.reads = chunk :: rest) :
    ∃ t', step cfg t .read = some t' ∧ t'.phase = afterChunk cfg door parser buffer chunk ∧
      t'.input.reads = rest := by
  obtain ⟨phase, ⟨reads, ending, hnonempty⟩, ready, published⟩ := t
  obtain rfl : phase = .reading door parser buffer := hphase
  obtain rfl : reads = chunk :: rest := hreads
  have hlen : ¬chunk.length = 0 := by
    rw [List.length_eq_zero_iff]
    exact hnonempty chunk List.mem_cons_self
  let input : TcpInput := ⟨rest, ending, fun x hx => hnonempty x (List.mem_cons_of_mem _ hx)⟩
  refine ⟨⟨afterChunk cfg door parser buffer chunk, input, false, published⟩, ?_, rfl, rfl⟩
  simp only [step, onRead, TcpInput.readBuf, if_neg hlen, input]

/-- The read steps of a connection are the loop of `read_until`. -/
theorem exec_read {door : HeadDoor} {parser : (I.reader door).State} {buffer : Bytes}
    {t : ImportConnection I} (hphase : t.phase = .reading door parser buffer) {what : String}
    {outcome : Except String (ReadHeadOutcome (Option String))}
    (h : readUntil cfg.maxHeaderSize what (I.reader door).step parser buffer
      (t.input.reads.map .bytes) = some outcome) :
    ∃ n t', exec (step cfg) t (.replicate n .read) = some t' ∧ t'.phase = outcomePhase outcome := by
  induction hreads : t.input.reads generalizing t parser buffer with
  | nil =>
      rw [hreads] at h
      cases h
  | cons chunk rest ih =>
      obtain ⟨t₁, hstep, hphase₁, hreads₁⟩ := step_read cfg hphase hreads
      have hlen : ¬chunk.length = 0 := by
        rw [List.length_eq_zero_iff]
        exact t.input.nonempty chunk (by simp [hreads])
      rw [hreads, List.map_cons, readUntil, if_neg hlen] at h
      rw [afterChunk] at hphase₁
      split at h
      · rename_i hanswer
        rw [hanswer] at hphase₁
        obtain rfl := Option.some.inj h
        exact ⟨1, t₁, by simp [exec, hstep], hphase₁⟩
      · rename_i hanswer
        rw [hanswer] at hphase₁
        obtain rfl := Option.some.inj h
        exact ⟨1, t₁, by simp [exec, hstep], hphase₁⟩
      · rename_i next hanswer
        rw [hanswer] at hphase₁
        simp only at hphase₁
        split at h
        · rename_i hfull
          rw [if_pos hfull] at hphase₁
          obtain rfl := Option.some.inj h
          exact ⟨1, t₁, by simp [exec, hstep], hphase₁⟩
        · rename_i hfits
          rw [if_neg hfits] at hphase₁
          obtain ⟨n, t', hexec, ht'⟩ := ih hphase₁ (hreads₁ ▸ h) hreads₁
          refine ⟨n + 1, t', ?_, ht'⟩
          rw [List.replicate_succ, exec, hstep]
          exact hexec

end ImportConnection

end ZenohBridge
