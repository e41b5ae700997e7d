import ZenohBridge.Foundation.Search
import ZenohBridge.Transport

/-!
# The head of a metrics request

The metrics server reads a request until the end of its headers, or until a cap. After each
read it scans from three bytes before the length that it had scanned, where the terminator can
begin that the read has completed. The loop stops at the read at which a scan of everything
would have stopped it.

## Implementation notes

A read that returns no bytes is the end of the stream. The timeout around the loop drops the
connection and is not part of it.
-/

namespace ZenohBridge

open Search

/-- What `stream.read` returned. -/
inductive HeadRead where
  | ok (bytes : Bytes)
  | err
  deriving DecidableEq, Repr

/-- What the read loop has come to with the reads it was given. -/
inductive HeadLoop where
  /-- Another read is awaited. -/
  | reading (got : Bytes)
  | stopped (got : Bytes) (unread : List HeadRead)
  /-- A read failed and the connection is dropped. -/
  | dropped (unread : List HeadRead)
  deriving DecidableEq, Repr

/-- The condition under which the read loop breaks after a read. -/
def breaksHead (scanned : Nat) (got : Bytes) : Bool :=
  (windows 4 (got.drop (scanned - 3))).any (fun w => decide (w = crlfCrlf)) ||
    decide (8192 < got.length)

/-- The read loop of `handle_conn`. -/
def readHead (got : Bytes) (scanned : Nat) : List HeadRead → HeadLoop
  | [] => .reading got
  | .err :: unread => .dropped unread
  | .ok [] :: unread => .stopped got unread
  | .ok (b :: bytes) :: unread =>
      let got := got ++ b :: bytes
      if breaksHead scanned got then .stopped got unread else readHead got got.length unread

/-- What a full scan looks for: the terminator anywhere, or a head beyond the cap. -/
def HeadComplete (got : Bytes) : Prop := crlfCrlf <:+: got ∨ 8192 < got.length

/-- Reads with bytes, after none of which a full scan would stop the loop. -/
structure ReadsOn (got : Bytes) (chunks : List Bytes) : Prop where
  nonempty : ∀ c ∈ chunks, c ≠ []
  incomplete : ∀ earlier, earlier <+: chunks → ¬ HeadComplete (got ++ earlier.flatten)

variable {got chunk : Bytes} {chunks : List Bytes}

theorem readsOn_nil (h : ¬ HeadComplete got) : ReadsOn got [] := by
  constructor
  · intro c hc
    cases hc
  · intro earlier hearlier
    rw [List.prefix_nil.mp hearlier]
    simpa using h

theorem ReadsOn.cons (hne : chunk ≠ []) (hgot : ¬ HeadComplete got)
    (h : ReadsOn (got ++ chunk) chunks) : ReadsOn got (chunk :: chunks) := by
  constructor
  · exact List.forall_mem_cons.mpr ⟨hne, h.nonempty⟩
  · intro earlier hearlier
    cases earlier with
    | nil => simpa using hgot
    | cons c earlier =>
        obtain ⟨rfl, hrest⟩ := List.cons_prefix_cons.mp hearlier
        have hlater := h.incomplete earlier hrest
        rwa [List.append_assoc, ← List.flatten_cons] at hlater

/-- After a full scan the overlap is all that the next one has to look at. -/
theorem breaksHead_iff (h : ¬ HeadComplete got) :
    breaksHead got.length (got ++ chunk) = true ↔ HeadComplete (got ++ chunk) := by
  have hne : crlfCrlf ≠ [] := by decide
  have hold : ¬ crlfCrlf <:+: got := fun hfound => h (.inl hfound)
  have hdrop : (got ++ chunk).drop (got.length - 3) = got.drop (got.length - 3) ++ chunk :=
    List.drop_append_of_le_length (Nat.sub_le _ _)
  have hscan := any_windows_iff (s := got.drop (got.length - 3) ++ chunk) hne
  have hoverlap := infix_append_iff_overlap (s := got) (t := chunk) hne
  rw [or_iff_right hold] at hoverlap
  rw [breaksHead, hdrop, Bool.or_eq_true, decide_eq_true_eq, HeadComplete, hoverlap]
  exact or_congr_left hscan

/-- One read that returned bytes. -/
theorem readHead_ok (hgot : ¬ HeadComplete got) (hne : chunk ≠ []) (unread : List HeadRead) :
    (HeadComplete (got ++ chunk) →
      readHead got got.length (.ok chunk :: unread) = .stopped (got ++ chunk) unread) ∧
    (¬ HeadComplete (got ++ chunk) →
      readHead got got.length (.ok chunk :: unread) =
        readHead (got ++ chunk) (got ++ chunk).length unread) := by
  obtain ⟨b, bytes, rfl⟩ := List.exists_cons_of_ne_nil hne
  constructor
  · intro hcomplete
    exact if_pos ((breaksHead_iff hgot).mpr hcomplete)
  · intro hcomplete
    exact if_neg fun hbreaks => hcomplete ((breaksHead_iff hgot).mp hbreaks)

/-- The loop reads on, and then it is at the end of its reads or does what a full scan does. -/
theorem readHead_eq (hgot : ¬ HeadComplete got) (reads : List HeadRead) :
    ∃ chunks, ReadsOn got chunks ∧
      ((reads = chunks.map .ok ∧
          readHead got got.length reads = .reading (got ++ chunks.flatten)) ∨
        (∃ unread, reads = chunks.map .ok ++ .err :: unread ∧
          readHead got got.length reads = .dropped unread) ∨
        (∃ last unread, reads = chunks.map .ok ++ .ok last :: unread ∧
          (last = [] ∨ HeadComplete (got ++ chunks.flatten ++ last)) ∧
          readHead got got.length reads = .stopped (got ++ chunks.flatten ++ last) unread)) := by
  induction reads generalizing got with
  | nil => exact ⟨[], readsOn_nil hgot, .inl ⟨rfl, by simp [readHead]⟩⟩
  | cons read unread ih =>
      cases read with
      | err => exact ⟨[], readsOn_nil hgot, .inr (.inl ⟨unread, rfl, rfl⟩)⟩
      | ok chunk =>
          by_cases hend : chunk = []
          · subst hend
            exact ⟨[], readsOn_nil hgot,
              .inr (.inr ⟨[], unread, rfl, .inl rfl, by simp [readHead]⟩)⟩
          obtain ⟨hstop, hgo⟩ := readHead_ok hgot hend unread
          by_cases hcomplete : HeadComplete (got ++ chunk)
          · refine ⟨[], readsOn_nil hgot, .inr (.inr ⟨chunk, unread, rfl, .inr ?_, ?_⟩)⟩
            · simpa using hcomplete
            · simpa using hstop hcomplete
          · obtain ⟨chunks, hreads, hcases⟩ := ih hcomplete
            refine ⟨chunk :: chunks, hreads.cons hend hgot, ?_⟩
            rw [hgo hcomplete, List.flatten_cons, ← List.append_assoc]
            obtain ⟨rfl, hloop⟩ | ⟨rest, rfl, hloop⟩ | ⟨last, rest, rfl, hlast, hloop⟩ := hcases
            · exact .inl ⟨rfl, hloop⟩
            · exact .inr (.inl ⟨rest, rfl, hloop⟩)
            · exact .inr (.inr ⟨last, rest, rfl, hlast, hloop⟩)

/-- The overlapping scan is exact. Whatever the reads return, the loop goes on after reads with
bytes as long as what it has got neither has the terminator anywhere nor exceeds the cap; the
first read after which it has or does, or that is the end of the stream, stops it. -/
theorem metrics_head_scan_exact (reads : List HeadRead) :
    ∃ chunks, ReadsOn [] chunks ∧
      ((reads = chunks.map .ok ∧ readHead [] 0 reads = .reading chunks.flatten) ∨
        (∃ unread, reads = chunks.map .ok ++ .err :: unread ∧
          readHead [] 0 reads = .dropped unread) ∨
        (∃ last unread, reads = chunks.map .ok ++ .ok last :: unread ∧
          (last = [] ∨ HeadComplete (chunks.flatten ++ last)) ∧
          readHead [] 0 reads = .stopped (chunks.flatten ++ last) unread)) := by
  have hstart : ¬ HeadComplete [] := by
    rintro (hfound | hlength)
    · exact absurd (List.infix_nil.mp hfound) (by decide)
    · exact absurd hlength (by decide)
  exact readHead_eq hstart reads

/-- A terminator that spans three reads. -/
example : readHead [] 0 [.ok (asBytes "GET / HTTP/1.1\r"), .ok (asBytes "\n"),
    .ok (asBytes "\r\n"), .err] = .stopped (asBytes "GET / HTTP/1.1\r\n\r\n") [.err] := by
  decide +kernel

end ZenohBridge
