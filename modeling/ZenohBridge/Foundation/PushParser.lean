import Mathlib.Data.List.Basic

/-!
# Parsers that input is pushed into

A parser accepts a part of what is pushed into it and has events ready, which are taken one by
one. Its user pushes until a push accepts nothing and takes all events. A reader of a stream does
so for each piece it reads, and offers what was refused again in front of the next piece.

If the items among the events are a function of the accepted input, then the first item that the
reader sees is the first item of the stream, however it was cut. And the reader passes over no
item that is complete within the window, which is what the parser has room for while it has not
framed any.

## Main definitions

* `PushParser`: a parser with its `push`, its `next` event and a bound on the events ready
* `pushAll`, `drainAll`: the two loops of its user
* `After`: what was accepted and emitted, however the parser was used
* `Frames`: the items are those of the accepted input
* `read`, `Passed`: the reader that keeps what was refused
-/

/-- A parser that accepts a part of what is pushed into it. -/
structure PushParser (β ε : Type*) where
  State : Type
  start : State
  /-- The result is how much of the input was accepted. -/
  push : List β → State → Nat × State
  next : State → Option (ε × State)
  /-- The parser still frames what it is given. -/
  active : State → Bool
  /-- A bound on the events that are ready. -/
  backlog : State → Nat
  push_le : ∀ input p, (push input p).1 ≤ input.length
  next_lt : ∀ p e p', next p = some (e, p') → backlog p' < backlog p

namespace PushParser

/-- What a push loop leaves: the refused tail and the parser, with what was accepted. -/
structure Pushed {β ε : Type*} (P : PushParser β ε) where
  accepted : List β
  tail : List β
  parser : P.State

variable {β ε : Type*} (P : PushParser β ε)

/-- At most `fuel` iterations of the push loop. -/
def pushLoop : Nat → P.State → List β → List β → Pushed P
  | 0, p, accepted, pending => ⟨accepted, pending, p⟩
  | fuel + 1, p, accepted, pending =>
      if pending.isEmpty then ⟨accepted, pending, p⟩
      else
        let n := (P.push pending p).1
        let p' := (P.push pending p).2
        if n = 0 then ⟨accepted, pending, p'⟩
        else pushLoop fuel p' (accepted ++ pending.take n) (pending.drop n)

/-- Push until all is accepted or a push accepts nothing. -/
def pushAll (p : P.State) (input : List β) : Pushed P := P.pushLoop input.length p [] input

/-- At most `fuel` iterations of the event loop. -/
def drain : Nat → P.State → List ε × P.State
  | 0, p => ([], p)
  | fuel + 1, p =>
      match P.next p with
      | none => ([], p)
      | some (e, p') => (e :: (drain fuel p').1, (drain fuel p').2)

/-- Every event the parser can currently produce. -/
def drainAll (p : P.State) : List ε × P.State := P.drain (P.backlog p) p

/-- The parser has accepted this input and emitted these events. -/
inductive After : List β → List ε → P.State → Prop where
  | start : After [] [] P.start
  | push {taken emitted p} (input : List β) (h : After taken emitted p) :
      After (taken ++ input.take (P.push input p).1) emitted (P.push input p).2
  | next {taken emitted p e p'} (h : After taken emitted p) (hnext : P.next p = some (e, p')) :
      After taken (emitted ++ [e]) p'

variable {P} {p q : P.State} {input : List β} {taken : List β} {emitted : List ε} {fuel : Nat}

/-- What is accepted and what is refused are the input, cut once. -/
theorem pushLoop_split (fuel : Nat) (p : P.State) (accepted pending : List β) :
    (P.pushLoop fuel p accepted pending).accepted ++ (P.pushLoop fuel p accepted pending).tail =
      accepted ++ pending := by
  induction fuel generalizing p accepted pending with
  | zero => rfl
  | succ fuel ih =>
      simp only [pushLoop]
      split
      · rfl
      · split
        · rfl
        · rw [ih, List.append_assoc, List.take_append_drop]

theorem pushAll_split (p : P.State) (input : List β) :
    (P.pushAll p input).accepted ++ (P.pushAll p input).tail = input :=
  pushLoop_split input.length p [] input

/-- What was accepted so far stays in front. -/
theorem pushLoop_prefix (fuel : Nat) (p : P.State) (accepted pending : List β) :
    accepted <+: (P.pushLoop fuel p accepted pending).accepted := by
  induction fuel generalizing p accepted pending with
  | zero => exact List.prefix_rfl
  | succ fuel ih =>
      simp only [pushLoop]
      split
      · exact List.prefix_rfl
      · split
        · exact List.prefix_rfl
        · exact (List.prefix_append _ _).trans (ih _ _ _)

/-- The loop begins with one push. -/
theorem pushAll_of_nonempty (hne : input ≠ []) : ∃ fuel, P.pushAll p input =
    if (P.push input p).1 = 0 then ⟨[], input, (P.push input p).2⟩
    else P.pushLoop fuel (P.push input p).2 (input.take (P.push input p).1)
      (input.drop (P.push input p).1) := by
  obtain ⟨fuel, hfuel⟩ := Nat.exists_eq_succ_of_ne_zero (mt List.length_eq_zero_iff.mp hne)
  refine ⟨fuel, ?_⟩
  rw [pushAll, hfuel, pushLoop, if_neg (mt List.isEmpty_iff.mp hne)]
  rfl

/-- What the first push accepts is accepted. -/
theorem take_prefix_pushAll (p : P.State) (input : List β) :
    input.take (P.push input p).1 <+: (P.pushAll p input).accepted := by
  by_cases hne : input = []
  · subst hne
    rw [List.take_nil]
    exact List.nil_prefix
  obtain ⟨fuel, hfirst⟩ := pushAll_of_nonempty (p := p) hne
  rw [hfirst]
  split
  · rename_i hzero
    rw [hzero]
    exact List.prefix_rfl
  · exact pushLoop_prefix _ _ _ _

/-- A push after which the parser is full is the last one that takes something. -/
theorem accepted_of_full (hne : input ≠ [])
    (hfull : ∀ rest, (P.push rest (P.push input p).2).1 = 0) :
    (P.pushAll p input).accepted = input.take (P.push input p).1 := by
  obtain ⟨fuel, hfirst⟩ := pushAll_of_nonempty (p := p) hne
  rw [hfirst]
  split
  · rename_i hzero
    rw [hzero]
    rfl
  · cases fuel with
    | zero => rfl
    | succ fuel =>
        simp only [pushLoop, hfull]
        split <;> rfl

/-- Only what is accepted reaches the parser. -/
theorem After.pushLoop (pending : List β) {accepted : List β} (fuel : Nat)
    (h : P.After (taken ++ accepted) emitted p) :
    P.After (taken ++ (P.pushLoop fuel p accepted pending).accepted) emitted
      (P.pushLoop fuel p accepted pending).parser := by
  induction fuel generalizing p accepted pending with
  | zero => exact h
  | succ fuel ih =>
      simp only [PushParser.pushLoop]
      split
      · exact h
      · have hpush := h.push pending
        split
        · rename_i hzero
          rwa [hzero, List.take_zero, List.append_nil] at hpush
        · rw [List.append_assoc] at hpush
          exact ih _ hpush

theorem After.pushAll (h : P.After taken emitted p) (input : List β) :
    P.After (taken ++ (P.pushAll p input).accepted) emitted (P.pushAll p input).parser := by
  apply After.pushLoop
  rwa [List.append_nil]

/-- A drain ends with a parser that has no event left. -/
theorem After.drain (h : P.After taken emitted p) (hfuel : P.backlog p ≤ fuel) :
    P.After taken (emitted ++ (P.drain fuel p).1) (P.drain fuel p).2 ∧
      P.next (P.drain fuel p).2 = none := by
  induction fuel generalizing p emitted with
  | zero =>
      rw [PushParser.drain, List.append_nil]
      refine ⟨h, ?_⟩
      cases hnext : P.next p with
      | none => rfl
      | some r =>
          have hlt := P.next_lt p r.1 r.2 hnext
          omega
  | succ fuel ih =>
      cases hnext : P.next p with
      | none =>
          simp only [PushParser.drain, hnext, List.append_nil]
          exact ⟨h, trivial⟩
      | some r =>
          have hlt := P.next_lt p r.1 r.2 hnext
          simp only [PushParser.drain, hnext]
          have hrest := ih (h.next hnext) (by omega)
          rwa [List.append_assoc] at hrest

theorem After.drainAll (h : P.After taken emitted p) :
    P.After taken (emitted ++ (P.drainAll p).1) (P.drainAll p).2 ∧
      P.next (P.drainAll p).2 = none :=
  h.drain (Nat.le_refl _)

section Reading

variable {ι : Type*} (P)

/-- The items among the events are those of the accepted input, however it was pushed. -/
def Frames (item : ε → Option ι) (items : List β → List ι) : Prop :=
  ∀ {taken emitted p}, P.After taken emitted p → P.next p = none →
    emitted.filterMap item = items taken

/-- A fresh parser has no event, and one that is no longer active stays so. -/
structure Latches : Prop where
  start : P.next P.start = none
  push : ∀ input p, P.active (P.push input p).2 = true → P.active p = true
  next : ∀ p e p', P.next p = some (e, p') → P.active p' = true → P.active p = true

/-- What is known of a parser that a stream is read through. -/
structure Reads (item : ε → Option ι) (items : List β → List ι) (w : Nat) : Prop where
  latches : P.Latches
  framed : P.Frames item items
  grows : ∀ input more, items input <+: items (input ++ more)
  /-- A parser that is no longer active has framed all that there is. -/
  final : ∀ {taken emitted p}, P.After taken emitted p → P.next p = none → P.active p = false →
    ∀ more, items (taken ++ more) = items taken
  /-- While there is no item, the parser has room for a window of `w`. -/
  window : ∀ {taken emitted p}, P.After taken emitted p → P.next p = none → ∀ input,
    P.active (P.push input p).2 = true → items (taken ++ input.take (P.push input p).1) = [] →
    min w (taken.length + input.length) ≤ taken.length + (P.push input p).1

/-- One read: the piece is pushed behind what was refused, and the items are taken. -/
def read (item : ε → Option ι) (s : List β × P.State) (piece : List β) :
    List ι × List β × P.State :=
  let pushed := P.pushAll s.2 (s.1 ++ piece)
  let drained := P.drainAll pushed.parser
  (drained.1.filterMap item, pushed.tail, drained.2)

/-- The reader has read these pieces, seen no item and not given up. -/
inductive Passed (item : ε → Option ι) : List (List β) → List β × P.State → Prop where
  | start : Passed item [] ([], P.start)
  | read {pieces s} (piece : List β) (h : Passed item pieces s)
      (hnone : (P.read item s piece).1 = []) (hactive : P.active (P.read item s piece).2.2 = true) :
      Passed item (pieces ++ [piece]) (P.read item s piece).2

variable {P} {item : ε → Option ι} {items : List β → List ι} {w : Nat} {pieces : List (List β)}
  {s : List β × P.State} {piece : List β} {i : ι} {rest : List ι}

theorem Latches.pushLoop (L : P.Latches) (fuel : Nat) (p : P.State) (accepted pending : List β)
    (h : P.active (P.pushLoop fuel p accepted pending).parser = true) : P.active p = true := by
  induction fuel generalizing p accepted pending with
  | zero => exact h
  | succ fuel ih =>
      simp only [PushParser.pushLoop] at h
      split at h
      · exact h
      · split at h
        · exact L.push _ _ h
        · exact L.push _ _ (ih _ _ _ h)

/-- A parser that is active after the loop was so after its first push. -/
theorem Latches.pushAll (L : P.Latches) (hne : input ≠ [])
    (h : P.active (P.pushAll p input).parser = true) : P.active (P.push input p).2 = true := by
  obtain ⟨fuel, hfirst⟩ := pushAll_of_nonempty (p := p) hne
  rw [hfirst] at h
  split at h
  · exact h
  · exact L.pushLoop _ _ _ _ h

theorem Latches.drain (L : P.Latches) (fuel : Nat) (p : P.State)
    (h : P.active (P.drain fuel p).2 = true) : P.active p = true := by
  induction fuel generalizing p with
  | zero => exact h
  | succ fuel ih =>
      cases hnext : P.next p with
      | none =>
          simp only [PushParser.drain, hnext] at h
          exact h
      | some r =>
          simp only [PushParser.drain, hnext] at h
          exact L.next p r.1 r.2 hnext (ih r.2 h)

theorem Reads.nil_of_prefix (h : P.Reads item items w) {short long : List β}
    (hbegins : short <+: long) (hnone : items long = []) : items short = [] := by
  obtain ⟨more, rfl⟩ := hbegins
  exact List.prefix_nil.mp (hnone ▸ h.grows short more)

/-- What a reader pushes is accepted within the window, while there is no item. -/
theorem Reads.room (h : P.Reads item items w) (hafter : P.After taken emitted p)
    (hdrained : P.next p = none)
    (hactive : P.active (P.drainAll (P.pushAll p input).parser).2 = true)
    (hnone : items (taken ++ (P.pushAll p input).accepted) = []) :
    min w (taken.length + input.length) ≤ taken.length + (P.pushAll p input).accepted.length := by
  by_cases hne : input = []
  · subst hne
    exact Nat.min_le_right _ _
  · have hfirst := h.latches.pushAll hne (h.latches.drain _ _ hactive)
    have hbegins := take_prefix_pushAll p input
    have hroom := h.window hafter hdrained input hfirst
      (h.nil_of_prefix (List.prefix_append_right_inj taken |>.mpr hbegins) hnone)
    have hlength := hbegins.length_le
    rw [List.length_take_of_le (P.push_le input p)] at hlength
    omega

/-- What the reader has read is accepted or kept, and kept only beyond the window. -/
theorem Passed.keeps (h : P.Passed item pieces s) (hP : P.Reads item items w) :
    ∃ taken emitted, P.After taken emitted s.2 ∧ P.next s.2 = none ∧ items taken = [] ∧
      taken ++ s.1 = pieces.flatten ∧ min w pieces.flatten.length ≤ taken.length := by
  induction h with
  | start =>
      have hnone := hP.framed .start hP.latches.start
      exact ⟨[], [], .start, hP.latches.start, hnone.symm, rfl, Nat.min_le_right _ _⟩
  | @read pieces s piece _ hnone hactive ih =>
      obtain ⟨taken, emitted, hafter, hdrained, hbefore, hsplit, -⟩ := ih
      obtain ⟨hread, hdrained'⟩ := (hafter.pushAll (s.1 ++ piece)).drainAll
      have hitems := hP.framed hread hdrained'
      have hold := hP.framed hafter hdrained
      rw [hbefore] at hold
      have hnew : (P.drainAll (P.pushAll s.2 (s.1 ++ piece)).parser).1.filterMap item = [] := hnone
      rw [List.filterMap_append, hold, hnew, List.nil_append] at hitems
      refine ⟨_, _, hread, hdrained', hitems.symm, ?_, ?_⟩
      · have hpiece := pushAll_split s.2 (s.1 ++ piece)
        rw [List.append_assoc]
        change taken ++ ((P.pushAll s.2 (s.1 ++ piece)).accepted ++
          (P.pushAll s.2 (s.1 ++ piece)).tail) = _
        rw [hpiece, ← List.append_assoc, hsplit, List.flatten_append, List.flatten_singleton]
      · have hroom := hP.room hafter hdrained hactive hitems.symm
        have hlength : (pieces ++ [piece]).flatten.length =
            taken.length + (s.1 ++ piece).length := by
          rw [List.flatten_append, List.flatten_singleton, ← hsplit]
          simp only [List.length_append, Nat.add_assoc]
        rw [hlength]
        exact Nat.le_trans hroom (Nat.le_of_eq List.length_append.symm)

/-- The first item that the reader sees is the first one of what it has read. -/
theorem Passed.first (h : P.Passed item pieces s) (hP : P.Reads item items w)
    (hitem : (P.read item s piece).1 = i :: rest) :
    (items (pieces.flatten ++ piece)).head? = some i := by
  obtain ⟨taken, emitted, hafter, hdrained, hbefore, hsplit, -⟩ := h.keeps hP
  obtain ⟨hread, hdrained'⟩ := (hafter.pushAll (s.1 ++ piece)).drainAll
  have hitems := hP.framed hread hdrained'
  have hold := hP.framed hafter hdrained
  rw [hbefore] at hold
  have hnew : (P.drainAll (P.pushAll s.2 (s.1 ++ piece)).parser).1.filterMap item = i :: rest :=
    hitem
  rw [List.filterMap_append, hold, hnew, List.nil_append] at hitems
  have hstream : taken ++ (P.pushAll s.2 (s.1 ++ piece)).accepted ++
      (P.pushAll s.2 (s.1 ++ piece)).tail = pieces.flatten ++ piece := by
    rw [List.append_assoc, pushAll_split, ← List.append_assoc, hsplit]
  obtain ⟨more, hmore⟩ := hP.grows (taken ++ (P.pushAll s.2 (s.1 ++ piece)).accepted)
    (P.pushAll s.2 (s.1 ++ piece)).tail
  rw [← hstream, ← hmore, ← hitems]
  rfl

/-- A reader that has seen no item has read none that is complete within the window. -/
theorem Passed.none (h : P.Passed item pieces s) (hP : P.Reads item items w) :
    items (pieces.flatten.take w) = [] := by
  obtain ⟨taken, emitted, -, -, hbefore, hsplit, hroom⟩ := h.keeps hP
  refine hP.nil_of_prefix ?_ hbefore
  have htaken : taken <+: pieces.flatten := ⟨_, hsplit⟩
  apply List.prefix_of_prefix_length_le (List.take_prefix _ _) htaken
  rwa [List.length_take]

/-- A parser that gives up without an item has none to come. -/
theorem Reads.none_of_inactive (h : P.Reads item items w)
    (hnone : (P.read item ([], P.start) input).1 = [])
    (hinactive : P.active (P.read item ([], P.start) input).2.2 = false) (more : List β) :
    items (input ++ more) = [] := by
  obtain ⟨hread, hdrained⟩ := ((After.start (P := P)).pushAll input).drainAll
  have hitems := h.framed hread hdrained
  have hnew : (P.drainAll (P.pushAll P.start input).parser).1.filterMap item = [] := hnone
  rw [List.nil_append, List.nil_append, hnew] at hitems
  have hfinal := h.final hread hdrained hinactive ((P.pushAll P.start input).tail ++ more)
  rwa [List.nil_append, ← hitems, ← List.append_assoc, pushAll_split] at hfinal

end Reading

end PushParser
