import Mathlib.Data.List.Basic

/-!
# The HTTP parser of a client connection

One `HttpProxyParser` of flowscope frames both directions of a client connection. The
bridge pushes bytes, which the parser may accept in part, and drains the events it has
framed. The parser is a parameter here: what the bridge calls are its operations, and what
is known of them are the two laws that every parser has, a push accepts no more than it was
offered and a drain ends.

The further laws are separate structures, so that a result names them when it relies on them:
`Conserves` for parsers whose events hold the accepted bytes in order, `Latches` for those that
never frame again once they are poisoned or tunnelled.

## Implementation notes

The bytes are elements of an arbitrary type, so that a result may follow where they come
from. `backlog` bounds the events a parser has ready; it makes `drain_events` a structural
recursion. `pushBytes` also returns the accepted bytes, which the source does not keep.
-/

namespace ZenohBridge

/-- The two directions of a client connection. -/
inductive FlowSide where
  | initiator
  | responder
  deriving DecidableEq, Repr

/-- A request head with its bytes on the wire. -/
structure RequestHead (β : Type) where
  raw : List β
  deriving DecidableEq, Repr

/-- A response head with its bytes on the wire and what the close decision reads. -/
structure ResponseHead (β : Type) where
  raw : List β
  interim : Bool
  /-- The body ends with the connection (`BodyFraming::UntilClose`). -/
  untilClose : Bool
  /-- The version is HTTP/1.0. -/
  http10 : Bool
  /-- The values of all `Connection` headers. -/
  connection : List (List UInt8)
  deriving DecidableEq, Repr

/-- What the parser has framed. -/
inductive HttpEvent (β : Type) where
  | requestHead (head : RequestHead β)
  | responseHead (head : ResponseHead β)
  | body (dir : FlowSide) (raw : List β)
  | trailers (dir : FlowSide) (raw : List β)
  /-- The message of this direction is complete (`HttpEvent::End`). -/
  | endMessage (dir : FlowSide)
  | switchProtocols
  deriving DecidableEq, Repr

namespace HttpEvent

variable {β : Type}

/-- The direction an event belongs to; a protocol switch ends both. -/
def side : HttpEvent β → Option FlowSide
  | requestHead _ => some .initiator
  | responseHead _ => some .responder
  | body dir _ => some dir
  | trailers dir _ => some dir
  | endMessage dir => some dir
  | switchProtocols => none

/-- The bytes on the wire that an event stands for. -/
def raw : HttpEvent β → List β
  | requestHead head => head.raw
  | responseHead head => head.raw
  | body _ raw => raw
  | trailers _ raw => raw
  | endMessage _ => []
  | switchProtocols => []

/-- The bytes of an event on one side. -/
def rawOn (side : FlowSide) (e : HttpEvent β) : List β := if e.side = some side then e.raw else []

end HttpEvent

/-- The bytes of the events of one side, in order. -/
def rawsOn {β : Type} (side : FlowSide) (events : List (HttpEvent β)) : List β :=
  events.flatMap (HttpEvent.rawOn side)

/-- The request heads among the events, in order. -/
def requestHeads {β : Type} (events : List (HttpEvent β)) : List (RequestHead β) :=
  events.filterMap fun e => match e with
    | .requestHead head => some head
    | _ => none

section Events

variable {β : Type} {side : FlowSide}

theorem rawOn_eq_nil {e : HttpEvent β} (h : e.side ≠ some side) : e.rawOn side = [] :=
  if_neg h

theorem rawOn_eq_raw {e : HttpEvent β} (h : e.side = some side) : e.rawOn side = e.raw :=
  if_pos h

@[simp] theorem rawsOn_cons (e : HttpEvent β) (events : List (HttpEvent β)) :
    rawsOn side (e :: events) = e.rawOn side ++ rawsOn side events := rfl

@[simp] theorem rawsOn_append (xs ys : List (HttpEvent β)) :
    rawsOn side (xs ++ ys) = rawsOn side xs ++ rawsOn side ys :=
  List.flatMap_append

@[simp] theorem requestHeads_nil : requestHeads ([] : List (HttpEvent β)) = [] := rfl

@[simp] theorem requestHeads_append (xs ys : List (HttpEvent β)) :
    requestHeads (xs ++ ys) = requestHeads xs ++ requestHeads ys :=
  List.filterMap_append

end Events

/-- Why the parser refuses the connection. -/
structure PoisonReason where
  text : String
  impliesClientFault : Option Bool
  deriving DecidableEq, Repr

/-- The parser as the bridge calls it. -/
structure HttpProxyParser (β : Type) where
  State : Type
  start : State
  /-- Offer bytes on one side; the result is how many of them were accepted. -/
  push : FlowSide → List β → State → Nat × State
  nextEvent : State → Option (HttpEvent β × State)
  fin : FlowSide → State → State
  poison : State → Option PoisonReason
  isTunnelled : State → Bool
  isDone : State → Bool
  takeTunnelResidue : FlowSide → State → List β × State
  /-- A bound on the events that are ready. -/
  backlog : State → Nat
  push_le : ∀ side bytes p, (push side bytes p).1 ≤ bytes.length
  nextEvent_lt : ∀ p e p', nextEvent p = some (e, p') → backlog p' < backlog p

/-- What `push_bytes` leaves: the refused tail and the parser, with the accepted bytes. -/
structure PushResult {β : Type} (P : HttpProxyParser β) where
  accepted : List β
  tail : List β
  parser : P.State

namespace HttpProxyParser

variable {β : Type} (P : HttpProxyParser β)

/-- At most `fuel` iterations of the `next_event` loop. -/
def drain : Nat → P.State → List (HttpEvent β) × P.State
  | 0, p => ([], p)
  | fuel + 1, p =>
      match P.nextEvent p with
      | none => ([], p)
      | some (e, p') => (e :: (drain fuel p').1, (drain fuel p').2)

/-- `drain_events`: every event the parser can currently produce. -/
def drainEvents (p : P.State) : List (HttpEvent β) × P.State := P.drain (P.backlog p) p

/-- At most `fuel` iterations of the `push` loop. -/
def pushLoop (side : FlowSide) :
    Nat → P.State → List β → List β → PushResult P
  | 0, p, accepted, pending => ⟨accepted, pending, p⟩
  | fuel + 1, p, accepted, pending =>
      if pending.isEmpty then ⟨accepted, pending, p⟩
      else
        let n := (P.push side pending p).1
        let p' := (P.push side pending p).2
        if n = 0 then ⟨accepted, pending, p'⟩
        else pushLoop side fuel p' (accepted ++ pending.take n) (pending.drop n)

/-- `push_bytes`: push until all bytes are accepted or a push accepts none. -/
def pushBytes (side : FlowSide) (p : P.State) (bytes : List β) : PushResult P :=
  P.pushLoop side bytes.length p [] bytes

/-- The events of a side carry the accepted bytes of that side in order: what is accepted
and not yet emitted is `buffered`. -/
structure Conserves where
  buffered : FlowSide → P.State → List β
  start : ∀ side, buffered side P.start = []
  push : ∀ side bytes p, buffered side (P.push side bytes p).2 =
    buffered side p ++ bytes.take (P.push side bytes p).1
  push_other : ∀ side other bytes p, other ≠ side →
    buffered other (P.push side bytes p).2 = buffered other p
  nextEvent : ∀ side p e p', P.nextEvent p = some (e, p') →
    buffered side p = e.rawOn side ++ buffered side p'
  fin : ∀ side other p, buffered other (P.fin side p) = buffered other p
  residue : ∀ side p, buffered side p =
    (P.takeTunnelResidue side p).1 ++ buffered side (P.takeTunnelResidue side p).2
  residue_other : ∀ side other p, other ≠ side →
    buffered other (P.takeTunnelResidue side p).2 = buffered other p

/-- The parser still frames what it is given. -/
def Framing (p : P.State) : Prop := P.poison p = none ∧ P.isTunnelled p = false

/-- A fresh parser has no event, and one that frames no more never frames again. -/
structure Latches : Prop where
  start : P.nextEvent P.start = none
  push : ∀ side bytes p, P.Framing (P.push side bytes p).2 → P.Framing p
  nextEvent : ∀ p e p', P.nextEvent p = some (e, p') → P.Framing p' → P.Framing p
  fin : ∀ side p, P.Framing (P.fin side p) → P.Framing p

variable {P}

theorem nextEvent_drain {fuel : Nat} {p : P.State} (h : P.backlog p ≤ fuel) :
    P.nextEvent (P.drain fuel p).2 = none := by
  induction fuel generalizing p with
  | zero =>
      cases hnext : P.nextEvent p with
      | none => exact hnext
      | some r =>
          have hlt := P.nextEvent_lt p r.1 r.2 hnext
          omega
  | succ fuel ih =>
      cases hnext : P.nextEvent p with
      | none => simp only [drain, hnext]
      | some r =>
          have hlt := P.nextEvent_lt p r.1 r.2 hnext
          simp only [drain, hnext]
          apply ih
          omega

/-- The loop of `drain_events` ends because the parser has no event left. -/
theorem nextEvent_drainEvents (p : P.State) : P.nextEvent (P.drainEvents p).2 = none :=
  nextEvent_drain (Nat.le_refl _)

/-- The loop of `drain_events` is not cut short by its fuel. -/
theorem drain_eq_drainEvents {fuel : Nat} {p : P.State} (h : P.backlog p ≤ fuel) :
    P.drain fuel p = P.drainEvents p := by
  suffices hall : ∀ fuel fuel' p, P.backlog p ≤ fuel → P.backlog p ≤ fuel' →
      P.drain fuel p = P.drain fuel' p from hall _ _ p h (Nat.le_refl _)
  intro fuel
  induction fuel with
  | zero =>
      intro fuel' p h h'
      cases fuel' with
      | zero => rfl
      | succ fuel' =>
          have hnone : P.nextEvent p = none := nextEvent_drain h
          simp only [drain, hnone]
  | succ fuel ih =>
      intro fuel' p h h'
      cases hnext : P.nextEvent p with
      | none => cases fuel' <;> simp only [drain, hnext]
      | some r =>
          have hlt := P.nextEvent_lt p r.1 r.2 hnext
          cases fuel' with
          | zero => omega
          | succ fuel' =>
              have htail : P.drain fuel r.2 = P.drain fuel' r.2 :=
                ih fuel' r.2 (by omega) (by omega)
              simp only [drain, hnext, htail]

/-- A property of parsers that `next_event` carries over survives a drain. -/
theorem drain_induction {motive : P.State → List (HttpEvent β) → P.State → Prop}
    (nil : ∀ p, motive p [] p)
    (cons : ∀ p e p' events q, P.nextEvent p = some (e, p') → motive p' events q →
      motive p (e :: events) q)
    (p : P.State) : motive p (P.drainEvents p).1 (P.drainEvents p).2 := by
  suffices hall : ∀ fuel p, motive p (P.drain fuel p).1 (P.drain fuel p).2 from hall _ p
  intro fuel
  induction fuel with
  | zero => exact nil
  | succ fuel ih =>
      intro p
      cases hnext : P.nextEvent p with
      | none => simpa only [drain, hnext] using nil p
      | some r =>
          simp only [drain, hnext]
          exact cons p r.1 r.2 _ _ hnext (ih r.2)

theorem Conserves.drainEvents (C : P.Conserves) (side : FlowSide) (p : P.State) :
    C.buffered side p =
      rawsOn side (P.drainEvents p).1 ++ C.buffered side (P.drainEvents p).2 := by
  refine drain_induction (motive := fun p events q =>
    C.buffered side p = rawsOn side events ++ C.buffered side q) (fun _ => rfl) ?_ p
  intro p e p' events q hnext ih
  rw [C.nextEvent side p e p' hnext, ih, rawsOn_cons, List.append_assoc]

section Push

variable {side : FlowSide}

/-- What a push accepts and what it refuses are the offered bytes, cut once. -/
theorem pushLoop_split (fuel : Nat) (p : P.State) (accepted pending : List β) :
    (P.pushLoop side fuel p accepted pending).accepted ++
      (P.pushLoop side fuel p accepted pending).tail = accepted ++ pending := by
  induction fuel generalizing p accepted pending with
  | zero => rfl
  | succ fuel ih =>
      rw [pushLoop]
      split
      · rfl
      · simp only
        split
        · rfl
        · rw [ih, List.append_assoc, List.take_append_drop]

theorem pushBytes_split (p : P.State) (bytes : List β) :
    (P.pushBytes side p bytes).accepted ++ (P.pushBytes side p bytes).tail = bytes :=
  pushLoop_split bytes.length p [] bytes

theorem pushLoop_tail_le (fuel : Nat) (p : P.State) (accepted pending : List β) :
    (P.pushLoop side fuel p accepted pending).tail.length ≤ pending.length := by
  induction fuel generalizing p accepted pending with
  | zero => exact Nat.le_refl _
  | succ fuel ih =>
      rw [pushLoop]
      split
      · exact Nat.le_refl _
      · simp only
        split
        · exact Nat.le_refl _
        · refine Nat.le_trans (ih _ _ _) ?_
          rw [List.length_drop]
          exact Nat.sub_le _ _

/-- The first push takes its part off the tail. -/
theorem pushBytes_tail_le (side : FlowSide) (p : P.State) (bytes : List β) :
    (P.pushBytes side p bytes).tail.length ≤ bytes.length - (P.push side bytes p).1 := by
  by_cases hne : bytes = []
  · subst hne
    exact Nat.zero_le _
  obtain ⟨fuel, hfuel⟩ := Nat.exists_eq_succ_of_ne_zero (mt List.length_eq_zero_iff.mp hne)
  have hempty : ¬bytes.isEmpty = true := mt List.isEmpty_iff.mp hne
  rw [pushBytes, hfuel, pushLoop, if_neg hempty, ← hfuel]
  simp only
  split
  · rename_i hzero
    rw [hzero]
    exact Nat.le_refl _
  · exact Nat.le_trans (pushLoop_tail_le _ _ _ _) (Nat.le_of_eq List.length_drop)

/-- A first push that accepts something leaves less. -/
theorem pushBytes_tail_lt {p : P.State} {bytes : List β} (hne : bytes ≠ [])
    (hpush : 0 < (P.push side bytes p).1) :
    (P.pushBytes side p bytes).tail.length < bytes.length := by
  have hpos : 0 < bytes.length := List.length_pos_iff.mpr hne
  have htail := P.pushBytes_tail_le side p bytes
  omega

/-- The loop of `push_bytes` is not cut short by its fuel. -/
theorem pushLoop_eq_pushBytes {fuel : Nat} {p : P.State} {bytes : List β}
    (h : bytes.length ≤ fuel) : P.pushLoop side fuel p [] bytes = P.pushBytes side p bytes := by
  suffices hall : ∀ fuel fuel' p accepted pending, pending.length ≤ fuel →
      pending.length ≤ fuel' → P.pushLoop side fuel p accepted pending =
        P.pushLoop side fuel' p accepted pending from hall _ _ p [] bytes h (Nat.le_refl _)
  intro fuel
  induction fuel with
  | zero =>
      intro fuel' p accepted pending h h'
      obtain rfl := List.length_eq_zero_iff.mp (Nat.le_zero.mp h)
      cases fuel' <;> rfl
  | succ fuel ih =>
      intro fuel' p accepted pending h h'
      cases fuel' with
      | zero =>
          obtain rfl := List.length_eq_zero_iff.mp (Nat.le_zero.mp h')
          rfl
      | succ fuel' =>
          simp only [pushLoop]
          split
          · rfl
          · split
            · rfl
            · apply ih <;> rw [List.length_drop] <;> omega

/-- A property of parsers that `push` carries over survives `push_bytes`. -/
theorem pushBytes_induction {motive : List β → P.State → Prop} {p : P.State}
    (start : motive [] p)
    (push : ∀ accepted bytes q, motive accepted q →
      motive (accepted ++ bytes.take (P.push side bytes q).1) (P.push side bytes q).2)
    (bytes : List β) :
    motive (P.pushBytes side p bytes).accepted (P.pushBytes side p bytes).parser := by
  suffices hall : ∀ fuel q accepted pending, motive accepted q →
      motive (P.pushLoop side fuel q accepted pending).accepted
        (P.pushLoop side fuel q accepted pending).parser from hall _ _ _ _ start
  intro fuel
  induction fuel with
  | zero => exact fun q accepted pending h => h
  | succ fuel ih =>
      intro q accepted pending h
      rw [pushLoop]
      split
      · exact h
      · have hpush := push accepted pending q h
        simp only
        split
        · rename_i hzero
          simpa only [hzero, List.take_zero, List.append_nil] using hpush
        · exact ih _ _ _ hpush

theorem Conserves.pushBytes (C : P.Conserves) (p : P.State) (bytes : List β) :
    C.buffered side (P.pushBytes side p bytes).parser =
      C.buffered side p ++ (P.pushBytes side p bytes).accepted := by
  refine pushBytes_induction (motive := fun accepted q =>
    C.buffered side q = C.buffered side p ++ accepted) (List.append_nil _).symm ?_ bytes
  intro accepted bytes q h
  rw [C.push, h, List.append_assoc]

theorem Conserves.pushBytes_other (C : P.Conserves) {other : FlowSide} (hne : other ≠ side)
    (p : P.State) (bytes : List β) :
    C.buffered other (P.pushBytes side p bytes).parser = C.buffered other p := by
  refine pushBytes_induction (motive := fun _ q => C.buffered other q = C.buffered other p)
    rfl ?_ bytes
  intro accepted bytes q h
  rw [C.push_other side other bytes q hne, h]

end Push

theorem Latches.pushBytes (L : P.Latches) {side : FlowSide} {p : P.State} (bytes : List β)
    (h : P.Framing (P.pushBytes side p bytes).parser) : P.Framing p :=
  pushBytes_induction (motive := fun _ q => P.Framing q → P.Framing p) id
    (fun _ bytes q hq hpushed => hq (L.push side bytes q hpushed)) bytes h

theorem Latches.drainEvents (L : P.Latches) {p : P.State} (h : P.Framing (P.drainEvents p).2) :
    P.Framing p :=
  drain_induction (motive := fun p _ q => P.Framing q → P.Framing p) (fun _ => id)
    (fun p e p' _ _ hnext ih hq => L.nextEvent p e p' hnext (ih hq)) p h

end HttpProxyParser

end ZenohBridge
