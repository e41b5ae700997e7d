import ZenohBridge.Multiroute

/-!
# A parser of bodiless messages

A small parser that frames what the head alone delimits. A request is a head, a `204`
response is a head, a `101` response is a head and a protocol switch, any other interim head
is followed by the next head of the same response, and any other response has a body that
runs to the end of the connection. It holds at most `window` bytes a side and refuses the
rest, and it frames a response whenever one is complete, also a second one that follows the
first in the same push. Once it has reported a switch it is tunnelled and done.

Its events carry the accepted bytes in order. It stands for the real parser on the inputs on
which both frame alike.
-/

namespace ZenohBridge

/-- The bytes of an ASCII text. -/
def wire (text : String) : List UInt8 := text.toUTF8.data.toList

/-- A head ends with an empty line. -/
def splitHead : Octets → Option (Octets × Octets)
  | [] => none
  | b :: rest =>
      if (b :: rest.take 3).map Octet.value = [13, 10, 13, 10] then
        some (b :: rest.take 3, rest.drop 3)
      else (splitHead rest).map fun split => (b :: split.1, split.2)

theorem splitHead_append {bytes head rest : Octets} (h : splitHead bytes = some (head, rest)) :
    bytes = head ++ rest ∧ rest.length < bytes.length := by
  induction bytes generalizing head with
  | nil => contradiction
  | cons b bytes ih =>
      rw [splitHead] at h
      split at h
      · obtain ⟨rfl, rfl⟩ := Prod.mk.inj (Option.some.inj h)
        refine ⟨by rw [List.cons_append, List.take_append_drop], ?_⟩
        simp only [List.length_drop, List.length_cons]
        omega
      · obtain ⟨split, hsplit, heq⟩ := Option.map_eq_some_iff.mp h
        obtain ⟨rfl, rfl⟩ := Prod.mk.inj heq
        obtain ⟨hbytes, hlt⟩ := ih hsplit
        refine ⟨?_, Nat.lt_succ_of_lt hlt⟩
        rw [List.cons_append, ← hbytes]

/-- What follows the head of a response. -/
inductive HeadTail where
  | interim
  | message
  | closing
  | switch
  deriving DecidableEq, Repr

/-- The status of a response head decides what follows it. -/
def headTail (head : Octets) : HeadTail :=
  let status := ((head.drop 9).take 3).map Octet.value
  if status = wire "204" then .message
  else if status = wire "101" then .switch
  else if status.take 1 = wire "1" then .interim
  else .closing

namespace HeadParser

/-- What is accepted and not yet emitted, and the events that are due without bytes. -/
structure State where
  up : Octets
  down : Octets
  endUp : Bool
  endDown : Bool
  /-- The response body runs until the connection closes. -/
  body : Bool
  switchDue : Bool
  tunnelled : Bool
  deriving DecidableEq

def State.start : State := ⟨[], [], false, false, false, false, false⟩

def State.buffered (p : State) : FlowSide → Octets
  | .initiator => p.up
  | .responder => p.down

def State.append (p : State) (side : FlowSide) (bytes : Octets) : State :=
  match side with
  | .initiator => { p with up := p.up ++ bytes }
  | .responder => { p with down := p.down ++ bytes }

/-- How many of the offered bytes fit the window. -/
def room (window : Nat) (side : FlowSide) (bytes : Octets) (p : State) : Nat :=
  if p.tunnelled then 0 else min bytes.length (window - (p.buffered side).length)

/-- The parser after a response head. -/
def State.afterHead (p : State) (rest : Octets) : HeadTail → State
  | .interim => { p with down := rest }
  | .message => { p with down := rest, endDown := true }
  | .closing => { p with down := rest, body := true }
  | .switch => { p with down := rest, switchDue := true }

/-- The head that is reported. -/
def responseHead (head : Octets) : ResponseHead Octet :=
  ⟨head, headTail head == .interim, headTail head == .closing, false, []⟩

/-- The next response event. -/
def nextDown (p : State) : Option (HttpEvent Octet × State) :=
  if p.endDown then some (.endMessage .responder, { p with endDown := false })
  else if p.switchDue then
    some (.switchProtocols, { p with switchDue := false, tunnelled := true })
  else if p.body then
    if p.down.isEmpty then none else some (.body .responder p.down, { p with down := [] })
  else
    match splitHead p.down with
    | none => none
    | some (head, rest) =>
        some (.responseHead (responseHead head), p.afterHead rest (headTail head))

/-- The next event; those of the client come first. -/
def nextEvent (p : State) : Option (HttpEvent Octet × State) :=
  if p.tunnelled then none
  else if p.endUp then some (.endMessage .initiator, { p with endUp := false })
  else
    match splitHead p.up with
    | some (head, rest) => some (.requestHead ⟨head⟩, { p with up := rest, endUp := true })
    | none => nextDown p

/-- The end of the connection ends a body that runs until then. -/
def State.fin (p : State) (side : FlowSide) : State :=
  if side = .responder ∧ p.body = true then { p with body := false, endDown := true } else p

def State.takeResidue (p : State) (side : FlowSide) : Octets × State :=
  match side with
  | .initiator => (p.up, { p with up := [] })
  | .responder => (p.down, { p with down := [] })

/-- Every event removes a buffered byte or an event that is due. -/
def State.backlog (p : State) : Nat :=
  2 * p.up.length + 2 * p.down.length + p.endUp.toNat + p.endDown.toNat + p.switchDue.toNat

/-- What an event removes from the parser. -/
inductive Emits (p : State) : HttpEvent Octet → State → Prop
  | endUp (due : p.endUp = true) : Emits p (.endMessage .initiator) { p with endUp := false }
  | request (head rest : Octets) (due : p.endUp = false)
      (split : splitHead p.up = some (head, rest)) :
      Emits p (.requestHead ⟨head⟩) { p with up := rest, endUp := true }
  | endDown (due : p.endDown = true) :
      Emits p (.endMessage .responder) { p with endDown := false }
  | switch (due : p.switchDue = true) :
      Emits p .switchProtocols { p with switchDue := false, tunnelled := true }
  | body (nonempty : p.down ≠ []) : Emits p (.body .responder p.down) { p with down := [] }
  | response (head rest : Octets) (due : p.endDown = false ∧ p.switchDue = false)
      (split : splitHead p.down = some (head, rest)) :
      Emits p (.responseHead (responseHead head)) (p.afterHead rest (headTail head))

theorem nextDown_inv {p p' : State} {e : HttpEvent Octet} (h : nextDown p = some (e, p')) :
    Emits p e p' := by
  unfold nextDown at h
  split at h
  · rename_i hend
    obtain ⟨rfl, rfl⟩ := Prod.mk.inj (Option.some.inj h)
    exact .endDown hend
  rename_i hend
  split at h
  · rename_i hswitch
    obtain ⟨rfl, rfl⟩ := Prod.mk.inj (Option.some.inj h)
    exact .switch hswitch
  rename_i hswitch
  split at h
  · split at h
    · contradiction
    · rename_i hne
      obtain ⟨rfl, rfl⟩ := Prod.mk.inj (Option.some.inj h)
      exact .body (by simpa using hne)
  · split at h
    · contradiction
    · rename_i head rest hsplit
      obtain ⟨rfl, rfl⟩ := Prod.mk.inj (Option.some.inj h)
      exact .response head rest ⟨Bool.eq_false_iff.mpr hend, Bool.eq_false_iff.mpr hswitch⟩ hsplit

theorem nextEvent_inv {p p' : State} {e : HttpEvent Octet} (h : nextEvent p = some (e, p')) :
    Emits p e p' := by
  unfold nextEvent at h
  split at h
  · contradiction
  split at h
  · rename_i hend
    obtain ⟨rfl, rfl⟩ := Prod.mk.inj (Option.some.inj h)
    exact .endUp hend
  rename_i hend
  split at h
  · rename_i head rest hsplit
    obtain ⟨rfl, rfl⟩ := Prod.mk.inj (Option.some.inj h)
    exact .request head rest (Bool.eq_false_iff.mpr hend) hsplit
  · exact nextDown_inv h

theorem Emits.backlog_lt {p p' : State} {e : HttpEvent Octet} (h : Emits p e p') :
    p'.backlog < p.backlog := by
  cases h with
  | endUp due | endDown due | switch due => simp [State.backlog, due]
  | request head rest due split =>
      have hlt := (splitHead_append split).2
      simp only [State.backlog, due, Bool.toNat_true, Bool.toNat_false]
      omega
  | body nonempty =>
      have hpos : 0 < p.down.length := List.length_pos_iff.mpr nonempty
      simp only [State.backlog, List.length_nil]
      omega
  | response head rest due split =>
      have hlt := (splitHead_append split).2
      cases headTail head <;>
        simp only [State.afterHead, State.backlog, due.1, due.2, Bool.toNat_true,
          Bool.toNat_false] <;>
        omega

theorem Emits.conserves {p p' : State} {e : HttpEvent Octet} (h : Emits p e p')
    (side : FlowSide) : p.buffered side = e.rawOn side ++ p'.buffered side := by
  cases h with
  | endUp | endDown | switch => cases side <;> rfl
  | request head rest due split =>
      cases side with
      | initiator => exact (splitHead_append split).1
      | responder => rfl
  | body nonempty =>
      cases side with
      | initiator => rfl
      | responder => exact (List.append_nil _).symm
  | response head rest due split =>
      have happend := (splitHead_append split).1
      cases side with
      | initiator => cases headTail head <;> rfl
      | responder => cases headTail head <;> exact happend

theorem fin_buffered (p : State) (side other : FlowSide) :
    (p.fin side).buffered other = p.buffered other := by
  unfold State.fin
  split <;> cases other <;> rfl

end HeadParser

open HeadParser

/-- The parser with a window. -/
def headParser (window : Nat) : HttpProxyParser Octet where
  State := State
  start := .start
  push side bytes p :=
    (room window side bytes p, p.append side (bytes.take (room window side bytes p)))
  nextEvent := nextEvent
  fin side p := p.fin side
  poison _ := none
  isTunnelled p := p.tunnelled
  isDone p := p.tunnelled
  takeTunnelResidue side p := p.takeResidue side
  backlog := State.backlog
  push_le side bytes p := by
    simp only [room]
    split
    · exact Nat.zero_le _
    · exact Nat.min_le_left _ _
  nextEvent_lt _ _ _ h := (nextEvent_inv h).backlog_lt

/-- Its events carry the accepted bytes in order. -/
def headParser_conserves (window : Nat) : (headParser window).Conserves where
  buffered side p := State.buffered p side
  start side := by cases side <;> rfl
  push side bytes p := by cases side <;> rfl
  push_other side other bytes p hne := by
    cases side <;> cases other <;> first | exact absurd rfl hne | rfl
  nextEvent side p e p' h := (nextEvent_inv h).conserves side
  fin side other p := fin_buffered p side other
  residue side p := by cases side <;> exact (List.append_nil _).symm
  residue_other side other p hne := by
    cases side <;> cases other <;> first | exact absurd rfl hne | rfl

end ZenohBridge
