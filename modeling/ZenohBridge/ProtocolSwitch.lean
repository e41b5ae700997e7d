import ZenohBridge.MultirouteRequests

/-!
# What the parser reports of a protocol switch

A switching response ends the framing of both directions. The bridge learns of it by an event,
and from then on it takes no more events: it forwards what the parser holds of either side, what
the parser refused and everything that follows. `Tunnels` states what it relies on. The report
comes with the head of the switching response and as soon as that head is complete, nothing is
framed or accepted after it, and the tunnel residue is all that was accepted and not framed.
-/

namespace ZenohBridge

open Execution

namespace HttpProxyParser

variable {β : Type} {P : HttpProxyParser β}

/-- The laws of a protocol switch. -/
structure Tunnels (C : P.Conserves) : Prop where
  start : P.nextEvent P.start = none
  /-- A tunnelled parser has reported the switch. -/
  switches : ∀ p p', P.nextEvent p = some (.switchProtocols, p') → P.isTunnelled p' = true
  /-- It accepts nothing more and stays tunnelled. -/
  push : ∀ side bytes p, P.isTunnelled p = true →
    (P.push side bytes p).1 = 0 ∧ P.isTunnelled (P.push side bytes p).2 = true
  nextEvent : ∀ p, P.isTunnelled p = true → P.nextEvent p = none
  /-- It is done: no further request follows on the connection. -/
  done : ∀ p, P.isTunnelled p = true → P.isDone p = true
  fin : ∀ side p, P.isTunnelled p = true → P.isTunnelled (P.fin side p) = true
  /-- The residue is what was accepted and not framed. -/
  residue : ∀ side p, P.isTunnelled p = true →
    (P.takeTunnelResidue side p).1 = C.buffered side p ∧
      P.isTunnelled (P.takeTunnelResidue side p).2 = true
  /-- The report follows its response head, whose last byte was accepted by this push. -/
  reports : ∀ p bytes, P.nextEvent p = none →
    .switchProtocols ∈ (P.drainEvents (P.pushBytes .responder p bytes).parser).1 →
    ∃ before head, (P.drainEvents (P.pushBytes .responder p bytes).parser).1 =
        before ++ [.responseHead head, .switchProtocols] ∧
      (C.buffered .responder (P.drainEvents (P.pushBytes .responder p bytes).parser).2).length <
        (P.pushBytes .responder p bytes).accepted.length
  /-- The client's bytes and the ends of the streams do not switch. -/
  quiet : ∀ p bytes, P.nextEvent p = none →
    .switchProtocols ∉ (P.drainEvents (P.pushBytes .initiator p bytes).parser).1
  quiet_fin : ∀ side p, P.nextEvent p = none →
    .switchProtocols ∉ (P.drainEvents (P.fin side p)).1

variable {C : P.Conserves} {p : P.State}

/-- A parser without an event stays as it is. -/
theorem drainEvents_of_none (h : P.nextEvent p = none) : P.drainEvents p = ([], p) := by
  unfold drainEvents
  cases P.backlog p with
  | zero => rfl
  | succ fuel => simp only [drain, h]

theorem Tunnels.pushBytes (T : Tunnels C) (side : FlowSide) (bytes : List β)
    (h : P.isTunnelled p = true) : P.isTunnelled (P.pushBytes side p bytes).parser = true :=
  pushBytes_induction (motive := fun _ q => P.isTunnelled q = true) h
    (fun _ bytes q hq => (T.push side bytes q hq).2) bytes

/-- The report of a switch is the last event of a drain. -/
theorem Tunnels.drainEvents (T : Tunnels C) (h : .switchProtocols ∈ (P.drainEvents p).1) :
    P.isTunnelled (P.drainEvents p).2 = true ∧
      ∃ before, (P.drainEvents p).1 = before ++ [.switchProtocols] ∧
        .switchProtocols ∉ before := by
  have hall : (P.isTunnelled p = true → (P.drainEvents p).1 = [] ∧ (P.drainEvents p).2 = p) ∧
      (.switchProtocols ∈ (P.drainEvents p).1 → P.isTunnelled (P.drainEvents p).2 = true ∧
        ∃ before, (P.drainEvents p).1 = before ++ [.switchProtocols] ∧
          .switchProtocols ∉ before) := by
    refine drain_induction (motive := fun p events q =>
      (P.isTunnelled p = true → events = [] ∧ q = p) ∧
      (.switchProtocols ∈ events → P.isTunnelled q = true ∧
        ∃ before, events = before ++ [.switchProtocols] ∧ .switchProtocols ∉ before)) ?_ ?_ p
    · exact fun p => ⟨fun _ => ⟨rfl, rfl⟩, nofun⟩
    · rintro p e p' events q hnext ⟨hsilent, hlast⟩
      constructor
      · intro htunnelled
        rw [T.nextEvent p htunnelled] at hnext
        contradiction
      · intro hmem
        by_cases he : e = .switchProtocols
        · subst he
          have htunnelled := T.switches p p' hnext
          obtain ⟨rfl, rfl⟩ := hsilent htunnelled
          exact ⟨htunnelled, [], rfl, List.not_mem_nil⟩
        · have htail := (List.mem_cons.mp hmem).resolve_left (Ne.symm he)
          obtain ⟨htunnelled, before, rfl, hbefore⟩ := hlast htail
          refine ⟨htunnelled, e :: before, rfl, ?_⟩
          simpa using ⟨Ne.symm he, hbefore⟩
  exact hall.2 h

end HttpProxyParser

namespace HeadParser

/-- A head that was not complete ends in what was added. -/
theorem splitHead_late {xs ys head rest : Octets} (hnone : splitHead xs = none)
    (hsome : splitHead (xs ++ ys) = some (head, rest)) : rest.length < ys.length := by
  induction xs generalizing head with
  | nil => exact (splitHead_append hsome).2
  | cons b xs ih =>
      rw [splitHead] at hnone
      rw [List.cons_append, splitHead] at hsome
      split at hnone
      · contradiction
      rename_i hopen
      split at hsome
      · rename_i hclosed
        obtain ⟨-, rfl⟩ := Prod.mk.inj (Option.some.inj hsome)
        have hlength : ((xs ++ ys).take 3).length = 3 := by
          have hfour := congrArg List.length hclosed
          simpa using hfour
        have hshort : xs.length < 3 := by
          by_contra hlong
          rw [List.take_append_of_le_length (by omega)] at hclosed
          exact hopen hclosed
        simp only [List.length_take, List.length_append, List.length_drop] at hlength ⊢
        omega
      · obtain ⟨split, hsplit, heq⟩ := Option.map_eq_some_iff.mp hsome
        obtain ⟨-, rfl⟩ := Prod.mk.inj heq
        exact ih (Option.map_eq_none_iff.mp hnone) hsplit

/-- A drained parser that is not tunnelled has nothing to report on either side. -/
theorem nextEvent_eq_none {p : State} (h : nextEvent p = none) (hopen : p.tunnelled = false) :
    p.endUp = false ∧ splitHead p.up = none ∧ nextDown p = none := by
  rw [nextEvent, hopen, if_neg (by decide)] at h
  split at h
  · contradiction
  · rename_i hend
    split at h
    · contradiction
    · rename_i hsplit
      exact ⟨Bool.eq_false_iff.mpr hend, hsplit, h⟩

theorem nextDown_eq_none (p : State) : nextDown p = none ↔
    p.endDown = false ∧ p.switchDue = false ∧
      ((p.body = true ∧ p.down = []) ∨ (p.body = false ∧ splitHead p.down = none)) := by
  unfold nextDown
  cases p.endDown with
  | true => simp
  | false =>
      cases p.switchDue with
      | true => simp
      | false =>
          cases p.body with
          | true => simp
          | false => cases splitHead p.down <;> simp

/-- The client's side has nothing to report, and every head that is complete ends in the last
`k` response bytes. -/
structure Late (k : Nat) (p : State) : Prop where
  endUp : p.endUp = false
  up : splitHead p.up = none
  down : ∀ head rest, splitHead p.down = some (head, rest) → rest.length < k

/-- What a late parser reports of a switch. -/
def ReportsLate (k : Nat) (events : List (HttpEvent Octet)) (q : State) : Prop :=
  .switchProtocols ∈ events →
    ∃ before head, events = before ++ [.responseHead head, .switchProtocols] ∧ q.down.length < k

theorem ReportsLate.cons {k : Nat} {events : List (HttpEvent Octet)} {q : State}
    (h : ReportsLate k events q) {e : HttpEvent Octet} (he : e ≠ .switchProtocols) :
    ReportsLate k (e :: events) q := by
  intro hmem
  obtain ⟨before, head, rfl, hlength⟩ := h ((List.mem_cons.mp hmem).resolve_left (Ne.symm he))
  exact ⟨e :: before, head, rfl, hlength⟩

theorem Late.nextEvent_eq {k : Nat} {p : State} (h : Late k p) (hopen : p.tunnelled = false) :
    nextEvent p = nextDown p := by
  rw [nextEvent, hopen, h.endUp, h.up]
  rfl

/-- What follows a late head is late too. -/
theorem Late.afterHead {k : Nat} {p : State} {head rest : Octets} (h : Late k p)
    (hsplit : splitHead p.down = some (head, rest)) (tail : HeadTail) :
    Late k (p.afterHead rest tail) := by
  have hrest : rest.length < k := h.down head rest hsplit
  have hdown : ∀ head' rest', splitHead rest = some (head', rest') → rest'.length < k := by
    intro head' rest' hsplit'
    have hshorter := (splitHead_append hsplit').2
    omega
  cases tail <;> exact ⟨h.endUp, h.up, hdown⟩

/-- The events of one drain, from a late state: a switch is reported behind its head, and next
when it is due. -/
structure DrainsLate (k : Nat) (p : State) (events : List (HttpEvent Octet)) (q : State) :
    Prop where
  tunnelled : p.tunnelled = true → events = [] ∧ q = p
  reports : Late k p → p.tunnelled = false → p.switchDue = false → ReportsLate k events q
  due : Late k p → p.tunnelled = false → p.switchDue = true → p.endDown = false →
    events = [] ∨ (events = [.switchProtocols] ∧ q.down = p.down)

theorem DrainsLate.cons {k : Nat} {p p' q : State} {e : HttpEvent Octet}
    {events : List (HttpEvent Octet)} (hnext : nextEvent p = some (e, p'))
    (ih : DrainsLate k p' events q) : DrainsLate k p (e :: events) q where
  tunnelled := by
    intro htunnelled
    rw [nextEvent, htunnelled] at hnext
    contradiction
  reports := by
    intro late hopen hdue
    rw [late.nextEvent_eq hopen, nextDown, hdue] at hnext
    split at hnext
    · obtain ⟨rfl, rfl⟩ := Prod.mk.inj (Option.some.inj hnext)
      exact (ih.reports ⟨late.endUp, late.up, late.down⟩ hopen rfl).cons nofun
    rename_i hend
    rw [if_neg (by decide)] at hnext
    split at hnext
    · split at hnext
      · contradiction
      · obtain ⟨rfl, rfl⟩ := Prod.mk.inj (Option.some.inj hnext)
        exact (ih.reports ⟨late.endUp, late.up, nofun⟩ hopen rfl).cons nofun
    · split at hnext
      · contradiction
      · rename_i head rest hsplit
        obtain ⟨rfl, rfl⟩ := Prod.mk.inj (Option.some.inj hnext)
        have hafter := late.afterHead hsplit (headTail head)
        cases htail : headTail head with
        | interim | message | closing =>
            rw [htail] at ih hafter
            exact (ih.reports hafter hopen hdue).cons nofun
        | switch =>
            rw [htail] at ih hafter
            obtain rfl | ⟨rfl, hq⟩ := ih.due hafter hopen rfl (Bool.eq_false_iff.mpr hend)
            · intro hmem
              cases List.mem_singleton.mp hmem
            · refine fun _ => ⟨[], _, rfl, ?_⟩
              rw [hq]
              exact late.down head rest hsplit
  due := by
    intro late hopen hdue hend
    rw [late.nextEvent_eq hopen, nextDown, hend, hdue] at hnext
    obtain ⟨rfl, rfl⟩ := Prod.mk.inj (Option.some.inj hnext)
    obtain ⟨rfl, rfl⟩ := ih.tunnelled rfl
    exact .inr ⟨rfl, rfl⟩

/-- A parser whose response side has nothing to report does not switch. -/
theorem quiet_of_nextDown (window : Nat) (p : State) (h : nextDown p = none) :
    .switchProtocols ∉ ((headParser window).drainEvents p).1 := by
  refine HttpProxyParser.drain_induction (P := headParser window) (motive := fun p events _ =>
    nextDown p = none → .switchProtocols ∉ events) (fun _ _ => List.not_mem_nil) ?_ p h
  intro p e p' events q hnext ih hnone
  have hevent : nextEvent p = some (e, p') := hnext
  unfold nextEvent at hevent
  split at hevent
  · contradiction
  split at hevent
  · obtain ⟨rfl, rfl⟩ := Prod.mk.inj (Option.some.inj hevent)
    simpa using ih ((nextDown_eq_none _).mpr ((nextDown_eq_none p).mp hnone))
  split at hevent
  · obtain ⟨rfl, rfl⟩ := Prod.mk.inj (Option.some.inj hevent)
    simpa using ih ((nextDown_eq_none _).mpr ((nextDown_eq_none p).mp hnone))
  · rw [hnone] at hevent
    contradiction

/-- Without response bytes there is no switch. -/
theorem quiet_of_empty (window : Nat) (p : State) (hdown : p.down = [])
    (hdue : p.switchDue = false) :
    .switchProtocols ∉ ((headParser window).drainEvents p).1 := by
  refine HttpProxyParser.drain_induction (P := headParser window) (motive := fun p events _ =>
    p.down = [] → p.switchDue = false → .switchProtocols ∉ events)
    (fun _ _ _ => List.not_mem_nil) ?_ p hdown hdue
  intro p e p' events q hnext ih hdown hdue
  have hevent : Emits p e p' := nextEvent_inv hnext
  cases hevent with
  | endUp due | request head rest due split | endDown due => simpa using ih hdown hdue
  | switch due => exact absurd (due.symm.trans hdue) (by decide)
  | body nonempty => exact absurd hdown nonempty
  | response head rest due split =>
      rw [hdown] at split
      contradiction

/-- A push adds bytes to one side. -/
theorem pushBytes_state (window : Nat) (side : FlowSide) (p : State) (bytes : Octets) :
    ((headParser window).pushBytes side p bytes).parser =
      p.append side ((headParser window).pushBytes side p bytes).accepted := by
  refine HttpProxyParser.pushBytes_induction (P := headParser window)
    (motive := fun accepted q => q = p.append side accepted) ?_ ?_ bytes
  · cases side <;> rw [State.append, List.append_nil]
  · rintro accepted bytes q rfl
    cases side <;> simp [headParser, State.append]

theorem drainEvents_tunnelled (window : Nat) {p : State} (h : p.tunnelled = true) :
    (headParser window).drainEvents p = ([], p) :=
  HttpProxyParser.drainEvents_of_none (P := headParser window) (p := p) (if_pos h)

/-- New response bytes complete the head of a switch. -/
theorem reports_of_append (window : Nat) (p : State) (accepted : Octets) (h : nextEvent p = none) :
    ReportsLate accepted.length ((headParser window).drainEvents (p.append .responder accepted)).1
      ((headParser window).drainEvents (p.append .responder accepted)).2 := by
  cases hopen : p.tunnelled with
  | true =>
      rw [drainEvents_tunnelled window (p := p.append .responder accepted) hopen]
      nofun
  | false =>
      obtain ⟨hend, hup, hnone⟩ := nextEvent_eq_none h hopen
      obtain ⟨-, hdue, hdown⟩ := (nextDown_eq_none p).mp hnone
      have hsplit : splitHead p.down = none := by
        obtain ⟨-, hempty⟩ | ⟨-, hsplit⟩ := hdown
        · rw [hempty]
          rfl
        · exact hsplit
      have hlate : Late accepted.length (p.append .responder accepted) :=
        ⟨hend, hup, fun head rest hhead => splitHead_late hsplit hhead⟩
      have hdrains := HttpProxyParser.drain_induction (P := headParser window)
        (motive := DrainsLate accepted.length)
        (fun q => ⟨fun _ => ⟨rfl, rfl⟩, fun _ _ _ => nofun, fun _ _ _ _ => .inl rfl⟩)
        (fun q e q' events r hnext ih => ih.cons hnext) (p.append .responder accepted)
      exact hdrains.reports hlate hopen hdue

/-- New client bytes do not. -/
theorem quiet_of_append (window : Nat) (p : State) (accepted : Octets) (h : nextEvent p = none) :
    .switchProtocols ∉ ((headParser window).drainEvents (p.append .initiator accepted)).1 := by
  cases hopen : p.tunnelled with
  | true =>
      rw [drainEvents_tunnelled window (p := p.append .initiator accepted) hopen]
      exact List.not_mem_nil
  | false =>
      obtain ⟨-, -, hnone⟩ := nextEvent_eq_none h hopen
      exact quiet_of_nextDown window _
        ((nextDown_eq_none (p.append .initiator accepted)).mpr ((nextDown_eq_none p).mp hnone))

theorem quiet_of_fin (window : Nat) (side : FlowSide) (p : State) (h : nextEvent p = none) :
    .switchProtocols ∉ ((headParser window).drainEvents (p.fin side)).1 := by
  unfold State.fin
  split
  · rename_i hbody
    by_cases hopen : p.tunnelled = true
    · rw [drainEvents_tunnelled window (p := { p with body := false, endDown := true }) hopen]
      exact List.not_mem_nil
    · obtain ⟨-, -, hnone⟩ := nextEvent_eq_none h (Bool.eq_false_iff.mpr hopen)
      obtain ⟨-, hdue, ⟨-, hempty⟩ | ⟨hfalse, -⟩⟩ := (nextDown_eq_none p).mp hnone
      · exact quiet_of_empty window _ hempty hdue
      · exact absurd (hbody.2.symm.trans hfalse) (by decide)
  · rw [HttpProxyParser.drainEvents_of_none (P := headParser window) (p := p) h]
    exact List.not_mem_nil

theorem fin_tunnelled (p : State) (side : FlowSide) : (p.fin side).tunnelled = p.tunnelled := by
  unfold State.fin
  split <;> rfl

end HeadParser

open HeadParser in
/-- The laws of a switch hold of the parser of bodiless messages. -/
theorem headParser_tunnels (window : Nat) :
    HttpProxyParser.Tunnels (headParser_conserves window) where
  start := rfl
  switches p p' h := by
    cases nextEvent_inv h with
    | switch due => rfl
  push side bytes p h := by
    have htunnelled : p.tunnelled = true := h
    have hroom : room window side bytes p = 0 := if_pos htunnelled
    refine ⟨hroom, ?_⟩
    cases side <;> exact htunnelled
  nextEvent p h := if_pos h
  done p h := h
  fin side p h := (fin_tunnelled p side).trans h
  residue side p h := by
    cases side <;> exact ⟨rfl, h⟩
  reports p bytes hdrained := by
    rw [pushBytes_state window .responder p bytes]
    exact reports_of_append window p _ hdrained
  quiet p bytes hdrained := by
    rw [pushBytes_state window .initiator p bytes]
    exact quiet_of_append window p _ hdrained
  quiet_fin side p hdrained := quiet_of_fin window side p hdrained

namespace Multiroute

variable {P : HttpProxyParser Octet} {C : P.Conserves} {cfg : MultirouteConfig}
  {s s' : Multiroute P} {a : MultirouteAction}

/-- The phases of the splice in which the parser still holds a residue. -/
def holdsResidue : MultiroutePhase → Prop
  | .spliceStart | .spliceUp _ => True
  | _ => False

/-- Before a switch the parser has no event left and is tunnelled once its report waits; at the
start of the splice it is tunnelled. -/
structure TunnelInv (s : Multiroute P) : Prop where
  drained : s.exchange.switched = false → P.nextEvent s.parser = none
  reported : s.exchange.switched = false → s.phase ≠ .closed → .switchProtocols ∈ s.queue →
    P.isTunnelled s.parser = true
  residue : holdsResidue s.phase → P.isTunnelled s.parser = true

theorem tunnelInv_init (T : HttpProxyParser.Tunnels C) : TunnelInv (init P) where
  drained := fun _ => T.start
  reported := nofun
  residue := False.elim

theorem not_holdsResidue {p : MultiroutePhase} (h : p.kind ≠ .splicing) : ¬holdsResidue p := by
  cases p with
  | spliceStart | spliceUp => exact absurd rfl h
  | _ => exact id

theorem ne_splicing_of_parses {k : PhaseKind} (h : parses k) : k ≠ .splicing := by
  rintro rfl
  exact h

/-- A drain after a step of the parser that keeps it tunnelled. -/
theorem TunnelInv.drain (h : TunnelInv s) (T : HttpProxyParser.Tunnels C) {p : P.State}
    (hparses : parses s.phase.kind) (hparser : s'.parser = (P.drainEvents p).2)
    (hevents : s'.events = s.events ++ (P.drainEvents p).1) (hphase : s'.phase = s.phase)
    (hswitched : s'.exchange.switched = s.exchange.switched)
    (htunnel : P.isTunnelled s.parser = true → P.isTunnelled p = true) : TunnelInv s' where
  drained := fun _ => by
    rw [hparser]
    exact P.nextEvent_drainEvents p
  reported := by
    intro hplain hopen hmem
    rw [queue, hphase, hevents, ← List.append_assoc, List.mem_append] at hmem
    rw [hparser]
    obtain hold | hnew := hmem
    · have hp := htunnel (h.reported (hswitched ▸ hplain) (hphase ▸ hopen) hold)
      rw [HttpProxyParser.drainEvents_of_none (T.nextEvent p hp)]
      exact hp
    · exact (T.drainEvents hnew).1
  residue := by
    rw [hphase]
    exact fun hresidue => absurd hresidue (not_holdsResidue (ne_splicing_of_parses hparses))

theorem TunnelInv.feedClient (h : TunnelInv s) (T : HttpProxyParser.Tunnels C)
    (hparses : parses s.phase.kind) (bytes : Octets) : TunnelInv (s.feedClient bytes) :=
  h.drain T hparses rfl rfl rfl rfl (T.pushBytes .initiator bytes)

theorem TunnelInv.feedResponse (h : TunnelInv s) (T : HttpProxyParser.Tunnels C)
    (hparses : parses s.phase.kind) (bytes : Octets) : TunnelInv (s.feedResponse bytes) :=
  h.drain T hparses rfl rfl rfl rfl (T.pushBytes .responder bytes)

/-- A step that keeps the parser and adds nothing to the queue. -/
theorem TunnelInv.keep (h : TunnelInv s) (hparser : s'.parser = s.parser)
    (hswitched : s'.exchange.switched = s.exchange.switched)
    (hqueue : s'.phase ≠ .closed → s.phase ≠ .closed ∧
      (.switchProtocols ∈ s'.queue → .switchProtocols ∈ s.queue))
    (hresidue : holdsResidue s'.phase → holdsResidue s.phase) : TunnelInv s' where
  drained := fun hplain => by
    rw [hparser]
    exact h.drained (hswitched ▸ hplain)
  reported := fun hplain hopen hmem => by
    rw [hparser]
    obtain ⟨hbefore, hsame⟩ := hqueue hopen
    exact h.reported (hswitched ▸ hplain) hbefore (hsame hmem)
  residue := fun hp => by
    rw [hparser]
    exact h.residue (hresidue hp)

/-- The control state moves on from a place without carried events. -/
theorem TunnelInv.settles (h : TunnelInv s) (hs : Settles s s') (hparses : parses s.phase.kind)
    (hcarry : s.phase.carry = []) (hcarry' : s'.phase.carry = [])
    (hresidue : ¬holdsResidue s'.phase) : TunnelInv s' := by
  refine h.keep hs.settled.parser hs.settled.switched (fun _ => ⟨?_, ?_⟩)
    fun hp => absurd hp hresidue
  · exact not_closed_of_parses hparses
  · rw [hs.queue hcarry hcarry']
    exact id

/-- A step of the splice past the residue. -/
theorem TunnelInv.spliced (hswitched : s'.exchange.switched = true)
    (hresidue : ¬holdsResidue s'.phase) : TunnelInv s' where
  drained := fun hplain => absurd (hswitched.symm.trans hplain) (by decide)
  reported := fun hplain => absurd (hswitched.symm.trans hplain) (by decide)
  residue := fun hp => absurd hp hresidue

theorem reofferClient_phase (s : Multiroute P) : s.reofferClient.phase = s.phase := by
  unfold reofferClient
  split <;> rfl

theorem reofferResponse_phase (s : Multiroute P) : s.reofferResponse.phase = s.phase := by
  unfold reofferResponse
  split <;> rfl

theorem TunnelInv.reoffered (h : TunnelInv s) (T : HttpProxyParser.Tunnels C)
    (phase : s.phase = .exchange) :
    TunnelInv (s.reofferClient.reofferResponse.goto (.events [])) := by
  have hclient : TunnelInv s.reofferClient := by
    unfold reofferClient
    split
    · exact h.feedClient T (by rw [phase]; trivial) s.clientPending
    · exact h
  have hphase : s.reofferClient.phase = .exchange := (reofferClient_phase s).trans phase
  have hresponse : TunnelInv s.reofferClient.reofferResponse := by
    unfold reofferResponse
    split
    · exact hclient.feedResponse T (by rw [hphase]; trivial) _
    · exact hclient
  have hphase' : s.reofferClient.reofferResponse.phase = .exchange :=
    (reofferResponse_phase _).trans hphase
  exact hresponse.settles (settles_goto _ _) (by rw [hphase']; trivial) (by rw [hphase']; rfl)
    rfl id

/-- The event loop takes an event from the queue and goes on. -/
theorem TunnelInv.pop (h : TunnelInv s) {carry rest : List (HttpEvent Octet)}
    {e : HttpEvent Octet} (phase : s.phase = .events carry) (events : s.events = e :: rest)
    (hparser : s'.parser = s.parser) (hswitched : s'.exchange.switched = s.exchange.switched)
    (hphase : s'.phase = s.phase) (hevents : s'.events = rest) : TunnelInv s' := by
  refine h.keep hparser hswitched (fun _ => ⟨by rw [phase]; nofun, fun hmem => ?_⟩) ?_
  · rw [queue, hphase, hevents, List.mem_append] at hmem
    rw [queue, events, List.mem_append]
    exact hmem.imp_right (List.mem_cons_of_mem e)
  · rw [hphase]
    exact id

theorem TunnelInv.step (h : TunnelInv s) (T : HttpProxyParser.Tunnels C) (client : ClientInv s)
    (hs : s.step cfg a = some s') : TunnelInv s' := by
  cases step_inv hs with
  | moved settles moves empty queue inside heads =>
      refine h.keep settles.settled.parser settles.settled.switched (fun hopen => ⟨?_, ?_⟩)
        fun hresidue => ?_
      · intro hclosed
        apply moves.not_finished
        rw [hclosed]
        rfl
      · rw [queue hopen]
        exact id
      · by_cases hkind : s'.phase.kind = .splicing
        · rw [(inside hkind).2] at hresidue
          exact hresidue.elim
        · exact absurd hresidue (not_holdsResidue hkind)
  | routed head rest phase events eq =>
      subst eq
      refine h.keep rfl rfl (fun _ => ⟨by rw [phase]; nofun, fun hmem => ?_⟩) False.elim
      rw [queue_of_phase phase, events]
      exact List.mem_cons_of_mem _ hmem
  | discarded e rest p kind events stray target eq =>
      subst eq
      refine h.keep rfl rfl
        (fun _ => ⟨not_closed_of_parses (by rw [kind]; trivial), fun hmem => ?_⟩) ?_
      · rw [queue_of_phase rfl, carry_eq_nil (by rw [kind]; decide), events]
        refine List.mem_cons_of_mem _ ?_
        rcases target with rfl | rfl <;> exact hmem
      · rcases target with rfl | rfl <;> exact False.elim
  | fedClient kind settles target =>
      have hp : parses s.phase.kind := by rw [kind]; trivial
      have hcarry : s.phase.carry = [] := carry_eq_nil (by rw [kind]; decide)
      refine (h.feedClient T hp s.clientPending).settles settles hp hcarry ?_
        (not_holdsResidue (not_reading_of_fed target).2)
      rcases target with ht | ht | ht <;> rw [ht] <;> rfl
  | readClient data kind pending settles target =>
      have hp : parses s.phase.kind := parses_of_reading kind
      have htaken : TunnelInv (s.takeClient (octets .client data)) := h.keep rfl rfl
        (fun hopen => ⟨hopen, id⟩) id
      refine (htaken.feedClient T hp _).settles settles hp (carry_of_reading kind) ?_
        (not_holdsResidue (not_reading_of_read target).2)
      rcases target with ⟨-, ht | ht | ht⟩ | ⟨-, ht⟩ <;> rw [ht] <;> rfl
  | eofClient p kind pending target eq =>
      subst eq
      have hp : parses s.phase.kind := parses_of_reading kind
      have hfin : TunnelInv s.finClient := h.drain T hp rfl rfl rfl rfl (T.fin .initiator s.parser)
      refine hfin.settles (settles_goto p _) hp (carry_of_reading kind) ?_
        (not_holdsResidue (not_reading_of_eof target).2)
      rcases target with ⟨-, rfl | rfl⟩ | ⟨-, rfl⟩ <;> rfl
  | started head dns phase action eq =>
      subst eq
      refine h.keep rfl ?_ (fun _ => ⟨by rw [phase]; nofun, fun hmem => ?_⟩) False.elim
      · exact (client.unswitched (by rw [phase]; trivial)).symm
      · rw [queue_of_phase phase]
        exact hmem
  | reoffered phase eq =>
      subst eq
      exact h.reoffered T phase
  | restored carry phase events settles target =>
      have htarget : s'.phase.carry = [] ∧ ¬holdsResidue s'.phase := by
        rcases target with ht | ht <;> rw [ht] <;> exact ⟨rfl, id⟩
      refine h.keep settles.settled.parser settles.settled.switched
        (fun _ => ⟨by rw [phase]; nofun, fun hmem => ?_⟩) fun hp => absurd hp htarget.2
      rwa [settles.queue_restored phase events htarget.1] at hmem
  | forwarded carry e rest raw phase events forward eq =>
      subst eq
      exact h.pop phase events rfl rfl rfl rfl
  | relayed carry e rest raw phase events relay eq =>
      subst eq
      exact h.pop phase events rfl (noteClose_switched s.exchange e).1 rfl rfl
  | requestEnded carry rest phase events unfinished eq =>
      subst eq
      exact h.pop phase events rfl rfl rfl rfl
  | stopped carry e rest phase events side responseDone settles target =>
      refine h.keep settles.settled.parser settles.settled.switched
        (fun _ => ⟨by rw [phase]; nofun, fun hmem => ?_⟩) (by rw [target]; exact False.elim)
      have hrest : HttpEvent.switchProtocols ∈ carry ++ rest := by
        rw [queue_of_phase target, settles.settled.events] at hmem
        exact hmem
      rw [queue_of_events phase events]
      rw [List.mem_append] at hrest ⊢
      exact hrest.imp_right (List.mem_cons_of_mem e)
  | switched carry rest phase events eq =>
      subst eq
      have hplain := client.unswitched (by rw [phase]; trivial)
      refine ⟨nofun, nofun, fun _ => h.reported hplain (by rw [phase]; nofun) ?_⟩
      rw [queue_of_events phase events]
      exact List.mem_append_right _ (List.mem_cons_self ..)
  | carried carry e rest phase events side keeps eq =>
      subst eq
      refine h.keep rfl rfl (fun _ => ⟨by rw [phase]; nofun, fun hmem => ?_⟩) False.elim
      rw [queue_of_events phase events, ← List.singleton_append, ← List.append_assoc]
      exact hmem
  | received payload phase action nonempty eq =>
      subst eq
      have hp : parses s.phase.kind := by rw [phase]; trivial
      have htaken : TunnelInv (s.takeResponse (octets (.backend s.requestNum) payload)) :=
        h.keep rfl rfl (fun hopen => ⟨hopen, id⟩) id
      exact (htaken.feedResponse T hp _).settles (settles_goto .exchange _) hp
        (carry_of_reading (.inr phase)) rfl id
  | eofResponse phase action eq =>
      subst eq
      have hp : parses s.phase.kind := by rw [phase]; trivial
      have hfin : TunnelInv s.finResponse :=
        h.drain T hp rfl rfl rfl rfl (T.fin .responder s.parser)
      exact hfin.settles (settles_goto .exchange _) hp (carry_of_reading (.inr phase)) rfl id
  | spliceStarted phase eq =>
      subst eq
      have hswitched := (client.splice (by rw [phase]; rfl)).1
      refine ⟨fun hplain => ?_, fun hplain => ?_, fun _ => ?_⟩
      · exact absurd (hswitched.symm.trans hplain) (by decide)
      · exact absurd (hswitched.symm.trans hplain) (by decide)
      · exact (T.residue .initiator s.parser (h.residue (by rw [phase]; trivial))).2
  | splicedUp chunk chunks phase eq =>
      subst eq
      exact h.keep rfl rfl (fun _ => ⟨by rw [phase]; nofun, by rw [queue_of_phase phase]; exact id⟩)
        fun _ => by rw [phase]; trivial
  | spliceTurned phase eq | splicedDown chunk chunks phase eq | spliceRead data phase eq
  | spliceReceived payload phase eq | splicePut data phase eq | spliceWrote data phase eq =>
      subst eq
      exact .spliced (client.splice (by rw [phase]; rfl)).1 id
  | tornDown next outcome marker phase markers target eq =>
      subst eq
      have hnext : next.carry = [] ∧ ¬holdsResidue next := by
        rcases target with rfl | ⟨rfl, -⟩ <;> exact ⟨rfl, id⟩
      refine h.keep rfl rfl (fun _ => ⟨by rw [phase]; nofun, fun hmem => ?_⟩)
        fun hp => absurd hp hnext.2
      rw [queue_of_phase phase]
      rwa [queue_of_phase rfl, hnext.1] at hmem

/-- Outside of an exchange no report of a switch waits. -/
def IdleUnswitched (s : Multiroute P) : Prop :=
  s.phase.kind = .between ∨ s.phase.kind = .dispatch → .switchProtocols ∉ s.queue

theorem between_of_reading {p : MultiroutePhase} (h : p.reading) : p.kind = .between := by
  cases p with
  | nextHeadRead | consumeRead => rfl
  | _ => exact h.elim

/-- A part of the handler that is none of the two. -/
theorem IdleUnswitched.of_busy (h : s.phase.kind = .running ∨ s.phase.kind = .splicing ∨
    s.phase.kind = .finished) : IdleUnswitched s := by
  intro hidle
  obtain hidle | hidle := hidle <;> rw [hidle] at h <;> obtain h | h | h := h <;> contradiction

/-- A drain between two exchanges that reports no switch. -/
theorem IdleUnswitched.drain (h : IdleUnswitched s) {t : Multiroute P} {p : P.State}
    (hkind : s.phase.kind = .between) (quiet : .switchProtocols ∉ (P.drainEvents p).1)
    (hevents : t.events = s.events ++ (P.drainEvents p).1) (settles : Settles t s') :
    IdleUnswitched s' := by
  intro hidle hmem
  have hcarry : s.phase.carry = [] := carry_eq_nil (by rw [hkind]; decide)
  have hcarry' : s'.phase.carry = [] :=
    carry_eq_nil (by obtain hidle | hidle := hidle <;> rw [hidle] <;> decide)
  rw [queue, hcarry', List.nil_append, settles.settled.events, hevents, List.mem_append] at hmem
  refine h (.inl hkind) ?_
  rw [queue, hcarry, List.nil_append]
  exact hmem.resolve_right quiet

/-- An exchange that ends with a report in the queue ends the connection, because the parser is
done; and the client's bytes and their end report no switch. -/
theorem IdleUnswitched.step (h : IdleUnswitched s) (T : HttpProxyParser.Tunnels C)
    (tunnel : TunnelInv s) (client : ClientInv s) (hs : s.step cfg a = some s') :
    IdleUnswitched s' := by
  cases step_inv hs with
  | moved settles moves empty queue inside heads =>
      intro hidle
      have hopen : s'.phase ≠ .closed := by
        intro hclosed
        rw [hclosed] at hidle
        obtain hidle | hidle := hidle <;> contradiction
      rw [queue hopen]
      apply h
      cases hk : s.phase.kind with
      | between => exact .inl rfl
      | dispatch => exact .inr rfl
      | running | splicing | finished =>
          rw [hk] at moves
          obtain hidle | hidle := hidle <;> rw [hidle] at moves <;> simp [Moves] at moves
  | routed head rest phase events eq =>
      subst eq
      intro _ hmem
      refine h (.inl (by rw [phase]; rfl)) ?_
      rw [queue_of_phase phase, events]
      exact List.mem_cons_of_mem _ hmem
  | discarded e rest p kind events stray target eq =>
      subst eq
      intro _ hmem
      refine h (.inl kind) ?_
      rw [queue_of_phase rfl, carry_eq_nil (by rw [kind]; decide), events]
      refine List.mem_cons_of_mem _ ?_
      rcases target with rfl | rfl <;> exact hmem
  | fedClient kind settles target =>
      have hplain := client.unswitched (by rw [kind]; trivial)
      exact h.drain kind (T.quiet s.parser s.clientPending (tunnel.drained hplain)) rfl settles
  | readClient data kind pending settles target =>
      have hplain := client.unswitched (parses_of_reading kind)
      rcases target with ⟨hreading, -⟩ | ⟨-, ht⟩
      · exact h.drain (between_of_reading hreading)
          (T.quiet s.parser (octets .client data) (tunnel.drained hplain)) rfl settles
      · exact .of_busy (.inl (by rw [ht]; rfl))
  | eofClient p kind pending target eq =>
      subst eq
      have hplain := client.unswitched (parses_of_reading kind)
      rcases target with ⟨hreading, -⟩ | ⟨-, rfl⟩
      · exact h.drain (between_of_reading hreading)
          (T.quiet_fin .initiator s.parser (tunnel.drained hplain)) rfl (settles_goto p s.finClient)
      · exact .of_busy (.inl rfl)
  | restored carry phase events settles target =>
      refine .of_busy ?_
      rcases target with ht | ht <;> rw [ht]
      · exact .inl rfl
      · exact .inr (.inr rfl)
  | stopped carry e rest phase events side responseDone settles target =>
      exact .of_busy (.inr (.inr (by rw [target]; rfl)))
  | forwarded carry e rest raw phase events forward eq
  | relayed carry e rest raw phase events relay eq
  | requestEnded carry rest phase events unfinished eq =>
      subst eq
      exact .of_busy (.inl (kind_of_events phase))
  | tornDown next outcome marker phase markers target eq =>
      subst eq
      rcases target with rfl | ⟨rfl, hplain, hdone⟩
      · exact .of_busy (.inr (.inr rfl))
      · intro _ hmem
        have hreported := tunnel.reported hplain (by rw [phase]; nofun)
          (by rw [queue_of_phase phase]; exact hmem)
        exact absurd ((T.done s.parser hreported).symm.trans hdone) (by decide)
  | started head dns phase action eq | reoffered phase eq
  | carried carry e rest phase events side keeps eq | received payload phase action nonempty eq
  | eofResponse phase action eq =>
      subst eq
      exact .of_busy (.inl rfl)
  | _ =>
      rename _ = _ => eq
      subst eq
      exact .of_busy (.inr (.inl rfl))

end Multiroute

end ZenohBridge
