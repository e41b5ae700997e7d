import ZenohBridge.Multiroute

/-!
# What one step of a multiroute connection can do

The handler has many exits that only move control: they answer the client, set a flag of
the exchange or record an outcome. `Settles` puts them all together, and `Step` lists the
remaining steps by what they do to the parser, the event queue and the byte streams. Every
invariant of the connection is proved by cases on `Step`.
-/

namespace ZenohBridge

/-- The part of the handler a phase belongs to. -/
inductive PhaseKind where
  /-- `next_request_head` and `consume_request_body`. -/
  | between
  /-- From a head to the start of its exchange. -/
  | dispatch
  /-- The loop of `run_exchange`. -/
  | running
  | splicing
  | finished
  deriving DecidableEq, Repr

namespace MultiroutePhase

def kind : MultiroutePhase → PhaseKind
  | .nextHead | .nextHeadRead | .consume | .consumeEvents | .consumeRead => .between
  | .routing _ | .setup _ _ | .publishHead _ _ => .dispatch
  | .exchange | .events _ | .select => .running
  | .spliceStart | .spliceUp _ | .spliceDown _ | .splice | .splicePut _ | .spliceWrite _ =>
      .splicing
  | .teardown | .closed => .finished

/-- The phases that await a read of the client without a guard. -/
def reading : MultiroutePhase → Prop
  | .nextHeadRead | .consumeRead => True
  | _ => False

/-- The head that is on its way to its exchange. -/
def head : MultiroutePhase → Option (RequestHead Octet)
  | .routing head | .setup head _ | .publishHead head _ => some head
  | _ => none

/-- The events that the event loop has put aside. -/
def carry : MultiroutePhase → List (HttpEvent Octet)
  | .events carry => carry
  | _ => []

end MultiroutePhase

namespace Multiroute

variable {P : HttpProxyParser Octet} {cfg : MultirouteConfig} {s s' : Multiroute P}
  {a : MultirouteAction}

/-- The events that are drained and not handled, those carried aside first. -/
def queue (s : Multiroute P) : List (HttpEvent Octet) := s.phase.carry ++ s.events

/-- Only the control state, the flags of the exchange and the replies change. -/
def Settles (s s' : Multiroute P) : Prop :=
  ∃ phase outcome keepAlive ending replies, s' = { s with
    phase := phase
    outcome := outcome
    exchange := { s.exchange with keepAlive := keepAlive, ending := ending }
    log := { s.log with replies := replies } }

theorem settles_goto (phase : MultiroutePhase) (s : Multiroute P) : Settles s (s.goto phase) :=
  ⟨phase, s.outcome, s.exchange.keepAlive, s.exchange.ending, s.log.replies, rfl⟩

theorem settles_close (outcome : ConnOutcome) (s : Multiroute P) : Settles s (s.close outcome) :=
  ⟨.closed, outcome, s.exchange.keepAlive, s.exchange.ending, s.log.replies, rfl⟩

theorem settles_reply (r : Reply) (s : Multiroute P) : Settles s (s.reply r) :=
  ⟨s.phase, s.outcome, s.exchange.keepAlive, s.exchange.ending,
    s.log.replies ++ [(s.requestNum, r)], rfl⟩

theorem settles_endExchange (e : ExchangeEnd) (s : Multiroute P) :
    Settles s (s.endExchange e) :=
  ⟨.teardown, s.outcome, false, e, s.log.replies, rfl⟩

theorem settles_replyIfSilent (r : Reply) (s : Multiroute P) :
    Settles s (s.replyIfSilent r) := by
  unfold replyIfSilent
  split
  · exact settles_reply r s
  · exact settles_goto s.phase s

theorem Settles.trans {t u : Multiroute P} (h : Settles s t) (h' : Settles t u) :
    Settles s u := by
  obtain ⟨p, o, k, e, r, rfl⟩ := h
  obtain ⟨p', o', k', e', r', rfl⟩ := h'
  exact ⟨p', o', k', e', r', rfl⟩

/-- What a step of the control state leaves as it is. -/
structure Settled (s s' : Multiroute P) : Prop where
  parser : s'.parser = s.parser
  events : s'.events = s.events
  requestNum : s'.requestNum = s.requestNum
  switched : s'.exchange.switched = s.exchange.switched
  requestDone : s'.exchange.requestDone = s.exchange.requestDone
  respPending : s'.exchange.respPending = s.exchange.respPending
  down : s'.log.down = s.log.down
  drained : s'.log.drained = s.log.drained
  written : s'.log.written = s.log.written

theorem Settles.settled (h : Settles s s') : Settled s s' := by
  obtain ⟨p, o, k, e, r, rfl⟩ := h
  exact ⟨rfl, rfl, rfl, rfl, rfl, rfl, rfl, rfl, rfl⟩

theorem settles_malformed (fault : Bool) (reason : String) (s : Multiroute P) :
    Settles s (s.malformed fault reason) ∧ (s.malformed fault reason).phase = .closed := by
  unfold malformed
  split
  · exact ⟨(settles_reply _ s).trans (settles_close _ _), rfl⟩
  · exact ⟨settles_close _ s, rfl⟩

theorem settles_refusePoison (s : Multiroute P) :
    Settles s s.refusePoison ∧
      (s.refusePoison.phase = .nextHead ∨ s.refusePoison.phase = .closed) := by
  unfold refusePoison
  split
  · exact ⟨(settles_malformed _ _ s).1, .inr (settles_malformed _ _ s).2⟩
  · exact ⟨settles_goto _ s, .inl rfl⟩

theorem settles_consumeOn (phase : MultiroutePhase) (s : Multiroute P) :
    Settles s (s.consumeOn phase) ∧
      ((s.consumeOn phase).phase = .nextHead ∨ (s.consumeOn phase).phase = phase) := by
  unfold consumeOn
  split
  · exact ⟨settles_goto _ s, .inl rfl⟩
  · exact ⟨settles_goto _ s, .inr rfl⟩

theorem settles_afterEvents (s : Multiroute P) :
    Settles s s.afterEvents ∧
      (s.afterEvents.phase = .select ∨ s.afterEvents.phase = .teardown) := by
  unfold afterEvents
  split
  · exact ⟨(settles_replyIfSilent _ s).trans (settles_endExchange _ _), .inr rfl⟩
  · exact ⟨settles_goto _ s, .inl rfl⟩

/-- The re-offer of the client's tail at the top of the exchange loop. -/
def reofferClient (s : Multiroute P) : Multiroute P :=
  if s.clientPending ≠ [] then s.feedClient s.clientPending else s

/-- The re-offer of the response's tail. -/
def reofferResponse (s : Multiroute P) : Multiroute P :=
  if s.exchange.respPending ≠ [] then s.feedResponse s.exchange.respPending else s

/-- What an exchange publishes is a part of its open request. -/
theorem forwarded_inv {requestDone : Bool} {e : HttpEvent Octet} {raw : Octets}
    (h : Multiroute.forwarded requestDone e = some raw) :
    requestDone = false ∧ (e = .body .initiator raw ∨ e = .trailers .initiator raw) := by
  cases e with
  | body dir bytes | trailers dir bytes =>
      cases dir with
      | initiator =>
          simp only [Multiroute.forwarded, Option.ite_none_left_eq_some, Option.some.injEq] at h
          obtain ⟨hopen, rfl⟩ := h
          exact ⟨Bool.eq_false_iff.mpr hopen, by simp⟩
      | responder => contradiction
  | _ => contradiction

/-- What an exchange writes is a response event. -/
theorem relayed_inv {x : Exchange} {e : HttpEvent Octet} {raw : Octets}
    (h : Multiroute.relayed cfg x e = some raw) : e.side = some .responder ∧ e.raw = raw := by
  cases e with
  | responseHead head => exact ⟨rfl, Option.some.inj h⟩
  | body dir bytes | trailers dir bytes =>
      cases dir with
      | initiator => contradiction
      | responder =>
          simp only [Multiroute.relayed, Option.ite_none_left_eq_some, Option.some.injEq] at h
          exact ⟨rfl, h.2⟩
  | _ => contradiction

/-- The moves between parts of the handler that touch no stream and no event. -/
def Moves : PhaseKind → PhaseKind → Prop
  | .between, k => k = .between ∨ k = .finished
  | .dispatch, k => k = .dispatch ∨ k = .between ∨ k = .finished
  | .running, k => k = .finished
  | .splicing, k => k = .splicing ∨ k = .finished
  | .finished, _ => False

/-- The parts of the handler in which the parser is in use. -/
def parses : PhaseKind → Prop
  | .between | .dispatch | .running => True
  | .splicing | .finished => False

theorem parses_of_reading {p : MultiroutePhase} (h : p.reading ∨ p = .select) : parses p.kind := by
  rcases h with hp | rfl
  · cases p with
    | nextHeadRead | consumeRead => trivial
    | _ => exact hp.elim
  · trivial

theorem Moves.parses {k k' : PhaseKind} (h : Moves k k') (hp : Multiroute.parses k') :
    Multiroute.parses k := by
  cases k with
  | between | dispatch | running => trivial
  | splicing => rcases h with rfl | rfl <;> contradiction
  | finished => exact h.elim

/-- The loop of an exchange is entered and re-entered with an event or with bytes. -/
theorem Moves.ne_running {k k' : PhaseKind} (h : Moves k k') : k' ≠ .running := by
  rintro rfl
  cases k with
  | between | splicing => rcases h with h | h <;> contradiction
  | dispatch => rcases h with h | h | h <;> contradiction
  | running => contradiction
  | finished => exact h

theorem Moves.not_finished {k k' : PhaseKind} (h : Moves k k') : k ≠ .finished := by
  rintro rfl
  exact h

/-- One step, by what it does to the parser, the queue and the streams. -/
inductive Step (cfg : MultirouteConfig) (s : Multiroute P) (a : MultirouteAction)
    (s' : Multiroute P) : Prop
  | moved (settles : Settles s s') (moves : Moves s.phase.kind s'.phase.kind)
      (empty : s'.phase.reading → s.clientPending = [])
      (queue : s'.phase ≠ .closed → s'.queue = s.queue)
      (inside : s'.phase.kind = .splicing → s.phase = .spliceDown [] ∧ s'.phase = .splice)
      (heads : ∀ head, s'.phase.head = some head → s.phase.head = some head)
  | routed (head : RequestHead Octet) (rest : List (HttpEvent Octet))
      (phase : s.phase = .nextHead) (events : s.events = .requestHead head :: rest)
      (eq : s' = { s with
        phase := .routing head
        events := rest
        requestNum := s.requestNum + 1
        log := { s.log with routed := s.log.routed ++ [head] } })
  | discarded (e : HttpEvent Octet) (rest : List (HttpEvent Octet)) (phase : MultiroutePhase)
      (kind : s.phase.kind = .between) (events : s.events = e :: rest)
      (stray : ∀ head, e ≠ .requestHead head)
      (target : phase = .nextHead ∨ phase = .consumeEvents)
      (eq : s' = { s with phase := phase, events := rest })
  | fedClient (kind : s.phase.kind = .between)
      (settles : Settles (s.feedClient s.clientPending) s')
      (target : s'.phase = .nextHead ∨ s'.phase = .consumeEvents ∨ s'.phase = .closed)
  | readClient (data : List UInt8) (kind : s.phase.reading ∨ s.phase = .select)
      (pending : s.phase = .select → s.clientPending = [])
      (settles : Settles
        ((s.takeClient (octets .client data)).feedClient (octets .client data)) s')
      (target : (s.phase.reading ∧
          (s'.phase = .nextHead ∨ s'.phase = .consume ∨ s'.phase = .closed)) ∨
        (s.phase = .select ∧ s'.phase = .exchange))
      (fits : data.length ≤ cfg.bufferSize)
  | eofClient (phase : MultiroutePhase) (kind : s.phase.reading ∨ s.phase = .select)
      (pending : s.phase = .select → s.clientPending = [])
      (target : (s.phase.reading ∧ (phase = .nextHead ∨ phase = .consume)) ∨
        (s.phase = .select ∧ phase = .exchange))
      (eq : s' = s.finClient.goto phase)
  | started (head : RequestHead Octet) (dns : String) (phase : s.phase = .publishHead head dns)
      (action : a = .publish true)
      (eq : s' = { s.published head.raw with
        phase := .exchange
        exchange := .fresh dns
        log := { (s.published head.raw).log with down := .empty } })
  | reoffered (phase : s.phase = .exchange)
      (eq : s' = s.reofferClient.reofferResponse.goto (.events []))
  | restored (carry : List (HttpEvent Octet)) (phase : s.phase = .events carry)
      (events : s.events = []) (settles : Settles { s with events := carry } s')
      (target : s'.phase = .select ∨ s'.phase = .teardown)
  | forwarded (carry : List (HttpEvent Octet)) (e : HttpEvent Octet)
      (rest : List (HttpEvent Octet)) (raw : Octets) (phase : s.phase = .events carry)
      (events : s.events = e :: rest)
      (forward : Multiroute.forwarded s.exchange.requestDone e = some raw)
      (eq : s' = { s.published raw with events := rest })
  | relayed (carry : List (HttpEvent Octet)) (e : HttpEvent Octet)
      (rest : List (HttpEvent Octet)) (raw : Octets) (phase : s.phase = .events carry)
      (events : s.events = e :: rest) (relay : Multiroute.relayed cfg s.exchange e = some raw)
      (eq : s' = { s.wrote raw with
        events := rest
        exchange := { noteClose s.exchange e with
          bytesWritten := s.exchange.bytesWritten + raw.length } })
  | requestEnded (carry rest : List (HttpEvent Octet)) (phase : s.phase = .events carry)
      (events : s.events = .endMessage .initiator :: rest)
      (unfinished : s.exchange.requestDone = false)
      (eq : s' = { s with
        events := rest
        exchange := { s.exchange with requestDone := true }
        log := { s.log with sentWhole := s.log.sentWhole ++ [s.requestNum] } })
  | stopped (carry : List (HttpEvent Octet)) (e : HttpEvent Octet)
      (rest : List (HttpEvent Octet)) (phase : s.phase = .events carry)
      (events : s.events = e :: rest) (side : e.side ≠ some .initiator)
      (responseDone : Bool)
      (settles : Settles { s with
        events := carry ++ rest
        exchange := { s.exchange with responseDone := responseDone } } s')
      (target : s'.phase = .teardown)
  | switched (carry rest : List (HttpEvent Octet)) (phase : s.phase = .events carry)
      (events : s.events = .switchProtocols :: rest)
      (eq : s' = { s with
        phase := .spliceStart
        events := carry ++ rest
        exchange := { s.exchange with switched := true } })
  | carried (carry : List (HttpEvent Octet)) (e : HttpEvent Octet)
      (rest : List (HttpEvent Octet)) (phase : s.phase = .events carry)
      (events : s.events = e :: rest) (side : e.side = some .initiator)
      (keeps : s.exchange.requestDone = false → ∃ head, e = .requestHead head)
      (eq : s' = { s with phase := .events (carry ++ [e]), events := rest })
  | received (payload : List UInt8) (phase : s.phase = .select) (action : a = .sample payload)
      (nonempty : payload ≠ [])
      (eq : s' = ((s.takeResponse (octets (.backend s.requestNum) payload)).feedResponse
        (octets (.backend s.requestNum) payload)).goto .exchange)
  | eofResponse (phase : s.phase = .select) (action : a = .sample [])
      (eq : s' = s.finResponse.goto .exchange)
  | spliceStarted (phase : s.phase = .spliceStart)
      (eq : s' = { s with
        phase := .spliceUp ([(P.takeTunnelResidue .initiator s.parser).1, s.clientPending].filter
          fun c => !c.isEmpty)
        parser := (P.takeTunnelResidue .initiator s.parser).2
        clientPending := []
        log := { s.log with
          up := { s.log.up with spliced := s.log.up.spliced ++ s.clientPending } } })
  | splicedUp (chunk : Octets) (chunks : List Octets)
      (phase : s.phase = .spliceUp (chunk :: chunks))
      (eq : s' = (s.published chunk).goto (.spliceUp chunks))
  | spliceTurned (phase : s.phase = .spliceUp [])
      (eq : s' = { s with
        phase := .spliceDown ([(P.takeTunnelResidue .responder s.parser).1,
          s.exchange.respPending].filter fun c => !c.isEmpty)
        parser := (P.takeTunnelResidue .responder s.parser).2
        exchange := { s.exchange with respPending := [] }
        log := { s.log with
          down := { s.log.down with spliced := s.log.down.spliced ++ s.exchange.respPending } } })
  | splicedDown (chunk : Octets) (chunks : List Octets)
      (phase : s.phase = .spliceDown (chunk :: chunks))
      (eq : s' = (s.wrote chunk).goto (.spliceDown chunks))
  | spliceRead (data : Octets) (phase : s.phase = .splice)
      (eq : s' = { s.takeClient data with
        phase := .splicePut data
        log := { (s.takeClient data).log with
          up := { (s.takeClient data).log.up with spliced := s.log.up.spliced ++ data } } })
  | spliceReceived (payload : List UInt8) (phase : s.phase = .splice)
      (eq : s' = { s.takeResponse (octets (.backend s.requestNum) payload) with
        phase := .spliceWrite (octets (.backend s.requestNum) payload)
        log := { (s.takeResponse (octets (.backend s.requestNum) payload)).log with
          down := { (s.takeResponse (octets (.backend s.requestNum) payload)).log.down with
            spliced := s.log.down.spliced ++ octets (.backend s.requestNum) payload } } })
  | splicePut (data : Octets) (phase : s.phase = .splicePut data)
      (eq : s' = (s.published data).goto .splice)
  | spliceWrote (data : Octets) (phase : s.phase = .spliceWrite data)
      (eq : s' = (s.wrote data).goto .splice)
  | tornDown (next : MultiroutePhase) (outcome : ConnOutcome) (marker : List (Nat × Octets))
      (phase : s.phase = .teardown) (markers : ∀ m ∈ marker, m.2 = [])
      (target : next = .closed ∨
        (next = .nextHead ∧ s.exchange.switched = false ∧ P.isDone s.parser = false))
      (eq : s' = { s with
        phase := next
        outcome := outcome
        log := { s.log with tx := s.log.tx ++ marker } })

theorem carry_eq_nil {p : MultiroutePhase} (h : p.kind ≠ .running) : p.carry = [] := by
  cases p with
  | events carry => exact absurd rfl h
  | _ => rfl

/-- What waits in a phase. -/
theorem queue_of_phase {p : MultiroutePhase} (phase : s.phase = p) :
    s.queue = p.carry ++ s.events := by
  rw [Multiroute.queue, phase]

/-- What waits in the event loop. -/
theorem queue_of_events {carry rest : List (HttpEvent Octet)} (phase : s.phase = .events carry)
    (events : s.events = rest) : s.queue = carry ++ rest := by
  rw [queue_of_phase phase, events]
  rfl

/-- Without carried events a settled state has the same queue. -/
theorem Settles.queue (settles : Settles s s') (hs : s.phase.carry = [])
    (hs' : s'.phase.carry = []) : s'.queue = s.queue := by
  rw [Multiroute.queue, Multiroute.queue, hs, hs', settles.settled.events]

/-- The events put aside go back to the queue. -/
theorem Settles.queue_restored {carry : List (HttpEvent Octet)}
    (settles : Settles { s with events := carry } s') (phase : s.phase = .events carry)
    (events : s.events = []) (hs' : s'.phase.carry = []) : s'.queue = s.queue := by
  rw [queue_of_phase rfl, hs', settles.settled.events, queue_of_events phase events]
  exact (List.append_nil carry).symm

/-- An exit to the end of the connection. -/
theorem Step.of_closed (settles : Settles s s') (closed : s'.phase = .closed)
    (moves : Moves s.phase.kind .finished) : Step cfg s a s' := by
  refine .moved settles ?_ ?_ ?_ ?_ ?_ <;> rw [closed]
  · exact moves
  · exact False.elim
  · exact fun hne => absurd rfl hne
  · exact nofun
  · exact nofun

/-- An exit to the teardown. -/
theorem Step.of_teardown (settles : Settles s s') (teardown : s'.phase = .teardown)
    (moves : Moves s.phase.kind .finished) (carry : s.phase.carry = []) : Step cfg s a s' := by
  refine .moved settles ?_ ?_ (fun _ => settles.queue carry (by rw [teardown]; rfl)) ?_ ?_ <;>
    rw [teardown]
  · exact moves
  · exact False.elim
  · exact nofun
  · exact nofun

/-- A move inside `next_request_head` and `consume_request_body`, or back to them. -/
theorem Step.of_between {phase : MultiroutePhase}
    (kind : s.phase.kind = .between ∨ s.phase.kind = .dispatch) (target : phase.kind = .between)
    (empty : phase.reading → s.clientPending = []) : Step cfg s a (s.goto phase) := by
  refine .moved (settles_goto phase s) ?_ empty (fun _ => ?_) ?_ ?_
  · change Moves s.phase.kind phase.kind
    rw [target]
    rcases kind with hk | hk <;> rw [hk]
    · exact .inl rfl
    · exact .inr (.inl rfl)
  · apply (settles_goto phase s).queue
    · apply carry_eq_nil
      rcases kind with hk | hk <;> rw [hk] <;> decide
    · exact carry_eq_nil (p := phase) (by rw [target]; decide)
  · intro (hs : phase.kind = .splicing)
    rw [target] at hs
    contradiction
  · intro head (hhead : phase.head = some head)
    cases phase <;> contradiction

/-- A head moves on to its exchange. -/
theorem Step.of_dispatch {phase : MultiroutePhase} (target : phase.kind = .dispatch)
    (reading : ¬ phase.reading) (kind : s.phase.kind = .dispatch)
    (head : phase.head = s.phase.head) : Step cfg s a (s.goto phase) := by
  refine .moved (settles_goto phase s) ?_ (fun hr => absurd hr reading) (fun _ => ?_) ?_ ?_
  · change Moves s.phase.kind phase.kind
    rw [kind, target]
    exact .inl rfl
  · apply (settles_goto phase s).queue
    · exact carry_eq_nil (by rw [kind]; decide)
    · exact carry_eq_nil (p := phase) (by rw [target]; decide)
  · intro (hs : phase.kind = .splicing)
    rw [target] at hs
    contradiction
  · intro h (hhead : phase.head = some h)
    rw [← head, hhead]

theorem stepNextHead_inv (phase : s.phase = .nextHead) (h : s.stepNextHead a = some s') :
    Step cfg s a s' := by
  have hkind : s.phase.kind = .between := by rw [phase]; rfl
  have hmoves : Moves s.phase.kind .finished := by rw [hkind]; exact .inr rfl
  cases a with
  | tick =>
      simp only [stepNextHead] at h
      split at h
      · rename_i head rest hevents
        exact .routed head rest phase hevents (Option.some.inj h).symm
      · rename_i e rest hstray hevents
        refine .discarded e rest .nextHead hkind hevents hstray (.inl rfl) ?_
        rw [← Option.some.inj h, phase]
      · split at h
        · obtain rfl := Option.some.inj h
          exact .of_closed (settles_close _ s) rfl hmoves
        split at h
        · obtain rfl := Option.some.inj h
          obtain ⟨hsettles, hclosed⟩ := settles_malformed false
            "connection switched protocols before a routable request head" s
          exact .of_closed hsettles hclosed hmoves
        split at h
        · obtain rfl := Option.some.inj h
          obtain ⟨hsettles, htarget⟩ := settles_refusePoison (s.feedClient s.clientPending)
          exact .fedClient hkind hsettles (htarget.imp_right .inr)
        · rename_i hempty
          obtain rfl := Option.some.inj h
          exact .of_between (.inl hkind) rfl (fun _ => not_not.mp hempty)
  | _ => contradiction

theorem stepNextHeadRead_inv (phase : s.phase = .nextHeadRead)
    (h : s.stepNextHeadRead cfg a = some s') : Step cfg s a s' := by
  have hreading : s.phase.reading := by rw [phase]; trivial
  have hmoves : Moves s.phase.kind .finished := by rw [phase]; exact .inr rfl
  have hselect : s.phase = .select → s.clientPending = [] := by
    rw [phase]
    exact nofun
  cases a with
  | read data =>
      simp only [stepNextHeadRead, Option.ite_none_right_eq_some] at h
      obtain rfl := Option.some.inj h.2
      obtain ⟨hsettles, htarget⟩ := settles_refusePoison
        ((s.takeClient (octets .client data)).feedClient (octets .client data))
      exact .readClient data (.inl hreading) hselect hsettles
        (.inl ⟨hreading, htarget.imp_right .inr⟩) h.1.2
  | readEof =>
      obtain rfl := Option.some.inj h
      exact .eofClient .nextHead (.inl hreading) hselect (.inl ⟨hreading, .inl rfl⟩) rfl
  | readFailed =>
      simp only [stepNextHeadRead] at h
      split at h
      · obtain rfl := Option.some.inj h
        obtain ⟨hsettles, hclosed⟩ := settles_malformed true
          "timeout or error reading the request" s
        exact .of_closed hsettles hclosed hmoves
      · obtain rfl := Option.some.inj h
        exact .of_closed (settles_close _ s) rfl hmoves
  | shutdown =>
      obtain rfl := Option.some.inj h
      exact .of_closed (settles_close _ s) rfl hmoves
  | _ => contradiction

theorem stepRouting_inv {head : RequestHead Octet} (phase : s.phase = .routing head)
    (h : s.stepRouting head a = some s') : Step cfg s a s' := by
  have hkind : s.phase.kind = .dispatch := by rw [phase]; rfl
  have hsetup : ∀ dns, Step cfg s a (s.goto (.setup head dns)) := by
    intro dns
    exact .of_dispatch rfl id hkind (by rw [phase]; rfl)
  cases a with
  | route key backend =>
      cases key with
      | error e =>
          obtain rfl := Option.some.inj h
          refine .of_closed ((settles_reply _ s).trans (settles_close _ _)) rfl ?_
          rw [hkind]
          exact .inr (.inr rfl)
      | ok dns =>
          cases backend with
          | unavailable =>
              obtain rfl := Option.some.inj h
              have hsettles := (settles_reply (.badGatewayKeepAlive dns) s).trans
                (settles_goto .consume _)
              refine .moved hsettles ?_ False.elim (fun _ => ?_) nofun nofun
              · rw [hkind]
                exact .inr (.inl rfl)
              · exact hsettles.queue (carry_eq_nil (by rw [hkind]; decide)) rfl
          | host | default =>
              obtain rfl := Option.some.inj h
              exact hsetup dns
  | _ => contradiction

theorem stepConsume_inv (phase : s.phase = .consume) (h : s.stepConsume a = some s') :
    Step cfg s a s' := by
  have hkind : s.phase.kind = .between := by rw [phase]; rfl
  cases a with
  | tick =>
      simp only [stepConsume] at h
      split at h
      · obtain rfl := Option.some.inj h
        obtain ⟨hsettles, htarget⟩ := settles_consumeOn .consumeEvents
          (s.feedClient s.clientPending)
        exact .fedClient hkind hsettles (htarget.imp_right .inl)
      · obtain rfl := Option.some.inj h
        exact .of_between (.inl hkind) rfl False.elim
  | _ => contradiction

theorem stepConsumeEvents_inv (phase : s.phase = .consumeEvents)
    (h : s.stepConsumeEvents a = some s') : Step cfg s a s' := by
  have hkind : s.phase.kind = .between := by rw [phase]; rfl
  cases a with
  | tick =>
      simp only [stepConsumeEvents] at h
      split at h
      · rename_i rest hevents
        exact .discarded _ rest .nextHead hkind hevents nofun (.inl rfl) (Option.some.inj h).symm
      · obtain rfl := Option.some.inj h
        exact .of_between (.inl hkind) rfl False.elim
      · rename_i e rest _ hhead hevents
        refine .discarded e rest .consumeEvents hkind hevents hhead (.inr rfl) ?_
        rw [← Option.some.inj h, phase]
      · split at h
        · obtain rfl := Option.some.inj h
          exact .of_between (.inl hkind) rfl False.elim
        split at h
        · obtain rfl := Option.some.inj h
          exact .of_between (.inl hkind) rfl False.elim
        · rename_i hempty
          obtain rfl := Option.some.inj h
          exact .of_between (.inl hkind) rfl (fun _ => not_not.mp hempty)
  | _ => contradiction

theorem stepConsumeRead_inv (phase : s.phase = .consumeRead)
    (h : s.stepConsumeRead cfg a = some s') : Step cfg s a s' := by
  have hkind : s.phase.kind = .between := by rw [phase]; rfl
  have hreading : s.phase.reading := by rw [phase]; trivial
  have hselect : s.phase = .select → s.clientPending = [] := by
    rw [phase]
    exact nofun
  cases a with
  | read data =>
      simp only [stepConsumeRead, Option.ite_none_right_eq_some] at h
      obtain rfl := Option.some.inj h.2
      obtain ⟨hsettles, htarget⟩ := settles_consumeOn .consume
        ((s.takeClient (octets .client data)).feedClient (octets .client data))
      exact .readClient data (.inl hreading) hselect hsettles
        (.inl ⟨hreading, htarget.imp_right .inl⟩) h.1.2
  | readEof =>
      obtain rfl := Option.some.inj h
      exact .eofClient .consume (.inl hreading) hselect (.inl ⟨hreading, .inr rfl⟩) rfl
  | readFailed | shutdown =>
      obtain rfl := Option.some.inj h
      exact .of_between (.inl hkind) rfl False.elim
  | _ => contradiction

theorem stepSetup_inv {head : RequestHead Octet} {dns : String} (phase : s.phase = .setup head dns)
    (h : s.stepSetup head dns a = some s') : Step cfg s a s' := by
  have hkind : s.phase.kind = .dispatch := by rw [phase]; rfl
  cases a with
  | setupDone ok =>
      cases ok with
      | true =>
          obtain rfl := Option.some.inj h
          exact .of_dispatch rfl id hkind (by rw [phase]; rfl)
      | false =>
          obtain rfl := Option.some.inj h
          refine .of_closed (settles_close _ s) rfl ?_
          rw [hkind]
          exact .inr (.inr rfl)
  | _ => contradiction

theorem stepPublishHead_inv {head : RequestHead Octet} {dns : String}
    (phase : s.phase = .publishHead head dns) (h : s.stepPublishHead head dns a = some s') :
    Step cfg s a s' := by
  cases a with
  | publish ok =>
      cases ok with
      | true => exact .started head dns phase rfl (Option.some.inj h).symm
      | false =>
          obtain rfl := Option.some.inj h
          refine .of_closed (settles_close _ s) rfl ?_
          rw [phase]
          exact .inr (.inr rfl)
  | _ => contradiction

theorem stepExchange_inv (phase : s.phase = .exchange) (h : s.stepExchange a = some s') :
    Step cfg s a s' := by
  cases a with
  | tick => exact .reoffered phase (Option.some.inj h).symm
  | _ => contradiction

/-- What the event loop neither writes nor stops at belongs to a request. -/
theorem initiator_of_carried {x : Exchange} {e : HttpEvent Octet}
    (hrelay : Multiroute.relayed cfg x e = none) (hover : ¬overshoots cfg x e = true)
    (hresponse : e ≠ .endMessage .responder) (hswitch : e ≠ .switchProtocols) :
    e.side = some .initiator := by
  cases e with
  | requestHead head => rfl
  | responseHead head => contradiction
  | body dir raw | trailers dir raw =>
      cases dir with
      | initiator => rfl
      | responder =>
          simp only [Multiroute.relayed] at hrelay
          rw [if_neg hover] at hrelay
          contradiction
  | endMessage dir =>
      cases dir with
      | initiator => rfl
      | responder => exact absurd rfl hresponse
  | switchProtocols => exact absurd rfl hswitch

/-- Before the request has ended, only a head is carried aside. -/
theorem requestHead_of_carried {requestDone : Bool} {e : HttpEvent Octet}
    (hside : e.side = some .initiator)
    (hforward : Multiroute.forwarded requestDone e = none)
    (hend : ¬(e = .endMessage .initiator ∧ requestDone = false)) (hopen : requestDone = false) :
    ∃ head, e = .requestHead head := by
  cases e with
  | requestHead head => exact ⟨head, rfl⟩
  | body dir raw | trailers dir raw =>
      obtain rfl := Option.some.inj hside
      rw [hopen] at hforward
      contradiction
  | endMessage dir =>
      obtain rfl := Option.some.inj hside
      exact absurd ⟨rfl, hopen⟩ hend
  | responseHead head | switchProtocols => cases hside

/-- An event that is neither published nor written. -/
theorem handleEvent_inv {carry rest : List (HttpEvent Octet)} {e : HttpEvent Octet}
    (phase : s.phase = .events carry) (events : s.events = e :: rest)
    (hforward : Multiroute.forwarded s.exchange.requestDone e = none)
    (hrelay : Multiroute.relayed cfg s.exchange e = none) :
    Step cfg s a (s.handleEvent cfg carry e rest) := by
  unfold handleEvent
  split
  · rename_i hend
    obtain ⟨rfl, hopen⟩ := hend
    exact .requestEnded carry rest phase events hopen rfl
  rename_i hend
  split
  · rename_i hover
    refine .stopped carry e rest phase events ?_ s.exchange.responseDone
      (settles_endExchange _ _) rfl
    intro hside
    cases e with
    | body dir raw | trailers dir raw =>
        obtain rfl := Option.some.inj hside
        contradiction
    | _ => contradiction
  split
  · rename_i hresponse
    subst hresponse
    exact .stopped carry _ rest phase events nofun true (settles_goto .teardown _) rfl
  split
  · rename_i hswitch
    subst hswitch
    exact .switched carry rest phase events rfl
  rename_i hover hresponse hswitch
  have hside : e.side = some .initiator := initiator_of_carried hrelay hover hresponse hswitch
  exact .carried carry e rest phase events hside
    (requestHead_of_carried hside hforward hend) rfl

theorem stepEvents_inv {carry : List (HttpEvent Octet)} (phase : s.phase = .events carry)
    (h : s.stepEvents cfg carry a = some s') : Step cfg s a s' := by
  have hclose : Step cfg s a (s.close .failed) := by
    refine .of_closed (settles_close _ s) rfl ?_
    rw [phase]
    exact rfl
  unfold stepEvents at h
  split at h
  · rename_i hevents
    split at h
    · obtain rfl := Option.some.inj h
      obtain ⟨hsettles, htarget⟩ := settles_afterEvents { s with events := carry }
      exact .restored carry phase hevents hsettles htarget
    · contradiction
  · rename_i e rest hevents
    split at h
    · rename_i raw hforward
      exact .forwarded carry e rest raw phase hevents hforward (Option.some.inj h).symm
    · obtain rfl := Option.some.inj h
      exact hclose
    · rename_i raw _ hrelay
      exact .relayed carry e rest raw phase hevents hrelay (Option.some.inj h).symm
    · obtain rfl := Option.some.inj h
      exact hclose
    · rename_i hforward hrelay
      obtain rfl := Option.some.inj h
      exact handleEvent_inv phase hevents hforward hrelay
    · contradiction

theorem stepSelect_inv (phase : s.phase = .select) (h : s.stepSelect cfg a = some s') :
    Step cfg s a s' := by
  have hmoves : Moves s.phase.kind .finished := by rw [phase]; rfl
  have hcarry : s.phase.carry = [] := by rw [phase]; rfl
  cases a with
  | read data =>
      simp only [stepSelect, Option.ite_none_right_eq_some] at h
      obtain ⟨⟨-, -, hpending, -, hfits⟩, h⟩ := h
      obtain rfl := Option.some.inj h
      exact .readClient data (.inr phase) (fun _ => hpending) (settles_goto .exchange _)
        (.inr ⟨phase, rfl⟩) hfits
  | readEof =>
      simp only [stepSelect, Option.ite_none_right_eq_some] at h
      obtain ⟨⟨-, -, hpending⟩, h⟩ := h
      obtain rfl := Option.some.inj h
      exact .eofClient .exchange (.inr phase) (fun _ => hpending) (.inr ⟨phase, rfl⟩) rfl
  | readFailed =>
      simp only [stepSelect, Option.ite_none_right_eq_some] at h
      obtain rfl := Option.some.inj h.2
      exact .of_closed (settles_close _ s) rfl hmoves
  | sample payload =>
      simp only [stepSelect] at h
      split at h
      · rename_i hempty
        subst hempty
        exact .eofResponse phase rfl (Option.some.inj h).symm
      · rename_i hne
        exact .received payload phase rfl hne (Option.some.inj h).symm
  | channelClosed | timeout =>
      obtain rfl := Option.some.inj h
      refine .of_teardown ?_ rfl hmoves hcarry
      exact (settles_replyIfSilent _ s).trans (settles_endExchange _ _)
  | overflow | shutdown =>
      obtain rfl := Option.some.inj h
      exact .of_teardown (settles_endExchange _ s) rfl hmoves hcarry
  | _ => contradiction

theorem stepSpliceUp_inv {chunks : List Octets} (phase : s.phase = .spliceUp chunks)
    (h : s.stepSpliceUp chunks a = some s') : Step cfg s a s' := by
  unfold stepSpliceUp at h
  split at h
  · rename_i chunk chunks
    exact .splicedUp chunk chunks phase (Option.some.inj h).symm
  · obtain rfl := Option.some.inj h
    refine .of_closed (settles_close _ s) rfl ?_
    rw [phase]
    exact .inr rfl
  · exact .spliceTurned phase (Option.some.inj h).symm
  · contradiction

theorem stepSpliceDown_inv {chunks : List Octets} (phase : s.phase = .spliceDown chunks)
    (h : s.stepSpliceDown chunks a = some s') : Step cfg s a s' := by
  unfold stepSpliceDown at h
  split at h
  · rename_i chunk chunks
    exact .splicedDown chunk chunks phase (Option.some.inj h).symm
  · obtain rfl := Option.some.inj h
    refine .of_closed (settles_close _ s) rfl ?_
    rw [phase]
    exact .inr rfl
  · obtain rfl := Option.some.inj h
    refine .moved (settles_goto _ s) ?_ False.elim (fun _ => ?_) (fun _ => ⟨phase, rfl⟩) nofun
    · rw [phase]
      exact .inl rfl
    · exact (settles_goto _ s).queue (by rw [phase]; rfl) rfl
  · contradiction

theorem stepSplice_inv (phase : s.phase = .splice) (h : s.stepSplice cfg a = some s') :
    Step cfg s a s' := by
  have hteardown : Step cfg s a (s.goto .teardown) := by
    refine .of_teardown (settles_goto _ s) rfl ?_ ?_ <;> rw [phase]
    · exact .inr rfl
    · rfl
  cases a with
  | read data =>
      simp only [stepSplice, Option.ite_none_right_eq_some] at h
      exact .spliceRead (octets .client data) phase (Option.some.inj h.2).symm
  | sample payload =>
      simp only [stepSplice] at h
      split at h
      · obtain rfl := Option.some.inj h
        exact hteardown
      · exact .spliceReceived payload phase (Option.some.inj h).symm
  | readEof | readFailed | channelClosed | overflow | shutdown =>
      obtain rfl := Option.some.inj h
      exact hteardown
  | _ => contradiction

theorem stepSplicePut_inv {data : Octets} (phase : s.phase = .splicePut data)
    (h : s.stepSplicePut data a = some s') : Step cfg s a s' := by
  cases a with
  | publish ok =>
      cases ok with
      | true => exact .splicePut data phase (Option.some.inj h).symm
      | false =>
          obtain rfl := Option.some.inj h
          refine .of_teardown (settles_goto _ s) rfl ?_ ?_ <;> rw [phase]
          · exact .inr rfl
          · rfl
  | _ => contradiction

theorem stepSpliceWrite_inv {data : Octets} (phase : s.phase = .spliceWrite data)
    (h : s.stepSpliceWrite data a = some s') : Step cfg s a s' := by
  cases a with
  | write ok =>
      cases ok with
      | true => exact .spliceWrote data phase (Option.some.inj h).symm
      | false =>
          obtain rfl := Option.some.inj h
          refine .of_teardown (settles_goto _ s) rfl ?_ ?_ <;> rw [phase]
          · exact .inr rfl
          · rfl
  | _ => contradiction

/-- After an exchange only the control state and the outcome change. -/
theorem afterExchange_inv (s : Multiroute P) :
    ∃ next outcome, (next = .closed ∨
        (next = .nextHead ∧ s.exchange.switched = false ∧ P.isDone s.parser = false)) ∧
      s.afterExchange = { s with phase := next, outcome := outcome } := by
  unfold afterExchange
  split
  · exact ⟨.closed, s.outcome, .inl rfl, rfl⟩
  · rename_i hswitched
    simp only
    split
    · exact ⟨.closed, _, .inl rfl, rfl⟩
    · rename_i hopen
      have hdone : P.isDone s.parser = false :=
        Bool.eq_false_iff.mpr fun hdone => hopen (Bool.or_eq_true_iff.mpr (.inr hdone))
      exact ⟨.nextHead, _, .inr ⟨rfl, Bool.eq_false_iff.mpr hswitched, hdone⟩, rfl⟩

theorem stepTeardown_inv (phase : s.phase = .teardown) (h : s.stepTeardown a = some s') :
    Step cfg s a s' := by
  cases a with
  | publish ok =>
      cases ok with
      | true =>
          obtain rfl := Option.some.inj h
          obtain ⟨next, outcome, htarget, heq⟩ := afterExchange_inv (s.published [])
          exact .tornDown next outcome [(s.requestNum, [])] phase (by simp) htarget heq
      | false =>
          obtain rfl := Option.some.inj h
          obtain ⟨next, outcome, htarget, heq⟩ := afterExchange_inv s
          refine .tornDown next outcome [] phase (by simp) htarget ?_
          rw [heq, List.append_nil]
  | _ => contradiction

/-- Every step of the handler is one of the listed ones. -/
theorem step_inv (h : s.step cfg a = some s') : Step cfg s a s' := by
  unfold step at h
  split at h
  · exact stepNextHead_inv ‹_› h
  · exact stepNextHeadRead_inv ‹_› h
  · exact stepRouting_inv ‹_› h
  · exact stepConsume_inv ‹_› h
  · exact stepConsumeEvents_inv ‹_› h
  · exact stepConsumeRead_inv ‹_› h
  · exact stepSetup_inv ‹_› h
  · exact stepPublishHead_inv ‹_› h
  · exact stepExchange_inv ‹_› h
  · exact stepEvents_inv ‹_› h
  · exact stepSelect_inv ‹_› h
  · rename_i phase
    cases a with
    | tick => exact .spliceStarted phase (Option.some.inj h).symm
    | _ => contradiction
  · exact stepSpliceUp_inv ‹_› h
  · exact stepSpliceDown_inv ‹_› h
  · exact stepSplice_inv ‹_› h
  · exact stepSplicePut_inv ‹_› h
  · exact stepSpliceWrite_inv ‹_› h
  · exact stepTeardown_inv ‹_› h
  · contradiction

/-- The drained events only grow. -/
theorem drained_grows (hs : s.step cfg a = some s') : s.log.drained <+: s'.log.drained := by
  cases step_inv hs with
  | moved settles | restored _ _ _ settles | stopped _ _ _ _ _ _ _ settles =>
      obtain ⟨p, o, k, e, r, rfl⟩ := settles
      exact List.prefix_rfl
  | fedClient _ settles =>
      obtain ⟨p, o, k, e, r, rfl⟩ := settles
      exact List.prefix_append _ _
  | readClient data _ _ settles =>
      obtain ⟨p, o, k, e, r, rfl⟩ := settles
      exact List.prefix_append _ _
  | reoffered phase eq =>
      subst eq
      have hclient : s.log.drained <+: s.reofferClient.log.drained := by
        unfold reofferClient
        split
        · exact List.prefix_append _ _
        · exact List.prefix_rfl
      refine hclient.trans ?_
      change _ <+: s.reofferClient.reofferResponse.log.drained
      generalize s.reofferClient = t
      unfold reofferResponse
      split
      · exact List.prefix_append _ _
      · exact List.prefix_rfl
  | eofClient p kind pending target eq =>
      subst eq
      exact List.prefix_append _ _
  | received payload phase action nonempty eq =>
      subst eq
      exact List.prefix_append _ _
  | eofResponse phase action eq =>
      subst eq
      exact List.prefix_append _ _
  | _ =>
      rename _ = _ => eq
      subst eq
      exact List.prefix_rfl

end Multiroute

end ZenohBridge
