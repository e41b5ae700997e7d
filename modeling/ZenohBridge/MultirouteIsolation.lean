import ZenohBridge.MultirouteStreams

/-!
# The backends of a multiroute connection

Every exchange has a response channel of its own, but all exchanges share the parser and
the event queue. What one backend sends beyond the end of its response is still there when
its exchange is over. `next_request_head` throws away response events that stand before the
next request head. The events of a pipelined request are carried aside by the exchange and
put back in front of the queue, so that the head of the next request may stand before the
response events of the last backend, and the next exchange takes these for its own.

What an exchange may still write is in the parser, in the queue, in the refused tail or on
its way through the splice. If nothing of that is left where an exchange starts, everything
written during it came over its own channel.
-/

namespace ZenohBridge

open Execution

/-- The response bytes that a phase of the splice holds. -/
def MultiroutePhase.chunks : MultiroutePhase → Octets
  | .spliceDown chunks => chunks.flatten
  | .spliceWrite data => data
  | _ => []

namespace Multiroute

variable {P : HttpProxyParser Octet} {C : P.Conserves} {cfg : MultirouteConfig}
  {s s' : Multiroute P} {a : MultirouteAction} {b : Octet}

/-- What was written to the client in an exchange was received on its own channel. -/
def Isolated (s : Multiroute P) : Prop :=
  ∀ entry ∈ s.log.written, ∀ b ∈ entry.2, b.origin = .backend entry.1

instance : DecidablePred (Isolated (P := P)) := fun s =>
  inferInstanceAs (Decidable (∀ entry ∈ s.log.written, ∀ b ∈ entry.2, _ = _))

/-- An exchange starts with no response byte in the queue or in the parser. -/
def StartsClean (C : P.Conserves) (s : Multiroute P) (a : MultirouteAction) : Prop :=
  s.phase.kind = .dispatch → a = .publish true →
    rawsOn .responder s.queue = [] ∧ C.buffered .responder s.parser = []

instance (C : P.Conserves) (s : Multiroute P) (a : MultirouteAction) :
    Decidable (StartsClean C s a) :=
  inferInstanceAs (Decidable (_ → _ → _ ∧ _))

/-- A response byte that the handler may still write. -/
def InFlight (C : P.Conserves) (s : Multiroute P) (b : Octet) : Prop :=
  b ∈ C.buffered .responder s.parser ∨ b ∈ rawsOn .responder s.queue ∨
    b ∈ s.exchange.respPending ∨ b ∈ s.phase.chunks

/-- The parts of the handler that write response bytes. -/
def relays (k : PhaseKind) : Prop := k = .running ∨ k = .splicing

/-- The invariant of the response bytes. -/
structure IsolationInv (C : P.Conserves) (s : Multiroute P) : Prop where
  written : s.Isolated
  inFlight : relays s.phase.kind → ∀ b, InFlight C s b → b.origin = .backend s.requestNum

theorem isolationInv_init (C : P.Conserves) : IsolationInv C (init P) where
  written := nofun
  inFlight := by
    intro hrelays
    rcases hrelays with hk | hk <;> contradiction

/-- A step outside of an exchange. -/
theorem IsolationInv.idle (h : IsolationInv C s) (hwritten : s'.log.written = s.log.written)
    (hkind : ¬ relays s'.phase.kind) : IsolationInv C s' where
  written := by
    rw [Isolated, hwritten]
    exact h.written
  inFlight := fun hrelays => absurd hrelays hkind

/-- A step of an exchange that brings no byte but its own. -/
theorem IsolationInv.keep (h : IsolationInv C s) (hkind : relays s.phase.kind)
    (hwritten : s'.log.written = s.log.written) (hnum : s'.requestNum = s.requestNum)
    (hbytes : ∀ b, InFlight C s' b → InFlight C s b ∨ b.origin = .backend s.requestNum) :
    IsolationInv C s' where
  written := by
    rw [Isolated, hwritten]
    exact h.written
  inFlight := by
    intro _ b hb
    rw [hnum]
    rcases hbytes b hb with hbefore | hown
    · exact h.inFlight hkind b hbefore
    · exact hown

/-- A step of an exchange that writes bytes in flight. -/
theorem IsolationInv.write (h : IsolationInv C s) (hkind : relays s.phase.kind) {raw : Octets}
    (hwritten : s'.log.written = s.log.written ++ [(s.requestNum, raw)])
    (hnum : s'.requestNum = s.requestNum) (hraw : ∀ b ∈ raw, InFlight C s b)
    (hbytes : ∀ b, InFlight C s' b → InFlight C s b) : IsolationInv C s' where
  written := by
    rw [Isolated, hwritten]
    intro entry hentry
    rcases List.mem_append.mp hentry with hold | hnew
    · exact h.written entry hold
    · obtain rfl := List.mem_singleton.mp hnew
      exact fun b hb => h.inFlight hkind b (hraw b hb)
  inFlight := by
    intro _ b hb
    rw [hnum]
    exact h.inFlight hkind b (hbytes b hb)

/-- A drain moves bytes from the parser to the queue. -/
theorem InFlight.drained {p : P.State} {pending : Octets} (h : InFlight C s' b)
    (hparser : s'.parser = (P.drainEvents p).2)
    (hevents : s'.events = s.events ++ (P.drainEvents p).1) (hphase : s'.phase = s.phase)
    (hpending : s'.exchange.respPending = pending) :
    b ∈ C.buffered .responder p ∨ b ∈ rawsOn .responder s.queue ∨ b ∈ pending ∨
      b ∈ s.phase.chunks := by
  rw [C.drainEvents .responder p]
  rw [InFlight, hparser, queue, hphase, hevents, hpending, ← List.append_assoc, rawsOn_append] at h
  simp only [List.mem_append] at h ⊢
  rcases h with hbuffered | (hqueue | hdrained) | hrest
  · exact .inl (.inr hbuffered)
  · exact .inr (.inl hqueue)
  · exact .inl (.inl hdrained)
  · exact .inr (.inr hrest)

theorem InFlight.feedClient {bytes : Octets} (h : InFlight C (s.feedClient bytes) b) :
    InFlight C s b := by
  have hdrained := h.drained (s := s) rfl rfl rfl rfl
  rwa [C.pushBytes_other (by decide) s.parser bytes] at hdrained

theorem InFlight.finClient (h : InFlight C s.finClient b) : InFlight C s b := by
  have hdrained := h.drained (s := s) rfl rfl rfl rfl
  rwa [C.fin] at hdrained

theorem InFlight.finResponse (h : InFlight C s.finResponse b) : InFlight C s b := by
  have hdrained := h.drained (s := s) rfl rfl rfl rfl
  rwa [C.fin] at hdrained

/-- A push of response bytes adds these bytes and no others. -/
theorem InFlight.feedResponse {bytes : Octets} (h : InFlight C (s.feedResponse bytes) b) :
    InFlight C s b ∨ b ∈ bytes := by
  have hdrained := h.drained (s := s) rfl rfl rfl rfl
  have hsplit : (P.pushBytes .responder s.parser bytes).accepted ++
      (P.pushBytes .responder s.parser bytes).tail = bytes :=
    HttpProxyParser.pushBytes_split s.parser bytes
  rw [C.pushBytes s.parser bytes, List.mem_append] at hdrained
  rcases hdrained with (hbuffered | haccepted) | hqueue | htail | hchunks
  · exact .inl (.inl hbuffered)
  · exact .inr (hsplit ▸ List.mem_append_left _ haccepted)
  · exact .inl (.inr (.inl hqueue))
  · exact .inr (hsplit ▸ List.mem_append_right _ htail)
  · exact .inl (.inr (.inr (.inr hchunks)))

/-- A step that brings no response byte. -/
theorem InFlight.shrink (h : InFlight C s' b)
    (hparser : C.buffered .responder s'.parser = C.buffered .responder s.parser)
    (hqueue : b ∈ rawsOn .responder s'.queue → b ∈ rawsOn .responder s.queue)
    (hpending : s'.exchange.respPending = s.exchange.respPending)
    (hchunks : s'.phase.chunks = []) : InFlight C s b := by
  rw [InFlight, hparser, hpending, hchunks] at h
  rcases h with hb | hb | hb | hb
  · exact .inl hb
  · exact .inr (.inl (hqueue hb))
  · exact .inr (.inr (.inl hb))
  · contradiction

/-- Control state and replies hold no response bytes. -/
theorem InFlight.settles (h : InFlight C s' b) (hs : Settles s s') (hqueue : s'.queue = s.queue)
    (hchunks : s'.phase.chunks = []) : InFlight C s b := by
  refine h.shrink ?_ ?_ hs.settled.respPending hchunks
  · rw [hs.settled.parser]
  · rw [hqueue]
    exact id

theorem relays_events {carry : List (HttpEvent Octet)} (phase : s.phase = .events carry) :
    relays s.phase.kind := by
  rw [phase]
  exact .inl rfl

/-- The event loop takes an event from the queue. -/
theorem InFlight.pop {carry rest : List (HttpEvent Octet)} {e : HttpEvent Octet}
    (h : InFlight C s' b) (phase : s.phase = .events carry) (events : s.events = e :: rest)
    (hparser : s'.parser = s.parser) (hqueue : s'.queue = carry ++ rest)
    (hpending : s'.exchange.respPending = s.exchange.respPending)
    (hchunks : s'.phase.chunks = []) : InFlight C s b := by
  refine h.shrink (by rw [hparser]) (fun hb => ?_) hpending hchunks
  rw [hqueue] at hb
  rw [queue_of_events phase events]
  simp only [rawsOn_append, rawsOn_cons, List.mem_append] at hb ⊢
  exact hb.imp_right .inr

/-- It stays in the loop. -/
theorem InFlight.pop_inside {carry rest : List (HttpEvent Octet)} {e : HttpEvent Octet}
    (h : InFlight C s' b) (phase : s.phase = .events carry) (events : s.events = e :: rest)
    (hparser : s'.parser = s.parser) (hphase : s'.phase = s.phase) (hevents : s'.events = rest)
    (hpending : s'.exchange.respPending = s.exchange.respPending) : InFlight C s b := by
  refine h.pop phase events hparser ?_ hpending ?_
  · exact queue_of_events (hphase.trans phase) hevents
  · rw [hphase, phase]
    rfl

theorem InFlight.reoffered (phase : s.phase = .exchange)
    (h : InFlight C (s.reofferClient.reofferResponse.goto (.events [])) b) : InFlight C s b := by
  have hclient : ∀ b, InFlight C s.reofferClient b → InFlight C s b := by
    intro b hb
    unfold reofferClient at hb
    split at hb
    · exact hb.feedClient
    · exact hb
  have hresponse : ∀ b, InFlight C s.reofferClient.reofferResponse b →
      InFlight C s.reofferClient b := by
    intro b hb
    unfold reofferResponse at hb
    split at hb
    · rcases hb.feedResponse with hbefore | hpending
      · exact hbefore
      · exact .inr (.inr (.inl hpending))
    · exact hb
  have hphase : s.reofferClient.reofferResponse.phase = .exchange := by
    rw [← phase]
    unfold reofferResponse reofferClient
    split <;> split <;> rfl
  have hqueue := (settles_goto (.events []) s.reofferClient.reofferResponse).queue
    (by rw [hphase]; rfl) rfl
  exact hclient b (hresponse b (h.settles (settles_goto _ _) hqueue rfl))

theorem reoffer_written (s : Multiroute P) :
    s.reofferClient.reofferResponse.log.written = s.log.written ∧
      s.reofferClient.reofferResponse.requestNum = s.requestNum := by
  unfold reofferResponse reofferClient
  split <;> split <;> exact ⟨rfl, rfl⟩

theorem origin_octets {origin : Origin} {bytes : List UInt8} (h : b ∈ octets origin bytes) :
    b.origin = origin := by
  obtain ⟨value, -, rfl⟩ := List.mem_map.mp h
  rfl

theorem not_relays_of {p : MultiroutePhase}
    (h : p.kind = .between ∨ p.kind = .dispatch ∨ p.kind = .finished) : ¬ relays p.kind := by
  rcases h with hk | hk | hk <;> rw [hk, relays] <;> decide

/-- The client's bytes go to the parser in the loop of an exchange or between two. -/
theorem IsolationInv.client (h : IsolationInv C s) {t : Multiroute P} (settles : Settles t s')
    (hwritten : t.log.written = s.log.written) (hnum : t.requestNum = s.requestNum)
    (hphase : t.phase = s.phase) (hbytes : ∀ b, InFlight C t b → InFlight C s b)
    (target : s'.phase.kind = .between ∨ s'.phase.kind = .finished ∨
      (s.phase = .select ∧ s'.phase = .exchange)) : IsolationInv C s' := by
  have hsettled := settles.settled.written
  rcases target with hkind | hkind | ⟨hselect, htarget⟩
  · exact h.idle (hsettled.trans hwritten) (not_relays_of (.inl hkind))
  · exact h.idle (hsettled.trans hwritten) (not_relays_of (.inr (.inr hkind)))
  · refine h.keep (by rw [hselect]; exact .inl rfl) (hsettled.trans hwritten)
      (settles.settled.requestNum.trans hnum) fun b hb => .inl (hbytes b (hb.settles settles ?_ ?_))
    · exact settles.queue (by rw [hphase, hselect]; rfl) (by rw [htarget]; rfl)
    · rw [htarget]
      rfl

/-- A step of the splice that leaves the response bytes alone. -/
theorem IsolationInv.splicing (h : IsolationInv C s) (hkind : s.phase.kind = .splicing)
    (hwritten : s'.log.written = s.log.written) (hnum : s'.requestNum = s.requestNum)
    (hparser : C.buffered .responder s'.parser = C.buffered .responder s.parser)
    (hevents : s'.events = s.events) (hcarry : s'.phase.carry = [])
    (hpending : s'.exchange.respPending = s.exchange.respPending)
    (hchunks : s'.phase.chunks = []) : IsolationInv C s' := by
  refine h.keep (.inr hkind) hwritten hnum fun b hb => .inl ?_
  refine hb.shrink hparser (fun hqueue => ?_) hpending hchunks
  rwa [queue, hcarry, hevents, ← carry_eq_nil (p := s.phase) (by rw [hkind]; decide)] at hqueue

theorem InFlight.of_select (h : InFlight C (s.goto .exchange) b) (phase : s.phase = .select) :
    InFlight C s b :=
  h.settles (settles_goto _ s) ((settles_goto _ s).queue (by rw [phase]; rfl) rfl) rfl

theorem IsolationInv.step (h : IsolationInv C s) (clean : StartsClean C s a)
    (hs : s.step cfg a = some s') : IsolationInv C s' := by
  cases step_inv hs with
  | moved settles moves empty queue inside heads =>
      have hwritten := settles.settled.written
      have hnum := settles.settled.requestNum
      by_cases hkind : s'.phase.kind = .splicing
      · obtain ⟨hphase, htarget⟩ := inside hkind
        refine h.keep (by rw [hphase]; exact .inr rfl) hwritten hnum fun b hb => .inl ?_
        exact hb.settles settles (queue (by rw [htarget]; nofun)) (by rw [htarget]; rfl)
      · refine h.idle hwritten ?_
        rintro (hrunning | hsplicing)
        · exact moves.ne_running hrunning
        · exact hkind hsplicing
  | routed head rest phase events eq =>
      subst eq
      exact h.idle rfl (not_relays_of (.inr (.inl rfl)))
  | discarded e rest p kind events stray target eq =>
      subst eq
      refine h.idle rfl (not_relays_of (.inl ?_))
      rcases target with rfl | rfl <;> rfl
  | fedClient kind settles target =>
      refine h.client settles rfl rfl rfl (fun _ hb => hb.feedClient) ?_
      rcases target with ht | ht | ht <;> rw [ht]
      · exact .inl rfl
      · exact .inl rfl
      · exact .inr (.inl rfl)
  | readClient data kind pending settles target =>
      refine h.client settles rfl rfl rfl (fun _ hb => hb.feedClient (s := s.takeClient _)) ?_
      rcases target with ⟨-, ht | ht | ht⟩ | ⟨hselect, ht⟩ <;> rw [ht]
      · exact .inl rfl
      · exact .inl rfl
      · exact .inr (.inl rfl)
      · exact .inr (.inr ⟨hselect, rfl⟩)
  | eofClient p kind pending target eq =>
      subst eq
      refine h.client (settles_goto p s.finClient) rfl rfl rfl (fun _ hb => hb.finClient) ?_
      rcases target with ⟨-, rfl | rfl⟩ | ⟨hselect, rfl⟩
      · exact .inl rfl
      · exact .inl rfl
      · exact .inr (.inr ⟨hselect, rfl⟩)
  | started head dns phase action eq =>
      subst eq
      -- the refused tail is fresh; the queue and the parser are not, and need the condition
      obtain ⟨hqueue, hbuffered⟩ := clean (by rw [phase]; rfl) action
      rw [queue_of_phase phase] at hqueue
      refine ⟨h.written, fun _ b hb => ?_⟩
      rcases hb with hb | hb | hb | hb
      · exact absurd (hbuffered ▸ hb) List.not_mem_nil
      · exact absurd (hqueue ▸ hb) List.not_mem_nil
      · contradiction
      · contradiction
  | reoffered phase eq =>
      subst eq
      obtain ⟨hwritten, hnum⟩ := reoffer_written s
      refine h.keep (by rw [phase]; exact .inl rfl) hwritten hnum fun b hb => .inl ?_
      exact hb.reoffered phase
  | restored carry phase events settles target =>
      obtain ⟨hparser, -, hnum, -, -, hpending, -, -, hwritten⟩ := settles.settled
      refine h.keep (relays_events phase) hwritten hnum fun b hb => .inl ?_
      have htarget : s'.phase.carry = [] ∧ s'.phase.chunks = [] := by
        rcases target with ht | ht <;> rw [ht] <;> exact ⟨rfl, rfl⟩
      have hqueue := settles.queue_restored phase events htarget.1
      exact hb.shrink (by rw [hparser]) (by rw [hqueue]; exact id) hpending htarget.2
  | forwarded carry e rest raw phase events forward eq =>
      subst eq
      refine h.keep (relays_events phase) rfl rfl fun b hb => .inl ?_
      exact hb.pop_inside phase events rfl rfl rfl rfl
  | relayed carry e rest raw phase events relay eq =>
      subst eq
      obtain ⟨-, hpending, -⟩ := noteClose_switched s.exchange e
      refine h.write (relays_events phase) rfl rfl ?_ fun b hb =>
        hb.pop_inside phase events rfl rfl rfl hpending
      intro b hb
      obtain ⟨hside, rfl⟩ := relayed_inv relay
      refine .inr (.inl ?_)
      rw [queue_of_events phase events, rawsOn_append, rawsOn_cons, rawOn_eq_raw hside]
      exact List.mem_append_right _ (List.mem_append_left _ hb)
  | requestEnded carry rest phase events unfinished eq =>
      subst eq
      refine h.keep (relays_events phase) rfl rfl fun b hb => .inl ?_
      exact hb.pop_inside phase events rfl rfl rfl rfl
  | stopped carry e rest phase events side responseDone settles target =>
      exact h.idle settles.settled.written (not_relays_of (.inr (.inr (by rw [target]; rfl))))
  | switched carry rest phase events eq =>
      subst eq
      refine h.keep (relays_events phase) rfl rfl fun b hb => .inl ?_
      exact hb.pop phase events rfl rfl rfl rfl
  | carried carry e rest phase events side keeps eq =>
      subst eq
      refine h.keep (relays_events phase) rfl rfl fun b hb => .inl ?_
      refine hb.shrink rfl (fun hqueue => ?_) rfl rfl
      rw [queue_of_events phase events, ← List.singleton_append, ← List.append_assoc]
      exact hqueue
  | received payload phase action nonempty eq =>
      subst eq
      refine h.keep (by rw [phase]; exact .inl rfl) rfl rfl fun b hb => ?_
      rcases (InFlight.of_select hb phase).feedResponse with hbefore | hown
      · exact .inl hbefore
      · exact .inr (origin_octets hown)
  | eofResponse phase action eq =>
      subst eq
      refine h.keep (by rw [phase]; exact .inl rfl) rfl rfl fun b hb => .inl ?_
      exact (InFlight.of_select hb phase).finResponse
  | spliceStarted phase eq =>
      subst eq
      have hparser := C.residue_other .initiator .responder s.parser (by decide)
      exact h.splicing (by rw [phase]; rfl) rfl rfl hparser rfl rfl rfl rfl
  | splicedUp chunk chunks phase eq =>
      subst eq
      exact h.splicing (by rw [phase]; rfl) rfl rfl rfl rfl rfl rfl rfl
  | spliceTurned phase eq =>
      subst eq
      refine h.keep (by rw [phase]; exact .inr rfl) rfl rfl fun b hb => .inl ?_
      have hbuffered := C.residue .responder s.parser
      rcases hb with hb | hb | hb | hb
      · exact .inl (hbuffered ▸ List.mem_append_right _ hb)
      · exact .inr (.inl (by rw [queue, phase]; exact hb))
      · contradiction
      · obtain ⟨chunk, hchunk, hb⟩ := List.mem_flatten.mp hb
        rcases List.mem_pair.mp (List.mem_of_mem_filter hchunk) with rfl | rfl
        · exact .inl (hbuffered ▸ List.mem_append_left _ hb)
        · exact .inr (.inr (.inl hb))
  | splicedDown chunk chunks phase eq =>
      subst eq
      refine h.write (by rw [phase]; exact .inr rfl) rfl rfl (fun b hb => ?_) fun b hb => ?_
      · refine .inr (.inr (.inr ?_))
        rw [phase]
        exact List.mem_append_left _ hb
      · rw [InFlight, queue, phase]
        exact hb.imp_right (.imp_right (.imp_right (List.mem_append_right chunk)))
  | spliceRead data phase eq =>
      subst eq
      exact h.splicing (by rw [phase]; rfl) rfl rfl rfl rfl rfl rfl rfl
  | spliceReceived payload phase eq =>
      subst eq
      refine h.keep (by rw [phase]; exact .inr rfl) rfl rfl fun b hb => ?_
      rcases hb with hb | hb | hb | hb
      · exact .inl (.inl hb)
      · exact .inl (.inr (.inl (by rw [queue, phase]; exact hb)))
      · exact .inl (.inr (.inr (.inl hb)))
      · exact .inr (origin_octets hb)
  | splicePut data phase eq =>
      subst eq
      exact h.splicing (by rw [phase]; rfl) rfl rfl rfl rfl rfl rfl rfl
  | spliceWrote data phase eq =>
      subst eq
      refine h.write (by rw [phase]; exact .inr rfl) rfl rfl (fun b hb => ?_) fun b hb => ?_
      · exact .inr (.inr (.inr (by rw [phase]; exact hb)))
      · exact hb.shrink rfl (by rw [queue, queue, phase]; exact id) rfl rfl
  | tornDown next outcome marker phase markers target eq =>
      subst eq
      refine h.idle rfl (not_relays_of ?_)
      rcases target with rfl | ⟨rfl, -⟩
      · exact .inr (.inr rfl)
      · exact .inl rfl

/-- In every run of a connection over a parser whose events carry the accepted bytes, for
every pipelining, every routing and everything the backends send, as long as each exchange
starts with no response byte left in the queue or in the parser, what is written to the
client in an exchange was received on the channel of that exchange. -/
theorem isolated_of_startsClean (cfg : MultirouteConfig) (P : HttpProxyParser Octet)
    (C : P.Conserves) (schedule : List MultirouteAction)
    (clean : Along (step cfg) (StartsClean C) (init P) schedule) :
    Always (step cfg) Isolated (init P) schedule := by
  have hinv : Always (step cfg) (IsolationInv C) (init P) schedule :=
    always_of_along (fun _ _ _ h hclean hs => h.step hclean hs) (isolationInv_init C) clean
  exact hinv.mono fun _ h => h.written

/-- Two pipelined requests are served by two backends that each send one response. -/
theorem isolated_when_pipelined :
    let schedule : List MultirouteAction :=
      [.tick, .read (wire "GET / HTTP/1.1\r\nHost:a\r\n\r\nGET / HTTP/1.1\r\nHost:b\r\n\r\n"),
        .tick, .route (.ok "a") .host, .setupDone true, .publish true,
        .tick, .tick, .tick, .tick, .tick, .sample (wire "HTTP/1.1 204 \r\n\r\n"),
        .tick, .tick, .tick, .write true, .tick, .publish true, .tick,
        .route (.ok "b") .host, .setupDone true, .publish true,
        .tick, .tick, .tick, .sample (wire "HTTP/1.1 204 \r\n\r\n"), .tick, .write true]
    (exec (step ⟨64, 64⟩) (init (headParser 64)) schedule).map
        (fun s => s.log.written.map Prod.fst) = some [1, 2] ∧
      Always (step ⟨64, 64⟩) Isolated (init (headParser 64)) schedule :=
  ⟨by decide +kernel, isolated_of_startsClean ⟨64, 64⟩ (headParser 64) (headParser_conserves 64) _
    (by decide +kernel)⟩

/-- The first backend sends two responses at once. The second one waits behind the head of
the second request and is written in its exchange, before its backend sent anything. -/
theorem isolated_fails_on_surplus_response :
    ¬ Always (step ⟨64, 64⟩) Isolated (init (headParser 64))
      [.tick, .read (wire "GET / HTTP/1.1\r\nHost:a\r\n\r\nGET / HTTP/1.1\r\nHost:b\r\n\r\n"),
        .tick, .route (.ok "a") .host, .setupDone true, .publish true,
        .tick, .tick, .tick, .tick, .tick,
        .sample (wire "HTTP/1.1 204 \r\n\r\nHTTP/1.1 204 \r\n\r\n"),
        .tick, .tick, .tick, .write true, .tick, .publish true, .tick,
        .route (.ok "b") .host, .setupDone true, .publish true, .tick, .tick, .write true] := by
  decide +kernel

end Multiroute

end ZenohBridge
