import ZenohBridge.MultirouteIsolation
import ZenohBridge.ProtocolSwitch

/-!
# The client's bytes across a protocol switch

What the client sends after the request that switches reaches the handler in four ways: it was
accepted by the parser with the request, it was refused, it is still in the socket when the
splice starts, or it comes later. The splice publishes what the parser holds, then the refused
tail, and then what it reads, and every one of these bytes is published for the request.

What the handler has in its hands is `heldUp`. Together with what was framed and what was
published since, it is what was read from the socket, in every step of the splice.
-/

namespace ZenohBridge

open Execution

section Numbered

variable {β : Type}

/-- Without another head all request bytes have one number. -/
theorem bytesFor_numbered_eq {n : Nat} {events : List (HttpEvent β)}
    (h : requestHeads events = []) : bytesFor n (numbered n events) = rawsOn .initiator events := by
  induction events with
  | nil => rfl
  | cons e events ih =>
      have hhead : ∀ head, e ≠ .requestHead head := by
        rintro head rfl
        contradiction
      rw [requestHeads_cons hhead] at h
      rw [numbered_cons hhead, bytesFor_cons_self, ih h, rawsOn_cons]

/-- The bytes of the last request are the last ones of its side. -/
theorem bytesFor_suffix {k n : Nat} {events : List (HttpEvent β)}
    (h : n = k + (requestHeads events).length) :
    bytesFor n (numbered k events) <:+ rawsOn .initiator events := by
  induction events generalizing k with
  | nil => exact List.suffix_rfl
  | cons e events ih =>
      by_cases hhead : ∃ head, e = .requestHead head
      · obtain ⟨head, rfl⟩ := hhead
        have hlength : n = k + 1 + (requestHeads events).length := by
          have hcons : n = k + ((requestHeads events).length + 1) := h
          omega
        rw [numbered, rawsOn_cons]
        by_cases hlast : n = k + 1
        · have hnone : requestHeads events = [] := List.length_eq_zero_iff.mp (by omega)
          rw [hlast, bytesFor_cons_self, bytesFor_numbered_eq hnone]
          exact List.suffix_rfl
        · rw [bytesFor_cons_ne (Ne.symm hlast)]
          exact (ih hlength).trans (List.suffix_append _ _)
      · have hstray := not_exists.mp hhead
        rw [requestHeads_cons hstray] at h
        rw [numbered_cons hstray, rawsOn_cons]
        by_cases hlast : n = k
        · have hnone : requestHeads events = [] := List.length_eq_zero_iff.mp (by omega)
          have hall : bytesFor k (numbered k events) = rawsOn .initiator events :=
            bytesFor_numbered_eq hnone
          rw [hlast, bytesFor_cons_self]
          exact hall ▸ List.suffix_rfl
        · rw [bytesFor_cons_ne (Ne.symm hlast)]
          exact (ih h).trans (List.suffix_append _ _)

end Numbered

namespace Multiroute

variable {P : HttpProxyParser Octet} {C : P.Conserves} {cfg : MultirouteConfig}
  {s s' : Multiroute P} {a : MultirouteAction}

/-- The client's bytes that were framed. -/
def framedUp (s : Multiroute P) : Octets := rawsOn .initiator s.log.drained

/-- The bytes of the request that is served. -/
def requestBytes (s : Multiroute P) : Octets := bytesFor s.requestNum (numbered 0 s.log.drained)

/-- What was published in the running exchange. -/
def sentUp (s : Multiroute P) : Octets := bytesFor s.requestNum s.log.tx

/-- After a switch the bytes published for the request are the request itself, the last of what
was framed, and then what the client sent after it, in order and without a gap. -/
def PublishedInOrder (s : Multiroute P) : Prop :=
  s.exchange.switched = true →
    s.requestBytes <:+ s.framedUp ∧ s.requestBytes <+: s.sentUp ∧
    s.framedUp ++ s.sentUp.drop s.requestBytes.length <+: s.log.up.taken

instance : DecidablePred (PublishedInOrder (P := P)) := fun _ =>
  inferInstanceAs (Decidable (_ → _ ∧ _ ∧ _))

/-- The request that switches is the last one: no request event is left behind its end. -/
def SwitchesLast (s : Multiroute P) : Prop :=
  s.exchange.switched = true → ∀ e ∈ s.events, e.side ≠ some .initiator

instance : DecidablePred (SwitchesLast (P := P)) := fun s =>
  inferInstanceAs (Decidable (_ → ∀ e ∈ s.events, _))

/-- The client's bytes that the splice is about to publish. -/
def heldUp (C : P.Conserves) (s : Multiroute P) : Octets :=
  match s.phase with
  | .spliceStart => C.buffered .initiator s.parser ++ s.clientPending
  | .spliceUp chunks => chunks.flatten
  | .splicePut data => data
  | _ => []

/-- What was accepted of the client was framed or is in the parser. -/
def FramedUp (C : P.Conserves) (s : Multiroute P) : Prop :=
  s.log.up.accepted = s.framedUp ++ C.buffered .initiator s.parser

/-- A drain moves bytes from the parser to the events. -/
theorem FramedUp.drain (h : FramedUp C s) {p : P.State} {accepted : Octets}
    (hp : C.buffered .initiator p = C.buffered .initiator s.parser ++ accepted)
    (hparser : s'.parser = (P.drainEvents p).2)
    (hdrained : s'.log.drained = s.log.drained ++ (P.drainEvents p).1)
    (haccepted : s'.log.up.accepted = s.log.up.accepted ++ accepted) : FramedUp C s' := by
  rw [FramedUp, haccepted, h, framedUp, framedUp, hdrained, rawsOn_append, hparser,
    List.append_assoc, ← hp, C.drainEvents .initiator p, List.append_assoc]

theorem FramedUp.feedClient (h : FramedUp C s) (bytes : Octets) : FramedUp C (s.feedClient bytes) :=
  h.drain (C.pushBytes s.parser bytes) rfl rfl rfl

theorem FramedUp.feedResponse (h : FramedUp C s) (bytes : Octets) :
    FramedUp C (s.feedResponse bytes) := by
  have hsame : C.buffered .initiator (P.pushBytes .responder s.parser bytes).parser =
      C.buffered .initiator s.parser ++ [] := by
    rw [C.pushBytes_other (by decide), List.append_nil]
  exact h.drain hsame rfl rfl (List.append_nil _).symm

theorem FramedUp.finClient (h : FramedUp C s) : FramedUp C s.finClient := by
  have hsame : C.buffered .initiator (P.fin .initiator s.parser) =
      C.buffered .initiator s.parser ++ [] := by
    rw [C.fin, List.append_nil]
  exact h.drain hsame rfl rfl (List.append_nil _).symm

theorem FramedUp.finResponse (h : FramedUp C s) : FramedUp C s.finResponse := by
  have hsame : C.buffered .initiator (P.fin .responder s.parser) =
      C.buffered .initiator s.parser ++ [] := by
    rw [C.fin, List.append_nil]
  exact h.drain hsame rfl rfl (List.append_nil _).symm

theorem FramedUp.settles (h : FramedUp C s) (hs : Settles s s') : FramedUp C s' := by
  obtain ⟨p, o, k, e, r, rfl⟩ := hs
  exact h

theorem FramedUp.reoffered (h : FramedUp C s) :
    FramedUp C (s.reofferClient.reofferResponse.goto (.events [])) := by
  have hclient : FramedUp C s.reofferClient := by
    unfold reofferClient
    split
    · exact h.feedClient _
    · exact h
  have hresponse : FramedUp C s.reofferClient.reofferResponse := by
    unfold reofferResponse
    split
    · exact hclient.feedResponse _
    · exact hclient
  exact hresponse

/-- Until the splice takes the residue, every step keeps it. -/
theorem FramedUp.step (h : FramedUp C s) (hkind : s.phase.kind ≠ .splicing)
    (hs : s.step cfg a = some s') : FramedUp C s' := by
  cases step_inv hs with
  | moved settles | restored _ _ _ settles | stopped _ _ _ _ _ _ _ settles =>
      exact FramedUp.settles (by assumption) settles
  | fedClient kind settles target => exact (h.feedClient _).settles settles
  | readClient data kind pending settles target =>
      have htaken : FramedUp C (s.takeClient (octets .client data)) := h
      exact (htaken.feedClient _).settles settles
  | eofClient p kind pending target eq =>
      subst eq
      exact h.finClient
  | reoffered phase eq =>
      subst eq
      exact h.reoffered
  | received payload phase action nonempty eq =>
      subst eq
      have htaken : FramedUp C (s.takeResponse (octets (.backend s.requestNum) payload)) := h
      exact htaken.feedResponse _
  | eofResponse phase action eq =>
      subst eq
      exact h.finResponse
  | spliceStarted phase eq | splicedUp chunk chunks phase eq | spliceTurned phase eq
  | splicedDown chunk chunks phase eq | spliceRead data phase eq | spliceReceived payload phase eq
  | splicePut data phase eq | spliceWrote data phase eq =>
      exact absurd (by rw [phase]; rfl) hkind
  | _ =>
      rename _ = _ => eq
      subst eq
      exact h

/-- An exchange that has handled the end of its request has noted it. -/
def EndNoted (s : Multiroute P) : Prop :=
  s.phase.kind = .running → s.exchange.requestDone = true → s.requestNum ∈ s.log.sentWhole

theorem endNoted_init (P : HttpProxyParser Octet) : EndNoted (init P) := nofun

/-- A step inside the exchange loop that keeps the number and the notes. -/
theorem EndNoted.keep (h : EndNoted s) (hkind : s.phase.kind = .running)
    (hdone : s'.exchange.requestDone = s.exchange.requestDone)
    (hnum : s'.requestNum = s.requestNum) (hnotes : s'.log.sentWhole = s.log.sentWhole) :
    EndNoted s' := by
  intro _ hended
  rw [hnum, hnotes]
  exact h hkind (hdone ▸ hended)

theorem Settles.sentWhole (h : Settles s s') : s'.log.sentWhole = s.log.sentWhole := by
  obtain ⟨p, o, k, e, r, rfl⟩ := h
  rfl

theorem reoffer_notes (s : Multiroute P) :
    s.reofferClient.reofferResponse.log.sentWhole = s.log.sentWhole ∧
      s.reofferClient.reofferResponse.exchange.requestDone = s.exchange.requestDone := by
  unfold reofferResponse reofferClient
  split <;> split <;> exact ⟨rfl, rfl⟩

theorem EndNoted.step (h : EndNoted s) (hs : s.step cfg a = some s') : EndNoted s' := by
  cases step_inv hs with
  | moved settles moves => exact fun hk => absurd hk moves.ne_running
  | discarded e rest p kind events stray target eq =>
      subst eq
      rcases target with rfl | rfl <;> exact nofun
  | fedClient kind settles target =>
      intro hk
      rcases target with ht | ht | ht <;> rw [ht] at hk <;> contradiction
  | readClient data kind pending settles target =>
      have hsettled := settles.settled
      rcases target with ⟨-, ht | ht | ht⟩ | ⟨hselect, -⟩
      · exact fun hk => absurd hk (by rw [ht]; decide)
      · exact fun hk => absurd hk (by rw [ht]; decide)
      · exact fun hk => absurd hk (by rw [ht]; decide)
      · exact h.keep (by rw [hselect]; rfl) hsettled.requestDone hsettled.requestNum
          settles.sentWhole
  | eofClient p kind pending target eq =>
      subst eq
      rcases target with ⟨-, rfl | rfl⟩ | ⟨hselect, rfl⟩
      · exact nofun
      · exact nofun
      · exact h.keep (by rw [hselect]; rfl) rfl rfl rfl
  | started head dns phase action eq =>
      subst eq
      exact fun _ => nofun
  | reoffered phase eq =>
      subst eq
      obtain ⟨hnotes, hdone⟩ := reoffer_notes s
      exact h.keep (by rw [phase]; rfl) hdone (reoffer_written s).2 hnotes
  | restored carry phase events settles target =>
      have hsettled := settles.settled
      exact h.keep (kind_of_events phase) hsettled.requestDone hsettled.requestNum settles.sentWhole
  | relayed carry e rest raw phase events relay eq =>
      subst eq
      exact h.keep (kind_of_events phase) (noteClose_switched s.exchange e).2.2 rfl rfl
  | requestEnded carry rest phase events unfinished eq =>
      subst eq
      exact fun _ _ => List.mem_append_right _ (List.mem_singleton.mpr rfl)
  | stopped carry e rest phase events side responseDone settles target =>
      exact fun hk => absurd hk (by rw [target]; decide)
  | forwarded carry e rest raw phase events forward eq =>
      subst eq
      exact h.keep (kind_of_events phase) rfl rfl rfl
  | carried carry e rest phase events side keeps eq =>
      subst eq
      exact h.keep (kind_of_events phase) rfl rfl rfl
  | received payload phase action nonempty eq | eofResponse phase action eq =>
      subst eq
      exact h.keep (by rw [phase]; rfl) rfl rfl rfl
  | tornDown next outcome marker phase markers target eq =>
      subst eq
      rcases target with rfl | ⟨rfl, -⟩ <;> exact nofun
  | _ =>
      rename _ = _ => eq
      subst eq
      exact nofun

/-- During the splice, what was framed, what was published since and what the handler holds is
what was read from the client. -/
structure SplicedUp (C : P.Conserves) (s : Multiroute P) : Prop where
  last : s.requestBytes <:+ s.framedUp
  sent : s.requestBytes <+: s.sentUp
  whole : s.framedUp ++ s.sentUp.drop s.requestBytes.length ++ heldUp C s = s.log.up.taken

theorem SplicedUp.inOrder (h : SplicedUp C s) : s.PublishedInOrder :=
  fun _ => ⟨h.last, h.sent, h.whole ▸ List.prefix_append _ _⟩

/-- A step of the splice that publishes `data` out of what is held or read. -/
theorem SplicedUp.publish (h : SplicedUp C s) {data : Octets}
    (hnum : s'.requestNum = s.requestNum) (hdrained : s'.log.drained = s.log.drained)
    (htx : s'.log.tx = s.log.tx ++ [(s.requestNum, data)])
    (htaken : s'.log.up.taken = s.log.up.taken) (hheld : heldUp C s = data ++ heldUp C s') :
    SplicedUp C s' := by
  have hrequest : s'.requestBytes = s.requestBytes := by
    rw [requestBytes, requestBytes, hnum, hdrained]
  have hframed : s'.framedUp = s.framedUp := by
    rw [framedUp, framedUp, hdrained]
  have hsent : s'.sentUp = s.sentUp ++ data := by
    rw [sentUp, hnum, htx]
    exact bytesFor_publish s.account data
  refine ⟨?_, ?_, ?_⟩
  · rw [hrequest, hframed]
    exact h.last
  · rw [hrequest, hsent]
    exact h.sent.trans (List.prefix_append _ _)
  · rw [hrequest, hframed, hsent, htaken, List.drop_append_of_le_length h.sent.length_le, ← h.whole,
      hheld]
    simp only [List.append_assoc]

/-- A step of the splice that publishes nothing. -/
theorem SplicedUp.keep (h : SplicedUp C s) {data : Octets} (hnum : s'.requestNum = s.requestNum)
    (hdrained : s'.log.drained = s.log.drained) (htx : s'.log.tx = s.log.tx)
    (htaken : s'.log.up.taken = s.log.up.taken ++ data)
    (hheld : heldUp C s' = heldUp C s ++ data) : SplicedUp C s' := by
  have hrequest : s'.requestBytes = s.requestBytes := by
    rw [requestBytes, requestBytes, hnum, hdrained]
  have hframed : s'.framedUp = s.framedUp := by
    rw [framedUp, framedUp, hdrained]
  have hsent : s'.sentUp = s.sentUp := by
    rw [sentUp, sentUp, hnum, htx]
  refine ⟨?_, ?_, ?_⟩
  · rw [hrequest, hframed]
    exact h.last
  · rw [hrequest, hsent]
    exact h.sent
  · rw [hrequest, hframed, hsent, htaken, hheld, ← h.whole]
    simp only [List.append_assoc]

/-- When the switch is handled, the request was published and nothing after it. -/
theorem splicedUp_of_switch {carry rest : List (HttpEvent Octet)} (requests : RequestInv s)
    (noted : EndNoted s) (hframed : FramedUp C s) (events : Framed s.log.drained)
    (phase : s.phase = .events carry) (front : s.events = .switchProtocols :: rest)
    (last : ∀ e ∈ carry ++ rest, e.side ≠ some .initiator) :
    SplicedUp C { s with
      phase := .spliceStart
      events := carry ++ rest
      exchange := { s.exchange with switched := true } } := by
  have hparses : parses s.phase.kind := by rw [phase]; trivial
  have hplain := requests.client.unswitched hparses
  obtain ⟨consumed, waiting, stage, hl⟩ := requests.balanced hplain events
  have hwaiting : waiting = [] := by
    rw [← hl.queued (not_closed_of_parses hparses), initiated_pass phase front nofun]
    exact List.filter_eq_nil_iff.mpr fun e he => by simpa using last e he
  have hconsumed : initiated s.log.drained = consumed := by
    rw [hl.drained, hwaiting, List.append_nil]
  have hbytes : bytesFor s.requestNum (numbered 0 consumed) = s.requestBytes := by
    rw [← hconsumed]
    exact bytesFor_initiated ..
  have hsent : s.sentUp = s.requestBytes := by
    rw [← hbytes]
    by_cases hdone : s.exchange.requestDone = true
    · exact (hl.books.whole _ (noted (kind_of_events phase) hdone)).1
    · exact (hl.serving (kind_of_events phase) (Bool.eq_false_iff.mpr hdone)).2.2
  have hnum : s.requestNum = 0 + (requestHeads s.log.drained).length := by
    rw [Nat.zero_add, ← requestHeads_initiated, hconsumed]
    exact hl.books.number
  refine ⟨bytesFor_suffix hnum, hsent ▸ List.prefix_rfl, ?_⟩
  change s.framedUp ++ s.sentUp.drop s.requestBytes.length ++
    (C.buffered .initiator s.parser ++ s.clientPending) = s.log.up.taken
  rw [hsent, List.drop_length, List.append_nil, ← List.append_assoc, ← hframed]
  exact requests.client.accepted_append hparses

/-- An exchange is switched by the report of its switch alone. -/
theorem switched_step (client : ClientInv s) (hs : s.step cfg a = some s')
    (hstart : s'.phase ≠ .spliceStart) : s'.exchange.switched = s.exchange.switched := by
  cases step_inv hs with
  | moved settles | restored _ _ _ settles => exact settles.settled.switched
  | stopped carry e rest phase events side responseDone settles => exact settles.settled.switched
  | fedClient kind settles | readClient data kind pending settles => exact settles.settled.switched
  | started head dns phase action eq =>
      subst eq
      exact (client.unswitched (by rw [phase]; trivial)).symm
  | reoffered phase eq =>
      subst eq
      exact (reofferResponse_up s.reofferClient).2.2.trans
        (congrArg Exchange.switched (reofferClient_down s).2)
  | relayed carry e rest raw phase events relay eq =>
      subst eq
      exact (noteClose_switched s.exchange e).1
  | switched carry rest phase events eq =>
      subst eq
      exact absurd rfl hstart
  | _ =>
      rename _ = _ => eq
      subst eq
      rfl

/-- The chunks that are not empty hold all the bytes. -/
theorem flatten_filter_nonempty (chunks : List Octets) :
    (chunks.filter fun c => !c.isEmpty).flatten = chunks.flatten := by
  induction chunks with
  | nil => rfl
  | cons c chunks ih =>
      cases c with
      | nil => exact ih
      | cons b c => exact congrArg ((b :: c) ++ ·) ih

/-- The EOF marker carries no bytes. -/
theorem bytesFor_marker {marker : List (Nat × Octets)} (h : ∀ m ∈ marker, m.2 = []) (n : Nat)
    (tx : List (Nat × Octets)) : bytesFor n (tx ++ marker) = bytesFor n tx := by
  have hnil : bytesFor n marker = [] := by
    apply List.flatMap_eq_nil_iff.mpr
    intro m hm
    rw [h m hm, ite_self]
  rw [bytesFor_append, hnil, List.append_nil]

/-- The bytes published and read are the same. -/
theorem PublishedInOrder.same (h : s.PublishedInOrder)
    (hswitched : s'.exchange.switched = s.exchange.switched)
    (hnum : s'.requestNum = s.requestNum) (hdrained : s'.log.drained = s.log.drained)
    (hsent : s'.sentUp = s.sentUp) (htaken : s'.log.up.taken = s.log.up.taken) :
    s'.PublishedInOrder := by
  intro hs
  have hrequest : s'.requestBytes = s.requestBytes := by
    rw [requestBytes, requestBytes, hnum, hdrained]
  have hframed : s'.framedUp = s.framedUp := by
    rw [framedUp, framedUp, hdrained]
  rw [hrequest, hframed, hsent, htaken]
  exact h (hswitched ▸ hs)

theorem PublishedInOrder.settles (h : s.PublishedInOrder) (hs : Settles s s') :
    s'.PublishedInOrder := by
  obtain ⟨p, o, k, e, r, rfl⟩ := hs
  exact h

/-- The invariant of the client's bytes. -/
structure UpstreamInv (C : P.Conserves) (s : Multiroute P) : Prop where
  requests : RequestInv s
  tunnel : TunnelInv s
  noted : EndNoted s
  framed : s.exchange.switched = false → FramedUp C s
  splicing : s.phase.kind = .splicing → SplicedUp C s
  finished : s.phase.kind = .finished → s.PublishedInOrder

theorem upstreamInv_init (T : HttpProxyParser.Tunnels C) : UpstreamInv C (init P) where
  requests := requestInv_init P
  tunnel := tunnelInv_init T
  noted := endNoted_init P
  framed := fun _ => (C.start .initiator).symm
  splicing := nofun
  finished := nofun

/-- Each step of the splice publishes what is held, in order. -/
theorem UpstreamInv.splice (h : UpstreamInv C s) (T : HttpProxyParser.Tunnels C)
    (events : Framed s.log.drained) (last : s'.SwitchesLast) (hs : s.step cfg a = some s')
    (hkind : s'.phase.kind = .splicing) : SplicedUp C s' := by
  cases step_inv hs with
  | moved settles moves empty queue inside heads =>
      obtain ⟨hphase, htarget⟩ := inside hkind
      have hsplicing := h.splicing (by rw [hphase]; rfl)
      have hheld : heldUp C s' = heldUp C s ++ [] := by
        rw [heldUp, heldUp, htarget, hphase]
        rfl
      obtain ⟨p, o, k, e, r, rfl⟩ := settles
      exact hsplicing.keep rfl rfl rfl (List.append_nil _).symm hheld
  | switched carry rest phase front eq =>
      subst eq
      have hplain := h.requests.client.unswitched (by rw [phase]; trivial)
      exact splicedUp_of_switch h.requests h.noted (h.framed hplain) events phase front (last rfl)
  | spliceStarted phase eq =>
      subst eq
      have hsplicing := h.splicing (by rw [phase]; rfl)
      have hresidue := (T.residue .initiator s.parser (h.tunnel.residue (by rw [phase]; trivial))).1
      refine hsplicing.keep rfl rfl rfl (List.append_nil _).symm ?_
      rw [heldUp, heldUp, phase]
      change (List.filter _ _).flatten = _
      rw [flatten_filter_nonempty, hresidue]
      simp
  | splicedUp chunk chunks phase eq =>
      subst eq
      refine (h.splicing (by rw [phase]; rfl)).publish rfl rfl rfl rfl ?_
      rw [heldUp, phase]
      rfl
  | splicePut data phase eq =>
      subst eq
      refine (h.splicing (by rw [phase]; rfl)).publish rfl rfl rfl rfl ?_
      rw [heldUp, phase]
      exact (List.append_nil data).symm
  | spliceRead data phase eq =>
      subst eq
      refine (h.splicing (by rw [phase]; rfl)).keep rfl rfl rfl rfl ?_
      rw [heldUp, heldUp, phase]
      rfl
  | spliceTurned phase eq | splicedDown chunk chunks phase eq | spliceReceived payload phase eq
  | spliceWrote data phase eq =>
      subst eq
      refine (h.splicing (by rw [phase]; rfl)).keep rfl rfl rfl (List.append_nil _).symm ?_
      rw [heldUp, heldUp, phase]
      rfl
  | fedClient kind settles target =>
      rcases target with ht | ht | ht <;> rw [ht] at hkind <;> contradiction
  | readClient data kind pending settles target =>
      exact absurd hkind (not_reading_of_read target).2
  | eofClient p kind pending target eq =>
      subst eq
      exact absurd hkind (not_reading_of_eof target).2
  | discarded e rest p kind events stray target eq =>
      subst eq
      rcases target with rfl | rfl <;> contradiction
  | restored carry phase events settles target =>
      rcases target with ht | ht <;> rw [ht] at hkind <;> contradiction
  | stopped carry e rest phase events side responseDone settles target =>
      rw [target] at hkind
      contradiction
  | forwarded carry e rest raw phase events forward eq
  | relayed carry e rest raw phase events relay eq =>
      subst eq
      exact absurd ((kind_of_events phase).symm.trans hkind) (by decide)
  | requestEnded carry rest phase events unfinished eq =>
      subst eq
      exact absurd ((kind_of_events phase).symm.trans hkind) (by decide)
  | tornDown next outcome marker phase markers target eq =>
      subst eq
      rcases target with rfl | ⟨rfl, -⟩ <;> contradiction
  | _ =>
      rename _ = _ => eq
      subst eq
      contradiction

/-- What was published stays in order when the exchange is over. -/
theorem UpstreamInv.finish (h : UpstreamInv C s) (hs : s.step cfg a = some s')
    (hkind : s'.phase.kind = .finished) : s'.PublishedInOrder := by
  intro hswitched
  have hstart : s'.phase ≠ .spliceStart := by
    intro hphase
    rw [hphase] at hkind
    contradiction
  have hsame := switched_step h.requests.client hs hstart
  have hparses : ¬parses s.phase.kind := fun hp =>
    absurd ((hsame.symm.trans hswitched).symm.trans (h.requests.client.unswitched hp)) (by decide)
  have hinOrder : s.PublishedInOrder := by
    cases hk : s.phase.kind with
    | splicing => exact (h.splicing hk).inOrder
    | finished => exact h.finished hk
    | between | dispatch | running => exact absurd (by rw [hk]; trivial) hparses
  cases step_inv hs with
  | moved settles => exact hinOrder.settles settles hswitched
  | tornDown next outcome marker phase markers target eq =>
      subst eq
      exact hinOrder.same rfl rfl rfl (bytesFor_marker markers _ _) rfl hswitched
  | spliceStarted phase eq | spliceTurned phase eq =>
      subst eq
      contradiction
  | splicedUp chunk chunks phase eq | splicedDown chunk chunks phase eq =>
      subst eq
      contradiction
  | spliceRead data phase eq | spliceReceived data phase eq | splicePut data phase eq
  | spliceWrote data phase eq =>
      subst eq
      contradiction
  | fedClient kind => exact absurd (by rw [kind]; trivial) hparses
  | discarded e rest p kind => exact absurd (by rw [kind]; trivial) hparses
  | readClient data kind | eofClient p kind => exact absurd (parses_of_reading kind) hparses
  | _ =>
      rename s.phase = _ => phase
      exact absurd (by rw [phase]; trivial) hparses

theorem UpstreamInv.step (h : UpstreamInv C s) (T : HttpProxyParser.Tunnels C)
    (events : Framed s.log.drained) (last : s'.SwitchesLast) (hs : s.step cfg a = some s') :
    UpstreamInv C s' where
  requests := h.requests.step hs
  tunnel := h.tunnel.step T h.requests.client hs
  noted := h.noted.step hs
  framed := by
    intro hplain
    have hstart : s'.phase ≠ .spliceStart := by
      intro hphase
      have hswitched := ((h.requests.client.step hs).splice (by rw [hphase]; rfl)).1
      exact absurd (hswitched.symm.trans hplain) (by decide)
    have hbefore := (switched_step h.requests.client hs hstart).symm.trans hplain
    have hkind : s.phase.kind ≠ .splicing := fun hk =>
      h.requests.client.switched_of_splicing hk hbefore
    exact (h.framed hbefore).step hkind hs
  splicing := h.splice T events last hs
  finished := h.finish hs

/-- In every run in which the request events are messages and a request that switches is the
last one, what is published for it after its own bytes are the client's bytes that follow it,
in order and each once. -/
theorem publishedInOrder_always (T : HttpProxyParser.Tunnels C) (schedule : List MultirouteAction)
    (events : Always (step cfg) (fun s => Framed s.log.drained) (init P) schedule)
    (last : Always (step cfg) SwitchesLast (init P) schedule) :
    Always (step cfg) PublishedInOrder (init P) schedule := by
  have hok := events.along.and last.along
  have hinv : Always (step cfg) (UpstreamInv C) (init P) schedule :=
    always_of_along (fun s a s' h hok hs => h.step T hok.1.1 (hok.2.2 s' hs) hs)
      (upstreamInv_init T) hok
  refine hinv.mono fun s h hswitched => ?_
  cases hk : s.phase.kind with
  | splicing => exact (h.splicing hk).inOrder hswitched
  | finished => exact h.finished hk hswitched
  | between | dispatch | running =>
      have hplain := h.requests.client.unswitched (by rw [hk]; trivial)
      exact absurd (hswitched.symm.trans hplain) (by decide)

end Multiroute

end ZenohBridge
