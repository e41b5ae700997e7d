import ZenohBridge.MultirouteStep

/-!
# The control of a multiroute connection

How an exchange ends, what is written to the client and which outcome is recorded is decided
by a few variables of the handler, set by hand at about ten exits. `Control` collects them
and `Course` says for every step what becomes of them, exit by exit.
-/

namespace ZenohBridge

/-- The variables that decide the end of an exchange and of its connection, with what was
routed and what was written to the client. -/
structure Control where
  requestNum : Nat
  responseDone : Bool
  switched : Bool
  keepAlive : Bool
  ending : ExchangeEnd
  bytesWritten : Nat
  outcome : ConnOutcome
  routed : List (RequestHead Octet)
  written : List (Nat × Octets)
  replies : List (Nat × Reply)

/-- What is added for the current request keeps the numbers in bounds. -/
theorem mem_numbered {β : Type} {n : Nat} {old : List (Nat × β)} {new : List β}
    (h : ∀ r ∈ old, r.1 ≤ n) : ∀ r ∈ old ++ new.map fun d => (n, d), r.1 ≤ n := by
  intro r hr
  obtain hold | hnew := List.mem_append.mp hr
  · exact h r hold
  · obtain ⟨d, -, rfl⟩ := List.mem_map.mp hnew
    exact le_rfl

namespace Multiroute

variable {P : HttpProxyParser Octet} {cfg : MultirouteConfig} {s s' : Multiroute P}
  {a : MultirouteAction}

def control (s : Multiroute P) : Control where
  requestNum := s.requestNum
  responseDone := s.exchange.responseDone
  switched := s.exchange.switched
  keepAlive := s.exchange.keepAlive
  ending := s.exchange.ending
  bytesWritten := s.exchange.bytesWritten
  outcome := s.outcome
  routed := s.log.routed
  written := s.log.written
  replies := s.log.replies

@[simp] theorem control_goto (phase : MultiroutePhase) (s : Multiroute P) :
    (s.goto phase).control = s.control := rfl

/-- What the connection makes of an exchange that returned. -/
structure Returned (s s' : Multiroute P) : Prop where
  after : s'.phase = .closed ∨ s'.phase = .nextHead ∧ s.exchange.switched = false ∧
    s.keepsAlive = true
  change : s'.control = { s.control with
    outcome := if s.exchange.switched then s.outcome
      else outcomeOf s.exchange.ending s.outcome }

/-- One step, by what it does to the control. -/
inductive Course (s : Multiroute P) (a : MultirouteAction) (s' : Multiroute P) : Prop
  | waits (before : s.phase.kind = .between) (after : s'.phase.kind = .between)
      (same : s'.control = s.control)
  /-- The connection ends outside of an exchange, with at most one reply. -/
  | leaves (before : s.phase.kind = .between ∨ s.phase.kind = .dispatch)
      (after : s'.phase = .closed) (outcome : ConnOutcome) (answers : List Reply)
      (change : s'.control = { s.control with
        outcome := outcome
        replies := s.log.replies ++ answers.map fun r => (s.requestNum, r) })
  | routes (head : RequestHead Octet) (before : s.phase = .nextHead)
      (after : s'.phase = .routing head)
      (change : s'.control = { s.control with
        requestNum := s.requestNum + 1
        routed := s.log.routed ++ [head] })
  | refuses (head : RequestHead Octet) (dns : String) (before : s.phase = .routing head)
      (action : a = .route (.ok dns) .unavailable) (after : s'.phase = .consume)
      (change : s'.control = { s.control with
        replies := s.log.replies ++ [(s.requestNum, .badGatewayKeepAlive dns)] })
  | prepares (before : s.phase.kind = .dispatch) (after : s'.phase.kind = .dispatch)
      (same : s'.control = s.control)
  | starts (head : RequestHead Octet) (dns : String) (before : s.phase = .publishHead head dns)
      (after : s'.phase = .exchange)
      (change : s'.control = { s.control with
        responseDone := false
        switched := false
        keepAlive := true
        ending := .ok
        bytesWritten := 0 })
  /-- The loop goes on; an event that it handles is one of the request. -/
  | loops (before : s.phase.kind = .running) (after : s'.phase.kind = .running)
      (quiet : ∀ carry e rest, s.phase = .events carry → s.events = e :: rest →
        e.side = some .initiator)
      (same : s'.control = s.control)
  | relays (carry : List (HttpEvent Octet)) (e : HttpEvent Octet) (rest : List (HttpEvent Octet))
      (raw : Octets) (before : s.phase = .events carry) (events : s.events = e :: rest)
      (side : e.side = some .responder) (notEnd : e ≠ .endMessage .responder)
      (after : s'.phase = .events carry)
      (change : s'.control = { s.control with
        keepAlive := (noteClose s.exchange e).keepAlive
        bytesWritten := s.exchange.bytesWritten + raw.length
        written := s.log.written ++ [(s.requestNum, raw)] })
  | completes (carry rest : List (HttpEvent Octet)) (before : s.phase = .events carry)
      (events : s.events = .endMessage .responder :: rest) (after : s'.phase = .teardown)
      (change : s'.control = { s.control with responseDone := true })
  /-- An exit with an end other than `Ok`, which answers a client that got nothing yet. -/
  | degrades (ending : ExchangeEnd) (answers : List Reply) (before : s.phase.kind = .running)
      (after : s'.phase = .teardown) (bad : ending ≠ .ok)
      (silent : answers = [] ∨ s.exchange.bytesWritten = 0 ∧ answers.length = 1)
      (change : s'.control = { s.control with
        keepAlive := false
        ending := ending
        replies := s.log.replies ++ answers.map fun r => (s.requestNum, r) })
  | switches (before : s.phase.kind = .running) (after : s'.phase.kind = .splicing)
      (change : s'.control = { s.control with switched := true })
  /-- `run_exchange` returns an error. -/
  | breaks (before : s.phase.kind = .running ∨ s.phase.kind = .splicing)
      (after : s'.phase = .closed)
      (change : s'.control = { s.control with outcome := .failed })
  | splices (before : s.phase.kind = .splicing)
      (after : s'.phase.kind = .splicing ∨ s'.phase = .teardown) (data : List Octets)
      (change : s'.control = { s.control with
        written := s.log.written ++ data.map fun d => (s.requestNum, d) })
  | returns (before : s.phase = .teardown) (back : Returned s s')

/-- The connection ends outside of an exchange without a reply. -/
theorem Course.leaves_silent (before : s.phase.kind = .between ∨ s.phase.kind = .dispatch)
    (outcome : ConnOutcome) : Course s a (s.close outcome) := by
  apply Course.leaves before rfl outcome []
  rw [List.map_nil, List.append_nil]
  rfl

theorem Course.leaves_answered (before : s.phase.kind = .between ∨ s.phase.kind = .dispatch)
    (r : Reply) (outcome : ConnOutcome) : Course s a ((s.reply r).close outcome) :=
  .leaves before rfl outcome [r] rfl

theorem Course.of_malformed (before : s.phase.kind = .between) {t : Multiroute P}
    (same : t.control = s.control) (clientFault : Bool) (reason : String) :
    Course s a (t.malformed clientFault reason) := by
  have hnum : t.requestNum = s.requestNum := congrArg Control.requestNum same
  have hreplies : t.log.replies = s.log.replies := congrArg Control.replies same
  cases clientFault with
  | true =>
      apply Course.leaves (Or.inl before) rfl .reset [.badRequest reason]
      rw [← hreplies, ← hnum, ← same]
      rfl
  | false =>
      apply Course.leaves (Or.inl before) rfl .reset []
      rw [List.map_nil, List.append_nil, ← hreplies, ← same]
      rfl

theorem Course.of_refusePoison (before : s.phase.kind = .between) {t : Multiroute P}
    (same : t.control = s.control) : Course s a t.refusePoison := by
  unfold refusePoison
  split
  · exact .of_malformed before same _ _
  · exact .waits before rfl same

theorem Course.of_consumeOn (before : s.phase.kind = .between) {t : Multiroute P}
    (same : t.control = s.control) {phase : MultiroutePhase} (after : phase.kind = .between) :
    Course s a (t.consumeOn phase) := by
  unfold consumeOn
  split
  · exact .waits before rfl same
  · exact .waits before after same

theorem stepNextHead_course (phase : s.phase = .nextHead) (h : s.stepNextHead a = some s') :
    Course s a s' := by
  have hkind : s.phase.kind = .between := by rw [phase]; rfl
  cases a with
  | tick =>
      simp only [stepNextHead] at h
      split at h
      · rename_i head rest hevents
        obtain rfl := Option.some.inj h
        exact .routes head phase rfl rfl
      · obtain rfl := Option.some.inj h
        exact .waits hkind hkind rfl
      · split at h
        · obtain rfl := Option.some.inj h
          exact .leaves_silent (Or.inl hkind) _
        split at h
        · obtain rfl := Option.some.inj h
          exact .of_malformed hkind rfl _ _
        split at h
        · obtain rfl := Option.some.inj h
          exact .of_refusePoison hkind rfl
        · obtain rfl := Option.some.inj h
          exact .waits hkind rfl rfl
  | _ => contradiction

theorem stepNextHeadRead_course (phase : s.phase = .nextHeadRead)
    (h : s.stepNextHeadRead cfg a = some s') : Course s a s' := by
  have hkind : s.phase.kind = .between := by rw [phase]; rfl
  cases a with
  | read data =>
      simp only [stepNextHeadRead, Option.ite_none_right_eq_some] at h
      obtain rfl := Option.some.inj h.2
      exact .of_refusePoison hkind rfl
  | readEof =>
      obtain rfl := Option.some.inj h
      exact .waits hkind rfl rfl
  | readFailed =>
      simp only [stepNextHeadRead] at h
      split at h
      · obtain rfl := Option.some.inj h
        exact .of_malformed hkind rfl _ _
      · obtain rfl := Option.some.inj h
        exact .leaves_silent (Or.inl hkind) _
  | shutdown =>
      obtain rfl := Option.some.inj h
      exact .leaves_silent (Or.inl hkind) _
  | _ => contradiction

theorem stepRouting_course {head : RequestHead Octet} (phase : s.phase = .routing head)
    (h : s.stepRouting head a = some s') : Course s a s' := by
  have hkind : s.phase.kind = .dispatch := by rw [phase]; rfl
  cases a with
  | route key backend =>
      cases key with
      | error e =>
          obtain rfl := Option.some.inj h
          exact .leaves_answered (Or.inr hkind) _ _
      | ok dns =>
          cases backend with
          | unavailable =>
              obtain rfl := Option.some.inj h
              exact .refuses head dns phase rfl rfl rfl
          | host | default =>
              obtain rfl := Option.some.inj h
              exact .prepares hkind rfl rfl
  | _ => contradiction

theorem stepConsume_course (phase : s.phase = .consume) (h : s.stepConsume a = some s') :
    Course s a s' := by
  have hkind : s.phase.kind = .between := by rw [phase]; rfl
  cases a with
  | tick =>
      simp only [stepConsume] at h
      split at h
      · obtain rfl := Option.some.inj h
        apply Course.of_consumeOn hkind
        · rfl
        · rfl
      · obtain rfl := Option.some.inj h
        exact .waits hkind rfl rfl
  | _ => contradiction

theorem stepConsumeEvents_course (phase : s.phase = .consumeEvents)
    (h : s.stepConsumeEvents a = some s') : Course s a s' := by
  have hkind : s.phase.kind = .between := by rw [phase]; rfl
  cases a with
  | tick =>
      simp only [stepConsumeEvents] at h
      split at h
      · obtain rfl := Option.some.inj h
        exact .waits hkind rfl rfl
      · obtain rfl := Option.some.inj h
        exact .waits hkind rfl rfl
      · obtain rfl := Option.some.inj h
        exact .waits hkind hkind rfl
      · split at h
        · obtain rfl := Option.some.inj h
          exact .waits hkind rfl rfl
        split at h
        · obtain rfl := Option.some.inj h
          exact .waits hkind rfl rfl
        · obtain rfl := Option.some.inj h
          exact .waits hkind rfl rfl
  | _ => contradiction

theorem stepConsumeRead_course (phase : s.phase = .consumeRead)
    (h : s.stepConsumeRead cfg a = some s') : Course s a s' := by
  have hkind : s.phase.kind = .between := by rw [phase]; rfl
  cases a with
  | read data =>
      simp only [stepConsumeRead, Option.ite_none_right_eq_some] at h
      obtain rfl := Option.some.inj h.2
      apply Course.of_consumeOn hkind
      · rfl
      · rfl
  | readEof | readFailed | shutdown =>
      obtain rfl := Option.some.inj h
      exact .waits hkind rfl rfl
  | _ => contradiction

theorem stepSetup_course {head : RequestHead Octet} {dns : String}
    (phase : s.phase = .setup head dns) (h : s.stepSetup head dns a = some s') :
    Course s a s' := by
  have hkind : s.phase.kind = .dispatch := by rw [phase]; rfl
  cases a with
  | setupDone ok =>
      cases ok with
      | true =>
          obtain rfl := Option.some.inj h
          exact .prepares hkind rfl rfl
      | false =>
          obtain rfl := Option.some.inj h
          exact .leaves_silent (Or.inr hkind) _
  | _ => contradiction

theorem stepPublishHead_course {head : RequestHead Octet} {dns : String}
    (phase : s.phase = .publishHead head dns) (h : s.stepPublishHead head dns a = some s') :
    Course s a s' := by
  have hkind : s.phase.kind = .dispatch := by rw [phase]; rfl
  cases a with
  | publish ok =>
      cases ok with
      | true =>
          obtain rfl := Option.some.inj h
          exact .starts head dns phase rfl rfl
      | false =>
          obtain rfl := Option.some.inj h
          exact .leaves_silent (Or.inr hkind) _
  | _ => contradiction

/-- An exit of the loop that answers a client that got nothing yet. -/
theorem Course.of_silent (before : s.phase.kind = .running) {ending : ExchangeEnd}
    (bad : ending ≠ .ok) (r : Reply) {t : Multiroute P} (same : t.control = s.control) :
    Course s a ((t.replyIfSilent r).endExchange ending) := by
  have hnum : t.requestNum = s.requestNum := congrArg Control.requestNum same
  have hreplies : t.log.replies = s.log.replies := congrArg Control.replies same
  have hbytes : t.exchange.bytesWritten = s.exchange.bytesWritten :=
    congrArg Control.bytesWritten same
  unfold replyIfSilent
  split
  · rename_i hsilent
    apply Course.degrades ending [r] before rfl bad (Or.inr ⟨hbytes ▸ hsilent, rfl⟩)
    rw [← hreplies, ← hnum, ← same]
    rfl
  · apply Course.degrades ending [] before rfl bad (Or.inl rfl)
    rw [List.map_nil, List.append_nil, ← hreplies, ← same]
    rfl

/-- An exit of the loop that never answers. -/
theorem Course.of_endExchange (before : s.phase.kind = .running) {ending : ExchangeEnd}
    (bad : ending ≠ .ok) {t : Multiroute P} (same : t.control = s.control) :
    Course s a (t.endExchange ending) := by
  have hreplies : t.log.replies = s.log.replies := congrArg Control.replies same
  apply Course.degrades ending [] before rfl bad (Or.inl rfl)
  rw [List.map_nil, List.append_nil, ← hreplies, ← same]
  rfl

theorem stepExchange_course (phase : s.phase = .exchange) (h : s.stepExchange a = some s') :
    Course s a s' := by
  cases a with
  | tick =>
      obtain rfl := Option.some.inj h
      refine .loops (by rw [phase]; rfl) rfl ?_ ?_
      · intro carry e rest hevents
        rw [phase] at hevents
        cases hevents
      · simp only [control_goto]
        split <;> split <;> rfl
  | _ => contradiction

/-- The loop goes on after an event of the request. -/
theorem Course.of_initiator {carry rest : List (HttpEvent Octet)} {e : HttpEvent Octet}
    (phase : s.phase = .events carry) (events : s.events = e :: rest)
    (side : e.side = some .initiator) (after : s'.phase.kind = .running)
    (same : s'.control = s.control) : Course s a s' := by
  refine .loops (by rw [phase]; rfl) after ?_ same
  intro carry' e' rest' _ hevents
  rw [events] at hevents
  cases hevents
  exact side

theorem handleEvent_course {carry rest : List (HttpEvent Octet)} {e : HttpEvent Octet}
    (phase : s.phase = .events carry) (events : s.events = e :: rest)
    (hrelay : Multiroute.relayed cfg s.exchange e = none) :
    Course s a (s.handleEvent cfg carry e rest) := by
  have hkind : s.phase.kind = .running := by rw [phase]; rfl
  unfold handleEvent
  split
  · rename_i hend
    refine .of_initiator phase events (by rw [hend.1]; rfl) hkind rfl
  split
  · exact .of_endExchange hkind (by simp) rfl
  split
  · rename_i hresponse
    subst hresponse
    exact .completes carry rest phase events rfl rfl
  split
  · exact .switches hkind rfl rfl
  rename_i hover hresponse hswitch
  exact .of_initiator phase events (initiator_of_carried hrelay hover hresponse hswitch) rfl rfl

/-- A response event changes at most the keep-alive flag before its bytes are written. -/
theorem noteClose_eq (x : Exchange) (e : HttpEvent Octet) :
    noteClose x e = { x with keepAlive := (noteClose x e).keepAlive } := by
  unfold noteClose
  split
  · split <;> rfl
  · rfl

theorem stepEvents_course {carry : List (HttpEvent Octet)} (phase : s.phase = .events carry)
    (h : s.stepEvents cfg carry a = some s') : Course s a s' := by
  have hkind : s.phase.kind = .running := by rw [phase]; rfl
  have hbreaks : Course s a (s.close .failed) := .breaks (Or.inl hkind) rfl rfl
  unfold stepEvents at h
  split at h
  · rename_i hevents
    split at h
    · obtain rfl := Option.some.inj h
      unfold afterEvents
      split
      · exact .of_silent hkind (by simp) _ rfl
      · refine .loops hkind rfl ?_ rfl
        intro carry' e rest _ hnone
        rw [hevents] at hnone
        cases hnone
    · contradiction
  · rename_i e rest hevents
    split at h
    · rename_i raw hforward
      obtain rfl := Option.some.inj h
      have hside : e.side = some .initiator := by
        obtain ⟨-, rfl | rfl⟩ := forwarded_inv hforward <;> rfl
      exact .of_initiator phase hevents hside hkind rfl
    · obtain rfl := Option.some.inj h
      exact hbreaks
    · rename_i raw _ hrelay
      obtain rfl := Option.some.inj h
      have hnotEnd : e ≠ .endMessage .responder := by
        rintro rfl
        contradiction
      refine .relays carry e rest raw phase hevents (relayed_inv hrelay).1 hnotEnd (by exact phase) ?_
      rw [noteClose_eq s.exchange e]
      rfl
    · obtain rfl := Option.some.inj h
      exact hbreaks
    · rename_i hforward hrelay
      obtain rfl := Option.some.inj h
      exact handleEvent_course phase hevents hrelay
    · contradiction

theorem stepSelect_course (phase : s.phase = .select) (h : s.stepSelect cfg a = some s') :
    Course s a s' := by
  have hkind : s.phase.kind = .running := by rw [phase]; rfl
  have hloops : ∀ t : Multiroute P, t.phase = .exchange → t.control = s.control →
      Course s a t := by
    intro t hphase hsame
    refine .loops hkind (by rw [hphase]; rfl) ?_ hsame
    intro carry e rest hevents
    rw [phase] at hevents
    cases hevents
  cases a with
  | read data =>
      simp only [stepSelect, Option.ite_none_right_eq_some] at h
      obtain rfl := Option.some.inj h.2
      exact hloops _ rfl rfl
  | readEof =>
      simp only [stepSelect, Option.ite_none_right_eq_some] at h
      obtain rfl := Option.some.inj h.2
      exact hloops _ rfl rfl
  | readFailed =>
      simp only [stepSelect, Option.ite_none_right_eq_some] at h
      obtain rfl := Option.some.inj h.2
      exact .breaks (Or.inl hkind) rfl rfl
  | sample payload =>
      simp only [stepSelect] at h
      split at h
      · obtain rfl := Option.some.inj h
        exact hloops _ rfl rfl
      · obtain rfl := Option.some.inj h
        exact hloops _ rfl rfl
  | channelClosed | timeout =>
      obtain rfl := Option.some.inj h
      exact .of_silent hkind (by simp) _ rfl
  | overflow | shutdown =>
      obtain rfl := Option.some.inj h
      exact .of_endExchange hkind (by simp) rfl
  | _ => contradiction

/-- A step of the splice that writes nothing. -/
theorem Course.of_splice (before : s.phase.kind = .splicing)
    (after : s'.phase.kind = .splicing ∨ s'.phase = .teardown)
    (same : s'.control = s.control) : Course s a s' := by
  apply Course.splices before after []
  rw [same, List.map_nil, List.append_nil]
  rfl

theorem stepSpliceStart_course (before : s.phase.kind = .splicing)
    (h : s.stepSpliceStart a = some s') : Course s a s' := by
  cases a with
  | tick =>
      obtain rfl := Option.some.inj h
      exact .of_splice before (Or.inl rfl) rfl
  | _ => contradiction

theorem stepSpliceUp_course {chunks : List Octets} (before : s.phase.kind = .splicing)
    (h : s.stepSpliceUp chunks a = some s') : Course s a s' := by
  unfold stepSpliceUp at h
  split at h
  · obtain rfl := Option.some.inj h
    exact .of_splice before (Or.inl rfl) rfl
  · obtain rfl := Option.some.inj h
    exact .breaks (Or.inr before) rfl rfl
  · obtain rfl := Option.some.inj h
    exact .of_splice before (Or.inl rfl) rfl
  · contradiction

theorem stepSpliceDown_course {chunks : List Octets} (before : s.phase.kind = .splicing)
    (h : s.stepSpliceDown chunks a = some s') : Course s a s' := by
  unfold stepSpliceDown at h
  split at h
  · obtain rfl := Option.some.inj h
    exact .splices before (Or.inl rfl) [_] rfl
  · obtain rfl := Option.some.inj h
    exact .breaks (Or.inr before) rfl rfl
  · obtain rfl := Option.some.inj h
    exact .of_splice before (Or.inl rfl) rfl
  · contradiction

theorem stepSplice_course (before : s.phase.kind = .splicing) (h : s.stepSplice cfg a = some s') :
    Course s a s' := by
  cases a with
  | read data =>
      simp only [stepSplice, Option.ite_none_right_eq_some] at h
      obtain rfl := Option.some.inj h.2
      exact .of_splice before (Or.inl rfl) rfl
  | sample payload =>
      simp only [stepSplice] at h
      split at h
      · obtain rfl := Option.some.inj h
        exact .of_splice before (Or.inr rfl) rfl
      · obtain rfl := Option.some.inj h
        exact .of_splice before (Or.inl rfl) rfl
  | readEof | readFailed | channelClosed | overflow | shutdown =>
      obtain rfl := Option.some.inj h
      exact .of_splice before (Or.inr rfl) rfl
  | _ => contradiction

theorem stepSplicePut_course {data : Octets} (before : s.phase.kind = .splicing)
    (h : s.stepSplicePut data a = some s') : Course s a s' := by
  cases a with
  | publish ok =>
      cases ok with
      | true =>
          obtain rfl := Option.some.inj h
          exact .of_splice before (Or.inl rfl) rfl
      | false =>
          obtain rfl := Option.some.inj h
          exact .of_splice before (Or.inr rfl) rfl
  | _ => contradiction

theorem stepSpliceWrite_course {data : Octets} (before : s.phase.kind = .splicing)
    (h : s.stepSpliceWrite data a = some s') : Course s a s' := by
  cases a with
  | write ok =>
      cases ok with
      | true =>
          obtain rfl := Option.some.inj h
          exact .splices before (Or.inl rfl) [data] rfl
      | false =>
          obtain rfl := Option.some.inj h
          exact .of_splice before (Or.inr rfl) rfl
  | _ => contradiction

theorem returned_of_afterExchange {t : Multiroute P} (same : t.control = s.control)
    (alive : t.keepsAlive = s.keepsAlive) : Returned s t.afterExchange := by
  have hswitched : t.exchange.switched = s.exchange.switched := congrArg Control.switched same
  have hending : t.exchange.ending = s.exchange.ending := congrArg Control.ending same
  have houtcome : t.outcome = s.outcome := congrArg Control.outcome same
  unfold afterExchange
  split
  · rename_i hs
    refine ⟨Or.inl rfl, ?_⟩
    rw [if_pos (hswitched ▸ hs), ← houtcome, ← same]
    rfl
  · rename_i hs
    have hs' : ¬ s.exchange.switched = true := hswitched ▸ hs
    simp only
    split
    · refine ⟨Or.inl rfl, ?_⟩
      rw [if_neg hs', ← hending, ← houtcome, ← same]
      rfl
    · rename_i hstop
      have halive : s.keepsAlive = true := by
        rw [Bool.or_eq_true, not_or, Bool.not_eq_true', Bool.not_eq_false] at hstop
        exact alive ▸ hstop.1
      refine ⟨Or.inr ⟨rfl, Bool.eq_false_iff.mpr hs', halive⟩, ?_⟩
      rw [if_neg hs', ← hending, ← houtcome, ← same]
      rfl

theorem stepTeardown_returned (h : s.stepTeardown a = some s') : Returned s s' := by
  cases a with
  | publish ok =>
      cases ok with
      | true =>
          obtain rfl := Option.some.inj h
          exact returned_of_afterExchange rfl rfl
      | false =>
          obtain rfl := Option.some.inj h
          exact returned_of_afterExchange rfl rfl
  | _ => contradiction

/-- A step from the teardown is the return of the exchange. -/
theorem step_returned (phase : s.phase = .teardown) (h : s.step cfg a = some s') :
    Returned s s' := by
  simp only [step, phase] at h
  exact stepTeardown_returned h

/-- Every step of the handler takes one of the courses. -/
theorem step_course (h : s.step cfg a = some s') : Course s a s' := by
  unfold step at h
  split at h
  · exact stepNextHead_course ‹_› h
  · exact stepNextHeadRead_course ‹_› h
  · exact stepRouting_course ‹_› h
  · exact stepConsume_course ‹_› h
  · exact stepConsumeEvents_course ‹_› h
  · exact stepConsumeRead_course ‹_› h
  · exact stepSetup_course ‹_› h
  · exact stepPublishHead_course ‹_› h
  · exact stepExchange_course ‹_› h
  · exact stepEvents_course ‹_› h
  · exact stepSelect_course ‹_› h
  · rename_i phase
    exact stepSpliceStart_course (by rw [phase]; rfl) h
  · rename_i phase
    exact stepSpliceUp_course (by rw [phase]; rfl) h
  · rename_i phase
    exact stepSpliceDown_course (by rw [phase]; rfl) h
  · rename_i phase
    exact stepSplice_course (by rw [phase]; rfl) h
  · rename_i phase
    exact stepSplicePut_course (by rw [phase]; rfl) h
  · rename_i phase
    exact stepSpliceWrite_course (by rw [phase]; rfl) h
  · exact .returns ‹_› (stepTeardown_returned h)
  · contradiction

end Multiroute

end ZenohBridge
