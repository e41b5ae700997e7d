import ZenohBridge.MultirouteControl

/-!
# How an exchange ends

The connection is run together with the events that its running exchange has handled. An
invariant with one clause for each part of the handler says what the flags of the exchange
mean there: in the loop nothing has gone wrong yet and nothing was answered by the bridge;
at the teardown an end other than `Ok` has cleared the keep-alive flag, and a reply of the
bridge stands alone.
-/

namespace ZenohBridge

open Execution

/-- A connection with the events that its running exchange has handled. -/
structure Traced (P : HttpProxyParser Octet) where
  conn : Multiroute P
  handled : List (HttpEvent Octet)

/-- The response heads among the events, in order. -/
def responseHeads {β : Type} (events : List (HttpEvent β)) : List (ResponseHead β) :=
  events.filterMap fun e => match e with
    | .responseHead head => some head
    | _ => none

/-- The law of the parser that an interim head has no end of its own: the end of a response
follows the head of a final one. -/
def FinalEnds {β : Type} (events : List (HttpEvent β)) : Prop :=
  ∀ before after, events = before ++ .endMessage .responder :: after →
    ∃ head, (responseHeads before).getLast? = some head ∧ head.interim = false

namespace Multiroute

variable {P : HttpProxyParser Octet} {cfg : MultirouteConfig} {s s' : Multiroute P}
  {a : MultirouteAction}

/-- The waiting events were drained from the parser. -/
def Sourced (s : Multiroute P) : Prop := ∀ e ∈ s.queue, e ∈ s.log.drained

theorem Sourced.of_events (h : Sourced s) (hd : s'.log.drained = s.log.drained)
    (hq : ∀ e ∈ s'.queue, e ∈ s.queue) : Sourced s' := by
  intro e he
  rw [hd]
  exact h e (hq e he)

/-- Newly drained events go to the end of the queue. -/
theorem Sourced.of_drain (h : Sourced s) {new : List (HttpEvent Octet)}
    (hcarry : s'.phase.carry = []) (hevents : s'.events = s.events ++ new)
    (hd : s'.log.drained = s.log.drained ++ new) : Sourced s' := by
  intro e he
  rw [queue, hcarry, List.nil_append, hevents] at he
  rw [hd]
  rcases List.mem_append.mp he with hold | hnew
  · exact List.mem_append_left _ (h e (List.mem_append_right _ hold))
  · exact List.mem_append_right _ hnew

/-- The event loop takes an event from the queue. -/
theorem Sourced.pop (h : Sourced s) {carry rest : List (HttpEvent Octet)} {e : HttpEvent Octet}
    (phase : s.phase = .events carry) (events : s.events = e :: rest)
    (hd : s'.log.drained = s.log.drained) (hq : s'.queue = carry ++ rest) : Sourced s' := by
  apply h.of_events hd
  intro e' he
  rw [hq] at he
  rw [queue_of_events phase events]
  obtain hcarry | hrest := List.mem_append.mp he
  · exact List.mem_append_left _ hcarry
  · exact List.mem_append_right _ (List.mem_cons_of_mem _ hrest)

theorem Sourced.reoffer (h : Sourced s) (hcarry : s.phase.carry = []) :
    Sourced s.reofferClient.reofferResponse := by
  have hclient : Sourced s.reofferClient ∧ s.reofferClient.phase.carry = [] := by
    unfold reofferClient
    split
    · exact ⟨h.of_drain hcarry rfl rfl, hcarry⟩
    · exact ⟨h, hcarry⟩
  generalize s.reofferClient = t at hclient
  unfold reofferResponse
  split
  · exact hclient.1.of_drain hclient.2 rfl rfl
  · exact hclient.1

/-- Every event that waits was drained from the parser, in every step. -/
theorem Sourced.step (h : Sourced s) (hs : s.step cfg a = some s') : Sourced s' := by
  cases step_inv hs with
  | moved settles moves empty queue inside heads =>
      apply h.of_events settles.settled.drained
      intro e he
      by_cases hclosed : s'.phase = .closed
      · rw [Multiroute.queue, hclosed, settles.settled.events] at he
        exact List.mem_append_right _ he
      · rwa [queue hclosed] at he
  | fedClient kind settles target =>
      apply h.of_drain _ settles.settled.events settles.settled.drained
      obtain hp | hp | hp := target <;> rw [hp] <;> rfl
  | readClient data kind pending settles target =>
      apply h.of_drain _ settles.settled.events settles.settled.drained
      obtain ⟨-, hp | hp | hp⟩ | ⟨-, hp⟩ := target <;> rw [hp] <;> rfl
  | eofClient phase kind pending target eq =>
      subst eq
      apply h.of_drain _ rfl rfl
      obtain ⟨-, rfl | rfl⟩ | ⟨-, rfl⟩ := target <;> rfl
  | reoffered phase eq =>
      subst eq
      have hreoffer := h.reoffer (by rw [phase]; rfl)
      intro e he
      exact hreoffer e (List.mem_append_right _ he)
  | received payload phase action nonempty eq =>
      subst eq
      exact h.of_drain rfl rfl rfl
  | eofResponse phase action eq =>
      subst eq
      exact h.of_drain rfl rfl rfl
  | restored carry phase events settles target =>
      apply h.of_events settles.settled.drained
      intro e he
      have hcarry : s'.phase.carry = [] := by
        obtain hp | hp := target <;> rw [hp] <;> rfl
      rwa [settles.queue_restored phase events hcarry] at he
  | stopped carry e rest phase events side responseDone settles target =>
      apply h.pop phase events settles.settled.drained
      rw [queue_of_phase target, settles.settled.events]
      rfl
  | carried carry e rest phase events side keeps eq =>
      subst eq
      rw [Sourced, queue_of_events phase events] at h
      intro e' he
      apply h e'
      have hmoved : carry ++ [e] ++ rest = carry ++ e :: rest := by
        rw [List.append_assoc, List.singleton_append]
      exact hmoved ▸ he
  | switched carry rest phase events eq =>
      subst eq
      exact h.pop phase events rfl rfl
  | forwarded carry e rest raw phase events _ eq | relayed carry e rest raw phase events _ eq =>
      subst eq
      refine h.pop phase events rfl ?_
      simp only [queue, published, wrote, phase]
      rfl
  | requestEnded carry rest phase events unfinished eq =>
      subst eq
      refine h.pop phase events rfl ?_
      simp only [queue, phase]
      rfl
  | discarded e rest phase kind events stray target eq =>
      subst eq
      rw [Sourced, queue, events] at h
      intro e' he
      apply h e'
      obtain rfl | rfl := target <;> exact List.mem_append_right _ (List.mem_cons_of_mem _ he)
  | routed head rest phase events eq =>
      subst eq
      rw [Sourced, queue, events] at h
      intro e he
      exact h e (List.mem_append_right _ (List.mem_cons_of_mem _ he))
  | tornDown next outcome marker phase markers target eq =>
      subst eq
      intro e he
      apply h e
      obtain rfl | ⟨rfl, -⟩ := target <;> exact List.mem_append_right _ he
  | started head dns phase action eq | spliceStarted phase eq | splicedUp chunk chunks phase eq
  | spliceTurned phase eq | splicedDown chunk chunks phase eq | spliceRead data phase eq
  | spliceReceived payload phase eq | splicePut data phase eq | spliceWrote data phase eq =>
      subst eq
      intro e he
      exact h e (List.mem_append_right _ he)

end Multiroute

namespace Control

/-- The replies of the bridge to the current request. -/
def repliesOf (c : Control) : List Reply :=
  c.replies.filterMap fun r => if r.1 = c.requestNum then some r.2 else none

/-- The bytes of the backend that were written for the current request. -/
def writtenOf (c : Control) : Octets :=
  c.written.flatMap fun w => if w.1 = c.requestNum then w.2 else []

end Control

namespace Traced

variable {P : HttpProxyParser Octet} {cfg : MultirouteConfig} {t t' : Traced P}
  {a : MultirouteAction}

/-- The events handled after a step. An exchange starts with none; an event of its loop is
handled unless it is carried aside. -/
def handledAfter (s s' : Multiroute P) (handled : List (HttpEvent Octet)) :
    List (HttpEvent Octet) :=
  match s.phase, s.events with
  | .publishHead _ _, _ => []
  | .events carry, e :: _ =>
      if s'.phase = .events (carry ++ [e]) then handled else handled ++ [e]
  | _, _ => handled

def start (P : HttpProxyParser Octet) : Traced P := ⟨.init P, []⟩

def step (cfg : MultirouteConfig) (t : Traced P) (a : MultirouteAction) : Option (Traced P) :=
  (t.conn.step cfg a).map fun conn => ⟨conn, handledAfter t.conn conn t.handled⟩

theorem step_inv (h : step cfg t a = some t') :
    t.conn.step cfg a = some t'.conn ∧ t'.handled = handledAfter t.conn t'.conn t.handled := by
  obtain ⟨conn, hconn, rfl⟩ := Option.map_eq_some_iff.mp h
  exact ⟨hconn, rfl⟩

/-- No head of a final response among the handled events asks to close. -/
def StaysOpen (handled : List (HttpEvent Octet)) : Prop :=
  ∀ head, .responseHead head ∈ handled → head.interim = false → responseWantsClose head = false

/-- The connection goes on. -/
structure Open (c : Control) : Prop where
  ending : c.ending = .ok
  switched : c.switched = false
  outcome : c.outcome = .completed
  repliesNumbered : ∀ r ∈ c.replies, r.1 ≤ c.requestNum
  writtenNumbered : ∀ w ∈ c.written, w.1 ≤ c.requestNum

/-- Nothing was written for the current request. -/
structure Untouched (c : Control) : Prop where
  replies : c.repliesOf = []
  written : c.writtenOf = []

/-- The exchange is in its loop. -/
structure Looping (c : Control) (handled : List (HttpEvent Octet)) : Prop extends Open c where
  responseDone : c.responseDone = false
  replies : c.repliesOf = []
  bytesWritten : c.bytesWritten = c.writtenOf.length
  stays : c.keepAlive = true → StaysOpen handled

/-- The exchange has left its loop without a switch. -/
structure Exited (c : Control) (handled : List (HttpEvent Octet)) : Prop where
  outcome : c.outcome = .completed
  repliesNumbered : ∀ r ∈ c.replies, r.1 ≤ c.requestNum
  writtenNumbered : ∀ w ∈ c.written, w.1 ≤ c.requestNum
  degraded : c.ending ≠ .ok → c.keepAlive = false
  responseDone : c.responseDone = true → .endMessage .responder ∈ handled
  stays : c.keepAlive = true → StaysOpen handled
  answered : c.repliesOf = [] ∨ c.repliesOf.length = 1 ∧ c.writtenOf = []

/-- The handled and the waiting events were drained from the parser. -/
structure Drained (t : Traced P) : Prop where
  waiting : t.conn.Sourced
  handled : ∀ e ∈ t.handled, e ∈ t.conn.log.drained

/-- What the flags mean in each part of the handler. -/
structure ExchangeInv (t : Traced P) : Prop where
  between : t.conn.phase.kind = .between → Open t.conn.control
  dispatch : t.conn.phase.kind = .dispatch → Open t.conn.control ∧ Untouched t.conn.control
  running : t.conn.phase.kind = .running → Looping t.conn.control t.handled
  splicing : t.conn.phase.kind = .splicing → t.conn.exchange.switched = true
  teardown : t.conn.phase = .teardown →
    t.conn.exchange.switched = true ∨ Exited t.conn.control t.handled
  closed : t.conn.phase = .closed → t.conn.exchange.switched = true ∨
    (t.conn.outcome = .completed → t.conn.exchange.ending = .ok)

section Parts

theorem kind_teardown {p : MultiroutePhase} (h : p = .teardown) : p.kind = .finished := by
  rw [h]
  rfl

theorem kind_closed {p : MultiroutePhase} (h : p = .closed) : p.kind = .finished := by
  rw [h]
  rfl

theorem ExchangeInv.of_between (hk : t.conn.phase.kind = .between) (h : Open t.conn.control) :
    ExchangeInv t where
  between := fun _ => h
  dispatch := by simp [hk]
  running := by simp [hk]
  splicing := by simp [hk]
  teardown := fun hp => by simp [kind_teardown hp] at hk
  closed := fun hp => by simp [kind_closed hp] at hk

theorem ExchangeInv.of_dispatch (hk : t.conn.phase.kind = .dispatch) (h : Open t.conn.control)
    (hu : Untouched t.conn.control) : ExchangeInv t where
  between := by simp [hk]
  dispatch := fun _ => ⟨h, hu⟩
  running := by simp [hk]
  splicing := by simp [hk]
  teardown := fun hp => by simp [kind_teardown hp] at hk
  closed := fun hp => by simp [kind_closed hp] at hk

theorem ExchangeInv.of_running (hk : t.conn.phase.kind = .running)
    (h : Looping t.conn.control t.handled) : ExchangeInv t where
  between := by simp [hk]
  dispatch := by simp [hk]
  running := fun _ => h
  splicing := by simp [hk]
  teardown := fun hp => by simp [kind_teardown hp] at hk
  closed := fun hp => by simp [kind_closed hp] at hk

theorem ExchangeInv.of_splicing (hk : t.conn.phase.kind = .splicing)
    (h : t.conn.exchange.switched = true) : ExchangeInv t where
  between := by simp [hk]
  dispatch := by simp [hk]
  running := by simp [hk]
  splicing := fun _ => h
  teardown := fun hp => by simp [kind_teardown hp] at hk
  closed := fun hp => by simp [kind_closed hp] at hk

theorem ExchangeInv.of_teardown (hp : t.conn.phase = .teardown)
    (h : t.conn.exchange.switched = true ∨ Exited t.conn.control t.handled) : ExchangeInv t where
  between := by simp [kind_teardown hp]
  dispatch := by simp [kind_teardown hp]
  running := by simp [kind_teardown hp]
  splicing := by simp [kind_teardown hp]
  teardown := fun _ => h
  closed := by simp [hp]

theorem ExchangeInv.of_closed (hp : t.conn.phase = .closed)
    (h : t.conn.exchange.switched = true ∨
      (t.conn.outcome = .completed → t.conn.exchange.ending = .ok)) : ExchangeInv t where
  between := by simp [kind_closed hp]
  dispatch := by simp [kind_closed hp]
  running := by simp [kind_closed hp]
  splicing := by simp [kind_closed hp]
  teardown := by simp [hp]
  closed := fun _ => h

end Parts

theorem exchangeInv_start (P : HttpProxyParser Octet) : ExchangeInv (start P) :=
  .of_between rfl ⟨rfl, rfl, rfl, by simp [start, Multiroute.control, Multiroute.init],
    by simp [start, Multiroute.control, Multiroute.init]⟩

/-- A fresh number has no replies and no bytes. -/
theorem untouched_of_lt {c : Control} (hr : ∀ r ∈ c.replies, r.1 < c.requestNum)
    (hw : ∀ w ∈ c.written, w.1 < c.requestNum) : Untouched c := by
  constructor
  · rw [Control.repliesOf, List.filterMap_eq_nil_iff]
    intro r hmem
    exact if_neg (Nat.ne_of_lt (hr r hmem))
  · rw [Control.writtenOf, List.flatMap_eq_nil_iff]
    intro w hmem
    exact if_neg (Nat.ne_of_lt (hw w hmem))

/-- The replies to the current request grow by what the bridge answers. -/
theorem repliesOf_append (c : Control) (answers : List Reply) :
    { c with replies := c.replies ++ answers.map fun r => (c.requestNum, r) }.repliesOf =
      c.repliesOf ++ answers := by
  simp only [Control.repliesOf, List.filterMap_append, List.filterMap_map]
  congr 1
  simp

theorem writtenOf_append (c : Control) (raw : Octets) :
    { c with written := c.written ++ [(c.requestNum, raw)] }.writtenOf = c.writtenOf ++ raw := by
  simp [Control.writtenOf]

section Handled

variable {s s' : Multiroute P} {handled carry rest : List (HttpEvent Octet)} {e : HttpEvent Octet}

theorem handledAfter_events (hphase : s.phase = .events carry) (hevents : s.events = e :: rest) :
    handledAfter s s' handled =
      if s'.phase = .events (carry ++ [e]) then handled else handled ++ [e] := by
  simp only [handledAfter, hphase, hevents]

theorem handledAfter_kept (hphase : s.phase = .events carry) (hevents : s.events = e :: rest)
    (after : s'.phase = .events carry) : handledAfter s s' handled = handled ++ [e] := by
  rw [handledAfter_events hphase hevents, if_neg]
  rw [after, MultiroutePhase.events.injEq]
  intro hself
  exact absurd (congrArg List.length hself) (by simp)

/-- An event of the request is no response head. -/
theorem StaysOpen.append (h : StaysOpen handled)
    (he : ∀ head, e = .responseHead head → head.interim = false → responseWantsClose head = false) :
    StaysOpen (handled ++ [e]) := by
  intro head hmem hfinal
  rcases List.mem_append.mp hmem with hold | hnew
  · exact h head hold hfinal
  · exact he head (List.mem_singleton.mp hnew).symm hfinal

/-- In the loop only events of the request are handled silently. -/
theorem StaysOpen.loops (h : StaysOpen handled) (before : s.phase.kind = .running)
    (quiet : ∀ carry e rest, s.phase = .events carry → s.events = e :: rest →
      e.side = some .initiator) : StaysOpen (handledAfter s s' handled) := by
  unfold handledAfter
  split
  · rename_i head dns hphase
    rw [hphase] at before
    cases before
  · rename_i carry e rest hphase hevents
    split
    · exact h
    · apply h.append
      rintro head rfl
      cases quiet _ _ _ hphase hevents
  · exact h

/-- The flag is kept only by a head that does not ask to close. -/
theorem noteClose_keepAlive {x : Exchange} (h : (Multiroute.noteClose x e).keepAlive = true) :
    x.keepAlive = true ∧ ∀ head, e = .responseHead head → head.interim = false →
      responseWantsClose head = false := by
  unfold Multiroute.noteClose at h
  split at h
  · rename_i head
    split at h
    · cases h
    · rename_i hclose
      refine ⟨h, ?_⟩
      rintro head' heq hfinal
      cases heq
      rw [hfinal, Bool.not_false, Bool.true_and, Bool.not_eq_true] at hclose
      exact hclose
  · rename_i hother
    exact ⟨h, fun head heq => absurd heq (hother head)⟩

end Handled

/-- The bytes of a response event are written. -/
theorem Looping.relay {s : Multiroute P} {handled : List (HttpEvent Octet)}
    (h : Looping s.control handled) (raw : Octets) (e : HttpEvent Octet) :
    Looping { s.control with
      keepAlive := (Multiroute.noteClose s.exchange e).keepAlive
      bytesWritten := s.exchange.bytesWritten + raw.length
      written := s.log.written ++ [(s.requestNum, raw)] } (handled ++ [e]) where
  ending := h.ending
  switched := h.switched
  outcome := h.outcome
  repliesNumbered := h.repliesNumbered
  writtenNumbered := @mem_numbered _ _ _ [raw] h.writtenNumbered
  responseDone := h.responseDone
  replies := h.replies
  bytesWritten := by
    calc s.exchange.bytesWritten + raw.length
        = s.control.writtenOf.length + raw.length := congrArg (· + raw.length) h.bytesWritten
      _ = (s.control.writtenOf ++ raw).length := List.length_append.symm
      _ = _ := congrArg List.length (writtenOf_append s.control raw).symm
  stays := by
    intro hk
    obtain ⟨hkeep, hhead⟩ := noteClose_keepAlive hk
    exact (h.stays hkeep).append hhead

/-- An exit with an end other than `Ok`. -/
theorem Looping.degrade {s : Multiroute P} {handled handled' : List (HttpEvent Octet)}
    (h : Looping s.control handled) (ending : ExchangeEnd) {answers : List Reply}
    (silent : answers = [] ∨ s.exchange.bytesWritten = 0 ∧ answers.length = 1) :
    Exited { s.control with
      keepAlive := false
      ending := ending
      replies := s.log.replies ++ answers.map fun r => (s.requestNum, r) } handled' where
  outcome := h.outcome
  repliesNumbered := mem_numbered h.repliesNumbered
  writtenNumbered := h.writtenNumbered
  degraded := fun _ => rfl
  responseDone := by
    intro hdone
    cases h.responseDone.symm.trans hdone
  stays := nofun
  answered := by
    have hreplies := repliesOf_append s.control answers
    rw [h.replies, List.nil_append] at hreplies
    obtain hnone | ⟨hbytes, hone⟩ := silent
    · exact Or.inl (hreplies.trans hnone)
    · refine Or.inr ⟨(congrArg List.length hreplies).trans hone, ?_⟩
      exact List.length_eq_zero_iff.mp (h.bytesWritten.symm.trans hbytes)

/-- An end other than `Ok` is never recorded as completed. -/
theorem outcomeOf_completed {ending : ExchangeEnd} {outcome : ConnOutcome}
    (h : Multiroute.outcomeOf ending outcome = .completed) : ending = .ok := by
  cases ending with
  | ok => rfl
  | _ => cases h

/-- A connection that is recorded as completed has a last exchange that ended well. -/
theorem ending_of_completed {s s' : Multiroute P} (hplain : s.exchange.switched = false)
    (change : s'.control = { s.control with
      outcome := if s.exchange.switched then s.outcome
        else Multiroute.outcomeOf s.exchange.ending s.outcome })
    (hcompleted : s'.outcome = .completed) : s.exchange.ending = .ok := by
  have houtcome := (congrArg Control.outcome change).symm.trans hcompleted
  simp only [hplain] at houtcome
  exact outcomeOf_completed houtcome

/-- An exchange that keeps the connection alive ended well. -/
theorem Exited.reopens {s : Multiroute P} {handled : List (HttpEvent Octet)}
    (h : Exited s.control handled) (hplain : s.exchange.switched = false)
    (halive : s.keepsAlive = true) :
    Open { s.control with
      outcome := if s.exchange.switched then s.outcome
        else Multiroute.outcomeOf s.exchange.ending s.outcome } := by
  simp only [Multiroute.keepsAlive, Bool.and_eq_true] at halive
  have hok : s.exchange.ending = .ok := by
    by_contra hbad
    cases (h.degraded hbad).symm.trans halive.1.1
  refine ⟨hok, hplain, ?_, h.repliesNumbered, h.writtenNumbered⟩
  simp only [hplain, hok, Multiroute.outcomeOf]
  exact h.outcome

theorem ExchangeInv.step (h : ExchangeInv t) (hs : step cfg t a = some t') : ExchangeInv t' := by
  obtain ⟨hconn, hhandled⟩ := step_inv hs
  cases Multiroute.step_course hconn with
  | waits before after same =>
      refine .of_between after ?_
      rw [same]
      exact h.between before
  | leaves before after outcome answers change =>
      refine .of_closed after (Or.inr fun _ => ?_)
      have hopen : Open t.conn.control := before.elim h.between fun hk => (h.dispatch hk).1
      exact (congrArg Control.ending change).trans hopen.ending
  | routes head before after change =>
      have hopen := h.between (by rw [before]; rfl)
      refine .of_dispatch (by rw [after]; rfl) ?_ ?_
      · rw [change]
        exact ⟨hopen.ending, hopen.switched, hopen.outcome,
          fun r hr => (hopen.repliesNumbered r hr).trans (Nat.le_succ _),
          fun w hw => (hopen.writtenNumbered w hw).trans (Nat.le_succ _)⟩
      · rw [change]
        exact untouched_of_lt (fun r hr => Nat.lt_succ_of_le (hopen.repliesNumbered r hr))
          (fun w hw => Nat.lt_succ_of_le (hopen.writtenNumbered w hw))
  | refuses head dns before action after change =>
      have hopen := (h.dispatch (by rw [before]; rfl)).1
      refine .of_between (by rw [after]; rfl) ?_
      rw [change]
      exact ⟨hopen.ending, hopen.switched, hopen.outcome,
        @mem_numbered _ _ _ [Reply.badGatewayKeepAlive dns] hopen.repliesNumbered,
        hopen.writtenNumbered⟩
  | prepares before after same =>
      obtain ⟨hopen, huntouched⟩ := h.dispatch before
      exact .of_dispatch after (same ▸ hopen) (same ▸ huntouched)
  | starts head dns before after change =>
      obtain ⟨hopen, huntouched⟩ := h.dispatch (by rw [before]; rfl)
      refine .of_running (by rw [after]; rfl) ?_
      have hnone : t'.handled = [] := by
        rw [hhandled, handledAfter, before]
      rw [change, hnone]
      refine ⟨⟨rfl, rfl, hopen.outcome, hopen.repliesNumbered, hopen.writtenNumbered⟩, rfl,
        huntouched.replies, ?_, ?_⟩
      · exact (congrArg List.length huntouched.written).symm
      · intro _ head hmem
        cases hmem
  | loops before after quiet same =>
      have hloop := h.running before
      refine .of_running after ?_
      rw [same, hhandled]
      exact { hloop with stays := fun hk => (hloop.stays hk).loops before quiet }
  | relays carry e rest raw before events side notEnd after change =>
      have hloop := h.running (by rw [before]; rfl)
      refine .of_running (by rw [after]; rfl) ?_
      rw [change, hhandled, handledAfter_kept before events after]
      exact hloop.relay raw e
  | completes carry rest before events after change =>
      have hloop := h.running (by rw [before]; rfl)
      refine .of_teardown after (Or.inr ?_)
      rw [change, hhandled, handledAfter_events before events, if_neg (by simp [after])]
      refine ⟨hloop.outcome, hloop.repliesNumbered, hloop.writtenNumbered, ?_, ?_, ?_, ?_⟩
      · intro hbad
        exact absurd hloop.ending hbad
      · intro _
        exact List.mem_append_right _ (List.mem_singleton_self _)
      · intro hk
        exact (hloop.stays hk).append (by simp)
      · exact Or.inl hloop.replies
  | degrades ending answers before after bad silent change =>
      have hloop := h.running before
      refine .of_teardown after (Or.inr ?_)
      rw [change]
      exact hloop.degrade ending silent
  | switches before after change =>
      exact .of_splicing after (congrArg Control.switched change)
  | breaks before after change =>
      refine .of_closed after (Or.inr fun hcompleted => ?_)
      cases (congrArg Control.outcome change).symm.trans hcompleted
  | splices before after data change =>
      have hswitched := (congrArg Control.switched change).trans (h.splicing before)
      obtain hk | hp := after
      · exact .of_splicing hk hswitched
      · exact .of_teardown hp (Or.inl hswitched)
  | returns before back =>
      obtain ⟨after, change⟩ := back
      have hswitched : t'.conn.exchange.switched = t.conn.exchange.switched :=
        congrArg Control.switched change
      have hexited := h.teardown before
      obtain hp | ⟨hp, hplain, halive⟩ := after
      · refine .of_closed hp ?_
        cases hsw : t.conn.exchange.switched with
        | true => exact Or.inl (hswitched.trans hsw)
        | false =>
            right
            intro hcompleted
            exact (congrArg Control.ending change).trans (ending_of_completed hsw change hcompleted)
      · rw [hplain] at hexited
        refine .of_between (by rw [hp]; rfl) ?_
        rw [change]
        exact (hexited.resolve_left Bool.noConfusion).reopens hplain halive

theorem drained_start (P : HttpProxyParser Octet) : Drained (start P) :=
  ⟨fun _ he => absurd he List.not_mem_nil, fun _ he => absurd he List.not_mem_nil⟩

theorem Drained.step (h : Drained t) (hs : step cfg t a = some t') : Drained t' := by
  obtain ⟨hconn, hhandled⟩ := step_inv hs
  have hgrows := Multiroute.drained_grows hconn
  refine ⟨h.waiting.step hconn, ?_⟩
  intro e he
  rw [hhandled, handledAfter] at he
  split at he
  · cases he
  · rename_i carry front rest hphase hevents
    have hold : e ∈ t.handled → e ∈ t'.conn.log.drained := fun hmem =>
      hgrows.subset (h.handled e hmem)
    split at he
    · exact hold he
    · rcases List.mem_append.mp he with hmem | hnew
      · exact hold hmem
      · apply hgrows.subset
        apply h.waiting e
        rw [Multiroute.queue, hevents, List.mem_singleton.mp hnew]
        exact List.mem_append_right _ (List.mem_cons_self ..)
  · exact hgrows.subset (h.handled e he)

/-- Where the ends follow final heads, a handled end is that of a final response. -/
def EndsFinal (drained : List (HttpEvent Octet)) : Prop :=
  ∃ before after head, drained = before ++ .endMessage .responder :: after ∧
    (responseHeads before).getLast? = some head ∧ head.interim = false

theorem Drained.final (h : Drained t) (hend : .endMessage .responder ∈ t.handled)
    (hlaw : FinalEnds t.conn.log.drained) : EndsFinal t.conn.log.drained := by
  obtain ⟨before, after, hsplit⟩ := List.append_of_mem (h.handled _ hend)
  obtain ⟨head, hlast, hfinal⟩ := hlaw before after hsplit
  exact ⟨before, after, head, hsplit, hlast, hfinal⟩

/-- The bridge and the backends together have written at most one thing: a reply of the
bridge, which then stands alone. -/
def RepliesAlone (c : Control) : Prop :=
  c.repliesOf.length ≤ 1 ∧ (c.repliesOf ≠ [] → c.writtenOf = [])

/-- How an exchange without a protocol switch ends and what the connection makes of it. -/
structure EndsConsistently (cfg : MultirouteConfig) (t : Traced P) : Prop where
  /-- A recorded end other than `Ok` is returned with `keep_alive` false. -/
  degraded : t.conn.phase = .teardown → t.conn.exchange.switched = false →
    t.conn.exchange.ending ≠ .ok → t.conn.keepsAlive = false
  alive : t.conn.phase = .teardown → t.conn.exchange.switched = false →
    t.conn.keepsAlive = true →
      (.endMessage .responder ∈ t.handled ∧
        (FinalEnds t.conn.log.drained → EndsFinal t.conn.log.drained)) ∧
      StaysOpen t.handled ∧ t.conn.clientEof = false
  replies : t.conn.phase.kind = .running ∨ t.conn.phase = .teardown →
    t.conn.exchange.switched = false → RepliesAlone t.conn.control
  /-- After `keep_alive` false the connection closes and routes no further request. -/
  last : t.conn.phase = .teardown → t.conn.exchange.switched = false →
    t.conn.keepsAlive = false → ∀ a t', step cfg t a = some t' →
      t'.conn.phase = .closed ∧ t'.conn.log.routed = t.conn.log.routed ∧
        (t'.conn.outcome = .completed → t.conn.exchange.ending = .ok)
  closed : t.conn.phase = .closed → (∀ a, step cfg t a = none) ∧
    (t.conn.exchange.switched = false → t.conn.outcome = .completed → t.conn.exchange.ending = .ok)

theorem ExchangeInv.exited (h : ExchangeInv t) (hp : t.conn.phase = .teardown)
    (hplain : t.conn.exchange.switched = false) : Exited t.conn.control t.handled := by
  refine (h.teardown hp).resolve_left ?_
  rw [hplain]
  exact Bool.noConfusion

theorem ExchangeInv.consistent (h : ExchangeInv t) (hd : Drained t) : EndsConsistently cfg t where
  degraded := by
    intro hp hplain hbad
    have hkeep : t.conn.exchange.keepAlive = false := (h.exited hp hplain).degraded hbad
    simp only [Multiroute.keepsAlive, hkeep, Bool.false_and]
  alive := by
    intro hp hplain halive
    have hexited := h.exited hp hplain
    simp only [Multiroute.keepsAlive, Bool.and_eq_true, Bool.not_eq_true'] at halive
    have hend := hexited.responseDone halive.1.2
    exact ⟨⟨hend, hd.final hend⟩, hexited.stays halive.1.1, halive.2⟩
  replies := by
    rintro (hk | hp) hplain
    · have hnone := (h.running hk).replies
      rw [RepliesAlone, hnone]
      exact ⟨Nat.zero_le _, fun hne => absurd rfl hne⟩
    · obtain hnone | ⟨hone, hwritten⟩ := (h.exited hp hplain).answered
      · rw [RepliesAlone, hnone]
        exact ⟨Nat.zero_le _, fun hne => absurd rfl hne⟩
      · exact ⟨hone.le, fun _ => hwritten⟩
  last := by
    intro hp hplain halive a t' hs
    obtain ⟨after, change⟩ := Multiroute.step_returned hp (step_inv hs).1
    obtain hclosed | ⟨-, -, htrue⟩ := after
    · exact ⟨hclosed, congrArg Control.routed change, ending_of_completed hplain change⟩
    · cases htrue.symm.trans halive
  closed := by
    intro hp
    refine ⟨?_, ?_⟩
    · intro a
      simp only [Traced.step, Multiroute.step, hp, Option.map_none]
    · intro hplain
      refine (h.closed hp).resolve_left ?_
      rw [hplain]
      exact Bool.noConfusion

/-- In every run of a connection, over any interleaving of reads, samples, parser events,
timeouts, overflows and drains, every exchange ends consistently. -/
theorem exchanges_end_consistently (cfg : MultirouteConfig) (P : HttpProxyParser Octet)
    (schedule : List MultirouteAction) :
    Always (step cfg) (EndsConsistently cfg) (start P) schedule := by
  have hinv : Always (step cfg) ExchangeInv (start P) schedule :=
    always_of_step (fun _ _ _ h hs => h.step hs) (exchangeInv_start P) schedule
  have hdrained : Always (step cfg) Drained (start P) schedule :=
    always_of_step (fun _ _ _ h hs => h.step hs) (drained_start P) schedule
  exact hinv.mono₂ (fun _ h hd => h.consistent hd) hdrained

end Traced

end ZenohBridge
