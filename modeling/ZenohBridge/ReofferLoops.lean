import ZenohBridge.ExchangeStall

/-!
# The re-offer loops end

Between two exchanges the handler goes round in `next_request_head` or in
`consume_request_body`. Both drain the event queue, offer the refused tail again, and read from
the client only when nothing is left to do. An iteration that neither returns nor reads must
therefore come closer to one that does, or the task keeps its thread for itself.

The event queue shrinks while the parser rests. An offer refills the queue, but it takes a byte
off the tail, as long as the parser is drained and frames what it is given. A parser that was
not drained before the loop is drained by the first offer, and a poisoned or tunnelled one ends
the loop.
-/

namespace ZenohBridge

open Execution

namespace MultiroutePhase

/-- The loop of `consume_request_body` between two reads. -/
def consuming : MultiroutePhase → Prop
  | .consume | .consumeEvents => True
  | _ => False

/-- `next_request_head` has returned, or awaits a read. -/
def leftNextHead : MultiroutePhase → Prop
  | .routing _ | .closed | .nextHeadRead => True
  | _ => False

/-- `consume_request_body` has returned, or awaits a read. -/
def leftConsume : MultiroutePhase → Prop
  | .nextHead | .consumeRead => True
  | _ => False

end MultiroutePhase

namespace Multiroute

variable {P : HttpProxyParser Octet} {cfg : MultirouteConfig} {s s' : Multiroute P}
  {a : MultirouteAction}

/-- The parser has no event ready and frames what it is given. -/
def Ready (s : Multiroute P) : Prop := P.nextEvent s.parser = none ∧ s.Framing

instance : DecidablePred (Ready (P := P)) := fun _ => inferInstanceAs (Decidable (_ ∧ _))

/-- A bound on the offers that leave the parser framing: each takes a byte of the tail, but for
one that finds the parser undrained. -/
def offersLeft (s : Multiroute P) : Nat := s.clientPending.length + if s.Ready then 0 else 1

theorem offersLeft_of_ready (h : s.Ready) : s.offersLeft = s.clientPending.length := by
  rw [offersLeft, if_pos h, Nat.add_zero]

theorem offersLeft_of_not_ready (h : ¬s.Ready) : s.offersLeft = s.clientPending.length + 1 := by
  rw [offersLeft, if_neg h]

theorem drained_feedClient (bytes : Octets) (s : Multiroute P) :
    P.nextEvent (s.feedClient bytes).parser = none :=
  HttpProxyParser.nextEvent_drainEvents _

/-- An offer that leaves the parser framing is one less. -/
theorem offersLeft_feedClient_lt (progress : P.Progresses) (hne : s.clientPending ≠ [])
    (hframing : (s.feedClient s.clientPending).Framing) :
    (s.feedClient s.clientPending).offersLeft < s.offersLeft := by
  have hready : (s.feedClient s.clientPending).Ready := ⟨drained_feedClient _ s, hframing⟩
  rw [offersLeft_of_ready hready]
  by_cases hbefore : s.Ready
  · obtain ⟨hdrained, hpoison, htunnel⟩ := hbefore
    rw [offersLeft_of_ready ⟨hdrained, hpoison, htunnel⟩]
    apply HttpProxyParser.pushBytes_tail_lt hne
    exact progress .initiator s.clientPending s.parser hne hdrained hpoison htunnel
  · rw [offersLeft_of_not_ready hbefore]
    exact Nat.lt_succ_of_le (HttpProxyParser.pushLoop_tail_le _ _ _ _)

section NextHead

/-- The variant of `next_request_head`. A tunnelled parser is offered nothing more. -/
def headVariant (s : Multiroute P) : Nat × Nat :=
  (if P.isTunnelled s.parser then 0 else s.offersLeft + 1, s.events.length)

theorem tick_of_nextHead (phase : s.phase = .nextHead) (hs : s.step cfg a = some s') :
    a = .tick := by
  rw [Multiroute.step, phase] at hs
  cases a with
  | tick => rfl
  | _ => contradiction

/-- An event in the queue is the next head, or it is discarded. -/
theorem nextHead_event (cfg : MultirouteConfig) {e : HttpEvent Octet}
    {rest : List (HttpEvent Octet)} (phase : s.phase = .nextHead) (events : s.events = e :: rest) :
    ∃ s', s.step cfg .tick = some s' ∧
      (s'.phase.leftNextHead ∨ s' = { s with events := rest }) := by
  simp only [Multiroute.step, phase, stepNextHead, events]
  cases e with
  | requestHead head => exact ⟨_, rfl, .inl trivial⟩
  | _ => exact ⟨_, rfl, .inr rfl⟩

theorem closed_malformed (clientFault : Bool) (reason : String) (s : Multiroute P) :
    (s.malformed clientFault reason).phase = .closed := by
  rw [malformed]
  split <;> rfl

/-- Without an event the loop returns, reads, or offers the tail to a parser that is not
tunnelled. -/
theorem nextHead_offer (cfg : MultirouteConfig) (phase : s.phase = .nextHead)
    (events : s.events = []) :
    ∃ s', s.step cfg .tick = some s' ∧ (s'.phase.leftNextHead ∨
      s.clientPending ≠ [] ∧ P.isTunnelled s.parser = false ∧
        P.poison (s.feedClient s.clientPending).parser = none ∧
        s' = (s.feedClient s.clientPending).goto .nextHead) := by
  simp only [Multiroute.step, phase, stepNextHead, events]
  split
  · exact ⟨_, rfl, .inl trivial⟩
  · split
    · refine ⟨_, rfl, .inl ?_⟩
      rw [closed_malformed]
      trivial
    · rename_i hopen
      split
      · rename_i hne
        refine ⟨_, rfl, ?_⟩
        rw [refusePoison]
        split
        · left
          rw [closed_malformed]
          trivial
        · rename_i hpoison
          exact .inr ⟨hne, Bool.eq_false_iff.mpr hopen, hpoison, rfl⟩
      · exact ⟨_, rfl, .inl trivial⟩

/-- An offer in `next_request_head` makes the variant smaller: the parser is tunnelled after it
or is offered less. -/
theorem headVariant_offer (progress : P.Progresses) (hne : s.clientPending ≠ [])
    (hopen : P.isTunnelled s.parser = false)
    (hpoison : P.poison (s.feedClient s.clientPending).parser = none) :
    ((s.feedClient s.clientPending).goto .nextHead).headVariant.1 < s.headVariant.1 := by
  have hvariant : s.headVariant.1 = s.offersLeft + 1 := if_neg (Bool.eq_false_iff.mp hopen)
  rw [hvariant]
  cases htunnel : P.isTunnelled (s.feedClient s.clientPending).parser with
  | true =>
      have hzero : ((s.feedClient s.clientPending).goto .nextHead).headVariant.1 = 0 :=
        if_pos htunnel
      rw [hzero]
      exact Nat.succ_pos _
  | false =>
      have hless := offersLeft_feedClient_lt progress hne ⟨hpoison, htunnel⟩
      have hoffers : ((s.feedClient s.clientPending).goto .nextHead).headVariant.1 =
          (s.feedClient s.clientPending).offersLeft + 1 :=
        if_neg (Bool.eq_false_iff.mp htunnel)
      rw [hoffers]
      exact Nat.succ_lt_succ hless

/-- An iteration of `next_request_head` returns, reads, or comes closer to one that does. -/
theorem nextHead_advances (cfg : MultirouteConfig) (progress : P.Progresses)
    (phase : s.phase = .nextHead) :
    ∃ s', s.step cfg .tick = some s' ∧ (s'.phase.leftNextHead ∨
      s'.phase = .nextHead ∧ Prod.Lex (· < ·) (· < ·) s'.headVariant s.headVariant) := by
  cases events : s.events with
  | cons e rest =>
      obtain ⟨s', hs, hleft | rfl⟩ := nextHead_event cfg phase events
      · exact ⟨s', hs, .inl hleft⟩
      · refine ⟨_, hs, .inr ⟨phase, Prod.lex_def.mpr (.inr ⟨rfl, ?_⟩)⟩⟩
        change rest.length < s.events.length
        rw [events]
        exact Nat.lt_succ_self _
  | nil =>
      obtain ⟨s', hs, hleft | ⟨hne, hopen, hpoison, rfl⟩⟩ := nextHead_offer cfg phase events
      · exact ⟨s', hs, .inl hleft⟩
      · exact ⟨_, hs, .inr ⟨rfl, Prod.lex_def.mpr
          (.inl (headVariant_offer progress hne hopen hpoison))⟩⟩

end NextHead

section Consume

/-- The variant of `consume_request_body`. While a tail is pending, every event loop is followed
by an offer; without one it is entered once. -/
def consumeVariant (s : Multiroute P) : Nat × Nat :=
  let entry := if s.phase = .consume then 1 else 0
  (if s.clientPending = [] then 0 else 2 * s.offersLeft + (1 - entry), s.events.length + entry)

theorem consumeVariant_consume (phase : s.phase = .consume) :
    s.consumeVariant =
      (if s.clientPending = [] then 0 else 2 * s.offersLeft, s.events.length + 1) := by
  simp only [consumeVariant, if_pos phase, Nat.sub_self, Nat.add_zero]

theorem consumeVariant_events (phase : s.phase = .consumeEvents) :
    s.consumeVariant =
      (if s.clientPending = [] then 0 else 2 * s.offersLeft + 1, s.events.length) := by
  have hne : ¬s.phase = .consume := by
    rw [phase]
    exact nofun
  simp only [consumeVariant, if_neg hne, Nat.sub_zero, Nat.add_zero]

theorem tick_of_consuming (phase : s.phase.consuming) (hs : s.step cfg a = some s') :
    a = .tick := by
  cases hphase : s.phase with
  | consume | consumeEvents =>
      rw [Multiroute.step, hphase] at hs
      cases a with
      | tick => rfl
      | _ => contradiction
  | _ =>
      rw [hphase] at phase
      exact phase.elim

/-- The offer returns or leaves the parser framing. -/
theorem consume_offer (cfg : MultirouteConfig) (phase : s.phase = .consume)
    (hne : s.clientPending ≠ []) :
    ∃ s', s.step cfg .tick = some s' ∧ (s'.phase.leftConsume ∨
      (s.feedClient s.clientPending).Framing ∧
        s' = (s.feedClient s.clientPending).goto .consumeEvents) := by
  simp only [Multiroute.step, phase, stepConsume]
  rw [if_pos hne]
  refine ⟨_, rfl, ?_⟩
  rw [consumeOn]
  split
  · exact .inl trivial
  · rename_i hframing
    obtain ⟨hpoison, hopen⟩ := not_or.mp hframing
    exact .inr ⟨⟨Option.not_isSome_iff_eq_none.mp hpoison, Bool.eq_false_iff.mpr hopen⟩, rfl⟩

/-- Without a tail the event loop is entered as it is. -/
theorem consume_enter (cfg : MultirouteConfig) (phase : s.phase = .consume)
    (hnil : s.clientPending = []) : s.step cfg .tick = some (s.goto .consumeEvents) := by
  simp only [Multiroute.step, phase, stepConsume]
  exact if_neg (not_not.mpr hnil)

/-- An event in the queue ends the request or is discarded. -/
theorem consumeEvents_event (cfg : MultirouteConfig) {e : HttpEvent Octet}
    {rest : List (HttpEvent Octet)} (phase : s.phase = .consumeEvents)
    (events : s.events = e :: rest) :
    ∃ s', s.step cfg .tick = some s' ∧
      (s'.phase.leftConsume ∨ s' = { s with events := rest }) := by
  simp only [Multiroute.step, phase, stepConsumeEvents, events]
  cases e with
  | requestHead head => exact ⟨_, rfl, .inl trivial⟩
  | endMessage side =>
      cases side with
      | initiator => exact ⟨_, rfl, .inl trivial⟩
      | responder => exact ⟨_, rfl, .inr rfl⟩
  | _ => exact ⟨_, rfl, .inr rfl⟩

/-- Without an event the loop returns, reads, or goes back to offer its tail. -/
theorem consumeEvents_empty (cfg : MultirouteConfig) (phase : s.phase = .consumeEvents)
    (events : s.events = []) :
    ∃ s', s.step cfg .tick = some s' ∧
      (s'.phase.leftConsume ∨ s.clientPending ≠ [] ∧ s' = s.goto .consume) := by
  simp only [Multiroute.step, phase, stepConsumeEvents, events]
  split
  · exact ⟨_, rfl, .inl trivial⟩
  · split
    · rename_i hne
      exact ⟨_, rfl, .inr ⟨hne, rfl⟩⟩
    · exact ⟨_, rfl, .inl trivial⟩

/-- The offer makes the variant smaller. -/
theorem consumeVariant_offer (progress : P.Progresses) (phase : s.phase = .consume)
    (hne : s.clientPending ≠ []) (hframing : (s.feedClient s.clientPending).Framing) :
    ((s.feedClient s.clientPending).goto .consumeEvents).consumeVariant.1 <
      s.consumeVariant.1 := by
  have hless : ((s.feedClient s.clientPending).goto .consumeEvents).offersLeft < s.offersLeft :=
    offersLeft_feedClient_lt progress hne hframing
  rw [consumeVariant_events rfl, consumeVariant_consume phase, if_neg hne]
  split
  · change 0 < 2 * s.offersLeft
    omega
  · change 2 * ((s.feedClient s.clientPending).goto .consumeEvents).offersLeft + 1 <
      2 * s.offersLeft
    omega

/-- The top of the loop offers the tail, or enters the event loop without one. -/
theorem consume_advances (cfg : MultirouteConfig) (progress : P.Progresses)
    (phase : s.phase = .consume) :
    ∃ s', s.step cfg .tick = some s' ∧ (s'.phase.leftConsume ∨
      s'.phase.consuming ∧ Prod.Lex (· < ·) (· < ·) s'.consumeVariant s.consumeVariant) := by
  by_cases hnil : s.clientPending = []
  · refine ⟨_, consume_enter cfg phase hnil, .inr ⟨trivial, Prod.lex_def.mpr (.inr ?_)⟩⟩
    rw [consumeVariant_events rfl, consumeVariant_consume phase, if_pos hnil]
    exact ⟨if_pos hnil, Nat.lt_succ_self _⟩
  · obtain ⟨s', hs, hleft | ⟨hframing, rfl⟩⟩ := consume_offer cfg phase hnil
    · exact ⟨s', hs, .inl hleft⟩
    · exact ⟨_, hs, .inr ⟨trivial, Prod.lex_def.mpr
        (.inl (consumeVariant_offer progress phase hnil hframing))⟩⟩

/-- The event loop discards an event, or goes back for an offer. -/
theorem consumeEvents_advances (cfg : MultirouteConfig) (phase : s.phase = .consumeEvents) :
    ∃ s', s.step cfg .tick = some s' ∧ (s'.phase.leftConsume ∨
      s'.phase.consuming ∧ Prod.Lex (· < ·) (· < ·) s'.consumeVariant s.consumeVariant) := by
  cases events : s.events with
  | cons e rest =>
      obtain ⟨s', hs, hleft | rfl⟩ := consumeEvents_event cfg phase events
      · exact ⟨s', hs, .inl hleft⟩
      · have hconsuming : s.phase.consuming := by
          rw [phase]
          trivial
        refine ⟨_, hs, .inr ⟨hconsuming, Prod.lex_def.mpr (.inr ⟨rfl, ?_⟩)⟩⟩
        change rest.length + (if s.phase = .consume then 1 else 0) <
          s.events.length + (if s.phase = .consume then 1 else 0)
        rw [events]
        exact Nat.add_lt_add_right (Nat.lt_succ_self _) _
  | nil =>
      obtain ⟨s', hs, hleft | ⟨hne, rfl⟩⟩ := consumeEvents_empty cfg phase events
      · exact ⟨s', hs, .inl hleft⟩
      · refine ⟨_, hs, .inr ⟨trivial, Prod.lex_def.mpr (.inl ?_)⟩⟩
        rw [consumeVariant_consume rfl, consumeVariant_events phase, if_neg hne]
        change (if s.clientPending = [] then 0 else 2 * s.offersLeft) < 2 * s.offersLeft + 1
        rw [if_neg hne]
        exact Nat.lt_succ_self _

end Consume

/-- From every state of their loops, with any tail, any queue and any parser that takes at least
one byte when it is drained and frames, `next_request_head` and `consume_request_body` return or
await a read after finitely many iterations. The two loops inside an iteration end by
themselves: their fuel never cuts them short. -/
theorem reoffer_loops_end (cfg : MultirouteConfig) (P : HttpProxyParser Octet)
    (progress : P.Progresses) :
    (∀ s : Multiroute P, s.phase = .nextHead →
      ∃ n, Within (step cfg) (fun t => t.phase.leftNextHead) n s) ∧
    (∀ s : Multiroute P, s.phase.consuming →
      ∃ n, Within (step cfg) (fun t => t.phase.leftConsume) n s) ∧
    (∀ side p bytes fuel, bytes.length ≤ fuel →
      P.pushLoop side fuel p [] bytes = P.pushBytes side p bytes) ∧
    ∀ p fuel, P.backlog p ≤ fuel → P.drain fuel p = P.drainEvents p := by
  have wf : WellFounded (Prod.Lex (fun m n : Nat => m < n) fun m n : Nat => m < n) :=
    wellFounded_lt.prod_lex wellFounded_lt
  refine ⟨fun s phase => ?_, fun s phase => ?_, fun side p bytes fuel h => ?_,
    fun p fuel h => ?_⟩
  · exact within_of_variant wf headVariant (fun _ h _ _ => tick_of_nextHead h)
      (fun _ h => nextHead_advances cfg progress h) phase
  · refine within_of_variant wf consumeVariant
      (fun _ h _ _ => tick_of_consuming h) (fun t h => ?_) phase
    cases hphase : t.phase with
    | consume => exact consume_advances cfg progress hphase
    | consumeEvents => exact consumeEvents_advances cfg hphase
    | _ =>
        rw [hphase] at h
        exact h.elim
  · exact HttpProxyParser.pushLoop_eq_pushBytes h
  · exact HttpProxyParser.drain_eq_drainEvents h

/-- A refused tail of 100 bytes after a request that no backend serves. -/
def refusedTail : Multiroute (refusingParser 32) :=
  { init (refusingParser 32) with
    phase := .consume
    clientPending := octets .client (List.replicate 100 120) }

/-- More than three of the parser's windows are given up after finitely many iterations. -/
theorem reoffer_loops_end_refusedTail :
    ∃ n, Within (step ⟨64, 256⟩) (fun t => t.phase.leftConsume) n refusedTail :=
  (reoffer_loops_end ⟨64, 256⟩ (refusingParser 32) (refusingParser_progresses 32)).2.1 refusedTail
    trivial

end Multiroute

end ZenohBridge
