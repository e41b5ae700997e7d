import ZenohBridge.MultirouteStreams
import ZenohBridge.ResponseCap

/-!
# Waiting on refused bytes

`run_exchange` offers a refused tail again at the top of its loop, once, and then waits in its
`select!` with the client's arm shut while a tail of the client is pending. The loops between
two exchanges offer a tail until nothing is left before they read.

A parser takes at least one byte whenever it is drained and neither refuses the connection nor
is tunnelled. That is enough for a loop that offers again and again, and not for one that offers
once. What a drained parser takes at least is its window; a push and one re-offer are two of
them. So the exchange waits with nothing refused exactly when neither a read nor a sample is
larger than two windows.
-/

namespace ZenohBridge

open Execution

/-- A drained parser takes at least one byte, unless it is poisoned or tunnelled. -/
def HttpProxyParser.Progresses {β : Type} (P : HttpProxyParser β) : Prop :=
  ∀ side bytes p, bytes ≠ [] → P.nextEvent p = none → P.poison p = none →
    P.isTunnelled p = false → 0 < (P.push side bytes p).1

/-- A drained parser that frames takes a window of what it is offered, or all of it. -/
def HttpProxyParser.Window {β : Type} (P : HttpProxyParser β) (w : Nat) : Prop :=
  ∀ side bytes p, P.nextEvent p = none → P.poison p = none → P.isTunnelled p = false →
    min w bytes.length ≤ (P.push side bytes p).1

/-- The least window is a byte. -/
theorem progresses_iff_window_one {β : Type} {P : HttpProxyParser β} :
    P.Progresses ↔ P.Window 1 := by
  constructor
  · intro h side bytes p hdrained hpoison htunnel
    by_cases hne : bytes = []
    · rw [hne, List.length_nil, Nat.min_zero]
      exact Nat.zero_le _
    · exact Nat.le_trans (Nat.min_le_left _ _) (h side bytes p hne hdrained hpoison htunnel)
  · intro h side bytes p hne hdrained hpoison htunnel
    have hpos : 0 < bytes.length := List.length_pos_iff.mpr hne
    have hleast := h side bytes p hdrained hpoison htunnel
    omega

namespace HttpProxyParser

variable {β : Type} {P : HttpProxyParser β}

/-- A push of a drained parser that frames on leaves a window less. -/
theorem Window.tail_le {w : Nat} (h : P.Window w) (L : P.Latches) {side : FlowSide} {p : P.State}
    (bytes : List β) (drained : P.nextEvent p = none)
    (framing : P.Framing (P.drainEvents (P.pushBytes side p bytes).parser).2) :
    (P.pushBytes side p bytes).tail.length ≤ bytes.length - w := by
  obtain ⟨hpoison, htunnel⟩ := L.pushBytes bytes (L.drainEvents framing)
  have htaken := h side bytes p drained hpoison htunnel
  have htail := P.pushBytes_tail_le side p bytes
  omega

/-- A first push after which the parser is full is the only one that takes something. -/
theorem pushBytes_of_full {side : FlowSide} {p q : P.State} {bytes : List β} {n : Nat}
    (hne : bytes ≠ []) (hpush : P.push side bytes p = (n, q))
    (hfull : ∀ rest, P.push side rest q = (0, q)) :
    P.pushBytes side p bytes = ⟨bytes.take n, bytes.drop n, q⟩ := by
  have hstop : ∀ fuel accepted pending,
      P.pushLoop side fuel q accepted pending = ⟨accepted, pending, q⟩ := by
    intro fuel accepted pending
    cases fuel with
    | zero => rfl
    | succ fuel =>
        rw [pushLoop, hfull]
        split <;> rfl
  obtain ⟨fuel, hfuel⟩ := Nat.exists_eq_succ_of_ne_zero (mt List.length_eq_zero_iff.mp hne)
  have hempty : ¬bytes.isEmpty = true := mt List.isEmpty_iff.mp hne
  rw [pushBytes, hfuel, pushLoop, if_neg hempty, hpush]
  simp only [hstop]
  split
  · rename_i hzero
    rw [hzero]
    rfl
  · rfl

/-- The drain of a parser with one event. -/
theorem drainEvents_of_single {p q : P.State} {e : HttpEvent β}
    (hnext : P.nextEvent p = some (e, q)) (hnone : P.nextEvent q = none) :
    P.drainEvents p = ([e], q) := by
  have hlt := P.nextEvent_lt p e q hnext
  obtain ⟨fuel, hfuel⟩ := Nat.exists_eq_succ_of_ne_zero (Nat.ne_of_gt (Nat.zero_lt_of_lt hlt))
  have hrest : P.drain fuel q = ([], q) := by
    cases fuel with
    | zero => rfl
    | succ fuel => simp only [drain, hnone]
  simp only [drainEvents, hfuel, drain, hnext, hrest]

end HttpProxyParser

/-- A piece that is framed as a head of its own. -/
def pieceHead (side : FlowSide) (raw : Octets) : HttpEvent Octet :=
  match side with
  | .initiator => .requestHead ⟨raw⟩
  | .responder => .responseHead ⟨raw, true, false, false, []⟩

/-- The parser that frames each piece it takes as a head. Between two drains it takes one window
of a side. -/
def pieceParser (window : Nat) : HttpProxyParser Octet where
  State := FlowSide → Option Octets
  start _ := none
  push side bytes p :=
    if (p side).isSome then (0, p)
    else (min window bytes.length, Function.update p side (some (bytes.take window)))
  nextEvent p :=
    match p .initiator, p .responder with
    | some raw, _ => some (pieceHead .initiator raw, Function.update p .initiator none)
    | none, some raw => some (pieceHead .responder raw, Function.update p .responder none)
    | none, none => none
  fin _ p := p
  poison _ := none
  isTunnelled _ := false
  isDone _ := false
  takeTunnelResidue _ p := ([], p)
  backlog p := (p .initiator).isSome.toNat + (p .responder).isSome.toNat
  push_le side bytes p := by
    split
    · exact Nat.zero_le _
    · exact Nat.min_le_right _ _
  nextEvent_lt p e p' h := by
    split at h
    · rename_i hup
      cases h
      simp [hup]
    · rename_i hup hdown
      cases h
      simp [hup, hdown]
    · contradiction

section Pieces

variable {window : Nat}

theorem pieceParser_latches (window : Nat) : (pieceParser window).Latches where
  start := rfl
  push := fun _ _ _ _ => ⟨rfl, rfl⟩
  nextEvent := fun _ _ _ _ _ => ⟨rfl, rfl⟩
  fin := fun _ _ _ => ⟨rfl, rfl⟩

/-- Drained, it has no piece of either side. -/
theorem pieces_of_drained {p : FlowSide → Option Octets}
    (h : (pieceParser window).nextEvent p = none) (side : FlowSide) : p side = none := by
  simp only [pieceParser] at h
  split at h
  · contradiction
  · contradiction
  · cases side <;> assumption

theorem pieceParser_window (window : Nat) : (pieceParser window).Window window := by
  intro side bytes p hdrained _ _
  have hopen : ¬(p side).isSome = true := by
    rw [pieces_of_drained hdrained side]
    exact Bool.false_ne_true
  simp only [pieceParser, if_neg hopen]
  exact Nat.le_refl _

/-- A fresh parser takes one window and refuses the rest. -/
theorem pieceParser_pushBytes (window : Nat) (side : FlowSide) {bytes : Octets}
    (hne : bytes ≠ []) : (pieceParser window).pushBytes side (fun _ => none) bytes =
      ⟨bytes.take window, bytes.drop window,
        Function.update (fun _ => none) side (some (bytes.take window))⟩ := by
  have hpush : (pieceParser window).push side bytes (fun _ => none) = (min window bytes.length,
      Function.update (fun _ => none) side (some (bytes.take window))) := rfl
  have hfull : ∀ rest, (pieceParser window).push side rest
      (Function.update (fun _ => none) side (some (bytes.take window))) =
        (0, Function.update (fun _ => none) side (some (bytes.take window))) := by
    intro rest
    simp only [pieceParser, Function.update_self, Option.isSome_some, if_true]
  have hdrop : bytes.drop (min window bytes.length) = bytes.drop window := by
    rcases Nat.le_total window bytes.length with hle | hle
    · rw [Nat.min_eq_left hle]
    · rw [Nat.min_eq_right hle, List.drop_length, List.drop_of_length_le hle]
  rw [HttpProxyParser.pushBytes_of_full hne hpush hfull, ← List.take_eq_take_min, hdrop]

/-- The drain frames that window. -/
theorem pieceParser_drainEvents (window : Nat) (side : FlowSide) (raw : Octets) :
    (pieceParser window).drainEvents (Function.update (fun _ => none) side (some raw)) =
      ([pieceHead side raw], fun _ => none) := by
  refine HttpProxyParser.drainEvents_of_single ?_ rfl
  cases side <;> simp [pieceParser]

end Pieces

/-- The phases of the exchange loop after its re-offer. -/
def MultiroutePhase.offered : MultiroutePhase → Prop
  | .events _ | .select => True
  | _ => False

theorem running_of_offered {p : MultiroutePhase} (h : p.offered) : p.kind = .running := by
  cases p with
  | events carry | select => rfl
  | _ => exact h.elim

/-- The parser of bodiless messages that refuses a connection whose head does not fit its
window. -/
def refusingParser (window : Nat) : HttpProxyParser Octet :=
  { headParser window with
    poison := fun p =>
      if HeadParser.nextEvent p = none ∧ (window ≤ p.up.length ∨ window ≤ p.down.length) then
        some ⟨"head too large", some true⟩
      else none }

/-- Drained and not refusing, it has room on both sides. -/
theorem refusingParser_progresses (window : Nat) : (refusingParser window).Progresses := by
  intro side bytes p hne hdrained hpoison htunnel
  have hroom : ¬(window ≤ p.up.length ∨ window ≤ p.down.length) := by
    intro hfull
    have hsome : (refusingParser window).poison p = some ⟨"head too large", some true⟩ :=
      if_pos ⟨hdrained, hfull⟩
    rw [hsome] at hpoison
    contradiction
  have hlength : (p.buffered side).length < window := by
    cases side <;> simp only [HeadParser.State.buffered] <;> omega
  have hpos : 0 < bytes.length := List.length_pos_iff.mpr hne
  have htaken : ((refusingParser window).push side bytes p).1 =
      min bytes.length (window - (p.buffered side).length) := by
    have hopen : ¬p.tunnelled = true := Bool.eq_false_iff.mp htunnel
    exact if_neg hopen
  omega

namespace Multiroute

variable {P : HttpProxyParser Octet} {cfg : MultirouteConfig} {s s' : Multiroute P}
  {a : MultirouteAction}

/-- The parser still frames what it is given. -/
def Framing (s : Multiroute P) : Prop := P.poison s.parser = none ∧ P.isTunnelled s.parser = false

instance : DecidablePred (Framing (P := P)) := fun _ => inferInstanceAs (Decidable (_ ∧ _))

/-- Neither side has a refused tail. -/
def HoldsNothing (s : Multiroute P) : Prop := s.clientPending = [] ∧ s.exchange.respPending = []

instance : DecidablePred (HoldsNothing (P := P)) := fun _ => inferInstanceAs (Decidable (_ ∧ _))

/-- The exchange does not wait on bytes it holds already. -/
def WaitsEmpty (s : Multiroute P) : Prop := s.phase = .select → s.Framing → s.HoldsNothing

instance : DecidablePred (WaitsEmpty (P := P)) := fun _ => inferInstanceAs (Decidable (_ → _ → _))

/-- The invariant of the loop: after its re-offer a parser that frames has left nothing. -/
def Offered (s : Multiroute P) : Prop := s.phase.offered → s.Framing → s.HoldsNothing

theorem offered_init (P : HttpProxyParser Octet) : Offered (init P) := False.elim

/-- A step that ends outside of the part after the re-offer. -/
theorem Offered.outside (h : s'.phase.kind ≠ .running) : Offered s' :=
  fun hoffered => absurd (running_of_offered hoffered) h

/-- A step that leaves the parser and the tails alone. -/
theorem Offered.keep (h : Offered s) (hphase : s.phase.offered) (hparser : s'.parser = s.parser)
    (hclient : s'.clientPending = s.clientPending)
    (hresponse : s'.exchange.respPending = s.exchange.respPending) : Offered s' := by
  intro _ hframing
  rw [Framing, hparser] at hframing
  rw [HoldsNothing, hclient, hresponse]
  exact h hphase hframing

theorem Settles.clientPending (h : Settles s s') : s'.clientPending = s.clientPending := by
  obtain ⟨p, o, k, e, r, rfl⟩ := h
  rfl

theorem offered_of_events {carry : List (HttpEvent Octet)} (phase : s.phase = .events carry) :
    s.phase.offered := by
  rw [phase]
  trivial

/-- No sample is larger than the limit. -/
def SampleWithin (limit : Nat) (a : MultirouteAction) : Prop :=
  ∀ payload, a = .sample payload → payload.length ≤ limit

/-- Before a switch the parser is drained, and one that frames has refused no more than a window
of either side. -/
structure WithinWindow (w : Nat) (s : Multiroute P) : Prop where
  drained : s.exchange.switched = false → P.nextEvent s.parser = none
  client : s.exchange.switched = false → s.Framing → s.clientPending.length ≤ w
  response : s.exchange.switched = false → s.Framing → s.exchange.respPending.length ≤ w

section Window

variable {w limit : Nat}

theorem withinWindow_init (L : P.Latches) (w : Nat) : WithinWindow w (init P) where
  drained := fun _ => L.start
  client := fun _ _ => Nat.zero_le w
  response := fun _ _ => Nat.zero_le w

/-- A step that leaves the parser, the tails and the switch alone. -/
theorem WithinWindow.keep (h : WithinWindow w s) (hparser : s'.parser = s.parser)
    (hclient : s'.clientPending = s.clientPending)
    (hresponse : s'.exchange.respPending = s.exchange.respPending)
    (hswitched : s'.exchange.switched = s.exchange.switched) : WithinWindow w s' where
  drained := by
    rw [hswitched, hparser]
    exact h.drained
  client := by
    rw [hswitched, hclient, Framing, hparser]
    exact h.client
  response := by
    rw [hswitched, hresponse, Framing, hparser]
    exact h.response

theorem WithinWindow.settles (h : WithinWindow w s) (hs : Settles s s') : WithinWindow w s' :=
  have hsettled := hs.settled
  h.keep hsettled.parser hs.clientPending hsettled.respPending hsettled.switched

/-- Nothing is asked of a switched connection. -/
theorem WithinWindow.of_switched (h : s.exchange.switched = true) : WithinWindow w s where
  drained := fun hplain => absurd (h.symm.trans hplain) (by decide)
  client := fun hplain => absurd (h.symm.trans hplain) (by decide)
  response := fun hplain => absurd (h.symm.trans hplain) (by decide)

/-- Of client bytes that fill no more than two windows, the push leaves one. -/
theorem WithinWindow.feedClient (h : WithinWindow w s) (L : P.Latches) (W : P.Window w)
    {bytes : Octets}
    (hfits : s.exchange.switched = false → s.Framing → bytes.length ≤ 2 * w) :
    WithinWindow w (s.feedClient bytes) where
  drained := fun _ => P.nextEvent_drainEvents _
  client := fun hplain hframing => by
    have htail := W.tail_le L bytes (h.drained hplain) hframing
    have hbytes := hfits hplain (L.pushBytes bytes (L.drainEvents hframing))
    change (P.pushBytes .initiator s.parser bytes).tail.length ≤ w
    omega
  response := fun hplain hframing => h.response hplain (L.pushBytes bytes (L.drainEvents hframing))

theorem WithinWindow.feedResponse (h : WithinWindow w s) (L : P.Latches) (W : P.Window w)
    {bytes : Octets}
    (hfits : s.exchange.switched = false → s.Framing → bytes.length ≤ 2 * w) :
    WithinWindow w (s.feedResponse bytes) where
  drained := fun _ => P.nextEvent_drainEvents _
  client := fun hplain hframing => h.client hplain (L.pushBytes bytes (L.drainEvents hframing))
  response := fun hplain hframing => by
    have htail := W.tail_le L bytes (h.drained hplain) hframing
    have hbytes := hfits hplain (L.pushBytes bytes (L.drainEvents hframing))
    change (P.pushBytes .responder s.parser bytes).tail.length ≤ w
    omega

theorem WithinWindow.finClient (h : WithinWindow w s) (L : P.Latches) :
    WithinWindow w s.finClient where
  drained := fun _ => P.nextEvent_drainEvents _
  client := fun hplain hframing => h.client hplain (L.fin _ _ (L.drainEvents hframing))
  response := fun hplain hframing => h.response hplain (L.fin _ _ (L.drainEvents hframing))

theorem WithinWindow.finResponse (h : WithinWindow w s) (L : P.Latches) :
    WithinWindow w s.finResponse where
  drained := fun _ => P.nextEvent_drainEvents _
  client := fun hplain hframing => h.client hplain (L.fin _ _ (L.drainEvents hframing))
  response := fun hplain hframing => h.response hplain (L.fin _ _ (L.drainEvents hframing))

/-- The offer of a tail that is at most a window. -/
theorem WithinWindow.reofferClient (h : WithinWindow w s) (L : P.Latches) (W : P.Window w) :
    WithinWindow w s.reofferClient := by
  unfold Multiroute.reofferClient
  split
  · refine h.feedClient L W fun hplain hframing => ?_
    have htail := h.client hplain hframing
    omega
  · exact h

theorem WithinWindow.reofferResponse (h : WithinWindow w s) (L : P.Latches) (W : P.Window w) :
    WithinWindow w s.reofferResponse := by
  unfold Multiroute.reofferResponse
  split
  · refine h.feedResponse L W fun hplain hframing => ?_
    have htail := h.response hplain hframing
    omega
  · exact h

/-- With reads and samples of no more than two windows, a push leaves at most one. -/
theorem WithinWindow.step (h : WithinWindow w s) (L : P.Latches) (W : P.Window w)
    (client : ClientInv s) (hread : cfg.bufferSize ≤ 2 * w) (hlimit : limit ≤ 2 * w)
    (sample : SampleWithin limit a) (hs : s.step cfg a = some s') : WithinWindow w s' := by
  cases step_inv hs with
  | moved settles moves empty queue inside heads => exact h.settles settles
  | fedClient kind settles target =>
      refine (h.feedClient L W fun hplain hframing => ?_).settles settles
      have htail := h.client hplain hframing
      omega
  | readClient data kind pending settles target fits =>
      have htaken : WithinWindow w (s.takeClient (octets .client data)) := h.keep rfl rfl rfl rfl
      refine (htaken.feedClient L W fun _ _ => ?_).settles settles
      rw [octets, List.length_map]
      omega
  | eofClient p kind pending target eq =>
      subst eq
      exact (h.finClient L).settles (settles_goto p _)
  | started head dns phase action eq =>
      subst eq
      have hplain := client.unswitched (by rw [phase]; trivial)
      exact ⟨fun _ => h.drained hplain, fun _ => h.client hplain, fun _ _ => Nat.zero_le w⟩
  | reoffered phase eq =>
      subst eq
      exact ((h.reofferClient L W).reofferResponse L W).settles (settles_goto _ _)
  | restored carry phase events settles target
  | stopped carry e rest phase events side done settles target =>
      have hsettled := settles.settled
      exact h.keep hsettled.parser settles.clientPending hsettled.respPending hsettled.switched
  | relayed carry e rest raw phase events relay eq =>
      subst eq
      obtain ⟨hswitched, hpending⟩ := noteClose_switched s.exchange e
      exact h.keep rfl rfl hpending.1 hswitched
  | switched carry rest phase events eq =>
      subst eq
      exact .of_switched rfl
  | received payload phase action nonempty eq =>
      subst eq
      have htaken : WithinWindow w (s.takeResponse (octets (.backend s.requestNum) payload)) :=
        h.keep rfl rfl rfl rfl
      refine (htaken.feedResponse L W fun _ _ => ?_).settles (settles_goto .exchange _)
      have hpayload := sample payload action
      rw [octets, List.length_map]
      omega
  | eofResponse phase action eq =>
      subst eq
      exact (h.finResponse L).settles (settles_goto .exchange _)
  | spliceStarted phase eq | splicedUp chunk chunks phase eq | spliceTurned phase eq
  | splicedDown chunk chunks phase eq | spliceRead data phase eq | spliceReceived payload phase eq
  | splicePut data phase eq | spliceWrote data phase eq =>
      subst eq
      exact .of_switched (client.splice (by rw [phase]; rfl)).1
  | routed head rest phase events eq | discarded e rest p kind events stray target eq
  | forwarded carry e rest raw phase events forward eq
  | requestEnded carry rest phase events unfinished eq
  | carried carry e rest phase events side keeps eq
  | tornDown next outcome marker phase markers target eq =>
      subst eq
      exact h.keep rfl rfl rfl rfl

/-- A tail of at most a window is taken whole by its one offer. -/
theorem WithinWindow.reofferClient_pending (h : WithinWindow w s) (L : P.Latches)
    (W : P.Window w) (hplain : s.exchange.switched = false) (hframing : s.reofferClient.Framing) :
    s.reofferClient.clientPending = [] := by
  unfold Multiroute.reofferClient at hframing ⊢
  split at hframing
  · rename_i hne
    rw [if_pos hne]
    have htail := W.tail_le L s.clientPending (h.drained hplain) hframing
    have hfits := h.client hplain (L.pushBytes _ (L.drainEvents hframing))
    apply List.length_eq_zero_iff.mp
    change (P.pushBytes .initiator s.parser s.clientPending).tail.length = 0
    omega
  · rename_i hempty
    rw [if_neg hempty]
    exact not_not.mp hempty

theorem WithinWindow.reofferResponse_pending (h : WithinWindow w s) (L : P.Latches)
    (W : P.Window w) (hplain : s.exchange.switched = false)
    (hframing : s.reofferResponse.Framing) : s.reofferResponse.exchange.respPending = [] := by
  unfold Multiroute.reofferResponse at hframing ⊢
  split at hframing
  · rename_i hne
    rw [if_pos hne]
    have htail := W.tail_le L s.exchange.respPending (h.drained hplain) hframing
    have hfits := h.response hplain (L.pushBytes _ (L.drainEvents hframing))
    apply List.length_eq_zero_iff.mp
    change (P.pushBytes .responder s.parser s.exchange.respPending).tail.length = 0
    omega
  · rename_i hempty
    rw [if_neg hempty]
    exact not_not.mp hempty

/-- A parser that frames after the response's offer framed before it. -/
theorem framing_of_reofferResponse (L : P.Latches) (hframing : s.reofferResponse.Framing) :
    s.Framing := by
  unfold Multiroute.reofferResponse at hframing
  split at hframing
  · exact L.pushBytes _ (L.drainEvents hframing)
  · exact hframing

/-- The re-offer leaves nothing of tails that are at most a window. -/
theorem WithinWindow.offered (h : WithinWindow w s) (L : P.Latches) (W : P.Window w)
    (hplain : s.exchange.switched = false) :
    Offered (s.reofferClient.reofferResponse.goto (.events [])) := by
  intro _ (hframing : s.reofferClient.reofferResponse.Framing)
  have hswitched : s.reofferClient.exchange.switched = false := by
    unfold Multiroute.reofferClient
    split <;> exact hplain
  constructor
  · change s.reofferClient.reofferResponse.clientPending = []
    rw [(reofferResponse_up s.reofferClient).2.1]
    exact h.reofferClient_pending L W hplain (framing_of_reofferResponse L hframing)
  · exact (h.reofferClient L W).reofferResponse_pending L W hswitched hframing

/-- The invariant of the loop is kept where the tails are at most a window. -/
theorem Offered.step (h : Offered s) (within : WithinWindow w s) (L : P.Latches)
    (W : P.Window w) (client : ClientInv s) (hs : s.step cfg a = some s') : Offered s' := by
  cases step_inv hs with
  | moved settles moves empty queue inside heads => exact .outside moves.ne_running
  | routed head rest phase events eq =>
      subst eq
      exact .outside nofun
  | discarded e rest p kind events stray target eq =>
      subst eq
      apply Offered.outside
      rcases target with rfl | rfl <;> exact nofun
  | fedClient kind settles target =>
      apply Offered.outside
      rcases target with ht | ht | ht <;> rw [ht] <;> exact nofun
  | readClient data kind pending settles target =>
      intro hoffered
      rcases target with ⟨-, ht | ht | ht⟩ | ⟨-, ht⟩ <;> rw [ht] at hoffered <;> exact hoffered.elim
  | eofClient p kind pending target eq =>
      subst eq
      rcases target with ⟨-, rfl | rfl⟩ | ⟨-, rfl⟩ <;> exact False.elim
  | started head dns phase action eq =>
      subst eq
      exact False.elim
  | reoffered phase eq =>
      subst eq
      exact within.offered L W (client.unswitched (by rw [phase]; trivial))
  | restored carry phase events settles target =>
      have hsettled := settles.settled
      exact h.keep (offered_of_events phase) hsettled.parser settles.clientPending
        hsettled.respPending
  | forwarded carry e rest raw phase events forward eq =>
      subst eq
      exact h.keep (offered_of_events phase) rfl rfl rfl
  | relayed carry e rest raw phase events relay eq =>
      subst eq
      exact h.keep (offered_of_events phase) rfl rfl (noteClose_switched s.exchange e).2.1
  | requestEnded carry rest phase events unfinished eq =>
      subst eq
      exact h.keep (offered_of_events phase) rfl rfl rfl
  | stopped carry e rest phase events side responseDone settles target =>
      apply Offered.outside
      rw [target]
      exact nofun
  | carried carry e rest phase events side keeps eq =>
      subst eq
      exact h.keep (offered_of_events phase) rfl rfl rfl
  | received payload phase action nonempty eq | eofResponse phase action eq =>
      subst eq
      exact False.elim
  | tornDown next outcome marker phase markers target eq =>
      subst eq
      apply Offered.outside
      rcases target with rfl | ⟨rfl, -⟩ <;> exact nofun
  | _ =>
      rename _ = _ => eq
      subst eq
      exact False.elim

/-- In every run with reads and samples of at most two windows, an exchange that waits with a
framing parser holds no refused byte. -/
theorem waitsEmpty_of_within (L : P.Latches) (W : P.Window w) (hread : cfg.bufferSize ≤ 2 * w)
    (hlimit : limit ≤ 2 * w) (schedule : List MultirouteAction)
    (samples : ∀ a ∈ schedule, SampleWithin limit a) :
    Always (step cfg) WaitsEmpty (init P) schedule := by
  have hok : Along (step cfg) (fun _ a => SampleWithin limit a) (init P) schedule :=
    along_of_labels samples (init P)
  have hinv : Always (step cfg) (fun s => ClientInv s ∧ WithinWindow w s ∧ Offered s) (init P)
      schedule := by
    refine always_of_along (fun s a s' h hok hs => ?_)
      ⟨clientInv_init P, withinWindow_init L w, offered_init P⟩ hok
    obtain ⟨client, within, offered⟩ := h
    exact ⟨client.step hs, within.step L W client hread hlimit hok hs,
      offered.step within L W client hs⟩
  refine hinv.mono fun s h phase => h.2.2 ?_
  rw [phase]
  trivial

end Window

section Pieces

variable {window : Nat} {t : Multiroute (pieceParser window)} {bytes : Octets}

/-- A fresh parser of pieces frames one window of what it is fed. -/
theorem feedClient_pieces (hparser : t.parser = fun _ => none) (hne : bytes ≠ []) :
    (t.feedClient bytes).parser = (fun _ => none) ∧
      (t.feedClient bytes).events = t.events ++ [pieceHead .initiator (bytes.take window)] ∧
      (t.feedClient bytes).clientPending = bytes.drop window := by
  unfold feedClient
  rw [hparser, pieceParser_pushBytes window .initiator hne]
  simp only [pieceParser_drainEvents]
  exact ⟨rfl, trivial, trivial⟩

theorem feedResponse_pieces (hparser : t.parser = fun _ => none) (hne : bytes ≠ []) :
    (t.feedResponse bytes).parser = (fun _ => none) ∧
      (t.feedResponse bytes).events = t.events ++ [pieceHead .responder (bytes.take window)] ∧
      (t.feedResponse bytes).exchange.respPending = bytes.drop window := by
  unfold feedResponse
  rw [hparser, pieceParser_pushBytes window .responder hne]
  simp only [pieceParser_drainEvents]
  exact ⟨rfl, trivial, trivial⟩

/-- The top of the exchange loop with the parser drained and the event queue empty. -/
structure AtExchange (pending : Octets) (t : Multiroute (pieceParser window)) : Prop where
  phase : t.phase = .exchange
  parser : t.parser = fun _ => none
  events : t.events = []
  client : t.clientPending = pending
  response : t.exchange.respPending = []

/-- A client that sends bytes comes to its exchange with what the first push refused. -/
theorem reaches_exchange (cfg : MultirouteConfig) (window : Nat) {data : List UInt8}
    (hdata : Readable cfg data) :
    ∃ t, exec (step cfg) (init (pieceParser window))
        [.tick, .read data, .tick, .route (.ok "") .host, .setupDone true, .publish true] = some t ∧
      AtExchange ((octets .client data).drop window) t := by
  have hne : octets .client data ≠ [] := mt List.map_eq_nil_iff.mp hdata.1
  obtain ⟨hparser, hevents, hpending⟩ := feedClient_pieces
    (t := ((init (pieceParser window)).goto .nextHeadRead).takeClient (octets .client data)) rfl hne
  have hread : ((init (pieceParser window)).goto .nextHeadRead).step cfg (.read data) = some
      (((((init (pieceParser window)).goto .nextHeadRead).takeClient
        (octets .client data)).feedClient (octets .client data)).goto .nextHead) := if_pos hdata
  generalize ((((init (pieceParser window)).goto .nextHeadRead).takeClient
    (octets .client data)).feedClient (octets .client data)) = u at hparser hevents hpending hread
  have hhead : (u.goto .nextHead).step cfg .tick = some { u with
      phase := .routing ⟨(octets .client data).take window⟩
      events := []
      requestNum := u.requestNum + 1
      log := { u.log with
        routed := u.log.routed ++ [⟨(octets .client data).take window⟩] } } := by
    change (u.goto .nextHead).stepNextHead .tick = _
    simp only [stepNextHead, goto, hevents]
    rfl
  exact ⟨_, exec_cons rfl (exec_cons hread (exec_cons hhead rfl)), rfl, hparser, rfl, hpending, rfl⟩

theorem step_of_exchange (cfg : MultirouteConfig) (phase : s.phase = .exchange) :
    s.step cfg .tick = some (s.reofferClient.reofferResponse.goto (.events [])) := by
  rw [Multiroute.step, phase]
  rfl

/-- The exchange offers the client's tail once, carries the next head aside and waits. -/
theorem select_of_client (cfg : MultirouteConfig) {pending : Octets} (h : AtExchange pending t)
    (hne : pending ≠ []) :
    ∃ u, exec (step cfg) t [.tick, .tick, .tick] = some u ∧ u.phase = .select ∧
      u.clientPending = pending.drop window := by
  obtain ⟨hparser, hevents, hpending⟩ := feedClient_pieces h.parser hne
  have hclient : t.reofferClient = t.feedClient pending := by
    rw [reofferClient, h.client, if_pos hne]
  have hresponse : (t.feedClient pending).reofferResponse = t.feedClient pending :=
    if_neg (not_not.mpr h.response)
  have hoffer := step_of_exchange cfg h.phase
  rw [hclient, hresponse] at hoffer
  generalize t.feedClient pending = u at hparser hevents hpending hoffer
  rw [h.events] at hevents
  have hcarry : (u.goto (.events [])).step cfg .tick = some { u with
      phase := .events [pieceHead .initiator (pending.take window)]
      events := [] } := by
    change (u.goto (.events [])).stepEvents cfg [] .tick = _
    simp only [stepEvents, goto, hevents]
    rfl
  exact ⟨_, exec_cons hoffer (exec_cons hcarry rfl), rfl, hpending⟩

/-- With nothing refused the exchange waits for a sample. -/
theorem select_of_idle (cfg : MultirouteConfig) (h : AtExchange [] t) :
    exec (step cfg) t [.tick, .tick] = some { t with phase := .select, events := [] } := by
  have hclient : t.reofferClient = t := if_neg (not_not.mpr h.client)
  have hresponse : t.reofferResponse = t := if_neg (not_not.mpr h.response)
  have hoffer := step_of_exchange cfg h.phase
  rw [hclient, hresponse] at hoffer
  refine exec_cons hoffer (exec_cons ?_ rfl)
  change (t.goto (.events [])).stepEvents cfg [] .tick = _
  simp only [stepEvents, goto, h.events]
  rfl

/-- The pieces in the queue are written one by one. -/
theorem writes_pieces (cfg : MultirouteConfig) (pieces : List Octets)
    (phase : t.phase = .events []) (events : t.events = pieces.map (pieceHead .responder)) :
    ∃ u, exec (step cfg) t (pieces.map fun _ => .write true) = some u ∧ u.phase = .events [] ∧
      u.events = [] ∧ u.exchange.respPending = t.exchange.respPending := by
  induction pieces generalizing t with
  | nil => exact ⟨t, rfl, phase, events, rfl⟩
  | cons raw pieces ih =>
      have hwrite : t.step cfg (.write true) = some { t.wrote raw with
          events := pieces.map (pieceHead .responder)
          exchange := { t.exchange with
            bytesWritten := t.exchange.bytesWritten + raw.length } } := by
        rw [Multiroute.step, phase]
        simp only [stepEvents, events, List.map_cons]
        rfl
      obtain ⟨u, hrun, hu⟩ := ih (t := { t.wrote raw with
        events := pieces.map (pieceHead .responder)
        exchange := { t.exchange with
          bytesWritten := t.exchange.bytesWritten + raw.length } }) phase rfl
      exact ⟨u, exec_cons hwrite hrun, hu⟩

/-- A sample is offered when it comes and once again, and both pieces are written. Then the
exchange waits with the rest. -/
theorem select_of_sample (cfg : MultirouteConfig) {payload : List UInt8}
    (phase : t.phase = .select) (parser : t.parser = fun _ => none) (events : t.events = [])
    (client : t.clientPending = []) (hlong : window < payload.length) :
    ∃ u, exec (step cfg) t [.sample payload, .tick, .write true, .write true, .tick] = some u ∧
      u.phase = .select ∧
      u.exchange.respPending =
        ((octets (.backend t.requestNum) payload).drop window).drop window := by
  have hlength : (octets (.backend t.requestNum) payload).length = payload.length :=
    List.length_map ..
  have hreceived : t.step cfg (.sample payload) = some
      (((t.takeResponse (octets (.backend t.requestNum) payload)).feedResponse
        (octets (.backend t.requestNum) payload)).goto .exchange) := by
    rw [Multiroute.step, phase]
    simp only [stepSelect, if_neg (List.length_pos_iff.mp (Nat.zero_lt_of_lt hlong))]
  generalize octets (.backend t.requestNum) payload = data at hlength hreceived
  have hne : data ≠ [] := List.length_pos_iff.mp (by omega)
  have hrest : data.drop window ≠ [] := by
    apply List.length_pos_iff.mp
    rw [List.length_drop]
    omega
  -- the push of the sample frames one window of it
  obtain ⟨hparser, hevents, hpending⟩ :=
    feedResponse_pieces (t := t.takeResponse data) parser hne
  have hclient : ((t.takeResponse data).feedResponse data).clientPending = [] := client
  generalize (t.takeResponse data).feedResponse data = u
    at hparser hevents hpending hclient hreceived
  -- the re-offer frames a second one
  obtain ⟨-, hevents', hpending'⟩ := feedResponse_pieces (t := u.goto .exchange) hparser hrest
  have hoffer := step_of_exchange cfg (s := u.goto .exchange) rfl
  have hkept : (u.goto .exchange).reofferClient = u.goto .exchange :=
    if_neg (not_not.mpr hclient)
  have hagain : (u.goto .exchange).reofferResponse =
      (u.goto .exchange).feedResponse (data.drop window) := by
    change (if u.exchange.respPending ≠ [] then
      (u.goto .exchange).feedResponse u.exchange.respPending else _) = _
    rw [hpending, if_pos hrest]
  rw [hkept, hagain] at hoffer
  generalize (u.goto .exchange).feedResponse (data.drop window) = v at hevents' hpending' hoffer
  have hqueue : v.events =
      [data.take window, (data.drop window).take window].map (pieceHead .responder) := by
    rw [hevents']
    change u.events ++ _ = _
    rw [hevents]
    change t.events ++ _ ++ _ = _
    rw [events]
    rfl
  obtain ⟨x, hwrites, hphase, hempty, hleft⟩ := writes_pieces cfg _ (t := v.goto (.events []))
    rfl hqueue
  have hwaits : x.step cfg .tick = some { x with phase := .select, events := [] } := by
    rw [Multiroute.step, hphase]
    simp only [stepEvents, hempty]
    rfl
  have hrun : exec (step cfg) (v.goto (.events []))
      ([.write true, .write true] ++ [.tick]) = some { x with phase := .select, events := [] } := by
    simp only [List.map_cons, List.map_nil] at hwrites
    exact exec_trans hwrites (exec_cons hwaits rfl)
  exact ⟨_, exec_cons hreceived (exec_cons hoffer hrun), rfl, hleft.trans hpending'⟩

/-- Bytes past two windows are left after a push and one re-offer. -/
theorem drop_two_windows {bytes : Octets} (h : 2 * window < bytes.length) :
    (bytes.drop window).drop window ≠ [] := by
  apply List.length_pos_iff.mp
  simp only [List.length_drop]
  omega

/-- An exchange that waits with a refused byte of the parser of pieces. -/
theorem not_waitsEmpty {schedule : List MultirouteAction}
    (hrun : exec (step cfg) (init (pieceParser window)) schedule = some t)
    (phase : t.phase = .select) (holds : ¬t.HoldsNothing) :
    ¬Always (step cfg) WaitsEmpty (init (pieceParser window)) schedule :=
  fun hall => holds (hall.last hrun phase ⟨rfl, rfl⟩)

/-- One read of more than two windows leaves the exchange waiting. -/
theorem stalls_on_read (h : 2 * window < cfg.bufferSize) :
    ∃ schedule, (∀ a ∈ schedule, SampleWithin 0 a) ∧
      ¬Always (step cfg) WaitsEmpty (init (pieceParser window)) schedule := by
  obtain ⟨data, hdata, hlong⟩ : ∃ data, Readable cfg data ∧ 2 * window < data.length := by
    refine ⟨List.replicate (2 * window + 1) 0, ⟨nofun, ?_⟩, ?_⟩ <;> rw [List.length_replicate]
    · exact h
    · exact Nat.lt_succ_self _
  obtain ⟨t, hfirst, ht⟩ := reaches_exchange cfg window hdata
  have hleft : ((octets .client data).drop window).drop window ≠ [] :=
    drop_two_windows (by rw [octets, List.length_map]; exact hlong)
  have hne : (octets .client data).drop window ≠ [] := by
    intro hnil
    rw [hnil] at hleft
    exact hleft List.drop_nil
  obtain ⟨u, hrest, hphase, hpending⟩ := select_of_client cfg ht hne
  refine ⟨_, ?_, not_waitsEmpty (exec_trans hfirst hrest) hphase ?_⟩
  · simp [SampleWithin]
  · rintro ⟨hnil, -⟩
    exact hleft (hpending ▸ hnil)

/-- One sample of more than two windows leaves the exchange waiting. -/
theorem stalls_on_sample {limit : Nat} (hbuffer : 0 < cfg.bufferSize)
    (hread : cfg.bufferSize ≤ 2 * window) (h : 2 * window < limit) :
    ∃ schedule, (∀ a ∈ schedule, SampleWithin limit a) ∧
      ¬Always (step cfg) WaitsEmpty (init (pieceParser window)) schedule := by
  have hreadable : Readable cfg [0] := ⟨nofun, hbuffer⟩
  obtain ⟨t, hfirst, ht⟩ := reaches_exchange cfg window hreadable
  have hnil : (octets .client [0]).drop window = [] :=
    List.drop_of_length_le (by change 1 ≤ window; omega)
  rw [hnil] at ht
  have hlong : window < (List.replicate (2 * window + 1) (0 : UInt8)).length := by
    rw [List.length_replicate]
    omega
  obtain ⟨u, hrest, hphase, hpending⟩ := select_of_sample cfg
    (t := { t with phase := .select, events := [] }) rfl ht.parser rfl ht.client hlong
  refine ⟨_, ?_,
    not_waitsEmpty (exec_trans hfirst (exec_trans (select_of_idle cfg ht) hrest)) hphase ?_⟩
  · simp [SampleWithin]
    omega
  · rintro ⟨-, hempty⟩
    rw [hpending] at hempty
    refine drop_two_windows ?_ hempty
    rw [octets, List.length_map, List.length_replicate]
    exact Nat.lt_succ_self _

end Pieces

/-- In every run, for every parser with the window, an exchange that waits with a framing parser
holds no refused byte, if and only if neither a read nor a sample is larger than two windows:
the push and the one re-offer of the loop take two, and a third one stays refused. -/
theorem waitsEmpty_iff_two_windows (cfg : MultirouteConfig) (w limit : Nat)
    (hbuffer : 0 < cfg.bufferSize) :
    (∀ P : HttpProxyParser Octet, P.Latches → P.Window w → ∀ schedule : List MultirouteAction,
      (∀ a ∈ schedule, SampleWithin limit a) → Always (step cfg) WaitsEmpty (init P) schedule) ↔
      cfg.bufferSize ≤ 2 * w ∧ limit ≤ 2 * w := by
  constructor
  · intro hall
    have hpieces := hall (pieceParser w) (pieceParser_latches w) (pieceParser_window w)
    have hread : cfg.bufferSize ≤ 2 * w := by
      by_contra hlarge
      obtain ⟨schedule, hsamples, hstalls⟩ := stalls_on_read (Nat.not_le.mp hlarge)
      refine hstalls (hpieces schedule fun a ha payload heq => ?_)
      exact Nat.le_trans (hsamples a ha payload heq) (Nat.zero_le _)
    refine ⟨hread, ?_⟩
    by_contra hlarge
    obtain ⟨schedule, hsamples, hstalls⟩ :=
      stalls_on_sample hbuffer hread (Nat.not_le.mp hlarge)
    exact hstalls (hpieces schedule hsamples)
  · rintro ⟨hread, hlimit⟩ P L W schedule samples
    exact waitsEmpty_of_within L W hread hlimit schedule samples

/-- A request of two windows is answered by a sample of two windows. The exchange then waits
with nothing refused. -/
theorem waitsEmpty_of_two_windows :
    let schedule : List MultirouteAction :=
      [.tick, .read (List.replicate 64 1), .tick, .route (.ok "a") .host, .setupDone true,
        .publish true, .tick, .tick, .tick, .sample (List.replicate 64 2), .tick, .tick,
        .write true, .write true, .tick]
    (exec (step ⟨64, 256⟩) (init (pieceParser 32)) schedule).map
        (fun s => (s.phase, s.log.written.length)) = some (.select, 2) ∧
      Always (step ⟨64, 256⟩) WaitsEmpty (init (pieceParser 32)) schedule := by
  refine ⟨by decide +kernel, ?_⟩
  have hsizes : 64 ≤ 2 * 32 ∧ 64 ≤ 2 * 32 := by decide
  refine (waitsEmpty_iff_two_windows ⟨64, 256⟩ 32 64 (by decide)).mpr hsizes (pieceParser 32)
    (pieceParser_latches 32) (pieceParser_window 32) _ ?_
  simp [SampleWithin]

/-- A sample of 65 bytes is more than two windows of 32. One byte is still refused when the
exchange waits for the next sample, and the parser would take it. -/
theorem waitsEmpty_fails_on_third_window :
    ¬∀ (m : LowercaseMapping) (Addr : Type) (parseAddr : String → Option Addr)
      (tlsTermination : Bool) (logOptions : Except String Unit) (args : Args)
      (P : HttpProxyParser Octet) (schedule : List MultirouteAction),
      args.validate m parseAddr tlsTermination logOptions = .ok () → P.Progresses →
      Always (step args.multirouteConfig) WaitsEmpty (init P) schedule := by
  intro hall
  have hwaits := hall .narrow Unit _ false (.ok ()) smallArgs (refusingParser 32)
    [.tick, .read (wire "GET / HTTP/1.1\r\nHost:a\r\n\r\n"), .tick, .route (.ok "a") .host,
      .setupDone true, .publish true, .tick, .tick, .tick,
      .sample (wire "HTTP/1.1 200 \r\n\r\n" ++ List.replicate 48 120),
      .tick, .write true, .write true, .write true, .tick]
    smallArgs_valid (refusingParser_progresses 32)
  revert hwaits
  decide +kernel

end Multiroute

end ZenohBridge
