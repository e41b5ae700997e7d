import ZenohBridge.EofEncoding
import ZenohBridge.ExchangeEnds
import ZenohBridge.MultirouteRequests

/-!
# What an exporter gets of a request

Every request of a multiroute connection has a channel of its own. `run_exchange` publishes on
it the head, then what the client sends of the request, or what it sends after a protocol
switch, and at its teardown the EOF marker, which is an empty sample. The relay of an exporter
reads the channel sample by sample and half-closes its backend at the first empty one.

So no sample before the marker may be empty. Then the backend gets a prefix of what was
published for its request and of nothing else, and a half-close tells it that it has all.

## Implementation notes

The importer publishes an event of its parser as one sample, whatever it holds. That no part
of a request is reported without a byte is a premise on the parser. The exporter's relay runs
on its own, on any prefix of what was published so far.
-/

namespace ZenohBridge

open Execution

/-- No part of a request is reported without a byte. -/
def PartsNonempty (events : List (HttpEvent Octet)) : Prop :=
  ∀ e ∈ events, e.side = some .initiator → e ≠ .endMessage .initiator → e.raw ≠ []

theorem PartsNonempty.mono {earlier later : List (HttpEvent Octet)} (h : PartsNonempty later)
    (hpre : earlier <+: later) : PartsNonempty earlier :=
  fun e he => h e (hpre.subset he)

namespace MultiroutePhase

/-- The phases of a running exchange, its teardown included. -/
def live : MultiroutePhase → Prop
  | .exchange | .events _ | .select | .spliceStart | .spliceUp _ | .spliceDown _ | .splice
  | .splicePut _ | .spliceWrite _ | .teardown => True
  | _ => False

/-- The phases outside of a request. -/
def idle (p : MultiroutePhase) : Prop := p.kind = .between ∨ p = .closed

/-- The chunks that a splice has still to publish. -/
def upward : MultiroutePhase → List Octets
  | .spliceUp chunks => chunks
  | .splicePut data => [data]
  | _ => []

theorem live_of_kind {p : MultiroutePhase} (h : p.kind = .running ∨ p.kind = .splicing) :
    p.live := by
  cases p with
  | exchange | events _ | select | spliceStart | spliceUp _ | spliceDown _ | splice | splicePut _
  | spliceWrite _ | teardown => trivial
  | _ => obtain h | h := h <;> contradiction

theorem live_or_closed {p : MultiroutePhase} (h : p.kind = .finished) : p.live ∨ p = .closed := by
  cases p with
  | teardown => exact .inl trivial
  | closed => exact .inr rfl
  | _ => contradiction

theorem live.not_dispatch {p : MultiroutePhase} (h : p.live) : p.kind ≠ .dispatch := by
  cases p with
  | routing _ | setup _ _ | publishHead _ _ => exact h.elim
  | _ => nofun

theorem idle.not_live {p : MultiroutePhase} (h : p.idle) : ¬p.live := by
  intro hlive
  obtain h | rfl := h
  · cases p with
    | nextHead | nextHeadRead | consume | consumeEvents | consumeRead => exact hlive
    | _ => contradiction
  · exact hlive

theorem idle.not_dispatch {p : MultiroutePhase} (h : p.idle) : p.kind ≠ .dispatch := by
  obtain h | rfl := h
  · rw [h]
    nofun
  · nofun

theorem upward_eq_nil {p : MultiroutePhase} (h : p.kind ≠ .splicing) : p.upward = [] := by
  cases p with
  | spliceUp _ | splicePut _ => exact absurd rfl h
  | _ => rfl

end MultiroutePhase

namespace Multiroute

variable {P : HttpProxyParser Octet} {cfg : MultirouteConfig} {s s' : Multiroute P}
  {a : MultirouteAction}

/-- What was published on the channel of a request. -/
def samplesFor (n : Nat) (tx : List (Nat × Octets)) : List Octets :=
  (tx.filter fun entry => entry.1 = n).map Prod.snd

theorem samplesFor_snoc_self (n : Nat) (tx : List (Nat × Octets)) (data : Octets) :
    samplesFor n (tx ++ [(n, data)]) = samplesFor n tx ++ [data] := by
  simp [samplesFor]

theorem samplesFor_snoc_ne {n k : Nat} (h : n ≠ k) (tx : List (Nat × Octets)) (data : Octets) :
    samplesFor k (tx ++ [(n, data)]) = samplesFor k tx := by
  simp [samplesFor, h]

/-- The bytes published for a request are those of its samples. -/
theorem flatten_samplesFor (n : Nat) (tx : List (Nat × Octets)) :
    (samplesFor n tx).flatten = bytesFor n tx := by
  induction tx with
  | nil => rfl
  | cons entry tx ih =>
      obtain ⟨k, data⟩ := entry
      by_cases hk : k = n
      · subst hk
        rw [bytesFor_cons_self, ← ih]
        simp [samplesFor]
      · rw [bytesFor_cons_ne hk, ← ih]
        simp [samplesFor, hk]

/-- A step moves neither the number nor the heads of the requests. -/
structure SameRequest (s s' : Multiroute P) : Prop where
  number : s'.requestNum = s.requestNum
  routed : s'.log.routed = s.log.routed

/-- One step, by what it does to the channels. -/
inductive ChannelMove (s s' : Multiroute P) : Prop
  /-- The connection is outside of a request, or over. -/
  | idles (after : s'.phase.idle) (tx : s'.log.tx = s.log.tx) (same : SameRequest s s')
  | routes (head : RequestHead Octet) (queued : .requestHead head ∈ s.queue)
      (after : s'.phase = .routing head) (tx : s'.log.tx = s.log.tx)
      (number : s'.requestNum = s.requestNum + 1)
      (routed : s'.log.routed = s.log.routed ++ [head])
  | prepares (before : s.phase.kind = .dispatch) (after : s'.phase.kind = .dispatch)
      (heads : ∀ head, s'.phase.head = some head → s.phase.head = some head)
      (tx : s'.log.tx = s.log.tx) (same : SameRequest s s')
  | opens (head : RequestHead Octet) (dns : String) (before : s.phase = .publishHead head dns)
      (after : s'.phase = .exchange) (tx : s'.log.tx = s.log.tx ++ [(s.requestNum, head.raw)])
      (same : SameRequest s s')
  | carries (before : s.phase.live) (after : s'.phase.live)
      (upward : ∀ c ∈ s'.phase.upward, c ∈ s.phase.upward ∨ c ≠ [])
      (tx : s'.log.tx = s.log.tx) (same : SameRequest s s')
  | sends (data : Octets) (before : s.phase.live) (after : s'.phase.live)
      (source : data ∈ s.phase.upward ∨
        ∃ e ∈ s.queue, e.side = some .initiator ∧ e ≠ .endMessage .initiator ∧ e.raw = data)
      (upward : ∀ c ∈ s'.phase.upward, c ∈ s.phase.upward)
      (tx : s'.log.tx = s.log.tx ++ [(s.requestNum, data)]) (same : SameRequest s s')
  | marks (before : s.phase.live) (after : s'.phase.idle)
      (tx : s'.log.tx = s.log.tx ++ [(s.requestNum, [])]) (same : SameRequest s s')

theorem Settles.sameRequest (h : Settles s s') :
    s'.log.tx = s.log.tx ∧ SameRequest s s' := by
  obtain ⟨p, o, k, e, r, rfl⟩ := h
  exact ⟨rfl, rfl, rfl⟩

/-- A request that got no exchange leads back to the heads, or to the end. -/
theorem closed_of_left (h : s.step cfg a = some s')
    (before : s.phase.kind = .between ∨ s.phase.kind = .dispatch)
    (after : s'.phase.kind = .finished) : s'.phase = .closed := by
  cases step_course h with
  | leaves _ closed => exact closed
  | waits _ kind => rw [kind] at after; contradiction
  | prepares _ kind => rw [kind] at after; contradiction
  | routes head _ phase => rw [phase] at after; contradiction
  | refuses head dns _ _ phase => rw [phase] at after; contradiction
  | starts head dns _ phase => rw [phase] at after; contradiction
  | loops kind | degrades _ _ kind | switches kind | splices kind =>
      rw [kind] at before
      obtain before | before := before <;> contradiction
  | relays carry e rest raw phase | completes carry rest phase =>
      rw [phase] at before
      obtain before | before := before <;> contradiction
  | breaks kind closed => exact closed
  | returns phase =>
      rw [phase] at before
      obtain before | before := before <;> contradiction

theorem afterExchange_tx (s : Multiroute P) :
    s.afterExchange.log.tx = s.log.tx := by
  unfold afterExchange
  split
  · rfl
  · simp only []
    split <;> rfl

/-- The teardown publishes one marker, or nothing. -/
theorem teardown_tx (phase : s.phase = .teardown) (h : s.step cfg a = some s') :
    s'.log.tx = s.log.tx ++ [(s.requestNum, [])] ∨ s'.log.tx = s.log.tx := by
  rw [step, phase] at h
  cases a with
  | publish ok =>
      cases ok with
      | true =>
          obtain rfl := Option.some.inj h
          exact .inl (afterExchange_tx _)
      | false =>
          obtain rfl := Option.some.inj h
          exact .inr (afterExchange_tx _)
  | _ => contradiction

/-- What a splice reads off the client's socket is not empty. -/
theorem spliceRead_nonempty {data : Octets} (phase : s.phase = .splice)
    (after : s'.phase = .splicePut data) (h : s.step cfg a = some s') : data ≠ [] := by
  rw [step, phase] at h
  cases a with
  | read bytes =>
      simp only [stepSplice, Option.ite_none_right_eq_some] at h
      obtain ⟨hread, h⟩ := h
      obtain rfl := Option.some.inj h
      obtain rfl := MultiroutePhase.splicePut.inj after
      intro hnil
      exact hread.1 (List.map_eq_nil_iff.mp hnil)
  | sample payload =>
      simp only [stepSplice] at h
      split at h
      · obtain rfl := Option.some.inj h
        cases after
      · obtain rfl := Option.some.inj h
        cases after
  | readEof | readFailed | channelClosed | overflow | shutdown =>
      obtain rfl := Option.some.inj h
      cases after
  | _ => contradiction

theorem reoffer_channels (s : Multiroute P) :
    s.reofferClient.reofferResponse.log.tx = s.log.tx ∧
      SameRequest s s.reofferClient.reofferResponse := by
  have hclient : s.reofferClient.log.tx = s.log.tx ∧ SameRequest s s.reofferClient := by
    unfold reofferClient
    split <;> exact ⟨rfl, rfl, rfl⟩
  obtain ⟨htx, hnumber, hrouted⟩ := hclient
  generalize s.reofferClient = t at htx hnumber hrouted
  unfold reofferResponse
  split <;> exact ⟨htx, hnumber, hrouted⟩

theorem ChannelMove.of_live (before : s.phase.live) (after : s'.phase.live)
    (upward : s'.phase.upward = []) (tx : s'.log.tx = s.log.tx) (same : SameRequest s s') :
    ChannelMove s s' := by
  refine .carries before after ?_ tx same
  rw [upward]
  intro c hc
  cases hc

theorem live_events {carry : List (HttpEvent Octet)} (phase : s.phase = .events carry) :
    s.phase.live := by
  rw [phase]
  trivial

theorem step_channels (h : s.step cfg a = some s') : ChannelMove s s' := by
  cases step_inv h with
  | moved settles moves empty queue inside heads =>
      obtain ⟨htx, hsame⟩ := settles.sameRequest
      have hends : s.phase.live → s'.phase.kind = .finished → ChannelMove s s' := by
        intro hlive hk'
        obtain hlive' | hclosed := MultiroutePhase.live_or_closed hk'
        · exact .of_live hlive hlive' (MultiroutePhase.upward_eq_nil (by rw [hk']; nofun)) htx hsame
        · exact .idles (.inr hclosed) htx hsame
      cases hk : s.phase.kind with
      | between =>
          rw [hk] at moves
          obtain hk' | hk' := moves
          · exact .idles (.inl hk') htx hsame
          · exact .idles (.inr (closed_of_left h (.inl hk) hk')) htx hsame
      | dispatch =>
          rw [hk] at moves
          obtain hk' | hk' | hk' := moves
          · exact .prepares hk hk' heads htx hsame
          · exact .idles (.inl hk') htx hsame
          · exact .idles (.inr (closed_of_left h (.inr hk) hk')) htx hsame
      | running =>
          rw [hk] at moves
          exact hends (MultiroutePhase.live_of_kind (.inl hk)) moves
      | splicing =>
          rw [hk] at moves
          obtain hk' | hk' := moves
          · obtain ⟨hdown, hsplice⟩ := inside hk'
            refine .of_live ?_ ?_ ?_ htx hsame
            · rw [hdown]
              trivial
            · rw [hsplice]
              trivial
            · rw [hsplice]
              rfl
          · exact hends (MultiroutePhase.live_of_kind (.inr hk)) hk'
      | finished =>
          rw [hk] at moves
          exact moves.elim
  | routed head rest phase events eq =>
      subst eq
      refine .routes head ?_ rfl rfl rfl rfl
      rw [queue_of_phase phase, events]
      exact List.mem_cons_self
  | discarded e rest p kind events stray target eq =>
      subst eq
      refine .idles ?_ rfl ⟨rfl, rfl⟩
      obtain rfl | rfl := target <;> exact .inl rfl
  | fedClient kind settles target =>
      obtain ⟨htx, hnumber, hrouted⟩ := settles.sameRequest
      refine .idles ?_ htx ⟨hnumber, hrouted⟩
      obtain hp | hp | hp := target
      · exact .inl (by rw [hp]; rfl)
      · exact .inl (by rw [hp]; rfl)
      · exact .inr hp
  | readClient data kind pending settles target =>
      obtain ⟨htx, hnumber, hrouted⟩ := settles.sameRequest
      obtain ⟨-, hp | hp | hp⟩ | ⟨hselect, hp⟩ := target
      · exact .idles (.inl (by rw [hp]; rfl)) htx ⟨hnumber, hrouted⟩
      · exact .idles (.inl (by rw [hp]; rfl)) htx ⟨hnumber, hrouted⟩
      · exact .idles (.inr hp) htx ⟨hnumber, hrouted⟩
      · refine .of_live ?_ ?_ ?_ htx ⟨hnumber, hrouted⟩
        · rw [hselect]
          trivial
        · rw [hp]
          trivial
        · rw [hp]
          rfl
  | eofClient p kind pending target eq =>
      subst eq
      obtain ⟨-, rfl | rfl⟩ | ⟨hselect, rfl⟩ := target
      · exact .idles (.inl rfl) rfl ⟨rfl, rfl⟩
      · exact .idles (.inl rfl) rfl ⟨rfl, rfl⟩
      · exact .of_live (by rw [hselect]; trivial) trivial rfl rfl ⟨rfl, rfl⟩
  | started head dns phase action eq =>
      subst eq
      exact .opens head dns phase rfl rfl ⟨rfl, rfl⟩
  | reoffered phase eq =>
      subst eq
      obtain ⟨htx, hnumber, hrouted⟩ := reoffer_channels s
      exact .of_live (by rw [phase]; trivial) trivial rfl htx ⟨hnumber, hrouted⟩
  | restored carry phase events settles target =>
      obtain ⟨htx, hnumber, hrouted⟩ := settles.sameRequest
      refine .of_live (live_events phase) ?_ ?_ htx ⟨hnumber, hrouted⟩
      · obtain hp | hp := target <;> rw [hp] <;> trivial
      · obtain hp | hp := target <;> rw [hp] <;> rfl
  | forwarded carry e rest raw phase events forward eq =>
      subst eq
      refine .sends raw (live_events phase) (live_events phase) (.inr ⟨e, ?_, ?_⟩) ?_ rfl ⟨rfl, rfl⟩
      · rw [queue_of_events phase events]
        exact List.mem_append_right _ List.mem_cons_self
      · obtain ⟨-, rfl | rfl⟩ := forwarded_inv forward
        · exact ⟨rfl, nofun, rfl⟩
        · exact ⟨rfl, nofun, rfl⟩
      · exact fun c hc => hc
  | relayed carry e rest raw phase events relay eq =>
      subst eq
      exact .carries (live_events phase) (live_events phase) (fun c hc => .inl hc) rfl ⟨rfl, rfl⟩
  | requestEnded carry rest phase events unfinished eq =>
      subst eq
      exact .carries (live_events phase) (live_events phase) (fun c hc => .inl hc) rfl ⟨rfl, rfl⟩
  | stopped carry e rest phase events side responseDone settles target =>
      obtain ⟨htx, hnumber, hrouted⟩ := settles.sameRequest
      refine .of_live (live_events phase) ?_ ?_ htx ⟨hnumber, hrouted⟩
      · rw [target]
        trivial
      · rw [target]
        rfl
  | switched carry rest phase events eq | carried carry e rest phase events side keeps eq =>
      subst eq
      exact .of_live (live_events phase) trivial rfl rfl ⟨rfl, rfl⟩
  | received payload phase action nonempty eq =>
      subst eq
      exact .of_live (by rw [phase]; trivial) trivial rfl rfl ⟨rfl, rfl⟩
  | eofResponse phase action eq =>
      subst eq
      exact .of_live (by rw [phase]; trivial) trivial rfl rfl ⟨rfl, rfl⟩
  | spliceStarted phase eq =>
      subst eq
      refine .carries (by rw [phase]; trivial) trivial ?_ rfl ⟨rfl, rfl⟩
      intro c hc
      have hfilter := (List.mem_filter.mp hc).2
      right
      rintro rfl
      contradiction
  | splicedUp chunk chunks phase eq =>
      subst eq
      refine .sends chunk (by rw [phase]; trivial) trivial (.inl ?_) ?_ rfl ⟨rfl, rfl⟩
      · rw [phase]
        exact List.mem_cons_self
      · rw [phase]
        exact fun c hc => List.mem_cons_of_mem _ hc
  | spliceTurned phase eq | splicedDown chunk chunks phase eq | spliceReceived payload phase eq
  | spliceWrote data phase eq =>
      subst eq
      exact .of_live (by rw [phase]; trivial) trivial rfl rfl ⟨rfl, rfl⟩
  | spliceRead data phase eq =>
      have hne : data ≠ [] := spliceRead_nonempty phase (by rw [eq]) h
      subst eq
      refine .carries (by rw [phase]; trivial) trivial ?_ rfl ⟨rfl, rfl⟩
      intro c hc
      rw [List.mem_singleton.mp hc]
      exact .inr hne
  | splicePut data phase eq =>
      subst eq
      refine .sends data (by rw [phase]; trivial) trivial (.inl ?_) nofun rfl ⟨rfl, rfl⟩
      rw [phase]
      exact List.mem_singleton_self data
  | tornDown next outcome marker phase markers target eq =>
      have hlive : s.phase.live := by
        rw [phase]
        trivial
      have hidle : s'.phase.idle := by
        rw [eq]
        obtain rfl | ⟨rfl, -⟩ := target
        · exact .inr rfl
        · exact .inl rfl
      have hsame : SameRequest s s' := by
        rw [eq]
        exact ⟨rfl, rfl⟩
      obtain htx | htx := teardown_tx phase h
      · exact .marks hlive hidle htx hsame
      · exact .idles hidle htx hsame

/-- The data of a channel: the head of its request and what follows it, nothing of it empty. -/
structure Opened (routed : List (RequestHead Octet)) (n : Nat) (samples : List Octets) : Prop where
  head : ∃ head, routed[n - 1]? = some head ∧ samples.head? = some head.raw
  data : [] ∉ samples

/-- A channel was never opened, or has its data, and then at most the marker. -/
def Shaped (routed : List (RequestHead Octet)) (n : Nat) (samples : List Octets) : Prop :=
  samples = [] ∨ Opened routed n samples ∨
    ∃ data, Opened routed n data ∧ samples = data ++ [[]]

theorem Opened.snoc {routed : List (RequestHead Octet)} {n : Nat} {samples : List Octets}
    {data : Octets} (h : Opened routed n samples) (hdata : data ≠ []) :
    Opened routed n (samples ++ [data]) := by
  obtain ⟨head, hrouted, hfirst⟩ := h.head
  refine ⟨⟨head, hrouted, ?_⟩, ?_⟩
  · rw [List.head?_append, hfirst]
    rfl
  · rw [List.mem_append, List.mem_singleton, not_or]
    exact ⟨h.data, Ne.symm hdata⟩

theorem Opened.grow {routed : List (RequestHead Octet)} {n : Nat} {samples : List Octets}
    (h : Opened routed n samples) (head : RequestHead Octet) :
    Opened (routed ++ [head]) n samples := by
  obtain ⟨head', hrouted, hfirst⟩ := h.head
  refine ⟨⟨head', ?_, hfirst⟩, h.data⟩
  rw [List.getElem?_append_left (List.getElem?_eq_some_iff.mp hrouted).1]
  exact hrouted

theorem Shaped.grow {routed : List (RequestHead Octet)} {n : Nat} {samples : List Octets}
    (h : Shaped routed n samples) (head : RequestHead Octet) :
    Shaped (routed ++ [head]) n samples := by
  obtain hnil | hopened | ⟨data, hopened, hmarked⟩ := h
  · exact .inl hnil
  · exact .inr (.inl (hopened.grow head))
  · exact .inr (.inr ⟨data, hopened.grow head, hmarked⟩)

/-- The channels of the requests up to the running one. -/
structure ChannelInv (s : Multiroute P) : Prop where
  sourced : Sourced s
  count : s.log.routed.length = s.requestNum
  heads : ∀ head ∈ s.log.routed, head.raw ≠ []
  shaped : ∀ n, Shaped s.log.routed n (samplesFor n s.log.tx)
  ahead : ∀ n, s.requestNum < n → samplesFor n s.log.tx = []
  dispatch : s.phase.kind = .dispatch → samplesFor s.requestNum s.log.tx = [] ∧
    ∀ head, s.phase.head = some head → s.log.routed[s.requestNum - 1]? = some head
  live : s.phase.live → Opened s.log.routed s.requestNum (samplesFor s.requestNum s.log.tx)
  upward : ∀ c ∈ s.phase.upward, c ≠ []

theorem channelInv_init (P : HttpProxyParser Octet) : ChannelInv (init P) where
  sourced := nofun
  count := rfl
  heads := nofun
  shaped := fun _ => .inl rfl
  ahead := fun _ _ => rfl
  dispatch := nofun
  live := False.elim
  upward := nofun

/-- A step that publishes nothing keeps every channel as it is. -/
theorem ChannelInv.quiet (h : ChannelInv s) (sourced : Sourced s') (tx : s'.log.tx = s.log.tx)
    (same : SameRequest s s')
    (dispatch : s'.phase.kind = .dispatch → s.phase.kind = .dispatch ∧
      ∀ head, s'.phase.head = some head → s.phase.head = some head)
    (live : s'.phase.live → s.phase.live) (upward : ∀ c ∈ s'.phase.upward, c ≠ []) :
    ChannelInv s' := by
  obtain ⟨hnumber, hrouted⟩ := same
  refine ⟨sourced, ?_, ?_, ?_, ?_, ?_, ?_, upward⟩
  · rw [hnumber, hrouted]
    exact h.count
  · rw [hrouted]
    exact h.heads
  · rw [tx, hrouted]
    exact h.shaped
  · rw [tx, hnumber]
    exact h.ahead
  · intro hk
    obtain ⟨hbefore, hheads⟩ := dispatch hk
    obtain ⟨hnil, hhead⟩ := h.dispatch hbefore
    rw [tx, hnumber, hrouted]
    exact ⟨hnil, fun head hh => hhead head (hheads head hh)⟩
  · intro hlive
    rw [tx, hnumber, hrouted]
    exact h.live (live hlive)

/-- A sample for the running request leaves the other channels alone. -/
theorem ChannelInv.publish (h : ChannelInv s) (sourced : Sourced s') {data : Octets}
    (tx : s'.log.tx = s.log.tx ++ [(s.requestNum, data)]) (same : SameRequest s s')
    (shaped : Shaped s.log.routed s.requestNum (samplesFor s.requestNum s.log.tx ++ [data]))
    (dispatch : s'.phase.kind ≠ .dispatch)
    (live : s'.phase.live →
      Opened s.log.routed s.requestNum (samplesFor s.requestNum s.log.tx ++ [data]))
    (upward : ∀ c ∈ s'.phase.upward, c ≠ []) : ChannelInv s' := by
  obtain ⟨hnumber, hrouted⟩ := same
  refine ⟨sourced, ?_, ?_, ?_, ?_, fun hk => absurd hk dispatch, ?_, upward⟩
  · rw [hnumber, hrouted]
    exact h.count
  · rw [hrouted]
    exact h.heads
  · intro n
    rw [tx, hrouted]
    by_cases hn : s.requestNum = n
    · subst hn
      rw [samplesFor_snoc_self]
      exact shaped
    · rw [samplesFor_snoc_ne hn]
      exact h.shaped n
  · intro n hn
    rw [hnumber] at hn
    rw [tx, samplesFor_snoc_ne (Nat.ne_of_lt hn)]
    exact h.ahead n hn
  · intro hlive
    rw [tx, hnumber, hrouted, samplesFor_snoc_self]
    exact live hlive

/-- The next head opens no channel yet. -/
theorem ChannelInv.route (h : ChannelInv s) (sourced : Sourced s') {head : RequestHead Octet}
    (hhead : head.raw ≠ []) (after : s'.phase = .routing head) (tx : s'.log.tx = s.log.tx)
    (number : s'.requestNum = s.requestNum + 1) (routed : s'.log.routed = s.log.routed ++ [head]) :
    ChannelInv s' := by
  refine ⟨sourced, ?_, ?_, ?_, ?_, fun _ => ⟨?_, ?_⟩, ?_, ?_⟩
  · rw [routed, number, List.length_append, h.count]
    rfl
  · rw [routed]
    intro head' hmem
    obtain hold | hnew := List.mem_append.mp hmem
    · exact h.heads head' hold
    · rw [List.mem_singleton.mp hnew]
      exact hhead
  · intro n
    rw [tx, routed]
    exact (h.shaped n).grow head
  · intro n hn
    rw [tx]
    exact h.ahead n (by omega)
  · rw [tx, number]
    exact h.ahead _ (Nat.lt_succ_self _)
  · intro head' hh
    rw [after] at hh
    obtain rfl := Option.some.inj hh
    rw [routed, number, Nat.add_sub_cancel, ← h.count]
    exact List.getElem?_concat_length
  · rw [after]
    exact False.elim
  · rw [after]
    exact nofun

theorem ChannelInv.step (h : ChannelInv s) (hparts : PartsNonempty s'.log.drained)
    (hs : s.step cfg a = some s') : ChannelInv s' := by
  have hsourced := h.sourced.step hs
  have hbefore := hparts.mono (drained_grows hs)
  cases step_channels hs with
  | idles after tx same =>
      refine h.quiet hsourced tx same (fun hk => absurd hk after.not_dispatch)
        (fun hlive => absurd hlive after.not_live) ?_
      rw [MultiroutePhase.upward_eq_nil]
      · exact nofun
      · obtain hk | hk := after <;> rw [hk] <;> nofun
  | routes head queued after tx number routed =>
      have hhead := hbefore _ (h.sourced _ queued) rfl nofun
      exact h.route hsourced hhead after tx number routed
  | prepares before after heads tx same =>
      refine h.quiet hsourced tx same (fun _ => ⟨before, heads⟩) ?_ ?_
      · exact fun hlive => absurd after hlive.not_dispatch
      · rw [MultiroutePhase.upward_eq_nil (by rw [after]; nofun)]
        exact nofun
  | opens head dns before after tx same =>
      obtain ⟨hnil, hhead⟩ := h.dispatch (by rw [before]; rfl)
      have hrouted := hhead head (by rw [before]; rfl)
      have hopened : Opened s.log.routed s.requestNum
          (samplesFor s.requestNum s.log.tx ++ [head.raw]) := by
        rw [hnil]
        refine ⟨⟨head, hrouted, rfl⟩, ?_⟩
        rw [List.nil_append, List.mem_singleton]
        exact Ne.symm (h.heads head (List.mem_of_getElem? hrouted))
      refine h.publish hsourced tx same (.inr (.inl hopened)) ?_ (fun _ => hopened) ?_
      · rw [after]
        nofun
      · rw [after]
        exact nofun
  | carries before after upward tx same =>
      refine h.quiet hsourced tx same (fun hk => absurd hk after.not_dispatch) (fun _ => before) ?_
      intro c hc
      obtain hold | hne := upward c hc
      · exact h.upward c hold
      · exact hne
  | sends data before after source upward tx same =>
      have hdata : data ≠ [] := by
        obtain hchunk | ⟨e, hqueue, hside, hpart, rfl⟩ := source
        · exact h.upward data hchunk
        · exact hbefore e (h.sourced e hqueue) hside hpart
      have hopened := (h.live before).snoc hdata
      exact h.publish hsourced tx same (.inr (.inl hopened)) after.not_dispatch (fun _ => hopened)
        fun c hc => h.upward c (upward c hc)
  | marks before after tx same =>
      refine h.publish hsourced tx same (.inr (.inr ⟨_, h.live before, rfl⟩)) after.not_dispatch
        (fun hlive => absurd hlive after.not_live) ?_
      rw [MultiroutePhase.upward_eq_nil]
      · exact nofun
      · obtain hk | hk := after <;> rw [hk] <;> nofun

/-- The exchange of a request is over. -/
def Over (n : Nat) (s : Multiroute P) : Prop := n < s.requestNum ∨ s.phase.idle

theorem idle_or_dispatch_or_live (p : MultiroutePhase) :
    p.idle ∨ p.kind = .dispatch ∨ p.live := by
  cases p with
  | nextHead | nextHeadRead | consume | consumeEvents | consumeRead => exact .inl (.inl rfl)
  | closed => exact .inl (.inr rfl)
  | routing _ | setup _ _ | publishHead _ _ => exact .inr (.inl rfl)
  | _ => exact .inr (.inr trivial)

/-- The marker comes with the end of the exchange. -/
theorem ChannelInv.over_of_marker (h : ChannelInv s) {n : Nat} (hmarker : [] ∈ samplesFor n s.log.tx) :
    Over n s := by
  obtain hlt | rfl | hlt := Nat.lt_trichotomy n s.requestNum
  · exact .inl hlt
  · obtain hidle | hdispatch | hlive := idle_or_dispatch_or_live s.phase
    · exact .inr hidle
    · rw [(h.dispatch hdispatch).1] at hmarker
      cases hmarker
    · exact absurd hmarker (h.live hlive).data
  · rw [h.ahead n hlt] at hmarker
    cases hmarker

/-- The samples of a request as they are on the wire. -/
def channel (n : Nat) (s : Multiroute P) : List Bytes :=
  (samplesFor n s.log.tx).map fun data => data.map Octet.value

/-- The bytes published for a request as they are on the wire. -/
def request (n : Nat) (s : Multiroute P) : Bytes := (bytesFor n s.log.tx).map Octet.value

theorem flatten_channel (n : Nat) (s : Multiroute P) : (channel n s).flatten = request n s := by
  rw [channel, request, ← flatten_samplesFor, List.map_flatten]

/-- To its exporter a channel is a stream with an end. -/
structure Peer (n : Nat) (s : Multiroute P) (peer : TransportInput) : Prop where
  samples : peer.samples = channel n s
  bytes : peer.chunks.flatten = request n s
  clean : peer.ending = .clean → Over n s

theorem Opened.nonempty {routed : List (RequestHead Octet)} {n : Nat} {data : List Octets}
    (h : Opened routed n data) : ∀ c ∈ data.map fun d => d.map Octet.value, c ≠ [] := by
  intro c hc hnil
  obtain ⟨d, hd, rfl⟩ := List.mem_map.mp hc
  exact h.data (List.map_eq_nil_iff.mp hnil ▸ hd)

theorem ChannelInv.peer (h : ChannelInv s) (n : Nat) : ∃ peer, Peer n s peer := by
  obtain hnil | hopened | ⟨data, hopened, hmarked⟩ := h.shaped n
  · refine ⟨.tcp ⟨[], .failed, nofun⟩, ?_, ?_, nofun⟩
    · rw [channel, hnil]
      rfl
    · rw [request, ← flatten_samplesFor, hnil]
      rfl
  · refine ⟨.tcp ⟨channel n s, .failed, hopened.nonempty⟩, ?_, flatten_channel n s, nofun⟩
    exact List.append_nil _
  · have hchannel : channel n s = (data.map fun d => d.map Octet.value) ++ [[]] := by
      rw [channel, hmarked, List.map_append]
      rfl
    refine ⟨.tcp ⟨_, .clean, hopened.nonempty⟩, hchannel.symm, ?_, fun _ => h.over_of_marker ?_⟩
    · rw [← flatten_channel, hchannel, List.flatten_append]
      exact (List.append_nil _).symm
    · rw [hmarked]
      exact List.mem_append_right _ List.mem_cons_self

/-- What an exporter's relay has handed to the socket of its backend. -/
def backendBytes (r : Relay) : Bytes := (r.handed.map Sample.payload).flatten

/-- What the backend of a request has got of it. -/
structure Delivers (s : Multiroute P) (n : Nat) (r : Relay) : Prop where
  /-- It begins with the head that was routed under this number. -/
  head : ∀ first, (r.handed.map Sample.payload).head? = some first →
    ∃ head, s.log.routed[n - 1]? = some head ∧ first = head.raw.map Octet.value
  part : backendBytes r <+: request n s
  /-- All of it belongs to the n-th request of the client. -/
  own : s.exchange.switched = false → Framed s.log.drained →
    backendBytes r <+: (bytesFor n (numbered 0 s.log.drained)).map Octet.value
  /-- It is told the end when it has everything and the exchange is over. -/
  halfClose : r.closes = [] ∨ r.closes = [.sendEof] ∧ backendBytes r = request n s ∧ Over n s
  whole : r.sent = channel n s → Duplex.Settled r → backendBytes r = request n s

theorem channel_head (h : ChannelInv s) {n : Nat} {first : Bytes}
    (hfirst : (channel n s).head? = some first) :
    ∃ head, s.log.routed[n - 1]? = some head ∧ first = head.raw.map Octet.value := by
  have hopens : ∀ data, Opened s.log.routed n data → samplesFor n s.log.tx <+: data ++ [[]] →
      ∃ head, s.log.routed[n - 1]? = some head ∧ first = head.raw.map Octet.value := by
    intro data hopened hpre
    obtain ⟨head, hrouted, hhead⟩ := hopened.head
    refine ⟨head, hrouted, ?_⟩
    rw [channel, List.head?_map, Option.map_eq_some_iff] at hfirst
    obtain ⟨d, hd, rfl⟩ := hfirst
    obtain ⟨later, hlater⟩ := hpre
    have hboth : (data ++ [[]]).head? = some d := by
      rw [← hlater, List.head?_append, hd]
      rfl
    rw [List.head?_append, hhead] at hboth
    obtain rfl := Option.some.inj hboth
    rfl
  obtain hnil | hopened | ⟨data, hopened, hmarked⟩ := h.shaped n
  · rw [channel, hnil] at hfirst
    cases hfirst
  · exact hopens _ hopened (List.prefix_append _ _)
  · exact hopens data hopened (hmarked ▸ List.prefix_rfl)

theorem ChannelInv.delivers (h : ChannelInv s) (requests : RequestInv s) {n : Nat} {r : Relay}
    (receives : Duplex.Receives r) (sent : r.sent <+: channel n s) : Delivers s n r := by
  obtain ⟨peer, hpeer⟩ := h.peer n
  obtain ⟨hpart, hclose⟩ := receives.part (hpeer.samples ▸ sent)
  have hpre : backendBytes r <+: request n s := by
    rw [← hpeer.bytes]
    obtain ⟨later, hlater⟩ := hpart
    rw [← hlater, List.flatten_append]
    exact List.prefix_append _ _
  refine ⟨?_, hpre, ?_, ?_, ?_⟩
  · intro first hfirst
    apply channel_head h
    obtain ⟨later, hlater⟩ := hpart
    rw [← hpeer.samples, TransportInput.samples, ← hlater, List.append_assoc, List.head?_append,
      hfirst]
    rfl
  · intro hplain hframed
    obtain ⟨consumed, waiting, stage, hledger⟩ := requests.balanced hplain hframed
    obtain ⟨-, -, hattributed⟩ := hledger.attributed hframed hplain
    exact hpre.trans ((hattributed n).1.map Octet.value)
  · obtain hsilent | ⟨heof, hall, hclean⟩ := hclose
    · exact .inl hsilent
    · refine .inr ⟨heof, ?_, hpeer.clean hclean⟩
      rw [backendBytes, hall, hpeer.bytes]
  · intro hsent hsettled
    have hall := (receives.whole (hsent.trans hpeer.samples.symm) hsettled).1
    rw [backendBytes, hall, hpeer.bytes]

/-- What holds as long as the parts reported so far are not empty. -/
def Channelled (s : Multiroute P) : Prop := PartsNonempty s.log.drained → ChannelInv s

theorem Channelled.step (h : Channelled s) (hs : s.step cfg a = some s') : Channelled s' :=
  fun hparts => (h (hparts.mono (drained_grows hs))).step hparts hs

/-- A request is delivered to the backend that serves it. In every run of a connection and in
every run of the exporter that has the channel of its n-th request, however far either has
come, the backend has got a prefix of what was published for this request, beginning with its
head and with nothing of another request, and is half-closed only over the whole of it. -/
theorem requests_delivered (cfg : MultirouteConfig) (P : HttpProxyParser Octet)
    {schedule : List MultirouteAction} {s : Multiroute P}
    (run : exec (step cfg) (init P) schedule = some s) (parts : PartsNonempty s.log.drained)
    (n : Nat) (relay : RelayConfig) (backend : TransportInput) {exporter : List RelayAction}
    {d : Duplex} (relayed : exec (Duplex.step relay) (Duplex.start relay backend) exporter = some d)
    (faultless : ∀ a ∈ exporter, ¬ a.faultsReceiver) (unrefused : d.relay.refused = [])
    (sent : d.relay.sent <+: channel n s) : Delivers s n d.relay := by
  have hchannels : Channelled s :=
    exec_invariant (fun _ _ _ h hs => h.step hs) (fun _ => channelInv_init P) run
  have hrequests : RequestInv s :=
    exec_invariant (fun _ _ _ h hs => h.step hs) (requestInv_init P) run
  exact (hchannels parts).delivers hrequests (Duplex.receives_of_run relayed faultless unrefused)
    sent

/-- Two requests come in one read. The exporter of the first one hands its head to the
backend and half-closes it. -/
theorem requests_delivered_when_pipelined :
    let first := wire "GET / HTTP/1.1\r\nHost:a\r\n\r\n"
    let schedule : List MultirouteAction :=
      [.tick, .read (first ++ wire "GET / HTTP/1.1\r\nHost:b\r\n\r\n"),
        .tick, .route (.ok "a") .host, .setupDone true, .publish true,
        .tick, .tick, .tick, .tick, .tick, .sample (wire "HTTP/1.1 204 \r\n\r\n"),
        .tick, .tick, .tick, .write true, .tick, .publish true]
    let exporter : List RelayAction :=
      [.deliver first, .recv, .writeDone true, .deliver [], .recv, .closeDone true]
    ∃ (s : Multiroute (headParser 64)) (d : Duplex),
      exec (step ⟨64, 64⟩) (init (headParser 64)) schedule = some s ∧
      exec (Duplex.step ⟨4, .stream, .exporting⟩)
        (Duplex.start ⟨4, .stream, .exporting⟩ (.tcp ⟨[], .clean, nofun⟩)) exporter = some d ∧
      backendBytes d.relay = first ∧ d.relay.closes = [.sendEof] ∧ Delivers s 1 d.relay := by
  intro first schedule exporter
  have himporter : (exec (step ⟨64, 64⟩) (init (headParser 64)) schedule).map
      (fun s => (s.log.drained.all fun e => e.side ≠ some .initiator ∨
        e = .endMessage .initiator ∨ e.raw ≠ [], channel 1 s)) = some (true, [first, []]) := by
    decide +kernel
  obtain ⟨s, run, hs⟩ := Option.map_eq_some_iff.mp himporter
  obtain ⟨hparts, hchannel⟩ := Prod.mk.inj hs
  obtain ⟨d, relayed, hbytes, hcloses, hsent, hrefused⟩ : ∃ d,
      exec (Duplex.step ⟨4, .stream, .exporting⟩)
        (Duplex.start ⟨4, .stream, .exporting⟩ (.tcp ⟨[], .clean, nofun⟩)) exporter = some d ∧
      backendBytes d.relay = first ∧ d.relay.closes = [.sendEof] ∧
      d.relay.sent = [first, []] ∧ d.relay.refused = [] :=
    ⟨_, rfl, rfl, rfl, rfl, rfl⟩
  have hnonempty : PartsNonempty s.log.drained := by
    intro e he hside hpart
    have h := List.all_eq_true.mp hparts e he
    simp only [decide_eq_true_eq] at h
    exact (h.resolve_left (not_not.mpr hside)).resolve_left hpart
  have hfaultless : ∀ a ∈ exporter, ¬ a.faultsReceiver := by
    simp [exporter, RelayAction.faultsReceiver]
  have hpublished : d.relay.sent <+: channel 1 s :=
    (hsent.trans hchannel.symm) ▸ List.prefix_rfl
  exact ⟨s, d, run, relayed, hbytes, hcloses,
    requests_delivered _ _ run hnonempty 1 _ _ relayed hfaultless hrefused hpublished⟩

end Multiroute

end ZenohBridge
