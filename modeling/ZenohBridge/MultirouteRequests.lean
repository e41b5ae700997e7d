import ZenohBridge.MultirouteStreams
import ZenohBridge.RequestMessages

/-!
# The requests of a multiroute connection

One event queue holds the events of several pipelined requests. `next_request_head` takes
the heads from it, `run_exchange` the rest of its own request, and what is left of a
request that was answered early or refused is thrown away on the way to the next head.
Nothing in the queue says to which request an event belongs: the handler relies on the
order of the events alone.

The invariant cuts the request events drained so far into those consumed and those that
wait in the queue. The consumed ones account for every head routed and every byte
published, and the stage they end in says whether the last request is still open.
-/

namespace ZenohBridge

open Execution

/-- What the connection did with the requests. -/
structure Account where
  number : Nat
  routed : List (RequestHead Octet)
  tx : List (Nat × Octets)
  sentWhole : List Nat

/-- No later event belongs to request `k` when the last request is `n`. -/
def MessageOver (n : Nat) (stage : RequestStage) (k : Nat) : Prop :=
  k < n ∨ (k = n ∧ stage = .between)

/-- The consumed request events account for what was routed and published. -/
structure Books (acc : Account) (consumed : List (HttpEvent Octet)) (stage : RequestStage) :
    Prop where
  framed : RequestStage.between.run consumed = some stage
  routed : acc.routed = requestHeads consumed
  number : acc.number = (requestHeads consumed).length
  sent : ∀ k, bytesFor k acc.tx <+: bytesFor k (numbered 0 consumed)
  whole : ∀ k ∈ acc.sentWhole, bytesFor k acc.tx = bytesFor k (numbered 0 consumed) ∧
    MessageOver acc.number stage k

/-- The last request is open and everything consumed of it was published. -/
def Serving (acc : Account) (consumed : List (HttpEvent Octet)) (stage : RequestStage) : Prop :=
  stage ≠ .between ∧
    bytesFor acc.number acc.tx = bytesFor acc.number (numbered 0 consumed)

/-- The last request is its head alone and nothing of it was published. -/
def Dispatched (acc : Account) (consumed : List (HttpEvent Octet)) (stage : RequestStage)
    (head : RequestHead Octet) : Prop :=
  stage = .body ∧ bytesFor acc.number acc.tx = [] ∧
    bytesFor acc.number (numbered 0 consumed) = head.raw

section Books

variable {acc : Account} {consumed waiting : List (HttpEvent Octet)}
  {stage stage' : RequestStage} {e : HttpEvent Octet} {head : RequestHead Octet}

theorem books_nil : Books ⟨0, [], [], []⟩ [] .between where
  framed := rfl
  routed := rfl
  number := rfl
  sent := fun _ => List.prefix_rfl
  whole := nofun

theorem bytesFor_of_messageOver {n k : Nat} (h : MessageOver n stage k)
    (hrun : stage.run waiting = some stage') : bytesFor k (numbered n waiting) = [] := by
  rcases h with hlt | ⟨rfl, rfl⟩
  · exact bytesFor_numbered_of_lt hlt waiting
  · exact RequestStage.bytesFor_of_between hrun

/-- What waits comes after what was consumed. -/
theorem Books.bytes_append (h : Books acc consumed stage) (k : Nat)
    (waiting : List (HttpEvent Octet)) :
    bytesFor k (numbered 0 (consumed ++ waiting)) =
      bytesFor k (numbered 0 consumed) ++ bytesFor k (numbered acc.number waiting) := by
  rw [numbered_append, Nat.zero_add, ← h.number, bytesFor_append]

theorem Books.framed_snoc (h : Books acc consumed stage) (hnext : stage.next e = some stage') :
    RequestStage.between.run (consumed ++ [e]) = some stage' := by
  rw [RequestStage.run_append, h.framed]
  change stage.run [e] = some stage'
  rw [RequestStage.run, hnext]
  rfl

/-- A request without a head has no bytes, and nothing was published for it. -/
theorem Books.unsent (h : Books acc consumed stage) :
    bytesFor (acc.number + 1) (numbered 0 consumed) = [] ∧
      bytesFor (acc.number + 1) acc.tx = [] := by
  have hgt : 0 + (requestHeads consumed).length < acc.number + 1 := by
    rw [h.number]
    omega
  have hnone := bytesFor_numbered_of_gt hgt
  have hsent := h.sent (acc.number + 1)
  rw [hnone] at hsent
  exact ⟨hnone, List.prefix_nil.mp hsent⟩

/-- The next head is routed. -/
theorem Books.route (h : Books acc consumed stage)
    (hnext : stage.next (.requestHead head) = some stage') :
    Books { acc with number := acc.number + 1, routed := acc.routed ++ [head] }
      (consumed ++ [.requestHead head]) stage' where
  framed := h.framed_snoc hnext
  routed := by
    change acc.routed ++ [head] = _
    rw [requestHeads_append, h.routed]
    rfl
  number := by
    rw [requestHeads_append, List.length_append, ← h.number]
    rfl
  sent := by
    intro k
    rw [h.bytes_append]
    exact (h.sent k).trans (List.prefix_append _ _)
  whole := by
    intro k hk
    obtain ⟨hwhole, hover⟩ := h.whole k hk
    have hle : k ≤ acc.number := by
      rcases hover with hlt | ⟨heq, -⟩ <;> omega
    refine ⟨?_, .inl (Nat.lt_succ_of_le hle)⟩
    rw [h.bytes_append, numbered, bytesFor_cons_ne (by omega)]
    exact hwhole.trans (List.append_nil _).symm

theorem Books.dispatched (h : Books acc consumed stage)
    (hnext : stage.next (.requestHead head) = some stage') :
    Dispatched { acc with number := acc.number + 1, routed := acc.routed ++ [head] }
      (consumed ++ [.requestHead head]) stage' head := by
  obtain ⟨hnone, hunsent⟩ := h.unsent
  refine ⟨(RequestStage.next_requestHead hnext).2, hunsent, ?_⟩
  rw [h.bytes_append, hnone, numbered, bytesFor_cons_self]
  exact List.append_nil _

theorem bytesFor_publish (acc : Account) (raw : Octets) :
    bytesFor acc.number (acc.tx ++ [(acc.number, raw)]) = bytesFor acc.number acc.tx ++ raw := by
  rw [bytesFor_append, bytesFor_cons_self, bytesFor_nil, List.append_nil]

/-- Bytes of the last request are published while it is open. -/
theorem Books.publish {raw : Octets} {consumed' : List (HttpEvent Octet)}
    (h : Books acc consumed stage) (hopen : stage ≠ .between)
    (framed : RequestStage.between.run consumed' = some stage')
    (heads : requestHeads consumed' = requestHeads consumed)
    (now : bytesFor acc.number acc.tx ++ raw = bytesFor acc.number (numbered 0 consumed'))
    (others : ∀ k, acc.number ≠ k →
      bytesFor k (numbered 0 consumed') = bytesFor k (numbered 0 consumed)) :
    Books { acc with tx := acc.tx ++ [(acc.number, raw)] } consumed' stage' := by
  have hother : ∀ k, acc.number ≠ k →
      bytesFor k (acc.tx ++ [(acc.number, raw)]) = bytesFor k acc.tx := by
    intro k hne
    rw [bytesFor_append, bytesFor_cons_ne hne]
    exact List.append_nil _
  refine ⟨framed, h.routed.trans heads.symm, heads ▸ h.number, ?_, ?_⟩
  · intro k
    by_cases hk : acc.number = k
    · subst hk
      have hnow := (bytesFor_publish acc raw).trans now
      exact hnow ▸ List.prefix_rfl
    · rw [hother k hk, others k hk]
      exact h.sent k
  · intro k hk
    obtain ⟨hwhole, hover⟩ := h.whole k hk
    rcases hover with hlt | ⟨-, hstage⟩
    · have hne := Nat.ne_of_gt hlt
      exact ⟨by rw [hother k hne, others k hne, hwhole], .inl hlt⟩
    · contradiction

/-- The head of the last request is published. -/
theorem Books.publishHead (h : Books acc consumed stage)
    (hd : Dispatched acc consumed stage head) :
    Books { acc with tx := acc.tx ++ [(acc.number, head.raw)] } consumed stage ∧
      Serving { acc with tx := acc.tx ++ [(acc.number, head.raw)] } consumed stage := by
  obtain ⟨rfl, hunsent, hhead⟩ := hd
  have hnow : bytesFor acc.number acc.tx ++ head.raw =
      bytesFor acc.number (numbered 0 consumed) := by
    rw [hunsent, hhead, List.nil_append]
  refine ⟨h.publish nofun h.framed rfl hnow fun _ _ => rfl, nofun, ?_⟩
  exact (bytesFor_publish acc head.raw).trans hnow

/-- An event that is no head belongs to the last request. -/
theorem Books.bytes_snoc (h : Books acc consumed stage)
    (hhead : ∀ head, e ≠ .requestHead head) (k : Nat) :
    bytesFor k (numbered 0 (consumed ++ [e])) = bytesFor k (numbered 0 consumed) ++
      if acc.number = k then e.rawOn .initiator else [] := by
  rw [h.bytes_append, numbered_cons hhead, bytesFor_cons]
  exact congrArg _ (List.append_nil _)

/-- Body or trailer bytes of the last request are published. -/
theorem Books.publishEvent {raw : Octets} (h : Books acc consumed stage)
    (hs : Serving acc consumed stage)
    (he : e = .body .initiator raw ∨ e = .trailers .initiator raw)
    (hnext : stage.next e = some stage') :
    Books { acc with tx := acc.tx ++ [(acc.number, raw)] } (consumed ++ [e]) stage' ∧
      Serving { acc with tx := acc.tx ++ [(acc.number, raw)] } (consumed ++ [e]) stage' := by
  have hhead : ∀ head, e ≠ .requestHead head := by
    rcases he with rfl | rfl <;> exact fun _ => nofun
  have hraw : e.rawOn .initiator = raw := by
    rcases he with rfl | rfl <;> rfl
  have hnow : bytesFor acc.number acc.tx ++ raw =
      bytesFor acc.number (numbered 0 (consumed ++ [e])) := by
    rw [h.bytes_snoc hhead, if_pos rfl, hraw, hs.2]
  have hothers : ∀ k, acc.number ≠ k →
      bytesFor k (numbered 0 (consumed ++ [e])) = bytesFor k (numbered 0 consumed) := by
    intro k hne
    rw [h.bytes_snoc hhead, if_neg hne, List.append_nil]
  refine ⟨h.publish hs.1 (h.framed_snoc hnext) (requestHeads_snoc hhead consumed) hnow hothers,
    RequestStage.next_ne_between he hnext, ?_⟩
  exact (bytesFor_publish acc raw).trans hnow

/-- An event of the last request is thrown away. -/
theorem Books.skip (h : Books acc consumed stage) (hhead : ∀ head, e ≠ .requestHead head)
    (hside : e.side = some .initiator) (hnext : stage.next e = some stage') :
    Books acc (consumed ++ [e]) stage' where
  framed := h.framed_snoc hnext
  routed := h.routed.trans (requestHeads_snoc hhead consumed).symm
  number := by rw [requestHeads_snoc hhead, h.number]
  sent := by
    intro k
    rw [h.bytes_snoc hhead]
    exact (h.sent k).trans (List.prefix_append _ _)
  whole := by
    intro k hk
    obtain ⟨hwhole, hover⟩ := h.whole k hk
    rcases hover with hlt | ⟨-, rfl⟩
    · rw [h.bytes_snoc hhead, if_neg (Nat.ne_of_gt hlt), List.append_nil]
      exact ⟨hwhole, .inl hlt⟩
    · exact absurd hside (RequestStage.side_of_next_between hnext hhead)

/-- The last request ends with everything published. -/
theorem Books.finish (h : Books acc consumed stage) (hs : Serving acc consumed stage)
    (hnext : stage.next (.endMessage .initiator : HttpEvent Octet) = some stage') :
    Books { acc with sentWhole := acc.sentWhole ++ [acc.number] }
      (consumed ++ [.endMessage .initiator]) stage' := by
  have hhead : ∀ head, (.endMessage .initiator : HttpEvent Octet) ≠ .requestHead head :=
    fun _ => nofun
  have hskip := h.skip hhead rfl hnext
  refine ⟨hskip.framed, hskip.routed, hskip.number, hskip.sent, ?_⟩
  intro k hk
  rcases List.mem_append.mp hk with hk | hk
  · exact hskip.whole k hk
  · obtain rfl := List.mem_singleton.mp hk
    refine ⟨?_, .inr ⟨rfl, RequestStage.next_endMessage hnext⟩⟩
    rw [h.bytes_snoc hhead, if_pos rfl]
    exact hs.2.trans (List.append_nil _).symm

/-- The EOF marker of a teardown carries no bytes. -/
theorem Books.mark (h : Books acc consumed stage) {marker : List (Nat × Octets)}
    (hempty : ∀ m ∈ marker, m.2 = []) :
    Books { acc with tx := acc.tx ++ marker } consumed stage := by
  have hbytes : ∀ k, bytesFor k (acc.tx ++ marker) = bytesFor k acc.tx := by
    intro k
    have hnil : bytesFor k marker = [] := by
      apply List.flatMap_eq_nil_iff.mpr
      intro m hm
      rw [hempty m hm, ite_self]
    rw [bytesFor_append, hnil, List.append_nil]
  refine ⟨h.framed, h.routed, h.number, fun k => ?_, fun k hk => ?_⟩
  · rw [hbytes]
    exact h.sent k
  · rw [hbytes]
    exact h.whole k hk

end Books

namespace Multiroute

variable {P : HttpProxyParser Octet} {cfg : MultirouteConfig} {s s' : Multiroute P}
  {a : MultirouteAction}

def account (s : Multiroute P) : Account :=
  ⟨s.requestNum, s.log.routed, s.log.tx, s.log.sentWhole⟩

/-- As long as the protocol was not switched, the heads routed are the first request heads
of the connection, with none skipped among those that do not wait in the queue, and what
was published for a request is a prefix of its bytes, all of them once its exchange
processed its end. -/
def Attributed (s : Multiroute P) : Prop :=
  s.exchange.switched = false →
    s.log.routed <+: requestHeads s.log.drained ∧
    (s.phase ≠ .closed → s.log.routed ++ requestHeads s.queue = requestHeads s.log.drained) ∧
    ∀ k, bytesFor k s.log.tx <+: bytesFor k (numbered 0 s.log.drained) ∧
      (k ∈ s.log.sentWhole → bytesFor k s.log.tx = bytesFor k (numbered 0 s.log.drained))

/-- The request events drained so far are consumed or wait in the queue, and the consumed
ones account for what was done. -/
structure Ledger (s : Multiroute P) (consumed waiting : List (HttpEvent Octet))
    (stage : RequestStage) : Prop where
  books : Books s.account consumed stage
  drained : initiated s.log.drained = consumed ++ waiting
  queued : s.phase ≠ .closed → initiated s.queue = waiting
  dispatch : ∀ head, s.phase.head = some head → Dispatched s.account consumed stage head
  -- before the end of its request an exchange carries nothing aside
  serving : s.phase.kind = .running → s.exchange.requestDone = false →
    s.phase.carry = [] ∧ Serving s.account consumed stage

variable {consumed waiting : List (HttpEvent Octet)}
  {stage stage' : RequestStage} {e : HttpEvent Octet}

theorem ledger_init (P : HttpProxyParser Octet) : Ledger (init P) [] [] .between where
  books := books_nil
  drained := rfl
  queued := fun _ => rfl
  dispatch := nofun
  serving := nofun

theorem Ledger.attributed (h : Ledger s consumed waiting stage) (framed : Framed s.log.drained) :
    s.Attributed := by
  intro _
  obtain ⟨stage', hahead⟩ := framed.run_of_append h.drained h.books.framed
  have hheads : requestHeads s.log.drained = s.log.routed ++ requestHeads waiting :=
    calc requestHeads s.log.drained
      _ = requestHeads (initiated s.log.drained) := (requestHeads_initiated _).symm
      _ = requestHeads consumed ++ requestHeads waiting := by rw [h.drained, requestHeads_append]
      _ = s.log.routed ++ requestHeads waiting := congrArg (· ++ _) h.books.routed.symm
  have hbytes : ∀ k, bytesFor k (numbered 0 s.log.drained) =
      bytesFor k (numbered 0 consumed) ++ bytesFor k (numbered s.account.number waiting) := by
    intro k
    calc bytesFor k (numbered 0 s.log.drained)
      _ = bytesFor k (numbered 0 (initiated s.log.drained)) := (bytesFor_initiated k 0 _).symm
      _ = bytesFor k (numbered 0 (consumed ++ waiting)) := by rw [h.drained]
      _ = _ := h.books.bytes_append k waiting
  refine ⟨hheads ▸ List.prefix_append _ _, ?_, ?_⟩
  · intro hopen
    rw [hheads, ← h.queued hopen, requestHeads_initiated]
  · intro k
    rw [hbytes]
    refine ⟨(h.books.sent k).trans (List.prefix_append _ _), fun hk => ?_⟩
    obtain ⟨hwhole, hover⟩ := h.books.whole k hk
    rw [bytesFor_of_messageOver hover hahead, List.append_nil]
    exact hwhole

/-- A step that handles no request event. -/
theorem Ledger.quiet (h : Ledger s consumed waiting stage) (haccount : s'.account = s.account)
    (hdrained : s'.log.drained = s.log.drained)
    (hqueue : s'.phase ≠ .closed → s.phase ≠ .closed ∧ initiated s'.queue = initiated s.queue)
    (hheads : ∀ head, s'.phase.head = some head → s.phase.head = some head)
    (hserving : s'.phase.kind = .running → s'.exchange.requestDone = false →
      s.phase.kind = .running ∧ s.exchange.requestDone = false ∧ s'.phase.carry = []) :
    Ledger s' consumed waiting stage where
  books := haccount ▸ h.books
  drained := hdrained ▸ h.drained
  queued := by
    intro hopen
    obtain ⟨hbefore, hsame⟩ := hqueue hopen
    exact hsame.trans (h.queued hbefore)
  dispatch := fun head hhead => haccount ▸ h.dispatch head (hheads head hhead)
  serving := by
    intro hkind hdone
    obtain ⟨hbefore, hbeforeDone, hcarry⟩ := hserving hkind hdone
    exact ⟨hcarry, haccount ▸ (h.serving hbefore hbeforeDone).2⟩

/-- A drain of the parser puts its request events behind those that wait. -/
theorem Ledger.feed (h : Ledger s consumed waiting stage) {events : List (HttpEvent Octet)}
    (haccount : s'.account = s.account) (hdrained : s'.log.drained = s.log.drained ++ events)
    (hevents : s'.events = s.events ++ events) (hphase : s'.phase = s.phase)
    (hdone : s'.exchange.requestDone = s.exchange.requestDone) :
    Ledger s' consumed (waiting ++ initiated events) stage where
  books := haccount ▸ h.books
  drained := by rw [hdrained, initiated_append, h.drained, List.append_assoc]
  queued := by
    intro hopen
    rw [hphase] at hopen
    rw [queue, hphase, hevents, ← List.append_assoc, initiated_append, ← h.queued hopen]
    rfl
  dispatch := by
    rw [hphase, haccount]
    exact h.dispatch
  serving := by
    rw [hphase, haccount, hdone]
    exact h.serving

theorem Ledger.feedClient (h : Ledger s consumed waiting stage) (bytes : Octets) :
    ∃ waiting, Ledger (s.feedClient bytes) consumed waiting stage :=
  ⟨_, h.feed rfl rfl rfl rfl rfl⟩

theorem Ledger.feedResponse (h : Ledger s consumed waiting stage) (bytes : Octets) :
    ∃ waiting, Ledger (s.feedResponse bytes) consumed waiting stage :=
  ⟨_, h.feed rfl rfl rfl rfl rfl⟩

theorem Ledger.finClient (h : Ledger s consumed waiting stage) :
    ∃ waiting, Ledger s.finClient consumed waiting stage :=
  ⟨_, h.feed rfl rfl rfl rfl rfl⟩

theorem Ledger.finResponse (h : Ledger s consumed waiting stage) :
    ∃ waiting, Ledger s.finResponse consumed waiting stage :=
  ⟨_, h.feed rfl rfl rfl rfl rfl⟩

theorem Settles.account (h : Settles s s') : s'.account = s.account := by
  obtain ⟨p, o, k, e, r, rfl⟩ := h
  rfl

/-- A move of the control state that keeps the queue. -/
theorem Ledger.settles (h : Ledger s consumed waiting stage) (hs : Settles s s')
    (hqueue : s'.phase ≠ .closed → s.phase ≠ .closed ∧ s'.queue = s.queue)
    (hheads : ∀ head, s'.phase.head = some head → s.phase.head = some head)
    (hrunning : s'.phase.kind = .running → s.phase.kind = .running ∧ s'.phase.carry = []) :
    Ledger s' consumed waiting stage := by
  refine h.quiet hs.account hs.settled.drained ?_ hheads ?_
  · intro hopen
    obtain ⟨hbefore, hsame⟩ := hqueue hopen
    exact ⟨hbefore, congrArg initiated hsame⟩
  · intro hkind hopen
    obtain ⟨hbefore, hcarry⟩ := hrunning hkind
    exact ⟨hbefore, hs.settled.requestDone ▸ hopen, hcarry⟩

theorem head_eq_none {p : MultiroutePhase} (h : p.kind ≠ .dispatch) : p.head = none := by
  cases p with
  | routing | setup | publishHead => exact absurd rfl h
  | _ => rfl

/-- The handler leaves the parser for a loop outside of an exchange, or for good. -/
theorem Ledger.rest (h : Ledger s consumed waiting stage) (hs : Settles s s')
    (hopen : s.phase ≠ .closed) (hcarry : s.phase.carry = [])
    (target : s'.phase.kind = .between ∨ s'.phase = .closed) :
    Ledger s' consumed waiting stage := by
  have hkind : s'.phase.kind ≠ .running ∧ s'.phase.kind ≠ .dispatch := by
    rcases target with ht | ht <;> rw [ht] <;> decide
  have hnil := carry_eq_nil hkind.1
  refine h.settles hs (fun _ => ⟨hopen, hs.queue hcarry hnil⟩) ?_ fun hk => absurd hk hkind.1
  intro head hhead
  rw [head_eq_none hkind.2] at hhead
  contradiction

/-- An arm of the `select!` goes back to the top of the exchange loop. -/
theorem Ledger.loop (h : Ledger s consumed waiting stage) (hs : Settles s s')
    (phase : s.phase = .select) (target : s'.phase = .exchange) :
    Ledger s' consumed waiting stage := by
  have hnil : s'.phase.carry = [] := by rw [target]; rfl
  refine h.settles hs (fun _ => ⟨?_, hs.queue ?_ hnil⟩) ?_ fun _ => ⟨?_, hnil⟩
  · rw [phase]
    nofun
  · rw [phase]
    rfl
  · rw [target]
    exact nofun
  · rw [phase]
    rfl

theorem carry_of_reading {p : MultiroutePhase} (h : p.reading ∨ p = .select) : p.carry = [] := by
  rcases h with hp | rfl
  · cases p with
    | nextHeadRead | consumeRead => rfl
    | _ => exact hp.elim
  · rfl

/-- The next request event is consumed. -/
theorem Ledger.next (h : Ledger s consumed waiting stage) (framed : Framed s.log.drained)
    (hopen : s.phase ≠ .closed) {rest : List (HttpEvent Octet)}
    (hqueue : initiated s.queue = e :: rest) :
    ∃ stage', stage.next e = some stage' ∧
      initiated s.log.drained = (consumed ++ [e]) ++ rest := by
  have hwaiting := (h.queued hopen).symm.trans hqueue
  obtain ⟨_, hahead⟩ := framed.run_of_append h.drained h.books.framed
  rw [hwaiting] at hahead
  obtain ⟨stage', hnext, -⟩ := RequestStage.run_cons hahead
  refine ⟨stage', hnext, ?_⟩
  rw [h.drained, hwaiting, List.append_assoc]
  rfl

/-- The accounts of the connection balance. -/
def Balanced (s : Multiroute P) : Prop :=
  ∃ consumed waiting stage, Ledger s consumed waiting stage

theorem Balanced.routed (h : Balanced s) (framed : Framed s.log.drained) {head : RequestHead Octet}
    {rest : List (HttpEvent Octet)} (phase : s.phase = .nextHead)
    (events : s.events = .requestHead head :: rest) :
    Balanced { s with
      phase := .routing head
      events := rest
      requestNum := s.requestNum + 1
      log := { s.log with routed := s.log.routed ++ [head] } } := by
  obtain ⟨consumed, waiting, stage, h⟩ := h
  have hopen : s.phase ≠ .closed := by rw [phase]; rintro ⟨⟩
  have hqueue : initiated s.queue = .requestHead head :: initiated rest := by
    rw [queue_of_phase phase, events]
    exact initiated_cons rfl rest
  obtain ⟨stage', hnext, hdrained⟩ := h.next framed hopen hqueue
  refine ⟨consumed ++ [HttpEvent.requestHead head], initiated rest, stage', h.books.route hnext,
    hdrained, fun _ => rfl, ?_, by rintro ⟨⟩⟩
  intro head' hhead
  obtain rfl := Option.some.inj hhead
  exact h.books.dispatched hnext

theorem Balanced.discarded (h : Balanced s) (framed : Framed s.log.drained)
    {rest : List (HttpEvent Octet)} {phase : MultiroutePhase}
    (kind : s.phase.kind = .between) (events : s.events = e :: rest)
    (stray : ∀ head, e ≠ .requestHead head) (target : phase = .nextHead ∨ phase = .consumeEvents) :
    Balanced { s with phase := phase, events := rest } := by
  obtain ⟨consumed, waiting, stage, h⟩ := h
  have hopen : s.phase ≠ .closed := by
    intro hclosed
    rw [hclosed] at kind
    contradiction
  have hcarry : s.phase.carry = [] := carry_eq_nil (by rw [kind]; decide)
  have hland : phase.carry = [] ∧ phase.head = none ∧ phase.kind ≠ .running := by
    rcases target with rfl | rfl <;> exact ⟨rfl, rfl, nofun⟩
  obtain ⟨hnil, hnone, hkind⟩ := hland
  have hrest : queue { s with phase := phase, events := rest } = rest := by
    rw [queue, hnil]
    rfl
  have hheads : ∀ head, phase.head ≠ some head := by
    intro head hhead
    rw [hnone] at hhead
    contradiction
  by_cases hside : e.side = some .initiator
  · have hqueue : initiated s.queue = e :: initiated rest := by
      rw [queue, hcarry, events]
      exact initiated_cons hside rest
    obtain ⟨stage', hnext, hdrained⟩ := h.next framed hopen hqueue
    exact ⟨consumed ++ [e], initiated rest, stage', h.books.skip stray hside hnext, hdrained,
      fun _ => congrArg initiated hrest, fun head hhead => absurd hhead (hheads head),
      fun hk => absurd hk hkind⟩
  · refine ⟨consumed, waiting, stage, h.quiet rfl rfl (fun _ => ⟨hopen, ?_⟩)
      (fun head hhead => absurd hhead (hheads head)) fun hk => absurd hk hkind⟩
    rw [hrest, queue, hcarry, events]
    exact (initiated_cons_ne hside rest).symm

theorem Balanced.started (h : Balanced s) {head : RequestHead Octet} {dns : String}
    (phase : s.phase = .publishHead head dns) :
    Balanced { s.published head.raw with
      phase := .exchange
      exchange := .fresh dns
      log := { (s.published head.raw).log with down := .empty } } := by
  obtain ⟨consumed, waiting, stage, h⟩ := h
  have hdispatched := h.dispatch head (by rw [phase]; rfl)
  obtain ⟨hbooks, hserving⟩ := h.books.publishHead hdispatched
  refine ⟨consumed, waiting, stage, hbooks, h.drained, fun _ => ?_, nofun,
    fun _ _ => ⟨rfl, hserving⟩⟩
  have hqueued := h.queued (by rw [phase]; nofun)
  rwa [queue, phase] at hqueued

/-- An event of the running request is next. -/
theorem Ledger.next_event (h : Ledger s consumed waiting stage)
    {carry rest : List (HttpEvent Octet)} (phase : s.phase = .events carry)
    (events : s.events = e :: rest) (hside : e.side = some .initiator)
    (unfinished : s.exchange.requestDone = false) (framed : Framed s.log.drained) :
    carry = [] ∧ Serving s.account consumed stage ∧
      ∃ stage', stage.next e = some stage' ∧
        initiated s.log.drained = (consumed ++ [e]) ++ initiated rest := by
  obtain ⟨hcarry, hserving⟩ := h.serving (by rw [phase]; rfl) unfinished
  refine ⟨by rwa [phase] at hcarry, hserving, h.next framed (by rw [phase]; nofun) ?_⟩
  rw [queue, hcarry, events]
  exact initiated_cons hside rest

theorem Balanced.forwarded (h : Balanced s) (framed : Framed s.log.drained)
    {carry rest : List (HttpEvent Octet)} {raw : Octets}
    (phase : s.phase = .events carry) (events : s.events = e :: rest)
    (forward : Multiroute.forwarded s.exchange.requestDone e = some raw) :
    Balanced { s.published raw with events := rest } := by
  obtain ⟨consumed, waiting, stage, h⟩ := h
  obtain ⟨unfinished, he⟩ := forwarded_inv forward
  have hside : e.side = some .initiator := by
    rcases he with rfl | rfl <;> rfl
  obtain ⟨rfl, hserving, stage', hnext, hdrained⟩ := h.next_event phase events hside unfinished
    framed
  obtain ⟨hbooks, hserving'⟩ := h.books.publishEvent hserving he hnext
  have hnil : s.phase.carry = [] := by rw [phase]; rfl
  refine ⟨consumed ++ [e], initiated rest, stage', hbooks, hdrained, fun _ => ?_, ?_,
    fun _ _ => ⟨hnil, hserving'⟩⟩
  · change initiated (s.phase.carry ++ rest) = _
    rw [hnil, List.nil_append]
  · intro head (hhead : s.phase.head = some head)
    rw [phase] at hhead
    contradiction

theorem Balanced.requestEnded (h : Balanced s) (framed : Framed s.log.drained)
    {carry rest : List (HttpEvent Octet)}
    (phase : s.phase = .events carry) (events : s.events = .endMessage .initiator :: rest)
    (unfinished : s.exchange.requestDone = false) :
    Balanced { s with
      events := rest
      exchange := { s.exchange with requestDone := true }
      log := { s.log with sentWhole := s.log.sentWhole ++ [s.requestNum] } } := by
  obtain ⟨consumed, waiting, stage, h⟩ := h
  obtain ⟨rfl, hserving, stage', hnext, hdrained⟩ := h.next_event phase events rfl unfinished
    framed
  refine ⟨consumed ++ [HttpEvent.endMessage .initiator], initiated rest, stage',
    h.books.finish hserving hnext, hdrained, fun _ => ?_, ?_, nofun⟩
  · change initiated (s.phase.carry ++ rest) = _
    rw [phase]
    rfl
  · intro head (hhead : s.phase.head = some head)
    rw [phase] at hhead
    contradiction

/-- An event of the next request is put aside; the running one is over by then. -/
theorem Balanced.carried (h : Balanced s) (framed : Framed s.log.drained)
    {carry rest : List (HttpEvent Octet)}
    (phase : s.phase = .events carry) (events : s.events = e :: rest)
    (keeps : s.exchange.requestDone = false → ∃ head, e = .requestHead head) :
    Balanced { s with phase := .events (carry ++ [e]), events := rest } := by
  obtain ⟨consumed, waiting, stage, h⟩ := h
  refine ⟨consumed, waiting, stage, h.quiet rfl rfl (fun _ => ⟨by rw [phase]; nofun, ?_⟩) nofun ?_⟩
  · change initiated ((carry ++ [e]) ++ rest) = initiated s.queue
    rw [queue_of_events phase events, List.append_assoc]
    rfl
  · intro _ (hopen : s.exchange.requestDone = false)
    -- a head while the request is open would not be framed
    obtain ⟨head, rfl⟩ := keeps hopen
    obtain ⟨-, hserving, stage', hnext, -⟩ := h.next_event phase events rfl hopen framed
    exact absurd (RequestStage.next_requestHead hnext).1 hserving.1

theorem Balanced.reoffered (h : Balanced s) (phase : s.phase = .exchange) :
    Balanced (s.reofferClient.reofferResponse.goto (.events [])) := by
  have hclient : Balanced s.reofferClient ∧ s.reofferClient.phase = s.phase := by
    obtain ⟨consumed, waiting, stage, h⟩ := h
    unfold reofferClient
    split
    · obtain ⟨waiting', h'⟩ := h.feedClient s.clientPending
      exact ⟨⟨consumed, waiting', stage, h'⟩, rfl⟩
    · exact ⟨⟨consumed, waiting, stage, h⟩, rfl⟩
  obtain ⟨⟨consumed, waiting, stage, h⟩, hphase⟩ := hclient
  have hresponse : ∃ waiting, Ledger s.reofferClient.reofferResponse consumed waiting stage := by
    unfold reofferResponse
    split
    · exact h.feedResponse _
    · exact ⟨waiting, h⟩
  have hphase' : s.reofferClient.reofferResponse.phase = .exchange := by
    rw [← phase, ← hphase]
    unfold reofferResponse
    split <;> rfl
  obtain ⟨waiting', h'⟩ := hresponse
  refine ⟨consumed, waiting', stage, h'.settles (settles_goto _ _) (fun _ => ⟨?_, ?_⟩) nofun ?_⟩
  · rw [hphase']
    nofun
  · exact (settles_goto _ _).queue (by rw [hphase']; rfl) rfl
  · intro _
    exact ⟨by rw [hphase']; rfl, rfl⟩

/-- A response event or a protocol switch leaves the request events alone. -/
theorem initiated_pass {carry rest : List (HttpEvent Octet)} (phase : s.phase = .events carry)
    (events : s.events = e :: rest) (hside : e.side ≠ some .initiator) :
    initiated s.queue = initiated (carry ++ rest) := by
  rw [queue_of_events phase events, initiated_append, initiated_cons_ne hside, ← initiated_append]

theorem not_closed_of_parses {p : MultiroutePhase} (h : parses p.kind) : p ≠ .closed := by
  rintro rfl
  exact h

theorem ClientInv.switched_of_splicing (h : ClientInv s) (hkind : s.phase.kind = .splicing) :
    s.exchange.switched ≠ false := by
  rw [(h.splice hkind).1]
  decide

/-- A step over framed events keeps the accounts. -/
theorem balanced_step (client : ClientInv s) (h : s.exchange.switched = false → Balanced s)
    (framed : Framed s.log.drained) (hs : s.step cfg a = some s') :
    s'.exchange.switched = false → Balanced s' := by
  have hparsing : parses s.phase.kind → Balanced s := fun hp => h (client.unswitched hp)
  cases step_inv hs with
  | moved settles moves empty queue inside heads =>
      intro hplain
      obtain ⟨consumed, waiting, stage, hl⟩ := h (settles.settled.switched ▸ hplain)
      refine ⟨consumed, waiting, stage, hl.settles settles ?_ heads ?_⟩
      · intro hopen
        refine ⟨fun hclosed => moves.not_finished ?_, queue hopen⟩
        rw [hclosed]
        rfl
      · exact fun hkind => absurd hkind moves.ne_running
  | routed head rest phase events eq =>
      subst eq
      exact fun hplain => (h hplain).routed framed phase events
  | discarded e rest p kind events stray target eq =>
      subst eq
      exact fun hplain => (h hplain).discarded framed kind events stray target
  | fedClient kind settles target =>
      have hp : parses s.phase.kind := by rw [kind]; trivial
      obtain ⟨consumed, waiting, stage, hl⟩ := hparsing hp
      obtain ⟨waiting', hl'⟩ := hl.feedClient s.clientPending
      refine fun _ => ⟨consumed, waiting', stage, ?_⟩
      have hcarry : s.phase.carry = [] := carry_eq_nil (by rw [kind]; decide)
      refine hl'.rest settles (not_closed_of_parses hp) hcarry ?_
      rcases target with ht | ht | ht
      · exact .inl (by rw [ht]; rfl)
      · exact .inl (by rw [ht]; rfl)
      · exact .inr ht
  | readClient data kind pending settles target =>
      have hp := parses_of_reading kind
      obtain ⟨consumed, waiting, stage, hl⟩ := hparsing hp
      have htaken : Ledger (s.takeClient (octets .client data)) consumed waiting stage :=
        ⟨hl.books, hl.drained, hl.queued, hl.dispatch, hl.serving⟩
      obtain ⟨waiting', hl'⟩ := htaken.feedClient (octets .client data)
      refine fun _ => ⟨consumed, waiting', stage, ?_⟩
      rcases target with ⟨-, ht⟩ | ⟨hselect, ht⟩
      · refine hl'.rest settles (not_closed_of_parses hp) (carry_of_reading kind) ?_
        rcases ht with ht | ht | ht
        · exact .inl (by rw [ht]; rfl)
        · exact .inl (by rw [ht]; rfl)
        · exact .inr ht
      · exact hl'.loop settles hselect ht
  | eofClient p kind pending target eq =>
      subst eq
      have hp := parses_of_reading kind
      obtain ⟨consumed, waiting, stage, hl⟩ := hparsing hp
      obtain ⟨waiting', hl'⟩ := hl.finClient
      refine fun _ => ⟨consumed, waiting', stage, ?_⟩
      rcases target with ⟨-, ht⟩ | ⟨hselect, ht⟩
      · refine hl'.rest (settles_goto p _) (not_closed_of_parses hp) (carry_of_reading kind) ?_
        rcases ht with rfl | rfl <;> exact .inl rfl
      · exact hl'.loop (settles_goto p _) hselect ht
  | started head dns phase action eq =>
      subst eq
      exact fun _ => (hparsing (by rw [phase]; trivial)).started phase
  | reoffered phase eq =>
      subst eq
      exact fun _ => (hparsing (by rw [phase]; trivial)).reoffered phase
  | restored carry phase events settles target =>
      obtain ⟨consumed, waiting, stage, hl⟩ := hparsing (by rw [phase]; trivial)
      have hcarried : s.queue = carry :=
        (queue_of_events phase events).trans (List.append_nil carry)
      refine fun _ => ⟨consumed, waiting, stage, ?_⟩
      have htarget : s'.phase.carry = [] ∧ s'.phase.head = none := by
        rcases target with ht | ht <;> rw [ht] <;> exact ⟨rfl, rfl⟩
      refine hl.quiet settles.account settles.settled.drained (fun _ => ⟨?_, ?_⟩) ?_ ?_
      · rw [phase]
        rintro ⟨⟩
      · rw [hcarried, Multiroute.queue, htarget.1, settles.settled.events, List.nil_append]
      · intro head hhead
        rw [htarget.2] at hhead
        contradiction
      · intro _ hopen
        exact ⟨by rw [phase]; rfl, settles.settled.requestDone ▸ hopen, htarget.1⟩
  | forwarded carry e rest raw phase events forward eq =>
      subst eq
      exact fun hplain => (h hplain).forwarded framed phase events forward
  | relayed carry e rest raw phase events relay eq =>
      subst eq
      obtain ⟨-, -, hdone⟩ := noteClose_switched s.exchange e
      obtain ⟨consumed, waiting, stage, hl⟩ := hparsing (by rw [phase]; trivial)
      refine fun _ => ⟨consumed, waiting, stage, hl.quiet rfl rfl (fun hopen => ⟨hopen, ?_⟩)
        (fun _ hhead => hhead) ?_⟩
      · change initiated (s.phase.carry ++ rest) = _
        rw [initiated_pass phase events (by rw [(relayed_inv relay).1]; decide), phase]
        rfl
      · intro hkind (hopen : (noteClose s.exchange e).requestDone = false)
        rw [hdone] at hopen
        exact ⟨hkind, hopen, (hl.serving hkind hopen).1⟩
  | requestEnded carry rest phase events unfinished eq =>
      subst eq
      exact fun hplain => (h hplain).requestEnded framed phase events unfinished
  | stopped carry e rest phase events side responseDone settles target =>
      obtain ⟨consumed, waiting, stage, hl⟩ := hparsing (by rw [phase]; trivial)
      refine fun _ => ⟨consumed, waiting, stage, ?_⟩
      refine hl.quiet settles.account settles.settled.drained (fun _ => ⟨?_, ?_⟩) ?_ ?_
      · rw [phase]
        rintro ⟨⟩
      · rw [initiated_pass phase events side, Multiroute.queue, target, settles.settled.events]
        rfl
      · rw [target]
        rintro _ ⟨⟩
      · rw [target]
        rintro ⟨⟩
  | switched carry rest phase events eq =>
      subst eq
      rintro ⟨⟩
  | carried carry e rest phase events side keeps eq =>
      subst eq
      exact fun hplain => (h hplain).carried framed phase events keeps
  | received payload phase action nonempty eq =>
      subst eq
      obtain ⟨consumed, waiting, stage, hl⟩ := hparsing (by rw [phase]; trivial)
      have htaken : Ledger (s.takeResponse (octets (.backend s.requestNum) payload)) consumed
          waiting stage := ⟨hl.books, hl.drained, hl.queued, hl.dispatch, hl.serving⟩
      obtain ⟨waiting', hl'⟩ := htaken.feedResponse (octets (.backend s.requestNum) payload)
      refine fun _ => ⟨consumed, waiting', stage, ?_⟩
      exact hl'.loop (settles_goto _ _) phase rfl
  | eofResponse phase action eq =>
      subst eq
      obtain ⟨consumed, waiting, stage, hl⟩ := hparsing (by rw [phase]; trivial)
      obtain ⟨waiting', hl'⟩ := hl.finResponse
      exact fun _ => ⟨consumed, waiting', stage, hl'.loop (settles_goto _ _) phase rfl⟩
  | spliceStarted phase eq | spliceTurned phase eq =>
      subst eq
      exact fun hplain => absurd hplain (client.switched_of_splicing (by rw [phase]; rfl))
  | splicedUp chunk chunks phase eq | splicedDown chunk chunks phase eq =>
      subst eq
      exact fun hplain => absurd hplain (client.switched_of_splicing (by rw [phase]; rfl))
  | spliceRead data phase eq | spliceReceived data phase eq | splicePut data phase eq
  | spliceWrote data phase eq =>
      subst eq
      exact fun hplain => absurd hplain (client.switched_of_splicing (by rw [phase]; rfl))
  | tornDown next outcome marker phase markers target eq =>
      subst eq
      intro hplain
      obtain ⟨consumed, waiting, stage, hl⟩ := h hplain
      have htarget : next.carry = [] ∧ next.head = none ∧ next.kind ≠ .running := by
        rcases target with rfl | ⟨rfl, -⟩ <;> exact ⟨rfl, rfl, by decide⟩
      refine ⟨consumed, waiting, stage, hl.books.mark markers, hl.drained, fun _ => ?_,
        fun head hhead => ?_, fun hk => absurd hk htarget.2.2⟩
      · have hqueued := hl.queued (by rw [phase]; rintro ⟨⟩)
        rw [queue_of_phase phase] at hqueued
        change initiated (next.carry ++ s.events) = waiting
        rwa [htarget.1]
      · rw [htarget.2.1] at hhead
        contradiction

/-- The invariant of the requests. -/
structure RequestInv (s : Multiroute P) : Prop where
  client : ClientInv s
  balanced : s.exchange.switched = false → Framed s.log.drained → Balanced s

theorem requestInv_init (P : HttpProxyParser Octet) : RequestInv (init P) where
  client := clientInv_init P
  balanced := fun _ _ => ⟨[], [], .between, ledger_init P⟩

theorem RequestInv.step (h : RequestInv s) (hs : s.step cfg a = some s') : RequestInv s' where
  client := h.client.step hs
  balanced := by
    intro hplain framed
    have hbefore := framed.before (drained_grows hs)
    exact balanced_step h.client (fun hplain => h.balanced hplain hbefore) hbefore hs hplain

/-- In every run of a connection in which the request events that the parser emits are
messages, whatever the reads, the routing and the outcomes of the exchanges are, each
request is routed by its own head and only its own bytes are published for it. -/
theorem requests_attributed (cfg : MultirouteConfig) (P : HttpProxyParser Octet)
    (schedule : List MultirouteAction)
    (framed : Always (step cfg) (fun s => Framed s.log.drained) (init P) schedule) :
    Always (step cfg) Attributed (init P) schedule := by
  have hinv : Always (step cfg) RequestInv (init P) schedule :=
    always_of_step (fun _ _ _ h hs => h.step hs) (requestInv_init P) schedule
  refine hinv.mono₂ ?_ framed
  intro s h framed hplain
  obtain ⟨consumed, waiting, stage, hl⟩ := h.balanced hplain framed
  exact hl.attributed framed hplain

/-- Two requests come in one read. The first is served with the second in the queue, and
the second is refused. -/
theorem requests_attributed_when_pipelined :
    let schedule : List MultirouteAction :=
      [.tick, .read (wire "GET / HTTP/1.1\r\nHost:a\r\n\r\nGET / HTTP/1.1\r\nHost:b\r\n\r\n"),
        .tick, .route (.ok "a") .host, .setupDone true, .publish true,
        .tick, .tick, .tick, .tick, .tick, .sample (wire "HTTP/1.1 204 \r\n\r\n"),
        .tick, .tick, .tick, .write true, .tick, .publish true, .tick,
        .route (.ok "b") .unavailable, .tick, .tick]
    (exec (step ⟨64, 64⟩) (init (headParser 64)) schedule).map
        (fun s => (s.log.routed.length, s.log.sentWhole)) = some (2, [1]) ∧
      Always (step ⟨64, 64⟩) Attributed (init (headParser 64)) schedule :=
  ⟨by decide +kernel, requests_attributed ⟨64, 64⟩ (headParser 64) _ (by decide +kernel)⟩

end Multiroute

end ZenohBridge
