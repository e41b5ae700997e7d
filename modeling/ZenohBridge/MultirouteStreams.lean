import ZenohBridge.MultirouteStep
import ZenohBridge.HeadParser

/-!
# The byte streams of a multiroute connection

A push may refuse a tail, and the tail has to be offered again before anything new is taken
from the same side. The client's tail is kept over the whole connection: every place that
reads the client's socket does so with an empty tail, so what the parser accepted and the
tail are always what was read.

The response's tail belongs to one exchange. Its channel is read by an arm of the `select!`
that has no such guard. A sample that arrives while a tail is pending overwrites the tail,
and an EOF marker that arrives then reports the end of the response before its last bytes.

After a protocol switch both tails and everything that follows go past the parser to the
other side. These bytes are counted as `spliced`.
-/

namespace ZenohBridge

open Execution

namespace Multiroute

variable {P : HttpProxyParser Octet} {cfg : MultirouteConfig} {s s' : Multiroute P}
  {a : MultirouteAction}

/-- The client's bytes: what was accepted, what went past the parser and the refused tail
are what was read, and the end was reported over an empty tail. Without a switch nothing
went past the parser. -/
def ClientWhole (s : Multiroute P) : Prop :=
  s.log.up.accepted ++ s.log.up.spliced ++ s.clientPending = s.log.up.taken ∧
    s.log.up.finEarly = false ∧ (s.exchange.switched = false → s.log.up.spliced = [])

/-- The bytes of the running exchange's response, in the same way. -/
def ResponseWhole (s : Multiroute P) : Prop :=
  s.log.down.accepted ++ s.log.down.spliced ++ s.exchange.respPending = s.log.down.taken ∧
    s.log.down.finEarly = false ∧ (s.exchange.switched = false → s.log.down.spliced = [])

/-- The invariant of the client's stream. -/
structure ClientInv (s : Multiroute P) : Prop where
  whole : s.ClientWhole
  unswitched : parses s.phase.kind → s.exchange.switched = false
  read : s.phase.reading → s.clientPending = []
  splice : s.phase.kind = .splicing →
    s.exchange.switched = true ∧ (s.phase ≠ .spliceStart → s.clientPending = [])

theorem clientInv_init (P : HttpProxyParser Octet) : ClientInv (init P) where
  whole := ⟨rfl, rfl, fun _ => rfl⟩
  unswitched := fun _ => rfl
  read := False.elim
  splice := nofun

/-- A step that leaves the client's stream alone keeps the invariant. -/
theorem ClientInv.quiet (h : ClientInv s) (hup : s'.log.up = s.log.up)
    (hpending : s'.clientPending = s.clientPending)
    (hswitched : s'.exchange.switched = s.exchange.switched)
    (hparses : parses s'.phase.kind → parses s.phase.kind)
    (hread : s'.phase.reading → s.clientPending = [])
    (hsplice : s'.phase.kind = .splicing → s.phase.kind = .splicing ∧ s.phase ≠ .spliceStart) :
    ClientInv s' where
  whole := by
    rw [ClientWhole, hup, hpending, hswitched]
    exact h.whole
  unswitched := fun hp => hswitched.trans (h.unswitched (hparses hp))
  read := fun hp => hpending.trans (hread hp)
  splice := by
    intro hp
    obtain ⟨hkind, hstart⟩ := hsplice hp
    obtain ⟨htrue, hempty⟩ := h.splice hkind
    exact ⟨hswitched.trans htrue, fun _ => hpending.trans (hempty hstart)⟩

/-- Feeding the bytes that follow the accepted ones keeps the stream whole. -/
theorem ClientWhole.feed {bytes : Octets} (hspliced : s.log.up.spliced = [])
    (hbytes : s.log.up.accepted ++ bytes = s.log.up.taken) (hfin : s.log.up.finEarly = false) :
    (s.feedClient bytes).ClientWhole := by
  refine ⟨?_, hfin, fun _ => hspliced⟩
  change s.log.up.accepted ++ (P.pushBytes .initiator s.parser bytes).accepted ++
    s.log.up.spliced ++ (P.pushBytes .initiator s.parser bytes).tail = s.log.up.taken
  rw [hspliced, List.append_nil, List.append_assoc, HttpProxyParser.pushBytes_split, hbytes]

/-- The tail follows the accepted bytes as long as nothing was spliced. -/
theorem ClientInv.accepted_append (h : ClientInv s) (hp : parses s.phase.kind) :
    s.log.up.accepted ++ s.clientPending = s.log.up.taken := by
  have hwhole := h.whole.1
  rwa [h.whole.2.2 (h.unswitched hp), List.append_nil] at hwhole

/-- A settled state inherits the invariant of the state that settles. -/
theorem ClientWhole.settles (h : s.ClientWhole) (hs : Settles s s') : s'.ClientWhole := by
  obtain ⟨p, o, k, e, r, rfl⟩ := hs
  exact h

/-- After a step of the parser the handler is in a loop that does not read unguarded. -/
theorem ClientInv.fed (hwhole : s'.ClientWhole) (hswitched : s'.exchange.switched = false)
    (hread : ¬ s'.phase.reading) (hsplice : s'.phase.kind ≠ .splicing) : ClientInv s' :=
  ⟨hwhole, fun _ => hswitched, fun hp => absurd hp hread, fun hp => absurd hp hsplice⟩

theorem noteClose_switched (x : Exchange) (e : HttpEvent Octet) :
    (noteClose x e).switched = x.switched ∧ (noteClose x e).respPending = x.respPending ∧
      (noteClose x e).requestDone = x.requestDone := by
  cases e with
  | responseHead head =>
      simp only [noteClose]
      split <;> exact ⟨rfl, rfl, rfl⟩
  | _ => exact ⟨rfl, rfl, rfl⟩

theorem ClientInv.reofferClient (h : ClientInv s) (hp : parses s.phase.kind) :
    s.reofferClient.ClientWhole ∧ s.reofferClient.exchange = s.exchange := by
  unfold Multiroute.reofferClient
  split
  · exact ⟨.feed (h.whole.2.2 (h.unswitched hp)) (h.accepted_append hp) h.whole.2.1, rfl⟩
  · exact ⟨h.whole, rfl⟩

theorem reofferResponse_up (s : Multiroute P) :
    s.reofferResponse.log.up = s.log.up ∧ s.reofferResponse.clientPending = s.clientPending ∧
      s.reofferResponse.exchange.switched = s.exchange.switched := by
  unfold reofferResponse
  split <;> exact ⟨rfl, rfl, rfl⟩

theorem kind_of_events {carry : List (HttpEvent Octet)} (phase : s.phase = .events carry) :
    s.phase.kind = .running := by
  rw [phase]
  rfl

/-- A step inside the exchange loop that leaves the client's stream alone. -/
theorem ClientInv.running (h : ClientInv s) (hkind : s.phase.kind = .running)
    (hup : s'.log.up = s.log.up) (hpending : s'.clientPending = s.clientPending)
    (hswitched : s'.exchange.switched = s.exchange.switched)
    (htarget : s'.phase.kind = .running ∨ s'.phase.kind = .finished) : ClientInv s' := by
  refine h.quiet hup hpending hswitched (fun _ => by rw [hkind]; trivial) ?_ ?_
  · intro hp
    rcases htarget with ht | ht
    all_goals
      cases hphase : s'.phase <;> rw [hphase] at hp ht <;> contradiction
  · intro hp
    rcases htarget with ht | ht <;> exact absurd (ht.symm.trans hp) (by decide)

/-- A step of the splice that leaves the client's stream alone. -/
theorem ClientInv.splicing (h : ClientInv s) (hkind : s.phase.kind = .splicing)
    (hstart : s.phase ≠ .spliceStart) (hup : s'.log.up = s.log.up)
    (hpending : s'.clientPending = s.clientPending)
    (hswitched : s'.exchange.switched = s.exchange.switched)
    (htarget : s'.phase.kind = .splicing) : ClientInv s' := by
  refine h.quiet hup hpending hswitched ?_ ?_ fun _ => ⟨hkind, hstart⟩
  · rw [htarget]
    exact False.elim
  · intro hp
    cases hphase : s'.phase <;> rw [hphase] at hp htarget <;> contradiction

/-- Where a push of the refused tail ends. -/
theorem not_reading_of_fed {p : MultiroutePhase}
    (h : p = .nextHead ∨ p = .consumeEvents ∨ p = .closed) :
    ¬ p.reading ∧ p.kind ≠ .splicing := by
  rcases h with rfl | rfl | rfl <;> exact ⟨id, by decide⟩

/-- Where a read of the client ends, between two exchanges or inside of one. -/
theorem not_reading_of_read {p : MultiroutePhase} {outside inside : Prop}
    (h : (outside ∧ (p = .nextHead ∨ p = .consume ∨ p = .closed)) ∨ (inside ∧ p = .exchange)) :
    ¬ p.reading ∧ p.kind ≠ .splicing := by
  rcases h with ⟨-, rfl | rfl | rfl⟩ | ⟨-, rfl⟩ <;> exact ⟨id, by decide⟩

/-- Where the end of the client's stream leads. -/
theorem not_reading_of_eof {p : MultiroutePhase} {outside inside : Prop}
    (h : (outside ∧ (p = .nextHead ∨ p = .consume)) ∨ (inside ∧ p = .exchange)) :
    ¬ p.reading ∧ p.kind ≠ .splicing := by
  rcases h with ⟨-, rfl | rfl⟩ | ⟨-, rfl⟩ <;> exact ⟨id, by decide⟩

theorem ClientInv.step (h : ClientInv s) (hs : s.step cfg a = some s') : ClientInv s' := by
  cases step_inv hs with
  | moved settles moves empty queue inside heads =>
      have hswitched := settles.settled.switched
      obtain ⟨p, o, k, e, r, rfl⟩ := settles
      refine h.quiet rfl rfl hswitched ?_ empty ?_
      · exact moves.parses
      · intro hp
        rw [(inside hp).1]
        exact ⟨rfl, nofun⟩
  | routed head rest phase events eq =>
      subst eq
      exact h.quiet rfl rfl rfl (fun _ => by rw [phase]; trivial) False.elim nofun
  | discarded e rest p kind events stray target eq =>
      subst eq
      refine h.quiet rfl rfl rfl (fun _ => by rw [kind]; trivial) ?_ ?_
      · rcases target with rfl | rfl <;> exact False.elim
      · rcases target with rfl | rfl <;> exact nofun
  | fedClient kind settles target =>
      have hp : parses s.phase.kind := by rw [kind]; trivial
      have hwhole : (s.feedClient s.clientPending).ClientWhole :=
        .feed (h.whole.2.2 (h.unswitched hp)) (h.accepted_append hp) h.whole.2.1
      obtain ⟨hread, hsplice⟩ := not_reading_of_fed target
      have hswitched := settles.settled.switched.trans (h.unswitched hp)
      exact .fed (hwhole.settles settles) hswitched hread hsplice
  | readClient data kind pending settles target =>
      have hp : parses s.phase.kind := parses_of_reading kind
      have hempty : s.clientPending = [] := kind.elim h.read pending
      have haccepted := h.accepted_append hp
      rw [hempty, List.append_nil] at haccepted
      have hwhole : ((s.takeClient (octets .client data)).feedClient
          (octets .client data)).ClientWhole := by
        refine .feed (h.whole.2.2 (h.unswitched hp)) ?_ h.whole.2.1
        change s.log.up.accepted ++ octets .client data = s.log.up.taken ++ octets .client data
        rw [haccepted]
      obtain ⟨hread, hsplice⟩ := not_reading_of_read target
      have hswitched := settles.settled.switched.trans (h.unswitched hp)
      exact .fed (hwhole.settles settles) hswitched hread hsplice
  | eofClient p kind pending target eq =>
      have hp : parses s.phase.kind := parses_of_reading kind
      have hempty : s.clientPending = [] := kind.elim h.read pending
      subst eq
      obtain ⟨hread, hsplice⟩ := not_reading_of_eof target
      refine .fed ⟨h.whole.1, ?_, h.whole.2.2⟩ (h.unswitched hp) hread hsplice
      change (s.log.up.finEarly || !s.clientPending.isEmpty) = false
      rw [h.whole.2.1, hempty]
      rfl
  | started head dns phase action eq =>
      subst eq
      have hplain := h.unswitched (by rw [phase]; trivial)
      exact ⟨⟨h.whole.1, h.whole.2.1, fun _ => h.whole.2.2 hplain⟩, fun _ => rfl, False.elim, nofun⟩
  | reoffered phase eq =>
      subst eq
      have hp : parses s.phase.kind := by rw [phase]; trivial
      obtain ⟨⟨hwhole, hfin, hplain⟩, hexchange⟩ := h.reofferClient hp
      obtain ⟨hup, hpending, hswitched⟩ := reofferResponse_up s.reofferClient
      rw [← hup, ← hpending] at hwhole
      rw [← hup] at hfin hplain
      rw [← hswitched] at hplain
      refine ⟨⟨hwhole, hfin, hplain⟩, fun _ => ?_, False.elim, nofun⟩
      change s.reofferClient.reofferResponse.exchange.switched = false
      rw [hswitched, hexchange]
      exact h.unswitched hp
  | restored carry phase events settles target =>
      have hswitched := settles.settled.switched
      obtain ⟨p, o, k, e, r, rfl⟩ := settles
      refine h.running (by rw [phase]; rfl) rfl rfl hswitched ?_
      rcases target with ht | ht <;> rw [ht]
      · exact .inl rfl
      · exact .inr rfl
  | forwarded carry e rest raw phase events forward eq =>
      subst eq
      exact h.running (kind_of_events phase) rfl rfl rfl (.inl (kind_of_events phase))
  | relayed carry e rest raw phase events relay eq =>
      subst eq
      exact h.running (kind_of_events phase) rfl rfl (noteClose_switched s.exchange e).1
        (.inl (kind_of_events phase))
  | requestEnded carry rest phase events unfinished eq =>
      subst eq
      exact h.running (kind_of_events phase) rfl rfl rfl (.inl (kind_of_events phase))
  | stopped carry e rest phase events side responseDone settles target =>
      have hswitched := settles.settled.switched
      obtain ⟨p, o, k, e, r, rfl⟩ := settles
      refine h.running (by rw [phase]; rfl) rfl rfl hswitched (.inr ?_)
      rw [target]
      rfl
  | switched carry rest phase events eq =>
      subst eq
      exact ⟨⟨h.whole.1, h.whole.2.1, nofun⟩, False.elim, False.elim,
        fun _ => ⟨rfl, fun hne => absurd rfl hne⟩⟩
  | carried carry e rest phase events side keeps eq =>
      subst eq
      exact h.running (by rw [phase]; rfl) rfl rfl rfl (.inl rfl)
  | received payload phase action nonempty eq =>
      subst eq
      exact h.running (by rw [phase]; rfl) rfl rfl rfl (.inl rfl)
  | eofResponse phase action eq =>
      subst eq
      exact h.running (by rw [phase]; rfl) rfl rfl rfl (.inl rfl)
  | spliceStarted phase eq =>
      subst eq
      obtain ⟨htrue, -⟩ := h.splice (by rw [phase]; rfl)
      refine ⟨⟨?_, h.whole.2.1, fun hf => ?_⟩, False.elim, False.elim,
        fun _ => ⟨htrue, fun _ => rfl⟩⟩
      · change s.log.up.accepted ++ (s.log.up.spliced ++ s.clientPending) ++ [] = s.log.up.taken
        rw [List.append_nil, ← List.append_assoc]
        exact h.whole.1
      · exact absurd (htrue.symm.trans hf) (by decide)
  | splicedUp chunk chunks phase eq =>
      subst eq
      exact h.splicing (by rw [phase]; rfl) (by rw [phase]; nofun) rfl rfl rfl rfl
  | spliceTurned phase eq =>
      subst eq
      exact h.splicing (by rw [phase]; rfl) (by rw [phase]; nofun) rfl rfl rfl rfl
  | splicedDown chunk chunks phase eq =>
      subst eq
      exact h.splicing (by rw [phase]; rfl) (by rw [phase]; nofun) rfl rfl rfl rfl
  | spliceRead data phase eq =>
      subst eq
      obtain ⟨htrue, hempty⟩ := h.splice (by rw [phase]; rfl)
      have hnil := hempty (by rw [phase]; nofun)
      have hwhole := h.whole.1
      rw [hnil, List.append_nil] at hwhole
      refine ⟨⟨?_, h.whole.2.1, fun hf => ?_⟩, False.elim, False.elim,
        fun _ => ⟨htrue, fun _ => hnil⟩⟩
      · change s.log.up.accepted ++ (s.log.up.spliced ++ data) ++ s.clientPending =
          s.log.up.taken ++ data
        rw [hnil, List.append_nil, ← List.append_assoc, hwhole]
      · exact absurd (htrue.symm.trans hf) (by decide)
  | spliceReceived payload phase eq =>
      subst eq
      exact h.splicing (by rw [phase]; rfl) (by rw [phase]; nofun) rfl rfl rfl rfl
  | splicePut data phase eq =>
      subst eq
      exact h.splicing (by rw [phase]; rfl) (by rw [phase]; nofun) rfl rfl rfl rfl
  | spliceWrote data phase eq =>
      subst eq
      exact h.splicing (by rw [phase]; rfl) (by rw [phase]; nofun) rfl rfl rfl rfl
  | tornDown next outcome marker phase markers target eq =>
      subst eq
      rcases target with rfl | ⟨rfl, hplain, -⟩
      · exact ⟨h.whole, False.elim, False.elim, nofun⟩
      · exact ⟨h.whole, fun _ => hplain, False.elim, nofun⟩

/-- Over the whole life of every client connection, whatever the reads, the routing, the
exchanges and the parser's refusals are, the bytes accepted on the client's side, those
that a switched protocol took past the parser and the refused tail are the bytes read from
the socket. -/
theorem clientWhole_always (cfg : MultirouteConfig) (P : HttpProxyParser Octet)
    (schedule : List MultirouteAction) :
    Always (step cfg) ClientWhole (init P) schedule :=
  (always_of_step (fun _ _ _ h hs => h.step hs) (clientInv_init P) schedule).mono
    fun _ h => h.whole

/-- The bytes read are the accepted ones and the tail, with nothing past the parser. -/
def ClientParsed (s : Multiroute P) : Prop :=
  s.log.up.accepted ++ s.clientPending = s.log.up.taken ∧ s.log.up.finEarly = false

instance : DecidablePred (ClientParsed (P := P)) := fun _ => inferInstanceAs (Decidable (_ ∧ _))

/-- A client asks for another protocol, the backend agrees, and the first byte of the new
protocol goes from the socket to the backend without the parser. -/
theorem clientParsed_fails_after_switch :
    ¬ Always (step ⟨64, 64⟩) ClientParsed (init (headParser 64))
      [.tick, .read (wire "GET / HTTP/1.1\r\nHost:a\r\nUpgrade:x\r\nConnection:upgrade\r\n\r\n"),
        .tick, .route (.ok "a") .host, .setupDone true, .publish true, .tick, .tick, .tick,
        .sample (wire "HTTP/1.1 101 \r\nUpgrade:x\r\nConnection:upgrade\r\n\r\n"),
        .tick, .write true, .tick, .tick, .tick, .tick, .read [1]] := by
  decide +kernel

/-- The phases of a splice that has taken the response's tail. -/
def turned : MultiroutePhase → Prop
  | .spliceDown _ | .splice | .splicePut _ | .spliceWrite _ => True
  | _ => False

/-- The invariant of the response's stream. -/
structure ResponseInv (s : Multiroute P) : Prop where
  client : ClientInv s
  whole : s.ResponseWhole
  splice : turned s.phase → s.exchange.respPending = []

theorem responseInv_init (P : HttpProxyParser Octet) : ResponseInv (init P) where
  client := clientInv_init P
  whole := ⟨rfl, rfl, fun _ => rfl⟩
  splice := False.elim

instance : DecidablePred (ResponseWhole (P := P)) := fun _ =>
  inferInstanceAs (Decidable (_ ∧ _ ∧ (_ → _)))

/-- The arm of the `select!` that takes a sample finds no refused tail. -/
def TailFirst (s : Multiroute P) (a : MultirouteAction) : Prop :=
  s.phase = .select → ∀ payload, a = .sample payload → s.exchange.respPending = []

/-- A step that leaves the response's stream alone keeps the invariant. -/
theorem ResponseInv.quiet (h : ResponseInv s) (client : ClientInv s')
    (hdown : s'.log.down = s.log.down)
    (hpending : s'.exchange.respPending = s.exchange.respPending)
    (hswitched : s'.exchange.switched = s.exchange.switched)
    (hturned : turned s'.phase → turned s.phase) : ResponseInv s' where
  client := client
  whole := by
    rw [ResponseWhole, hdown, hpending, hswitched]
    exact h.whole
  splice := fun hp => hpending.trans (h.splice (hturned hp))

/-- Feeding the bytes that follow the accepted ones keeps the stream whole. -/
theorem ResponseWhole.feed {bytes : Octets} (hspliced : s.log.down.spliced = [])
    (hbytes : s.log.down.accepted ++ bytes = s.log.down.taken)
    (hfin : s.log.down.finEarly = false) : (s.feedResponse bytes).ResponseWhole := by
  refine ⟨?_, hfin, fun _ => hspliced⟩
  change s.log.down.accepted ++ (P.pushBytes .responder s.parser bytes).accepted ++
    s.log.down.spliced ++ (P.pushBytes .responder s.parser bytes).tail = s.log.down.taken
  rw [hspliced, List.append_nil, List.append_assoc, HttpProxyParser.pushBytes_split, hbytes]

theorem ResponseInv.accepted_append (h : ResponseInv s) (hp : parses s.phase.kind) :
    s.log.down.spliced = [] ∧
      s.log.down.accepted ++ s.exchange.respPending = s.log.down.taken := by
  have hplain := h.whole.2.2 (h.client.unswitched hp)
  have hwhole := h.whole.1
  rw [hplain, List.append_nil] at hwhole
  exact ⟨hplain, hwhole⟩

theorem not_turned_of_settled {p : MultiroutePhase} (h : p.kind ≠ .splicing) : ¬ turned p := by
  cases p with
  | spliceDown | splice | splicePut | spliceWrite => exact absurd rfl h
  | _ => exact id

theorem reofferClient_down (s : Multiroute P) :
    s.reofferClient.log.down = s.log.down ∧ s.reofferClient.exchange = s.exchange := by
  unfold reofferClient
  split <;> exact ⟨rfl, rfl⟩

theorem ResponseInv.step (h : ResponseInv s) (hok : TailFirst s a)
    (hs : s.step cfg a = some s') : ResponseInv s' := by
  have client := h.client.step hs
  cases step_inv hs with
  | moved settles moves empty queue inside heads =>
      obtain ⟨-, -, -, hswitched, -, hpending, hdown, -, -⟩ := settles.settled
      refine h.quiet client hdown hpending hswitched fun hp => ?_
      by_cases hkind : s'.phase.kind = .splicing
      · rw [(inside hkind).1]
        trivial
      · exact absurd hp (not_turned_of_settled hkind)
  | routed head rest phase events eq =>
      subst eq
      exact h.quiet client rfl rfl rfl False.elim
  | discarded e rest p kind events stray target eq =>
      subst eq
      refine h.quiet client rfl rfl rfl ?_
      rcases target with rfl | rfl <;> exact False.elim
  | fedClient kind settles target =>
      obtain ⟨-, -, -, hswitched, -, hpending, hdown, -, -⟩ := settles.settled
      refine h.quiet client hdown hpending hswitched fun hp => ?_
      exact absurd hp (not_turned_of_settled (not_reading_of_fed target).2)
  | readClient data kind pending settles target =>
      obtain ⟨-, -, -, hswitched, -, hpending, hdown, -, -⟩ := settles.settled
      refine h.quiet client hdown hpending hswitched fun hp => ?_
      exact absurd hp (not_turned_of_settled (not_reading_of_read target).2)
  | eofClient p kind pending target eq =>
      subst eq
      refine h.quiet client rfl rfl rfl fun hp => ?_
      exact absurd hp (not_turned_of_settled (not_reading_of_eof target).2)
  | started head dns phase action eq =>
      subst eq
      exact ⟨client, ⟨rfl, rfl, fun _ => rfl⟩, False.elim⟩
  | reoffered phase eq =>
      subst eq
      obtain ⟨hdown, hexchange⟩ := reofferClient_down s
      obtain ⟨hplain, haccepted⟩ := h.accepted_append (by rw [phase]; trivial)
      refine ⟨client, ?_, False.elim⟩
      change s.reofferClient.reofferResponse.ResponseWhole
      unfold reofferResponse
      split
      · apply ResponseWhole.feed
        · rw [hdown, hplain]
        · rw [hdown, hexchange, haccepted]
        · rw [hdown]
          exact h.whole.2.1
      · rw [ResponseWhole, hdown, hexchange]
        exact h.whole
  | restored carry phase events settles target =>
      obtain ⟨-, -, -, hswitched, -, hpending, hdown, -, -⟩ := settles.settled
      refine h.quiet client hdown hpending hswitched fun hp => ?_
      rcases target with ht | ht <;> rw [ht] at hp <;> exact hp.elim
  | forwarded carry e rest raw phase events forward eq =>
      subst eq
      exact h.quiet client rfl rfl rfl id
  | relayed carry e rest raw phase events relay eq =>
      subst eq
      obtain ⟨hswitched, hpending, -⟩ := noteClose_switched s.exchange e
      exact h.quiet client rfl hpending hswitched id
  | requestEnded carry rest phase events unfinished eq =>
      subst eq
      exact h.quiet client rfl rfl rfl id
  | stopped carry e rest phase events side responseDone settles target =>
      obtain ⟨-, -, -, hswitched, -, hpending, hdown, -, -⟩ := settles.settled
      refine h.quiet client hdown hpending hswitched fun hp => ?_
      rw [target] at hp
      exact hp.elim
  | switched carry rest phase events eq =>
      subst eq
      exact ⟨client, ⟨h.whole.1, h.whole.2.1, nofun⟩, False.elim⟩
  | carried carry e rest phase events side keeps eq =>
      subst eq
      exact h.quiet client rfl rfl rfl False.elim
  | received payload phase action nonempty eq =>
      subst eq
      have hempty := hok phase payload action
      obtain ⟨hplain, haccepted⟩ := h.accepted_append (by rw [phase]; trivial)
      rw [hempty, List.append_nil] at haccepted
      refine ⟨client, ?_, False.elim⟩
      refine ResponseWhole.feed (s := s.takeResponse _) hplain ?_ h.whole.2.1
      change s.log.down.accepted ++ octets (.backend s.requestNum) payload =
        s.log.down.taken ++ octets (.backend s.requestNum) payload
      rw [haccepted]
  | eofResponse phase action eq =>
      subst eq
      refine ⟨client, ⟨h.whole.1, ?_, h.whole.2.2⟩, False.elim⟩
      change (s.log.down.finEarly || !s.exchange.respPending.isEmpty) = false
      rw [h.whole.2.1, hok phase [] action]
      rfl
  | spliceStarted phase eq =>
      subst eq
      exact h.quiet client rfl rfl rfl False.elim
  | splicedUp chunk chunks phase eq =>
      subst eq
      exact h.quiet client rfl rfl rfl False.elim
  | spliceTurned phase eq =>
      subst eq
      obtain ⟨htrue, -⟩ := h.client.splice (by rw [phase]; rfl)
      refine ⟨client, ⟨?_, h.whole.2.1, fun hf => ?_⟩, fun _ => rfl⟩
      · change s.log.down.accepted ++ (s.log.down.spliced ++ s.exchange.respPending) ++ [] =
          s.log.down.taken
        rw [List.append_nil, ← List.append_assoc]
        exact h.whole.1
      · exact absurd (htrue.symm.trans hf) (by decide)
  | splicedDown chunk chunks phase eq =>
      subst eq
      exact h.quiet client rfl rfl rfl fun _ => by rw [phase]; trivial
  | spliceRead data phase eq =>
      subst eq
      exact h.quiet client rfl rfl rfl fun _ => by rw [phase]; trivial
  | spliceReceived payload phase eq =>
      subst eq
      obtain ⟨htrue, -⟩ := h.client.splice (by rw [phase]; rfl)
      have hnil := h.splice (by rw [phase]; trivial)
      have hwhole := h.whole.1
      rw [hnil, List.append_nil] at hwhole
      let data := octets (.backend s.requestNum) payload
      refine ⟨client, ⟨?_, h.whole.2.1, fun hf => ?_⟩, fun _ => hnil⟩
      · change s.log.down.accepted ++ (s.log.down.spliced ++ data) ++ s.exchange.respPending =
          s.log.down.taken ++ data
        rw [hnil, List.append_nil, ← List.append_assoc, hwhole]
      · exact absurd (htrue.symm.trans hf) (by decide)
  | splicePut data phase eq =>
      subst eq
      exact h.quiet client rfl rfl rfl fun _ => by rw [phase]; trivial
  | spliceWrote data phase eq =>
      subst eq
      exact h.quiet client rfl rfl rfl fun _ => by rw [phase]; trivial
  | tornDown next outcome marker phase markers target eq =>
      subst eq
      refine h.quiet client rfl rfl rfl ?_
      rcases target with rfl | ⟨rfl, -⟩ <;> exact False.elim

/-- A sample taken over a refused tail overwrites it, an EOF marker forgets it. -/
theorem ResponseInv.loses (h : ResponseInv s) (hbad : ¬ TailFirst s a)
    (hs : s.step cfg a = some s') : ¬ s'.ResponseWhole := by
  simp only [TailFirst, not_forall] at hbad
  obtain ⟨phase, payload, rfl, hpending⟩ := hbad
  obtain ⟨hplain, haccepted⟩ := h.accepted_append (by rw [phase]; trivial)
  simp only [Multiroute.step, phase, stepSelect] at hs
  split at hs
  · obtain rfl := Option.some.inj hs
    rintro ⟨-, hfin, -⟩
    change (s.log.down.finEarly || !s.exchange.respPending.isEmpty) = false at hfin
    simp only [Bool.or_eq_false_iff, Bool.not_eq_false', List.isEmpty_iff] at hfin
    exact hpending hfin.2
  · obtain rfl := Option.some.inj hs
    rintro ⟨hwhole, -, -⟩
    let data := octets (.backend s.requestNum) payload
    have hsplit : (P.pushBytes .responder s.parser data).accepted ++
        (P.pushBytes .responder s.parser data).tail = data :=
      HttpProxyParser.pushBytes_split s.parser data
    change s.log.down.accepted ++ (P.pushBytes .responder s.parser data).accepted ++
      s.log.down.spliced ++ (P.pushBytes .responder s.parser data).tail =
        s.log.down.taken ++ data at hwhole
    rw [hplain, List.append_nil, List.append_assoc, hsplit, ← haccepted, List.append_assoc,
      List.append_cancel_left_eq, List.self_eq_append_left] at hwhole
    exact hpending hwhole

/-- In every run of a connection, for every sequence of samples and every refusal of the
parser, the response bytes reach the parser without loss and the end of the response is
reported after its last byte exactly when every sample that the `select!` takes finds the
refused tail empty. -/
theorem responseWhole_iff_tailFirst (cfg : MultirouteConfig) (P : HttpProxyParser Octet)
    (schedule : List MultirouteAction) :
    Always (step cfg) ResponseWhole (init P) schedule ↔
      Along (step cfg) TailFirst (init P) schedule :=
  always_iff_along (fun _ _ => True) (fun _ h => h.whole)
    (fun _ _ _ h _ hok hs => h.step hok hs)
    (fun _ _ _ h _ hbad hs => h.loses hbad hs)
    (responseInv_init P) (along_of_labels (fun _ _ => trivial) _)

/-- A parser that holds 32 bytes a side, and a sample of 65 bytes. One is still refused
after the re-offer, and the next sample takes its place. -/
theorem responseWhole_fails_on_next_sample :
    ¬ Always (step ⟨64, 256⟩) ResponseWhole (init (headParser 32))
      [.tick, .read (wire "GET / HTTP/1.1\r\nHost:a\r\n\r\n"), .tick, .route (.ok "a") .host,
        .setupDone true, .publish true, .tick, .tick, .tick,
        .sample (wire "HTTP/1.1 200 \r\n\r\n" ++ List.replicate 48 120),
        .tick, .write true, .write true, .write true, .tick, .sample [121]] := by
  decide +kernel

end Multiroute

end ZenohBridge
