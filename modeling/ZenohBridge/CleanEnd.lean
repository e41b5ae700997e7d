import ZenohBridge.Relay

/-!
# Graceful closes and truncated streams

Over TCP both `send_eof` and `shutdown` shut the write half of the socket down,
so the peer reads either as a clean end of stream. A relay closes honestly when
it does so only after it took the EOF marker of the other end and wrote every data
sample that precedes the marker.

Two exits of the receiving task break this. The `cancelled()` arm shuts the writer
down on every reset, and the `rx.recv()` arm takes a marker without asking whether
a data sample before it was refused by the channel or missed by the session.
-/

namespace ZenohBridge

open Execution

namespace Relay

/-- The samples of the peer that never reach the channel. -/
def lost (s : Relay) : List Sample := s.refused ++ s.missed

/-- A graceful close comes after the EOF marker of the other end was received and
after every data sample before that marker was written. -/
def EndsWhole (s : Relay) : Prop :=
  s.closes ≠ [] → ∃ m, s.marker = some m ∧ s.sent[m.sn]? = some [] ∧
    ∀ n p, n < m.sn → s.sent[n]? = some p → p ≠ [] → ⟨n, p⟩ ∈ s.written

/-- The step does not leave the loop through the `cancelled()` arm, and takes no
EOF marker that follows a lost data sample. -/
def ClosesHonestly (s : Relay) : RelayAction → Prop
  | .receiverCancelled => False
  | .recv => ∀ m ∈ s.channel.queue.head?, m.payload = [] →
      ∀ l ∈ s.lost, l.payload ≠ [] → m.sn < l.sn
  | _ => True

/-- While the receiving task is active every sample of the peer is handed over,
queued or lost, each in one of these places only, and the order is kept. -/
structure Accounted (s : Relay) : Prop where
  opened : s.channel.closed = false
  noClose : s.closes = []
  noMarker : s.marker = none
  place : ∀ n p, s.sent[n]? = some p →
    ⟨n, p⟩ ∈ s.handed ∨ ⟨n, p⟩ ∈ s.channel.queue ∨ ⟨n, p⟩ ∈ s.lost
  order : (s.handed ++ s.channel.queue).Pairwise fun x y => x.sn < y.sn
  numbered : ∀ x ∈ s.handed ++ s.channel.queue, s.sent[x.sn]? = some x.payload
  kept : ∀ x ∈ s.handed ++ s.channel.queue, ∀ l ∈ s.lost, x.sn ≠ l.sn

/-- Which handed samples are already written, by where the task is. -/
def Flushed (s : Relay) : Prop :=
  match s.receiver with
  | .select => s.written = s.handed
  | .writing x => s.handed = s.written ++ [x]
  | _ => True

/-- The invariant of every run that closes honestly. -/
structure CloseInv (s : Relay) : Prop where
  whole : EndsWhole s
  lostNumbered : ∀ l ∈ s.lost, s.sent[l.sn]? = some l.payload
  flushed : Flushed s
  accounted : s.receiver.active → Accounted s

variable {cfg : RelayConfig} {s s' : Relay} {a : RelayAction}

theorem closeInv_init (cfg : RelayConfig) : CloseInv (init cfg) where
  whole := fun h => absurd rfl h
  lostNumbered := by simp [init, lost]
  flushed := rfl
  accounted := by
    intro _
    refine ⟨rfl, rfl, rfl, ?_, ?_, ?_, ?_⟩ <;> simp [init]

/-- The peer's sequence after one more sample. -/
theorem getElem?_snoc {sent : List Bytes} {p q : Bytes} {n : Nat} :
    (sent ++ [p])[n]? = some q ↔ sent[n]? = some q ∨ n = sent.length ∧ p = q := by
  rw [List.getElem?_append]
  split
  · rename_i h
    constructor
    · exact Or.inl
    · rintro (h' | ⟨rfl, -⟩)
      · exact h'
      · omega
  · rename_i h
    rw [List.getElem?_eq_none (by omega : sent.length ≤ n)]
    rw [List.getElem?_singleton]
    constructor
    · intro h'
      split at h'
      · exact Or.inr ⟨by omega, Option.some.inj h'⟩
      · cases h'
    · rintro (h' | ⟨rfl, rfl⟩)
      · cases h'
      · simp

theorem EndsWhole.snoc (h : EndsWhole s) (p : Bytes) {s' : Relay}
    (hsent : s'.sent = s.sent ++ [p]) (hcloses : s'.closes = s.closes)
    (hmarker : s'.marker = s.marker) (hwritten : s'.written = s.written) : EndsWhole s' := by
  intro hc
  rw [hcloses] at hc
  obtain ⟨m, hm, hempty, hall⟩ := h hc
  have hbound : m.sn < s.sent.length := (List.getElem?_eq_some_iff.mp hempty).1
  refine ⟨m, hmarker.trans hm, ?_, ?_⟩
  · rw [hsent, getElem?_snoc]
    exact Or.inl hempty
  · intro n q hn hq hne
    rw [hsent, getElem?_snoc] at hq
    rw [hwritten]
    rcases hq with hq | ⟨rfl, -⟩
    · exact hall n q hn hq hne
    · omega

/-- A sample that is lost as it arrives stays accounted for. -/
theorem Accounted.lose (h : Accounted s) {s' : Relay} {p : Bytes}
    (hsent : s'.sent = s.sent ++ [p])
    (hmem : ∀ l, l ∈ s'.lost ↔ l ∈ s.lost ∨ l = s.nextSample p)
    (hchannel : s'.channel = s.channel) (hhanded : s'.handed = s.handed)
    (hcloses : s'.closes = s.closes) (hmarker : s'.marker = s.marker) : Accounted s' where
  opened := hchannel ▸ h.opened
  noClose := hcloses.trans h.noClose
  noMarker := hmarker.trans h.noMarker
  place := by
    intro n q hq
    rw [hsent, getElem?_snoc] at hq
    rw [hhanded, hchannel, hmem]
    rcases hq with hq | ⟨rfl, rfl⟩
    · rcases h.place n q hq with hp | hp | hp
      · exact Or.inl hp
      · exact Or.inr (Or.inl hp)
      · exact Or.inr (Or.inr (Or.inl hp))
    · exact Or.inr (Or.inr (Or.inr rfl))
  order := by rw [hhanded, hchannel]; exact h.order
  numbered := by
    intro x hx
    rw [hhanded, hchannel] at hx
    rw [hsent, getElem?_snoc]
    exact Or.inl (h.numbered x hx)
  kept := by
    intro x hx l hl
    rw [hhanded, hchannel] at hx
    rcases (hmem l).mp hl with hl | rfl
    · exact h.kept x hx l hl
    · have hx' := (List.getElem?_eq_some_iff.mp (h.numbered x hx)).1
      exact Nat.ne_of_lt hx'

/-- An accepted sample joins the end of the queue. -/
theorem Accounted.accept (h : Accounted s) (hlost : ∀ l ∈ s.lost, s.sent[l.sn]? = some l.payload)
    {p : Bytes} {channel : BoundedChannel Sample}
    (room : s.channel.trySend (s.nextSample p) = .ok channel) :
    Accounted { s with
      sent := s.sent ++ [p]
      delivered := s.delivered ++ [s.nextSample p]
      channel := channel } := by
  obtain ⟨hq, -, hclosed, hopen, -⟩ := BoundedChannel.trySend_ok room
  have hsplit : ∀ x ∈ s.handed ++ channel.queue,
      x ∈ s.handed ++ s.channel.queue ∨ x = s.nextSample p := by
    intro x hx
    rw [hq, ← List.append_assoc] at hx
    rcases List.mem_append.mp hx with hx | hx
    · exact Or.inl hx
    · exact Or.inr (List.mem_singleton.mp hx)
  refine ⟨hclosed.trans hopen, h.noClose, h.noMarker, ?_, ?_, ?_, ?_⟩
  · intro n q hn
    rcases getElem?_snoc.mp hn with hn | ⟨rfl, rfl⟩
    · rcases h.place n q hn with hp | hp | hp
      · exact Or.inl hp
      · exact Or.inr (Or.inl (by rw [hq]; exact List.mem_append_left _ hp))
      · exact Or.inr (Or.inr hp)
    · exact Or.inr (Or.inl (by rw [hq]; exact List.mem_append_right _ (List.mem_singleton_self _)))
  · simp only [hq, ← List.append_assoc]
    refine List.pairwise_append.mpr ⟨h.order, List.pairwise_singleton _ _, ?_⟩
    intro x hx y hy
    rw [List.mem_singleton.mp hy]
    exact (List.getElem?_eq_some_iff.mp (h.numbered x hx)).1
  · intro x hx
    rcases hsplit x hx with hx | rfl
    · exact getElem?_snoc.mpr (Or.inl (h.numbered x hx))
    · exact getElem?_snoc.mpr (Or.inr ⟨rfl, rfl⟩)
  · intro x hx l hl
    rcases hsplit x hx with hx | rfl
    · exact h.kept x hx l hl
    · exact Nat.ne_of_gt (List.getElem?_eq_some_iff.mp (hlost l hl)).1

theorem CloseInv.deliver {p : Bytes} (h : CloseInv s) (hd : Delivered cfg s p s') :
    CloseInv s' := by
  have hgrow : ∀ l ∈ s.lost, (s.sent ++ [p])[l.sn]? = some l.payload :=
    fun l hl => getElem?_snoc.mpr (Or.inl (h.lostNumbered l hl))
  cases hd with
  | accepted channel room eq =>
      subst eq
      exact ⟨h.whole.snoc p rfl rfl rfl rfl, hgrow, h.flushed,
        fun ha => (h.accounted ha).accept h.lostNumbered room⟩
  | discarded closed eq =>
      subst eq
      refine ⟨h.whole.snoc p rfl rfl rfl rfl, hgrow, h.flushed, fun ha => ?_⟩
      rw [(h.accounted ha).opened] at closed
      cases closed
  | refused full callback eq =>
      subst eq
      have hmem : ∀ l, l ∈ s.refused ++ [s.nextSample p] ++ s.missed ↔
          l ∈ s.lost ∨ l = s.nextSample p := by
        intro l
        rw [lost, List.mem_append, List.mem_append, List.mem_append, List.mem_singleton,
          or_right_comm]
      refine ⟨h.whole.snoc p rfl rfl rfl rfl, ?_, h.flushed, fun ha => ?_⟩
      · intro l hl
        rcases (hmem l).mp hl with hl | rfl
        · exact hgrow l hl
        · exact getElem?_snoc.mpr (Or.inr ⟨rfl, rfl⟩)
      · exact (h.accounted ha).lose rfl hmem rfl rfl rfl rfl

theorem CloseInv.miss (h : CloseInv s) (p : Bytes) (cancelled : Bool) :
    CloseInv { s with
      sent := s.sent ++ [p], missed := s.missed ++ [s.nextSample p], cancelled := cancelled } := by
  have hmem : ∀ l, l ∈ s.refused ++ (s.missed ++ [s.nextSample p]) ↔
      l ∈ s.lost ∨ l = s.nextSample p := by
    intro l
    rw [lost, ← List.append_assoc, List.mem_append, List.mem_singleton]
  refine ⟨h.whole.snoc p rfl rfl rfl rfl, ?_, h.flushed, fun ha => ?_⟩
  · intro l hl
    rcases (hmem l).mp hl with hl | rfl
    · exact getElem?_snoc.mpr (Or.inl (h.lostNumbered l hl))
    · exact getElem?_snoc.mpr (Or.inr ⟨rfl, rfl⟩)
  · exact (h.accounted ha).lose rfl hmem rfl rfl rfl rfl

/-- What an honest marker closes: the samples before it are handed over or lost. -/
theorem Accounted.before_marker (h : Accounted s) {m : Sample} {rest : List Sample}
    (hqueue : s.channel.queue = m :: rest) {n : Nat} {p : Bytes} (hn : n < m.sn)
    (hsent : s.sent[n]? = some p) : ⟨n, p⟩ ∈ s.handed ∨ ⟨n, p⟩ ∈ s.lost := by
  rcases h.place n p hsent with hp | hp | hp
  · exact Or.inl hp
  · exfalso
    have horder := (List.pairwise_append.mp h.order).2.1
    rw [hqueue] at horder hp
    rcases List.mem_cons.mp hp with hp | hp
    · rw [← hp] at hn
      exact Nat.lt_irrefl _ hn
    · have := List.rel_of_pairwise_cons horder hp
      simp only at this
      omega
  · exact Or.inr hp

theorem CloseInv.recv (h : CloseInv s) (ht : Taken s s') (hok : ClosesHonestly s .recv) :
    CloseInv s' := by
  cases ht with
  | marker m channel select head empty eq =>
      have acc := h.accounted (by rw [select]; trivial)
      have hflushed : s.written = s.handed := by
        have := h.flushed
        rwa [Flushed, select] at this
      have hqueue := (BoundedChannel.recv_some head).1
      have hmarker : s.sent[m.sn]? = some [] := by
        rw [acc.numbered m (by rw [hqueue]; simp), empty]
      subst eq
      refine ⟨fun _ => ⟨m, rfl, hmarker, ?_⟩, h.lostNumbered, trivial, False.elim⟩
      intro n p hn hp hne
      change (⟨n, p⟩ : Sample) ∈ s.written
      rw [hflushed]
      rcases acc.before_marker hqueue hn hp with hmem | hmem
      · exact hmem
      · have := hok m (by simp [hqueue]) empty _ hmem hne
        simp only at this
        omega
  | data x channel select head nonempty eq =>
      have acc := h.accounted (by rw [select]; trivial)
      have hflushed : s.written = s.handed := by
        have := h.flushed
        rwa [Flushed, select] at this
      obtain ⟨hqueue, -, hclosed⟩ := BoundedChannel.recv_some head
      have hmove : (s.handed ++ [x]) ++ channel.queue = s.handed ++ s.channel.queue := by
        simp [hqueue]
      subst eq
      refine ⟨?_, h.lostNumbered, ?_, fun _ =>
        ⟨hclosed.trans acc.opened, acc.noClose, acc.noMarker, ?_, ?_, ?_, ?_⟩⟩
      · exact fun hc => absurd acc.noClose hc
      · change s.handed ++ [x] = s.written ++ [x]
        rw [hflushed]
      · intro n p hp
        rcases acc.place n p hp with hmem | hmem | hmem
        · exact Or.inl (List.mem_append_left _ hmem)
        · rw [hqueue] at hmem
          rcases List.mem_cons.mp hmem with hmem | hmem
          · exact Or.inl (by rw [hmem]; simp)
          · exact Or.inr (Or.inl hmem)
        · exact Or.inr (Or.inr hmem)
      · exact hmove ▸ acc.order
      · exact hmove ▸ acc.numbered
      · exact hmove ▸ acc.kept

/-- Outside the `rx.recv()` and `cancelled()` arms nothing is closed, and a sample
becomes written only when its `write_data` returns. -/
structure Flushes (s s' : Relay) : Prop where
  closes : s'.closes = s.closes
  written : ∀ x ∈ s.written, x ∈ s'.written
  flushed : Flushed s → Flushed s'

theorem Flushes.keep (hcloses : s'.closes = s.closes) (hwritten : s'.written = s.written)
    (hhanded : s'.handed = s.handed) (hreceiver : s'.receiver = s.receiver) : Flushes s s' := by
  refine ⟨hcloses, fun x hx => hwritten ▸ hx, ?_⟩
  intro h
  unfold Flushed at h ⊢
  rw [hreceiver, hwritten, hhanded]
  exact h

theorem Flushes.stop (hcloses : s'.closes = s.closes) (hwritten : s'.written = s.written)
    (hreceiver : s'.receiver.finished = true) : Flushes s s' := by
  refine ⟨hcloses, fun x hx => hwritten ▸ hx, fun _ => ?_⟩
  unfold Flushed
  split
  · rename_i heq
    rw [heq] at hreceiver
    cases hreceiver
  · rename_i heq
    rw [heq] at hreceiver
    cases hreceiver
  · trivial

theorem step_flushes (h : Relay.step cfg s a = some s') (hrecv : a ≠ .recv)
    (hcancel : a ≠ .receiverCancelled) : Flushes s s' := by
  cases step_branch h with
  | taken taken => exact absurd rfl hrecv
  | shuts select token => exact absurd rfl hcancel
  | delivered payload delivered =>
      cases delivered with
      | accepted channel room eq => exact eq ▸ .keep rfl rfl rfl rfl
      | discarded closed eq => exact eq ▸ .keep rfl rfl rfl rfl
      | refused full callback eq => exact eq ▸ .keep rfl rfl rfl rfl
  | wrote sample writing =>
      refine ⟨rfl, fun y hy => List.mem_append_left _ hy, ?_⟩
      intro hf
      rw [Flushed, writing] at hf
      exact hf.symm
  | deserted | writeFailed | halfClosed | halfCloseFailed | shut | receiverAborted =>
      exact .stop rfl rfl rfl
  | missed | tripped | dropped | read | readFailed | published | publishFailed | senderReset
  | errorSignalled | listenerDrained | tornDown | senderAborted => exact .keep rfl rfl rfl rfl

theorem CloseInv.quiet (h : CloseInv s) (q : Quiet s s') (f : Flushes s s') : CloseInv s' := by
  have hlost : s'.lost = s.lost := by rw [lost, lost, q.refused, q.missed]
  refine ⟨?_, ?_, f.flushed h.flushed, ?_⟩
  · intro hc
    rw [f.closes] at hc
    obtain ⟨m, hm, hempty, hall⟩ := h.whole hc
    rw [q.marker, q.sent]
    exact ⟨m, hm, hempty, fun n p hn hp hne => f.written _ (hall n p hn hp hne)⟩
  · rw [hlost, q.sent]
    exact h.lostNumbered
  · intro ha
    obtain ⟨hactive, hchannel⟩ := q.active ha
    have acc := h.accounted hactive
    refine ⟨?_, f.closes.trans acc.noClose, q.marker.trans acc.noMarker, ?_, ?_, ?_, ?_⟩
    · rw [hchannel]; exact acc.opened
    · rw [q.sent, q.handed, hchannel, hlost]; exact acc.place
    · rw [q.handed, hchannel]; exact acc.order
    · rw [q.handed, hchannel, q.sent]; exact acc.numbered
    · rw [q.handed, hchannel, hlost]; exact acc.kept

theorem CloseInv.step (h : CloseInv s) (hok : ClosesHonestly s a)
    (hs : Relay.step cfg s a = some s') : CloseInv s' := by
  rcases step_inv hs with ⟨p, -, hd⟩ | ⟨p, -, cancelled, rfl⟩ | ⟨rfl, ht⟩ | ⟨hrecv, q⟩
  · exact h.deliver hd
  · exact h.miss p cancelled
  · exact h.recv ht hok
  · refine h.quiet q (step_flushes hs hrecv ?_)
    rintro rfl
    exact hok

/-- The `cancelled()` arm closes gracefully before any marker was received. -/
theorem CloseInv.forged_by_cancelled (h : CloseInv s) (hs : s.receiverCancelled = some s') :
    ¬ EndsWhole s' := by
  unfold receiverCancelled at hs
  split at hs
  · rename_i hselect
    have acc := h.accounted (by rw [hselect.1]; trivial)
    cases hs
    intro hwhole
    obtain ⟨m, hm, -⟩ := hwhole (List.append_ne_nil_of_right_ne_nil _ (List.cons_ne_nil _ _))
    simp only [acc.noMarker] at hm
    cases hm
  · cases hs

/-- Taking a marker after a lost data sample closes a stream with a hole in it. -/
theorem CloseInv.forged_by_marker (h : CloseInv s) (hs : s.recv = some s')
    (hbad : ¬ ClosesHonestly s .recv) : ¬ EndsWhole s' := by
  simp only [ClosesHonestly, not_forall, Nat.not_lt] at hbad
  obtain ⟨m, hm, hempty, l, hl, hdata, hle⟩ := hbad
  cases recv_inv hs with
  | data x channel select head nonempty eq =>
      have hqueue := (BoundedChannel.recv_some head).1
      rw [hqueue, List.head?_cons, Option.mem_some_iff] at hm
      rw [hm] at nonempty
      exact absurd hempty nonempty
  | marker x channel select head empty eq =>
      have acc := h.accounted (by rw [select]; trivial)
      have hqueue := (BoundedChannel.recv_some head).1
      have hx : x = m := by
        rw [hqueue, List.head?_cons, Option.mem_some_iff] at hm
        exact hm
      have hne : m.sn ≠ l.sn := acc.kept m (by rw [hqueue, hx]; simp) l hl
      have hflushed : s.written = s.handed := by
        have := h.flushed
        rwa [Flushed, select] at this
      subst eq
      intro hwhole
      obtain ⟨m', hm', -, hall⟩ :=
        hwhole (List.append_ne_nil_of_right_ne_nil _ (List.cons_ne_nil _ _))
      have hmm : m = m' := hx ▸ Option.some.inj hm'
      have hwritten : l ∈ s.written :=
        hall l.sn l.payload (by rw [← hmm]; omega) (h.lostNumbered l hl) hdata
      rw [hflushed] at hwritten
      exact acc.kept l (List.mem_append_left _ hwritten) l hl rfl

theorem CloseInv.forged (h : CloseInv s) (hbad : ¬ ClosesHonestly s a)
    (hs : Relay.step cfg s a = some s') : ¬ EndsWhole s' := by
  cases a with
  | receiverCancelled => exact h.forged_by_cancelled hs
  | recv => exact h.forged_by_marker hs hbad
  | _ => exact absurd trivial hbad

/-- In every schedule of either relay, faults included, each graceful close of the
write half follows the peer's EOF marker and every data sample before it exactly
when the receiving task never leaves through its `cancelled()` arm and never takes
a marker after a data sample that was refused or missed. -/
theorem endsWhole_iff_closesHonestly (cfg : RelayConfig) (schedule : List RelayAction) :
    Always (Relay.step cfg) EndsWhole (init cfg) schedule ↔
      Along (Relay.step cfg) ClosesHonestly (init cfg) schedule :=
  always_iff_along (fun _ _ => True) (fun _ h => h.whole)
    (fun _ _ _ h _ hok hs => h.step hok hs)
    (fun _ _ _ h _ hbad hs => h.forged hbad hs)
    (closeInv_init cfg) (along_of_labels (fun _ _ => trivial) _)

/-- The backend sends one chunk and then fails: the error signal resets the import
relay, whose `cancelled()` arm shuts the client's socket down without any marker. -/
theorem endsWhole_fails_on_reset :
    ¬ Always (Relay.step ⟨4, .stream, .importing⟩) EndsWhole (init ⟨4, .stream, .importing⟩)
      [.deliver [1], .recv, .writeDone true, .errorSignal, .receiverCancelled] := by
  intro h
  have hlast := h.last rfl
  obtain ⟨m, hm, -⟩ := hlast (List.cons_ne_nil _ _)
  cases hm

end Relay

end ZenohBridge
