import ZenohBridge.Relay

/-!
# Stream mode and reception overflow

An overflow in stream mode trips the connection token, but the receiving task
sees the token only when its unbiased `select!` picks the `cancelled()` arm. Every
sample it takes from the channel before that frees a slot that the callback may
fill with a sample following the refused one. The channel holds `capacity`
samples at the overflow, so the stream stays free of gaps exactly as long as the
task takes at most that many more.
-/

namespace ZenohBridge

open Execution

namespace Relay

/-- The payloads handed to `write_data` are a prefix of the delivered ones, and
none of them follows a sample that a full channel refused. -/
def NoGap (s : Relay) : Prop :=
  s.handed.map Sample.payload <+: s.delivered.map Sample.payload ∧
    ∀ x ∈ s.handed, ∀ r ∈ s.refused, x.sn < r.sn

/-- Before this step the task took fewer samples since the first refusal than the
channel held at that refusal, or the step takes no data sample. -/
def WithinBacklog (s : Relay) (a : RelayAction) : Prop :=
  a = .recv → s.refused ≠ [] →
    (∃ x ∈ s.channel.queue.head?, x.payload ≠ []) → s.takenSinceRefusal < s.channel.capacity

/-- The queue of an active receiver: first the samples that precede every refused
one, then those accepted after a refusal. -/
structure Backlog (s : Relay) (clean later : List Sample) : Prop where
  opened : s.channel.closed = false
  queue : s.channel.queue = clean ++ later
  delivered : s.handed ++ clean <+: s.delivered
  before : ∀ x ∈ clean, ∀ r ∈ s.refused, x.sn < r.sn
  after : ∀ y ∈ later, ∃ r ∈ s.refused, r.sn < y.sn
  complete : s.refused = [] → later = [] ∧ s.handed ++ clean = s.delivered ∧
    s.takenSinceRefusal = 0
  count : s.refused ≠ [] → clean.length + s.takenSinceRefusal = s.channel.capacity

/-- The invariant of every run that stays within the backlog. -/
structure GapInv (s : Relay) : Prop where
  numbered : ∀ x ∈ s.delivered, x.sn < s.sent.length
  refusedNumbered : ∀ r ∈ s.refused, r.sn < s.sent.length
  handed : s.handed <+: s.delivered
  before : ∀ x ∈ s.handed, ∀ r ∈ s.refused, x.sn < r.sn
  backlog : s.receiver.active → ∃ clean later, Backlog s clean later

variable {cfg : RelayConfig} {s s' : Relay} {a : RelayAction}

theorem gapInv_init (cfg : RelayConfig) : GapInv (init cfg) where
  numbered := by simp [init]
  refusedNumbered := by simp [init]
  handed := List.prefix_rfl
  before := by simp [init]
  backlog := by
    intro _
    exact ⟨[], [], rfl, rfl, List.prefix_rfl, by simp, by simp, fun _ => ⟨rfl, rfl, rfl⟩,
      fun h => absurd rfl h⟩

theorem GapInv.noGap (h : GapInv s) : NoGap s :=
  ⟨h.handed.map _, h.before⟩

theorem GapInv.quiet (h : GapInv s) (q : Quiet s s') : GapInv s' where
  numbered := by rw [q.delivered, q.sent]; exact h.numbered
  refusedNumbered := by rw [q.refused, q.sent]; exact h.refusedNumbered
  handed := by rw [q.handed, q.delivered]; exact h.handed
  before := by rw [q.handed, q.refused]; exact h.before
  backlog := by
    intro ha
    obtain ⟨hactive, hchannel⟩ := q.active ha
    obtain ⟨clean, later, b⟩ := h.backlog hactive
    refine ⟨clean, later, ?_, ?_, ?_, ?_, ?_, ?_, ?_⟩
    · rw [hchannel]; exact b.opened
    · rw [hchannel]; exact b.queue
    · rw [q.handed, q.delivered]; exact b.delivered
    · rw [q.refused]; exact b.before
    · rw [q.refused]; exact b.after
    · rw [q.refused, q.handed, q.delivered, q.takenSinceRefusal]; exact b.complete
    · rw [q.refused, q.takenSinceRefusal, hchannel]; exact b.count

/-- A missed sample only moves the numbering on. -/
theorem GapInv.miss (h : GapInv s) (p : Bytes) (cancelled : Bool) :
    GapInv { s with
      sent := s.sent ++ [p], missed := s.missed ++ [s.nextSample p], cancelled := cancelled } where
  numbered := by
    intro x hx
    have := h.numbered x hx
    simp only [List.length_append, List.length_singleton]
    omega
  refusedNumbered := by
    intro r hr
    have := h.refusedNumbered r hr
    simp only [List.length_append, List.length_singleton]
    omega
  handed := h.handed
  before := h.before
  backlog := by
    intro ha
    obtain ⟨clean, later, b⟩ := h.backlog ha
    exact ⟨clean, later, b.opened, b.queue, b.delivered, b.before, b.after, b.complete, b.count⟩

/-- An accepted sample joins the clean part of the queue before the first refusal and its
later part afterwards. -/
theorem Backlog.accept {p : Bytes} {clean later : List Sample} {channel : BoundedChannel Sample}
    (b : Backlog s clean later) (numbered : ∀ r ∈ s.refused, r.sn < s.sent.length)
    (room : s.channel.trySend (s.nextSample p) = .ok channel) :
    ∃ clean later, Backlog { s with
      sent := s.sent ++ [p]
      delivered := s.delivered ++ [s.nextSample p]
      channel := channel } clean later := by
  obtain ⟨hq, hcap, hclosed, hopen, -⟩ := BoundedChannel.trySend_ok room
  by_cases hr : s.refused = []
  · obtain ⟨hlater, hall, htaken⟩ := b.complete hr
    have hall' : s.handed ++ (clean ++ [s.nextSample p]) = s.delivered ++ [s.nextSample p] := by
      rw [← List.append_assoc, hall]
    refine ⟨clean ++ [s.nextSample p], [], ?_, ?_, ?_, ?_, ?_, ?_, ?_⟩
    · exact hclosed.trans hopen
    · simp only [hq, b.queue, hlater, List.append_nil]
    · exact hall' ▸ List.prefix_rfl
    · simp [hr]
    · simp
    · exact fun _ => ⟨rfl, hall', htaken⟩
    · exact fun hne => absurd hr hne
  · refine ⟨clean, later ++ [s.nextSample p], ?_, ?_, ?_, b.before, ?_, ?_, ?_⟩
    · exact hclosed.trans hopen
    · simp only [hq, b.queue, List.append_assoc]
    · exact b.delivered.trans (List.prefix_append _ _)
    · intro y hy
      rcases List.mem_append.mp hy with hy | hy
      · exact b.after y hy
      · obtain ⟨r, hmem⟩ := List.exists_mem_of_ne_nil _ hr
        exact ⟨r, hmem, by rw [List.mem_singleton.mp hy]; exact numbered r hmem⟩
    · exact fun hnil => absurd hnil hr
    · exact fun hne => by simpa only [hcap] using b.count hne

/-- What precedes the refused samples precedes a newly refused one. -/
theorem before_refuse {p : Bytes} {x : Sample} (before : ∀ r ∈ s.refused, x.sn < r.sn)
    (numbered : x.sn < s.sent.length) :
    ∀ r ∈ s.refused ++ [s.nextSample p], x.sn < r.sn := by
  intro r hr
  rcases List.mem_append.mp hr with hr | hr
  · exact before r hr
  · rw [List.mem_singleton.mp hr]
    exact numbered

/-- A refused sample finds a full queue. -/
theorem Backlog.refuse {p : Bytes} {clean later : List Sample} (b : Backlog s clean later)
    (numbered : ∀ x ∈ s.delivered, x.sn < s.sent.length)
    (full : s.channel.queue.length = s.channel.capacity) (callback : Callback) :
    Backlog { s with
      sent := s.sent ++ [p]
      delivered := s.delivered ++ [s.nextSample p]
      refused := s.refused ++ [s.nextSample p]
      callback := callback } clean later := by
  refine ⟨b.opened, b.queue, ?_, ?_, ?_, ?_, ?_⟩
  · exact b.delivered.trans (List.prefix_append _ _)
  · intro x hx
    have hmem : x ∈ s.delivered := b.delivered.subset (List.mem_append_right _ hx)
    exact before_refuse (b.before x hx) (numbered x hmem)
  · intro y hy
    obtain ⟨r, hr, hlt⟩ := b.after y hy
    exact ⟨r, List.mem_append_left _ hr, hlt⟩
  · simp
  · intro _
    by_cases hr : s.refused = []
    · -- The first refusal: the queue is entirely clean.
      obtain ⟨hlater, -, htaken⟩ := b.complete hr
      rw [b.queue, hlater, List.append_nil] at full
      simpa only [htaken, Nat.add_zero] using full
    · exact b.count hr

/-- A callback invocation keeps the invariant. -/
theorem GapInv.deliver {p : Bytes} (h : GapInv s) (hd : Delivered cfg s p s') : GapInv s' := by
  have hnew : ∀ x ∈ s.delivered ++ [s.nextSample p], x.sn < (s.sent ++ [p]).length := by
    intro x hx
    rw [List.length_append, List.length_singleton]
    rcases List.mem_append.mp hx with hx | hx
    · have := h.numbered x hx
      omega
    · rw [List.mem_singleton.mp hx]
      simp [nextSample]
  have hold : ∀ r ∈ s.refused, r.sn < (s.sent ++ [p]).length := by
    intro r hr
    have := h.refusedNumbered r hr
    rw [List.length_append, List.length_singleton]
    omega
  have hbegins : s.handed <+: s.delivered ++ [s.nextSample p] :=
    h.handed.trans (List.prefix_append _ _)
  cases hd with
  | accepted channel room eq =>
      subst eq
      refine ⟨hnew, hold, hbegins, h.before, fun ha => ?_⟩
      obtain ⟨clean, later, b⟩ := h.backlog ha
      exact b.accept h.refusedNumbered room
  | discarded closed eq =>
      subst eq
      refine ⟨hnew, hold, hbegins, h.before, fun ha => ?_⟩
      obtain ⟨clean, later, b⟩ := h.backlog ha
      rw [b.opened] at closed
      cases closed
  | refused full callback eq =>
      subst eq
      refine ⟨hnew, ?_, hbegins, ?_, fun ha => ?_⟩
      · intro r hr
        rcases List.mem_append.mp hr with hr | hr
        · exact hold r hr
        · exact hnew r (List.mem_append_right _ hr)
      · intro x hx
        exact before_refuse (h.before x hx) (h.numbered x (h.handed.subset hx))
      · obtain ⟨clean, later, b⟩ := h.backlog ha
        exact ⟨clean, later, b.refuse h.numbered full.2 callback⟩

/-- Within the backlog the next taken data sample precedes every refused one. -/
theorem Backlog.clean_ne_nil {clean later : List Sample} {x : Sample}
    {channel : BoundedChannel Sample} (b : Backlog s clean later)
    (head : s.channel.recv = some (x, channel)) (nonempty : x.payload ≠ [])
    (hok : WithinBacklog s .recv) : ∃ rest, clean = x :: rest := by
  have hqueue := (BoundedChannel.recv_some head).1
  have hsplit := b.queue
  rw [hqueue] at hsplit
  cases clean with
  | cons y rest =>
      rw [List.cons_append] at hsplit
      obtain ⟨rfl, -⟩ := List.cons.inj hsplit
      exact ⟨rest, rfl⟩
  | nil =>
      exfalso
      by_cases hr : s.refused = []
      · rw [(b.complete hr).1] at hsplit
        cases hsplit
      · have hlt := hok rfl hr ⟨x, by simp [hqueue], nonempty⟩
        have hcount := b.count hr
        rw [List.length_nil, Nat.zero_add] at hcount
        omega

theorem GapInv.recv (h : GapInv s) (ht : Taken s s') (hok : WithinBacklog s .recv) :
    GapInv s' := by
  cases ht with
  | marker sample channel select head empty eq =>
      subst eq
      exact ⟨h.numbered, h.refusedNumbered, h.handed, h.before, False.elim⟩
  | data sample channel select head nonempty eq =>
      obtain ⟨clean, later, b⟩ := h.backlog (by rw [select]; trivial)
      obtain ⟨rest, rfl⟩ := b.clean_ne_nil head nonempty hok
      obtain ⟨hqueue, hcap, hclosed⟩ := BoundedChannel.recv_some head
      have hsplit := b.queue
      rw [hqueue, List.cons_append] at hsplit
      have happend : (s.handed ++ [sample]) ++ rest = s.handed ++ (sample :: rest) := by simp
      have hbefore := b.before sample (List.mem_cons_self ..)
      subst eq
      refine ⟨h.numbered, h.refusedNumbered, ?_, ?_, fun _ => ⟨rest, later, ?_, ?_, ?_, ?_, ?_, ?_, ?_⟩⟩
      · exact (List.prefix_append _ rest).trans (happend ▸ b.delivered)
      · intro x hx
        rcases List.mem_append.mp hx with hx | hx
        · exact h.before x hx
        · rw [List.mem_singleton.mp hx]
          exact hbefore
      · exact hclosed.trans b.opened
      · exact (List.cons.inj hsplit).2
      · exact happend ▸ b.delivered
      · exact fun x hx => b.before x (List.mem_cons_of_mem _ hx)
      · exact b.after
      · intro (hr : s.refused = [])
        obtain ⟨hlater, hall, htaken⟩ := b.complete hr
        exact ⟨hlater, happend.trans hall, by simp [hr, htaken]⟩
      · intro (hr : s.refused ≠ [])
        have hcount := b.count hr
        rw [List.length_cons] at hcount
        simp only [if_neg hr, hcap]
        omega

theorem GapInv.step (h : GapInv s) (hok : WithinBacklog s a)
    (hs : Relay.step cfg s a = some s') : GapInv s' := by
  rcases step_inv hs with ⟨p, -, hd⟩ | ⟨p, -, cancelled, rfl⟩ | ⟨rfl, ht⟩ | ⟨-, q⟩
  · exact h.deliver hd
  · exact h.miss p cancelled
  · exact h.recv ht hok
  · exact h.quiet q

/-- Taking one sample too many hands over a sample that follows a refused one. -/
theorem GapInv.gap_of_not_withinBacklog (h : GapInv s) (hbad : ¬ WithinBacklog s a)
    (hs : Relay.step cfg s a = some s') : ¬ NoGap s' := by
  simp only [WithinBacklog, not_forall, Nat.not_lt] at hbad
  obtain ⟨rfl, hr, ⟨y, hy, hne⟩, hlt⟩ := hbad
  cases recv_inv hs with
  | marker sample channel select head empty eq =>
      have hqueue := (BoundedChannel.recv_some head).1
      rw [hqueue, List.head?_cons, Option.mem_some_iff] at hy
      rw [hy] at empty
      exact absurd empty hne
  | data sample channel select head nonempty eq =>
      obtain ⟨clean, later, b⟩ := h.backlog (by rw [select]; trivial)
      have hcount := b.count hr
      have hclean : clean = [] := List.length_eq_zero_iff.mp (by omega)
      have hqueue := (BoundedChannel.recv_some head).1
      have hsplit := b.queue
      rw [hqueue, hclean, List.nil_append] at hsplit
      obtain ⟨r, hmem, hsn⟩ := b.after sample (by rw [← hsplit]; exact List.mem_cons_self ..)
      subst eq
      rintro ⟨-, hbefore⟩
      have hlt' := hbefore sample (List.mem_append_right _ (List.mem_singleton_self _)) r hmem
      omega

/-- In every schedule of a relay the written stream is free of gaps in every
state exactly when, after a first refusal, the receiving task takes no data sample
beyond the `capacity` samples that were queued at that refusal. -/
theorem noGap_iff_withinBacklog (cfg : RelayConfig) (schedule : List RelayAction) :
    Always (Relay.step cfg) NoGap (init cfg) schedule ↔
      Along (Relay.step cfg) WithinBacklog (init cfg) schedule :=
  always_iff_along (fun _ _ => True) (fun _ => GapInv.noGap)
    (fun _ _ _ h _ hok hs => h.step hok hs)
    (fun _ _ _ h _ hbad hs => h.gap_of_not_withinBacklog hbad hs)
    (gapInv_init cfg) (along_of_labels (fun _ _ => trivial) _)

/-- A stream-mode relay with one slot. The second sample is refused and trips the
token, the task drains the first one, the callback accepts the third one, and the
`select!` takes the `rx.recv()` arm once more. -/
theorem noGap_fails_after_overflow :
    ¬ Always (Relay.step ⟨1, .stream, .importing⟩) NoGap (init ⟨1, .stream, .importing⟩)
      [.deliver [1], .deliver [2], .trip, .recv, .deliver [3], .writeDone true, .recv] := by
  intro h
  have hlast := h.last rfl
  have hbegins : [[1], [3]] <+: ([[1], [2], [3]] : List Bytes) := hlast.1
  revert hbegins
  decide

end Relay

end ZenohBridge
