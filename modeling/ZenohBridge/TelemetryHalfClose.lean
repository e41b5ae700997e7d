import ZenohBridge.RelayTasks

/-!
# Telemetry mode and the half-close

In telemetry mode the reception callback sheds what does not fit the channel. The
callback does not look at payloads, and the EOF marker is a sample like any other: when
it meets a full channel it is shed, and the receiving task waits for it for good.
-/

namespace ZenohBridge

open Execution

namespace Relay

variable {cfg : RelayConfig} {s s' : Relay} {a : RelayAction}

/-- No EOF marker was shed, and once a marker was delivered and the channel is drained,
the receiving task has left its loop by `send_eof` or the connection is reset. -/
def HalfCloseKept (s : Relay) : Prop :=
  (∀ x ∈ s.refused, x.payload ≠ []) ∧
    ((∃ x ∈ s.delivered, x.payload = []) → s.channel.queue = [] →
      (.sendEof ∈ s.closes ∧ ¬ s.receiver.active) ∨ s.cancelled = true)

/-- An EOF marker that is delivered finds room, or the receiving task is gone. -/
def MarkerFits (s : Relay) (a : RelayAction) : Prop :=
  a = .deliver [] → s.channel.closed = true ∨ s.channel.queue.length < s.channel.capacity

/-- The invariant of the runs in which every marker fits. -/
structure HalfCloseInv (s : Relay) : Prop where
  shed : ∀ x ∈ s.refused, x.payload ≠ []
  opened : s.receiver.active → s.channel.closed = false
  silent : s.receiver.active → s.closes = []
  queued : s.receiver.active → ∀ x ∈ s.delivered, x.payload = [] →
    ∃ y ∈ s.channel.queue, y.payload = []
  left : ¬ s.receiver.active → .sendEof ∈ s.closes ∨ s.cancelled = true

theorem halfCloseInv_init (cfg : RelayConfig) : HalfCloseInv (init cfg) where
  shed := by simp [init]
  opened := fun _ => rfl
  silent := fun _ => rfl
  queued := by simp [init]
  left := fun hleft => absurd trivial hleft

theorem HalfCloseInv.kept (h : HalfCloseInv s) : HalfCloseKept s := by
  constructor
  · exact h.shed
  · rintro ⟨x, hx, hempty⟩ hdrained
    have hleft : ¬ s.receiver.active := by
      intro hactive
      obtain ⟨y, hy, -⟩ := h.queued hactive x hx hempty
      rw [hdrained] at hy
      cases hy
    exact (h.left hleft).imp_left fun hclose => ⟨hclose, hleft⟩

/-- A step outside the callback and the `rx.recv()` arm keeps what was delivered. -/
theorem HalfCloseInv.quiet (h : HalfCloseInv s) (q : Quiet s s') (e : Exits s s') :
    HalfCloseInv s' where
  shed := by
    rw [q.refused]
    exact h.shed
  opened := by
    intro hactive
    rw [(q.active hactive).2]
    exact h.opened (q.active hactive).1
  silent := by
    intro hactive
    rw [e.kept hactive]
    exact h.silent (q.active hactive).1
  queued := by
    intro hactive
    rw [q.delivered, (q.active hactive).2]
    exact h.queued (q.active hactive).1
  left := by
    intro hleft
    by_cases hactive : s.receiver.active
    · exact Or.inr (e.tripped hactive hleft)
    · exact (h.left hactive).imp (fun hclose => e.closes.subset hclose) e.token

theorem HalfCloseInv.miss (h : HalfCloseInv s) {p : Bytes} (hs : s.miss cfg p = some s') :
    HalfCloseInv s' := by
  cases miss_branch hs with
  | missed payload cancelled kept =>
      exact ⟨h.shed, h.opened, h.silent, h.queued,
        fun hleft => (h.left hleft).imp_right kept⟩

theorem HalfCloseInv.deliver (h : HalfCloseInv s) {p : Bytes} (hd : Delivered cfg s p s')
    (hok : MarkerFits s (.deliver p)) : HalfCloseInv s' := by
  cases hd with
  | accepted channel room eq =>
      obtain ⟨hqueue, -, hclosed, hopen, -⟩ := BoundedChannel.trySend_ok room
      subst eq
      refine ⟨h.shed, fun _ => hclosed.trans hopen, h.silent, ?_, h.left⟩
      intro hactive x hx hempty
      simp only [hqueue]
      rcases List.mem_append.mp hx with hx | hx
      · obtain ⟨y, hy, hy'⟩ := h.queued hactive x hx hempty
        exact ⟨y, List.mem_append_left _ hy, hy'⟩
      · exact ⟨x, List.mem_append_right _ hx, hempty⟩
  | discarded closed eq =>
      subst eq
      -- a discarded sample says that the receiving task is gone
      have hgone : ¬ s.receiver.active := by
        intro hactive
        rw [h.opened hactive] at closed
        cases closed
      exact ⟨h.shed, h.opened, h.silent, fun hactive => absurd hactive hgone, h.left⟩
  | refused full callback eq =>
      have hne : p ≠ [] := by
        rintro rfl
        obtain hclosed | hroom := hok rfl
        · rw [full.1] at hclosed
          cases hclosed
        · have := full.2
          omega
      subst eq
      refine ⟨?_, h.opened, h.silent, ?_, h.left⟩
      · intro x hx
        rcases List.mem_append.mp hx with hx | hx
        · exact h.shed x hx
        · rw [List.mem_singleton.mp hx]
          exact hne
      · intro hactive x hx hempty
        rcases List.mem_append.mp hx with hx | hx
        · exact h.queued hactive x hx hempty
        · rw [List.mem_singleton.mp hx] at hempty
          exact absurd hempty hne

theorem HalfCloseInv.recv (h : HalfCloseInv s) (ht : Taken s s') : HalfCloseInv s' := by
  cases ht with
  | marker sample channel select head empty eq =>
      subst eq
      refine ⟨h.shed, False.elim, False.elim, False.elim, fun _ => Or.inl ?_⟩
      exact List.mem_append_right _ (List.mem_singleton_self _)
  | data sample channel select head nonempty eq =>
      have hactive : s.receiver.active := by
        rw [select]
        trivial
      obtain ⟨hqueue, -, hclosed⟩ := BoundedChannel.recv_some head
      subst eq
      refine ⟨h.shed, fun _ => hclosed.trans (h.opened hactive), fun _ => h.silent hactive, ?_,
        fun hleft => absurd trivial hleft⟩
      intro _ x hx hempty
      obtain ⟨y, hy, hy'⟩ := h.queued hactive x hx hempty
      rw [hqueue] at hy
      obtain rfl | hy := List.mem_cons.mp hy
      · exact absurd hy' nonempty
      · exact ⟨y, hy, hy'⟩

theorem HalfCloseInv.step (h : HalfCloseInv s) (hok : MarkerFits s a)
    (hs : Relay.step cfg s a = some s') : HalfCloseInv s' := by
  rcases step_inv hs with ⟨p, rfl, hd⟩ | ⟨p, rfl, -⟩ | ⟨rfl, ht⟩ | ⟨hrecv, q⟩
  · exact h.deliver hd hok
  · exact h.miss hs
  · exact h.recv ht
  · exact h.quiet q (step_exits hs hrecv)

/-- A marker that meets a full channel is among the shed samples. -/
theorem HalfCloseInv.shed_marker (hbad : ¬ MarkerFits s a) (hs : Relay.step cfg s a = some s') :
    ¬ HalfCloseKept s' := by
  simp only [MarkerFits, not_forall, not_or, Bool.not_eq_true, Nat.not_lt] at hbad
  obtain ⟨rfl, hopen, hfull⟩ := hbad
  rintro ⟨hshed, -⟩
  cases deliver_inv hs with
  | accepted channel room eq =>
      have := (BoundedChannel.trySend_ok room).2.2.2.2
      omega
  | discarded closed eq =>
      rw [hopen] at closed
      cases closed
  | refused full callback eq =>
      subst eq
      exact hshed (s.nextSample []) (List.mem_append_right _ (List.mem_singleton_self _)) rfl

/-- In every schedule of a telemetry relay the half-close is kept in every state exactly
when every EOF marker that is delivered finds room in the channel. -/
theorem halfCloseKept_iff_markerFits (capacity : Nat) (side : Side) (schedule : List RelayAction) :
    Always (Relay.step ⟨capacity, .telemetry, side⟩) HalfCloseKept
        (init ⟨capacity, .telemetry, side⟩) schedule ↔
      Along (Relay.step ⟨capacity, .telemetry, side⟩) MarkerFits
        (init ⟨capacity, .telemetry, side⟩) schedule := by
  apply always_iff_along (fun _ _ => True) (fun _ => HalfCloseInv.kept)
  · intro s a s' h _ hok hs
    exact h.step hok hs
  · intro s a s' _ _ hbad hs
    exact HalfCloseInv.shed_marker hbad hs
  · exact halfCloseInv_init _
  · exact along_of_labels (fun _ _ => trivial) _

/-- A telemetry relay with one slot. The marker arrives while the channel still holds the
last data sample; the task writes that sample and waits. -/
theorem halfCloseKept_fails_when_full :
    ¬ Always (Relay.step ⟨1, .telemetry, .importing⟩) HalfCloseKept
      (init ⟨1, .telemetry, .importing⟩)
      [.deliver [1], .deliver [], .recv, .writeDone true] := by
  intro h
  have hlast := (h.last rfl).2 ⟨⟨1, []⟩, by decide, rfl⟩ rfl
  revert hlast
  rintro (⟨hclose, -⟩ | ⟨⟨⟩⟩)
  exact absurd hclose (by decide)

end Relay

end ZenohBridge
