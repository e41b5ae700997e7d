import ZenohBridge.ClientRun

/-!
# The timeline of an exported client

The dial ends after six attempts and the pauses between them, the publication of the signal
after its budget, and a relay that was reset after the drain time. What is left without a bound
are a healthy relay and the undeclares after it. The invariant of this module says so for every
step that is taken in time.
-/

namespace ZenohBridge

open Deadline

namespace ClientRun

variable {cfg : ClientConfig} {now : Nat} {c c' : ClientRun} {a : RunAction}

/-- What the dial can take: all attempts and the pauses between them. -/
def dialSpan (cfg : ClientConfig) : Nat :=
  cfg.connectTimeout + Retry.span cfg.connectTimeout dialPauses

/-- Six attempts, with 100, 200, 400, 800 and 1600 ms between them. -/
theorem dialSpan_eq (cfg : ClientConfig) : dialSpan cfg = 6 * cfg.connectTimeout + 3100 := by
  simp only [dialSpan, dialPauses, exponential, Retry.span]
  omega

/-- The bound of the publication of the signal. -/
def signalBudget (cfg : ClientConfig) : Nat := SignalPublish.budget cfg.availabilityTimeout

/-- The time up to which the task has run. -/
def seen (now : Nat) (c : ClientRun) : Nat := c.overAt.getD now

/-- What the undeclares after the relay took so far. -/
def closing (now : Nat) (c : ClientRun) : Nat :=
  match c.joinedAt with
  | none => 0
  | some joined => c.undeclaredAt.getD (c.seen now) - joined

/-- What a cancel bounds once the bridge has been set up: the relay by the drain time, the
signal by its budget, and the whole by these and by the undeclares between them. -/
structure Bounded (cfg : ClientConfig) (now : Nat) (r : CancelRecord) (c : ClientRun) : Prop where
  past : c.stage.phase ≠ .dialing ∧ c.stage.phase ≠ .setup
  relaying : ∀ abortAt, c.stage = .relaying abortAt →
    (∃ at', abortAt = some at' ∧ at' ≤ r.sentAt + cfg.drainTimeout) ∨
      (c.pending = true ∧ now ≤ r.sentAt)
  joined : ∀ joined, c.joinedAt = some joined → joined ≤ r.sentAt + cfg.drainTimeout
  signal : ∀ s, c.signal = some s →
    s.expires ≤ r.sentAt + cfg.drainTimeout + c.closing now + signalBudget cfg
  whole : c.seen now ≤ r.sentAt + cfg.drainTimeout + c.closing now + signalBudget cfg

/-- The timers of a client are not late, and it keeps to the bounds of its dial, of its signal
and of its cancel. -/
structure Timely (cfg : ClientConfig) (now : Nat) (c : ClientRun) : Prop where
  due : OnTime (c.stage.instants cfg) now
  signal : ∀ s, c.signal = some s → s.Timely now
  budget : ∀ s, c.signal = some s → c.seen now ≤ s.expires ∧ s.expires ≤ now + signalBudget cfg
  dial : ∀ dial, c.stage = .dialing dial →
    dial.latest cfg.connectTimeout ≤ c.startedAt + dialSpan cfg
  dead : c.dialedAt = none → c.seen now ≤ c.startedAt + dialSpan cfg + signalBudget cfg ∧
    ∀ s, c.signal = some s → s.expires ≤ c.startedAt + dialSpan cfg + signalBudget cfg
  watchdog : ∀ abortAt, c.stage = .relaying (some abortAt) → abortAt ≤ now + cfg.drainTimeout
  joined : ∀ joined, c.joinedAt = some joined → joined ≤ now
  cancelled : ∀ r, c.cancelled = some r →
    r.sentAt ≤ now ∧ (r.connected = true → c.Bounded cfg now r)

theorem timely_start (cfg : ClientConfig) (client now : Nat) :
    Timely cfg now (start client now) where
  due := onTime_singleton.mpr (Nat.le_add_right _ _)
  signal := nofun
  budget := nofun
  dial := by
    intro dial hdial
    obtain rfl := RunStage.dialing.inj hdial
    simp only [Retry.latest, start, dialSpan]
    omega
  dead := fun _ => ⟨by simp only [seen, start, Option.getD_none]; omega, nofun⟩
  watchdog := nofun
  joined := nofun
  cancelled := nofun

/-- A step of the task does not change how long it was seen, nor how long its undeclares took. -/
theorem seen_moved (h : Sound cfg c) (hm : Moved cfg now c a c') : c'.seen now = c.seen now := by
  have hrecord := h.stage
  cases hm with
  | dialed ra dial dial' hstage hdial =>
      cases dial' with
      | trying | pausing | succeeded | failed => rfl
  | undeclared clean hstage =>
      cases clean with
      | true | false => rfl
  | left hstage =>
      simp only [StageRecord, hstage] at hrecord
      rw [seen, seen, hrecord.2]
      rfl
  | dialCancelled | setUp | setupFailed | watcherTook | tripped | joined | published | signalled
  | vanished => rfl

theorem seen_of_overAt (h : c.overAt = none) : c.seen now = now := by
  rw [seen, h]
  rfl

/-- A bound of the cancel survives a step that keeps the signal. -/
theorem Bounded.of_eq {r : CancelRecord} (h : c.Bounded cfg now r)
    (hpast : c'.stage.phase ≠ .dialing ∧ c'.stage.phase ≠ .setup)
    (hrelaying : ∀ abortAt, c'.stage = .relaying abortAt →
      (∃ at', abortAt = some at' ∧ at' ≤ r.sentAt + cfg.drainTimeout) ∨
        (c'.pending = true ∧ now ≤ r.sentAt))
    (hseen : c'.seen now = c.seen now) (hjoined : c'.joinedAt = c.joinedAt)
    (hundeclared : c'.undeclaredAt = c.undeclaredAt)
    (hsignal : ∀ s', c'.signal = some s' → ∃ s, c.signal = some s ∧ s'.expires = s.expires) :
    c'.Bounded cfg now r := by
  have hclosing : c'.closing now = c.closing now := by
    rw [closing, closing, hjoined, hundeclared, hseen]
  refine ⟨hpast, hrelaying, ?_, ?_, ?_⟩
  · rw [hjoined]
    exact h.joined
  · intro s' hs'
    obtain ⟨s, hs, hexpires⟩ := hsignal s' hs'
    rw [hexpires, hclosing]
    exact h.signal s hs
  · rw [hseen, hclosing]
    exact h.whole

/-- The undeclares are over, and the signal is published if it is due. -/
theorem Bounded.undeclare {r : CancelRecord} {clean : Bool} (h : c.Bounded cfg now r)
    (hsignal : c.signal = none) (hjoined : c.joinedAt ≠ none) (hover : c.overAt = none) :
    (c.undeclare cfg now clean).Bounded cfg now r := by
  obtain ⟨joined, hj⟩ := Option.ne_none_iff_exists'.mp hjoined
  have hle := h.joined joined hj
  have hseen : (c.undeclare cfg now clean).seen now = now := by
    cases clean <;> exact seen_of_overAt hover
  have hclosing : (c.undeclare cfg now clean).closing now = now - joined := by
    cases clean <;> simp [closing, ClientRun.undeclare, giveUp, hj]
  refine ⟨?_, ?_, ?_, ?_, ?_⟩
  · cases clean <;> exact ⟨by rintro ⟨⟩, by rintro ⟨⟩⟩
  · cases clean <;> rintro _ ⟨⟩
  · cases clean <;> exact h.joined
  · rw [hclosing]
    cases clean with
    | true =>
        intro s hs
        exact absurd (hsignal.symm.trans hs).symm (Option.some_ne_none s)
    | false =>
        intro s hs
        obtain rfl := Option.some.inj hs
        simp only [SignalPublish.start, signalBudget]
        omega
  · rw [hseen, hclosing]
    omega

/-- A reset, be it by the watcher of the cancel or from within, arms the watchdog no later than
the cancel asks for. -/
theorem Bounded.take {r : CancelRecord} {abortAt : Option Nat} (h : c.Bounded cfg now r)
    (hstage : c.stage = .relaying abortAt)
    (hwatchdog : ∀ at', abortAt = some at' → at' ≤ now + cfg.drainTimeout) :
    abortAt.getD (now + cfg.drainTimeout) ≤ r.sentAt + cfg.drainTimeout := by
  obtain ⟨at', rfl, hat⟩ | ⟨-, hnow⟩ := h.relaying abortAt hstage
  · exact hat
  · have hle := Nat.add_le_add_right hnow cfg.drainTimeout
    cases abortAt with
    | none => exact hle
    | some at' => exact Nat.le_trans (hwatchdog at' rfl) hle

/-- The relay is over before its watchdog is late. -/
theorem Bounded.join {r : CancelRecord} {abortAt : Option Nat} {clean : Bool}
    (h : c.Bounded cfg now r) (hstage : c.stage = .relaying abortAt)
    (hdue : OnTime (c.stage.instants cfg) now) (hsignal : c.signal = none)
    (hover : c.overAt = none) : (c.join now clean).Bounded cfg now r := by
  have hnow : now ≤ r.sentAt + cfg.drainTimeout := by
    obtain ⟨at', rfl, hat⟩ | ⟨-, hnow⟩ := h.relaying abortAt hstage
    · rw [hstage] at hdue
      exact Nat.le_trans (onTime_singleton.mp hdue) hat
    · exact Nat.le_add_right_of_le hnow
  refine ⟨⟨nofun, nofun⟩, nofun, ?_, ?_, ?_⟩
  · intro joined hjoined
    obtain rfl := Option.some.inj hjoined
    exact hnow
  · intro s hs
    exact absurd (hsignal.symm.trans hs) nofun
  · have hseen : (c.join now clean).seen now = now := seen_of_overAt hover
    rw [hseen, Nat.add_assoc]
    exact Nat.le_add_right_of_le hnow

theorem Bounded.moved {r : CancelRecord} (h : c.Bounded cfg now r) (hsound : Sound cfg c)
    (hdue : OnTime (c.stage.instants cfg) now)
    (hwatchdog : ∀ abortAt, c.stage = .relaying (some abortAt) → abortAt ≤ now + cfg.drainTimeout)
    (hm : Moved cfg now c a c') : c'.Bounded cfg now r := by
  have hrecord := hsound.stage
  have hseen := seen_moved hsound hm
  have hsame : ∀ s', c.signal = some s' → ∃ s, c.signal = some s ∧ s'.expires = s.expires :=
    fun s' hs' => ⟨s', hs', rfl⟩
  cases hm with
  | dialed ra dial dial' hstage _ => exact absurd (by rw [hstage]; rfl) h.past.1
  | dialCancelled dial channel hstage _ => exact absurd (by rw [hstage]; rfl) h.past.1
  | setUp expires hstage | setupFailed expires hstage =>
      exact absurd (by rw [hstage]; rfl) h.past.2
  | watcherTook abortAt channel hstage _ =>
      refine h.of_eq ⟨by rintro ⟨⟩, by rintro ⟨⟩⟩ ?_ hseen rfl rfl hsame
      intro abortAt' habort
      obtain rfl := RunStage.relaying.inj habort
      exact .inl ⟨_, rfl, h.take hstage fun at' hat => hwatchdog at' (hat ▸ hstage)⟩
  | tripped abortAt hstage =>
      refine h.of_eq ⟨by rintro ⟨⟩, by rintro ⟨⟩⟩ ?_ hseen rfl rfl hsame
      intro abortAt' habort
      obtain rfl := RunStage.relaying.inj habort
      exact .inl ⟨_, rfl, h.take hstage fun at' hat => hwatchdog at' (hat ▸ hstage)⟩
  | joined _ abortAt clean hstage _ =>
      simp only [StageRecord, hstage] at hrecord
      obtain ⟨hending, -, -, -, hover⟩ := hrecord
      exact h.join hstage hdue (hsound.signal_none hending) hover
  | undeclared clean hstage =>
      simp only [StageRecord, hstage] at hrecord
      obtain ⟨hending, -, hjoined, -, hover⟩ := hrecord
      exact h.undeclare (hsound.signal_none hending) hjoined hover
  | published pa s s' hsignal _ hstep =>
      refine h.of_eq h.past h.relaying hseen rfl rfl ?_
      intro t ht
      obtain rfl := Option.some.inj ht
      exact ⟨s, hsignal, (SignalPublish.moved_of_step hstep).expires⟩
  | signalled _ _ hstage _ | left hstage =>
      refine h.of_eq ⟨by rintro ⟨⟩, by rintro ⟨⟩⟩ ?_ hseen rfl rfl hsame
      rintro _ ⟨⟩
  | vanished => exact h.of_eq h.past h.relaying hseen rfl rfl hsame

/-- A step that keeps the signal keeps the timeline, if its timers are set from now on. -/
theorem Timely.of_eq (h : Timely cfg now c) (hdue : OnTime (c'.stage.instants cfg) now)
    (hdial : ∀ dial, c'.stage = .dialing dial →
      dial.latest cfg.connectTimeout ≤ c.startedAt + dialSpan cfg)
    (hwatchdog : ∀ abortAt, c'.stage = .relaying (some abortAt) →
      abortAt ≤ now + cfg.drainTimeout)
    (hjoined : ∀ joined, c'.joinedAt = some joined → joined ≤ now)
    (hdialed : c'.dialedAt = none → c.dialedAt = none) (hstarted : c'.startedAt = c.startedAt)
    (hseen : c'.seen now = c.seen now) (hcancelled : c'.cancelled = c.cancelled)
    (hbounded : ∀ r, c.Bounded cfg now r → c'.Bounded cfg now r)
    (hsignal : c'.signal = c.signal) : Timely cfg now c' := by
  refine ⟨hdue, ?_, ?_, ?_, ?_, hwatchdog, hjoined, ?_⟩
  · rw [hsignal]
    exact h.signal
  · rw [hsignal, hseen]
    exact h.budget
  · rw [hstarted]
    exact hdial
  · intro hnone
    rw [hsignal, hseen, hstarted]
    exact h.dead (hdialed hnone)
  · intro r hr
    obtain ⟨hsent, hconnected⟩ := h.cancelled r (hcancelled ▸ hr)
    exact ⟨hsent, fun hr => hbounded r (hconnected hr)⟩

/-- What the signal of a client adds to its timeline when it is begun. -/
theorem Timely.giveUp {why : RunEnd} (h : Timely cfg now c) (hover : c'.overAt = none)
    (hdead : c'.dialedAt = none → now ≤ c'.startedAt + dialSpan cfg)
    (hjoined : c'.joinedAt = c.joinedAt) (hcancelled : c'.cancelled = c.cancelled)
    (hbounded : ∀ r, c.Bounded cfg now r → (c'.giveUp cfg now why).Bounded cfg now r) :
    Timely cfg now (c'.giveUp cfg now why) := by
  have hseen : (c'.giveUp cfg now why).seen now = now := seen_of_overAt hover
  refine ⟨onTime_nil, ?_, ?_, nofun, ?_, nofun, fun j hj => h.joined j (hjoined ▸ hj), ?_⟩
  · intro s hs
    obtain rfl := Option.some.inj hs
    exact SignalPublish.timely_start _ _
  · intro s hs
    obtain rfl := Option.some.inj hs
    rw [hseen]
    exact ⟨Nat.le_add_right _ _, Nat.le_refl _⟩
  · intro hnone
    have hle := hdead hnone
    refine ⟨?_, fun s hs => ?_⟩
    · rw [hseen]
      exact Nat.le_add_right_of_le hle
    · obtain rfl := Option.some.inj hs
      exact Nat.add_le_add_right hle _
  · intro r hr
    obtain ⟨hsent, hconnected⟩ := h.cancelled r (hcancelled ▸ hr)
    exact ⟨hsent, fun hr => hbounded r (hconnected hr)⟩

theorem Timely.dialed {dial dial' : Retry} {ra : RetryAction} (h : Timely cfg now c)
    (hsound : Sound cfg c) (hstage : c.stage = .dialing dial)
    (hdial : dial.step now ra = some dial') : Timely cfg now (c.dialed cfg now dial') := by
  have hmoved : Moved cfg now c (.dial ra) (c.dialed cfg now dial') := .dialed ra _ _ hstage hdial
  have hrecord := hsound.stage
  simp only [StageRecord, hstage] at hrecord
  obtain ⟨-, hnot, hnot', -, hnone, -, -, hover⟩ := hrecord
  have hdue : OnTime (dial.instants cfg.connectTimeout) now := by
    have hdue := h.due
    rwa [hstage] at hdue
  have hbefore := h.dial dial hstage
  have hlatest : dial'.latest cfg.connectTimeout ≤ c.startedAt + dialSpan cfg :=
    Nat.le_trans (Retry.latest_step hdial hdue) hbefore
  have htimers : OnTime (dial'.instants cfg.connectTimeout) now := Retry.onTime_step hdial
  have hseen := seen_moved hsound hmoved
  have hbounded : ∀ r, c.Bounded cfg now r → (c.dialed cfg now dial').Bounded cfg now r :=
    fun r hr => absurd (by rw [hstage]; rfl) hr.past.1
  cases dial' with
  | trying since left | pausing wakeAt left =>
      exact h.of_eq htimers (fun d hd => RunStage.dialing.inj hd ▸ hlatest)
        (by rintro _ ⟨⟩) h.joined id rfl hseen rfl hbounded rfl
  | succeeded =>
      exact h.of_eq (onTime_singleton.mpr (Nat.le_add_right _ _)) (by rintro _ ⟨⟩)
        (by rintro _ ⟨⟩) h.joined (by rintro ⟨⟩) rfl hseen rfl hbounded rfl
  | failed =>
      refine h.giveUp hover (fun _ => ?_) rfl rfl hbounded
      exact Nat.le_trans (Retry.le_latest hdue ⟨hnot, hnot'⟩) hbefore

theorem Timely.published {pa : PublishAction} {s s' : SignalPublish} (h : Timely cfg now c)
    (hsound : Sound cfg c) (hsignal : c.signal = some s)
    (hstep : s.step cfg.availabilityTimeout now c.tokenGone pa = some s')
    (hbounded : ∀ r, c.Bounded cfg now r → Bounded cfg now r { c with signal := some s' }) :
    Timely cfg now { c with signal := some s' } := by
  have hmoved := SignalPublish.moved_of_step hstep
  have hexpires := hmoved.expires
  refine ⟨h.due, ?_, ?_, h.dial, ?_, h.watchdog, h.joined, ?_⟩
  · intro t ht
    obtain rfl := Option.some.inj ht
    exact (h.signal s hsignal).moved (hsound.signal s hsignal) hmoved
  · intro t ht
    obtain rfl := Option.some.inj ht
    rw [hexpires]
    exact h.budget s hsignal
  · intro hnone
    obtain ⟨hseen, hsignals⟩ := h.dead hnone
    refine ⟨hseen, fun t ht => ?_⟩
    obtain rfl := Option.some.inj ht
    rw [hexpires]
    exact hsignals s hsignal
  · intro r hr
    obtain ⟨hsent, hconnected⟩ := h.cancelled r hr
    exact ⟨hsent, fun hr => hbounded r (hconnected hr)⟩

/-- A reset arms the watchdog from now on. -/
theorem watchdog_trip {abortAt : Option Nat} (h : Timely cfg now c)
    (hstage : c.stage = .relaying abortAt) :
    OnTime (RunStage.instants cfg (.relaying (some (abortAt.getD (now + cfg.drainTimeout))))) now ∧
      abortAt.getD (now + cfg.drainTimeout) ≤ now + cfg.drainTimeout := by
  cases abortAt with
  | none => exact ⟨onTime_singleton.mpr (Nat.le_add_right _ _), Nat.le_refl _⟩
  | some at' =>
      have hdue := h.due
      rw [hstage] at hdue
      exact ⟨hdue, h.watchdog at' hstage⟩

theorem Timely.moved (h : Timely cfg now c) (hsound : Sound cfg c) (hm : Moved cfg now c a c') :
    Timely cfg now c' := by
  have hrecord := hsound.stage
  have hseen := seen_moved hsound hm
  have hbounded : ∀ r, c.Bounded cfg now r → c'.Bounded cfg now r :=
    fun r hr => hr.moved hsound h.due h.watchdog hm
  cases hm with
  | dialed ra dial dial' hstage hdial => exact h.dialed hsound hstage hdial
  | dialCancelled | setUp | signalled | left =>
      exact h.of_eq onTime_nil (by rintro _ ⟨⟩) (by rintro _ ⟨⟩) h.joined id rfl hseen rfl
        hbounded rfl
  | setupFailed expires hstage =>
      simp only [StageRecord, hstage] at hrecord
      obtain ⟨-, hdialed, -, -, hover⟩ := hrecord
      exact h.giveUp hover (fun hnone => absurd hnone hdialed) rfl rfl hbounded
  | watcherTook abortAt channel hstage _ | tripped abortAt hstage =>
      obtain ⟨hdue, hwatchdog⟩ := watchdog_trip h hstage
      refine h.of_eq hdue (by rintro _ ⟨⟩) ?_ h.joined id rfl hseen rfl hbounded rfl
      intro at' hat
      obtain rfl := Option.some.inj (RunStage.relaying.inj hat)
      exact hwatchdog
  | joined _ abortAt clean hstage _ =>
      refine h.of_eq onTime_nil (by rintro _ ⟨⟩) (by rintro _ ⟨⟩) ?_ id rfl hseen rfl hbounded rfl
      intro joined hjoined
      obtain rfl := Option.some.inj hjoined
      exact Nat.le_refl _
  | undeclared clean hstage =>
      simp only [StageRecord, hstage] at hrecord
      obtain ⟨-, hdialed, -, -, hover⟩ := hrecord
      cases clean with
      | true =>
          exact h.of_eq onTime_nil (by rintro _ ⟨⟩) (by rintro _ ⟨⟩) h.joined id rfl hseen rfl
            hbounded rfl
      | false => exact h.giveUp hover (fun hnone => absurd hnone hdialed) rfl rfl hbounded
  | published pa s s' hsignal _ hstep => exact h.published hsound hsignal hstep hbounded
  | vanished =>
      exact h.of_eq h.due h.dial h.watchdog h.joined id rfl hseen rfl hbounded rfl

/-- The cancel of a task that still runs its bridge is in the channel once it is sent. -/
theorem pending_sendCancel {byDrain : Bool} (h : c.task.CancelKept)
    (hlive : c.stage.phase.live = true) : (c.sendCancel now byDrain).pending = true := by
  suffices hne : c.task.sendCancel.cancel.queue ≠ [] by
    simpa [pending, ClientRun.sendCancel] using hne
  have hopen : c.cancel.closed = false := h.opened hlive
  cases hc : c.cancel.trySend () with
  | ok channel =>
      have hcancel : c.task.sendCancel.cancel = channel := by
        simp only [ClientTask.sendCancel, task, hc]
      rw [hcancel, (BoundedChannel.trySend_ok hc).1]
      exact List.append_ne_nil_of_right_ne_nil _ (List.cons_ne_nil _ _)
  | error e =>
      have hcancel : c.task.sendCancel.cancel = c.cancel := by
        simp only [ClientTask.sendCancel, task, hc]
      cases e with
      | closed =>
          rw [BoundedChannel.trySend_closed hc] at hopen
          cases hopen
      | full =>
          have hlength := (BoundedChannel.trySend_full hc).2
          have hslot : c.cancel.capacity = 1 := h.slot
          rw [hcancel]
          exact List.ne_nil_of_length_pos (by omega)

theorem Timely.sendCancel {byDrain : Bool} (h : Timely cfg now c) (hkept : c.task.CancelKept)
    (hover : c.overAt = none) : Timely cfg now (c.sendCancel now byDrain) := by
  refine ⟨h.due, h.signal, h.budget, h.dial, h.dead, h.watchdog, h.joined, ?_⟩
  intro r hr
  obtain rfl := Option.some.inj hr
  refine ⟨Nat.le_refl _, fun hconnected => ⟨?_, ?_, ?_, ?_, ?_⟩⟩
  · rw [CancelRecord.connected] at hconnected
    constructor
    · intro hphase
      rw [show c.stage.phase = .dialing from hphase] at hconnected
      cases hconnected
    · intro hphase
      rw [show c.stage.phase = .setup from hphase] at hconnected
      cases hconnected
  · intro abortAt hstage
    have hlive : c.stage.phase.live = true := by
      rw [show c.stage = .relaying abortAt from hstage]
      rfl
    exact .inr ⟨pending_sendCancel hkept hlive, Nat.le_refl _⟩
  · intro joined hjoined
    exact Nat.le_add_right_of_le (h.joined joined hjoined)
  · intro s hs
    have hle := (h.budget s hs).2
    show s.expires ≤ now + _ + _ + _
    omega
  · have hseen : (c.sendCancel now byDrain).seen now = now := seen_of_overAt hover
    rw [hseen]
    show now ≤ now + _ + _ + _
    omega

theorem seen_abort (hover : c.overAt = none) : (c.abort now).seen now = c.seen now :=
  (seen_of_overAt hover).symm

theorem Bounded.abort {r : CancelRecord} (h : c.Bounded cfg now r) (hover : c.overAt = none) :
    (c.abort now).Bounded cfg now r := by
  refine h.of_eq ⟨nofun, nofun⟩ nofun (seen_abort hover) rfl rfl ?_
  intro s' hs'
  obtain ⟨s, hs, rfl⟩ := Option.map_eq_some_iff.mp hs'
  exact ⟨s, hs, SignalPublish.expires_drop⟩

theorem Timely.abort (h : Timely cfg now c) (hover : c.overAt = none) :
    Timely cfg now (c.abort now) := by
  refine ⟨onTime_nil, ?_, ?_, nofun, ?_, nofun, h.joined, ?_⟩
  · intro s' hs'
    obtain ⟨s, hs, rfl⟩ := Option.map_eq_some_iff.mp hs'
    exact (h.signal s hs).drop
  · intro s' hs'
    obtain ⟨s, hs, rfl⟩ := Option.map_eq_some_iff.mp hs'
    rw [seen_abort hover, SignalPublish.expires_drop]
    exact h.budget s hs
  · intro hnone
    obtain ⟨hseen, hsignals⟩ := h.dead hnone
    refine ⟨(seen_abort hover).symm ▸ hseen, ?_⟩
    intro s' hs'
    obtain ⟨s, hs, rfl⟩ := Option.map_eq_some_iff.mp hs'
    rw [SignalPublish.expires_drop]
    exact hsignals s hs
  · intro r hr
    obtain ⟨hsent, hconnected⟩ := h.cancelled r hr
    exact ⟨hsent, fun hr => (hconnected hr).abort hover⟩

theorem closing_le_succ : c.closing now ≤ c.closing (now + 1) := by
  cases hjoined : c.joinedAt with
  | none => simp only [closing, hjoined, Nat.le_refl]
  | some joined =>
      cases hundeclared : c.undeclaredAt with
      | some at' => simp only [closing, hjoined, hundeclared, Option.getD_some, Nat.le_refl]
      | none =>
          cases hover : c.overAt with
          | some at' => simp [closing, hjoined, hundeclared, seen, hover]
          | none =>
              simp only [closing, hjoined, hundeclared, seen, hover, Option.getD_none]
              omega

section Tick

variable (hquiet : c.urgent cfg now = false)

include hquiet

theorem ready_of_quiet : c.ready = false := by
  rw [urgent, Bool.or_eq_false_iff] at hquiet
  exact hquiet.1

theorem ne_leaving_of_quiet : c.stage ≠ .leaving := by
  intro hstage
  have hready := ready_of_quiet hquiet
  rw [ready, hstage] at hready
  cases hready

theorem expired_of_quiet : expired (c.stage.instants cfg) now = false ∧
    ∀ s, c.signal = some s → expired s.instants now = false := by
  rw [urgent, Bool.or_eq_false_iff, instants, expired_append] at hquiet
  refine ⟨hquiet.2.1, fun s hs => ?_⟩
  have hsignal := hquiet.2.2
  rwa [hs] at hsignal

/-- A client that still runs and has begun its signal is within the budget of it. -/
theorem lt_expires_of_quiet {s : SignalPublish} (hsound : Sound cfg c) (hs : c.signal = some s)
    (hover : c.overAt = none) : now + 1 ≤ s.expires := by
  have hrecord := hsound.stage
  cases hstage : c.stage with
  | signalling =>
      have hready := ready_of_quiet hquiet
      simp only [ready, hstage, hs, Option.all_some, Bool.not_eq_false'] at hready
      exact OnTime.tick ((expired_of_quiet hquiet).2 s hs) _
        (SignalPublish.expires_mem_instants hready)
  | leaving => exact absurd hstage (ne_leaving_of_quiet hquiet)
  | returned => exact absurd hstage (hsound.running hover).1
  | aborted => exact absurd hstage (hsound.running hover).2
  | dialing =>
      simp only [StageRecord, hstage] at hrecord
      exact absurd ((hsound.signal_none hrecord.2.2.2.1).symm.trans hs).symm (Option.some_ne_none s)
  | settingUp | relaying | undeclaring =>
      simp only [StageRecord, hstage] at hrecord
      exact absurd ((hsound.signal_none hrecord.1).symm.trans hs).symm (Option.some_ne_none s)

/-- What still runs after a cancel, with its bridge set up, is on its way out. -/
theorem running_le {r : CancelRecord} (h : c.Bounded cfg now r) (hsound : Sound cfg c)
    (hover : c.overAt = none) :
    now + 1 ≤ r.sentAt + cfg.drainTimeout + c.closing (now + 1) + signalBudget cfg := by
  have hrecord := hsound.stage
  have hclosing : c.closing now ≤ c.closing (now + 1) := closing_le_succ
  cases hstage : c.stage with
  | dialing => exact absurd (by rw [hstage]; rfl) h.past.1
  | settingUp => exact absurd (by rw [hstage]; rfl) h.past.2
  | relaying abortAt =>
      obtain ⟨at', rfl, hat⟩ | ⟨hpending, -⟩ := h.relaying abortAt hstage
      · have hdue := OnTime.tick (expired_of_quiet hquiet).1
        rw [hstage] at hdue
        have hle : now + 1 ≤ at' := onTime_singleton.mp hdue
        omega
      · have hready := ready_of_quiet hquiet
        rw [ready, hstage] at hready
        exact absurd (hready.symm.trans hpending) Bool.false_ne_true
  | undeclaring clean =>
      simp only [StageRecord, hstage] at hrecord
      obtain ⟨-, -, hjoined, hundeclared, -⟩ := hrecord
      obtain ⟨joined, hj⟩ := Option.ne_none_iff_exists'.mp hjoined
      have hle := h.joined joined hj
      simp only [closing, hj, hundeclared, seen, hover, Option.getD_none]
      omega
  | signalling =>
      simp only [StageRecord, hstage] at hrecord
      obtain ⟨s, hs⟩ := Option.ne_none_iff_exists'.mp hrecord.1
      have hexpires := lt_expires_of_quiet hquiet hsound hs hover
      have hle := h.signal s hs
      omega
  | leaving => exact absurd hstage (ne_leaving_of_quiet hquiet)
  | returned => exact absurd hstage (hsound.running hover).1
  | aborted => exact absurd hstage (hsound.running hover).2

/-- A client whose backend was never reached still dials, or publishes its signal. -/
theorem unreached_le (h : Timely cfg now c) (hsound : Sound cfg c)
    (hdialed : c.dialedAt = none) (hover : c.overAt = none) :
    now + 1 ≤ c.startedAt + dialSpan cfg + signalBudget cfg := by
  have hrecord := hsound.stage
  cases hstage : c.stage with
  | dialing dial =>
      simp only [StageRecord, hstage] at hrecord
      obtain ⟨-, hnot, hnot', -⟩ := hrecord
      have hdue := OnTime.tick (expired_of_quiet hquiet).1
      rw [hstage] at hdue
      have hlatest := Retry.le_latest hdue ⟨hnot, hnot'⟩
      have hbefore := h.dial dial hstage
      omega
  | signalling =>
      simp only [StageRecord, hstage] at hrecord
      obtain ⟨s, hs⟩ := Option.ne_none_iff_exists'.mp hrecord.1
      exact Nat.le_trans (lt_expires_of_quiet hquiet hsound hs hover) ((h.dead hdialed).2 s hs)
  | leaving => exact absurd hstage (ne_leaving_of_quiet hquiet)
  | settingUp | relaying | undeclaring =>
      simp only [StageRecord, hstage] at hrecord
      exact absurd hdialed hrecord.2.1
  | returned => exact absurd hstage (hsound.running hover).1
  | aborted => exact absurd hstage (hsound.running hover).2

/-- The bound of a cancel holds on, since what still runs is bounded by a timer of its own. -/
theorem Bounded.tick {r : CancelRecord} (h : c.Bounded cfg now r) (hsound : Sound cfg c) :
    c.Bounded cfg (now + 1) r := by
  have hclosing : c.closing now ≤ c.closing (now + 1) := closing_le_succ
  refine ⟨h.past, ?_, h.joined, ?_, ?_⟩
  · intro abortAt hstage
    obtain hat | ⟨hpending, -⟩ := h.relaying abortAt hstage
    · exact .inl hat
    · have hready := ready_of_quiet hquiet
      rw [ready, hstage] at hready
      exact absurd (hready.symm.trans hpending) Bool.false_ne_true
  · intro s hs
    have hle := h.signal s hs
    omega
  · cases hover : c.overAt with
    | some at' =>
        have hle := h.whole
        simp only [seen, hover, Option.getD_some] at hle ⊢
        omega
    | none =>
        rw [seen_of_overAt hover]
        exact running_le hquiet h hsound hover

theorem Timely.tick (h : Timely cfg now c) (hsound : Sound cfg c) : Timely cfg (now + 1) c := by
  have hseen : ∀ {bound}, (c.overAt = none → now + 1 ≤ bound) → c.seen now ≤ bound →
      c.seen (now + 1) ≤ bound := by
    intro bound hrunning hbefore
    cases hover : c.overAt with
    | some at' => rwa [seen, hover] at hbefore ⊢
    | none =>
        rw [seen_of_overAt hover]
        exact hrunning hover
  refine ⟨.tick (expired_of_quiet hquiet).1, ?_, ?_, h.dial, ?_, ?_, ?_, ?_⟩
  · intro s hs
    exact (h.signal s hs).tick ((expired_of_quiet hquiet).2 s hs)
  · intro s hs
    obtain ⟨hbefore, hexpires⟩ := h.budget s hs
    refine ⟨hseen (fun hover => lt_expires_of_quiet hquiet hsound hs hover) hbefore, ?_⟩
    omega
  · intro hnone
    obtain ⟨hbefore, hsignals⟩ := h.dead hnone
    refine ⟨hseen (fun hover => ?_) hbefore, hsignals⟩
    exact unreached_le hquiet h hsound hnone hover
  · intro abortAt hstage
    have hle := h.watchdog abortAt hstage
    omega
  · intro joined hjoined
    exact Nat.le_succ_of_le (h.joined joined hjoined)
  · intro r hr
    obtain ⟨hsent, hconnected⟩ := h.cancelled r hr
    exact ⟨Nat.le_succ_of_le hsent, fun hr => Bounded.tick hquiet (hconnected hr) hsound⟩

end Tick

end ClientRun

end ZenohBridge
