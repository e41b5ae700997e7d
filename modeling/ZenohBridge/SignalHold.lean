import ZenohBridge.Foundation.Deadline

/-!
# The publication of the error signal

`publish_error_signal` declares a cached publisher on the error key, waits for a matching
subscriber and puts the signal, all within one budget. A task of its own then holds the
publisher until the token of the client is gone.

## Implementation notes

Time is in milliseconds. A completed liveliness query without a reply and a `Delete` are only
seen when the token is gone, and a token that is gone does not come back, since a client id is
never used twice. `declaredAt`, `matched`, `gatedAt`, `putAt` and `releasedAt` are history.
-/

namespace ZenohBridge

open Deadline

/-- Why the holder let go of the publisher. -/
inductive Release where
  /-- The token could not be watched. -/
  | unwatched
  /-- The probe came back without a reply. -/
  | gone
  | deleted
  /-- The subscriber was closed. -/
  | closed
  | capped
  deriving DecidableEq, Repr

/-- The task that owns the cached publisher after the put. -/
inductive Holder where
  | absent
  | subscribing (cap : Nat)
  | probing (cap expires : Nat)
  | watching (cap : Nat)
  | released (why : Release)
  deriving DecidableEq, Repr

inductive HolderAction where
  | subscribed (ok : Bool)
  /-- The probe came back; an answer of `true` stands for a failed dispatch too. -/
  | probed (alive : Bool)
  | probeExpires
  | delete
  | close
  | cap
  deriving DecidableEq, Repr

/-- The steps that are taken when a timer has run out. -/
def HolderAction.own : HolderAction → Bool
  | .probeExpires | .cap => true
  | .subscribed _ | .probed _ | .delete | .close => false

namespace Holder

/-- `ERROR_HOLD_CAP`. -/
def errorHoldCap : Nat := 60000

/-- The end of the hold, while the holder runs. -/
def capOf : Holder → Option Nat
  | .subscribing cap | .probing cap _ | .watching cap => some cap
  | .absent | .released _ => none

/-- The timers of the holder. -/
def instants : Holder → List Nat
  | .subscribing cap | .watching cap => [cap]
  | .probing cap expires => [cap, expires]
  | .absent | .released _ => []

def step (availability now : Nat) (tokenGone : Bool) (h : Holder) : HolderAction → Option Holder
  | .subscribed ok =>
      match h with
      | .subscribing cap =>
          some (if ok then .probing cap (now + availability) else .released .unwatched)
      | _ => none
  | .probed alive =>
      match h with
      | .probing cap _ =>
          if alive then some (.watching cap)
          else if tokenGone then some (.released .gone)
          else none
      | _ => none
  | .probeExpires =>
      match h with
      | .probing cap expires => if expires ≤ now then some (.watching cap) else none
      | _ => none
  | .delete =>
      match h with
      | .watching _ => if tokenGone then some (.released .deleted) else none
      | _ => none
  | .close =>
      match h with
      | .watching _ => some (.released .closed)
      | _ => none
  | .cap =>
      match h.capOf with
      | some cap => if cap ≤ now then some (.released .capped) else none
      | none => none

/-- What a step leaves behind: a holder that goes on to the same end, with timers from now on,
or a reason to let go. -/
inductive Moved (now : Nat) (tokenGone : Bool) (h : Holder) : Holder → Prop
  | on (h' : Holder) (cap : Nat) (before : h.capOf = some cap) (after : h'.capOf = some cap)
      (timers : OnTime h.instants now → OnTime h'.instants now) : Moved now tokenGone h h'
  | unwatched (cap : Nat) (before : h.capOf = some cap) :
      Moved now tokenGone h (.released .unwatched)
  | gone (cap : Nat) (before : h.capOf = some cap) (token : tokenGone = true) :
      Moved now tokenGone h (.released .gone)
  | deleted (cap : Nat) (before : h.capOf = some cap) (token : tokenGone = true) :
      Moved now tokenGone h (.released .deleted)
  | closed (cap : Nat) (before : h.capOf = some cap) : Moved now tokenGone h (.released .closed)
  | capped (cap : Nat) (before : h.capOf = some cap) (due : cap ≤ now) :
      Moved now tokenGone h (.released .capped)

variable {availability now : Nat} {tokenGone : Bool} {h h' : Holder} {a : HolderAction}

theorem capOf_mem_instants {cap : Nat} (hcap : h.capOf = some cap) : cap ∈ h.instants := by
  cases h with
  | subscribing c | probing c _ | watching c =>
      obtain rfl := Option.some.inj hcap
      exact List.mem_cons_self ..
  | absent | released => cases hcap

/-- Only a running holder moves. -/
theorem Moved.capOf (hm : Moved now tokenGone h h') : ∃ cap, h.capOf = some cap := by
  cases hm with
  | on _ cap before | unwatched cap before | gone cap before | deleted cap before
  | closed cap before | capped cap before => exact ⟨cap, before⟩

/-- Inversion of a step. -/
theorem moved_of_step (hs : h.step availability now tokenGone a = some h') :
    Moved now tokenGone h h' := by
  cases a with
  | subscribed ok =>
      cases h with
      | subscribing cap =>
          obtain rfl := Option.some.inj hs
          cases ok with
          | true =>
              refine .on _ cap rfl rfl fun hnow => ?_
              exact onTime_cons.mpr ⟨onTime_singleton.mp hnow,
                onTime_singleton.mpr (Nat.le_add_right _ _)⟩
          | false => exact .unwatched cap rfl
      | absent | probing | watching | released => cases hs
  | probed alive =>
      cases h with
      | probing cap expires =>
          cases alive with
          | true =>
              obtain rfl := Option.some.inj hs
              exact .on _ cap rfl rfl fun hnow => onTime_singleton.mpr (onTime_cons.mp hnow).1
          | false =>
              simp only [step, Bool.false_eq_true, if_false, Option.ite_none_right_eq_some] at hs
              obtain ⟨htoken, hs⟩ := hs
              obtain rfl := Option.some.inj hs
              exact .gone cap rfl htoken
      | absent | subscribing | watching | released => cases hs
  | probeExpires =>
      cases h with
      | probing cap expires =>
          simp only [step, Option.ite_none_right_eq_some] at hs
          obtain rfl := Option.some.inj hs.2
          exact .on _ cap rfl rfl fun hnow => onTime_singleton.mpr (onTime_cons.mp hnow).1
      | absent | subscribing | watching | released => cases hs
  | delete =>
      cases h with
      | watching cap =>
          simp only [step, Option.ite_none_right_eq_some] at hs
          obtain ⟨htoken, hs⟩ := hs
          obtain rfl := Option.some.inj hs
          exact .deleted cap rfl htoken
      | absent | subscribing | probing | released => cases hs
  | close =>
      cases h with
      | watching cap =>
          obtain rfl := Option.some.inj hs
          exact .closed cap rfl
      | absent | subscribing | probing | released => cases hs
  | cap =>
      simp only [step] at hs
      split at hs
      · next cap hcap =>
          simp only [Option.ite_none_right_eq_some] at hs
          obtain ⟨hdue, hs⟩ := hs
          obtain rfl := Option.some.inj hs
          exact .capped cap hcap hdue
      · cases hs

/-- A timer has run out exactly when the holder goes on for it. -/
theorem expired_iff : expired h.instants now = true ↔
    ∃ a : HolderAction, a.own = true ∧ (h.step availability now tokenGone a).isSome = true := by
  constructor
  · intro hdue
    cases h with
    | subscribing cap | watching cap =>
        have hcap := expired_singleton.mp hdue
        exact ⟨.cap, rfl, by simp [step, capOf, hcap]⟩
    | probing cap expires =>
        obtain hcap | hexpires := expired_cons.mp hdue
        · exact ⟨.cap, rfl, by simp [step, capOf, hcap]⟩
        · have hexpires := expired_singleton.mp hexpires
          exact ⟨.probeExpires, rfl, by simp [step, hexpires]⟩
    | absent | released => exact absurd hdue not_expired_nil
  · rintro ⟨a, hown, hstep⟩
    cases a with
    | probeExpires =>
        cases h with
        | probing cap expires =>
            have hexpires : expires ≤ now := by simpa [step] using hstep
            exact expired_cons.mpr (.inr (expired_singleton.mpr hexpires))
        | absent | subscribing | watching | released => cases hstep
    | cap =>
        cases h with
        | subscribing cap | probing cap _ | watching cap =>
            have hcap : cap ≤ now := by simpa [step, capOf] using hstep
            exact expired_cons.mpr (.inl hcap)
        | absent | released => cases hstep
    | subscribed | probed | delete | close => cases hown

end Holder

/-- Where `publish_error_signal` is. -/
inductive PublishStage where
  | declaring
  /-- In `await_matching_subscriber`. -/
  | gating (poll : Poll)
  | putting
  | published
  /-- An error was returned. -/
  | refused
  deriving DecidableEq, Repr

/-- One call of `publish_error_signal` and the holder that it leaves. -/
structure SignalPublish where
  expires : Nat
  stage : PublishStage
  holder : Holder
  declaredAt : Option Nat
  matched : Bool
  gatedAt : Option Nat
  putAt : Option Nat
  releasedAt : Option Nat
  deriving DecidableEq, Repr

inductive PublishAction where
  | declared (ok : Bool)
  | gate (a : PollAction)
  | put (ok : Bool)
  /-- The timeout around the whole publish. -/
  | budget
  | holder (a : HolderAction)
  deriving DecidableEq, Repr

/-- The steps of the holder, which is a task of its own. -/
def PublishAction.ofHolder : PublishAction → Bool
  | .holder _ => true
  | _ => false

/-- The steps that are taken when a timer has run out. -/
def PublishAction.own : PublishAction → Bool
  | .gate a => a.own
  | .budget => true
  | .holder a => a.own
  | .declared _ | .put _ => false

namespace SignalPublish

/-- The bound of the whole publish. -/
def budget (availability : Nat) : Nat := max availability 1000 * 3

def start (availability now : Nat) : SignalPublish :=
  ⟨now + budget availability, .declaring, .absent, none, false, none, none, none⟩

/-- The call has not returned. -/
def running (s : SignalPublish) : Bool :=
  match s.stage with
  | .declaring | .gating _ | .putting => true
  | .published | .refused => false

/-- The gate after a step of its poll; the put follows a match and a timeout alike. -/
def gated (now : Nat) (s : SignalPublish) (poll : Poll) : SignalPublish :=
  match poll with
  | .found => { s with stage := .putting, matched := true, gatedAt := some now }
  | .missed => { s with stage := .putting, gatedAt := some now }
  | poll => { s with stage := .gating poll }

def step (availability now : Nat) (tokenGone : Bool) (s : SignalPublish) :
    PublishAction → Option SignalPublish
  | .declared ok =>
      match s.stage with
      | .declaring => some (if ok then
            { s with stage := .gating (.querying (now + availability)), declaredAt := some now }
          else { s with stage := .refused })
      | _ => none
  | .gate a =>
      match s.stage with
      | .gating poll => (poll.step now a).map (s.gated now)
      | _ => none
  | .put ok =>
      match s.stage with
      | .putting => some (if ok then
            { s with
              stage := .published
              holder := .subscribing (now + Holder.errorHoldCap)
              putAt := some now }
          else { s with stage := .refused })
      | _ => none
  | .budget =>
      if s.running = true ∧ s.expires ≤ now then some { s with stage := .refused } else none
  | .holder a => (s.holder.step availability now tokenGone a).map fun holder =>
      { s with
        holder := holder
        releasedAt := if holder.capOf = none then some now else s.releasedAt }

/-- The call is dropped with the task that awaits it; a holder stays. -/
def drop (s : SignalPublish) : SignalPublish :=
  if s.running then { s with stage := .refused } else s

/-- The timers of the publish. -/
def instants (s : SignalPublish) : List Nat :=
  (match s.stage with
    | .declaring | .putting => [s.expires]
    | .gating poll => s.expires :: poll.instants
    | .published | .refused => []) ++ s.holder.instants

/-- Everything that a step can do, with what it requires. -/
inductive Moved (availability now : Nat) (tokenGone : Bool) (s : SignalPublish) :
    SignalPublish → Prop
  | declared (stage : s.stage = .declaring) : Moved availability now tokenGone s
      { s with stage := .gating (.querying (now + availability)), declaredAt := some now }
  | polled (poll poll' : Poll) (a : PollAction) (stage : s.stage = .gating poll)
      (step : poll.step now a = some poll') : Moved availability now tokenGone s (s.gated now poll')
  | published (stage : s.stage = .putting) : Moved availability now tokenGone s { s with
      stage := .published
      holder := .subscribing (now + Holder.errorHoldCap)
      putAt := some now }
  | refused (running : s.running = true) :
      Moved availability now tokenGone s { s with stage := .refused }
  | held (holder : Holder) (moved : Holder.Moved now tokenGone s.holder holder) :
      Moved availability now tokenGone s { s with
        holder := holder
        releasedAt := if holder.capOf = none then some now else s.releasedAt }

variable {availability now : Nat} {tokenGone : Bool} {s s' : SignalPublish} {a : PublishAction}

/-- Inversion of a step. -/
theorem moved_of_step (h : s.step availability now tokenGone a = some s') :
    Moved availability now tokenGone s s' := by
  cases a with
  | declared ok =>
      simp only [step] at h
      split at h
      · next hstage =>
          obtain rfl := Option.some.inj h
          cases ok with
          | true => exact .declared hstage
          | false => exact .refused (by rw [running, hstage])
      · cases h
  | gate a =>
      simp only [step] at h
      split at h
      · next poll hstage =>
          obtain ⟨poll', hpoll, rfl⟩ := Option.map_eq_some_iff.mp h
          exact .polled poll poll' a hstage hpoll
      · cases h
  | put ok =>
      simp only [step] at h
      split at h
      · next hstage =>
          obtain rfl := Option.some.inj h
          cases ok with
          | true => exact .published hstage
          | false => exact .refused (by rw [running, hstage])
      · cases h
  | budget =>
      simp only [step, Option.ite_none_right_eq_some] at h
      obtain ⟨⟨hrunning, -⟩, h⟩ := h
      obtain rfl := Option.some.inj h
      exact .refused hrunning
  | holder a =>
      obtain ⟨holder, hholder, rfl⟩ := Option.map_eq_some_iff.mp h
      exact .held holder (Holder.moved_of_step hholder)

/-- The timers of the publish itself. -/
theorem expired_of_running (hrunning : s.running = true) (hdue : s.expires ≤ now) :
    expired s.instants now = true := by
  rw [instants, expired_append_iff]
  left
  cases hstage : s.stage with
  | declaring | putting => exact expired_singleton.mpr hdue
  | gating poll => exact expired_cons.mpr (.inl hdue)
  | published | refused =>
      rw [running, hstage] at hrunning
      cases hrunning

/-- A timer has run out exactly when the publish or its holder goes on for it. -/
theorem expired_iff : expired s.instants now = true ↔
    ∃ a : PublishAction, a.own = true ∧ (s.step availability now tokenGone a).isSome = true := by
  constructor
  · intro h
    rw [instants, expired_append_iff] at h
    obtain hdue | hholder := h
    · have hbudget : ∀ hrunning : s.running = true, s.expires ≤ now →
          ∃ a : PublishAction, a.own = true ∧
            (s.step availability now tokenGone a).isSome = true := by
        intro hrunning hexpires
        exact ⟨.budget, rfl, by simp [step, hrunning, hexpires]⟩
      cases hstage : s.stage with
      | declaring | putting =>
          rw [hstage] at hdue
          exact hbudget (by rw [running, hstage]) (expired_singleton.mp hdue)
      | gating poll =>
          rw [hstage] at hdue
          obtain hexpires | hpoll := expired_cons.mp hdue
          · exact hbudget (by rw [running, hstage]) hexpires
          · obtain ⟨a, hown, hstep⟩ := Poll.expired_iff.mp hpoll
            exact ⟨.gate a, hown, by simp [step, hstage, hstep]⟩
      | published | refused =>
          rw [hstage] at hdue
          exact absurd hdue not_expired_nil
    · obtain ⟨a, hown, hstep⟩ : ∃ a : HolderAction, a.own = true ∧
          (s.holder.step availability now tokenGone a).isSome = true :=
        Holder.expired_iff.mp hholder
      exact ⟨.holder a, hown, by simp [step, hstep]⟩
  · rintro ⟨a, hown, hstep⟩
    cases a with
    | budget =>
        have hover : s.running = true ∧ s.expires ≤ now := by simpa [step] using hstep
        exact expired_of_running hover.1 hover.2
    | gate a =>
        rw [instants, expired_append_iff]
        left
        simp only [step] at hstep
        split at hstep
        · next poll hstage =>
            rw [Option.isSome_map] at hstep
            rw [hstage]
            exact expired_cons.mpr (.inr (Poll.expired_iff.mpr ⟨a, hown, hstep⟩))
        · cases hstep
    | holder a =>
        rw [instants, expired_append_iff]
        right
        simp only [step, Option.isSome_map] at hstep
        exact Holder.expired_iff.mpr ⟨a, hown, hstep⟩
    | declared | put => cases hown

/-- The gate has let the signal through: a subscriber matched, or the wait was over. -/
def Gated (availability : Nat) (s : SignalPublish) : Prop :=
  ∃ declared gated, s.declaredAt = some declared ∧ s.gatedAt = some gated ∧
    (s.matched = true ∨ declared + availability ≤ gated)

/-- What is recorded at each stage of the publish. -/
def StageRecord (availability : Nat) (s : SignalPublish) : Prop :=
  match s.stage with
  | .declaring | .refused => s.putAt = none
  | .gating poll => s.putAt = none ∧
      ∃ declared, s.declaredAt = some declared ∧ poll.Until (declared + availability)
  | .putting => s.putAt = none ∧ s.Gated availability
  | .published => s.putAt ≠ none ∧ s.Gated availability

/-- The publisher was let go at a time after its put for a good reason. -/
def Justified (tokenGone : Bool) (put released : Nat) : Release → Prop
  | .gone | .deleted => tokenGone = true
  | .capped => put + Holder.errorHoldCap ≤ released
  | .unwatched | .closed => True

/-- What is recorded of the holder. -/
def HolderRecord (tokenGone : Bool) (s : SignalPublish) : Prop :=
  match s.holder with
  | .absent => s.putAt = none ∧ s.releasedAt = none
  | .released why => ∃ put released, s.putAt = some put ∧ s.releasedAt = some released ∧
      Justified tokenGone put released why
  | holder => s.releasedAt = none ∧
      ∃ put, s.putAt = some put ∧ holder.capOf = some (put + Holder.errorHoldCap)

/-- The records of the publish and of its holder. -/
structure Sound (availability : Nat) (tokenGone : Bool) (s : SignalPublish) : Prop where
  stage : s.StageRecord availability
  holder : s.HolderRecord tokenGone

theorem sound_start (availability now : Nat) (tokenGone : Bool) :
    Sound availability tokenGone (start availability now) :=
  ⟨rfl, rfl, rfl⟩

theorem holderRecord_of_capOf {cap : Nat} (hcap : s.holder.capOf = some cap)
    (h : s.HolderRecord tokenGone) :
    s.releasedAt = none ∧ ∃ put, s.putAt = some put ∧ cap = put + Holder.errorHoldCap := by
  cases hholder : s.holder with
  | subscribing c | probing c _ | watching c =>
      simp only [HolderRecord, hholder] at h
      obtain ⟨hreleased, put, hput, hc⟩ := h
      rw [hholder] at hcap
      exact ⟨hreleased, put, hput, Option.some.inj (hcap.symm.trans hc)⟩
  | absent | released =>
      rw [hholder] at hcap
      cases hcap

/-- A holder that still runs is recorded by its put and its end. -/
theorem holderRecord_of_running {put : Nat} (hput : s.putAt = some put)
    (hreleased : s.releasedAt = none)
    (hcap : s.holder.capOf = some (put + Holder.errorHoldCap)) : s.HolderRecord tokenGone := by
  cases hholder : s.holder with
  | subscribing | probing | watching =>
      rw [hholder] at hcap
      simp only [HolderRecord, hholder]
      exact ⟨hreleased, put, hput, hcap⟩
  | absent | released =>
      rw [hholder] at hcap
      cases hcap

/-- The token can only go. -/
theorem HolderRecord.vanish (h : s.HolderRecord tokenGone) : s.HolderRecord true := by
  cases hholder : s.holder with
  | released why =>
      simp only [HolderRecord, hholder] at h ⊢
      obtain ⟨put, released, hput, hreleased, hwhy⟩ := h
      refine ⟨put, released, hput, hreleased, ?_⟩
      cases why with
      | gone | deleted => rfl
      | capped => exact hwhy
      | unwatched | closed => trivial
  | absent | subscribing | probing | watching => simpa only [HolderRecord, hholder] using h

/-- Before the put there is no holder. -/
theorem Sound.absent (h : Sound availability tokenGone s) (hput : s.putAt = none) :
    s.holder = .absent := by
  have hholder := h.holder
  cases hcase : s.holder with
  | absent => rfl
  | subscribing | probing | watching | released =>
      simp only [HolderRecord, hcase, hput] at hholder
      grind

theorem Sound.polled {poll poll' : Poll} {pa : PollAction} (h : Sound availability tokenGone s)
    (hstage : s.stage = .gating poll) (hpoll : poll.step now pa = some poll') :
    Sound availability tokenGone (s.gated now poll') := by
  have hrecord := h.stage
  simp only [StageRecord, hstage] at hrecord
  obtain ⟨hput, declared, hdeclared, huntil⟩ := hrecord
  obtain ⟨huntil', hmissed⟩ := huntil.step hpoll
  cases poll' with
  | found => exact ⟨⟨hput, declared, now, hdeclared, rfl, .inl rfl⟩, h.holder⟩
  | missed => exact ⟨⟨hput, declared, now, hdeclared, rfl, .inr (hmissed rfl)⟩, h.holder⟩
  | querying | sleeping => exact ⟨⟨hput, declared, hdeclared, huntil'⟩, h.holder⟩

/-- A running call has put nothing. -/
theorem Sound.unput (h : Sound availability tokenGone s) (hrunning : s.running = true) :
    s.putAt = none := by
  have hrecord := h.stage
  cases hstage : s.stage with
  | declaring =>
      simp only [StageRecord, hstage] at hrecord
      exact hrecord
  | gating | putting =>
      simp only [StageRecord, hstage] at hrecord
      exact hrecord.1
  | published | refused =>
      rw [running, hstage] at hrunning
      cases hrunning

theorem Sound.held {holder : Holder} (h : Sound availability tokenGone s)
    (hm : Holder.Moved now tokenGone s.holder holder) : Sound availability tokenGone { s with
      holder := holder
      releasedAt := if holder.capOf = none then some now else s.releasedAt } := by
  refine ⟨h.stage, ?_⟩
  cases hm with
  | on holder cap hbefore hafter _ =>
      obtain ⟨hreleased, put, hput, rfl⟩ := holderRecord_of_capOf hbefore h.holder
      refine holderRecord_of_running hput ?_ hafter
      rw [if_neg (by rw [hafter]; exact Option.some_ne_none _)]
      exact hreleased
  | unwatched cap hbefore | closed cap hbefore =>
      obtain ⟨-, put, hput, -⟩ := holderRecord_of_capOf hbefore h.holder
      exact ⟨put, now, hput, rfl, trivial⟩
  | gone cap hbefore htoken | deleted cap hbefore htoken =>
      obtain ⟨-, put, hput, -⟩ := holderRecord_of_capOf hbefore h.holder
      exact ⟨put, now, hput, rfl, htoken⟩
  | capped cap hbefore hdue =>
      obtain ⟨-, put, hput, rfl⟩ := holderRecord_of_capOf hbefore h.holder
      exact ⟨put, now, hput, rfl, hdue⟩

theorem Sound.moved (h : Sound availability tokenGone s)
    (hm : Moved availability now tokenGone s s') : Sound availability tokenGone s' := by
  have hrecord := h.stage
  cases hm with
  | declared hstage =>
      simp only [StageRecord, hstage] at hrecord
      exact ⟨⟨hrecord, now, rfl, rfl⟩, h.holder⟩
  | polled poll poll' pa hstage hpoll => exact h.polled hstage hpoll
  | published hstage =>
      simp only [StageRecord, hstage] at hrecord
      have habsent := h.holder
      simp only [HolderRecord, h.absent hrecord.1] at habsent
      exact ⟨⟨Option.some_ne_none _, hrecord.2⟩, habsent.2, now, rfl, rfl⟩
  | refused hrunning => exact ⟨h.unput hrunning, h.holder⟩
  | held holder hmoved => exact h.held hmoved

/-- The budget is set once. -/
theorem Moved.expires (hm : Moved availability now tokenGone s s') : s'.expires = s.expires := by
  cases hm with
  | polled poll poll' pa hstage hpoll =>
      cases poll' with
      | found | missed | querying | sleeping => rfl
  | declared | published | refused | held => rfl

theorem expires_drop : s.drop.expires = s.expires := by
  rw [drop]
  split <;> rfl

/-- The holder does not touch the call. -/
theorem running_ofHolder (ha : a.ofHolder = true)
    (h : s.step availability now tokenGone a = some s') : s'.running = s.running := by
  cases a with
  | holder a =>
      obtain ⟨holder, -, rfl⟩ := Option.map_eq_some_iff.mp h
      rfl
  | declared | gate | put | budget => cases ha

theorem running_drop : s.drop.running = false := by
  rw [drop]
  split
  · rfl
  · next hrunning => exact Bool.eq_false_iff.mpr hrunning

theorem Sound.drop (h : Sound availability tokenGone s) : Sound availability tokenGone s.drop := by
  rw [SignalPublish.drop]
  split
  · next hrunning => exact ⟨h.unput hrunning, h.holder⟩
  · exact h

/-- A signal that was put went through the gate, and its publisher is held or was let go for a
good reason. -/
theorem Sound.told {put : Nat} (h : Sound availability tokenGone s) (hput : s.putAt = some put) :
    s.Gated availability ∧
      ((s.releasedAt = none ∧ s.holder.capOf = some (put + Holder.errorHoldCap)) ∨
        ∃ why released, s.holder = .released why ∧ s.releasedAt = some released ∧
          Justified tokenGone put released why) := by
  constructor
  · have hrecord := h.stage
    cases hstage : s.stage with
    | published =>
        simp only [StageRecord, hstage] at hrecord
        exact hrecord.2
    | declaring | refused =>
        simp only [StageRecord, hstage, hput] at hrecord
        cases hrecord
    | gating | putting =>
        simp only [StageRecord, hstage, hput] at hrecord
        cases hrecord.1
  · have hrecord := h.holder
    cases hholder : s.holder with
    | absent =>
        simp only [HolderRecord, hholder, hput] at hrecord
        cases hrecord.1
    | released why =>
        simp only [HolderRecord, hholder] at hrecord
        obtain ⟨put', released, hput', hreleased, hwhy⟩ := hrecord
        obtain rfl := Option.some.inj (hput.symm.trans hput')
        exact .inr ⟨why, released, rfl, hreleased, hwhy⟩
    | subscribing | probing | watching =>
        simp only [HolderRecord, hholder] at hrecord
        obtain ⟨hreleased, put', hput', hcap⟩ := hrecord
        obtain rfl := Option.some.inj (hput.symm.trans hput')
        exact .inl ⟨hreleased, hcap⟩

/-- No timer of the publish is late, and the holder has let go by its end. -/
structure Timely (now : Nat) (s : SignalPublish) : Prop where
  due : OnTime s.instants now
  released : ∀ put released, s.putAt = some put → s.releasedAt = some released →
    released ≤ put + Holder.errorHoldCap

theorem timely_start (availability now : Nat) : Timely now (start availability now) where
  due := onTime_singleton.mpr (Nat.le_add_right _ _)
  released := nofun

theorem expires_mem_instants (h : s.running = true) : s.expires ∈ s.instants := by
  cases hstage : s.stage with
  | declaring | gating | putting =>
      rw [instants, hstage]
      exact List.mem_cons_self ..
  | published | refused =>
      rw [running, hstage] at h
      cases h

/-- The publisher is let go by the end of its hold. -/
theorem Timely.released_le (h : s.Timely now) (hsound : Sound availability tokenGone s) {put : Nat}
    (hput : s.putAt = some put) : s.releasedAt.getD now ≤ put + Holder.errorHoldCap := by
  obtain ⟨-, ⟨hnone, hcap⟩ | ⟨why, released, -, hreleased, -⟩⟩ := hsound.told hput
  · have hdue := h.due
    rw [instants, onTime_append] at hdue
    rw [hnone, Option.getD_none]
    exact hdue.2 _ (Holder.capOf_mem_instants hcap)
  · rw [hreleased, Option.getD_some]
    exact h.released put released hput hreleased

theorem onTime_held {holder : Holder} (hm : Holder.Moved now tokenGone s.holder holder)
    (hnow : OnTime s.holder.instants now) : OnTime holder.instants now := by
  cases hm with
  | on holder cap _ _ htimers => exact htimers hnow
  | unwatched | gone | deleted | closed | capped => exact onTime_nil

theorem onTime_gated {poll poll' : Poll} {deadline : Nat} {pa : PollAction}
    (hstage : s.stage = .gating poll) (huntil : poll.Until deadline)
    (hpoll : poll.step now pa = some poll') (hnow : OnTime s.instants now) :
    OnTime (s.gated now poll').instants now := by
  rw [instants, hstage, onTime_append, onTime_cons] at hnow
  obtain ⟨⟨hexpires, htimers⟩, hholder⟩ := hnow
  have htimers' : OnTime poll'.instants now := Poll.onTime_step huntil htimers hpoll
  cases poll' with
  | found | missed =>
      exact onTime_append.mpr ⟨onTime_singleton.mpr hexpires, hholder⟩
  | querying | sleeping =>
      exact onTime_append.mpr ⟨onTime_cons.mpr ⟨hexpires, htimers'⟩, hholder⟩

theorem Timely.moved (h : s.Timely now) (hsound : Sound availability tokenGone s)
    (hm : Moved availability now tokenGone s s') : s'.Timely now := by
  have hrecord := hsound.stage
  obtain ⟨hdue, hreleased⟩ := h
  cases hm with
  | declared hstage =>
      refine ⟨?_, hreleased⟩
      rw [instants, hstage, onTime_append] at hdue
      have hexpires : now ≤ s.expires := onTime_singleton.mp hdue.1
      exact onTime_append.mpr ⟨onTime_cons.mpr ⟨hexpires,
        onTime_singleton.mpr (Nat.le_add_right _ _)⟩, hdue.2⟩
  | polled poll poll' pa hstage hpoll =>
      simp only [StageRecord, hstage] at hrecord
      obtain ⟨hput, declared, -, huntil⟩ := hrecord
      refine ⟨onTime_gated hstage huntil hpoll hdue, ?_⟩
      cases poll' with
      | found | missed | querying | sleeping => exact hreleased
  | published hstage =>
      refine ⟨onTime_singleton.mpr (Nat.le_add_right _ _), ?_⟩
      simp only [StageRecord, hstage] at hrecord
      have habsent := hsound.holder
      simp only [HolderRecord, hsound.absent hrecord.1] at habsent
      intro put released _ hrel
      exact absurd (habsent.2.symm.trans hrel) nofun
  | refused hrunning =>
      refine ⟨?_, hreleased⟩
      rw [instants, onTime_append] at hdue
      exact onTime_append.mpr ⟨onTime_nil, hdue.2⟩
  | held holder hmoved =>
      rw [instants, onTime_append] at hdue
      refine ⟨onTime_append.mpr ⟨hdue.1, onTime_held hmoved hdue.2⟩, ?_⟩
      intro put released hput hrel
      by_cases hcap : holder.capOf = none
      · simp only [hcap, if_true] at hrel
        obtain rfl := Option.some.inj hrel
        obtain ⟨cap, hbefore⟩ := hmoved.capOf
        obtain ⟨-, put', hput', rfl⟩ := holderRecord_of_capOf hbefore hsound.holder
        obtain rfl := Option.some.inj (hput'.symm.trans hput)
        exact hdue.2 _ (Holder.capOf_mem_instants hbefore)
      · simp only [hcap, if_false] at hrel
        exact hreleased put released hput hrel

theorem Timely.drop (h : s.Timely now) : s.drop.Timely now := by
  rw [SignalPublish.drop]
  split
  · refine ⟨?_, h.released⟩
    have hdue := h.due
    rw [instants, onTime_append] at hdue
    exact onTime_append.mpr ⟨onTime_nil, hdue.2⟩
  · exact h

theorem Timely.tick (h : s.Timely now) (hquiet : expired s.instants now = false) :
    s.Timely (now + 1) :=
  ⟨.tick hquiet, h.released⟩

end SignalPublish

end ZenohBridge
