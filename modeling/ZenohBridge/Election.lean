import ZenohBridge.Foundation.Execution
import ZenohBridge.Foundation.FixedWidth
import ZenohBridge.Foundation.KeyExpr
import Mathlib.Data.Finset.Max
import Mathlib.Data.List.DropRight
import Mathlib.Data.String.Basic

/-!
# Election between exporters of one scope

Every exporter of a scope declares a liveliness claim and observes the claims of
all of them. The exporter whose claim is the smallest string of its view is active.
The claim starts with a zero-padded timestamp, so the smallest claim is the oldest.

Claims appear and disappear at any time and every observer learns of it with its
own delay. The session delivers the events of one claim to one observer in order
and without loss, and nothing is assumed about events of different claims.

## Implementation notes

An exporter is named by its claim string, which the per-claim UUID makes unique. The
events on their way are named by their claim, and `apply` reads the claim back from the
key of the sample. The view is `none` while `establish` has declared the subscriber and
not yet the token.
-/

namespace ZenohBridge

open Execution FixedWidth

/-- What a claim string is built from: the start time in milliseconds, the session
id and a UUID. Twenty digits hold every such time below `10 ^ 20`, and both ids are
printed in hexadecimal, without a `/`. -/
structure ClaimName where
  ts : Nat
  zid : String
  uuid : String
  bound : ts < 10 ^ 20
  zid_plain : '/' ∉ zid.toList
  uuid_plain : '/' ∉ uuid.toList

/-- The claim segment `{ts:020}-{zid}-{uuid}`. -/
def ClaimName.segment (c : ClaimName) : String :=
  String.ofList (zeroPad 20 c.ts) ++ "-" ++ c.zid ++ "-" ++ c.uuid

/-- The key of a claim token. -/
def claimKey (scope claim : String) : String := scope ++ "/exporter-claim/" ++ claim

/-- `key.rsplit('/').next()`: what stands after the last `/` of a key. -/
def lastSegment (key : String) : String :=
  String.ofList (key.toList.rtakeWhile fun c => c ≠ '/')

/-- The kind of a liveliness sample. -/
inductive SampleKind where
  | put
  | delete
  deriving DecidableEq, Repr

/-- The election rule: the smallest claim of the view wins. -/
def elect (claims : Finset String) (own : String) : Bool := claims.min = (own : WithTop String)

/-- `Claim::apply` on the view, for a sample with the given key. -/
def applyClaim (claims : Finset String) (key : String) (kind : SampleKind) : Finset String :=
  match kind with
  | .put => insert (lastSegment key) claims
  | .delete => claims.erase (lastSegment key)

/-- The exporters of one scope and the claim events on their way to them. -/
structure Election where
  scope : String
  /-- Claims whose token is declared. -/
  live : Finset String
  /-- Exporters whose claim subscriber is declared. -/
  observers : Finset String
  view : String → Option (Finset String)
  /-- Events of a claim that the session has not delivered to an observer yet. -/
  inflight : String → String → List SampleKind
  /-- Events delivered to the subscriber of an observer and not applied yet. -/
  channel : String → List (String × SampleKind)

/-- The steps of the exporters and of the session between them. -/
inductive ElectionAction where
  /-- `establish` declares its subscriber, with history. -/
  | subscribe (claim : ClaimName)
  /-- `establish` declares its token and starts its view with its own claim. -/
  | declare (claim : ClaimName)
  /-- The token of a claim disappears. -/
  | withdraw (claim : String)
  /-- An exporter without a token drops its subscriber. -/
  | leave (observer : String)
  /-- The session delivers the next event of a claim to an observer. -/
  | arrive (observer claim : String)
  /-- An awaited receive followed by `apply`. -/
  | apply (observer : String)
  /-- `drain_pending`, as every call of `is_active` does first. -/
  | drainPending (observer : String)

namespace Election

/-- No exporter has started. -/
def init (scope : String) : Election := ⟨scope, ∅, ∅, fun _ => none, fun _ _ => [], fun _ => []⟩

/-- The exporter holds the active role by its own view. -/
def Elected (s : Election) (o : String) : Prop := ∃ v, s.view o = some v ∧ elect v o = true

/-- The event reaches `apply` as a sample on the key of its claim. -/
def applyEvent (scope : String) (claims : Finset String) (event : String × SampleKind) :
    Finset String :=
  applyClaim claims (claimKey scope event.1) event.2

/-- An event of `claim` starts its way to every observer. -/
def announce (claim : String) (kind : SampleKind) (s : Election) :
    String → String → List SampleKind :=
  fun o c => if c = claim ∧ o ∈ s.observers then s.inflight o c ++ [kind] else s.inflight o c

/-- One step of the election. -/
def step (s : Election) : ElectionAction → Option Election
  | .subscribe claim =>
      if claim.segment ∈ s.observers then none
      else some { s with
        observers := insert claim.segment s.observers
        view := Function.update s.view claim.segment none
        -- history replays the claims that are live already
        inflight := Function.update s.inflight claim.segment
          fun c => if c ∈ s.live then [.put] else []
        channel := Function.update s.channel claim.segment [] }
  | .declare claim =>
      if claim.segment ∈ s.observers ∧ claim.segment ∉ s.live ∧ s.view claim.segment = none then
        some { s with
          live := insert claim.segment s.live
          view := Function.update s.view claim.segment (some {claim.segment})
          inflight := s.announce claim.segment .put }
      else none
  | .withdraw claim =>
      if claim ∈ s.live then some { s with
        live := s.live.erase claim
        inflight := s.announce claim .delete }
      else none
  | .leave o =>
      if o ∈ s.observers ∧ o ∉ s.live then some { s with
        observers := s.observers.erase o
        view := Function.update s.view o none }
      else none
  | .arrive o claim =>
      match s.inflight o claim with
      | [] => none
      | kind :: rest =>
          if o ∈ s.observers then some { s with
            inflight := Function.update s.inflight o (Function.update (s.inflight o) claim rest)
            channel := Function.update s.channel o (s.channel o ++ [(claim, kind)]) }
          else none
  | .apply o =>
      match s.view o, s.channel o with
      | some v, event :: rest => some { s with
          view := Function.update s.view o (some (applyEvent s.scope v event))
          channel := Function.update s.channel o rest }
      | _, _ => none
  | .drainPending o =>
      match s.view o with
      | some v => some { s with
          view := Function.update s.view o (some ((s.channel o).foldl (applyEvent s.scope) v))
          channel := Function.update s.channel o [] }
      | none => none

end Election

/-- A claim segment in use: it was built by some exporter. -/
def Named (claim : String) : Prop := ∃ n : ClaimName, n.segment = claim

theorem ClaimName.named (n : ClaimName) : Named n.segment := ⟨n, rfl⟩

/-- Comparing claim strings compares their timestamps first. -/
theorem ClaimName.ts_le_of_segment_le {m n : ClaimName} (h : m.segment ≤ n.segment) :
    m.ts ≤ n.ts := by
  by_contra hlt
  have hlist : n.segment.toList < m.segment.toList := by
    simp only [segment, String.toList_append, String.toList_ofList, List.append_assoc]
    exact zeroPad_append_lt (by decide) (Nat.lt_of_not_le hlt) m.bound _ _
  exact absurd (String.lt_iff_toList_lt.mpr hlist) (not_lt_of_ge h)

theorem ClaimName.slash_not_mem (n : ClaimName) : '/' ∉ n.segment.toList := by
  simp only [segment, String.toList_append, String.toList_ofList, List.mem_append, not_or]
  refine ⟨⟨⟨⟨?_, by decide⟩, n.zid_plain⟩, by decide⟩, n.uuid_plain⟩
  intro hmem
  exact absurd (isDigit_of_mem_zeroPad hmem) (by decide)

/-- `apply` reads the claim back from the key of its token. -/
theorem Named.lastSegment_claimKey {claim : String} (h : Named claim) (scope : String) :
    lastSegment (claimKey scope claim) = claim := by
  obtain ⟨n, rfl⟩ := h
  have hkey : (claimKey scope n.segment).toList =
      (scope.toList ++ "/exporter-claim".toList) ++ '/' :: n.segment.toList := by
    simp [claimKey]
  rw [lastSegment, hkey]
  change String.ofList (KeyExpr.lastSegment '/' _) = _
  rw [KeyExpr.lastSegment_append n.slash_not_mem, String.ofList_toList]

theorem elect_iff {claims : Finset String} {own : String} :
    elect claims own = true ↔ own ∈ claims ∧ ∀ c ∈ claims, own ≤ c := by
  simp only [elect, decide_eq_true_eq]
  constructor
  · intro h
    exact ⟨Finset.mem_of_min h, fun c hc => Finset.min_le_of_eq hc h⟩
  · rintro ⟨hmem, hle⟩
    obtain ⟨m, hm⟩ := Finset.min_of_mem hmem
    have heq : m = own := le_antisymm (Finset.min_le_of_eq hmem hm) (hle m (Finset.mem_of_min hm))
    rw [hm, heq]

/-- The presence of a claim after the pending events have been applied to it. -/
def settle (present : Bool) (events : List SampleKind) : Bool :=
  events.foldl (fun _ kind => decide (kind = .put)) present

@[simp] theorem settle_nil (b : Bool) : settle b [] = b := rfl

theorem settle_append (b : Bool) (xs ys : List SampleKind) :
    settle b (xs ++ ys) = settle (settle b xs) ys :=
  List.foldl_append

@[simp] theorem settle_concat (b : Bool) (xs : List SampleKind) (kind : SampleKind) :
    settle b (xs ++ [kind]) = decide (kind = .put) := by
  rw [settle_append]
  rfl

/-- The events of one claim in the channel of an observer. -/
def eventsOf (claim : String) (events : List (String × SampleKind)) : List SampleKind :=
  (events.filter fun e => e.1 = claim).map Prod.snd

@[simp] theorem eventsOf_nil (claim : String) : eventsOf claim [] = [] := rfl

theorem eventsOf_append (claim : String) (xs ys : List (String × SampleKind)) :
    eventsOf claim (xs ++ ys) = eventsOf claim xs ++ eventsOf claim ys := by
  simp only [eventsOf, List.filter_append, List.map_append]

theorem eventsOf_cons (claim : String) (event : String × SampleKind)
    (rest : List (String × SampleKind)) :
    eventsOf claim (event :: rest) = eventsOf claim [event] ++ eventsOf claim rest :=
  eventsOf_append claim [event] rest

theorem eventsOf_single_of_ne {claim c : String} (h : c ≠ claim) (kind : SampleKind) :
    eventsOf claim [(c, kind)] = [] := by
  simp [eventsOf, h]

@[simp] theorem eventsOf_single_self (claim : String) (kind : SampleKind) :
    eventsOf claim [(claim, kind)] = [kind] := by
  simp [eventsOf]

namespace Election

theorem mem_applyEvent {event : String × SampleKind} (h : Named event.1) (scope : String)
    (claims : Finset String) (c : String) :
    decide (c ∈ applyEvent scope claims event) =
      settle (decide (c ∈ claims)) (eventsOf c [event]) := by
  obtain ⟨claim, kind⟩ := event
  simp only [applyEvent, applyClaim, h.lastSegment_claimKey]
  by_cases hc : claim = c
  · subst hc
    cases kind <;> simp [settle]
  · cases kind <;> simp [eventsOf_single_of_ne hc, Ne.symm hc]

/-- Draining a channel applies exactly the queued events of each claim, in order. -/
theorem mem_foldl_applyEvent {events : List (String × SampleKind)}
    (h : ∀ e ∈ events, Named e.1) (scope : String) (claims : Finset String) (c : String) :
    decide (c ∈ events.foldl (applyEvent scope) claims) =
      settle (decide (c ∈ claims)) (eventsOf c events) := by
  induction events generalizing claims with
  | nil => rfl
  | cons event rest ih =>
      have htail : ∀ e ∈ rest, Named e.1 := fun e he => h e (List.mem_cons_of_mem _ he)
      rw [List.foldl_cons, ih htail, mem_applyEvent (h event (List.mem_cons_self ..)),
        eventsOf_cons c event rest, settle_append]

/-- The events of `claim` that are still between its token and the view of `o`. -/
def pending (s : Election) (o claim : String) : List SampleKind :=
  eventsOf claim (s.channel o) ++ s.inflight o claim

/-- Every view, once its pending events are applied, is the set of live claims. -/
structure Synced (s : Election) : Prop where
  sync : ∀ o ∈ s.observers, ∀ c,
    settle (decide (c ∈ (s.view o).getD ∅)) (s.pending o c) = decide (c ∈ s.live)
  observing : ∀ o, (s.view o).isSome → o ∈ s.observers
  viewing : ∀ o ∈ s.live, (s.view o).isSome
  liveNamed : ∀ c ∈ s.live, Named c
  inflightNamed : ∀ o c, s.inflight o c ≠ [] → Named c
  channelNamed : ∀ o, ∀ e ∈ s.channel o, Named e.1

theorem synced_init (scope : String) : (init scope).Synced where
  sync := fun _ h => absurd h (Finset.notMem_empty _)
  observing := fun _ h => Bool.noConfusion h
  viewing := fun _ h => absurd h (Finset.notMem_empty _)
  liveNamed := fun _ h => absurd h (Finset.notMem_empty _)
  inflightNamed := fun _ _ h => absurd rfl h
  channelNamed := fun _ _ h => absurd h List.not_mem_nil

/-- An announced event is the last one on its way to every observer. -/
theorem settle_announce {s : Election} {o : String} (ho : o ∈ s.observers) (claim : String)
    (kind : SampleKind) (b : Bool) :
    settle b (eventsOf claim (s.channel o) ++ s.announce claim kind o claim) =
      decide (kind = .put) := by
  rw [announce, if_pos ⟨rfl, ho⟩, ← List.append_assoc, settle_concat]

theorem announce_of_ne {s : Election} {claim c : String} (h : c ≠ claim) (kind : SampleKind)
    (o : String) : s.announce claim kind o c = s.inflight o c := by
  rw [announce, if_neg fun hc => h hc.1]

theorem Synced.announce_named {s : Election} (hs : s.Synced) {claim : String}
    (hclaim : Named claim) (kind : SampleKind) (o c : String)
    (h : s.announce claim kind o c ≠ []) : Named c := by
  by_cases hc : c = claim
  · exact hc ▸ hclaim
  · rw [announce_of_ne hc] at h
    exact hs.inflightNamed o c h

theorem Synced.subscribe {s s' : Election} {claim : ClaimName} (hs : s.Synced)
    (h : s.step (.subscribe claim) = some s') : s'.Synced := by
  simp only [step] at h
  split at h
  · contradiction
  rename_i hfresh
  obtain rfl := Option.some.inj h
  have hold : ∀ o ∈ s.observers, o ≠ claim.segment := fun o ho heq => hfresh (heq ▸ ho)
  refine ⟨?_, ?_, ?_, hs.liveNamed, ?_, ?_⟩
  · intro o ho c
    rcases Finset.mem_insert.mp ho with rfl | ho
    · simp only [pending, Function.update_self, eventsOf_nil, List.nil_append]
      by_cases hc : c ∈ s.live <;> simp [hc, settle]
    · simp only [pending, Function.update_of_ne (hold o ho)]
      exact hs.sync o ho c
  · intro o hview
    by_cases ho : o = claim.segment
    · exact ho ▸ Finset.mem_insert_self ..
    · simp only [Function.update_of_ne ho] at hview
      exact Finset.mem_insert_of_mem (hs.observing o hview)
  · intro o ho
    have hview := hs.viewing o ho
    simpa only [Function.update_of_ne (hold o (hs.observing o hview))] using hview
  · intro o c hne
    by_cases ho : o = claim.segment
    · subst ho
      simp only [Function.update_self] at hne
      split at hne
      · rename_i hlive
        exact hs.liveNamed c hlive
      · contradiction
    · simp only [Function.update_of_ne ho] at hne
      exact hs.inflightNamed o c hne
  · intro o e he
    by_cases ho : o = claim.segment
    · subst ho
      simp only [Function.update_self] at he
      exact absurd he List.not_mem_nil
    · simp only [Function.update_of_ne ho] at he
      exact hs.channelNamed o e he

theorem Synced.declare {s s' : Election} {claim : ClaimName} (hs : s.Synced)
    (h : s.step (.declare claim) = some s') : s'.Synced := by
  simp only [step, Option.ite_none_right_eq_some] at h
  obtain ⟨⟨hobs, hnew, hview⟩, h⟩ := h
  obtain rfl := Option.some.inj h
  refine ⟨?_, ?_, ?_, ?_, hs.announce_named claim.named _, hs.channelNamed⟩
  · intro o (ho : o ∈ s.observers) c
    by_cases hc : c = claim.segment
    · subst hc
      simp only [pending, settle_announce ho, Finset.mem_insert_self, decide_true]
    · have hsync := hs.sync o ho c
      simp only [pending, announce_of_ne hc, Finset.mem_insert, hc, false_or] at hsync ⊢
      by_cases hown : o = claim.segment
      · subst hown
        rw [hview] at hsync
        simpa only [Function.update_self, Option.getD_some, Option.getD_none,
          Finset.mem_singleton, hc, Finset.notMem_empty] using hsync
      · simpa only [Function.update_of_ne hown] using hsync
  · intro o hsome
    by_cases hown : o = claim.segment
    · rw [hown]
      exact hobs
    · simp only [Function.update_of_ne hown] at hsome
      exact hs.observing o hsome
  · intro o ho
    by_cases hown : o = claim.segment
    · simp [hown]
    · have hsome := hs.viewing o (Finset.mem_of_mem_insert_of_ne ho hown)
      simpa only [Function.update_of_ne hown] using hsome
  · intro c hc
    rcases Finset.mem_insert.mp hc with rfl | hc
    · exact claim.named
    · exact hs.liveNamed c hc

theorem Synced.withdraw {s s' : Election} {claim : String} (hs : s.Synced)
    (h : s.step (.withdraw claim) = some s') : s'.Synced := by
  simp only [step, Option.ite_none_right_eq_some] at h
  obtain ⟨hlive, h⟩ := h
  obtain rfl := Option.some.inj h
  refine ⟨?_, hs.observing, ?_, ?_, hs.announce_named (hs.liveNamed claim hlive) _, hs.channelNamed⟩
  · intro o (ho : o ∈ s.observers) c
    by_cases hc : c = claim
    · subst hc
      simp [pending, settle_announce ho]
    · have hsync := hs.sync o ho c
      simpa only [pending, announce_of_ne hc, Finset.mem_erase, ne_eq, hc, not_false_eq_true,
        true_and] using hsync
  · intro o ho
    exact hs.viewing o (Finset.mem_of_mem_erase ho)
  · intro c hc
    exact hs.liveNamed c (Finset.mem_of_mem_erase hc)

theorem Synced.leave {s s' : Election} {o : String} (hs : s.Synced)
    (h : s.step (.leave o) = some s') : s'.Synced := by
  simp only [step, Option.ite_none_right_eq_some] at h
  obtain ⟨⟨-, hgone⟩, h⟩ := h
  obtain rfl := Option.some.inj h
  refine ⟨?_, ?_, ?_, hs.liveNamed, hs.inflightNamed, hs.channelNamed⟩
  · intro p hp c
    obtain ⟨hne, hobs⟩ := Finset.mem_erase.mp hp
    simp only [pending, Function.update_of_ne hne]
    exact hs.sync p hobs c
  · intro p hview
    by_cases hpo : p = o
    · subst hpo
      simp at hview
    · simp only [Function.update_of_ne hpo] at hview
      exact Finset.mem_erase.mpr ⟨hpo, hs.observing p hview⟩
  · intro p hp
    have hne : p ≠ o := fun heq => hgone (heq ▸ hp)
    simpa only [Function.update_of_ne hne] using hs.viewing p hp

/-- Delivery moves the oldest event of a claim behind the delivered ones. -/
theorem Synced.arrive {s s' : Election} {o claim : String} (hs : s.Synced)
    (h : s.step (.arrive o claim) = some s') : s'.Synced := by
  simp only [step] at h
  split at h
  · contradiction
  rename_i kind rest hevents
  rw [Option.ite_none_right_eq_some] at h
  obtain ⟨-, h⟩ := h
  obtain rfl := Option.some.inj h
  have hnamed : Named claim := hs.inflightNamed o claim (by simp [hevents])
  refine ⟨?_, hs.observing, hs.viewing, hs.liveNamed, ?_, ?_⟩
  · intro p hp c
    have hsync := hs.sync p hp c
    by_cases hpo : p = o
    · subst hpo
      simp only [pending, Function.update_self, eventsOf_append] at hsync ⊢
      by_cases hc : c = claim
      · subst hc
        simpa only [hevents, eventsOf_single_self, Function.update_self, List.append_assoc,
          List.singleton_append] using hsync
      · simpa only [eventsOf_single_of_ne (Ne.symm hc), Function.update_of_ne hc,
          List.append_nil] using hsync
    · simpa only [pending, Function.update_of_ne hpo] using hsync
  · intro p c hne
    by_cases hc : c = claim
    · exact hc ▸ hnamed
    · apply hs.inflightNamed p c
      by_cases hpo : p = o
      · subst hpo
        simpa only [Function.update_self, Function.update_of_ne hc] using hne
      · simpa only [Function.update_of_ne hpo] using hne
  · intro p e he
    by_cases hpo : p = o
    · subst hpo
      simp only [Function.update_self, List.mem_append, List.mem_singleton] at he
      rcases he with he | rfl
      · exact hs.channelNamed p e he
      · exact hnamed
    · simp only [Function.update_of_ne hpo] at he
      exact hs.channelNamed p e he

/-- An observer may take any number of delivered events into its view. -/
theorem Synced.absorb {s : Election} {o : String} {v : Finset String}
    {taken rest : List (String × SampleKind)} (hs : s.Synced) (hview : s.view o = some v)
    (hchannel : s.channel o = taken ++ rest) :
    ({ s with
        view := Function.update s.view o (some (taken.foldl (applyEvent s.scope) v))
        channel := Function.update s.channel o rest } : Election).Synced := by
  have htaken : ∀ e ∈ taken, Named e.1 := fun e he =>
    hs.channelNamed o e (hchannel ▸ List.mem_append_left rest he)
  refine ⟨?_, ?_, ?_, hs.liveNamed, hs.inflightNamed, ?_⟩
  · intro p hp c
    have hsync := hs.sync p hp c
    by_cases hpo : p = o
    · subst hpo
      simp only [pending, hchannel, hview, Function.update_self, Option.getD_some,
        eventsOf_append, List.append_assoc] at hsync ⊢
      rw [mem_foldl_applyEvent htaken, ← settle_append]
      exact hsync
    · simpa only [pending, Function.update_of_ne hpo] using hsync
  · intro p hsome
    apply hs.observing p
    by_cases hpo : p = o
    · simp [hpo, hview]
    · simpa only [Function.update_of_ne hpo] using hsome
  · intro p hp
    by_cases hpo : p = o
    · simp [hpo]
    · simpa only [Function.update_of_ne hpo] using hs.viewing p hp
  · intro p e he
    by_cases hpo : p = o
    · subst hpo
      simp only [Function.update_self] at he
      exact hs.channelNamed p e (hchannel ▸ List.mem_append_right taken he)
    · simp only [Function.update_of_ne hpo] at he
      exact hs.channelNamed p e he

/-- What `apply` and `drain_pending` do: take some delivered events into the view. -/
theorem apply_inv {s s' : Election} {o : String} (h : s.step (.apply o) = some s') :
    ∃ v event rest, s.view o = some v ∧ s.channel o = [event] ++ rest ∧ s' = { s with
      view := Function.update s.view o (some ([event].foldl (applyEvent s.scope) v))
      channel := Function.update s.channel o rest } := by
  simp only [step] at h
  split at h
  · rename_i v event rest hview hchannel
    exact ⟨v, event, rest, hview, hchannel, (Option.some.inj h).symm⟩
  · contradiction

theorem drainPending_inv {s s' : Election} {o : String} (h : s.step (.drainPending o) = some s') :
    ∃ v, s.view o = some v ∧ s' = { s with
      view := Function.update s.view o (some ((s.channel o).foldl (applyEvent s.scope) v))
      channel := Function.update s.channel o [] } := by
  simp only [step] at h
  split at h
  · rename_i v hview
    exact ⟨v, hview, (Option.some.inj h).symm⟩
  · contradiction

theorem Synced.step {s s' : Election} {a : ElectionAction} (hs : s.Synced)
    (h : s.step a = some s') : s'.Synced := by
  cases a with
  | subscribe claim => exact hs.subscribe h
  | declare claim => exact hs.declare h
  | withdraw claim => exact hs.withdraw h
  | leave o => exact hs.leave h
  | arrive o claim => exact hs.arrive h
  | apply o =>
      obtain ⟨v, event, rest, hview, hchannel, rfl⟩ := apply_inv h
      exact hs.absorb hview hchannel
  | drainPending o =>
      obtain ⟨v, hview, rfl⟩ := drainPending_inv h
      exact hs.absorb hview (List.append_nil _).symm

/-- No claim event is on its way to an exporter or waits in its subscriber. -/
def Quiet (s : Election) : Prop :=
  ∀ o ∈ s.observers, s.channel o = [] ∧ ∀ c, s.inflight o c = []

/-- Agreement once the events have arrived: the live exporters all see the live claims,
and the only one of them that is elected has a smallest timestamp. -/
def Agreed (s : Election) : Prop :=
  s.Quiet →
    (∀ o ∈ s.live, s.view o = some s.live) ∧
    (s.live.Nonempty → ∃! o, o ∈ s.live ∧ s.Elected o) ∧
    ∀ o ∈ s.live, s.Elected o →
      ∃ n : ClaimName, n.segment = o ∧ ∀ m : ClaimName, m.segment ∈ s.live → n.ts ≤ m.ts

theorem Synced.view_eq {s : Election} (hs : s.Synced) (hq : s.Quiet) {o : String}
    (ho : o ∈ s.live) : s.view o = some s.live := by
  have hsome := hs.viewing o ho
  have hobs := hs.observing o hsome
  obtain ⟨v, hview⟩ := Option.isSome_iff_exists.mp hsome
  obtain ⟨hchannel, hinflight⟩ := hq o hobs
  have hmem : ∀ c, c ∈ v ↔ c ∈ s.live := by
    intro c
    have hsync := hs.sync o hobs c
    simpa only [pending, hview, Option.getD_some, hchannel, hinflight c, eventsOf_nil,
      List.append_nil, settle_nil, decide_eq_decide] using hsync
  rw [hview]
  exact congrArg some (Finset.ext hmem)

theorem Synced.elected_iff {s : Election} (hs : s.Synced) (hq : s.Quiet) {o : String}
    (ho : o ∈ s.live) : s.Elected o ↔ ∀ c ∈ s.live, o ≤ c := by
  constructor
  · rintro ⟨v, hview, helect⟩
    rw [hs.view_eq hq ho] at hview
    obtain rfl := Option.some.inj hview
    exact (elect_iff.mp helect).2
  · intro hle
    exact ⟨s.live, hs.view_eq hq ho, elect_iff.mpr ⟨ho, hle⟩⟩

theorem Synced.agreed {s : Election} (hs : s.Synced) : s.Agreed := by
  intro hq
  refine ⟨fun o ho => hs.view_eq hq ho, ?_, ?_⟩
  · intro hne
    have hmin : s.live.min' hne ∈ s.live := s.live.min'_mem hne
    refine ⟨s.live.min' hne, ⟨hmin, (hs.elected_iff hq hmin).mpr fun c hc => s.live.min'_le c hc⟩, ?_⟩
    rintro o ⟨ho, helected⟩
    exact le_antisymm ((hs.elected_iff hq ho).mp helected _ hmin) (s.live.min'_le o ho)
  · intro o ho helected
    obtain ⟨n, rfl⟩ := hs.liveNamed o ho
    refine ⟨n, rfl, fun m hm => ?_⟩
    exact ClaimName.ts_le_of_segment_le ((hs.elected_iff hq ho).mp helected _ hm)

/-- The event ends the role of `o`: a smaller claim appears or its own one disappears. -/
def Demotes (o : String) (event : String × SampleKind) : Prop :=
  (event.2 = .put ∧ event.1 < o) ∨ (event.2 = .delete ∧ event.1 = o)

/-- A step ends the role of an exporter only through an event it has received, or
because the exporter, whose claim is withdrawn, is gone. -/
def StopsOnlyBy (s : Election) (a : ElectionAction) : Prop :=
  ∀ s', s.step a = some s' → ∀ o, s.Elected o → ¬ s'.Elected o →
    (∃ event ∈ s.channel o, Demotes o event) ∨ (a = .leave o ∧ o ∉ s.live)

theorem elect_applyEvent {scope : String} {claims : Finset String} {o : String}
    {event : String × SampleKind} (hn : Named event.1) (hd : ¬ Demotes o event)
    (h : elect claims o = true) : elect (applyEvent scope claims event) o = true := by
  obtain ⟨claim, kind⟩ := event
  simp only [Demotes, not_or, not_and, not_lt] at hd
  rw [elect_iff] at h ⊢
  obtain ⟨hmem, hle⟩ := h
  cases kind with
  | put =>
      have hle' : o ≤ claim := hd.1 rfl
      simp only [applyEvent, applyClaim, hn.lastSegment_claimKey]
      refine ⟨Finset.mem_insert_of_mem hmem, fun c hc => ?_⟩
      rcases Finset.mem_insert.mp hc with rfl | hc
      · exact hle'
      · exact hle c hc
  | delete =>
      have hne : o ≠ claim := Ne.symm (hd.2 rfl)
      simp only [applyEvent, applyClaim, hn.lastSegment_claimKey]
      exact ⟨Finset.mem_erase.mpr ⟨hne, hmem⟩, fun c hc => hle c (Finset.mem_of_mem_erase hc)⟩

theorem elect_foldl_applyEvent {scope : String} {claims : Finset String} {o : String}
    {events : List (String × SampleKind)} (hn : ∀ e ∈ events, Named e.1)
    (hd : ∀ e ∈ events, ¬ Demotes o e) (h : elect claims o = true) :
    elect (events.foldl (applyEvent scope) claims) o = true := by
  induction events generalizing claims with
  | nil => exact h
  | cons event rest ih =>
      apply ih (fun e he => hn e (List.mem_cons_of_mem _ he))
        (fun e he => hd e (List.mem_cons_of_mem _ he))
      exact elect_applyEvent (hn event (List.mem_cons_self ..)) (hd event (List.mem_cons_self ..)) h

/-- A view that took delivered events in keeps the role of its exporter, unless one of
the events demotes it. -/
theorem Synced.demoted_of_absorb {s : Election} {p o : String} {v : Finset String}
    {taken rest : List (String × SampleKind)} (hs : s.Synced) (hview : s.view p = some v)
    (hchannel : s.channel p = taken ++ rest) (helected : s.Elected o)
    (hlost : ¬ Elected { s with
      view := Function.update s.view p (some (taken.foldl (applyEvent s.scope) v))
      channel := Function.update s.channel p rest } o) :
    ∃ event ∈ s.channel o, Demotes o event := by
  by_cases hop : o = p
  · subst hop
    by_contra hnone
    have hmem : ∀ e ∈ taken, e ∈ s.channel o := fun e he =>
      hchannel ▸ List.mem_append_left rest he
    obtain ⟨w, hw, helect⟩ := helected
    rw [hview] at hw
    obtain rfl := Option.some.inj hw
    apply hlost
    refine ⟨_, Function.update_self .., ?_⟩
    exact elect_foldl_applyEvent (fun e he => hs.channelNamed o e (hmem e he))
      (fun e he hd => hnone ⟨e, hmem e he, hd⟩) helect
  · refine absurd ?_ hlost
    simpa only [Elected, Function.update_of_ne hop] using helected

/-- A step that leaves the view of an exporter alone leaves its role alone. -/
theorem elected_of_view_eq {s s' : Election} {o : String} (h : s'.view o = s.view o)
    (helected : s.Elected o) : s'.Elected o := by
  obtain ⟨v, hview, helect⟩ := helected
  exact ⟨v, h.trans hview, helect⟩

theorem Synced.stopsOnlyBy {s : Election} (hs : s.Synced) (a : ElectionAction) :
    s.StopsOnlyBy a := by
  intro s' h o helected hlost
  have hsome : (s.view o).isSome := by
    obtain ⟨v, hview, -⟩ := helected
    rw [hview]
    rfl
  cases a with
  | subscribe claim =>
      simp only [Election.step, Option.ite_none_left_eq_some] at h
      obtain ⟨hfresh, h⟩ := h
      obtain rfl := Option.some.inj h
      have hne : o ≠ claim.segment := by
        rintro rfl
        exact hfresh (hs.observing _ hsome)
      refine absurd (elected_of_view_eq ?_ helected) hlost
      simp only [Function.update_of_ne hne]
  | declare claim =>
      simp only [Election.step, Option.ite_none_right_eq_some] at h
      obtain ⟨⟨-, -, hview⟩, h⟩ := h
      obtain rfl := Option.some.inj h
      have hne : o ≠ claim.segment := by
        rintro rfl
        rw [hview] at hsome
        contradiction
      refine absurd (elected_of_view_eq ?_ helected) hlost
      simp only [Function.update_of_ne hne]
  | withdraw claim =>
      simp only [Election.step, Option.ite_none_right_eq_some] at h
      obtain rfl := Option.some.inj h.2
      exact absurd (elected_of_view_eq rfl helected) hlost
  | leave p =>
      simp only [Election.step, Option.ite_none_right_eq_some] at h
      obtain ⟨⟨-, hgone⟩, h⟩ := h
      obtain rfl := Option.some.inj h
      by_cases hop : o = p
      · subst hop
        exact .inr ⟨rfl, hgone⟩
      · exact absurd (elected_of_view_eq (Function.update_of_ne hop ..) helected) hlost
  | arrive p claim =>
      simp only [Election.step] at h
      split at h
      · contradiction
      rw [Option.ite_none_right_eq_some] at h
      obtain rfl := Option.some.inj h.2
      exact absurd (elected_of_view_eq rfl helected) hlost
  | apply p =>
      obtain ⟨v, event, rest, hview, hchannel, rfl⟩ := apply_inv h
      exact .inl (hs.demoted_of_absorb hview hchannel helected hlost)
  | drainPending p =>
      obtain ⟨v, hview, rfl⟩ := drainPending_inv h
      exact .inl (hs.demoted_of_absorb hview (List.append_nil _).symm helected hlost)

/-- Exporter election agreement: in every run of claims that appear and disappear the
exporters agree whenever no event is in flight, and an elected exporter keeps its role
until a smaller claim arrives or its own claim is removed. -/
theorem election_agreement (scope : String) (schedule : List ElectionAction) :
    Always step Agreed (init scope) schedule ∧ Along step StopsOnlyBy (init scope) schedule := by
  have hinit := synced_init scope
  constructor
  · exact (always_of_step (fun _ _ _ => Synced.step) hinit schedule).mono fun _ => Synced.agreed
  · exact along_of_step (fun _ _ _ => Synced.step) (fun _ a _ hs _ => hs.stopsOnlyBy a) hinit schedule

end Election

end ZenohBridge
