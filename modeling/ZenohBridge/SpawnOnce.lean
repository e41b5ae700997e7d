import ZenohBridge.RegistrySafety

/-!
# Re-delivered client tokens

Within one serving phase a client's token can be seen more than once: the startup
query overlaps the live subscriber, and a router may refresh it. The loop drops a
repetition because the client is in the map. A task that finishes removes its own
entry, so a repetition that is processed after that dials the backend again.
-/

namespace ZenohBridge

open Execution

namespace Registry

variable {Id : Type} [DecidableEq Id] {s s' start : Registry Id} {a : RegistryAction Id}
variable {id : Id}

/-- The clients of all spawned tasks, in the order of their spawns. -/
def clients (s : Registry Id) : List Id := s.tasks.map ClientTask.client

/-- How many tasks were spawned for `id` after the first `n` tasks. -/
def spawnedSince (n : Nat) (id : Id) (s : Registry Id) : Nat := (s.clients.drop n).count id

/-- A token of `id` is processed only while no task spawned for `id` in this phase
has executed `remove_self`. -/
def BeforeRemoval (n : Nat) (id : Id) (s : Registry Id) (a : RegistryAction Id) : Prop :=
  a = .queryReply id ∨ a = .put id →
    ∀ t ∈ s.tasks.drop n, t.client = id → t.phase ≠ .returned

instance (n : Nat) (id : Id) (s : Registry Id) (a : RegistryAction Id) :
    Decidable (BeforeRemoval n id s a) :=
  inferInstanceAs (Decidable (_ ∨ _ → ∀ t ∈ s.tasks.drop n, _ → _))

/-- What holds during a serving phase in which no Delete of `id` is processed: `n`
tasks are older than the phase and none of them is outstanding. -/
structure PhaseInv (n : Nat) (id : Id) (s : Registry Id) : Prop where
  safe : Safe s
  started : n ≤ s.tasks.length
  notStandby : s.phase = .startup ∨ s.phase = .live →
    (∀ (k : Nat) (t : ClientTask Id), k < n → s.tasks[k]? = some t → ¬ t.Outstanding) ∧
    ∀ t ∈ s.tasks.drop n, t.client = id → t.cancelSent = false
  once : spawnedSince n id s ≤ 1

omit [DecidableEq Id] in
theorem mem_drop_iff {n : Nat} {t : ClientTask Id} :
    t ∈ s.tasks.drop n ↔ ∃ k, n ≤ k ∧ s.tasks[k]? = some t := by
  rw [List.mem_iff_getElem?]
  constructor
  · rintro ⟨k, hk⟩
    rw [List.getElem?_drop] at hk
    exact ⟨n + k, by omega, hk⟩
  · rintro ⟨k, hle, hk⟩
    exact ⟨k - n, by rw [List.getElem?_drop, Nat.add_sub_cancel' hle]; exact hk⟩

/-- The start of a serving phase: everything spawned so far is cancelled or gone. -/
theorem phaseInv_serve (h : Safe start) (hs : start.step .serve = some s) :
    PhaseInv s.tasks.length id s := by
  cases step_branch hs with
  | serve standby =>
  have hempty := h.standby standby
  refine ⟨⟨h.current, h.channels, fun hp => by cases hp⟩, Nat.le_refl _, fun _ => ⟨?_, ?_⟩, ?_⟩
  · intro k t _ ht hout
    have := (h.current t.client k).mpr ⟨t, ht, rfl, hout⟩
    rw [hempty, AList.lookup_empty] at this
    cases this
  · simp
  · rw [spawnedSince, clients, List.drop_eq_nil_of_le (by rw [List.length_map])]
    exact Nat.zero_le _

/-- A token of `id` is skipped exactly when some task of this phase is outstanding. -/
theorem PhaseInv.lookup_iff {n : Nat} (h : PhaseInv n id s)
    (hp : s.phase = .startup ∨ s.phase = .live) :
    (s.map.lookup id).isSome ↔ ∃ t ∈ s.tasks.drop n, t.client = id ∧ t.phase ≠ .returned := by
  obtain ⟨hold, hnew⟩ := h.notStandby hp
  constructor
  · intro hsome
    obtain ⟨k, hk⟩ := Option.isSome_iff_exists.mp hsome
    obtain ⟨t, ht, hclient, hout⟩ := (h.safe.current id k).mp hk
    by_cases hkn : k < n
    · exact absurd hout (hold k t hkn ht)
    · exact ⟨t, mem_drop_iff.mpr ⟨k, by omega, ht⟩, hclient, hout.2⟩
  · rintro ⟨t, hmem, hclient, hphase⟩
    obtain ⟨k, -, hk⟩ := mem_drop_iff.mp hmem
    rw [(h.safe.current id k).mpr ⟨t, hk, hclient, hnew t hmem hclient, hphase⟩]
    rfl

omit [DecidableEq Id] in
/-- Two tasks of one client both count. -/
theorem eq_of_countP_le_one {p : ClientTask Id → Bool} {l : List (ClientTask Id)}
    (h : l.countP p ≤ 1) {t u : ClientTask Id} (ht : t ∈ l) (hu : u ∈ l) (hpt : p t = true)
    (hpu : p u = true) : t = u := by
  rw [List.countP_eq_length_filter] at h
  have ht' := List.mem_filter.mpr ⟨ht, hpt⟩
  have hu' := List.mem_filter.mpr ⟨hu, hpu⟩
  rcases Nat.le_one_iff_eq_zero_or_eq_one.mp h with hzero | hone
  · rw [List.eq_nil_of_length_eq_zero hzero] at ht'
    cases ht'
  · obtain ⟨x, hx⟩ := List.length_eq_one_iff.mp hone
    rw [hx] at ht' hu'
    rw [List.mem_singleton.mp ht', List.mem_singleton.mp hu']

theorem spawnedSince_pos {n : Nat} {t : ClientTask Id} (ht : t ∈ s.tasks.drop n)
    (hclient : t.client = id) : 0 < spawnedSince n id s := by
  rw [spawnedSince, clients, ← List.map_drop, List.count_pos_iff]
  exact List.mem_map.mpr ⟨t, ht, hclient⟩

theorem exists_of_spawnedSince_pos {n : Nat} (h : 0 < spawnedSince n id s) :
    ∃ t ∈ s.tasks.drop n, t.client = id := by
  rw [spawnedSince, clients, ← List.map_drop, List.count_pos_iff] at h
  obtain ⟨t, ht, hclient⟩ := List.mem_map.mp h
  exact ⟨t, ht, hclient⟩

/-- Only a dispatch that finds no entry adds a task. -/
theorem clients_dispatch (id' : Id) :
    (s.dispatchClientConnect id').clients =
      s.clients ++ if (s.map.lookup id').isSome then [] else [id'] := by
  unfold dispatchClientConnect
  split
  · rw [List.append_nil]
  · exact List.map_append

omit [DecidableEq Id] in
/-- Replacing a task by one of the same client keeps the list of clients. -/
theorem map_client_set {tasks : List (ClientTask Id)} {k : Nat} {t t' : ClientTask Id}
    (ht : tasks[k]? = some t) (hclient : t'.client = t.client) :
    (tasks.set k t').map ClientTask.client = tasks.map ClientTask.client := by
  apply List.ext_getElem?
  intro j
  by_cases hjk : j = k
  · subst hjk
    rw [List.getElem?_map, List.getElem?_map, ht,
      List.getElem?_set_self (List.getElem?_eq_some_iff.mp ht).1, Option.map_some, hclient,
      Option.map_some]
  · simp [List.getElem?_set_ne (Ne.symm hjk)]

omit [DecidableEq Id] in
theorem map_client_cancel (tasks : List (ClientTask Id)) (k : Nat) :
    (tasks.modify k .sendCancel).map ClientTask.client = tasks.map ClientTask.client := by
  apply List.ext_getElem?
  intro j
  rw [List.getElem?_map, List.getElem?_map, List.getElem?_modify]
  cases tasks[j]? with
  | none => rfl
  | some t =>
      by_cases hjk : k = j
      · simp [hjk]
      · simp [hjk]

omit [DecidableEq Id] in
theorem map_client_cancelAll (ks : List Nat) (tasks : List (ClientTask Id)) :
    (ks.foldl (fun tasks k => tasks.modify k .sendCancel) tasks).map ClientTask.client =
      tasks.map ClientTask.client := by
  induction ks generalizing tasks with
  | nil => rfl
  | cons k rest ih => exact (ih _).trans (map_client_cancel tasks k)

/-- Every step other than a dispatch keeps the list of clients. -/
theorem clients_step (hs : s.step a = some s') (hreply : ∀ id, a ≠ .queryReply id)
    (hput : ∀ id, a ≠ .put id) : s'.clients = s.clients := by
  cases step_branch hs with
  | queryReply id => exact absurd rfl (hreply id)
  | put id => exact absurd rfl (hput id)
  | serve | queryDone => rfl
  | delete id live =>
      unfold handleClientDisconnect
      split
      · rfl
      · exact map_client_cancel _ _
  | demoted | shutdown => exact map_client_cancelAll _ _
  | task k event t t' found moved => exact map_client_set found (ClientTask.step_frame moved).1
  | removeSelf k t found finishing => exact map_client_set found rfl

/-- A task after a step that neither dispatches nor drains comes from the same task
before it, which is outstanding if the new one is, and is cancelled only by a
Delete of its own client. -/
theorem Safe.task_before (h : Safe s) (hs : s.step a = some s')
    (hreply : ∀ id, a ≠ .queryReply id) (hput : ∀ id, a ≠ .put id) (hdemoted : a ≠ .demoted)
    (hshutdown : a ≠ .shutdown) {k : Nat} {t' : ClientTask Id} (ht' : s'.tasks[k]? = some t') :
    ∃ t, s.tasks[k]? = some t ∧ t'.client = t.client ∧ (t'.Outstanding → t.Outstanding) ∧
      (t'.cancelSent = t.cancelSent ∨ a = .delete t.client) := by
  cases step_branch hs with
  | queryReply id => exact absurd rfl (hreply id)
  | put id => exact absurd rfl (hput id)
  | demoted => exact absurd rfl hdemoted
  | shutdown => exact absurd rfl hshutdown
  | serve | queryDone => exact ⟨t', ht', rfl, fun ho => ho, Or.inl rfl⟩
  | delete id live =>
      unfold handleClientDisconnect at ht'
      split at ht'
      · exact ⟨t', ht', rfl, fun ho => ho, Or.inl rfl⟩
      · rename_i j hj
        change (s.tasks.modify j ClientTask.sendCancel)[k]? = some t' at ht'
        rw [List.getElem?_modify, Option.map_eq_map, Option.map_eq_some_iff] at ht'
        obtain ⟨t, ht, htt⟩ := ht'
        split at htt
        · rename_i hjk
          subst hjk htt
          obtain ⟨u, hu, hclient, -⟩ := (h.current id j).mp hj
          rw [ht, Option.some.injEq] at hu
          refine ⟨t, ht, rfl, fun ho => Bool.noConfusion ho.1, Or.inr ?_⟩
          rw [hu, hclient]
        · subst htt
          exact ⟨t, ht, rfl, fun ho => ho, Or.inl rfl⟩
  | task j event u u' found moved =>
      obtain ⟨hclient, hsent, hold, hnew⟩ := ClientTask.step_frame moved
      change (s.tasks.set j u')[k]? = some t' at ht'
      by_cases hjk : j = k
      · subst hjk
        rw [List.getElem?_set_self (List.getElem?_eq_some_iff.mp found).1, Option.some.injEq] at ht'
        subst ht'
        exact ⟨u, found, hclient, fun ho => ⟨hsent ▸ ho.1, hold⟩, Or.inl hsent⟩
      · rw [List.getElem?_set_ne hjk] at ht'
        exact ⟨t', ht', rfl, fun ho => ho, Or.inl rfl⟩
  | removeSelf j u found finishing =>
      change (s.tasks.set j _)[k]? = some t' at ht'
      by_cases hjk : j = k
      · subst hjk
        rw [List.getElem?_set_self (List.getElem?_eq_some_iff.mp found).1, Option.some.injEq] at ht'
        subst ht'
        exact ⟨u, found, rfl, fun ho => absurd rfl ho.2, Or.inl rfl⟩
      · rw [List.getElem?_set_ne hjk] at ht'
        exact ⟨t', ht', rfl, fun ho => ho, Or.inl rfl⟩

omit [DecidableEq Id] in
theorem clients_length (s : Registry Id) : s.clients.length = s.tasks.length :=
  List.length_map ..

/-- One dispatched token, of any client, within a serving phase. -/
theorem PhaseInv.dispatch {n : Nat} (h : PhaseInv n id s)
    (hp : s.phase = .startup ∨ s.phase = .live) (id' : Id) (hsafe : Safe (s.dispatchClientConnect id'))
    (hok : id' = id → ∀ t ∈ s.tasks.drop n, t.client = id → t.phase ≠ .returned) :
    PhaseInv n id (s.dispatchClientConnect id') := by
  obtain ⟨hold, hnew⟩ := h.notStandby hp
  have hlen : s.tasks.length ≤ (s.dispatchClientConnect id').tasks.length := by
    rw [← clients_length, ← clients_length, clients_dispatch, List.length_append]
    omega
  have hsplit : ∀ (k : Nat) (t : ClientTask Id), (s.dispatchClientConnect id').tasks[k]? = some t →
      s.tasks[k]? = some t ∨ s.tasks.length ≤ k ∧ t = .spawn id' := by
    intro k t ht
    unfold dispatchClientConnect at ht
    split at ht
    · exact Or.inl ht
    · change (s.tasks ++ [_])[k]? = some t at ht
      rw [List.getElem?_append] at ht
      split at ht
      · exact Or.inl ht
      · rw [List.getElem?_singleton] at ht
        split at ht
        · exact Or.inr ⟨by omega, (Option.some.inj ht).symm⟩
        · cases ht
  refine ⟨hsafe, Nat.le_trans h.started hlen, fun _ => ⟨?_, ?_⟩, ?_⟩
  · intro k t hk ht
    rcases hsplit k t ht with ht | ⟨hle, -⟩
    · exact hold k t hk ht
    · have := h.started
      omega
  · intro t hmem hclient
    obtain ⟨k, hnk, hk⟩ := mem_drop_iff.mp hmem
    rcases hsplit k t hk with ht | ⟨-, rfl⟩
    · exact hnew t (mem_drop_iff.mpr ⟨k, hnk, ht⟩) hclient
    · rfl
  · rw [spawnedSince, clients_dispatch,
      List.drop_append_of_le_length (by rw [clients_length]; exact h.started), List.count_append]
    change spawnedSince n id s + _ ≤ 1
    split
    · simpa using h.once
    · rename_i hnone
      by_cases hid : id' = id
      · -- The client has no entry, so no task of this phase was spawned for it.
        subst hid
        have hzero : spawnedSince n id' s = 0 := by
          by_contra hne
          obtain ⟨t, hmem, hclient⟩ := exists_of_spawnedSince_pos (Nat.pos_of_ne_zero hne)
          exact hnone ((h.lookup_iff hp).mpr ⟨t, hmem, hclient, hok rfl t hmem hclient⟩)
        simp [hzero]
      · simpa [List.count_singleton, hid] using h.once

/-- Only an election starts a serving phase. -/
theorem serving_before (hs : s.step a = some s') (hserve : a ≠ .serve)
    (hp : s'.phase = .startup ∨ s'.phase = .live) : s.phase = .startup ∨ s.phase = .live := by
  cases step_branch hs with
  | serve => exact absurd rfl hserve
  | queryReply id startup => exact Or.inl startup
  | queryDone startup => exact Or.inl startup
  | put id live | delete id live => exact Or.inr live
  | demoted live | shutdown live => exact Or.inr live
  | task | removeSelf => exact hp

theorem PhaseInv.step {n : Nat} (h : PhaseInv n id s) (hserve : a ≠ .serve)
    (hdelete : a ≠ .delete id) (hok : BeforeRemoval n id s a) (hs : s.step a = some s') :
    PhaseInv n id s' := by
  have hsafe := h.safe.step hs
  by_cases hreply : ∃ id', a = .queryReply id'
  · obtain ⟨id', rfl⟩ := hreply
    cases step_branch hs with
    | queryReply id' startup =>
        exact h.dispatch (Or.inl startup) id' hsafe (fun hid => hok (Or.inl (hid ▸ rfl)))
  by_cases hput : ∃ id', a = .put id'
  · obtain ⟨id', rfl⟩ := hput
    cases step_branch hs with
    | put id' live =>
        exact h.dispatch (Or.inr live) id' hsafe (fun hid => hok (Or.inr (hid ▸ rfl)))
  have hclients := clients_step hs (fun id' hid => hreply ⟨id', hid⟩) (fun id' hid => hput ⟨id', hid⟩)
  have hlen : n ≤ s'.tasks.length := by
    rw [← clients_length, hclients, clients_length]
    exact h.started
  have honce : spawnedSince n id s' ≤ 1 := by
    rw [spawnedSince, hclients]
    exact h.once
  by_cases hdrain : a = .demoted ∨ a = .shutdown
  · refine ⟨hsafe, hlen, fun hp => ?_, honce⟩
    rcases hdrain with rfl | rfl <;>
    · cases step_branch hs
      rcases hp with hp | hp <;> cases hp
  · refine ⟨hsafe, hlen, fun hp => ?_, honce⟩
    obtain ⟨hold, hnew⟩ := h.notStandby (serving_before hs hserve hp)
    have hbefore : ∀ (k : Nat) (t' : ClientTask Id), s'.tasks[k]? = some t' →
        ∃ t, s.tasks[k]? = some t ∧ t'.client = t.client ∧ (t'.Outstanding → t.Outstanding) ∧
          (t'.cancelSent = t.cancelSent ∨ a = .delete t.client) :=
      fun k t' => h.safe.task_before hs (fun id' hid => hreply ⟨id', hid⟩)
        (fun id' hid => hput ⟨id', hid⟩) (fun hd => hdrain (Or.inl hd))
        (fun hd => hdrain (Or.inr hd))
    constructor
    · intro k t' hk ht' hout
      obtain ⟨t, ht, -, ho, -⟩ := hbefore k t' ht'
      exact hold k t hk ht (ho hout)
    · intro t' hmem hclient'
      obtain ⟨k, hnk, hk⟩ := mem_drop_iff.mp hmem
      obtain ⟨t, ht, hclient, -, hsent | hdel⟩ := hbefore k t' hk
      · rw [hsent]
        exact hnew t (mem_drop_iff.mpr ⟨k, hnk, ht⟩) (hclient.symm.trans hclient')
      · rw [← hclient, hclient'] at hdel
        exact absurd hdel hdelete

/-- A token that is processed after the client's task removed itself spawns again. -/
theorem PhaseInv.spawns_twice {n : Nat} (h : PhaseInv n id s)
    (hbad : ¬ BeforeRemoval n id s a) (hs : s.step a = some s') : ¬ spawnedSince n id s' ≤ 1 := by
  simp only [BeforeRemoval, not_forall, not_not] at hbad
  obtain ⟨hlabel, t, hmem, hclient, hreturned⟩ := hbad
  have hserving : (s.phase = .startup ∨ s.phase = .live) ∧ s' = s.dispatchClientConnect id := by
    rcases hlabel with rfl | rfl
    · cases step_branch hs with
      | queryReply id startup => exact ⟨Or.inl startup, rfl⟩
    · cases step_branch hs with
      | put id live => exact ⟨Or.inr live, rfl⟩
  obtain ⟨hp, rfl⟩ := hserving
  have hnone : ¬ (s.map.lookup id).isSome := by
    intro hsome
    obtain ⟨u, hmem', hclient', hphase⟩ := (h.lookup_iff hp).mp hsome
    -- Two different tasks of this phase would serve the same client.
    have hone := h.once
    rw [spawnedSince, clients, ← List.map_drop, List.count_eq_countP, List.countP_map] at hone
    have heq : t = u := eq_of_countP_le_one hone hmem hmem' (by simp [hclient]) (by simp [hclient'])
    exact hphase (heq ▸ hreturned)
  rw [spawnedSince, clients_dispatch,
    List.drop_append_of_le_length (by rw [clients_length]; exact h.started), List.count_append,
    if_neg hnone, List.count_singleton_self]
  have hpos := spawnedSince_pos hmem hclient
  change ¬ spawnedSince n id s + 1 ≤ 1
  omega

/-- In one serving phase, from its election on, in which no Delete of `id` is
processed, at most one task is spawned for `id` in every state exactly when no
token of `id` is processed after a task of `id` has removed itself. -/
theorem spawned_once_iff_beforeRemoval (hstart : Reachable step init start)
    (hserve : start.step .serve = some s) (schedule : List (RegistryAction Id))
    (hphase : ∀ a ∈ schedule, a ≠ .serve ∧ a ≠ .delete id) :
    Always step (fun t => spawnedSince s.tasks.length id t ≤ 1) s schedule ↔
      Along step (BeforeRemoval s.tasks.length id) s schedule := by
  have hsafe : Safe start := hstart.invariant (fun s a s' h hs => h.step hs) safe_init
  exact always_iff_along (fun _ a => a ≠ .serve ∧ a ≠ .delete id)
    (fun _ (h : PhaseInv s.tasks.length id _) => h.once)
    (fun _ _ _ h hadm hok hs => h.step hadm.1 hadm.2 hok hs)
    (fun _ _ _ h _ hbad hs => h.spawns_twice hbad hs)
    (phaseInv_serve hsafe hserve) (along_of_labels hphase s)

/-- The first phase of an exporter that sees client `7` in the startup query and
once more, while its task is relaying, in the live stream. -/
theorem spawned_once_while_relaying :
    Always step (fun t => spawnedSince 0 7 t ≤ 1) (⟨.startup, ∅, []⟩ : Registry Nat)
      [.queryReply 7, .task 0 (.dialed true), .task 0 (.setupDone true), .queryDone, .put 7] := by
  refine (spawned_once_iff_beforeRemoval ⟨[], rfl⟩ rfl _ ?_).mpr ?_
  · decide
  · decide

/-- The connection of client `7`, found by the startup query, ends before the loop
reaches the Put that the subscriber queued for the same token: a second dial. -/
theorem redelivered_put_spawns_again :
    ¬ Always step (fun t => spawnedSince 0 7 t ≤ 1) (⟨.startup, ∅, []⟩ : Registry Nat)
      [.queryReply 7, .task 0 (.dialed true), .task 0 (.setupDone true), .task 0 .relayDone,
        .removeSelf 0, .queryDone, .put 7] := by
  intro h
  have hlast := h.last rfl
  revert hlast
  decide

end Registry

end ZenohBridge
