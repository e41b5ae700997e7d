import ZenohBridge.Registry

/-!
# Safety of the client registry

One invariant ties the map to the spawned tasks: a number is stored under a client
exactly when it is that of an outstanding task of the client. From it follow that a
client never has two outstanding tasks and that `remove_self` only ever removes the
entry of its own task. The cancel of a task is tracked separately, through the
channel of the task.
-/

namespace ZenohBridge

open Execution

namespace Registry

variable {Id : Type} [DecidableEq Id] {s s' : Registry Id} {a : RegistryAction Id}

/-- The state part of the registry invariant. -/
structure Safe (s : Registry Id) : Prop where
  current : s.Current
  channels : ∀ (k : Nat) (t : ClientTask Id), s.tasks[k]? = some t → t.CancelKept
  standby : s.phase = .standby → s.map = ∅

theorem safe_init : Safe (init : Registry Id) where
  current := by
    intro id k
    simp [init]
  channels := by
    intro k t h
    simp [init] at h
  standby := fun _ => rfl

theorem Current.atMostOne (h : s.Current) : s.AtMostOne := by
  intro j k t u hj hk hclient ht hu
  have hjmap := (h t.client j).mpr ⟨t, hj, rfl, ht⟩
  have hkmap := (h t.client k).mpr ⟨u, hk, hclient.symm, hu⟩
  rw [hjmap] at hkmap
  exact Option.some.inj hkmap

theorem Safe.dispatch (h : Safe s) (hphase : s.phase ≠ .standby) (id : Id) :
    Safe (s.dispatchClientConnect id) := by
  unfold dispatchClientConnect
  split
  · exact h
  · rename_i hnone
    rw [Option.not_isSome_iff_eq_none] at hnone
    refine ⟨?_, ?_, fun hp => absurd hp hphase⟩
    · intro id' k
      by_cases hid : id' = id
      · subst hid
        rw [AList.lookup_insert]
        constructor
        · intro hk
          rw [← Option.some.inj hk]
          exact ⟨.spawn id', by simp, rfl, rfl, by simp [ClientTask.spawn]⟩
        · rintro ⟨t, ht, hclient, hout⟩
          rw [List.getElem?_append] at ht
          split at ht
          · have := (h.current id' k).mpr ⟨t, ht, hclient, hout⟩
            rw [hnone] at this
            cases this
          · rw [List.getElem?_singleton] at ht
            split at ht
            · congr 1
              omega
            · cases ht
      · rw [AList.lookup_insert_ne hid, h.current id' k]
        constructor
        · rintro ⟨t, ht, hrest⟩
          have hk := (List.getElem?_eq_some_iff.mp ht).1
          exact ⟨t, by rw [List.getElem?_append_left hk]; exact ht, hrest⟩
        · rintro ⟨t, ht, hclient, hout⟩
          rw [List.getElem?_append] at ht
          split at ht
          · exact ⟨t, ht, hclient, hout⟩
          · rw [List.getElem?_singleton] at ht
            split at ht
            · cases ht
              exact absurd hclient.symm hid
            · cases ht
    · intro k t ht
      rw [List.getElem?_append] at ht
      split at ht
      · exact h.channels k t ht
      · rw [List.getElem?_singleton] at ht
        split at ht
        · cases ht
          exact ClientTask.spawn_cancelKept id
        · cases ht

/-- Retiring the task `k` together with every entry that points to it. -/
theorem Current.retire (h : s.Current) {k : Nat} {u : ClientTask Id}
    {map : AList fun _ : Id => Nat} {tasks : List (ClientTask Id)}
    (hout : ¬ u.Outstanding)
    (htasks : ∀ j, tasks[j]? = if j = k ∧ k < s.tasks.length then some u else s.tasks[j]?)
    (hmap : ∀ id j, map.lookup id = some j ↔ s.map.lookup id = some j ∧ j ≠ k)
    (phase : LoopPhase) : Current ⟨phase, map, tasks⟩ := by
  intro id j
  rw [hmap, h id j]
  constructor
  · rintro ⟨⟨t, ht, hrest⟩, hjk⟩
    exact ⟨t, by rw [htasks, if_neg fun hc => hjk hc.1]; exact ht, hrest⟩
  · rintro ⟨t, ht, hclient, ho⟩
    change tasks[j]? = some t at ht
    rw [htasks] at ht
    split at ht
    · cases ht
      exact absurd ho hout
    · rename_i hne
      refine ⟨⟨t, ht, hclient, ho⟩, ?_⟩
      rintro rfl
      exact hne ⟨rfl, (List.getElem?_eq_some_iff.mp ht).1⟩

/-- The map without the entry of a client whose stored number is `k`. -/
theorem Current.lookup_erase (h : s.Current) {id : Id} {k : Nat}
    (hk : s.map.lookup id = some k) (id' : Id) (j : Nat) :
    (s.map.erase id).lookup id' = some j ↔ s.map.lookup id' = some j ∧ j ≠ k := by
  obtain ⟨t, ht, hclient, -⟩ := (h id k).mp hk
  by_cases hid : id' = id
  · subst hid
    rw [AList.lookup_erase]
    constructor
    · intro hf
      cases hf
    · rintro ⟨hj, hjk⟩
      rw [hk] at hj
      exact absurd (Option.some.inj hj).symm hjk
  · rw [AList.lookup_erase_ne hid]
    refine ⟨fun hj => ⟨hj, ?_⟩, And.left⟩
    rintro rfl
    obtain ⟨u, hu, hclient', -⟩ := (h id' j).mp hj
    rw [ht, Option.some.injEq] at hu
    rw [← hclient, hu] at hid
    exact hid hclient'.symm

theorem Safe.disconnect (h : Safe s) (hphase : s.phase ≠ .standby) (id : Id) :
    Safe (s.handleClientDisconnect id) := by
  unfold handleClientDisconnect
  split
  · exact h
  · rename_i k hk
    obtain ⟨t, ht, -, -⟩ := (h.current id k).mp hk
    refine ⟨?_, ?_, fun hp => absurd hp hphase⟩
    · refine h.current.retire (k := k) (u := t.sendCancel) (fun ho => Bool.noConfusion ho.1) ?_
        (h.current.lookup_erase hk) s.phase
      intro j
      rw [List.getElem?_modify]
      by_cases hjk : j = k
      · subst hjk
        rw [if_pos ⟨rfl, (List.getElem?_eq_some_iff.mp ht).1⟩, ht]
        simp
      · rw [if_neg fun hc => hjk hc.1]
        simp [Ne.symm hjk]
    · intro j u hu
      change (s.tasks.modify k ClientTask.sendCancel)[j]? = some u at hu
      rw [List.getElem?_modify, Option.map_eq_map, Option.map_eq_some_iff] at hu
      obtain ⟨v, hv, hvu⟩ := hu
      split at hvu
      · rw [← hvu]
        exact (h.channels j v hv).sendCancel
      · exact hvu ▸ h.channels j v hv

omit [DecidableEq Id] in
/-- Cancelling a list of tasks sends each of them its cancel and keeps the others. -/
theorem getElem?_cancelAll {ks : List Nat} {tasks : List (ClientTask Id)} {k : Nat}
    {t' : ClientTask Id}
    (h : (ks.foldl (fun tasks k => tasks.modify k .sendCancel) tasks)[k]? = some t') :
    ∃ t, tasks[k]? = some t ∧ t'.client = t.client ∧ t'.phase = t.phase ∧
      (t.cancelSent = true → t'.cancelSent = true) ∧ (k ∈ ks → t'.cancelSent = true) ∧
      (t.CancelKept → t'.CancelKept) ∧
      (t.cancel.queue ≠ [] → t'.cancel.queue ≠ []) := by
  induction ks generalizing tasks with
  | nil => exact ⟨t', h, rfl, rfl, id, by simp, id, id⟩
  | cons j rest ih =>
      obtain ⟨u, hu, hclient, hphase, hsent, hmem, hkept, hpend⟩ := ih h
      rw [List.getElem?_modify, Option.map_eq_map, Option.map_eq_some_iff] at hu
      obtain ⟨t, ht, htu⟩ := hu
      split at htu
      · subst htu
        refine ⟨t, ht, hclient, hphase, fun _ => hsent rfl, fun _ => hsent rfl, ?_, ?_⟩
        · exact fun hk => hkept hk.sendCancel
        · exact fun hq => hpend (ClientTask.sendCancel_pending hq)
      · rename_i hjk
        subst htu
        refine ⟨t, ht, hclient, hphase, hsent, ?_, hkept, hpend⟩
        intro hk
        rcases List.mem_cons.mp hk with rfl | hk
        · exact absurd rfl hjk
        · exact hmem hk

theorem mem_entries {id : Id} {k : Nat} (h : s.map.lookup id = some k) : k ∈ s.entries := by
  rw [← Option.mem_def, AList.mem_lookup_iff] at h
  exact List.mem_map.mpr ⟨⟨id, k⟩, h, rfl⟩

theorem Safe.drain (h : Safe s) (phase : LoopPhase) :
    Safe { s.drainAllClients with phase := phase } := by
  refine ⟨?_, ?_, fun _ => rfl⟩
  · intro id k
    constructor
    · intro hk
      cases hk
    · rintro ⟨t', ht', hclient, hsent, hphase⟩
      obtain ⟨t, ht, hc, hp, hmono, hmem, -⟩ := getElem?_cancelAll ht'
      have hout : t.Outstanding := by
        refine ⟨?_, hp ▸ hphase⟩
        by_contra hs
        rw [hmono (eq_true_of_ne_false hs)] at hsent
        cases hsent
      have hstored := (h.current t.client k).mpr ⟨t, ht, rfl, hout⟩
      rw [hmem (mem_entries hstored)] at hsent
      cases hsent
  · intro k t' ht'
    obtain ⟨t, ht, -, -, -, -, hkept, -⟩ := getElem?_cancelAll ht'
    exact hkept (h.channels k t ht)

/-- The guard of `remove_self` removes an entry only if it is that of the task. -/
theorem Current.lookup_removeIfCurrent (h : s.Current) {k : Nat} {t : ClientTask Id}
    (ht : s.tasks[k]? = some t) (id : Id) (j : Nat) :
    (removeIfCurrent t.client k s.map).lookup id = some j ↔
      s.map.lookup id = some j ∧ j ≠ k := by
  unfold removeIfCurrent
  split
  · rename_i hk
    exact h.lookup_erase hk id j
  · rename_i hk
    refine ⟨fun hj => ⟨hj, ?_⟩, And.left⟩
    rintro rfl
    obtain ⟨u, hu, hclient, -⟩ := (h id j).mp hj
    rw [ht, Option.some.injEq] at hu
    rw [hu, hclient] at hk
    exact hk hj

theorem Safe.removeSelf {k : Nat} (h : Safe s) (hs : s.removeSelf k = some s') : Safe s' := by
  obtain ⟨t, ht, hp, rfl⟩ := removeSelf_inv hs
  refine ⟨?_, ?_, ?_⟩
  · refine h.current.retire (k := k)
      (u := { t with phase := .returned, cancel := t.cancel.close }) (fun ho => ho.2 rfl) ?_
      (h.current.lookup_removeIfCurrent ht) s.phase
    intro j
    rw [List.getElem?_set]
    by_cases hjk : j = k
    · subst hjk
      simp [(List.getElem?_eq_some_iff.mp ht).1]
    · simp [hjk, Ne.symm hjk]
  · intro j u hu
    change (s.tasks.set k _)[j]? = some u at hu
    rw [List.getElem?_set] at hu
    split at hu
    · split at hu
      · cases hu
        exact .of_over rfl (h.channels k t ht).slot fun _ => rfl
      · cases hu
    · exact h.channels j u hu
  · intro hstandby
    have hempty := h.standby hstandby
    change removeIfCurrent t.client k s.map = ∅
    rw [hempty]
    simp [removeIfCurrent]

theorem Safe.task {k : Nat} {event : TaskEvent} {t t' : ClientTask Id} (h : Safe s)
    (ht : s.tasks[k]? = some t) (hs : t.step event = some t') :
    Safe { s with tasks := s.tasks.set k t' } := by
  obtain ⟨hclient, hsent, hold, hnew⟩ := ClientTask.step_frame hs
  have hk := (List.getElem?_eq_some_iff.mp ht).1
  have hout : t'.Outstanding ↔ t.Outstanding := by
    simp [ClientTask.Outstanding, hsent, hold, hnew]
  refine ⟨?_, ?_, h.standby⟩
  · intro id j
    change s.map.lookup id = some j ↔ _
    rw [h.current id j]
    by_cases hjk : j = k
    · subst hjk
      simp only [ht, List.getElem?_set_self hk, Option.some.injEq, exists_eq_left', hclient, hout]
    · simp only [List.getElem?_set_ne (Ne.symm hjk)]
  · intro j u hu
    change (s.tasks.set k t')[j]? = some u at hu
    by_cases hjk : j = k
    · subst hjk
      rw [List.getElem?_set_self hk, Option.some.injEq] at hu
      exact hu ▸ (h.channels j t ht).step hs
    · rw [List.getElem?_set_ne (Ne.symm hjk)] at hu
      exact h.channels j u hu

/-- Every step of the loop and of its tasks keeps the invariant. -/
theorem Safe.step (h : Safe s) (hs : s.step a = some s') : Safe s' := by
  cases step_branch hs with
  | serve | queryDone => exact ⟨h.current, h.channels, fun hp => by cases hp⟩
  | queryReply id before | put id before => exact h.dispatch (by rw [before]; decide) id
  | delete id live => exact h.disconnect (by rw [live]; decide) id
  | demoted live => exact h.drain .standby
  | shutdown live => exact h.drain .stopped
  | task k event t t' found moved => exact h.task found moved
  | removeSelf k t found finishing => exact h.removeSelf hs

/-- A step of `remove_self` keeps the entries of all other tasks. -/
def KeepsOthers (s : Registry Id) (a : RegistryAction Id) : Prop :=
  ∀ k s', a = .removeSelf k → s.step a = some s' →
    ∀ id j, s.map.lookup id = some j → j ≠ k → s'.map.lookup id = some j

/-- A pending cancel stays in its channel unless the dial or the watcher consumes
it, or the task drops its receiver because its dial, setup or relay is over. -/
def KeepsCancels (s : Registry Id) (a : RegistryAction Id) : Prop :=
  ∀ s', s.step a = some s' → ∀ (k : Nat) (t : ClientTask Id),
    s.tasks[k]? = some t → t.cancel.queue ≠ [] →
      ∃ t', s'.tasks[k]? = some t' ∧ (t'.cancel.queue ≠ [] ∨
        a = .task k .dialCancelled ∨ a = .task k .watcherTakes ∨
        t'.cancel.closed = true ∧ t'.phase.live = false)

theorem Safe.keepsOthers (h : Safe s) (a : RegistryAction Id) : KeepsOthers s a := by
  rintro k s' rfl hs id j hj hjk
  obtain ⟨t, ht, -, rfl⟩ := removeSelf_inv hs
  exact (h.current.lookup_removeIfCurrent ht id j).mpr ⟨hj, hjk⟩

theorem keepsCancels_dispatch (id : Id) {k : Nat} {t : ClientTask Id}
    (ht : s.tasks[k]? = some t) : (s.dispatchClientConnect id).tasks[k]? = some t := by
  unfold dispatchClientConnect
  split
  · exact ht
  · change (s.tasks ++ [_])[k]? = some t
    rw [List.getElem?_append_left (List.getElem?_eq_some_iff.mp ht).1]
    exact ht

omit [DecidableEq Id] in
theorem keepsCancels_drain {k : Nat} {t : ClientTask Id} (ht : s.tasks[k]? = some t)
    (hq : t.cancel.queue ≠ []) :
    ∃ t', s.drainAllClients.tasks[k]? = some t' ∧ t'.cancel.queue ≠ [] := by
  have hlen : ∀ (ks : List Nat) (tasks : List (ClientTask Id)),
      (ks.foldl (fun tasks k => tasks.modify k .sendCancel) tasks).length = tasks.length := by
    intro ks
    induction ks with
    | nil => exact fun _ => rfl
    | cons j rest ih => exact fun tasks => (ih _).trans (List.length_modify ..)
  have hk : k < s.drainAllClients.tasks.length := by
    change k < (s.entries.foldl _ s.tasks).length
    rw [hlen]
    exact (List.getElem?_eq_some_iff.mp ht).1
  refine ⟨_, List.getElem?_eq_getElem hk, ?_⟩
  obtain ⟨u, hu, -, -, -, -, -, hpend⟩ := getElem?_cancelAll (List.getElem?_eq_getElem hk)
  rw [ht, Option.some.injEq] at hu
  exact hpend (hu ▸ hq)

theorem keepsCancels (s : Registry Id) (a : RegistryAction Id) : KeepsCancels s a := by
  intro s' hs k t ht hq
  cases step_branch hs with
  | serve | queryDone => exact ⟨t, ht, Or.inl hq⟩
  | queryReply id | put id => exact ⟨t, keepsCancels_dispatch id ht, Or.inl hq⟩
  | delete id live =>
      unfold handleClientDisconnect
      split
      · exact ⟨t, ht, Or.inl hq⟩
      · rename_i j hj
        by_cases hjk : j = k
        · refine ⟨t.sendCancel, ?_, Or.inl (ClientTask.sendCancel_pending hq)⟩
          simp [hjk, ht]
        · refine ⟨t, ?_, Or.inl hq⟩
          simp [hjk, ht]
  | demoted | shutdown =>
      obtain ⟨t', ht', hq'⟩ := keepsCancels_drain ht hq
      exact ⟨t', ht', Or.inl hq'⟩
  | task j event u u' found moved =>
      by_cases hjk : j = k
      · subst hjk
        rw [ht, Option.some.injEq] at found
        subst found
        refine ⟨u', List.getElem?_set_self (List.getElem?_eq_some_iff.mp ht).1, ?_⟩
        rcases ClientTask.step_pending moved hq with h | rfl | rfl | h
        · exact Or.inl h
        · exact Or.inr (Or.inl rfl)
        · exact Or.inr (Or.inr (Or.inl rfl))
        · exact Or.inr (Or.inr (Or.inr h))
      · exact ⟨t, (List.getElem?_set_ne hjk).trans ht, Or.inl hq⟩
  | removeSelf j u found finishing =>
      by_cases hjk : j = k
      · subst hjk
        exact ⟨_, List.getElem?_set_self (List.getElem?_eq_some_iff.mp ht).1,
          Or.inr (Or.inr (Or.inr ⟨rfl, rfl⟩))⟩
      · exact ⟨t, (List.getElem?_set_ne hjk).trans ht, Or.inl hq⟩

/-- In every state of every schedule no client has two outstanding tasks, the map
stores exactly the outstanding ones, and the cancel of a task in its dial, setup
or relay is pending or was consumed. No `remove_self` touches another entry, and a
pending cancel leaves its channel only into the dial or the watcher, or with the
receiver of a task whose dial, setup or relay is over. -/
theorem registry_safe (schedule : List (RegistryAction Id)) :
    Always step (fun s => s.AtMostOne ∧ s.Current ∧
      ∀ (k : Nat) (t : ClientTask Id), s.tasks[k]? = some t → t.CancelKept) init schedule ∧
    Along step (fun s a => KeepsOthers s a ∧ KeepsCancels s a) init schedule := by
  constructor
  · refine (always_of_step (fun s a s' h hs => h.step hs) safe_init schedule).mono ?_
    exact fun s h => ⟨h.current.atMostOne, h.current, h.channels⟩
  · exact along_of_step (fun s a s' h hs => h.step hs)
      (fun s a _ h _ => ⟨h.keepsOthers a, keepsCancels s a⟩) safe_init schedule

/-- A sent cancel is pending or consumed, whatever the task is doing. -/
def CancelNeverLost (s : Registry Id) : Prop :=
  ∀ t ∈ s.tasks, t.cancelSent = true → t.cancelConsumed = true ∨ t.cancel.queue ≠ []

/-- The Zenoh setup of client `7` fails and drops the receiver. The Delete that is
processed while the task publishes its error signal sends a cancel nobody gets. -/
theorem cancel_after_setup_failure_is_dropped :
    ¬ Always step (fun s : Registry Nat => s.AtMostOne ∧ s.Current ∧ s.CancelNeverLost) init
      [.serve, .queryDone, .put 7, .task 0 (.dialed true), .task 0 (.setupDone false),
        .delete 7] := by
  intro h
  have hlast := (h.last rfl).2.2 _ (List.mem_singleton_self _) rfl
  revert hlast
  decide

end Registry

end ZenohBridge
