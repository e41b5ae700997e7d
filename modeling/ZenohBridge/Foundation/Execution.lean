import Mathlib.Data.List.Basic

/-!
# Executions of a labelled step function

A system is given by `step : σ → α → Option σ`. The label carries every choice
that the scheduler and the environment make, so a schedule is a list of labels
and the execution of a schedule is a function. A label that is not enabled in
the current state blocks the rest of the schedule.

## Implementation notes

`Always` and `Along` range over the states and the steps actually taken. They
need no hypothesis that the whole schedule is executable: what follows a
blocked label says nothing.
-/

namespace Execution

variable {σ α : Type*} (step : σ → α → Option σ)

/-- The state after a whole schedule, or nothing if some label is blocked. -/
def exec : σ → List α → Option σ
  | s, [] => some s
  | s, a :: rest => (step s a).bind fun s' => exec s' rest

/-- Every state visited by the schedule, the first one included, satisfies `P`. -/
def Always (P : σ → Prop) : σ → List α → Prop
  | s, [] => P s
  | s, a :: rest => P s ∧ ∀ s', step s a = some s' → Always P s' rest

/-- Every step taken by the schedule meets `ok` in the state before it. -/
def Along (ok : σ → α → Prop) : σ → List α → Prop
  | _, [] => True
  | s, a :: rest => ∀ s', step s a = some s' → ok s a ∧ Along ok s' rest

/-- A state is reachable when some schedule leads to it. -/
def Reachable (start s : σ) : Prop := ∃ labels, exec step start labels = some s

/-- Over a decidable property a schedule can be checked by running it. -/
instance decidableAlways (P : σ → Prop) [DecidablePred P] :
    ∀ (s : σ) (labels : List α), Decidable (Always step P s labels)
  | s, [] => inferInstanceAs (Decidable (P s))
  | s, a :: rest =>
      match h : step s a with
      | none => decidable_of_iff (P s) (by simp [Always, h])
      | some s' =>
          have := decidableAlways P s' rest
          decidable_of_iff (P s ∧ Always step P s' rest) (by simp [Always, h])

instance decidableAlong (ok : σ → α → Prop) [∀ s a, Decidable (ok s a)] :
    ∀ (s : σ) (labels : List α), Decidable (Along step ok s labels)
  | _, [] => isTrue trivial
  | s, a :: rest =>
      match h : step s a with
      | none => isTrue (by simp [Along, h])
      | some s' =>
          have := decidableAlong ok s' rest
          decidable_of_iff (ok s a ∧ Along step ok s' rest) (by simp [Along, h])

variable {step}

@[simp] theorem exec_nil (s : σ) : exec step s [] = some s := rfl

theorem exec_cons {s s' t : σ} {a : α} {rest : List α} (h : step s a = some s')
    (hrest : exec step s' rest = some t) : exec step s (a :: rest) = some t := by
  rw [exec, h]
  exact hrest

theorem exec_cons_eq_some {s t : σ} {a : α} {rest : List α}
    (h : exec step s (a :: rest) = some t) :
    ∃ s', step s a = some s' ∧ exec step s' rest = some t := by
  simpa only [exec, Option.bind_eq_some_iff] using h

theorem exec_append (s : σ) (first rest : List α) :
    exec step s (first ++ rest) = (exec step s first).bind fun t => exec step t rest := by
  induction first generalizing s with
  | nil => rfl
  | cons a first ih =>
      simp only [List.cons_append, exec, Option.bind_assoc]
      congr 1
      funext s'
      exact ih s'

theorem exec_trans {s t u : σ} {first rest : List α} (h : exec step s first = some t)
    (hrest : exec step t rest = some u) : exec step s (first ++ rest) = some u := by
  rw [exec_append, h]
  exact hrest

/-- Two labels commute when they can be taken in either order, with the same result. -/
def Commute (step : σ → α → Option σ) (a b : α) : Prop :=
  ∀ s, (step s a).bind (fun t => step t b) = (step s b).bind (fun t => step t a)

theorem Commute.symm {a b : α} (h : Commute step a b) : Commute step b a := fun s => (h s).symm

/-- A label that commutes with every label of a schedule can be taken after it. -/
theorem exec_cons_comm {a : α} {labels : List α} (h : ∀ b ∈ labels, Commute step a b) (s : σ) :
    exec step s (a :: labels) = exec step s (labels ++ [a]) := by
  induction labels generalizing s with
  | nil => rfl
  | cons b rest ih =>
      have hb : Commute step a b := h b (List.mem_cons_self ..)
      have hrest : ∀ c ∈ rest, Commute step a c := fun c hc => h c (List.mem_cons_of_mem _ hc)
      calc exec step s (a :: b :: rest)
          = ((step s a).bind fun t => step t b).bind fun t => exec step t rest := by
            rw [Option.bind_assoc]
            rfl
        _ = ((step s b).bind fun t => step t a).bind fun t => exec step t rest := by rw [hb s]
        _ = (step s b).bind fun t => exec step t (a :: rest) := by
            rw [Option.bind_assoc]
            rfl
        _ = (step s b).bind fun t => exec step t (rest ++ [a]) := by
            congr 1
            funext t
            exact ih hrest t

/-- Schedules whose labels commute pairwise can be taken in either order. -/
theorem exec_comm {first rest : List α}
    (h : ∀ a ∈ first, ∀ b ∈ rest, Commute step a b) (s : σ) :
    exec step s (first ++ rest) = exec step s (rest ++ first) := by
  induction first generalizing s with
  | nil => rw [List.nil_append, List.append_nil]
  | cons a first ih =>
      have ha : ∀ b ∈ rest, Commute step a b := h a (List.mem_cons_self ..)
      have hfirst : ∀ c ∈ first, ∀ b ∈ rest, Commute step c b :=
        fun c hc => h c (List.mem_cons_of_mem _ hc)
      calc exec step s (a :: (first ++ rest))
          = (step s a).bind fun t => exec step t (first ++ rest) := rfl
        _ = (step s a).bind fun t => exec step t (rest ++ first) := by
            congr 1
            funext t
            exact ih hfirst t
        _ = (exec step s (a :: rest)).bind fun t => exec step t first := by
            simp only [exec_append, exec, Option.bind_assoc]
        _ = (exec step s (rest ++ [a])).bind fun t => exec step t first := by
            rw [exec_cons_comm ha]
        _ = exec step s (rest ++ a :: first) := by
            rw [← exec_append, List.append_assoc, List.singleton_append]

/-- A schedule of pairwise commuting labels can be taken in any order. -/
theorem exec_perm {labels labels' : List α} (hperm : labels.Perm labels')
    (h : ∀ a ∈ labels, ∀ b ∈ labels, Commute step a b) (s : σ) :
    exec step s labels = exec step s labels' := by
  induction hperm generalizing s with
  | nil => rfl
  | @cons a rest rest' _ ih =>
      have hrest : ∀ b ∈ rest, ∀ c ∈ rest, Commute step b c := fun b hb c hc =>
        h b (List.mem_cons_of_mem _ hb) c (List.mem_cons_of_mem _ hc)
      simp only [exec, ih hrest]
  | swap a b rest =>
      have hba : Commute step b a := h b (by simp) a (by simp)
      calc exec step s (b :: a :: rest)
          = ((step s b).bind fun t => step t a).bind fun t => exec step t rest := by
            rw [Option.bind_assoc]
            rfl
        _ = ((step s a).bind fun t => step t b).bind fun t => exec step t rest := by rw [hba s]
        _ = exec step s (a :: b :: rest) := by
            rw [Option.bind_assoc]
            rfl
  | trans hfirst _ ihfirst ihsecond =>
      refine (ihfirst h s).trans (ihsecond (fun a ha b hb => ?_) s)
      exact h a (hfirst.mem_iff.mpr ha) b (hfirst.mem_iff.mpr hb)

/-- The first state of a schedule is one of the visited ones. -/
theorem Always.head {P : σ → Prop} {s : σ} {labels : List α}
    (h : Always step P s labels) : P s := by
  cases labels with
  | nil => exact h
  | cons a rest => exact h.1

/-- The state after the whole schedule is one of the visited ones. -/
theorem Always.last {P : σ → Prop} {s t : σ} {labels : List α}
    (h : Always step P s labels) (run : exec step s labels = some t) : P t := by
  induction labels generalizing s with
  | nil =>
      rw [exec_nil, Option.some.injEq] at run
      exact run ▸ h
  | cons a rest ih =>
      obtain ⟨s', hs, hr⟩ := exec_cons_eq_some run
      exact ih (h.2 s' hs) hr

/-- Invariant rule: a property kept by every step holds in every visited state. -/
theorem always_of_step {I : σ → Prop}
    (keep : ∀ s a s', I s → step s a = some s' → I s')
    {s : σ} (h : I s) (labels : List α) : Always step I s labels := by
  induction labels generalizing s with
  | nil => exact h
  | cons a rest ih => exact ⟨h, fun s' hs => ih (keep s a s' h hs)⟩

/-- Backward rule: what every step leaves behind only if it held before it, and what holds at
the end of a run, held throughout. -/
theorem always_of_last {P : σ → Prop} (back : ∀ s a s', step s a = some s' → P s' → P s)
    {s t : σ} {labels : List α} (run : exec step s labels = some t) (h : P t) :
    Always step P s labels := by
  suffices hall : P s ∧ Always step P s labels from hall.2
  induction labels generalizing s with
  | nil =>
      rw [exec_nil, Option.some.injEq] at run
      exact ⟨run ▸ h, run ▸ h⟩
  | cons a rest ih =>
      obtain ⟨s', hs, hr⟩ := exec_cons_eq_some run
      obtain ⟨hs', hrest⟩ := ih hr
      have hbefore := back s a s' hs hs'
      refine ⟨hbefore, hbefore, fun u hu => ?_⟩
      obtain rfl := Option.some.inj (hs.symm.trans hu)
      exact hrest

theorem Always.mono {P Q : σ → Prop} (hpq : ∀ s, P s → Q s) {s : σ} {labels : List α}
    (h : Always step P s labels) : Always step Q s labels := by
  induction labels generalizing s with
  | nil => exact hpq s h
  | cons a rest ih => exact ⟨hpq s h.1, fun s' hs => ih (h.2 s' hs)⟩

theorem Always.mono₂ {P Q R : σ → Prop} {s : σ} {labels : List α}
    (h : Always step P s labels) (hpq : ∀ s, P s → Q s → R s) (h' : Always step Q s labels) :
    Always step R s labels := by
  induction labels generalizing s with
  | nil => exact hpq s h h'
  | cons a rest ih => exact ⟨hpq s h.1 h'.1, fun s' hs => ih (h.2 s' hs) (h'.2 s' hs)⟩

/-- Invariant rule on runs: from the start to the last state of a schedule. -/
theorem exec_invariant {I : σ → Prop}
    (keep : ∀ s a s', I s → step s a = some s' → I s')
    {s t : σ} (h : I s) {labels : List α} (run : exec step s labels = some t) : I t :=
  (always_of_step keep h labels).last run

/-- Invariant rule on reachable states. -/
theorem Reachable.invariant {I : σ → Prop}
    (keep : ∀ s a s', I s → step s a = some s' → I s')
    {start s : σ} (h : I start) (hr : Reachable step start s) : I s := by
  obtain ⟨labels, run⟩ := hr
  exact exec_invariant keep h run

/-- Invariant rule relative to a condition that every taken step meets. -/
theorem always_of_along {I : σ → Prop} {ok : σ → α → Prop}
    (keep : ∀ s a s', I s → ok s a → step s a = some s' → I s')
    {s : σ} (h : I s) {labels : List α} (hok : Along step ok s labels) :
    Always step I s labels := by
  induction labels generalizing s with
  | nil => exact h
  | cons a rest ih =>
      refine ⟨h, fun s' hs => ?_⟩
      obtain ⟨ha, hrest⟩ := hok s' hs
      exact ih (keep s a s' h ha hs) hrest

/-- Exactness rule. `I` is kept by every step that meets `ok` and implies `P`;
a step that breaks `ok` leaves a state without `P`. Then, along the runs whose
steps are admissible, `P` holds everywhere exactly when every step meets `ok`. -/
theorem always_iff_along {I P : σ → Prop} (adm : σ → α → Prop) {ok : σ → α → Prop}
    (holds : ∀ s, I s → P s)
    (keep : ∀ s a s', I s → adm s a → ok s a → step s a = some s' → I s')
    (bad : ∀ s a s', I s → adm s a → ¬ ok s a → step s a = some s' → ¬ P s')
    {s : σ} (h : I s) {labels : List α} (hadm : Along step adm s labels) :
    Always step P s labels ↔ Along step ok s labels := by
  induction labels generalizing s with
  | nil => exact ⟨fun _ => trivial, fun _ => holds s h⟩
  | cons a rest ih =>
      constructor
      · rintro ⟨-, htail⟩ s' hs
        obtain ⟨had, hrest⟩ := hadm s' hs
        have ha : ok s a := by
          by_contra hbad
          exact bad s a s' h had hbad hs (htail s' hs).head
        exact ⟨ha, (ih (keep s a s' h had ha hs) hrest).mp (htail s' hs)⟩
      · intro hok
        refine ⟨holds s h, fun s' hs => ?_⟩
        obtain ⟨had, hrest⟩ := hadm s' hs
        obtain ⟨ha, htail⟩ := hok s' hs
        exact (ih (keep s a s' h had ha hs) hrest).mpr htail

/-- A condition on labels alone holds along a schedule of such labels. -/
theorem along_of_labels {ok : α → Prop} {labels : List α} (h : ∀ a ∈ labels, ok a) (s : σ) :
    Along step (fun _ a => ok a) s labels := by
  induction labels generalizing s with
  | nil => trivial
  | cons a rest ih =>
      intro s' _
      exact ⟨h a (List.mem_cons_self ..), ih (fun b hb => h b (List.mem_cons_of_mem _ hb)) s'⟩

/-- A property of the visited states holds before and after every step. -/
theorem Always.along {P : σ → Prop} {s : σ} {labels : List α} (h : Always step P s labels) :
    Along step (fun s a => P s ∧ ∀ s', step s a = some s' → P s') s labels := by
  induction labels generalizing s with
  | nil => trivial
  | cons a rest ih =>
      intro s' hs
      refine ⟨⟨h.1, fun t ht => ?_⟩, ih (h.2 s' hs)⟩
      obtain rfl := Option.some.inj (hs.symm.trans ht)
      exact (h.2 s' hs).head

theorem Along.and {ok ok' : σ → α → Prop} {s : σ} {labels : List α} (h : Along step ok s labels)
    (h' : Along step ok' s labels) : Along step (fun s a => ok s a ∧ ok' s a) s labels := by
  induction labels generalizing s with
  | nil => trivial
  | cons a rest ih =>
      intro s' hs
      exact ⟨⟨(h s' hs).1, (h' s' hs).1⟩, ih (h s' hs).2 (h' s' hs).2⟩

theorem Along.mono {ok ok' : σ → α → Prop}
    (himp : ∀ s a s', step s a = some s' → ok s a → ok' s a) {s : σ} {labels : List α}
    (h : Along step ok s labels) : Along step ok' s labels := by
  induction labels generalizing s with
  | nil => trivial
  | cons a rest ih =>
      intro s' hs
      exact ⟨himp s a s' hs (h s' hs).1, ih (h s' hs).2⟩

/-- A whole schedule is taken, and every step of it meets `ok`. -/
def Runs (step : σ → α → Option σ) (ok : σ → α → Prop) (s : σ) (labels : List α) (t : σ) : Prop :=
  Along step ok s labels ∧ exec step s labels = some t

section Runs

variable {ok : σ → α → Prop} {s t u : σ} {a : α} {first rest : List α}

theorem Runs.nil : Runs step ok s [] s := ⟨trivial, rfl⟩

theorem Runs.cons (ha : ok s a) (hs : step s a = some t) (h : Runs step ok t rest u) :
    Runs step ok s (a :: rest) u := by
  refine ⟨fun t' ht => ?_, exec_cons hs h.2⟩
  obtain rfl := Option.some.inj (hs.symm.trans ht)
  exact ⟨ha, h.1⟩

theorem Runs.append (h : Runs step ok s first t) (h' : Runs step ok t rest u) :
    Runs step ok s (first ++ rest) u := by
  refine ⟨?_, exec_trans h.2 h'.2⟩
  obtain ⟨halong, hexec⟩ := h
  induction first generalizing s with
  | nil =>
      obtain rfl := Option.some.inj hexec
      exact h'.1
  | cons a first ih =>
      intro s' hs
      obtain ⟨ha, hfirst⟩ := halong s' hs
      rw [exec, hs, Option.bind_some] at hexec
      exact ⟨ha, ih hfirst hexec⟩

end Runs

/-- A step property that follows from an invariant holds along every schedule. -/
theorem along_of_step {I : σ → Prop} {ok : σ → α → Prop}
    (keep : ∀ s a s', I s → step s a = some s' → I s')
    (holds : ∀ s a s', I s → step s a = some s' → ok s a)
    {s : σ} (h : I s) (labels : List α) : Along step ok s labels := by
  induction labels generalizing s with
  | nil => trivial
  | cons a rest ih => exact fun s' hs => ⟨holds s a s' h hs, ih (keep s a s' h hs)⟩

section Termination

/-- Every execution meets `Goal` within a number of steps and is not blocked before it does. -/
def Within (step : σ → α → Option σ) (Goal : σ → Prop) : Nat → σ → Prop
  | 0, s => Goal s
  | n + 1, s => Goal s ∨
      (∃ a s', step s a = some s') ∧ ∀ a s', step s a = some s' → Within step Goal n s'

variable {Inside Goal : σ → Prop} {β : Type*} {r : β → β → Prop}

/-- Variant rule: in a part of the system where one label alone is enabled and every step
either meets the goal or stays inside with a smaller variant, the goal is met. -/
theorem within_of_variant (wf : WellFounded r) (variant : σ → β) {a : α}
    (sole : ∀ s, Inside s → ∀ b s', step s b = some s' → b = a)
    (advance : ∀ s, Inside s → ∃ s', step s a = some s' ∧
      (Goal s' ∨ Inside s' ∧ r (variant s') (variant s)))
    {s : σ} (h : Inside s) : ∃ n, Within step Goal n s := by
  suffices hall : ∀ v s, variant s = v → Inside s → ∃ n, Within step Goal n s from hall _ s rfl h
  intro v
  induction v using wf.induction with
  | _ v ih =>
      rintro s rfl h
      obtain ⟨s', hs, hnext⟩ := advance s h
      have hrest : ∃ n, Within step Goal n s' := by
        rcases hnext with hgoal | ⟨hinside, hlt⟩
        · exact ⟨0, hgoal⟩
        · exact ih _ hlt s' rfl hinside
      obtain ⟨n, hn⟩ := hrest
      refine ⟨n + 1, .inr ⟨⟨a, s', hs⟩, fun b t ht => ?_⟩⟩
      obtain rfl := sole s h b t ht
      obtain rfl := Option.some.inj (hs.symm.trans ht)
      exact hn

end Termination

section Projection

variable {τ : Type*} {step' : τ → α → Option τ} {f : τ → σ}

/-- What holds in a system holds where more is recorded beside its state. -/
theorem Always.recorded (hf : ∀ t a t', step' t a = some t' → step (f t) a = some (f t'))
    {P : σ → Prop} {t : τ} {labels : List α} (h : Always step P (f t) labels) :
    Always step' (fun t => P (f t)) t labels := by
  induction labels generalizing t with
  | nil => exact h
  | cons a rest ih => exact ⟨h.1, fun t' ht => ih (h.2 (f t') (hf t a t' ht))⟩

theorem Along.recorded (hf : ∀ t a t', step' t a = some t' → step (f t) a = some (f t'))
    {ok : σ → α → Prop} {t : τ} {labels : List α} (h : Along step ok (f t) labels) :
    Along step' (fun t a => ok (f t) a) t labels := by
  induction labels generalizing t with
  | nil => trivial
  | cons a rest ih =>
      intro t' ht
      obtain ⟨ha, hrest⟩ := h (f t') (hf t a t' ht)
      exact ⟨ha, ih hrest⟩

end Projection

end Execution
