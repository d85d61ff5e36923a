import Mathlib.Data.List.Basic

/-! Runs of a partial step function, history variables over a run, and the
induction rules for both. -/
namespace Runs

variable {σ η ε : Type*}

/-- `n` consecutive steps. -/
def steps (step : σ → Option σ) : Nat → σ → Option σ
  | 0, s => some s
  | n + 1, s => (steps step n s).bind step

/-- A history variable, updated from the state before each step. -/
def history (step : σ → Option σ) (update : η → σ → η) (start : η) : Nat → σ → η
  | 0, _ => start
  | n + 1, s =>
    match steps step n s with
    | some t => update (history step update start n s) t
    | none => history step update start n s

/-- The concatenated events of the first `n` steps. -/
def trace (step : σ → Option σ) (event : σ → List ε) : Nat → σ → List ε :=
  history step (fun events s => events ++ event s) []

variable {step : σ → Option σ}

@[simp] theorem steps_zero (s : σ) : steps step 0 s = some s := rfl

theorem steps_succ (n : Nat) (s : σ) : steps step (n + 1) s = (steps step n s).bind step := rfl

theorem steps_succ_of {n : Nat} {s t u : σ} (h : steps step n s = some t)
    (hstep : step t = some u) : steps step (n + 1) s = some u := by
  rw [steps_succ, h]
  exact hstep

theorem steps_succ_cases {n : Nat} {s u : σ} (h : steps step (n + 1) s = some u) :
    ∃ t, steps step n s = some t ∧ step t = some u :=
  Option.bind_eq_some_iff.mp h

theorem steps_add (m n : Nat) (s : σ) :
    steps step (m + n) s = (steps step m s).bind (steps step n) := by
  induction n with
  | zero =>
    cases h : steps step m s <;> simp
  | succ n ih =>
    rw [← Nat.add_assoc, steps_succ, ih]
    cases steps step m s with
    | none => rfl
    | some t => rfl

theorem steps_add_of {m n : Nat} {s t u : σ} (hm : steps step m s = some t)
    (hn : steps step n t = some u) : steps step (m + n) s = some u := by
  rw [steps_add, hm]
  exact hn

theorem steps_add_cases {m n : Nat} {s u : σ} (h : steps step (m + n) s = some u) :
    ∃ t, steps step m s = some t ∧ steps step n t = some u := by
  rw [steps_add] at h
  exact Option.bind_eq_some_iff.mp h

theorem steps_succ_left {n : Nat} {s t : σ} (h : step s = some t) :
    steps step (n + 1) s = steps step n t := by
  rw [Nat.add_comm, steps_add]
  change (step s).bind (steps step n) = _
  rw [h]
  rfl

/-- Every shorter run exists as well. -/
theorem steps_of_le {m n : Nat} {s u : σ} (hle : m ≤ n) (h : steps step n s = some u) :
    ∃ t, steps step m s = some t := by
  obtain ⟨k, rfl⟩ := Nat.exists_eq_add_of_le hle
  obtain ⟨t, ht, -⟩ := steps_add_cases h
  exact ⟨t, ht⟩

/-- No run is longer than one that is stuck. -/
theorem le_of_stuck {m n : Nat} {s t u : σ} (hm : steps step m s = some t) (ht : step t = none)
    (hn : steps step n s = some u) : n ≤ m := by
  by_contra hlt
  obtain ⟨v, hv⟩ := steps_of_le (show m + 1 ≤ n by omega) hn
  obtain ⟨w, hw, hstep⟩ := steps_succ_cases hv
  rw [Option.some.inj (hm.symm.trans hw), hstep] at ht
  cases ht

/-- A run can be stuck after one number of steps only. -/
theorem steps_stuck_unique {m n : Nat} {s t u : σ} (hm : steps step m s = some t)
    (ht : step t = none) (hn : steps step n s = some u) (hu : step u = none) : m = n ∧ t = u := by
  obtain rfl : m = n := Nat.le_antisymm (le_of_stuck hn hu hm) (le_of_stuck hm ht hn)
  exact ⟨rfl, Option.some.inj (hm.symm.trans hn)⟩

/-- What holds initially and is preserved by a step holds after every run. -/
theorem steps_invariant {P : σ → Prop} (hstep : ∀ s t, P s → step s = some t → P t)
    {n : Nat} {s t : σ} (hinit : P s) (h : steps step n s = some t) : P t := by
  induction n generalizing t with
  | zero => cases h; exact hinit
  | succ n ih =>
    obtain ⟨u, hu, hlast⟩ := steps_succ_cases h
    exact hstep u t (ih hu) hlast

/-- A run that is known to end can be checked state by state. -/
theorem steps_all {P : σ → Bool} {m : Nat} {s : σ} (hend : steps step m s = none)
    (h : ∀ n < m, (steps step n s).all P = true) {n : Nat} {t : σ} (ht : steps step n s = some t) :
    P t = true := by
  have hlt : n < m := by
    by_contra hle
    obtain ⟨u, hu⟩ := steps_of_le (Nat.le_of_not_lt hle) ht
    cases hend.symm.trans hu
  have hall := h n hlt
  rw [ht] at hall
  exact hall

theorem history_succ {update : η → σ → η} {start : η} {n : Nat} {s t : σ}
    (h : steps step n s = some t) :
    history step update start (n + 1) s = update (history step update start n s) t := by
  rw [history, h]

theorem trace_succ {event : σ → List ε} {n : Nat} {s t : σ} (h : steps step n s = some t) :
    trace step event (n + 1) s = trace step event n s ++ event t :=
  history_succ h

@[simp] theorem trace_zero (event : σ → List ε) (s : σ) : trace step event 0 s = [] := rfl

/-- The run rule with a history variable. -/
theorem history_invariant {update : η → σ → η} {start : η} {P : η → σ → Prop}
    (hstep : ∀ h s t, P h s → step s = some t → P (update h s) t)
    {n : Nat} {s t : σ} (hinit : P start s) (h : steps step n s = some t) :
    P (history step update start n s) t := by
  induction n generalizing t with
  | zero => cases h; exact hinit
  | succ n ih =>
    obtain ⟨u, hu, hlast⟩ := steps_succ_cases h
    rw [history_succ hu]
    exact hstep _ u t (ih hu) hlast

theorem trace_add {event : σ → List ε} {m n : Nat} {s t u : σ}
    (hm : steps step m s = some t) (hn : steps step n t = some u) :
    trace step event (m + n) s = trace step event m s ++ trace step event n t := by
  induction n generalizing u with
  | zero => simp
  | succ n ih =>
    obtain ⟨v, hv, -⟩ := steps_succ_cases hn
    rw [← Nat.add_assoc, trace_succ (steps_add_of hm hv), ih hv, trace_succ hv, List.append_assoc]

theorem trace_map {event : σ → List ε} {δ : Type*} (f : ε → δ) {n : Nat} {s t : σ}
    (h : steps step n s = some t) :
    trace step (fun s => (event s).map f) n s = (trace step event n s).map f := by
  induction n generalizing t with
  | zero => rfl
  | succ n ih =>
    obtain ⟨u, hu, -⟩ := steps_succ_cases h
    rw [trace_succ hu, trace_succ hu, List.map_append, ih hu]

theorem trace_succ_left {event : σ → List ε} {n : Nat} {s t u : σ} (h : step s = some t)
    (hn : steps step n t = some u) :
    trace step event (n + 1) s = event s ++ trace step event n t := by
  have hone : steps step 1 s = some t := h
  rw [Nat.add_comm, trace_add hone hn, trace_succ (steps_zero s)]
  rfl

/-- Fewer events in each step are fewer events of the run, in the same order. -/
theorem trace_sublist {event event' : σ → List ε} (h : ∀ s, (event s).Sublist (event' s))
    (n : Nat) (s : σ) : (trace step event n s).Sublist (trace step event' n s) := by
  induction n with
  | zero => exact List.Sublist.refl _
  | succ n ih =>
    cases ht : steps step n s with
    | none =>
      unfold trace history
      rw [ht]
      exact ih
    | some t =>
      rw [trace_succ ht, trace_succ ht]
      exact ih.append (h t)

/-- One event a step makes a trace as long as the run. -/
theorem length_trace (event : σ → ε) {n : Nat} {s t : σ} (h : steps step n s = some t) :
    (trace step (fun s => [event s]) n s).length = n := by
  induction n generalizing t with
  | zero => rfl
  | succ n ih =>
    obtain ⟨u, hu, -⟩ := steps_succ_cases h
    rw [trace_succ hu, List.length_append, ih hu, List.length_singleton]

end Runs
