import Mathlib.Data.List.Basic

/-! Computations that may fail and leave a trace of events. What was recorded
before a failure stays recorded. -/
structure Traced (ε τ α : Type) where
  value : Except ε α
  trace : List τ

namespace Traced

variable {ε τ α β σ : Type}

protected def pure (a : α) : Traced ε τ α := ⟨.ok a, []⟩

protected def bind (x : Traced ε τ α) (f : α → Traced ε τ β) : Traced ε τ β :=
  match x.value with
  | .ok a => ⟨(f a).value, x.trace ++ (f a).trace⟩
  | .error e => ⟨.error e, x.trace⟩

instance : Monad (Traced ε τ) where
  pure := Traced.pure
  bind := Traced.bind

/-- A failure records nothing. -/
def throw (e : ε) : Traced ε τ α := ⟨.error e, []⟩

@[simp] theorem value_pure (a : α) : (pure a : Traced ε τ α).value = .ok a := rfl

@[simp] theorem trace_pure (a : α) : (pure a : Traced ε τ α).trace = [] := rfl

theorem bind_of_ok {x : Traced ε τ α} {f : α → Traced ε τ β} {a : α} (h : x.value = .ok a) :
    x >>= f = ⟨(f a).value, x.trace ++ (f a).trace⟩ := by
  change Traced.bind x f = _
  unfold Traced.bind
  rw [h]

theorem bind_of_error {x : Traced ε τ α} {f : α → Traced ε τ β} {e : ε}
    (h : x.value = .error e) : x >>= f = ⟨.error e, x.trace⟩ := by
  change Traced.bind x f = _
  unfold Traced.bind
  rw [h]

theorem value_bind_of_ok {x : Traced ε τ α} {f : α → Traced ε τ β} {a : α}
    (h : x.value = .ok a) : (x >>= f).value = (f a).value := by
  rw [bind_of_ok h]

theorem value_bind_ok_iff {x : Traced ε τ α} {f : α → Traced ε τ β} {b : β} :
    (x >>= f).value = .ok b ↔ ∃ a, x.value = .ok a ∧ (f a).value = .ok b := by
  cases h : x.value with
  | ok a =>
    rw [value_bind_of_ok h]
    constructor
    · exact fun hb => ⟨a, rfl, hb⟩
    · rintro ⟨a', ha', hb⟩
      cases ha'
      exact hb
  | error e =>
    rw [bind_of_error h]
    constructor
    · intro hb
      cases hb
    · rintro ⟨a, ha, -⟩
      cases ha

instance : LawfulMonad (Traced ε τ) := LawfulMonad.mk' _
  (fun x => by
    change x >>= (fun a => pure a) = x
    cases h : x.value with
    | ok a => rw [bind_of_ok h, trace_pure, List.append_nil, value_pure, ← h]
    | error e => rw [bind_of_error h, ← h])
  (fun a f => by rw [bind_of_ok (value_pure a), trace_pure, List.nil_append])
  (fun x f g => by
    cases h : x.value with
    | ok a =>
      rw [bind_of_ok (f := fun a => f a >>= g) h]
      cases hf : (f a).value with
      | ok b =>
        rw [bind_of_ok (show (x >>= f).value = .ok b by rw [value_bind_of_ok h, hf]),
          bind_of_ok hf, bind_of_ok h, List.append_assoc]
      | error e =>
        rw [bind_of_error (show (x >>= f).value = .error e by rw [value_bind_of_ok h, hf]),
          bind_of_error hf, bind_of_ok h]
    | error e =>
      rw [bind_of_error (f := fun a => f a >>= g) h, bind_of_error (e := e), bind_of_error h]
      rw [bind_of_error h])

/-! ### Properties of every event -/

/-- Every recorded event has the property. -/
def Safe (P : τ → Prop) (x : Traced ε τ α) : Prop := ∀ event ∈ x.trace, P event

variable {P : τ → Prop}

@[simp] theorem safe_pure (a : α) : Safe P (pure a : Traced ε τ α) := List.forall_mem_nil P

@[simp] theorem safe_throw (e : ε) : Safe P (throw e : Traced ε τ α) := List.forall_mem_nil P

theorem safe_bind {x : Traced ε τ α} {f : α → Traced ε τ β} :
    Safe P (x >>= f) ↔ Safe P x ∧ ∀ a, x.value = .ok a → Safe P (f a) := by
  unfold Safe
  cases h : x.value with
  | ok a =>
    rw [bind_of_ok h, List.forall_mem_append]
    refine and_congr_right fun _ => ⟨fun hf a' ha' => ?_, fun hf => hf a rfl⟩
    cases ha'
    exact hf
  | error e =>
    rw [bind_of_error h]
    exact ⟨fun hx => ⟨hx, nofun⟩, And.left⟩

theorem safe_bind_of_ok {x : Traced ε τ α} {f : α → Traced ε τ β} {a : α}
    (h : x.value = .ok a) : Safe P (x >>= f) ↔ Safe P x ∧ Safe P (f a) := by
  rw [safe_bind]
  refine and_congr_right fun _ => ⟨fun hf => hf a h, fun hf a' ha' => ?_⟩
  cases h.symm.trans ha'
  exact hf

/-! ### Loops -/

section

variable {body : σ → Nat → Traced ε τ σ}

theorem foldlM_range_succ (n : Nat) (s : σ) :
    (List.range (n + 1)).foldlM body s = (List.range n).foldlM body s >>= fun t => body t n := by
  rw [List.range_succ, List.foldlM_append]
  refine congrArg _ (funext fun t => ?_)
  rw [List.foldlM_cons]
  exact bind_pure _

/-- A loop gets through if every round does. -/
theorem value_foldlM_range {goes : Nat → Prop}
    (hgoes : ∀ s i, (∃ t, (body s i).value = .ok t) ↔ goes i) (n : Nat) (s : σ) :
    (∃ t, ((List.range n).foldlM body s).value = .ok t) ↔ ∀ i < n, goes i := by
  induction n with
  | zero => exact ⟨fun _ i hi => absurd hi (Nat.not_lt_zero i), fun _ => ⟨s, rfl⟩⟩
  | succ n ih =>
    rw [foldlM_range_succ]
    constructor
    · rintro ⟨t, ht⟩ i hi
      obtain ⟨u, hu, hbody⟩ := value_bind_ok_iff.mp ht
      obtain hlt | rfl := Nat.lt_or_eq_of_le (Nat.le_of_lt_succ hi)
      · exact ih.mp ⟨u, hu⟩ i hlt
      · exact (hgoes u i).mp ⟨t, hbody⟩
    · intro h
      obtain ⟨u, hu⟩ := ih.mpr fun i hi => h i (Nat.lt_succ_of_lt hi)
      obtain ⟨t, ht⟩ := (hgoes u n).mpr (h n (Nat.lt_succ_self n))
      exact ⟨t, value_bind_ok_iff.mpr ⟨u, hu, ht⟩⟩

/-- The events of a loop are those of the rounds that are reached. -/
theorem safe_foldlM_range {goes safe : Nat → Prop}
    (hgoes : ∀ s i, (∃ t, (body s i).value = .ok t) ↔ goes i)
    (hsafe : ∀ s i, Safe P (body s i) ↔ safe i) (n : Nat) (s : σ) :
    Safe P ((List.range n).foldlM body s) ↔ ∀ i < n, (∀ j < i, goes j) → safe i := by
  induction n with
  | zero => exact ⟨fun _ i hi => absurd hi (Nat.not_lt_zero i), fun _ => safe_pure s⟩
  | succ n ih =>
    rw [foldlM_range_succ, safe_bind, ih]
    constructor
    · rintro ⟨hbefore, hlast⟩ i hi hreached
      obtain hlt | rfl := Nat.lt_or_eq_of_le (Nat.le_of_lt_succ hi)
      · exact hbefore i hlt hreached
      · obtain ⟨t, ht⟩ := (value_foldlM_range hgoes i s).mpr hreached
        exact (hsafe t i).mp (hlast t ht)
    · intro h
      refine ⟨fun i hi => h i (Nat.lt_succ_of_lt hi), fun t ht => (hsafe t n).mpr ?_⟩
      exact h n (Nat.lt_succ_self n) ((value_foldlM_range hgoes n s).mp ⟨t, ht⟩)

end

/-- A loop that appends what every round yields. -/
theorem value_foldlM_append {body : List α → Nat → Traced ε τ (List α)} {yields : Nat → List α}
    {n : Nat} (h : ∀ acc, ∀ i < n, (body acc i).value = .ok (acc ++ yields i)) (acc : List α) :
    ((List.range n).foldlM body acc).value = .ok (acc ++ (List.range n).flatMap yields) := by
  induction n with
  | zero =>
    rw [List.range_zero, List.flatMap_nil, List.append_nil]
    rfl
  | succ n ih =>
    have hbefore := ih fun acc i hi => h acc i (Nat.lt_succ_of_lt hi)
    rw [foldlM_range_succ, value_bind_of_ok hbefore, h _ n (Nat.lt_succ_self n),
      List.range_succ, List.flatMap_append, List.flatMap_cons, List.flatMap_nil, List.append_nil,
      List.append_assoc]

/-- A loop in which the last round of its kind decides. -/
theorem value_foldlM_overwrite {body : σ → Nat → Traced ε τ σ} {kind : Nat → Bool} {result : Nat → σ}
    {n : Nat} (h : ∀ acc, ∀ i < n, (body acc i).value = .ok (if kind i then result i else acc))
    (acc : σ) : ((List.range n).foldlM body acc).value =
      .ok ((((List.range n).filter kind).map result).getLast?.getD acc) := by
  induction n with
  | zero => rfl
  | succ n ih =>
    have hbefore := ih fun acc i hi => h acc i (Nat.lt_succ_of_lt hi)
    rw [foldlM_range_succ, value_bind_of_ok hbefore, h _ n (Nat.lt_succ_self n),
      List.range_succ, List.filter_append, List.map_append, List.filter_singleton]
    cases kind n with
    | false => simp
    | true => simp

end Traced
