import Mathlib.Data.List.Perm.Basic

/-! Reordering of stateful steps that may throw. A step is described by the
guard under which it succeeds and by the update it then makes; steps whose
guards and updates do not interfere may run in any order. -/
namespace Commutation

variable {ι ε σ : Type}

/-- Where `inv` holds, the step succeeds exactly under `guard`, and then makes
`update`. -/
structure GuardedBy (inv : σ → Prop) (act : EStateM ε σ Unit) (guard : σ → Prop)
    (update : σ → σ) : Prop where
  ok_iff : ∀ s t, inv s → (act s = .ok () t ↔ guard s ∧ t = update s)

theorem GuardedBy.of_modify (inv : σ → Prop) (update : σ → σ) :
    GuardedBy inv (modify update : EStateM ε σ Unit) (fun _ => True) update where
  ok_iff := by
    intro s t _
    change EStateM.Result.ok () (update s) = .ok () t ↔ _
    constructor
    · intro h
      cases h
      exact ⟨trivial, rfl⟩
    · rintro ⟨-, rfl⟩
      rfl

/-- Neither order of the two updates is observable, and neither update
changes whether the other step succeeds. -/
structure Independent (inv : σ → Prop) (guard₁ guard₂ : σ → Prop) (update₁ update₂ : σ → σ) :
    Prop where
  guard_left : ∀ s, inv s → (guard₁ (update₂ s) ↔ guard₁ s)
  guard_right : ∀ s, inv s → (guard₂ (update₁ s) ↔ guard₂ s)
  comm : ∀ s, inv s → update₁ (update₂ s) = update₂ (update₁ s)

theorem Independent.symm {inv guard₁ guard₂ : σ → Prop} {update₁ update₂ : σ → σ}
    (h : Independent inv guard₁ guard₂ update₁ update₂) :
    Independent inv guard₂ guard₁ update₂ update₁ where
  guard_left := h.guard_right
  guard_right := h.guard_left
  comm := fun s hs => (h.comm s hs).symm

variable {act : ι → EStateM ε σ Unit} {guard : ι → σ → Prop} {update : ι → σ → σ}

theorem forM_cons_ok {i : ι} {l : List ι} {s u : σ} :
    (i :: l).forM act s = .ok () u ↔ ∃ t, act i s = .ok () t ∧ l.forM act t = .ok () u := by
  change (act i >>= fun _ => l.forM act) s = .ok () u ↔ _
  simp only [bind, EStateM.bind]
  cases h : act i s with
  | ok a t => simp
  | error e t => simp

theorem forM_nil_ok {s u : σ} : ([] : List ι).forM act s = .ok () u ↔ u = s := by
  change (EStateM.Result.ok () s : EStateM.Result ε σ Unit) = .ok () u ↔ _
  constructor
  · intro h
    cases h
    rfl
  · rintro rfl
    rfl

/-- The guards met along a sequence of steps. -/
def GuardsAlong (guard : ι → σ → Prop) (update : ι → σ → σ) : List ι → σ → Prop
  | [], _ => True
  | i :: l, s => guard i s ∧ GuardsAlong guard update l (update i s)

theorem forM_ok_iff {inv : σ → Prop}
    (hact : ∀ i, GuardedBy inv (act i) (guard i) (update i))
    (hinv : ∀ i s, inv s → guard i s → inv (update i s)) (l : List ι) :
    ∀ {s u : σ}, inv s → (l.forM act s = .ok () u ↔
      GuardsAlong guard update l s ∧ u = l.foldl (fun t i => update i t) s) := by
  induction l with
  | nil =>
    intro s u _
    rw [forM_nil_ok]
    simp only [GuardsAlong, true_and, List.foldl_nil]
  | cons i l ih =>
    intro s u hs
    rw [forM_cons_ok]
    simp only [GuardsAlong, List.foldl_cons]
    constructor
    · rintro ⟨t, ht, hrest⟩
      obtain ⟨hi, rfl⟩ := ((hact i).ok_iff s t hs).mp ht
      have hrest := (ih (hinv i s hs hi)).mp hrest
      exact ⟨⟨hi, hrest.1⟩, hrest.2⟩
    · rintro ⟨⟨hi, hguards⟩, hu⟩
      exact ⟨update i s, ((hact i).ok_iff s _ hs).mpr ⟨hi, rfl⟩,
        (ih (hinv i s hs hi)).mpr ⟨hguards, hu⟩⟩

/-- A successful sequence of pairwise independent steps gives the same state
in every order. -/
theorem forM_perm {inv : σ → Prop}
    (hact : ∀ i, GuardedBy inv (act i) (guard i) (update i))
    (hinv : ∀ i s, inv s → guard i s → inv (update i s))
    (hind : ∀ i j, i ≠ j → Independent inv (guard i) (guard j) (update i) (update j))
    {l l' : List ι} (hperm : l.Perm l') :
    ∀ s u, inv s → l.forM act s = .ok () u → l'.forM act s = .ok () u := by
  induction hperm with
  | nil => exact fun _ _ _ h => h
  | cons i _ ih =>
    intro s u hs h
    obtain ⟨t, ht, hrest⟩ := forM_cons_ok.mp h
    have hok := ((hact i).ok_iff s t hs).mp ht
    exact forM_cons_ok.mpr ⟨t, ht, ih t u (hok.2 ▸ hinv i s hs hok.1) hrest⟩
  | swap i j l =>
    intro s u hs h
    by_cases hij : j = i
    · subst hij
      exact h
    obtain ⟨t, ht, hrest⟩ := forM_cons_ok.mp h
    obtain ⟨v, hv, hrest⟩ := forM_cons_ok.mp hrest
    obtain ⟨hj, rfl⟩ := ((hact j).ok_iff s t hs).mp ht
    have hsj : inv (update j s) := hinv j s hs hj
    obtain ⟨hi, rfl⟩ := ((hact i).ok_iff _ v hsj).mp hv
    have hfree := hind j i hij
    have hi' : guard i s := (hfree.guard_right s hs).mp hi
    have hj' : guard j (update i s) := (hfree.guard_left s hs).mpr hj
    have hsi : inv (update i s) := hinv i s hs hi'
    refine forM_cons_ok.mpr ⟨update i s, ((hact i).ok_iff s _ hs).mpr ⟨hi', rfl⟩, ?_⟩
    refine forM_cons_ok.mpr
      ⟨update j (update i s), ((hact j).ok_iff _ _ hsi).mpr ⟨hj', rfl⟩, ?_⟩
    rw [hfree.comm s hs]
    exact hrest
  | trans _ _ ih₁ ih₂ => exact fun s u hs h => ih₂ s u hs (ih₁ s u hs h)

end Commutation
