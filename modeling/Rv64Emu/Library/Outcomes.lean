import Mathlib.Data.List.Basic

/-! Computations that may fail: which failures are permitted, and what holds of
a value. A postcondition is carried through a sequence of such computations. -/
namespace Outcomes

variable {ε α β : Type}

/-- The outcome is a permitted failure or a value with the property. -/
def Meets (permitted : ε → Prop) (P : α → Prop) : Except ε α → Prop
  | .ok a => P a
  | .error e => permitted e

variable {permitted : ε → Prop} {P : α → Prop} {Q : β → Prop}

/-- Where no failure is permitted there is a value. -/
theorem meets_iff_exists {x : Except ε α} :
    Meets (fun _ => False) P x ↔ ∃ a, x = .ok a ∧ P a := by
  cases x <;> simp [Meets]

theorem meets_of_eq {x : Except ε α} {a : α} (h : Meets permitted P x) (hx : x = .ok a) : P a := by
  rw [hx] at h
  exact h

theorem meets_mono {permitted' : ε → Prop} {P' : α → Prop} {x : Except ε α}
    (h : Meets permitted P x) (hfail : ∀ e, permitted e → permitted' e)
    (hvalue : ∀ a, P a → P' a) : Meets permitted' P' x := by
  cases x with
  | ok a => exact hvalue a h
  | error e => exact hfail e h

/-- What the first computation guarantees is the precondition of the second. -/
theorem meets_bind {x : Except ε α} {f : α → Except ε β} (h : Meets permitted P x)
    (hf : ∀ a, P a → Meets permitted Q (f a)) : Meets permitted Q (x >>= f) := by
  cases x with
  | ok a => exact hf a h
  | error e => exact h

theorem meets_map {x : Except ε α} {f : α → β} :
    Meets permitted Q (f <$> x) ↔ Meets permitted (fun a => Q (f a)) x := by
  cases x <;> exact Iff.rfl

/-- A traversal fails only as one of its elements does. -/
theorem meets_mapM {f : α → Except ε β} {l : List α}
    (h : ∀ a ∈ l, Meets permitted (fun _ => True) (f a)) :
    Meets permitted (fun _ => True) (l.mapM f) := by
  induction l with
  | nil => trivial
  | cons a l ih =>
    obtain ⟨hhead, htail⟩ := List.forall_mem_cons.mp h
    rw [List.mapM_cons]
    refine meets_bind hhead fun b _ => ?_
    exact meets_bind (ih htail) fun bs _ => trivial

/-- Elements that all have a related outcome are traversed to related values. -/
theorem mapM_ok {R : α → β → Prop} {f : α → Except ε β}
    (hf : ∀ a b, R a b → f a = .ok b) {l : List α} (h : ∀ a ∈ l, ∃ b, R a b) :
    ∃ bs, l.mapM f = .ok bs ∧ List.Forall₂ R l bs := by
  induction l with
  | nil => exact ⟨[], rfl, .nil⟩
  | cons a l ih =>
    obtain ⟨⟨b, hb⟩, hl⟩ := List.forall_mem_cons.mp h
    obtain ⟨bs, hbs, hall⟩ := ih hl
    refine ⟨b :: bs, ?_, .cons hb hall⟩
    rw [List.mapM_cons, hf a b hb, hbs]
    rfl

/-- A traversal that fails nowhere is a map. -/
theorem mapM_eq_map {f : α → Except ε β} {g : α → β} {l : List α}
    (h : ∀ a ∈ l, f a = .ok (g a)) : l.mapM f = .ok (l.map g) := by
  induction l with
  | nil => rfl
  | cons a l ih =>
    obtain ⟨hhead, htail⟩ := List.forall_mem_cons.mp h
    rw [List.mapM_cons, hhead, ih htail]
    rfl

theorem mapM_cons_eq_ok_iff {f : α → Except ε β} {a : α} {l : List α} {bs : List β} :
    (a :: l).mapM f = .ok bs ↔ ∃ b bs', f a = .ok b ∧ l.mapM f = .ok bs' ∧ bs = b :: bs' := by
  rw [List.mapM_cons]
  cases f a with
  | error e => exact ⟨nofun, fun ⟨_, _, h, _⟩ => nomatch h⟩
  | ok b =>
    cases l.mapM f with
    | error e => exact ⟨nofun, fun ⟨_, _, _, h, _⟩ => nomatch h⟩
    | ok bs' =>
      constructor
      · intro h
        exact ⟨b, bs', rfl, rfl, (Except.ok.inj h).symm⟩
      · rintro ⟨_, _, hb, hbs', rfl⟩
        cases hb
        cases hbs'
        rfl

/-- The values come in the order of the elements. -/
theorem mapM_perm {f : α → Except ε β} {l l' : List α} (hperm : l.Perm l') {bs' : List β}
    (h : l'.mapM f = .ok bs') : ∃ bs, l.mapM f = .ok bs ∧ bs.Perm bs' := by
  induction hperm generalizing bs' with
  | nil => exact ⟨bs', h, List.Perm.refl bs'⟩
  | cons a _ ih =>
    obtain ⟨b, cs', hb, hcs', rfl⟩ := mapM_cons_eq_ok_iff.mp h
    obtain ⟨cs, hcs, hperm⟩ := ih hcs'
    exact ⟨b :: cs, mapM_cons_eq_ok_iff.mpr ⟨b, cs, hb, hcs, rfl⟩, hperm.cons b⟩
  | swap a a' l =>
    obtain ⟨b, _, hb, hrest, rfl⟩ := mapM_cons_eq_ok_iff.mp h
    obtain ⟨b', cs, hb', hcs, rfl⟩ := mapM_cons_eq_ok_iff.mp hrest
    refine ⟨b' :: b :: cs, ?_, List.Perm.swap b b' cs⟩
    exact mapM_cons_eq_ok_iff.mpr ⟨b', b :: cs, hb', mapM_cons_eq_ok_iff.mpr ⟨b, cs, hb, hcs, rfl⟩,
      rfl⟩
  | trans _ _ ih ih' =>
    obtain ⟨cs, hcs, hperm⟩ := ih' h
    obtain ⟨bs, hbs, hperm'⟩ := ih hcs
    exact ⟨bs, hbs, hperm'.trans hperm⟩

end Outcomes
