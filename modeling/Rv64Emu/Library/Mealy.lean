import Mathlib.Data.List.Forall2

/-! Components that answer requests, and the rule by which one of them behaves as
another one on every sequence of requests. -/
namespace Mealy

variable {ι σ τ ω υ : Type*}

/-- The answers to the requests, in order, and the state afterwards. -/
def run (answer : ι → σ → ω × σ) : List ι → σ → List ω × σ
  | [], s => ([], s)
  | i :: is, s =>
    let (o, t) := answer i s
    let (os, u) := run answer is t
    (o :: os, u)

/-- Every request meets the condition in the state that it finds. -/
def Along (P : σ → ι → Prop) (answer : ι → σ → ω × σ) : List ι → σ → Prop
  | [], _ => True
  | i :: is, s => P s i ∧ Along P answer is (answer i s).2

variable {answer : ι → σ → ω × σ} {answer' : ι → τ → υ × τ}

@[simp] theorem run_nil (s : σ) : run answer [] s = ([], s) := rfl

@[simp] theorem run_cons (i : ι) (is : List ι) (s : σ) :
    run answer (i :: is) s =
      ((answer i s).1 :: (run answer is (answer i s).2).1, (run answer is (answer i s).2).2) := rfl

theorem along_of_forall {P : σ → ι → Prop} (h : ∀ s i, P s i) (is : List ι) (s : σ) :
    Along P answer is s := by
  induction is generalizing s with
  | nil => trivial
  | cons i is ih => exact ⟨h s i, ih _⟩

/-- Two components whose answers agree one by one, and whose states stay related,
agree on every sequence of requests that meet the condition of the second one. -/
theorem run_related {R : σ → τ → Prop} {Q : ω → υ → Prop} {P : τ → ι → Prop}
    (h : ∀ i s t, R s t → P t i →
      Q (answer i s).1 (answer' i t).1 ∧ R (answer i s).2 (answer' i t).2)
    (is : List ι) {s : σ} {t : τ} (hst : R s t) (halong : Along P answer' is t) :
    List.Forall₂ Q (run answer is s).1 (run answer' is t).1 ∧
      R (run answer is s).2 (run answer' is t).2 := by
  induction is generalizing s t with
  | nil => exact ⟨.nil, hst⟩
  | cons i is ih =>
    obtain ⟨hhead, htail⟩ := halong
    obtain ⟨hanswer, hstates⟩ := h i s t hst hhead
    obtain ⟨hanswers, hend⟩ := ih hstates htail
    exact ⟨.cons hanswer hanswers, hend⟩

end Mealy
