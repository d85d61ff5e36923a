import Rv64Emu.Library.Traced
import Mathlib.Data.BitVec

/-! Two's complement arithmetic of a language in which signed overflow is
undefined: every signed operation that is evaluated is recorded with its
mathematical result. The values are those of wrapping arithmetic. -/
namespace SignedOps

/-- A signed operation at its width. -/
structure SignedOp where
  width : Nat
  result : Int
  deriving DecidableEq, Repr

def SignedOp.Representable (o : SignedOp) : Prop :=
  -2 ^ (o.width - 1) ≤ o.result ∧ o.result < 2 ^ (o.width - 1)

instance (o : SignedOp) : Decidable o.Representable := inferInstanceAs (Decidable (_ ∧ _))

/-- An expression, which cannot fail, with the signed operations in it. -/
abbrev Evaluation := Traced Empty SignedOp

def add (x y : BitVec w) : Evaluation (BitVec w) := ⟨.ok (x + y), [⟨w, x.toInt + y.toInt⟩]⟩

def sub (x y : BitVec w) : Evaluation (BitVec w) := ⟨.ok (x - y), [⟨w, x.toInt - y.toInt⟩]⟩

/-- The shift of a negative number rounds down. -/
def shiftRight (x : BitVec w) (n : Nat) : Evaluation (BitVec w) :=
  ⟨.ok (x.sshiftRight n), [⟨w, x.toInt >>> n⟩]⟩

/-- No signed operation overflows. -/
def NoOverflow (e : Evaluation α) : Prop := Traced.Safe SignedOp.Representable e

/-- Operands of one sign have a sum of that sign. -/
def SumFits (x y : BitVec w) : Prop := x.msb = y.msb → (x + y).msb = x.msb

/-- Operands of different signs have a difference of the sign of the first one. -/
def DifferenceFits (x y : BitVec w) : Prop := x.msb ≠ y.msb → (x - y).msb = x.msb

instance (x y : BitVec w) : Decidable (SumFits x y) := inferInstanceAs (Decidable (_ → _))

instance (x y : BitVec w) : Decidable (DifferenceFits x y) := inferInstanceAs (Decidable (_ → _))

variable {x y : BitVec w}

theorem noOverflow_pure (a : α) : NoOverflow (pure a : Evaluation α) := Traced.safe_pure a

/-- Sign bits tell whether a sum overflows. -/
theorem noOverflow_add : NoOverflow (add x y) ↔ SumFits x y := by
  have hsign := BitVec.saddOverflow_eq x y
  have hexact : SignedOp.Representable ⟨w, x.toInt + y.toInt⟩ ↔ x.saddOverflow y = false := by
    simp only [SignedOp.Representable, BitVec.saddOverflow, Bool.or_eq_false_iff,
      decide_eq_false_iff_not]
    omega
  refine (List.forall_mem_singleton (p := SignedOp.Representable)).trans (hexact.trans ?_)
  rw [hsign]
  unfold SumFits
  cases x.msb <;> cases y.msb <;> cases (x + y).msb <;> decide

theorem noOverflow_sub : NoOverflow (sub x y) ↔ DifferenceFits x y := by
  have hsign := BitVec.ssubOverflow_eq x y
  have hexact : SignedOp.Representable ⟨w, x.toInt - y.toInt⟩ ↔ x.ssubOverflow y = false := by
    simp only [SignedOp.Representable, BitVec.ssubOverflow, Bool.or_eq_false_iff,
      decide_eq_false_iff_not]
    omega
  refine (List.forall_mem_singleton (p := SignedOp.Representable)).trans (hexact.trans ?_)
  rw [hsign]
  unfold DifferenceFits
  cases x.msb <;> cases y.msb <;> cases (x - y).msb <;> decide

/-- A shift to the right is a number of its width. -/
theorem noOverflow_shiftRight (n : Nat) : NoOverflow (shiftRight x n) := by
  refine (List.forall_mem_singleton (p := SignedOp.Representable)).mpr ?_
  rw [← BitVec.toInt_sshiftRight]
  exact ⟨BitVec.le_toInt _, BitVec.toInt_lt⟩

/-- The operations of an expression and of one that continues it. -/
theorem noOverflow_bind {e : Evaluation α} {k : α → Evaluation β} {a : α} (h : e.value = .ok a) :
    NoOverflow (e >>= k) ↔ NoOverflow e ∧ NoOverflow (k a) := Traced.safe_bind_of_ok h

end SignedOps
