import Rv64Emu.Library.SignedOps
import Rv64Emu.Machine.Stages

/-! The signed operations that the execute stage evaluates. Most of the ALU
works on unsigned words; the sums of `ADDW` and `SUBW` are computed in
`int32_t`, the target of a `JALR` in `int64_t`. -/
namespace Rv64Emu

open SignedOps

namespace ALU

/-- `getResult` with its signed operations. The other cases have none: they add,
shift and mask unsigned words, or compare. -/
def evaluate (alu : ALU) : Evaluation RegValue :=
  let A := alu.a
  let B := alu.b
  match alu.op with
  | .sra => shiftRight A (B &&& 0x3F).toNat
  | .addw => do
    let sum ← add (A.setWidth 32) (B.setWidth 32)
    return sum.signExtend 64
  | .subw => do
    let difference ← sub (A.setWidth 32) (B.setWidth 32)
    return difference.signExtend 64
  | .sraw => do
    let shifted ← shiftRight (A.setWidth 32) (B &&& 0x1F).toNat
    return shifted.signExtend 64
  | _ => return alu.getResult

theorem value_evaluate (alu : ALU) : alu.evaluate.value = .ok alu.getResult := by
  obtain ⟨A, B, op⟩ := alu
  cases op <;> rfl

/-- The operands of the two operations on signed words fit. -/
structure Fits (alu : ALU) : Prop where
  addw : alu.op = .addw → SumFits (alu.a.setWidth 32) (alu.b.setWidth 32)
  subw : alu.op = .subw → DifferenceFits (alu.a.setWidth 32) (alu.b.setWidth 32)

theorem fits_of_ne {alu : ALU} (haddw : alu.op ≠ .addw) (hsubw : alu.op ≠ .subw) : alu.Fits :=
  ⟨(absurd · haddw), (absurd · hsubw)⟩

theorem noOverflow_evaluate (alu : ALU) : NoOverflow alu.evaluate ↔ alu.Fits := by
  obtain ⟨A, B, op⟩ := alu
  cases op with
  | addw =>
    refine (noOverflow_bind rfl).trans ((and_iff_left (noOverflow_pure _)).trans ?_)
    refine noOverflow_add.trans ⟨fun h => ⟨fun _ => h, nofun⟩, fun h => h.addw rfl⟩
  | subw =>
    refine (noOverflow_bind rfl).trans ((and_iff_left (noOverflow_pure _)).trans ?_)
    refine noOverflow_sub.trans ⟨fun h => ⟨nofun, fun _ => h⟩, fun h => h.subw rfl⟩
  | sra => exact iff_of_true (noOverflow_shiftRight _) (fits_of_ne nofun nofun)
  | sraw =>
    refine iff_of_true ?_ (fits_of_ne nofun nofun)
    exact (noOverflow_bind rfl).mpr ⟨noOverflow_shiftRight _, noOverflow_pure _⟩
  | _ => exact iff_of_true (noOverflow_pure _) (fits_of_ne nofun nofun)

end ALU

namespace ExecuteStage

variable (idEx : IDEXRegisters) (rs1Value rs2Value : RegValue)

/-- The next PC; only that of a `JALR` is a signed sum. -/
def evaluateTarget : Evaluation (Option MemAddress) :=
  if idEx.control.jump = true ∧ idEx.opcode = .jalr then do
    let rawTarget ← add rs1Value idEx.immediate
    return some (rawTarget &&& ~~~1)
  else return redirectOf idEx rs1Value rs2Value

/-- What `propagate` computes from the operands, with its signed operations. -/
def evaluate : Evaluation (RegValue × Option MemAddress) := do
  let result ← (aluInputs idEx rs1Value rs2Value).evaluate
  let redirect ← evaluateTarget idEx rs1Value rs2Value
  return (
    if idEx.control.jump then idEx.pc + 4
    else if idEx.opcode = .auipc then computePCRelativeTarget idEx.pc idEx.immediate
    else result,
    redirect)

theorem value_evaluateTarget : (evaluateTarget idEx rs1Value rs2Value).value =
    .ok (redirectOf idEx rs1Value rs2Value) := by
  unfold evaluateTarget
  split
  next h =>
    unfold redirectOf
    rw [h.1, h.2]
    rfl
  next => rfl

/-- The evaluation is that of the stage. -/
theorem value_evaluate : (evaluate idEx rs1Value rs2Value).value =
    .ok (resultOf idEx rs1Value rs2Value, redirectOf idEx rs1Value rs2Value) := by
  unfold evaluate
  rw [Traced.value_bind_of_ok (ALU.value_evaluate _),
    Traced.value_bind_of_ok (value_evaluateTarget idEx rs1Value rs2Value)]
  rfl

/-- The operands of the ALU and those of the target of a `JALR` fit. -/
structure Fits : Prop where
  alu : (aluInputs idEx rs1Value rs2Value).Fits
  target : idEx.control.jump = true → idEx.opcode = .jalr → SumFits rs1Value idEx.immediate

theorem noOverflow_evaluateTarget : NoOverflow (evaluateTarget idEx rs1Value rs2Value) ↔
    (idEx.control.jump = true → idEx.opcode = .jalr → SumFits rs1Value idEx.immediate) := by
  unfold evaluateTarget
  split
  next h =>
    refine (noOverflow_bind rfl).trans ((and_iff_left (noOverflow_pure _)).trans ?_)
    exact noOverflow_add.trans ⟨fun hfits _ _ => hfits, fun hfits => hfits h.1 h.2⟩
  next h =>
    exact iff_of_true (noOverflow_pure _) fun hjump hopcode => absurd ⟨hjump, hopcode⟩ h

theorem noOverflow_evaluate :
    NoOverflow (evaluate idEx rs1Value rs2Value) ↔ Fits idEx rs1Value rs2Value := by
  unfold evaluate
  rw [noOverflow_bind (ALU.value_evaluate _),
    noOverflow_bind (value_evaluateTarget idEx rs1Value rs2Value),
    and_iff_left (noOverflow_pure _), ALU.noOverflow_evaluate, noOverflow_evaluateTarget]
  exact ⟨fun h => ⟨h.1, h.2⟩, fun h => ⟨h.alu, h.target⟩⟩

end ExecuteStage

namespace SignedArithmetic

/-- Signed overflow is that of `ADDW`, `SUBW` and the target of a `JALR`, where
two operands of one sign have a result of the other one. -/
theorem representable_iff (alu : ALU) (idEx : IDEXRegisters) (rs1Value rs2Value : RegValue) :
    (NoOverflow alu.evaluate ↔ alu.Fits) ∧
      (NoOverflow (ExecuteStage.evaluate idEx rs1Value rs2Value) ↔
        ExecuteStage.Fits idEx rs1Value rs2Value) :=
  ⟨alu.noOverflow_evaluate, ExecuteStage.noOverflow_evaluate idEx rs1Value rs2Value⟩

/-- `addw` of the greatest word and 1. -/
theorem greatestWord_overflows :
    ¬((∀ alu : ALU, NoOverflow alu.evaluate) ∧
      ∀ (idEx : IDEXRegisters) (rs1Value rs2Value : RegValue),
        NoOverflow (ExecuteStage.evaluate idEx rs1Value rs2Value)) := by
  rintro ⟨halu, -⟩
  have hsum := halu { a := 0x7fffffff, b := 1, op := .addw } ⟨32, 2 ^ 31⟩ (by decide)
  revert hsum
  decide

end SignedArithmetic

end Rv64Emu
