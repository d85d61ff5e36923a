import Rv64Emu.Pipelined.Cycle
import Rv64Emu.Sequential.NonPipelined

/-! The operands of the instruction in EX. What it read in ID is stale by the
instructions in EX/M and M/WB; forwarding makes up for both. -/
namespace Rv64Emu

theorem MWBRegisters.readRegister_commit (mWb : MWBRegisters) (registers : Registers)
    (rs : RegNumber) :
    (mWb.commit registers).readRegister rs =
      if mWb.control.regWrite = true ∧ mWb.rd = rs ∧ mWb.rd ≠ 0 then mWb.wbValue
      else registers.readRegister rs := by
  unfold commit
  by_cases hwrite : mWb.control.regWrite = true
  · rw [if_pos hwrite, Registers.readRegister_writeRegister]
    simp [hwrite]
  · rw [if_neg hwrite, if_neg fun h => hwrite h.1]

/-- The instruction in EX/M loads the register `rs`. -/
def EXMRegisters.LoadsInto (exM : EXMRegisters) (rs : RegNumber) : Prop :=
  exM.control.memToReg = true ∧ exM.rd ≠ 0 ∧ exM.rd = rs

namespace ExecuteStage

theorem exStageCanForward_iff (exM : EXMRegisters) :
    exStageCanForward exM = true ↔
      exM.control.regWrite = true ∧ exM.control.memToReg = false ∧ exM.rd ≠ 0 := by
  unfold exStageCanForward
  simp [and_assoc]

/-- The operand that EX uses is the register after both older instructions. -/
theorem forwardOperand_eq {exM : EXMRegisters} {mWb : MWBRegisters} {registers : Registers}
    {rs : RegNumber} (memData : RegValue) (hload : ¬exM.LoadsInto rs) :
    forwardOperand exM mWb rs (registers.readRegister rs) =
      ((exM.accessed memData).commit (mWb.commit registers)).readRegister rs := by
  rw [MWBRegisters.readRegister_commit, MWBRegisters.readRegister_commit]
  change _ = if exM.control.regWrite = true ∧ exM.rd = rs ∧ exM.rd ≠ 0 then
    (if exM.control.memToReg then memData else exM.aluResult) else _
  have hcan := exStageCanForward_iff exM
  unfold EXMRegisters.LoadsInto at hload
  unfold forwardOperand
  by_cases hmatch : exM.control.regWrite = true ∧ exM.rd = rs ∧ exM.rd ≠ 0
  · rw [if_pos hmatch]
    obtain ⟨hwrite, hrd, hne⟩ := hmatch
    have halu : exM.control.memToReg = false := by
      by_contra hmem
      exact hload ⟨by simpa using hmem, hne, hrd⟩
    have hcan' : exStageCanForward exM = true := hcan.mpr ⟨hwrite, halu, hne⟩
    have hbusy : (!exStageCanForward exM || exM.rd != rs) = false := by simp [hcan', hrd]
    rw [hbusy, Bool.and_false, hcan', hrd, beq_self_eq_true, halu]
    rfl
  · rw [if_neg hmatch]
    have hnone : ¬(exStageCanForward exM = true ∧ exM.rd = rs) := fun h =>
      hmatch ⟨(hcan.mp h.1).1, h.2, (hcan.mp h.1).2.2⟩
    have hfree : (!exStageCanForward exM || exM.rd != rs) = true := by
      cases hforward : exStageCanForward exM with
      | false => rfl
      | true =>
        have hne : exM.rd ≠ rs := fun h => hnone ⟨hforward, h⟩
        simpa using hne
    have hkeep : (exStageCanForward exM && exM.rd == rs) = false := by
      simpa using fun h => fun h' => hnone ⟨h, h'⟩
    have hmWb : (mWb.control.regWrite && mWb.rd != 0 && mWb.rd == rs) = true ↔
        mWb.control.regWrite = true ∧ mWb.rd = rs ∧ mWb.rd ≠ 0 := by
      simp only [Bool.and_eq_true, bne_iff_ne, beq_iff_eq, and_assoc]
      exact and_congr_right fun _ => and_comm
    rw [hfree, hkeep, Bool.and_true]
    exact if_congr hmWb rfl rfl

end ExecuteStage

namespace InstructionDecodeStage

/-- A read port delivers the register after the write back of this cycle. -/
theorem forwardWriteBack_eq (mWb : MWBRegisters) (registers : Registers) (rs : RegNumber) :
    forwardWriteBack mWb rs true (registers.readRegister rs) =
      (mWb.commit registers).readRegister rs := by
  rw [MWBRegisters.readRegister_commit]
  refine if_congr ?_ rfl rfl
  simp only [Bool.and_true, Bool.and_eq_true, bne_iff_ne, beq_iff_eq, and_assoc]
  exact and_congr_right fun _ => and_comm

end InstructionDecodeStage

end Rv64Emu
