import Rv64Emu.Library.Rv64i
import Rv64Emu.Machine.Fields
import Rv64Emu.Sequential.Effect

/-! Branches and jumps against RV64I. IF has already moved the program counter
to the next word when EX redirects it, and the link is the address of the
instruction, as ID has latched it, plus four. -/
namespace Rv64Emu.ControlFlow

open Processor

/-- The branch comparison of EX. -/
theorem evaluateBranch_eq {funct3 : BitVec 3} {condition : Rv64i.Condition}
    (h : Rv64i.branchCondition funct3 = some condition) (lhs rhs : RegValue) :
    ExecuteStage.evaluateBranch funct3 lhs rhs = condition.holds lhs rhs := by
  rcases funct3_cases funct3 with rfl | rfl | rfl | rfl | rfl | rfl | rfl | rfl
  · cases h
    exact Bool.beq_eq_decide_eq lhs rhs
  · cases h
    change (!(lhs == rhs)) = decide (lhs ≠ rhs)
    rw [Bool.beq_eq_decide_eq, decide_not]
  · cases h
  · cases h
  · cases h
    exact BitVec.slt_eq_decide
  · cases h
    change (!lhs.slt rhs) = decide (rhs.toInt ≤ lhs.toInt)
    rw [BitVec.slt_eq_decide, ← decide_not]
    exact decide_eq_decide.mpr Int.not_lt
  · cases h
    exact BitVec.ult_eq_decide
  · cases h
    change (!lhs.ult rhs) = decide (rhs.toNat ≤ lhs.toNat)
    rw [BitVec.ult_eq_decide, ← decide_not]
    exact decide_eq_decide.mpr Nat.not_lt

/-- The fields of a legal encoding are those that the decoder extracts. -/
def Agrees (w : InstructionWord) : Rv64i.Transfer → Prop
  | .branch condition rs1 rs2 offset =>
    InstructionDecoder.getOpcode ⟨w⟩ = .branch ∧
      Rv64i.branchCondition (InstructionDecoder.getFunct3 ⟨w⟩) = some condition ∧
      rs1 = InstructionDecoder.getRS1 ⟨w⟩ ∧ rs2 = InstructionDecoder.getRS2 ⟨w⟩ ∧
      offset = InstructionDecoder.getImmediateB ⟨w⟩
  | .jal rd offset =>
    InstructionDecoder.getOpcode ⟨w⟩ = .jal ∧ rd = InstructionDecoder.getRD ⟨w⟩ ∧
      offset = InstructionDecoder.getImmediateJ ⟨w⟩
  | .jalr rd rs1 offset =>
    InstructionDecoder.getOpcode ⟨w⟩ = .jalr ∧ rd = InstructionDecoder.getRD ⟨w⟩ ∧
      rs1 = InstructionDecoder.getRS1 ⟨w⟩ ∧ offset = InstructionDecoder.getImmediateI ⟨w⟩

theorem agrees_of_decodeTransfer {w : InstructionWord} {i : Rv64i.Transfer}
    (h : Rv64i.decodeTransfer w = some i) : Agrees w i := by
  have hopcode := InstructionDecoder.getOpcode_eq w
  unfold Rv64i.decodeTransfer at h
  simp only at h
  split at h
  · rename_i hbranch
    rw [hbranch] at hopcode
    obtain ⟨condition, hcondition, rfl⟩ := Option.map_eq_some_iff.mp h
    unfold Agrees
    rw [InstructionDecoder.getFunct3_eq, InstructionDecoder.getRS1_eq,
      InstructionDecoder.getRS2_eq, InstructionDecoder.getImmediateB_eq]
    exact ⟨hopcode, hcondition, rfl, rfl, rfl⟩
  · split at h
    · rename_i hjal
      rw [hjal] at hopcode
      cases h
      unfold Agrees
      rw [InstructionDecoder.getRD_eq, InstructionDecoder.getImmediateJ_eq]
      exact ⟨hopcode, rfl, rfl⟩
    · split at h
      · rename_i hjalr
        rw [hjalr] at hopcode
        split at h
        · cases h
          unfold Agrees
          rw [InstructionDecoder.getRD_eq, InstructionDecoder.getRS1_eq,
            InstructionDecoder.getImmediateI_eq]
          exact ⟨hopcode, rfl, rfl, rfl⟩
        · cases h
      · cases h

theorem getImmediate_jalr {w : InstructionWord}
    (hopcode : InstructionDecoder.getOpcode ⟨w⟩ = .jalr) :
    InstructionDecoder.getImmediate ⟨w⟩ = .ok (InstructionDecoder.getImmediateI ⟨w⟩) := by
  unfold InstructionDecoder.getImmediate InstructionDecoder.getInstructionType
  rw [hopcode]
  rfl

section

variable {σ : ArchState} {w : InstructionWord} (hfetch : σ.fetch = .ok w)

include hfetch

theorem step_of_branch (hopcode : InstructionDecoder.getOpcode ⟨w⟩ = .branch) :
    σ.step = .ok
      { registers := σ.registers
        pc := if ExecuteStage.evaluateBranch (InstructionDecoder.getFunct3 ⟨w⟩)
            (σ.registers.readRegister (InstructionDecoder.getRS1 ⟨w⟩))
            (σ.registers.readRegister (InstructionDecoder.getRS2 ⟨w⟩)) then
          σ.pc + InstructionDecoder.getImmediateB ⟨w⟩ else σ.pc + 4
        clients := σ.clients } := by
  have himm : InstructionDecoder.getImmediate ⟨w⟩ = .ok (InstructionDecoder.getImmediateB ⟨w⟩) := by
    unfold InstructionDecoder.getImmediate InstructionDecoder.getInstructionType
    rw [hopcode]
    rfl
  have hcontrol : ControlSignals.setFromInstruction ⟨w⟩ = { branch := true, aluOp := .sub } := by
    unfold ControlSignals.setFromInstruction
    rw [hopcode]
  have hdecode := ArchState.decode_ok_iff.mpr ⟨w, hfetch, decodeAt_ok_iff.mpr ⟨_, himm, rfl⟩⟩
  rw [hcontrol] at hdecode
  refine ArchState.step_of_noResult hdecode rfl rfl rfl rfl ?_
  unfold ArchState.nextPC ExecuteStage.redirectOf
  simp only [Bool.false_eq_true, if_false, Bool.true_and]
  split
  · rfl
  · rfl

/-- The two jumps differ in their targets only. -/
theorem step_of_jump {immediate : BitVec 64} {target : MemAddress}
    (hopcode : InstructionDecoder.getOpcode ⟨w⟩ = .jal ∨
      InstructionDecoder.getOpcode ⟨w⟩ = .jalr)
    (himm : InstructionDecoder.getImmediate ⟨w⟩ = .ok immediate)
    (htarget : target = if InstructionDecoder.getOpcode ⟨w⟩ = .jal then σ.pc + immediate
      else (σ.registers.readRegister (InstructionDecoder.getRS1 ⟨w⟩) + immediate) &&& ~~~1) :
    σ.step = .ok
      { registers := σ.registers.writeRegister (InstructionDecoder.getRD ⟨w⟩) (σ.pc + 4)
        pc := target
        clients := σ.clients } := by
  have hcontrol : ControlSignals.setFromInstruction ⟨w⟩ =
      { regWrite := true, jump := true, aluOp := .add, aluSrc := true } := by
    unfold ControlSignals.setFromInstruction
    obtain hjal | hjalr := hopcode
    · rw [hjal]
    · rw [hjalr]
  have hdecode := ArchState.decode_ok_iff.mpr ⟨w, hfetch, decodeAt_ok_iff.mpr ⟨_, himm, rfl⟩⟩
  rw [hcontrol] at hdecode
  refine ArchState.step_of_result hdecode rfl rfl rfl rfl rfl ?_
  rw [htarget]
  unfold ArchState.nextPC ExecuteStage.redirectOf
  obtain hjal | hjalr := hopcode
  · rw [hjal]
    rfl
  · rw [hjalr]
    rfl

end

/-- What EX and WB do for a legal encoding. -/
theorem step_of_decodeTransfer {σ : ArchState} {w : InstructionWord} {i : Rv64i.Transfer}
    (h : Rv64i.decodeTransfer w = some i) (hfetch : σ.fetch = .ok w) :
    σ.step = .ok
      { registers := σ.registers.writeRegister i.link (σ.pc + 4)
        pc := i.target σ.pc σ.registers.readRegister
        clients := σ.clients } := by
  have hagrees := agrees_of_decodeTransfer h
  cases i with
  | branch condition rs1 rs2 offset =>
    obtain ⟨hopcode, hcondition, rfl, rfl, rfl⟩ := hagrees
    rw [step_of_branch hfetch hopcode, evaluateBranch_eq hcondition]
    rfl
  | jal rd offset =>
    obtain ⟨hopcode, rfl, rfl⟩ := hagrees
    have himm :
        InstructionDecoder.getImmediate ⟨w⟩ = .ok (InstructionDecoder.getImmediateJ ⟨w⟩) := by
      unfold InstructionDecoder.getImmediate InstructionDecoder.getInstructionType
      rw [hopcode]
      rfl
    refine step_of_jump hfetch (.inl hopcode) himm ?_
    rw [if_pos hopcode]
    rfl
  | jalr rd rs1 offset =>
    obtain ⟨hopcode, rfl, rfl, rfl⟩ := hagrees
    refine step_of_jump hfetch (.inr hopcode) (getImmediate_jalr hopcode) ?_
    rw [if_neg (by rw [hopcode]; decide)]
    rfl

/-! ### The next five cycles -/

/-- The next five cycles do what RV64I prescribes for `i` and nothing else. -/
def MatchesTransfer (s : Processor) (i : Rv64i.Transfer) : Prop :=
  Writes s i.link (s.pc + 4) (i.target s.pc s.regfile.registers.readRegister)

theorem matchesTransfer {program : Program} {registers : Registers} {s : Processor}
    {word : InstructionWord} {i : Rv64i.Transfer} (hs : Boundary program registers s)
    (hword : s.bus.clients.fetchWord s.pc = .ok word)
    (hdecode : Rv64i.decodeTransfer word = some i) : MatchesTransfer s i := by
  obtain ⟨hstage, hhalt, hfetch⟩ := hs.fetch hword (by decide +kernel) hdecode
  exact (writes_iff hstage hhalt (step_of_decodeTransfer hdecode hfetch)).mpr ⟨rfl, .inl rfl⟩

/-- `jalr x1, 8(x1)`: the base is the link register. -/
def linkToBase : Program :=
  { memories := [Memory.ofWords false 0x1000 [0x008080e7]]
    entrypoint := 0x1000 }

/-- The processor with 0x2001 in x1. -/
def linkToBaseBoot : Processor :=
  boot linkToBase false (Registers.writeRegister (Vector.replicate 31 0) 1 0x2001)

theorem matchesTransfer_linkToBase : MatchesTransfer linkToBaseBoot (.jalr 1 1 8) :=
  matchesTransfer
    (boundary_boot linkToBase (Registers.writeRegister (Vector.replicate 31 0) 1 0x2001))
    (show linkToBaseBoot.bus.clients.fetchWord linkToBaseBoot.pc = .ok 0x008080e7 by decide +kernel)
    (by decide +kernel)

end Rv64Emu.ControlFlow
