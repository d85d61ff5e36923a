import Rv64Emu.Pipelined.Flight
import Rv64Emu.Machine.Fields
import Rv64Emu.Library.Rv64i

/-! The load-use interlock of ID against the registers that an instruction
reads. The rs2 field counts only where it is a register number; the rs1 field
counts always. -/
namespace Rv64Emu.Interlock

open Processor

/-- Opcodes with a register number in the rs1 field. -/
def readsRS1 : Opcode → Bool
  | .lui | .auipc | .jal => false
  | _ => true

/-- Opcodes with a register number in the rs2 field. -/
def readsRS2 : Opcode → Bool
  | .op | .op32 | .store | .branch => true
  | _ => false

/-- The instruction reads the register. -/
def Reads (word : InstructionWord) (regnum : RegNumber) : Prop :=
  (readsRS1 (InstructionDecoder.getOpcode ⟨word⟩) = true ∧ word.extractLsb' 15 5 = regnum) ∨
    (readsRS2 (InstructionDecoder.getOpcode ⟨word⟩) = true ∧ word.extractLsb' 20 5 = regnum)

/-- EX holds a load, and of which register. -/
def LoadsInEX (s : Processor) : Prop := s.idEx.opcode = .load ∧ s.idEx.rd ≠ 0

/-- ID raises both stall lines for a load-use pair, and otherwise neither. -/
def Exact (s : Processor) : Prop :=
  ∀ fetch bytesRead marker,
    let control := (InstructionDecodeStage.propagate
      (fed s fetch bytesRead marker)).controlSignals
    (control.stallFetch = true ↔ LoadsInEX s ∧ Reads s.ifId.instructionWord s.idEx.rd) ∧
      (control.insertDecodeBubble = true ↔
        LoadsInEX s ∧ Reads s.ifId.instructionWord s.idEx.rd)

/-- The immediate in ID looks like the target of the load in EX. -/
def NamesImmediate (s : Processor) : Prop :=
  LoadsInEX s ∧ readsRS1 (InstructionDecoder.getOpcode ⟨s.ifId.instructionWord⟩) = false ∧
    s.ifId.instructionWord.extractLsb' 15 5 = s.idEx.rd

theorem instructionUsesRS2_eq (opcode : Opcode) :
    instructionUsesRS2 opcode = readsRS2 opcode := by
  cases opcode <;> rfl

theorem readsRS2_of_immediate {opcode : Opcode} (h : readsRS1 opcode = false) :
    readsRS2 opcode = false := by
  cases opcode with
  | lui | auipc | jal => rfl
  | _ => cases h

theorem memRead_setFromInstruction (decoder : InstructionDecoder) :
    (ControlSignals.setFromInstruction decoder).memRead = true ↔ decoder.getOpcode = .load := by
  unfold ControlSignals.setFromInstruction
  cases decoder.getOpcode <;> simp

/-! ### The instruction in EX -/

/-- ID/EX holds the control lines of its opcode. -/
structure Labelled (s : Processor) : Prop where
  pipelining : s.pipelining = true
  memRead : s.idEx.control.memRead = true ↔ s.idEx.opcode = .load

theorem labelled_boot (program : Program) (registers : Registers) :
    Labelled (boot program true registers) where
  pipelining := rfl
  memRead := show false = true ↔ Opcode.op = .load by decide

theorem Labelled.next {s t : Processor} (h : Labelled s) (hnext : next s = some t) :
    Labelled t := by
  have hcycle := pipelinedCycle_of_next h.pipelining hnext
  refine ⟨hcycle.pipelining, ?_⟩
  obtain ⟨-, hbubble⟩ | ⟨-, -, immediate, readData2, -, -, hidEx⟩ :=
    Backend.issue_cases h.pipelining hcycle.toBackendCycle
  · rw [hbubble]
    decide
  · rw [hidEx]
    exact memRead_setFromInstruction _

theorem labelled {program : Program} {registers : Registers} {n : Nat} {s : Processor}
    (h : Runs.steps next n (boot program true registers) = some s) : Labelled s :=
  Runs.steps_invariant (fun _ _ hs hstep => hs.next hstep) (labelled_boot program registers) h

/-! ### The lines -/

theorem stalls_iff {s : Processor} (h : Labelled s) :
    s.stalls = true ↔ LoadsInEX s ∧
      (s.ifId.instructionWord.extractLsb' 15 5 = s.idEx.rd ∨
        (readsRS2 (InstructionDecoder.getOpcode ⟨s.ifId.instructionWord⟩) = true ∧
          s.ifId.instructionWord.extractLsb' 20 5 = s.idEx.rd)) := by
  unfold stalls InstructionDecodeStage.hazard LoadsInEX
  rw [InstructionDecoder.getRS1_eq, InstructionDecoder.getRS2_eq, instructionUsesRS2_eq,
    ← h.memRead]
  simp only [Bool.and_eq_true, Bool.or_eq_true, bne_iff_ne, beq_iff_eq]
  rw [eq_comm (a := s.idEx.rd), eq_comm (a := s.idEx.rd)]

theorem control_of_fed {s : Processor} (hp : s.pipelining = true) (fetch : InstructionFetchStage)
    (bytesRead : BitVec 64) (marker : Bool) :
    (InstructionDecodeStage.propagate (fed s fetch bytesRead marker)).controlSignals =
      { stallFetch := s.stalls, insertDecodeBubble := s.stalls, flushFetch := marker } := by
  rw [InstructionDecodeStage.propagate_control]
  change ({ stallFetch := false || InstructionDecodeStage.stalls s
            insertDecodeBubble := false || InstructionDecodeStage.stalls s
            flushFetch := marker } : PipelineControl) = _
  rw [stalls_eq hp]
  rfl

theorem exact_iff_stalls {s : Processor} (hp : s.pipelining = true) :
    Exact s ↔ (s.stalls = true ↔ LoadsInEX s ∧ Reads s.ifId.instructionWord s.idEx.rd) := by
  constructor
  · intro h
    have hlines := (h {} 0 false).1
    rw [control_of_fed hp] at hlines
    exact hlines
  · intro h fetch bytesRead marker
    rw [control_of_fed hp]
    exact ⟨h, h⟩

theorem exact_iff {program : Program} {registers : Registers} {n : Nat} {s : Processor}
    (hs : Runs.steps next n (boot program true registers) = some s) :
    Exact s ↔ ¬NamesImmediate s := by
  have hlabelled := labelled hs
  rw [exact_iff_stalls hlabelled.pipelining, stalls_iff hlabelled]
  unfold Reads NamesImmediate
  cases hreads : readsRS1 (InstructionDecoder.getOpcode ⟨s.ifId.instructionWord⟩) with
  | true => simp
  | false =>
    -- Where rs1 is no register number, rs2 is none either.
    rw [readsRS2_of_immediate hreads]
    simp

/-- `ld x1, 0(x1)`, then `lui x2, 0x8`: bits 19 to 15 of the second word are 1. -/
def loadThenUpper : Program :=
  { memories := [Memory.ofWords false 0x1000 [0x0000b083, 0x00008137]]
    entrypoint := 0x1000 }

/-- LUI waits for a load whose target it does not read. -/
theorem loadThenUpper_stalls : ¬∀ (program : Program) (registers : Registers) (n : Nat)
    (s : Processor), Runs.steps next n (boot program true registers) = some s →
    Rv64i.isLegal s.ifId.instructionWord = true → Exact s := by
  intro h
  have hend : (Runs.steps next 2 (boot loadThenUpper true (Vector.replicate 31 0x1000))).map
      (fun s => (s.ifId.instructionWord, s.stalls)) = some (0x00008137, true) := by
    decide +kernel
  obtain ⟨s, hs, hpair⟩ := Option.map_eq_some_iff.mp hend
  obtain ⟨hword, hstalls⟩ := Prod.mk.inj hpair
  have hexact := h _ _ _ _ hs (by rw [hword]; decide +kernel)
  obtain ⟨-, hreads⟩ := ((exact_iff_stalls (labelled hs).pipelining).mp hexact).mp hstalls
  rw [hword] at hreads
  obtain ⟨hrs1, -⟩ | ⟨hrs2, -⟩ := hreads
  · exact absurd hrs1 (by decide)
  · exact absurd hrs2 (by decide)

/-- `ld x1, 0(x1)`, then `addi x2, x1, 1`. -/
def loadThenUse : Program :=
  { memories := [Memory.ofWords false 0x1000 [0x0000b083, 0x00108113]]
    entrypoint := 0x1000 }

theorem exact_iff_loadThenUse :
    ∃ s, Runs.steps next 2 (boot loadThenUse true (Vector.replicate 31 0x1000)) = some s ∧
      s.stalls = true ∧ (Exact s ↔ ¬NamesImmediate s) := by
  have hend : (Runs.steps next 2 (boot loadThenUse true (Vector.replicate 31 0x1000))).map
      stalls = some true := by decide +kernel
  obtain ⟨s, hs, hstalls⟩ := Option.map_eq_some_iff.mp hend
  exact ⟨s, hs, hstalls, exact_iff hs⟩

end Rv64Emu.Interlock
