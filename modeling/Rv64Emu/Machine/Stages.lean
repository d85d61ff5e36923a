import Rv64Emu.Machine.Memory
import Rv64Emu.Machine.RegisterFile
import Rv64Emu.Machine.Decoder
import Rv64Emu.Machine.Alu

/-! The five pipeline stages. Every stage is a record of its private buffers;
`propagate` and `clockPulse` act on the whole processor, because the stages
share the program counter, the decoder, the register file, the bus, the
pipeline registers and the control lines by reference. -/
namespace Rv64Emu

structure ControlSignals where
  regWrite : Bool := false
  aluSrc : Bool := false
  memRead : Bool := false
  memWrite : Bool := false
  memToReg : Bool := false
  branch : Bool := false
  jump : Bool := false
  aluOp : ALUOp := .nop
  memSize : BitVec 8 := 0
  memSignExtend : Bool := false
  deriving DecidableEq

namespace ControlSignals

def opALUOp (funct3 : BitVec 3) (funct7 : BitVec 7) : ALUOp :=
  if funct3 = 0x0 ∧ funct7 = 0x00 then .add
  else if funct3 = 0x0 ∧ funct7 = 0x20 then .sub
  else if funct3 = 0x1 ∧ funct7 = 0x00 then .sll
  else if funct3 = 0x2 ∧ funct7 = 0x00 then .slt
  else if funct3 = 0x3 ∧ funct7 = 0x00 then .sltu
  else if funct3 = 0x4 ∧ funct7 = 0x00 then .xor
  else if funct3 = 0x5 ∧ funct7 = 0x00 then .srl
  else if funct3 = 0x5 ∧ funct7 = 0x20 then .sra
  else if funct3 = 0x6 ∧ funct7 = 0x00 then .or
  else if funct3 = 0x7 ∧ funct7 = 0x00 then .and
  else .nop

def opImmALUOp (funct3 : BitVec 3) (funct7 : BitVec 7) : ALUOp :=
  if funct3 = 0x0 then .add
  else if funct3 = 0x2 then .slt
  else if funct3 = 0x3 then .sltu
  else if funct3 = 0x4 then .xor
  else if funct3 = 0x6 then .or
  else if funct3 = 0x7 then .and
  else if funct3 = 0x1 ∧ funct7 = 0x00 then .sll
  else if funct3 = 0x5 ∧ funct7 = 0x00 then .srl
  else if funct3 = 0x5 ∧ funct7 = 0x20 then .sra
  else .nop

def op32ALUOp (funct3 : BitVec 3) (funct7 : BitVec 7) : ALUOp :=
  if funct3 = 0x0 ∧ funct7 = 0x00 then .addw
  else if funct3 = 0x0 ∧ funct7 = 0x20 then .subw
  else if funct3 = 0x1 ∧ funct7 = 0x00 then .sllw
  else if funct3 = 0x5 ∧ funct7 = 0x00 then .srlw
  else if funct3 = 0x5 ∧ funct7 = 0x20 then .sraw
  else .nop

def opImm32ALUOp (funct3 : BitVec 3) (funct7 : BitVec 7) : ALUOp :=
  if funct3 = 0x0 then .addw
  else if funct3 = 0x1 ∧ funct7 = 0x00 then .sllw
  else if funct3 = 0x5 ∧ funct7 = 0x00 then .srlw
  else if funct3 = 0x5 ∧ funct7 = 0x20 then .sraw
  else .nop

/-- `memSize` and `memSignExtend` of a load; zero is the unset default. -/
def loadAccess (funct3 : BitVec 3) : BitVec 8 × Bool :=
  if funct3 = 0x0 then (1, true)
  else if funct3 = 0x1 then (2, true)
  else if funct3 = 0x2 then (4, true)
  else if funct3 = 0x3 then (8, false)
  else if funct3 = 0x4 then (1, false)
  else if funct3 = 0x5 then (2, false)
  else if funct3 = 0x6 then (4, false)
  else (0, false)

def storeSize (funct3 : BitVec 3) : BitVec 8 :=
  if funct3 = 0x0 then 1
  else if funct3 = 0x1 then 2
  else if funct3 = 0x2 then 4
  else if funct3 = 0x3 then 8
  else 0

def setFromInstruction (decoder : InstructionDecoder) : ControlSignals :=
  let funct3 := decoder.getFunct3
  let funct7 := decoder.getFunct7
  match decoder.getOpcode with
  | .op => { regWrite := true, aluOp := opALUOp funct3 funct7 }
  | .opImm => { regWrite := true, aluSrc := true, aluOp := opImmALUOp funct3 funct7 }
  | .op32 => { regWrite := true, aluOp := op32ALUOp funct3 funct7 }
  | .opImm32 => { regWrite := true, aluSrc := true, aluOp := opImm32ALUOp funct3 funct7 }
  | .load =>
    { regWrite := true, aluSrc := true, memRead := true, memToReg := true, aluOp := .add
      memSize := (loadAccess funct3).1, memSignExtend := (loadAccess funct3).2 }
  | .store => { aluSrc := true, memWrite := true, aluOp := .add, memSize := storeSize funct3 }
  | .branch => { branch := true, aluOp := .sub }
  | .jal | .jalr => { regWrite := true, jump := true, aluOp := .add, aluSrc := true }
  | .lui | .auipc => { regWrite := true, aluSrc := true, aluOp := .add }
  | .unlisted _ => {}

end ControlSignals

structure PipelineControl where
  stallFetch : Bool := false
  insertDecodeBubble : Bool := false
  flushFetch : Bool := false
  flushDecode : Bool := false
  deriving DecidableEq

structure IFIDRegisters where
  pc : MemAddress := 0
  instructionWord : InstructionWord := nopInstruction
  deriving DecidableEq

structure IDEXRegisters where
  pc : MemAddress := 0
  readData1 : RegValue := 0
  readData2 : RegValue := 0
  immediate : BitVec 64 := 0
  rd : RegNumber := 0
  rs1 : RegNumber := 0
  rs2 : RegNumber := 0
  opcode : Opcode := .op
  funct3 : BitVec 3 := 0
  control : ControlSignals := {}
  deriving DecidableEq

structure EXMRegisters where
  pc : MemAddress := 0
  aluResult : RegValue := 0
  writeData : RegValue := 0
  rd : RegNumber := 0
  control : ControlSignals := {}
  deriving DecidableEq

structure MWBRegisters where
  pc : MemAddress := 0
  aluResult : RegValue := 0
  memData : RegValue := 0
  rd : RegNumber := 0
  control : ControlSignals := {}
  deriving DecidableEq

/-- The value an instruction in write back is about to write. -/
def MWBRegisters.wbValue (mWb : MWBRegisters) : RegValue :=
  if mWb.control.memToReg then mWb.memData else mWb.aluResult

structure InstructionFetchStage where
  instructionMemory : InstructionMemory := {}
  fetchPC : MemAddress := 0
  fetchedInstruction : InstructionWord := 0
  endMarkerSeen : Bool := false
  endMarkerCountdown : Int := 0
  endMarkerPC : MemAddress := 0
  deriving DecidableEq

structure InstructionDecodeStage where
  pc : MemAddress := 0
  instructionWord : InstructionWord := 0
  decodedControl : ControlSignals := {}
  readData1 : RegValue := 0
  readData2 : RegValue := 0
  deriving DecidableEq

structure ExecuteStage where
  alu : ALU := {}
  pcWriteEnable : Bool := false
  nextPC : MemAddress := 0
  pc : MemAddress := 0
  aluResult : RegValue := 0
  writeData : RegValue := 0
  nextRD : RegNumber := 0
  nextControl : ControlSignals := {}
  deriving DecidableEq

structure MemoryStage where
  dataMemory : DataMemory := {}
  pc : MemAddress := 0
  aluResult : RegValue := 0
  memData : RegValue := 0
  nextRD : RegNumber := 0
  nextControl : ControlSignals := {}
  deriving DecidableEq

/-- There is a first stage. -/
instance neZero_stages : NeZero 5 := ⟨by decide⟩

/-- The state of a `Processor` together with its `Pipeline` and stages. The
debug flag only selects output and is left out. -/
structure Processor where
  nCycles : BitVec 64 := 0
  regfile : RegisterFile
  decoder : InstructionDecoder := ⟨0⟩
  bus : MemoryBus
  pc : MemAddress
  pipelining : Bool
  currentStage : Fin 5 := 0
  nInstrIssued : BitVec 64 := 0
  nInstrCompleted : BitVec 64 := 0
  nStalls : BitVec 64 := 0
  fetch : InstructionFetchStage := {}
  decode : InstructionDecodeStage := {}
  execute : ExecuteStage := {}
  memory : MemoryStage := {}
  ifId : IFIDRegisters := {}
  idEx : IDEXRegisters := {}
  exM : EXMRegisters := {}
  mWb : MWBRegisters := {}
  controlSignals : PipelineControl := {}
  deriving DecidableEq

/-- A step that may throw; the state at the throw is kept. -/
abbrev Action := EStateM Exception Processor

def onBus (act : EStateM Exception MemoryBus α) : Action α := fun s =>
  match act s.bus with
  | .ok a bus => .ok a { s with bus := bus }
  | .error e bus => .error e { s with bus := bus }

def instructionUsesRS2 : Opcode → Bool
  | .op | .op32 | .store | .branch => true
  | _ => false

/-! ### Instruction fetch -/
namespace InstructionFetchStage

/-- The body of the `try` block. -/
def fetchInstruction : Action Unit := do
  let s ← get
  let im ← liftExcept ((s.fetch.instructionMemory.setAddress s.pc).setSize 4)
  set { s with fetch := { s.fetch with instructionMemory := im } }
  let instructionWord := (← onBus im.getValue).setWidth 32
  if instructionWord = testEndMarker then
    if s.pipelining then
      modify fun s => { s with
        fetch := { s.fetch with
          endMarkerSeen := true
          endMarkerCountdown := 5
          endMarkerPC := s.pc
          fetchPC := s.pc
          fetchedInstruction := nopInstruction }
        controlSignals := { s.controlSignals with flushFetch := true } }
    else throw (.testEndMarkerEncountered s.pc)
  else
    modify fun s => { s with
      fetch := { s.fetch with fetchPC := s.pc, fetchedInstruction := instructionWord } }

def propagate : Action Unit := do
  let s ← get
  if s.fetch.endMarkerSeen then
    set { s with fetch := { s.fetch with fetchPC := s.pc, fetchedInstruction := nopInstruction } }
  else
    tryCatch fetchInstruction fun e =>
      match e with
      | .testEndMarkerEncountered _ => throw e
      | e => if e.isCatchable then throw (.instructionFetchFailure s.pc) else throw e

/-- The fetch latch of non-pipelined mode. -/
def latchedAlone (s : Processor) : Processor :=
  { s with
    ifId := { pc := s.pc, instructionWord := s.fetch.fetchedInstruction }
    pc := s.pc + 4 }

/-- The fetch latch of pipelined mode: flushed, written or held. -/
def latched (s : Processor) : Processor :=
  if s.controlSignals.flushFetch then { s with ifId := {} }
  else if !s.controlSignals.stallFetch && !s.fetch.endMarkerSeen then
    { s with
      ifId := { pc := s.fetch.fetchPC, instructionWord := s.fetch.fetchedInstruction }
      pc := s.pc + 4 }
  else s

def countedDown (s : Processor) : Processor :=
  { s with fetch := { s.fetch with endMarkerCountdown := s.fetch.endMarkerCountdown - 1 } }

def clockPulse : Action Unit := do
  let s ← get
  if !s.pipelining then
    set (latchedAlone s)
    if s.fetch.endMarkerSeen && decide (s.fetch.endMarkerCountdown ≤ 0) then
      throw (.testEndMarkerEncountered s.fetch.endMarkerPC)
  else
    set (latched s)
    if s.fetch.endMarkerSeen then
      if s.fetch.endMarkerCountdown > 0 then modify countedDown
      else throw (.testEndMarkerEncountered s.fetch.endMarkerPC)

end InstructionFetchStage

/-! ### Instruction decode -/
namespace InstructionDecodeStage

/-- The value of a read port, with the value about to be written back. -/
def forwardWriteBack (mWb : MWBRegisters) (rs : RegNumber) (used : Bool) (readData : RegValue) :
    RegValue :=
  if mWb.control.regWrite && mWb.rd != 0 && used && mWb.rd == rs then mWb.wbValue else readData

/-- A load in EX whose target the decoded instruction names as a source. -/
def hazard (idEx : IDEXRegisters) (decoder : InstructionDecoder) : Bool :=
  idEx.control.memRead && idEx.rd != 0 &&
    (idEx.rd == decoder.getRS1 ||
      (instructionUsesRS2 decoder.getOpcode && idEx.rd == decoder.getRS2))

def propagate (s : Processor) : Processor :=
  let decoder := s.decoder.setInstructionWord s.ifId.instructionWord
  let regfile := (s.regfile.setRS1 decoder.getRS1).setRS2 decoder.getRS2
  let readData1 := regfile.getReadData1
  let readData2 := regfile.getReadData2
  let usesRS2 := instructionUsesRS2 decoder.getOpcode
  let stall := s.pipelining && hazard s.idEx decoder
  { s with
    decoder := decoder
    regfile := regfile
    decode := {
      pc := s.ifId.pc
      instructionWord := s.ifId.instructionWord
      decodedControl := ControlSignals.setFromInstruction decoder
      readData1 :=
        if s.pipelining then forwardWriteBack s.mWb decoder.getRS1 true readData1 else readData1
      readData2 :=
        if s.pipelining then forwardWriteBack s.mWb decoder.getRS2 usesRS2 readData2
        else readData2 }
    controlSignals := if stall then
        { s.controlSignals with stallFetch := true, insertDecodeBubble := true }
      else s.controlSignals }

/-- The pipeline register write; the decoder may throw half way. -/
def issue : Action Unit := do
  modify fun s => { s with
    nInstrIssued :=
      if !s.pipelining || (s.pipelining && s.decode.pc != 0) then s.nInstrIssued + 1
      else s.nInstrIssued
    idEx := { s.idEx with
      pc := s.decode.pc
      readData1 := s.decode.readData1
      readData2 := s.decode.readData2 } }
  let immediate ← liftExcept (← get).decoder.getImmediate
  modify fun s => { s with
    idEx := { s.idEx with
      immediate := immediate
      rd := s.decoder.getRD
      rs1 := s.decoder.getRS1
      rs2 := s.decoder.getRS2
      opcode := s.decoder.getOpcode
      funct3 := s.decoder.getFunct3
      control := s.decode.decodedControl } }

def clockPulse : Action Unit := do
  let s ← get
  if s.pipelining && s.controlSignals.flushDecode then
    set { s with idEx := {} }
  else if s.pipelining && s.controlSignals.insertDecodeBubble then
    set { s with nStalls := s.nStalls + 1, idEx := {} }
  else issue

end InstructionDecodeStage

/-! ### Execute -/
namespace ExecuteStage

def exStageCanForward (exM : EXMRegisters) : Bool :=
  exM.control.regWrite && !exM.control.memToReg && exM.rd != 0

/-- One source operand after forwarding from EX/M, else from M/WB. -/
def forwardOperand (exM : EXMRegisters) (mWb : MWBRegisters) (rs : RegNumber)
    (readData : RegValue) : RegValue :=
  let value := if exStageCanForward exM && exM.rd == rs then exM.aluResult else readData
  if mWb.control.regWrite && mWb.rd != 0 && mWb.rd == rs &&
      (!exStageCanForward exM || exM.rd != rs) then mWb.wbValue
  else value

def evaluateBranch (funct3 : BitVec 3) (lhs rhs : RegValue) : Bool :=
  if funct3 = 0x0 then lhs == rhs
  else if funct3 = 0x1 then lhs != rhs
  else if funct3 = 0x4 then lhs.slt rhs
  else if funct3 = 0x5 then !lhs.slt rhs
  else if funct3 = 0x6 then lhs.ult rhs
  else if funct3 = 0x7 then !lhs.ult rhs
  else false

def computePCRelativeTarget (base : MemAddress) (offset : BitVec 64) : MemAddress := base + offset

/-- The ALU inputs selected for an instruction. -/
def aluInputs (idEx : IDEXRegisters) (rs1Value rs2Value : RegValue) : ALU :=
  { a := match idEx.opcode with
      | .auipc => idEx.pc
      | .lui => 0
      | _ => rs1Value
    b := if idEx.control.aluSrc then idEx.immediate else rs2Value
    op := idEx.control.aluOp }

def resultOf (idEx : IDEXRegisters) (rs1Value rs2Value : RegValue) : RegValue :=
  if idEx.control.jump then idEx.pc + 4
  else if idEx.opcode = .auipc then computePCRelativeTarget idEx.pc idEx.immediate
  else (aluInputs idEx rs1Value rs2Value).getResult

/-- `some nextPC` when `pcWriteEnable` is raised. -/
def redirectOf (idEx : IDEXRegisters) (rs1Value rs2Value : RegValue) : Option MemAddress :=
  if idEx.control.jump then
    match idEx.opcode with
    | .jal => some (computePCRelativeTarget idEx.pc idEx.immediate)
    | .jalr => some ((rs1Value + idEx.immediate) &&& ~~~1)
    | _ => some (idEx.pc + 4)
  else if idEx.control.branch && evaluateBranch idEx.funct3 rs1Value rs2Value then
    some (computePCRelativeTarget idEx.pc idEx.immediate)
  else none

def rs1Value (s : Processor) : RegValue :=
  if s.pipelining then forwardOperand s.exM s.mWb s.idEx.rs1 s.idEx.readData1
  else s.idEx.readData1

def rs2Value (s : Processor) : RegValue :=
  if s.pipelining then forwardOperand s.exM s.mWb s.idEx.rs2 s.idEx.readData2
  else s.idEx.readData2

def propagate (s : Processor) : Processor :=
  let redirect := redirectOf s.idEx (rs1Value s) (rs2Value s)
  { s with
    execute := {
      alu := aluInputs s.idEx (rs1Value s) (rs2Value s)
      pcWriteEnable := redirect.isSome
      nextPC := redirect.getD 0
      pc := s.idEx.pc
      aluResult := resultOf s.idEx (rs1Value s) (rs2Value s)
      writeData := rs2Value s
      nextRD := s.idEx.rd
      nextControl := s.idEx.control }
    controlSignals := if redirect.isSome then
        { s.controlSignals with flushFetch := true, flushDecode := true }
      else s.controlSignals }

def clockPulse (s : Processor) : Processor :=
  { s with
    exM := {
      pc := s.execute.pc
      aluResult := s.execute.aluResult
      writeData := s.execute.writeData
      rd := s.execute.nextRD
      control := s.execute.nextControl }
    pc := if s.execute.pcWriteEnable then s.execute.nextPC else s.pc
    execute := { s.execute with pcWriteEnable := false } }

end ExecuteStage

/-! ### Memory -/
namespace MemoryStage

/-- The stage buffers filled from EX/M, with the enable lines reset. -/
def buffered (s : Processor) : Processor :=
  { s with
    memory := {
      dataMemory := (s.memory.dataMemory.setReadEnable false).setWriteEnable false
      pc := s.exM.pc
      aluResult := s.exM.aluResult
      memData := 0
      nextRD := s.exM.rd
      nextControl := s.exM.control } }

def withDataMemory (s : Processor) (dm : DataMemory) : Processor :=
  { s with memory := { s.memory with dataMemory := dm } }

/-- Configure the data memory for the instruction in EX/M. -/
def configure : Action Unit := do
  modify fun s => withDataMemory s (s.memory.dataMemory.setAddress s.exM.aluResult)
  let s ← get
  let dm ← liftExcept (s.memory.dataMemory.setSize s.exM.control.memSize)
  set (withDataMemory s (((dm.setDataIn s.exM.writeData).setReadEnable
    s.exM.control.memRead).setWriteEnable s.exM.control.memWrite))

/-- Read from memory if needed. -/
def load : Action Unit := do
  let s ← get
  if s.exM.control.memRead then
    let memData ← onBus (s.memory.dataMemory.getDataOut s.exM.control.memSignExtend)
    modify fun s => { s with memory := { s.memory with memData := memData } }

def propagate : Action Unit := do
  modify buffered
  let s ← get
  if s.exM.control.memRead || s.exM.control.memWrite then
    configure
    load

def latched (s : Processor) : Processor :=
  { s with
    mWb := {
      pc := s.memory.pc
      aluResult := s.memory.aluResult
      memData := s.memory.memData
      rd := s.memory.nextRD
      control := s.memory.nextControl } }

def clockPulse : Action Unit := do
  onBus (← get).memory.dataMemory.clockPulse
  modify latched

end MemoryStage

/-! ### Write back -/
namespace WriteBackStage

def propagate (s : Processor) : Processor :=
  { s with
    nInstrCompleted :=
      if !s.pipelining || (s.pipelining && s.mWb.pc != 0) then s.nInstrCompleted + 1
      else s.nInstrCompleted
    regfile := ((s.regfile.setRD s.mWb.rd).setWriteEnable s.mWb.control.regWrite).setWriteData
      s.mWb.wbValue }

def clockPulse (s : Processor) : Processor := { s with regfile := s.regfile.clockPulse }

end WriteBackStage

end Rv64Emu
