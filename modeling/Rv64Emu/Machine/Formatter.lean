import Rv64Emu.Machine.Decoder

/-! The disassembler: the text that `operator<<` prints for an instruction word.
Every throw comes before the first character, so the text is either that of
the instruction or the one of the handler. -/
namespace Rv64Emu.Formatter

def formatRegister (reg : RegNumber) : String := "r" ++ toString reg.toNat

def formatImmediate (value : BitVec 64) : String := "$" ++ toString value.toInt

def low16 (word : BitVec 32) : BitVec 16 := (word &&& 0xFFFF).setWidth 16

/-- Computed in 32 bits; the cast widens an unsigned word. -/
def signExtend (value : BitVec 32) (bits : Nat) : BitVec 64 :=
  let mask := (1 : BitVec 32) <<< (bits - 1)
  ((value ^^^ mask) - mask).setWidth 64

def emitBinaryOp (mnemonic : String) (rd rs1 rs2 : RegNumber) : String :=
  mnemonic ++ " " ++ formatRegister rd ++ ", " ++ formatRegister rs1 ++ ", " ++ formatRegister rs2

def emitUnaryOp (mnemonic : String) (rd rs1 : RegNumber) (imm : BitVec 64) : String :=
  mnemonic ++ " " ++ formatRegister rd ++ ", " ++ formatRegister rs1 ++ ", " ++ formatImmediate imm

def emitLoad (mnemonic : String) (rd rs1 : RegNumber) (imm : BitVec 64) : String :=
  mnemonic ++ " " ++ formatRegister rd ++ ", " ++ formatImmediate imm ++ "(" ++
    formatRegister rs1 ++ ")"

def emitStore (mnemonic : String) (rs2 rs1 : RegNumber) (imm : BitVec 64) : String :=
  mnemonic ++ " " ++ formatRegister rs2 ++ ", " ++ formatImmediate imm ++ "(" ++
    formatRegister rs1 ++ ")"

def emitBranch (mnemonic : String) (rs1 rs2 : RegNumber) (imm : BitVec 64) : String :=
  mnemonic ++ " " ++ formatRegister rs1 ++ ", " ++ formatRegister rs2 ++ ", " ++
    formatImmediate imm

def illegal (what : String) : Except Exception String := .error (.illegalInstruction what)

def formatCompressedInstruction (inst : BitVec 16) : Except Exception String := do
  let quadrant := inst &&& 0x3
  let funct3 := (inst >>> 13) &&& 0x7
  let text ←
    if quadrant = 0x0 ∧ funct3 = 0x0 then
      let rd : RegNumber := (((inst >>> 2) &&& 0x7) + 8).setWidth 5
      let imm : BitVec 16 := ((inst >>> 11) &&& 0x3) <<< 4 ||| ((inst >>> 7) &&& 0xF) <<< 6 |||
        ((inst >>> 6) &&& 0x1) <<< 2 ||| ((inst >>> 5) &&& 0x1) <<< 3
      .ok (emitUnaryOp "addi" rd 2 (imm.setWidth 64))
    else if quadrant = 0x1 ∧ funct3 = 0x1 then
      let rd : RegNumber := ((inst >>> 7) &&& 0x1F).setWidth 5
      let imm : BitVec 16 := ((inst >>> 12) &&& 0x1) <<< 5 ||| ((inst >>> 2) &&& 0x1F)
      .ok (emitUnaryOp "addiw" rd rd (signExtend (imm.setWidth 32) 6))
    else if quadrant = 0x2 ∧ funct3 = 0x0 then
      let rd : RegNumber := ((inst >>> 7) &&& 0x1F).setWidth 5
      let shamt : BitVec 16 := ((inst >>> 12) &&& 0x1) <<< 5 ||| ((inst >>> 2) &&& 0x1F)
      .ok (emitUnaryOp "slli" rd rd (shamt.setWidth 64))
    else illegal "Unsupported compressed instruction"
  return text ++ "  \t(compressed)"

def formatOpType (decoder : InstructionDecoder) : Except Exception String :=
  let funct3 := decoder.getFunct3
  let funct7 := decoder.getFunct7
  let emit := fun mnemonic =>
    Except.ok (emitBinaryOp mnemonic decoder.getRD decoder.getRS1 decoder.getRS2)
  let unknown := illegal "Unknown R-type instruction"
  if funct3 = 0x0 then
    if funct7 = 0x00 then emit "add" else if funct7 = 0x20 then emit "sub" else unknown
  else if funct3 = 0x1 then if funct7 = 0x00 then emit "sll" else unknown
  else if funct3 = 0x2 then if funct7 = 0x00 then emit "slt" else unknown
  else if funct3 = 0x3 then if funct7 = 0x00 then emit "sltu" else unknown
  else if funct3 = 0x4 then if funct7 = 0x00 then emit "xor" else unknown
  else if funct3 = 0x5 then
    if funct7 = 0x00 then emit "srl" else if funct7 = 0x20 then emit "sra" else unknown
  else if funct3 = 0x6 then if funct7 = 0x00 then emit "or" else unknown
  else if funct3 = 0x7 then if funct7 = 0x00 then emit "and" else unknown
  else unknown

def formatOp32Type (decoder : InstructionDecoder) : Except Exception String :=
  let funct3 := decoder.getFunct3
  let funct7 := decoder.getFunct7
  let emit := fun mnemonic =>
    Except.ok (emitBinaryOp mnemonic decoder.getRD decoder.getRS1 decoder.getRS2)
  let unknown := illegal "Unknown RV64 R-type instruction"
  if funct3 = 0x0 then
    if funct7 = 0x00 then emit "addw" else if funct7 = 0x20 then emit "subw" else unknown
  else if funct3 = 0x1 then if funct7 = 0x00 then emit "sllw" else unknown
  else if funct3 = 0x5 then
    if funct7 = 0x00 then emit "srlw" else if funct7 = 0x20 then emit "sraw" else unknown
  else unknown

def formatOpImm (decoder : InstructionDecoder) : Except Exception String :=
  let funct3 := decoder.getFunct3
  let funct7 := decoder.getFunct7
  let emit := fun mnemonic imm =>
    Except.ok (emitUnaryOp mnemonic decoder.getRD decoder.getRS1 imm)
  let imm := decoder.getImmediateI
  if funct3 = 0x0 then emit "addi" imm
  else if funct3 = 0x2 then emit "slti" imm
  else if funct3 = 0x3 then emit "sltiu" imm
  else if funct3 = 0x4 then emit "xori" imm
  else if funct3 = 0x6 then emit "ori" imm
  else if funct3 = 0x7 then emit "andi" imm
  else if funct3 = 0x1 then
    if funct7 = 0x00 then emit "slli" (imm &&& 0x3F) else illegal "Unknown shift immediate"
  else if funct3 = 0x5 then
    if funct7 = 0x00 then emit "srli" (imm &&& 0x3F)
    else if funct7 = 0x20 then emit "srai" (imm &&& 0x3F)
    else illegal "Unknown shift immediate"
  else illegal "Unknown immediate instruction"

def formatOpImm32 (decoder : InstructionDecoder) : Except Exception String :=
  let funct3 := decoder.getFunct3
  let funct7 := decoder.getFunct7
  let emit := fun mnemonic imm =>
    Except.ok (emitUnaryOp mnemonic decoder.getRD decoder.getRS1 imm)
  let imm := decoder.getImmediateI
  if funct3 = 0x0 then emit "addiw" imm
  else if funct3 = 0x1 then
    if funct7 = 0x00 then emit "slliw" (imm &&& 0x1F) else illegal "Unknown RV64 shift immediate"
  else if funct3 = 0x5 then
    if funct7 = 0x00 then emit "srliw" (imm &&& 0x1F)
    else if funct7 = 0x20 then emit "sraiw" (imm &&& 0x1F)
    else illegal "Unknown RV64 shift immediate"
  else illegal "Unknown RV64 immediate instruction"

def formatLoad (decoder : InstructionDecoder) : Except Exception String :=
  let funct3 := decoder.getFunct3
  let emit := fun mnemonic =>
    Except.ok (emitLoad mnemonic decoder.getRD decoder.getRS1 decoder.getImmediateI)
  if funct3 = 0x0 then emit "lb"
  else if funct3 = 0x1 then emit "lh"
  else if funct3 = 0x2 then emit "lw"
  else if funct3 = 0x3 then emit "ld"
  else if funct3 = 0x4 then emit "lbu"
  else if funct3 = 0x5 then emit "lhu"
  else if funct3 = 0x6 then emit "lwu"
  else illegal "Unknown load"

def formatStore (decoder : InstructionDecoder) : Except Exception String :=
  let funct3 := decoder.getFunct3
  let emit := fun mnemonic =>
    Except.ok (emitStore mnemonic decoder.getRS2 decoder.getRS1 decoder.getImmediateS)
  if funct3 = 0x0 then emit "sb"
  else if funct3 = 0x1 then emit "sh"
  else if funct3 = 0x2 then emit "sw"
  else if funct3 = 0x3 then emit "sd"
  else illegal "Unknown store"

def formatBranch (decoder : InstructionDecoder) : Except Exception String :=
  let funct3 := decoder.getFunct3
  let emit := fun mnemonic =>
    Except.ok (emitBranch mnemonic decoder.getRS1 decoder.getRS2 decoder.getImmediateB)
  if funct3 = 0x0 then emit "beq"
  else if funct3 = 0x1 then emit "bne"
  else if funct3 = 0x4 then emit "blt"
  else if funct3 = 0x5 then emit "bge"
  else if funct3 = 0x6 then emit "bltu"
  else if funct3 = 0x7 then emit "bgeu"
  else illegal "Unknown branch"

/-- The body of the `try` block of `operator<<`. -/
def format (decoder : InstructionDecoder) : Except Exception String :=
  if decoder.instructionWord &&& 0x3 ≠ 0x3 then
    formatCompressedInstruction (low16 decoder.instructionWord)
  else match decoder.getOpcode with
    | .op => formatOpType decoder
    | .opImm => formatOpImm decoder
    | .op32 => formatOp32Type decoder
    | .opImm32 => formatOpImm32 decoder
    | .load => formatLoad decoder
    | .store => formatStore decoder
    | .branch => formatBranch decoder
    | .jalr =>
      .ok ("jalr " ++ formatRegister decoder.getRD ++ ", " ++
        formatImmediate decoder.getImmediateI ++ "(" ++ formatRegister decoder.getRS1 ++ ")")
    | .jal =>
      .ok ("jal " ++ formatRegister decoder.getRD ++ ", " ++ formatImmediate decoder.getImmediateJ)
    | .lui =>
      .ok ("lui " ++ formatRegister decoder.getRD ++ ", " ++
        formatImmediate (decoder.getImmediateU.sshiftRight 12))
    | .auipc =>
      .ok ("auipc " ++ formatRegister decoder.getRD ++ ", " ++
        formatImmediate (decoder.getImmediateU.sshiftRight 12))
    | .unlisted _ => illegal "Unknown opcode"

/-- `operator<<`. -/
def print (decoder : InstructionDecoder) : String :=
  match format decoder with
  | .ok text => text
  | .error _ => "illegal instruction"

end Rv64Emu.Formatter
