import Rv64Emu.Machine.Arch

/-! Field extraction and immediates of RISC-V instruction words. -/
namespace Rv64Emu

inductive InstructionType where
  | rType | iType | sType | bType | uType | jType
  deriving DecidableEq, Repr

/-- Opcodes for RV64I. The cast in `getOpcode` also yields values that are no
enumerator; these keep their bits. -/
inductive Opcode where
  | op | opImm | op32 | opImm32 | load | store | branch | jalr | jal | lui | auipc
  | unlisted (bits : BitVec 7)
  deriving DecidableEq, Repr

def Opcode.ofBits (bits : BitVec 7) : Opcode :=
  if bits = 0x33 then .op
  else if bits = 0x13 then .opImm
  else if bits = 0x3B then .op32
  else if bits = 0x1B then .opImm32
  else if bits = 0x03 then .load
  else if bits = 0x23 then .store
  else if bits = 0x63 then .branch
  else if bits = 0x67 then .jalr
  else if bits = 0x6F then .jal
  else if bits = 0x37 then .lui
  else if bits = 0x17 then .auipc
  else .unlisted bits

/-- Flip the sign bit, then subtract its weight. -/
def signExtend (value : BitVec 64) (bits : Nat) : BitVec 64 :=
  let mask := (1 : BitVec 64) <<< (bits - 1)
  (value ^^^ mask) - mask

structure InstructionDecoder where
  instructionWord : InstructionWord
  deriving DecidableEq

namespace InstructionDecoder

def setInstructionWord (_ : InstructionDecoder) (word : InstructionWord) : InstructionDecoder :=
  ⟨word⟩

def getOpcode (d : InstructionDecoder) : Opcode :=
  Opcode.ofBits ((d.instructionWord &&& 0x7F).setWidth 7)

def getRS1 (d : InstructionDecoder) : RegNumber :=
  ((d.instructionWord >>> 15) &&& 0x1F).setWidth 5

def getRS2 (d : InstructionDecoder) : RegNumber :=
  ((d.instructionWord >>> 20) &&& 0x1F).setWidth 5

def getRD (d : InstructionDecoder) : RegNumber :=
  ((d.instructionWord >>> 7) &&& 0x1F).setWidth 5

def getFunct3 (d : InstructionDecoder) : BitVec 3 :=
  ((d.instructionWord >>> 12) &&& 0x07).setWidth 3

def getFunct7 (d : InstructionDecoder) : BitVec 7 :=
  ((d.instructionWord >>> 25) &&& 0x7F).setWidth 7

def getInstructionType (d : InstructionDecoder) : Except Exception InstructionType :=
  match d.getOpcode with
  | .op | .op32 => .ok .rType
  | .opImm | .opImm32 | .load | .jalr => .ok .iType
  | .store => .ok .sType
  | .branch => .ok .bType
  | .lui | .auipc => .ok .uType
  | .jal => .ok .jType
  | .unlisted _ => .error (.illegalInstruction "Unknown opcode")

/-- imm[11:0] in bits [31:20]. -/
def getImmediateI (d : InstructionDecoder) : BitVec 64 :=
  let imm : BitVec 32 := (d.instructionWord >>> 20) &&& 0xFFF
  signExtend (imm.setWidth 64) 12

/-- imm[11:5] in bits [31:25], imm[4:0] in bits [11:7]. -/
def getImmediateS (d : InstructionDecoder) : BitVec 64 :=
  let word := d.instructionWord
  let imm : BitVec 32 := ((word >>> 25) &&& 0x7F) <<< 5 ||| ((word >>> 7) &&& 0x1F)
  signExtend (imm.setWidth 64) 12

/-- imm[12|10:5|4:1|11|0]. -/
def getImmediateB (d : InstructionDecoder) : BitVec 64 :=
  let word := d.instructionWord
  let imm : BitVec 32 := ((word >>> 31) &&& 0x1) <<< 12 ||| ((word >>> 7) &&& 0x1) <<< 11 |||
    ((word >>> 25) &&& 0x3F) <<< 5 ||| ((word >>> 8) &&& 0xF) <<< 1
  signExtend (imm.setWidth 64) 13

/-- imm[31:12] in bits [31:12]; the cast widens an unsigned word. -/
def getImmediateU (d : InstructionDecoder) : BitVec 64 :=
  (d.instructionWord &&& 0xFFFFF000).setWidth 64

/-- imm[20|10:1|11|19:12|0]. -/
def getImmediateJ (d : InstructionDecoder) : BitVec 64 :=
  let word := d.instructionWord
  let imm : BitVec 32 := ((word >>> 31) &&& 0x1) <<< 20 ||| ((word >>> 21) &&& 0x3FF) <<< 1 |||
    ((word >>> 20) &&& 0x1) <<< 11 ||| ((word >>> 12) &&& 0xFF) <<< 12
  signExtend (imm.setWidth 64) 21

def getImmediate (d : InstructionDecoder) : Except Exception (BitVec 64) := do
  match ← d.getInstructionType with
  | .iType => return d.getImmediateI
  | .sType => return d.getImmediateS
  | .bType => return d.getImmediateB
  | .uType => return d.getImmediateU
  | .jType => return d.getImmediateJ
  | .rType => return 0

end InstructionDecoder

end Rv64Emu
