import Rv64Emu.Library.LittleEndian

/-! The integer computational instructions, the upper immediates, the control
transfers, the loads and the stores of the RV64I base set, as the ISA tables
give them: encodings with their operands, and 64-bit results. -/
namespace Rv64i

inductive Operation where
  | add | sub | sll | slt | sltu | xor | srl | sra | or | and
  | addw | subw | sllw | srlw | sraw
  deriving DecidableEq, Repr

/-- The low 32 bits, sign-extended. -/
def word (value : BitVec 64) : BitVec 64 := (value.setWidth 32).signExtend 64

/-- Shift amounts are the low six bits of the second operand, or the low five
for the operations on words. -/
def Operation.result (op : Operation) (a b : BitVec 64) : BitVec 64 :=
  match op with
  | .add => a + b
  | .sub => a - b
  | .sll => a <<< (b.toNat % 64)
  | .slt => if a.toInt < b.toInt then 1 else 0
  | .sltu => if a.toNat < b.toNat then 1 else 0
  | .xor => a ^^^ b
  | .srl => a >>> (b.toNat % 64)
  | .sra => a.sshiftRight (b.toNat % 64)
  | .or => a ||| b
  | .and => a &&& b
  | .addw => word (a + b)
  | .subw => word (a - b)
  | .sllw => (a.setWidth 32 <<< (b.toNat % 32)).signExtend 64
  | .srlw => (a.setWidth 32 >>> (b.toNat % 32)).signExtend 64
  | .sraw => ((a.setWidth 32).sshiftRight (b.toNat % 32)).signExtend 64

/-- How many low bits of its second operand a shift reads. -/
def Operation.amountBits : Operation → Option Nat
  | .sll | .srl | .sra => some 6
  | .sllw | .srlw | .sraw => some 5
  | _ => none

theorem Operation.result_of_amountBits {op : Operation} {n : Nat} (h : op.amountBits = some n)
    (a : BitVec 64) {b b' : BitVec 64} (hb : b.toNat % 2 ^ n = b'.toNat % 2 ^ n) :
    op.result a b = op.result a b' := by
  cases op with
  | sll | srl | sra =>
    cases h
    have hb' : b.toNat % 64 = b'.toNat % 64 := hb
    simp only [result, hb']
  | sllw | srlw | sraw =>
    cases h
    have hb' : b.toNat % 32 = b'.toNat % 32 := hb
    simp only [result, hb']
  | _ => cases h

inductive Operand where
  | register (rs2 : BitVec 5)
  | immediate (value : BitVec 64)
  deriving DecidableEq, Repr

structure Computational where
  op : Operation
  rd : BitVec 5
  rs1 : BitVec 5
  operand : Operand
  deriving DecidableEq, Repr

def registerOp (funct7 : BitVec 7) (funct3 : BitVec 3) : Option Operation :=
  if funct7 = 0b0000000 then
    if funct3 = 0b000 then some .add
    else if funct3 = 0b001 then some .sll
    else if funct3 = 0b010 then some .slt
    else if funct3 = 0b011 then some .sltu
    else if funct3 = 0b100 then some .xor
    else if funct3 = 0b101 then some .srl
    else if funct3 = 0b110 then some .or
    else some .and
  else if funct7 = 0b0100000 then
    if funct3 = 0b000 then some .sub else if funct3 = 0b101 then some .sra else none
  else none

def registerOp32 (funct7 : BitVec 7) (funct3 : BitVec 3) : Option Operation :=
  if funct7 = 0b0000000 then
    if funct3 = 0b000 then some .addw
    else if funct3 = 0b001 then some .sllw
    else if funct3 = 0b101 then some .srlw
    else none
  else if funct7 = 0b0100000 then
    if funct3 = 0b000 then some .subw else if funct3 = 0b101 then some .sraw else none
  else none

def immediateOp (funct3 : BitVec 3) : Option Operation :=
  if funct3 = 0b000 then some .add
  else if funct3 = 0b010 then some .slt
  else if funct3 = 0b011 then some .sltu
  else if funct3 = 0b100 then some .xor
  else if funct3 = 0b110 then some .or
  else if funct3 = 0b111 then some .and
  else none

/-- RV64I shifts by a six-bit amount; its top bit is bit 25 of the word. -/
def shiftOp (funct6 : BitVec 6) (funct3 : BitVec 3) : Option Operation :=
  if funct6 = 0b000000 then
    if funct3 = 0b001 then some .sll else if funct3 = 0b101 then some .srl else none
  else if funct6 = 0b010000 then
    if funct3 = 0b101 then some .sra else none
  else none

def shiftOp32 (funct7 : BitVec 7) (funct3 : BitVec 3) : Option Operation :=
  if funct7 = 0b0000000 then
    if funct3 = 0b001 then some .sllw else if funct3 = 0b101 then some .srlw else none
  else if funct7 = 0b0100000 then
    if funct3 = 0b101 then some .sraw else none
  else none

def isShiftFunct3 (funct3 : BitVec 3) : Bool := funct3 == 0b001 || funct3 == 0b101

/-- The legal encodings of the opcodes OP, OP-IMM, OP-32 and OP-IMM-32. -/
def decode (w : BitVec 32) : Option Computational :=
  let opcode := w.extractLsb' 0 7
  let rd := w.extractLsb' 7 5
  let funct3 := w.extractLsb' 12 3
  let rs1 := w.extractLsb' 15 5
  let rs2 := w.extractLsb' 20 5
  let funct7 := w.extractLsb' 25 7
  let immediate := (w.extractLsb' 20 12).signExtend 64
  if opcode = 0b0110011 then
    (registerOp funct7 funct3).map fun op => ⟨op, rd, rs1, .register rs2⟩
  else if opcode = 0b0010011 then
    if isShiftFunct3 funct3 then
      (shiftOp (w.extractLsb' 26 6) funct3).map fun op =>
        ⟨op, rd, rs1, .immediate ((w.extractLsb' 20 6).setWidth 64)⟩
    else (immediateOp funct3).map fun op => ⟨op, rd, rs1, .immediate immediate⟩
  else if opcode = 0b0111011 then
    (registerOp32 funct7 funct3).map fun op => ⟨op, rd, rs1, .register rs2⟩
  else if opcode = 0b0011011 then
    if isShiftFunct3 funct3 then
      (shiftOp32 funct7 funct3).map fun op =>
        ⟨op, rd, rs1, .immediate ((w.extractLsb' 20 5).setWidth 64)⟩
    else if funct3 = 0b000 then some ⟨.addw, rd, rs1, .immediate immediate⟩
    else none
  else none

/-- The value for `rd`, from the values of the registers. -/
def Computational.result (i : Computational) (registers : BitVec 5 → BitVec 64) : BitVec 64 :=
  i.op.result (registers i.rs1)
    (match i.operand with
      | .register rs2 => registers rs2
      | .immediate value => value)

/-! ### Upper immediates -/

/-- LUI and, relative to the program counter, AUIPC. -/
structure Upper where
  pcRelative : Bool
  rd : BitVec 5
  value : BitVec 64
  deriving DecidableEq, Repr

def decodeUpper (w : BitVec 32) : Option Upper :=
  let rd := w.extractLsb' 7 5
  let value := (w.extractLsb' 12 20 ++ 0#12).signExtend 64
  if w.extractLsb' 0 7 = 0b0110111 then some ⟨false, rd, value⟩
  else if w.extractLsb' 0 7 = 0b0010111 then some ⟨true, rd, value⟩
  else none

def Upper.result (i : Upper) (pc : BitVec 64) : BitVec 64 :=
  if i.pcRelative then pc + i.value else i.value

/-! ### Control transfers -/

inductive Condition where
  | eq | ne | lt | ge | ltu | geu
  deriving DecidableEq, Repr

def Condition.holds (condition : Condition) (a b : BitVec 64) : Bool :=
  match condition with
  | .eq => a = b
  | .ne => a ≠ b
  | .lt => a.toInt < b.toInt
  | .ge => b.toInt ≤ a.toInt
  | .ltu => a.toNat < b.toNat
  | .geu => b.toNat ≤ a.toNat

def branchCondition (funct3 : BitVec 3) : Option Condition :=
  if funct3 = 0b000 then some .eq
  else if funct3 = 0b001 then some .ne
  else if funct3 = 0b100 then some .lt
  else if funct3 = 0b101 then some .ge
  else if funct3 = 0b110 then some .ltu
  else if funct3 = 0b111 then some .geu
  else none

inductive Transfer where
  | branch (condition : Condition) (rs1 rs2 : BitVec 5) (offset : BitVec 64)
  | jal (rd : BitVec 5) (offset : BitVec 64)
  | jalr (rd rs1 : BitVec 5) (offset : BitVec 64)
  deriving DecidableEq, Repr

/-- The legal encodings of the opcodes BRANCH, JAL and JALR. -/
def decodeTransfer (w : BitVec 32) : Option Transfer :=
  let rd := w.extractLsb' 7 5
  let funct3 := w.extractLsb' 12 3
  let rs1 := w.extractLsb' 15 5
  let rs2 := w.extractLsb' 20 5
  if w.extractLsb' 0 7 = 0b1100011 then
    (branchCondition funct3).map fun condition => .branch condition rs1 rs2
      ((w.extractLsb' 31 1 ++ w.extractLsb' 7 1 ++ w.extractLsb' 25 6 ++ w.extractLsb' 8 4 ++
        0#1).signExtend 64)
  else if w.extractLsb' 0 7 = 0b1101111 then
    some (.jal rd ((w.extractLsb' 31 1 ++ w.extractLsb' 12 8 ++ w.extractLsb' 20 1 ++
      w.extractLsb' 21 10 ++ 0#1).signExtend 64))
  else if w.extractLsb' 0 7 = 0b1100111 then
    if funct3 = 0b000 then some (.jalr rd rs1 ((w.extractLsb' 20 12).signExtend 64)) else none
  else none

/-- The register for the return address; x0 for a branch, which has none. -/
def Transfer.link : Transfer → BitVec 5
  | .branch .. => 0
  | .jal rd _ => rd
  | .jalr rd _ _ => rd

/-- The address of the next instruction, from the values of the registers. -/
def Transfer.target (i : Transfer) (pc : BitVec 64) (registers : BitVec 5 → BitVec 64) :
    BitVec 64 :=
  match i with
  | .branch condition rs1 rs2 offset =>
    if condition.holds (registers rs1) (registers rs2) then pc + offset else pc + 4
  | .jal _ offset => pc + offset
  | .jalr _ rs1 offset => (registers rs1 + offset) &&& ~~~1

/-- A jump, or a branch whose condition holds. -/
def Transfer.taken (i : Transfer) (registers : BitVec 5 → BitVec 64) : Bool :=
  match i with
  | .branch condition rs1 rs2 _ => condition.holds (registers rs1) (registers rs2)
  | .jal .. => true
  | .jalr .. => true

/-! ### Loads and stores -/

structure Load where
  bytes : Nat
  signed : Bool
  rd : BitVec 5
  rs1 : BitVec 5
  offset : BitVec 64
  deriving DecidableEq, Repr

/-- The bytes accessed, and whether the value is sign-extended: LB, LH, LW, LD,
LBU, LHU and LWU. -/
def loadFormat (funct3 : BitVec 3) : Option (Nat × Bool) :=
  if funct3 = 0b000 then some (1, true)
  else if funct3 = 0b001 then some (2, true)
  else if funct3 = 0b010 then some (4, true)
  else if funct3 = 0b011 then some (8, true)
  else if funct3 = 0b100 then some (1, false)
  else if funct3 = 0b101 then some (2, false)
  else if funct3 = 0b110 then some (4, false)
  else none

def decodeLoad (w : BitVec 32) : Option Load :=
  if w.extractLsb' 0 7 = 0b0000011 then
    (loadFormat (w.extractLsb' 12 3)).map fun format =>
      { bytes := format.1
        signed := format.2
        rd := w.extractLsb' 7 5
        rs1 := w.extractLsb' 15 5
        offset := (w.extractLsb' 20 12).signExtend 64 }
  else none

/-- The value for `rd`, from the bytes in memory order. -/
def Load.value (l : Load) (bytes : List (BitVec 8)) : BitVec 64 :=
  let little := BitVec.ofNat (8 * l.bytes) (LittleEndian.ofBytes bytes)
  if l.signed then little.signExtend 64 else little.setWidth 64

structure Store where
  bytes : Nat
  rs1 : BitVec 5
  rs2 : BitVec 5
  offset : BitVec 64
  deriving DecidableEq, Repr

/-- The bytes accessed: SB, SH, SW and SD. -/
def storeFormat (funct3 : BitVec 3) : Option Nat :=
  if funct3 = 0b000 then some 1
  else if funct3 = 0b001 then some 2
  else if funct3 = 0b010 then some 4
  else if funct3 = 0b011 then some 8
  else none

def decodeStore (w : BitVec 32) : Option Store :=
  if w.extractLsb' 0 7 = 0b0100011 then
    (storeFormat (w.extractLsb' 12 3)).map fun bytes =>
      { bytes := bytes
        rs1 := w.extractLsb' 15 5
        rs2 := w.extractLsb' 20 5
        offset := (w.extractLsb' 25 7 ++ w.extractLsb' 7 5).signExtend 64 }
  else none

/-! ### The base set -/

/-- FENCE, whose other fields are hints, ECALL and EBREAK. -/
def isSystem (w : BitVec 32) : Bool :=
  (w.extractLsb' 0 7 == 0b0001111 && w.extractLsb' 12 3 == 0b000) || w == 0x00000073 ||
    w == 0x00100073

def isLegal (w : BitVec 32) : Bool :=
  (decode w).isSome || (decodeUpper w).isSome || (decodeTransfer w).isSome ||
    (decodeLoad w).isSome || (decodeStore w).isSome || isSystem w

end Rv64i
