import Mathlib.Data.BitVec

/-! Three instructions of the compressed extension, as the ISA tables give them:
their fields, and the register-immediate instructions that they expand to.
Reserved and hint encodings are expanded like the others. -/
namespace Rvc

/-- A register-immediate instruction under its assembler name. -/
structure Expansion where
  mnemonic : String
  rd : BitVec 5
  rs1 : BitVec 5
  imm : BitVec 64
  deriving DecidableEq

variable (inst : BitVec 16)

def quadrant : BitVec 2 := inst.extractLsb' 0 2

def funct3 : BitVec 3 := inst.extractLsb' 13 3

/-- Three-bit fields name the registers x8 to x15. -/
def popular (field : BitVec 3) : BitVec 5 := 0b01#2 ++ field

/-- nzuimm[5:4|9:6|2|3] in bits 12 to 5. -/
def nzuimm : BitVec 10 :=
  inst.extractLsb' 7 4 ++ inst.extractLsb' 11 2 ++ inst.extractLsb' 5 1 ++ inst.extractLsb' 6 1 ++
    0#2

/-- imm[5] in bit 12, imm[4:0] in bits 6 to 2. -/
def imm6 : BitVec 6 := inst.extractLsb' 12 1 ++ inst.extractLsb' 2 5

def target : BitVec 5 := inst.extractLsb' 7 5

/-- `c.addi4spn`. -/
def addi4spn : Expansion :=
  ⟨"addi", popular (inst.extractLsb' 2 3), 2, (nzuimm inst).setWidth 64⟩

/-- `c.addiw`. -/
def addiw : Expansion := ⟨"addiw", target inst, target inst, (imm6 inst).signExtend 64⟩

/-- `c.slli`. -/
def slli : Expansion := ⟨"slli", target inst, target inst, (imm6 inst).setWidth 64⟩

def expand : Option Expansion :=
  if quadrant inst = 0b00 ∧ funct3 inst = 0b000 then some (addi4spn inst)
  else if quadrant inst = 0b01 ∧ funct3 inst = 0b001 then some (addiw inst)
  else if quadrant inst = 0b10 ∧ funct3 inst = 0b000 then some (slli inst)
  else none

theorem expand_eq_some_iff {inst : BitVec 16} {e : Expansion} :
    expand inst = some e ↔
      quadrant inst = 0b00 ∧ funct3 inst = 0b000 ∧ e = addi4spn inst ∨
        quadrant inst = 0b01 ∧ funct3 inst = 0b001 ∧ e = addiw inst ∨
        quadrant inst = 0b10 ∧ funct3 inst = 0b000 ∧ e = slli inst := by
  unfold expand
  split
  next h => simp [h, eq_comm]
  next h₀ =>
    split
    next h => simp [h, eq_comm]
    next h₁ =>
      split
      next h => simp [h, eq_comm]
      next h₂ => grind

end Rvc
