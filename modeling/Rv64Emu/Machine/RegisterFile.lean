import Rv64Emu.Machine.Arch

/-! The dual-ported register file. -/
namespace Rv64Emu

/-- The general-purpose registers; register zero is not stored. -/
abbrev Registers := Vector RegValue 31

namespace Registers

def readRegister (registers : Registers) (regnum : RegNumber) : RegValue :=
  if regnum = 0 then 0 else registers[regnum.toNat - 1]

def writeRegister (registers : Registers) (regnum : RegNumber) (value : RegValue) : Registers :=
  if regnum = 0 then registers else registers.set (regnum.toNat - 1) value

@[simp] theorem readRegister_zero (registers : Registers) : registers.readRegister 0 = 0 := rfl

@[simp] theorem writeRegister_zero (registers : Registers) (value : RegValue) :
    registers.writeRegister 0 value = registers := rfl

theorem readRegister_writeRegister (registers : Registers) (rd regnum : RegNumber)
    (value : RegValue) :
    (registers.writeRegister rd value).readRegister regnum =
      if rd = regnum ∧ rd ≠ 0 then value else registers.readRegister regnum := by
  unfold readRegister writeRegister
  by_cases hrd : rd = 0
  · simp [hrd]
  · by_cases hreg : regnum = 0
    · simp only [hreg, if_true]
      split
      · rename_i h
        exact absurd h.1 hrd
      · rfl
    · have hzero : rd.toNat ≠ 0 := fun h => hrd (BitVec.eq_of_toNat_eq (by simpa using h))
      have hzero' : regnum.toNat ≠ 0 := fun h => hreg (BitVec.eq_of_toNat_eq (by simpa using h))
      simp only [hrd, hreg, if_false, Vector.getElem_set, ne_eq, not_false_eq_true, and_true]
      by_cases heq : rd = regnum
      · simp [heq]
      · have hne : rd.toNat ≠ regnum.toNat := fun h => heq (BitVec.eq_of_toNat_eq h)
        rw [if_neg heq, if_neg (by omega)]

end Registers

structure RegisterFile where
  registers : Registers
  rs1 : RegNumber := 0
  rs2 : RegNumber := 0
  rd : RegNumber := 0
  writeData : RegValue := 0
  writeEnable : Bool := false
  deriving DecidableEq

namespace RegisterFile

def setRS1 (rf : RegisterFile) (newRS1 : RegNumber) : RegisterFile := { rf with rs1 := newRS1 }
def setRS2 (rf : RegisterFile) (newRS2 : RegNumber) : RegisterFile := { rf with rs2 := newRS2 }
def setRD (rf : RegisterFile) (newRD : RegNumber) : RegisterFile := { rf with rd := newRD }
def setWriteData (rf : RegisterFile) (newData : RegValue) : RegisterFile :=
  { rf with writeData := newData }
def setWriteEnable (rf : RegisterFile) (newEnable : Bool) : RegisterFile :=
  { rf with writeEnable := newEnable }

def getReadData1 (rf : RegisterFile) : RegValue := rf.registers.readRegister rf.rs1
def getReadData2 (rf : RegisterFile) : RegValue := rf.registers.readRegister rf.rs2

def clockPulse (rf : RegisterFile) : RegisterFile :=
  if rf.writeEnable then { rf with registers := rf.registers.writeRegister rf.rd rf.writeData }
  else rf

theorem registers_clockPulse (rf : RegisterFile) :
    rf.clockPulse.registers =
      if rf.writeEnable then rf.registers.writeRegister rf.rd rf.writeData else rf.registers := by
  unfold clockPulse
  cases rf.writeEnable <;> rfl

/-- The one caller whose register number is not a masked field. -/
def checkRegNumber (regnum : BitVec 8) : Except Exception RegNumber :=
  if regnum.toNat ≥ 32 then .error (.outOfRange regnum.toNat) else .ok (regnum.setWidth 5)

end RegisterFile

end Rv64Emu
