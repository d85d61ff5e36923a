import Rv64Emu.Machine.Arch

/-! The ALU. Signed 32-bit sums wrap here, as they do on the compiled targets. -/
namespace Rv64Emu

inductive ALUOp where
  | nop | add | sub | sll | slt | sltu | xor | srl | sra | or | and
  | addw | subw | sllw | srlw | sraw
  deriving DecidableEq, Repr

structure ALU where
  a : RegValue := 0
  b : RegValue := 0
  op : ALUOp := .nop
  deriving DecidableEq

/-- Every enumerator has its case, so the throwing default is unreachable. -/
def ALU.getResult (alu : ALU) : RegValue :=
  let A := alu.a
  let B := alu.b
  match alu.op with
  | .nop => 0
  | .add => A + B
  | .sub => A - B
  | .sll => A <<< (B &&& 0x3F)
  | .slt => if A.slt B then 1 else 0
  | .sltu => if A.ult B then 1 else 0
  | .xor => A ^^^ B
  | .srl => A >>> (B &&& 0x3F)
  | .sra => A.sshiftRight' (B &&& 0x3F)
  | .or => A ||| B
  | .and => A &&& B
  | .addw => (A.setWidth 32 + B.setWidth 32).signExtend 64
  | .subw => (A.setWidth 32 - B.setWidth 32).signExtend 64
  | .sllw => (A.setWidth 32 <<< (B &&& 0x1F)).signExtend 64
  | .srlw => (A.setWidth 32 >>> (B &&& 0x1F)).signExtend 64
  | .sraw => ((A.setWidth 32).sshiftRight' (B &&& 0x1F)).signExtend 64

end Rv64Emu
