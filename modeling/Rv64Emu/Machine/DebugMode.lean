import Rv64Emu.Machine.Console
import Rv64Emu.Machine.Formatter

/-! Debug mode, in which ID prints each instruction that it decodes on the standard
error stream, where the devices print as well. -/
namespace Rv64Emu

/-- The characters of a text that is all ASCII. -/
def asciiBytes (text : String) : List Byte := text.toList.map fun c => BitVec.ofNat 8 c.toNat

theorem asciiBytes_append (a b : String) : asciiBytes (a ++ b) = asciiBytes a ++ asciiBytes b := by
  unfold asciiBytes
  rw [String.toList_append, List.map_append]

/-- `std::hex`; with `std::showbase` a number other than zero has its base. -/
def showHex (showbase : Bool) (n : Nat) : String :=
  (if showbase && n != 0 then "0x" else "") ++ String.ofList (Nat.toDigits 16 n)

/-- The line that debug mode prints for the contents of IF/ID. -/
def IFIDRegisters.dump (ifId : IFIDRegisters) : List Byte :=
  asciiBytes (showHex true ifId.pc.toNat ++ "\t" ++ Formatter.print ⟨ifId.instructionWord⟩ ++ "\n")

/-- In the pipeline the address zero stands for no instruction. -/
def InstructionDecodeStage.dumped (debugMode : Bool) (s : Processor) : List IFIDRegisters :=
  if debugMode && (!s.pipelining || s.ifId.pc != 0) then [s.ifId] else []

namespace Processor

/-- What ID prints in this cycle. In the pipeline IF propagates before ID, and may throw. -/
def dumped (debugMode : Bool) (s : Processor) : List IFIDRegisters :=
  if s.clocks .instructionDecode then
    match (if s.pipelining then InstructionFetchStage.propagate (ready s) else .ok () (ready s)) with
    | .ok _ t => InstructionDecodeStage.dumped debugMode t
    | .error _ _ => []
  else []

/-- All that is printed in a cycle that throws nothing. The stores are made when
the stages are clocked, after ID has printed its line. -/
def cerr (debugMode : Bool) (s : Processor) : List Byte :=
  (s.dumped debugMode).flatMap IFIDRegisters.dump ++ s.printed

/-! ### A cycle -/

theorem dumped_of_idle {s : Processor} (debugMode : Bool)
    (h : s.clocks .instructionDecode = false) : s.dumped debugMode = [] := by
  unfold dumped
  rw [h]
  rfl

theorem dumped_off (s : Processor) : s.dumped false = [] := by
  unfold dumped
  split
  · split <;> rfl
  · rfl

/-- Without debug mode only the devices print. -/
theorem cerr_off (s : Processor) : s.cerr false = s.printed := by
  unfold cerr
  rw [dumped_off]
  rfl

theorem dumped_alone {s : Processor} (hp : s.pipelining = false)
    (hclocks : s.clocks .instructionDecode = true) (debugMode : Bool) :
    s.dumped debugMode = if debugMode then [s.ifId] else [] := by
  unfold dumped
  rw [if_pos hclocks, if_neg (Bool.eq_false_iff.mp hp)]
  change (if debugMode && (!s.pipelining || s.ifId.pc != 0) then [s.ifId] else []) = _
  rw [hp, Bool.not_false, Bool.true_or, Bool.and_true]

theorem dumped_pipelined {s : Processor} (hp : s.pipelining = true)
    (hfetch : ∃ t, InstructionFetchStage.propagate (ready s) = .ok () t) :
    s.dumped true = if s.ifId.pc != 0 then [s.ifId] else [] := by
  have hclocks : s.clocks .instructionDecode = true := by
    unfold clocks
    rw [hp]
    rfl
  obtain ⟨t, ht⟩ := hfetch
  obtain ⟨-, rfl⟩ := (InstructionFetchStage.propagate_ok_iff (s := ready s) hp t).mp ht
  unfold dumped
  rw [if_pos hclocks, if_pos hp, ht]
  change (if true && (!s.pipelining || s.ifId.pc != 0) then [s.ifId] else []) = _
  rw [hp]
  rfl

end Processor

end Rv64Emu
