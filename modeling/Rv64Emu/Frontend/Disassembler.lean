import Rv64Emu.Frontend.ElfFile
import Rv64Emu.Machine.Formatter

/-! The listing of the text segment of an ELF file. The reads from the buffer
with the segment are recorded; what they find behind its end stands for nothing. -/
namespace Rv64Emu

/-- The exit codes of the listing. -/
inductive ExitCodes where
  | success | initializationError
  deriving DecidableEq, Repr

/-- A read from a buffer of `size` bytes. -/
structure BufferRead where
  offset : Nat
  bytes : Nat
  size : Nat
  deriving DecidableEq, Repr

def BufferRead.Inside (r : BufferRead) : Prop := r.offset + r.bytes ≤ r.size

instance (r : BufferRead) : Decidable r.Inside := inferInstanceAs (Decidable (_ ≤ _))

/-- The lines that are printed, with the reads from the segment buffer. -/
abbrev Listing := Traced Empty BufferRead (List String)

/-- `std::hex`. -/
def hexadecimal (n : Nat) : String := String.ofList (Nat.toDigits 16 n)

/-- `std::setfill('0') << std::setw(8)` and a word. -/
def paddedWord (word : InstructionWord) : String :=
  String.ofList ((Nat.toDigits 16 word.toNat).leftpad 8 '0')

/-- One line, without its end; the address is left out if it is zero. -/
def formatDisassembly (decoder : InstructionDecoder) (PC : MemAddress) : String :=
  (if PC ≠ 0 then "0x" ++ hexadecimal PC.toNat ++ ":\t" else "") ++
    "0x" ++ paddedWord decoder.instructionWord ++ "\t" ++ Formatter.print decoder

namespace ELFFile

/-- `*instr` at an offset of the segment: a register value of eight bytes, of
which `setInstructionWord` takes the low half. -/
def instrAt (segment : TextSegment) (i : Nat) : InstructionWord :=
  let bytes := (List.range 8).map fun j => segment.segmentData.getD (i + j) 0
  let instr : RegValue := BitVec.ofNat 64 (LittleEndian.ofBytes bytes)
  instr.setWidth 32

def readInstr (segment : TextSegment) (i : Nat) : Traced Empty BufferRead InstructionWord :=
  ⟨.ok (instrAt segment i), [⟨i, 8, segment.segmentData.length⟩]⟩

/-- The body of the loop in `disasmELFFile`, for `i = 4 * round`. -/
def disasmRound (segment : TextSegment) (lines : List String) (round : Nat) : Listing := do
  let i := 4 * round
  let word ← readInstr segment i
  return lines ++ [formatDisassembly ⟨word⟩ (segment.segmentBase + BitVec.ofNat 64 i)]

/-- The rounds with `i < segmentSize`; `i` does not wrap, because no vector is
that large. -/
def disasmSegment (segment : TextSegment) : Listing :=
  (List.range ((segment.segmentSize.toNat + 3) / 4)).foldlM (disasmRound segment) []

def disasmELFFile (f : ELFFile) (resize : BitVec 64 → Bool) : Loader (ExitCodes × Listing) := do
  let segment ← f.getTextSegment resize
  if !segment.found then return (.initializationError, pure [])
  return (.success, disasmSegment segment)

end ELFFile

end Rv64Emu
