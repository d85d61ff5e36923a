import Rv64Emu.Frontend.Disassembler
import Rv64Emu.Frontend.Launcher
import Rv64Emu.Library.TextLines

/-! The disassembler of the command line, for one instruction or for a file. A file that
is no ELF file is text with a hexadecimal number on each line. -/
namespace Rv64Emu

/-- The lines on standard output, and the exit code; the error messages are left out. -/
structure Printed where
  lines : List String
  code : Launcher.ExitCodes
  deriving DecidableEq

/-- The type of `main` and of the listing. -/
def ExitCodes.ofListing : ExitCodes → Launcher.ExitCodes
  | success => .success
  | initializationError => .initializationError

/-- A listing always comes to its end. -/
def Listing.lines (listing : Listing) : List String :=
  match listing.value with
  | .ok lines => lines
  | .error e => nomatch e

/-- `std::stoul(line, nullptr, 16)`; the decoder takes the low half. -/
def parseInstruction (line : Text) : Except CStrings.ConversionError InstructionWord :=
  (CStrings.stoull 16 line).map (·.setWidth 32)

/-- The loop over the lines; it ends at the first that cannot be parsed. -/
def disasmASCIIFile : List Text → Printed
  | [] => ⟨[], .success⟩
  | line :: lines =>
    match parseInstruction line with
    | .error _ => ⟨[], .invalidArgument⟩
    | .ok word =>
      let rest := disasmASCIIFile lines
      { rest with lines := formatDisassembly ⟨word⟩ 0 :: rest.lines }

def disasmSingle (disasmArg : Text) : Printed :=
  match parseInstruction disasmArg with
  | .error _ => ⟨[], .invalidArgument⟩
  | .ok word => ⟨[formatDisassembly ⟨word⟩ 0], .success⟩

namespace ELFFile

/-- A character for each byte of the file. -/
def text (f : ELFFile) : Text := f.contents.map fun b => Char.ofNat b.toNat

/-- `disasmFile`, for a regular file that can be opened. The reads beyond the segment
buffer are those of the listing. -/
def disasmFile (f : ELFFile) (resize : BitVec 64 → Bool) : Printed :=
  match (f.load >>= fun _ => f.disasmELFFile resize).value with
  | .ok (code, listing) => ⟨listing.lines, code.ofListing⟩
  | .error (.invalidArgument _) => disasmASCIIFile (TextLines.getlines f.text)
  | .error _ => ⟨[], .initializationError⟩

end ELFFile

end Rv64Emu
