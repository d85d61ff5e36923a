import Rv64Emu.Frontend.CommandLine
import Rv64Emu.Frontend.DisasmFile
import Rv64Emu.Frontend.Transcript

/-! The whole process, from its arguments to its exit code: the `getopt` of the Windows
port together with the `unsigned long` of 64 bits and the loader that the other ports
have. -/
namespace Rv64Emu.CommandLine

/-- What has been written to the two output streams, and the end. The messages of a
disassembly and of a start that fails are left out. -/
structure Outcome where
  cout : List String := []
  cerr : List Byte := []
  ending : Launcher.Ending

def Outcome.ofPrinted (printed : Printed) : Outcome :=
  { cout := printed.lines, ending := .exit printed.code }

/-- What `main` calls before it returns. Where there is a test nothing reads
`execFilename`, which may be null. -/
def Command.perform (files : Launcher.Files) (allocate : ELFFile.Allocator)
    (resize : BitVec 64 → Bool) (fuel : Nat) : Command → Option Outcome
  | .exit message code =>
    some { cerr := asciiBytes (String.ofList message), ending := .exit code }
  | .disasmFile disasmArg =>
    match files.contents disasmArg with
    | none => some { ending := .exit .invalidArgument }
    | some f => some (.ofPrinted (f.disasmFile resize))
  | .disasmSingle disasmArg => some (.ofPrinted (Rv64Emu.disasmSingle disasmArg))
  | .launcher testFilename execFilename pipelining debugMode initializers =>
    (Launcher.emulate files allocate testFilename (execFilename.getD []) pipelining debugMode
      initializers fuel).map fun r => { cerr := r.1, ending := r.2 }

/-- The process, if its loops end within `fuel` iterations. -/
def run (files : Launcher.Files) (allocate : ELFFile.Allocator) (resize : BitVec 64 → Bool)
    (argv : List Text) (fuel : Nat) : Option Outcome :=
  (main argv fuel).bind (Command.perform files allocate resize fuel)

end Rv64Emu.CommandLine
