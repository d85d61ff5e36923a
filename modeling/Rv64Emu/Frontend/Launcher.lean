import Rv64Emu.Frontend.ElfFile
import Rv64Emu.Frontend.Testing

/-! The start of the emulator, for a unit test or for a program, up to its exit code. -/
namespace Rv64Emu

/-- Throws `std::out_of_range`. -/
def Processor.getRegister (s : Processor) (regnum : BitVec 8) : Except Exception RegValue := do
  let regnum ← RegisterFile.checkRegNumber regnum
  return s.regfile.registers.readRegister regnum

namespace Launcher

/-- All exit codes of the emulator. -/
inductive ExitCodes where
  | success | abnormalTermination | helpDisplayed | initializationError | invalidArgument
  | unitTestFailed
  deriving DecidableEq, Repr

/-- The process returns an exit code, or ends on an exception that nothing catches. -/
inductive Ending where
  | exit (code : ExitCodes)
  | uncaught (e : LoadError)
  deriving DecidableEq, Repr

/-- What is found under a name: the lines of a text, or a regular file. -/
structure Files where
  lines : Text → Option (List Text)
  contents : Text → Option ELFFile

/-- What the first half of `launcher` finds out. -/
structure Job where
  programFilename : Text
  initializers : List RegisterInit
  postRegisters : List RegisterInit := []
  deriving DecidableEq

def validateRegisters (p : Processor) (expectedValues : List RegisterInit) :
    Except Exception Bool :=
  expectedValues.foldlM (fun allAsExpected reginit => do
    let value ← p.getRegister reginit.number
    return if reginit.value ≠ value then false else allAsExpected) true

def testConfigSuffix : Text := ['.', 'c', 'o', 'n', 'f']

/-- The test file gives the initial and the expected values, and the program. -/
def testJob (files : Files) (testConfig : Text) : Except ConfigError Job := do
  let testfile ← TestFile.load testConfig (files.lines testConfig)
  let initializers ← testfile.getPreRegisters
  let postRegisters ← testfile.getPostRegisters
  let programFilename ← testfile.getExecutable
  return { programFilename, initializers, postRegisters }

def job (files : Files) (testFilename : Option Text) (execFilename : Text)
    (initializers : List RegisterInit) : Except Ending Job :=
  match testFilename with
  | none => .ok { programFilename := execFilename, initializers := initializers }
  | some testConfig =>
    if testConfig.length < 6 ∨
        testConfig.drop (testConfig.length - 5) ≠ testConfigSuffix then
      .error (.exit .invalidArgument)
    else
      match testJob files testConfig with
      | .ok job => .ok job
      | .error _ => .error (.exit .initializationError)

/-- The handler for `std::runtime_error`; the other errors of the loader are no
`std::out_of_range` either. -/
def loadEnding : LoadError → Ending
  | .runtimeError _ => .exit .initializationError
  | e => .uncaught e

/-- The constructors of `ELFFile` and `Processor`. A file that cannot be opened is
a `std::system_error`. -/
def loadProgram (files : Files) (allocate : ELFFile.Allocator) (filename : Text) : Except Ending Program :=
  match files.contents filename with
  | none => .error (.exit .initializationError)
  | some f => (f.load >>= fun _ => f.program allocate).value.mapError loadEnding

def initRegisters (p : Processor) (initializers : List RegisterInit) : Except Exception Processor :=
  initializers.foldlM (fun p init => p.initRegister init.number init.value) p

/-- The processor before it runs, and the values to check afterwards. -/
def start (files : Files) (allocate : ELFFile.Allocator) (testFilename : Option Text) (execFilename : Text)
    (pipelining : Bool) (initializers : List RegisterInit) :
    Except Ending (Processor × List RegisterInit) := do
  let job ← job files testFilename execFilename initializers
  let program ← loadProgram files allocate job.programFilename
  let p ← (initRegisters (Processor.boot program pipelining (Vector.replicate 31 0))
    job.initializers).mapError fun _ => .exit .invalidArgument
  return (p, job.postRegisters)

/-- The exit code after the run, whatever `run` has returned. -/
def finish (p : Processor) (postRegisters : List RegisterInit) : Ending :=
  match validateRegisters p postRegisters with
  | .ok true => .exit .success
  | .ok false => .exit .unitTestFailed
  | .error _ => .exit .invalidArgument

/-- The end of the process, if the main loop ends in time and its behaviour is defined. -/
def launcher (files : Files) (allocate : ELFFile.Allocator) (testFilename : Option Text)
    (execFilename : Text) (pipelining : Bool) (initializers : List RegisterInit) (fuel : Nat) :
    Option Ending :=
  match start files allocate testFilename execFilename pipelining initializers with
  | .error ending => some ending
  | .ok (p, postRegisters) =>
    match Processor.runLoop fuel p with
    | .running _ => none
    | .terminated (.outOfBounds _) _ => none
    | .halted s => some (finish s postRegisters)
    | .terminated _ s => some (finish s postRegisters)

end Launcher

end Rv64Emu
