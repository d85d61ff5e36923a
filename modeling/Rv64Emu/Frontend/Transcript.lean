import Rv64Emu.Frontend.Launcher
import Rv64Emu.Machine.DebugMode

/-! What a run writes to the standard error stream, up to the exit code. The messages
of a start that fails are left out. -/
namespace Rv64Emu

/-- The text of the exception; an access out of bounds is none. -/
def Exception.what : Exception → String
  | .instructionFetchFailure addr =>
    "Instruction fetch failed at address " ++ showHex false addr.toNat
  | .testEndMarkerEncountered addr =>
    "Test end marker encountered at address " ++ showHex false addr.toNat
  | .illegalInstruction what => what
  | .illegalAccess fault => fault.what
  | .outOfRange regnum => "register number " ++ toString regnum ++ " out of range."
  | .outOfBounds _ => ""

namespace Processor

/-- The handlers in `run`. The base stays switched on once debug mode has printed a
line, since `setf` only adds flags. -/
def abnormalTermination (testMode showbase : Bool) (e : Exception) (pc : MemAddress) : String :=
  let message := "ABNORMAL PROGRAM TERMINATION; PC = " ++ showHex showbase pc.toNat ++ "\n" ++
    "Reason: " ++ e.what ++ "\n"
  match e with
  | .testEndMarkerEncountered _ => if testMode then "" else message
  | .instructionFetchFailure _ => if testMode then "" else message
  | _ => message

/-- What the loop in `run` prints in at most `fuel` iterations. In a cycle that throws,
no store has been made. -/
def transcript (testMode debugMode : Bool) : Bool → Nat → Processor → List Byte
  | showbase, fuel, s =>
    if s.shouldHalt then []
    else match fuel with
      | 0 => []
      | fuel + 1 =>
        let showbase := showbase || !(s.dumped debugMode).isEmpty
        match cycle s with
        | .ok _ t => s.cerr debugMode ++ transcript testMode debugMode showbase fuel t
        | .error e t => (s.dumped debugMode).flatMap IFIDRegisters.dump ++
            asciiBytes (abnormalTermination testMode showbase e t.pc)

/-- `std::setfill('0') << std::setw(width)`. -/
def zeroFilled (width : Nat) (digits : List Char) : String :=
  String.ofList (digits.leftpad width '0')

def registerField (regnum : Nat) (value : RegValue) : String :=
  "R" ++ zeroFilled 2 (Nat.toDigits 10 regnum) ++ " 0x" ++
    zeroFilled 16 (Nat.toDigits 16 value.toNat)

/-- The registers in two columns. -/
def registerTable (read : RegNumber → RegValue) : String :=
  String.join <| (List.range 16).map fun i =>
    registerField i (read (BitVec.ofNat 5 i)) ++ "\t" ++
      registerField (i + 16) (read (BitVec.ofNat 5 (i + 16))) ++ "\n"

def dumpRegisters (s : Processor) : List Byte :=
  asciiBytes (registerTable s.regfile.registers.readRegister)

/-- The numbers are printed in base ten, also when debug mode has added `std::hex`. -/
def statisticsText (stalls : Option Nat) (cycles issued completed bytesRead bytesWritten : Nat) :
    String :=
  toString cycles ++ " clock cycles, " ++ toString issued ++ " instructions issued, " ++
    toString completed ++ " instructions completed.\n" ++
    (match stalls with
      | some stalls => toString stalls ++ " stall cycles inserted.\n"
      | none => "") ++
    toString bytesRead ++ " bytes read, " ++ toString bytesWritten ++ " bytes written.\n"

def dumpStatistics (s : Processor) : List Byte :=
  asciiBytes (statisticsText (if s.pipelining then some s.nStalls.toNat else none) s.nCycles.toNat
    s.nInstrIssued.toNat s.nInstrCompleted.toNat s.bus.bytesRead.toNat s.bus.bytesWritten.toNat)

end Processor

namespace Launcher

/-- A register that is not as expected. -/
def mismatch (r : RegisterInit) (value : RegValue) : String :=
  "Register R" ++ toString r.number.toNat ++ " expected " ++ toString r.value.toNat ++ " (" ++
    showHex true r.value.toNat ++ ") got " ++ toString value.toNat ++ " (" ++
    showHex true value.toNat ++ ")\n"

/-- What `validateRegisters` prints, and the handler for `std::out_of_range`. -/
def validationText (p : Processor) : List RegisterInit → String
  | [] => ""
  | r :: expectedValues =>
    match p.getRegister r.number with
    | .ok value => (if r.value ≠ value then mismatch r value else "") ++
        validationText p expectedValues
    | .error e => "Out of range parameter: " ++ e.what ++ "\n"

/-- What follows the run; a unit test has no dump. -/
def report (testFilename : Option Text) (p : Processor) (postRegisters : List RegisterInit) :
    List Byte :=
  (if testFilename.isNone then p.dumpRegisters ++ p.dumpStatistics else []) ++
    asciiBytes (validationText p postRegisters)

/-- `launcher`, with what it has written to the standard error stream since the
program was started. -/
def emulate (files : Files) (allocate : ELFFile.Allocator) (testFilename : Option Text)
    (execFilename : Text) (pipelining debugMode : Bool) (initializers : List RegisterInit)
    (fuel : Nat) : Option (List Byte × Ending) :=
  match start files allocate testFilename execFilename pipelining initializers with
  | .error ending => some ([], ending)
  | .ok (p, postRegisters) =>
    let output := Processor.transcript testFilename.isSome debugMode false fuel p
    match Processor.runLoop fuel p with
    | .running _ => none
    | .terminated (.outOfBounds _) _ => none
    | .halted s => some (output ++ report testFilename s postRegisters, finish s postRegisters)
    | .terminated _ s => some (output ++ report testFilename s postRegisters, finish s postRegisters)

/-- The end of the process does not depend on debug mode. -/
theorem emulate_ending (files : Files) (allocate : ELFFile.Allocator) (testFilename : Option Text)
    (execFilename : Text) (pipelining debugMode : Bool) (initializers : List RegisterInit)
    (fuel : Nat) :
    (emulate files allocate testFilename execFilename pipelining debugMode initializers fuel).map
      Prod.snd = launcher files allocate testFilename execFilename pipelining initializers fuel := by
  unfold emulate launcher
  cases start files allocate testFilename execFilename pipelining initializers with
  | error ending => rfl
  | ok started =>
    obtain ⟨p, postRegisters⟩ := started
    dsimp only
    cases Processor.runLoop fuel p with
    | running s => rfl
    | halted s => rfl
    | terminated e s => cases e <;> rfl

end Launcher

end Rv64Emu
