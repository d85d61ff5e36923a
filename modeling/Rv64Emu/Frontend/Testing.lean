import Rv64Emu.Frontend.ConfigFile
import Rv64Emu.Machine.Arch

/-! Register initialisers, given on the command line or in a test file. -/
namespace Rv64Emu

/-- The register numbers are bytes here; the register file checks them later. -/
def MaxRegs : Nat := 256

/-- What a conversion of the C++ library throws goes on to the caller. -/
def convert (result : Except CStrings.ConversionError α) : Except ConfigError α :=
  result.mapError .conversion

structure RegisterInit where
  number : BitVec 8 := 0
  value : RegValue := 0
  deriving DecidableEq, Repr

namespace RegisterInit

/-- `[rR]([0-9]{1,2})=(0x[0-9]+|[0-9]+)` -/
def init_regex : Regex Char :=
  .seq (.single fun c => c == 'r' || c == 'R') <|
  .seq (.group 1 (.repeated isNumber 1 (some 2))) <|
  .seq (.single (· == '='))
    (.group 2 (.alt
      (.seq (.single (· == '0')) (.seq (.single (· == 'x')) (.repeated isNumber 1 none)))
      (.repeated isNumber 1 none)))

/-- The constructor from a string. Where the string does not match, the fields
keep their defaults. -/
def ofString (initstr : Text) : Except ConfigError RegisterInit :=
  match init_regex.fullMatch initstr with
  | none => .ok {}
  | some found => do
    let regnum ← convert (CStrings.stoul (found.capture 1))
    if MaxRegs ≤ regnum.toNat then
      throw (.outOfRange ("Error: register regnum out of range: ".toList ++
        ConfigFile.decimal regnum.toNat))
    let value ← convert (CStrings.stoull 0 (found.capture 2))
    return { number := regnum.setWidth 8, value := value }

end RegisterInit

/-- A test file contains the values the registers should be initialized with and
the values they should have at program end. -/
structure TestFile where
  config : ConfigFile
  filename : Text

namespace TestFile

def pre : Text := ['p', 'r', 'e']
def post : Text := ['p', 'o', 's', 't']

/-- `r([0-9]{1,2})` -/
def regnameRegex : Regex Char :=
  .seq (.single (· == 'r')) (.group 1 (.repeated isNumber 1 (some 2)))

variable (t : TestFile)

def validateSection (sectionName : Text) : Except ConfigError Unit :=
  if t.config.hasSection sectionName then
    (t.config.getProperties sectionName).forM fun kv =>
      if (regnameRegex.fullMatch kv.1).isSome then
        throw (.runtimeError ("Invalid register name ".toList ++ kv.1))
      else pure ()
  else throw (.runtimeError ("Section '".toList ++ sectionName ++ "' missing.".toList))

def validate : Except ConfigError Unit := do
  t.validateSection pre
  t.validateSection post

/-- The constructor. -/
def load (filename : Text) (lines : Option (List Text)) : Except ConfigError TestFile := do
  let s ← ConfigFile.load filename lines
  let t : TestFile := { config := s.config, filename := filename }
  t.validate
  return t

/-- The key without its first character, and the value, as numbers. -/
def registerInit (kv : KeyValue) : Except ConfigError RegisterInit := do
  let number ← convert (CStrings.stoi kv.1.tail)
  let value ← convert (CStrings.stoull 0 kv.2)
  return { number := BitVec.ofInt 8 number, value := value }

def getRegisters (sectionName : Text) : Except ConfigError (List RegisterInit) :=
  (t.config.getProperties sectionName).mapM registerInit

def getPreRegisters : Except ConfigError (List RegisterInit) := t.getRegisters pre

def getPostRegisters : Except ConfigError (List RegisterInit) := t.getRegisters post

/-- The suffix `.conf` is replaced. -/
def getExecutable : Except ConfigError Text :=
  if t.filename.length < 5 then throw (.outOfRange "basic_string::replace".toList)
  else return t.filename.take (t.filename.length - 5) ++ ".bin".toList

end TestFile

end Rv64Emu
