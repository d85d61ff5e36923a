import Mathlib.Data.BitVec

/-! Architectural constants and the exceptions of the emulator. Signed 64-bit
quantities are kept as bit vectors and read through `toInt` where the source
casts to `int64_t`. -/
namespace Rv64Emu

abbrev RegValue := BitVec 64
abbrev MemAddress := BitVec 64
/-- Register numbers reach the register file only as masked 5-bit fields; the
8-bit argument of `initRegister` is checked there. -/
abbrev RegNumber := BitVec 5
abbrev Byte := BitVec 8
abbrev InstructionWord := BitVec 32

/-- Magic codeword that marks the end of unit test cases. -/
def testEndMarker : InstructionWord := 0xddffccff
def nopInstruction : InstructionWord := 0x00000013

/-- The payloads of the `IllegalAccess` constructors. -/
inductive AccessFault where
  | message (what : String)
  | at (addr : MemAddress)
  | ofSize (addr : MemAddress) (size : Nat)
  deriving DecidableEq, Repr

inductive Exception where
  | instructionFetchFailure (addr : MemAddress)
  | testEndMarkerEncountered (addr : MemAddress)
  | illegalInstruction (what : String)
  | illegalAccess (fault : AccessFault)
  | outOfRange (regnum : Nat)
  /-- Not a C++ exception: the access leaves the allocated array, where the
  behaviour of the program is undefined. The model stops there. -/
  | outOfBounds (addr : MemAddress)
  deriving DecidableEq, Repr

def AccessFault.what : AccessFault → String
  | .message what => what
  | .at addr => "Invalid access at " ++ String.ofList (Nat.toDigits 16 addr.toNat)
  | .ofSize addr size => "Invalid access of size " ++ toString size ++ " at " ++
      String.ofList (Nat.toDigits 16 addr.toNat)

/-- Whether a C++ handler for `std::exception` sees it. -/
def Exception.isCatchable : Exception → Bool
  | .outOfBounds _ => false
  | _ => true

/-- An `Except` computation as one step of a stateful one. -/
def liftExcept {σ α : Type} (x : Except Exception α) : EStateM Exception σ α :=
  match x with
  | .ok a => pure a
  | .error e => throw e

/-- Sums that do not wrap. -/
theorem toNat_add_ofNat {addr : BitVec 64} {n : Nat} (h : addr.toNat + n < 2 ^ 64) :
    (addr + BitVec.ofNat 64 n).toNat = addr.toNat + n := by
  rw [BitVec.toNat_add, BitVec.toNat_ofNat, Nat.mod_eq_of_lt (show n < 2 ^ 64 by omega),
    Nat.mod_eq_of_lt h]

end Rv64Emu
