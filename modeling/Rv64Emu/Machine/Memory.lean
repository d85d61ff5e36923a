import Rv64Emu.Machine.Arch
import Rv64Emu.Library.LittleEndian

/-! The memory bus, its clients and the two memory ports of the processor. -/
namespace Rv64Emu

/-- The four access widths of `MemoryInterface`. -/
inductive Width where
  | byte | halfWord | word | doubleWord
  deriving DecidableEq, Repr

def Width.bytes : Width → Nat
  | .byte => 1
  | .halfWord => 2
  | .word => 4
  | .doubleWord => 8

abbrev Width.Value (width : Width) := BitVec (8 * width.bytes)

/-- The allocated array has exactly `size` bytes. The source's `name` and
`align` are read by no operation. -/
structure Memory where
  mayWrite : Bool
  base : MemAddress
  size : BitVec 64
  data : List Byte
  data_length : data.length = size.toNat
  deriving DecidableEq

namespace Memory

def contains (m : Memory) (addr : MemAddress) : Bool :=
  decide (m.base ≤ addr) && decide (addr < m.base + m.size)

/-- Both sums wrap, as in the source. -/
def canAccess (m : Memory) (addr : MemAddress) (accessSize : Nat) (write : Bool) : Bool :=
  if addr < m.base ∨ addr + BitVec.ofNat 64 accessSize > m.base + m.size then false
  else if write && !m.mayWrite then false
  else true

def offset (m : Memory) (addr : MemAddress) : Nat := (addr - m.base).toNat

/-- Whether `data + effectiveAddr` addresses a `T` inside the array. -/
def inBounds (m : Memory) (addr : MemAddress) (width : Width) : Prop :=
  m.offset addr + width.bytes ≤ m.data.length

instance (m : Memory) (addr : MemAddress) (width : Width) : Decidable (m.inBounds addr width) :=
  inferInstanceAs (Decidable (_ ≤ _))

def readData (m : Memory) (width : Width) (addr : MemAddress) :
    Except Exception width.Value :=
  if !m.canAccess addr width.bytes false then
    .error (.illegalAccess (.ofSize addr width.bytes))
  else if m.inBounds addr width then
    .ok (BitVec.ofNat _ (LittleEndian.ofBytes
      (LittleEndian.slice m.data (m.offset addr) width.bytes)))
  else .error (.outOfBounds addr)

def stored (m : Memory) (width : Width) (addr : MemAddress) (value : width.Value)
    (h : m.inBounds addr width) : Memory :=
  { m with
    data := LittleEndian.splice m.data (m.offset addr)
      (LittleEndian.toBytes width.bytes value)
    data_length := by
      rw [LittleEndian.length_splice (by rw [LittleEndian.length_toBytes]; exact h),
        m.data_length] }

def writeData (m : Memory) (width : Width) (addr : MemAddress) (value : width.Value) :
    Except Exception Memory :=
  if !m.canAccess addr width.bytes true then
    .error (.illegalAccess (.ofSize addr width.bytes))
  else if h : m.inBounds addr width then .ok (m.stored width addr value h)
  else .error (.outOfBounds addr)

end Memory

/-- A section of the given words in memory order, as the loader would copy it. -/
def Memory.ofWords (mayWrite : Bool) (base : MemAddress) (words : List InstructionWord)
    (h : (words.flatMap (LittleEndian.toBytes 4)).length < 2 ^ 64 := by decide) : Memory :=
  { mayWrite := mayWrite
    base := base
    size := BitVec.ofNat 64 (words.flatMap (LittleEndian.toBytes 4)).length
    data := words.flatMap (LittleEndian.toBytes 4)
    data_length := by rw [BitVec.toNat_ofNat, Nat.mod_eq_of_lt h] }

/-- Dumb write-only serial interface; the character it prints leaves no state. -/
structure Serial where
  base : MemAddress
  deriving DecidableEq

namespace Serial

def contains (d : Serial) (addr : MemAddress) : Bool :=
  decide (d.base ≤ addr) && decide (addr < d.base + 1)

def read (_ : Serial) (width : Width) (_ : MemAddress) : Except Exception width.Value :=
  .error (.illegalAccess (.message "Not supported on serial interface"))

def write (d : Serial) (width : Width) (addr : MemAddress) (_ : width.Value) :
    Except Exception Serial :=
  match width with
  | .byte => if addr ≠ d.base then .error (.illegalAccess (.message "Invalid address")) else .ok d
  | _ => .error (.illegalAccess (.message "Not supported on serial interface"))

end Serial

structure SysStatus where
  base : MemAddress
  shouldHaltFlag : Bool := false
  deriving DecidableEq

namespace SysStatus

def contains (d : SysStatus) (addr : MemAddress) : Bool :=
  decide (d.base ≤ addr) && decide (addr < d.base + 0x10)

def read (_ : SysStatus) (width : Width) (_ : MemAddress) : Except Exception width.Value :=
  .error (.illegalAccess (.message "Not supported on sysstatus interface"))

/-- Shared by `writeByte` and `writeWord`. -/
def requestHalt (d : SysStatus) (addr : MemAddress) : Except Exception SysStatus :=
  if addr ≠ d.base + 0x8 then
    .error (.illegalAccess (.message "Invalid system status address"))
  else .ok { d with shouldHaltFlag := true }

def write (d : SysStatus) (width : Width) (addr : MemAddress) (_ : width.Value) :
    Except Exception SysStatus :=
  match width with
  | .byte | .word => d.requestHalt addr
  | _ => .error (.illegalAccess (.message "Not supported on sysstatus interface"))

end SysStatus

/-- The implementations of `MemoryInterface` that a bus may carry. -/
inductive Client where
  | memory (m : Memory)
  | serial (d : Serial)
  | sysStatus (d : SysStatus)
  deriving DecidableEq

namespace Client

def contains : Client → MemAddress → Bool
  | .memory m, addr => m.contains addr
  | .serial d, addr => d.contains addr
  | .sysStatus d, addr => d.contains addr

def read (c : Client) (width : Width) (addr : MemAddress) : Except Exception width.Value :=
  match c with
  | .memory m => m.readData width addr
  | .serial d => d.read width addr
  | .sysStatus d => d.read width addr

def write (c : Client) (width : Width) (addr : MemAddress) (value : width.Value) :
    Except Exception Client :=
  match c with
  | .memory m => Client.memory <$> m.writeData width addr value
  | .serial d => Client.serial <$> d.write width addr value
  | .sysStatus d => Client.sysStatus <$> d.write width addr value

/-- No client overrides the empty `clockPulse` of `MemoryInterface`. -/
def clockPulse (c : Client) : Client := c

def shouldHalt : Client → Bool
  | .sysStatus d => d.shouldHaltFlag
  | _ => false

end Client

abbrev Clients := List Client

namespace Clients

/-- The first client that contains the address. -/
def findClient (clients : Clients) (addr : MemAddress) : Option Client :=
  clients.find? fun c => c.contains addr

def getClient (clients : Clients) (addr : MemAddress) : Except Exception Client :=
  match findClient clients addr with
  | none => .error (.illegalAccess (.at addr))
  | some c => .ok c

/-- Mutation through the pointer that `findClient` returned. -/
def replaceClient : Clients → MemAddress → Client → Clients
  | [], _, _ => []
  | c :: cs, addr, c' => if c.contains addr then c' :: cs else c :: replaceClient cs addr c'

def read (clients : Clients) (width : Width) (addr : MemAddress) :
    Except Exception width.Value := do
  let client ← getClient clients addr
  client.read width addr

def write (clients : Clients) (width : Width) (addr : MemAddress) (value : width.Value) :
    Except Exception Clients := do
  let client ← getClient clients addr
  let client' ← client.write width addr value
  return replaceClient clients addr client'

/-- `Processor` keeps a pointer to the one `SysStatus` client it adds. -/
def shouldHalt (clients : Clients) : Bool := clients.any Client.shouldHalt

end Clients

structure MemoryBus where
  clients : Clients
  bytesRead : BitVec 64 := 0
  bytesWritten : BitVec 64 := 0
  deriving DecidableEq

namespace MemoryBus

def addClient (bus : MemoryBus) (client : Client) : MemoryBus :=
  { bus with clients := bus.clients ++ [client] }

def clockPulse (bus : MemoryBus) : MemoryBus :=
  { bus with clients := bus.clients.map Client.clockPulse }

/-- The byte counter is bumped before the client is looked up. -/
def read (width : Width) (addr : MemAddress) : EStateM Exception MemoryBus width.Value := do
  modify fun bus => { bus with bytesRead := bus.bytesRead + BitVec.ofNat 64 width.bytes }
  liftExcept ((← get).clients.read width addr)

def write (width : Width) (addr : MemAddress) (value : width.Value) :
    EStateM Exception MemoryBus Unit := do
  modify fun bus => { bus with bytesWritten := bus.bytesWritten + BitVec.ofNat 64 width.bytes }
  let clients ← liftExcept ((← get).clients.write width addr value)
  modify fun bus => { bus with clients := clients }

def readByte (addr : MemAddress) : EStateM Exception MemoryBus (BitVec 8) := read .byte addr
def readHalfWord (addr : MemAddress) : EStateM Exception MemoryBus (BitVec 16) :=
  read .halfWord addr
def readWord (addr : MemAddress) : EStateM Exception MemoryBus (BitVec 32) := read .word addr
def readDoubleWord (addr : MemAddress) : EStateM Exception MemoryBus (BitVec 64) :=
  read .doubleWord addr

def writeByte (addr : MemAddress) (value : BitVec 8) : EStateM Exception MemoryBus Unit :=
  write .byte addr value
def writeHalfWord (addr : MemAddress) (value : BitVec 16) : EStateM Exception MemoryBus Unit :=
  write .halfWord addr value
def writeWord (addr : MemAddress) (value : BitVec 32) : EStateM Exception MemoryBus Unit :=
  write .word addr value
def writeDoubleWord (addr : MemAddress) (value : BitVec 64) : EStateM Exception MemoryBus Unit :=
  write .doubleWord addr value

end MemoryBus

def invalidSize (size : BitVec 8) : Exception :=
  .illegalAccess (.message ("Invalid size " ++ toString size.toNat))

structure InstructionMemory where
  size : BitVec 8 := 0
  addr : MemAddress := 0
  deriving DecidableEq

namespace InstructionMemory

def setSize (im : InstructionMemory) (size : BitVec 8) : Except Exception InstructionMemory :=
  if size ≠ 2 ∧ size ≠ 4 then .error (invalidSize size) else .ok { im with size := size }

def setAddress (im : InstructionMemory) (addr : MemAddress) : InstructionMemory :=
  { im with addr := addr }

def getValue (im : InstructionMemory) : EStateM Exception MemoryBus RegValue :=
  if im.size = 2 then do
    let half ← MemoryBus.readHalfWord im.addr
    return half.setWidth 64
  else if im.size = 4 then do
    let word ← MemoryBus.readWord im.addr
    return word.setWidth 64
  else throw (invalidSize im.size)

end InstructionMemory

structure DataMemory where
  size : BitVec 8 := 0
  addr : MemAddress := 0
  dataIn : RegValue := 0
  readEnable : Bool := false
  writeEnable : Bool := false
  deriving DecidableEq

namespace DataMemory

def setSize (dm : DataMemory) (size : BitVec 8) : Except Exception DataMemory :=
  if size ≠ 1 ∧ size ≠ 2 ∧ size ≠ 4 ∧ size ≠ 8 then .error (invalidSize size)
  else .ok { dm with size := size }

def setAddress (dm : DataMemory) (addr : MemAddress) : DataMemory := { dm with addr := addr }
def setDataIn (dm : DataMemory) (value : RegValue) : DataMemory := { dm with dataIn := value }
def setReadEnable (dm : DataMemory) (setting : Bool) : DataMemory :=
  { dm with readEnable := setting }
def setWriteEnable (dm : DataMemory) (setting : Bool) : DataMemory :=
  { dm with writeEnable := setting }

/-- A narrow value on its way into a 64-bit register. -/
def extend (signExtend : Bool) (value : BitVec n) : RegValue :=
  if signExtend then value.signExtend 64 else value.setWidth 64

def getDataOut (dm : DataMemory) (signExtend : Bool) : EStateM Exception MemoryBus RegValue :=
  if !dm.readEnable then return 0
  else if dm.size = 1 then do
    let byte ← MemoryBus.readByte dm.addr
    return extend signExtend byte
  else if dm.size = 2 then do
    let half ← MemoryBus.readHalfWord dm.addr
    return extend signExtend half
  else if dm.size = 4 then do
    let word ← MemoryBus.readWord dm.addr
    return extend signExtend word
  else if dm.size = 8 then MemoryBus.readDoubleWord dm.addr
  else throw (invalidSize dm.size)

def clockPulse (dm : DataMemory) : EStateM Exception MemoryBus Unit :=
  if !dm.writeEnable then return ()
  else if dm.size = 1 then MemoryBus.writeByte dm.addr (dm.dataIn.setWidth 8)
  else if dm.size = 2 then MemoryBus.writeHalfWord dm.addr (dm.dataIn.setWidth 16)
  else if dm.size = 4 then MemoryBus.writeWord dm.addr (dm.dataIn.setWidth 32)
  else if dm.size = 8 then MemoryBus.writeDoubleWord dm.addr dm.dataIn
  else throw (invalidSize dm.size)

end DataMemory

end Rv64Emu
