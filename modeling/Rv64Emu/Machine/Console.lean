import Rv64Emu.Machine.BusRouting
import Rv64Emu.Machine.Cycles

/-! What the devices print to the standard error stream when they accept a
write: the serial interface its byte, the system status module a line. -/
namespace Rv64Emu

def Serial.printed (d : Serial) (width : Width) (addr : MemAddress) (value : width.Value) :
    List Byte :=
  match width with
  | .byte => if addr ≠ d.base then [] else [value]
  | _ => []

/-- "System halt requested." and the end of the line. -/
def haltRequested : List Byte :=
  [0x53, 0x79, 0x73, 0x74, 0x65, 0x6d, 0x20, 0x68, 0x61, 0x6c, 0x74, 0x20, 0x72, 0x65, 0x71, 0x75,
    0x65, 0x73, 0x74, 0x65, 0x64, 0x2e, 0x0a]

example : haltRequested = "System halt requested.\n".toList.map fun c => BitVec.ofNat 8 c.toNat := by
  decide

def SysStatus.printed (d : SysStatus) (width : Width) (addr : MemAddress) : List Byte :=
  match width with
  | .byte | .word => if addr ≠ d.base + 0x8 then [] else haltRequested
  | _ => []

def Client.printed (c : Client) (width : Width) (addr : MemAddress) (value : width.Value) :
    List Byte :=
  match c with
  | .memory _ => []
  | .serial d => d.printed width addr value
  | .sysStatus d => d.printed width addr

def Clients.printed (clients : Clients) (write : BusWrite) : List Byte :=
  match clients.findClient write.addr with
  | some c => c.printed write.width write.addr write.data
  | none => []

/-- What the devices print in this cycle. -/
def Processor.printed (s : Processor) : List Byte := s.busWrites.flatMap s.bus.clients.printed

theorem Client.printed_write {c c' : Client} {width : Width} {addr : MemAddress}
    {value : width.Value} (h : c.write width addr value = .ok c') : c'.printed = c.printed := by
  obtain ⟨m, m', rfl, rfl, -⟩ | ⟨d, rfl, rfl⟩ | ⟨d, rfl, rfl⟩ := write_ok_cases h
  · rfl
  · rfl
  · rfl

namespace Clients

/-- No write changes what later writes print. -/
theorem printed_write {clients clients' : Clients} {width : Width} {addr : MemAddress}
    {value : width.Value} (h : clients.write width addr value = .ok clients') :
    clients'.printed = clients.printed := by
  obtain ⟨c, c', hfind, hwrite, rfl⟩ := write_ok_iff.mp h
  funext write
  have hserved : (clients.replaceClient addr c').findClient write.addr =
      clients.findClient write.addr ∨ clients.findClient write.addr = some c ∧
        (clients.replaceClient addr c').findClient write.addr = some c' :=
    findClient_replaceClient hfind (Client.contains_write hwrite)
  unfold printed
  obtain hsame | ⟨hold, hnew⟩ := hserved
  · rw [hsame]
  · rw [hold, hnew]
    exact congrFun (congrFun (congrFun (Client.printed_write hwrite) _) _) _

end Clients

end Rv64Emu
