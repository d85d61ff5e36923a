import Rv64Emu.MemoryBounds

/-! What an access leaves on the bus. The byte counters are bumped before a
client is looked up, so that an access that is refused has been counted; no
client changes before it has accepted the access. -/
namespace Rv64Emu

/-- The eight operations of the bus. -/
inductive Access where
  | read (width : Width) (addr : MemAddress)
  | write (width : Width) (addr : MemAddress) (value : width.Value)

namespace Access

def width : Access → Width
  | read width _ => width
  | write width _ _ => width

def addr : Access → MemAddress
  | read _ addr => addr
  | write _ addr _ => addr

end Access

/-- Whether the client performs the access: the memory by its range, the devices
by what they support. -/
def Client.accepts : Client → Access → Bool
  | .memory m, .read width addr => m.canAccess addr width.bytes false
  | .memory m, .write width addr _ => m.canAccess addr width.bytes true
  | .serial d, .write .byte addr _ => addr == d.base
  | .sysStatus d, .write .byte addr _ => addr == d.base + 0x8
  | .sysStatus d, .write .word addr _ => addr == d.base + 0x8
  | _, _ => false

def Clients.accepts (clients : Clients) (a : Access) : Bool :=
  (clients.findClient a.addr).any fun c => c.accepts a

namespace MemoryBus

/-- The access; the value that is read is dropped. -/
def access : Access → EStateM Exception MemoryBus Unit
  | .read width addr => do
    let _ ← read width addr
    return ()
  | .write width addr value => write width addr value

/-- The bus that the access leaves, also where it throws. -/
def after (bus : MemoryBus) (a : Access) : MemoryBus :=
  match access a bus with
  | .ok _ bus' => bus'
  | .error _ bus' => bus'

/-- The access ends with a C++ exception. -/
def Throws (bus : MemoryBus) (a : Access) : Prop :=
  ∃ e bus', access a bus = .error e bus' ∧ e.isCatchable = true

/-- The counter of the accesses of its kind. -/
def counter (bus : MemoryBus) : Access → BitVec 64
  | .read _ _ => bus.bytesRead
  | .write _ _ _ => bus.bytesWritten

/-- Exactly one counter has grown, over the integers, by the width. -/
def Counted (width : Width) (bus bus' : MemoryBus) : Prop :=
  bus'.bytesRead.toNat = bus.bytesRead.toNat + width.bytes ∧
      bus'.bytesWritten = bus.bytesWritten ∨
    bus'.bytesWritten.toNat = bus.bytesWritten.toNat + width.bytes ∧
      bus'.bytesRead = bus.bytesRead

/-- An access that throws leaves no trace, another one that of its width. -/
structure Traceless (bus : MemoryBus) (a : Access) : Prop where
  ofThrows : bus.Throws a → bus.after a = bus
  ofPerformed : ¬bus.Throws a → Counted a.width bus (bus.after a)

end MemoryBus

/-! ### Refusals -/

section

open MemoryBounds

theorem rejected_map {x : Except Exception α} (f : α → β) : Rejected (f <$> x) ↔ Rejected x := by
  unfold Rejected
  cases x <;> simp

/-- A check of the address is all that refuses the supported writes of a device. -/
theorem rejected_ite {addr expected : MemAddress} {fault : AccessFault} (a : α) :
    Rejected (if addr ≠ expected then .error (.illegalAccess fault) else .ok a) ↔
      (addr == expected) = false := by
  rw [beq_eq_false_iff_ne]
  by_cases haddr : addr = expected
  · rw [if_neg (not_not.mpr haddr)]
    exact iff_of_false nofun (not_not.mpr haddr)
  · rw [if_pos haddr]
    exact iff_of_true ⟨fault, rfl⟩ haddr

theorem Client.rejected_read_iff (c : Client) (width : Width) (addr : MemAddress) :
    Rejected (c.read width addr) ↔ c.accepts (.read width addr) = false := by
  cases c with
  | memory m => exact rejected_readData_iff
  | serial d => exact iff_of_true ⟨_, rfl⟩ rfl
  | sysStatus d => exact iff_of_true ⟨_, rfl⟩ rfl

theorem Client.rejected_write_iff (c : Client) (width : Width) (addr : MemAddress)
    (value : width.Value) :
    Rejected (c.write width addr value) ↔ c.accepts (.write width addr value) = false := by
  cases c with
  | memory m => exact (rejected_map _).trans (rejected_writeData_iff value)
  | serial d =>
    cases width with
    | byte => exact (rejected_map _).trans (rejected_ite d)
    | _ => exact iff_of_true ⟨_, rfl⟩ rfl
  | sysStatus d =>
    cases width with
    | byte | word =>
      refine (rejected_map _).trans ?_
      change Rejected (d.requestHalt addr) ↔ (addr == d.base + 0x8) = false
      unfold SysStatus.requestHalt
      exact rejected_ite _
    | _ => exact iff_of_true ⟨_, rfl⟩ rfl

theorem Clients.rejected_read_iff (clients : Clients) (width : Width) (addr : MemAddress) :
    Rejected (clients.read width addr) ↔ clients.accepts (.read width addr) = false := by
  unfold Clients.read Clients.getClient Clients.accepts Access.addr
  cases clients.findClient addr with
  | none => exact iff_of_true ⟨_, rfl⟩ rfl
  | some c => exact c.rejected_read_iff width addr

theorem Clients.rejected_write_iff (clients : Clients) (width : Width) (addr : MemAddress)
    (value : width.Value) :
    Rejected (clients.write width addr value) ↔ clients.accepts (.write width addr value) = false := by
  unfold Clients.write Clients.getClient Clients.accepts Access.addr
  cases clients.findClient addr with
  | none => exact iff_of_true ⟨_, rfl⟩ rfl
  | some c =>
    refine Iff.trans ?_ (c.rejected_write_iff width addr value)
    exact rejected_map (x := c.write width addr value) (clients.replaceClient addr)

end

namespace MemoryBus

variable (bus : MemoryBus)

/-- Accesses throw only what refuses them. -/
theorem catchable_iff {r : Except Exception α} (h : ∀ e, r = .error e → e.isAccessError = true) :
    (∃ e, r = .error e ∧ e.isCatchable = true) ↔ MemoryBounds.Rejected r := by
  constructor
  · rintro ⟨e, he, hcatchable⟩
    have haccess := h e he
    cases e with
    | illegalAccess fault => exact ⟨fault, he⟩
    | outOfBounds addr => cases hcatchable
    | _ => cases haccess
  · rintro ⟨fault, hfault⟩
    exact ⟨_, hfault, rfl⟩

theorem access_read (width : Width) (addr : MemAddress) :
    access (.read width addr) bus = match bus.clients.read width addr with
      | .ok _ => .ok () (bus.countRead width)
      | .error e => .error e (bus.countRead width) := by
  have hread := read_eq width addr bus
  cases hclients : bus.clients.read width addr with
  | ok value =>
    rw [hclients] at hread
    exact bind_of_ok hread
  | error e =>
    rw [hclients] at hread
    exact bind_of_error hread

theorem access_write (width : Width) (addr : MemAddress) (value : width.Value) :
    access (.write width addr value) bus = match bus.clients.write width addr value with
      | .ok clients => .ok () { bus.countWrite width with clients := clients }
      | .error e => .error e (bus.countWrite width) := write_eq width addr value bus

theorem after_read (width : Width) (addr : MemAddress) :
    bus.after (.read width addr) = bus.countRead width := by
  unfold after
  rw [access_read]
  cases bus.clients.read width addr <;> rfl

theorem after_write (width : Width) (addr : MemAddress) (value : width.Value) :
    bus.after (.write width addr value) =
      { bus.countWrite width with
        clients := (bus.clients.write width addr value).toOption.getD bus.clients } := by
  unfold after
  rw [access_write]
  cases bus.clients.write width addr value <;> rfl

theorem throws_iff (a : Access) : bus.Throws a ↔ bus.clients.accepts a = false := by
  cases a with
  | read width addr =>
    rw [← bus.clients.rejected_read_iff width addr,
      ← catchable_iff fun e he => Clients.read_error he]
    unfold Throws
    rw [access_read]
    cases bus.clients.read width addr <;> simp
  | write width addr value =>
    rw [← bus.clients.rejected_write_iff width addr value,
      ← catchable_iff fun e he => Clients.write_error he]
    unfold Throws
    rw [access_write]
    cases bus.clients.write width addr value <;> simp

/-- Counters are words; they grow unless they wrap. -/
theorem toNat_counted (count : BitVec 64) (width : Width) :
    (count + BitVec.ofNat 64 width.bytes).toNat = count.toNat + width.bytes ↔
      count.toNat + width.bytes < 2 ^ 64 := by
  obtain ⟨-, hbytes⟩ := MemoryBounds.bytes_le width
  have hcount := count.isLt
  rw [BitVec.toNat_add, BitVec.toNat_ofNat, Nat.mod_eq_of_lt (show width.bytes < 2 ^ 64 by omega)]
  constructor
  · intro h
    rw [← h]
    exact Nat.mod_lt _ (by decide)
  · exact Nat.mod_eq_of_lt

theorem counted_ne (count : BitVec 64) (width : Width) :
    count + BitVec.ofNat 64 width.bytes ≠ count := by
  intro h
  have hzero : BitVec.ofNat 64 width.bytes = 0 := by simpa using h
  revert hzero
  cases width <;> decide

/-- Every access is counted, whether or not it is performed. -/
theorem counted_iff (a : Access) : Counted a.width bus (bus.after a) ↔
    (bus.counter a).toNat + a.width.bytes < 2 ^ 64 := by
  obtain ⟨hpos, -⟩ := MemoryBounds.bytes_le a.width
  rw [← toNat_counted]
  cases a with
  | read width addr =>
    rw [after_read]
    refine ⟨?_, fun h => .inl ⟨h, rfl⟩⟩
    rintro (⟨hread, -⟩ | ⟨hwritten, -⟩)
    · exact hread
    · change bus.bytesWritten.toNat = bus.bytesWritten.toNat + width.bytes at hwritten
      change 1 ≤ width.bytes at hpos
      omega
  | write width addr value =>
    rw [after_write]
    refine ⟨?_, fun h => .inr ⟨h, rfl⟩⟩
    rintro (⟨hread, -⟩ | ⟨hwritten, -⟩)
    · change bus.bytesRead.toNat = bus.bytesRead.toNat + width.bytes at hread
      change 1 ≤ width.bytes at hpos
      omega
    · exact hwritten

theorem after_ne (a : Access) : bus.after a ≠ bus := by
  intro h
  cases a with
  | read width addr =>
    rw [after_read] at h
    exact counted_ne bus.bytesRead width (congrArg bytesRead h)
  | write width addr value =>
    rw [after_write] at h
    exact counted_ne bus.bytesWritten width (congrArg bytesWritten h)

/-- A client that refuses an access has not changed. -/
theorem clients_after {a : Access} (h : bus.Throws a) : (bus.after a).clients = bus.clients := by
  cases a with
  | read width addr =>
    rw [after_read]
    rfl
  | write width addr value =>
    obtain ⟨fault, hfault⟩ :=
      (bus.clients.rejected_write_iff width addr value).mpr ((bus.throws_iff _).mp h)
    rw [after_write, hfault]
    rfl

/-- An access is traceless exactly if it is accepted and its counter does not
wrap. What throws has been counted, but changes no client. -/
theorem traceless_iff (a : Access) :
    (bus.Traceless a ↔
      bus.clients.accepts a = true ∧ (bus.counter a).toNat + a.width.bytes < 2 ^ 64) ∧
    (bus.Throws a → (bus.after a).clients = bus.clients) := by
  refine ⟨?_, bus.clients_after⟩
  have hthrows := bus.throws_iff a
  rw [← bus.counted_iff a]
  constructor
  · intro h
    have hnot : ¬bus.Throws a := fun hthrow => bus.after_ne a (h.ofThrows hthrow)
    exact ⟨Bool.not_eq_false _ |>.mp (mt hthrows.mpr hnot), h.ofPerformed hnot⟩
  · rintro ⟨haccepts, hcounted⟩
    refine ⟨fun hthrow => ?_, fun _ => hcounted⟩
    exact absurd (hthrows.mp hthrow) (by rw [haccepts]; decide)

/-- A word is read where there is no client. -/
theorem unmapped_counted : ¬∀ (bus : MemoryBus) (a : Access), bus.Traceless a := by
  intro h
  have hthrows : Throws { clients := [] } (.read .word 0x1000) :=
    (throws_iff _ _).mpr (by decide)
  exact after_ne _ _ ((h { clients := [] } (.read .word 0x1000)).ofThrows hthrows)

end MemoryBus

end Rv64Emu
