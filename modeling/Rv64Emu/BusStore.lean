import Rv64Emu.BusAccesses
import Rv64Emu.Library.Mealy
import Rv64Emu.Machine.Platform

/-! The bus as a component of its own: on every sequence of accesses, accepted or
refused, it behaves as one byte-addressed memory with two devices. -/
namespace Rv64Emu

/-- The bus and the text that its devices have printed. -/
structure Wired where
  bus : MemoryBus
  console : List Byte := []

/-- An access with what it returns: the number read, or zero for a write. -/
def Wired.answer (a : Access) (w : Wired) : Except Exception Nat × Wired :=
  match a with
  | .read width addr =>
    match MemoryBus.read width addr w.bus with
    | .ok value bus => (.ok value.toNat, { w with bus := bus })
    | .error e bus => (.error e, { w with bus := bus })
  | .write width addr value =>
    match MemoryBus.write width addr value w.bus with
    | .ok _ bus =>
      (.ok 0, { bus := bus, console := w.console ++ w.bus.clients.printed ⟨addr, width, value⟩ })
    | .error e bus => (.error e, { w with bus := bus })

/-- The contents of all addresses, what the devices have been told, and the bytes
asked for. -/
structure Contents where
  bytes : MemAddress → Byte
  signals : List Signal := []
  readTotal : Nat := 0
  writtenTotal : Nat := 0

/-- An access to the contents; none is a refusal. -/
def Contents.answer (p : Rv64i.Platform Signal) (a : Access) (s : Contents) :
    Option Nat × Contents :=
  match a with
  | .read width addr =>
    (if p.readable addr width.bytes then
      some (LittleEndian.ofBytes (ByteMemory.loaded s.bytes addr width.bytes)) else none,
      { s with readTotal := s.readTotal + width.bytes })
  | .write width addr value =>
    let stored : ByteMemory.Store 64 := ⟨addr, LittleEndian.toBytes width.bytes value⟩
    let s' := { s with writtenTotal := s.writtenTotal + width.bytes }
    if p.writable addr width.bytes then (some 0, { s' with bytes := stored.apply s.bytes })
    else match p.device addr stored.bytes with
      | some signal => (some 0, { s' with signals := s.signals ++ [signal] })
      | none => (none, s')

/-- The bus throws where the access is refused, and only `IllegalAccess`. -/
inductive Answers : Except Exception Nat → Option Nat → Prop where
  | value (n : Nat) : Answers (.ok n) (some n)
  | refused (fault : AccessFault) : Answers (.error (.illegalAccess fault)) none

/-- The clients of the program hold the contents, and the counters the totals. -/
structure Holds (program : Program) (w : Wired) (s : Contents) : Prop where
  clients : w.bus.clients = program.clientsWith s.bytes (s.signals.any program.platform.stops)
  console : w.console = s.signals.flatMap Signal.text
  bytesRead : w.bus.bytesRead = BitVec.ofNat 64 s.readTotal
  bytesWritten : w.bus.bytesWritten = BitVec.ofNat 64 s.writtenTotal

theorem Wired.answer_read (width : Width) (addr : MemAddress) (w : Wired) :
    w.answer (.read width addr) =
      ((w.bus.clients.read width addr).map BitVec.toNat,
        { w with bus := w.bus.countRead width }) := by
  simp only [Wired.answer, MemoryBus.read_eq]
  cases w.bus.clients.read width addr with
  | ok value => rfl
  | error e => rfl

theorem Wired.answer_write_ok {width : Width} {addr : MemAddress} {value : width.Value} {w : Wired}
    {clients : Clients} (h : w.bus.clients.write width addr value = .ok clients) :
    w.answer (.write width addr value) = (.ok 0,
      { bus := { w.bus.countWrite width with clients := clients }
        console := w.console ++ w.bus.clients.printed ⟨addr, width, value⟩ }) := by
  simp only [Wired.answer, MemoryBus.write_eq, h]

theorem Wired.answer_write_error {width : Width} {addr : MemAddress} {value : width.Value}
    {w : Wired} {e : Exception} (h : w.bus.clients.write width addr value = .error e) :
    w.answer (.write width addr value) = (.error e, { w with bus := w.bus.countWrite width }) := by
  simp only [Wired.answer, MemoryBus.write_eq, h]

section

variable {program : Program} (hapart : program.Apart) {w : Wired} {s : Contents}
  (hholds : Holds program w s)

include hapart hholds

/-- A read finds the bytes of its range, or is refused. -/
theorem answers_read (width : Width) (addr : MemAddress) :
    Answers (w.answer (.read width addr)).1 (s.answer program.platform (.read width addr)).1 ∧
      Holds program (w.answer (.read width addr)).2
        (s.answer program.platform (.read width addr)).2 := by
  rw [Wired.answer_read]
  have hnext : Holds program { w with bus := w.bus.countRead width }
      { s with readTotal := s.readTotal + width.bytes } := by
    refine ⟨hholds.clients, hholds.console, ?_, hholds.bytesWritten⟩
    change w.bus.bytesRead + BitVec.ofNat 64 width.bytes = _
    rw [hholds.bytesRead, BitVec.ofNat_add]
  refine ⟨?_, hnext⟩
  simp only [Contents.answer]
  rw [hholds.clients]
  by_cases hreadable : program.platform.readable addr width.bytes = true
  · obtain ⟨m, hm, hrange⟩ := Program.readable_iff.mp hreadable
    have hlt := LittleEndian.ofBytes_lt (ByteMemory.loaded s.bytes addr width.bytes)
    have hlength : (ByteMemory.loaded s.bytes addr width.bytes).length = width.bytes := by
      simp [ByteMemory.loaded]
    rw [hlength] at hlt
    rw [Program.read_inside hapart _ _ hm hrange, if_pos hreadable]
    change Answers (.ok (BitVec.ofNat _ _).toNat) _
    rw [BitVec.toNat_ofNat, Nat.mod_eq_of_lt hlt]
    exact .value _
  · have houtside : ∀ m ∈ program.memories, ¬m.CoversRange addr width.bytes := by
      intro m hm hrange
      exact hreadable (Program.readable_iff.mpr ⟨m, hm, hrange⟩)
    obtain ⟨fault, hfault⟩ := Program.read_outside hapart s.bytes
      (s.signals.any program.platform.stops) houtside
    rw [hfault, if_neg hreadable]
    exact .refused fault

/-- A write changes the bytes of its range, tells a device, or is refused. -/
theorem answers_write (width : Width) (addr : MemAddress) (value : width.Value) :
    Answers (w.answer (.write width addr value)).1
        (s.answer program.platform (.write width addr value)).1 ∧
      Holds program (w.answer (.write width addr value)).2
        (s.answer program.platform (.write width addr value)).2 := by
  have hcount : (w.bus.countWrite width).bytesWritten =
      BitVec.ofNat 64 (s.writtenTotal + width.bytes) := by
    change w.bus.bytesWritten + BitVec.ofNat 64 width.bytes = _
    rw [hholds.bytesWritten, BitVec.ofNat_add]
  have hcases := Program.write_cases hapart s.bytes (s.signals.any program.platform.stops)
    width addr value
  rw [← hholds.clients] at hcases
  simp only [Contents.answer]
  obtain ⟨hwritable, hwrite, hprinted⟩ | ⟨hwritable, signal, hsignal, hwrite, hprinted⟩ |
    ⟨hwritable, hnone, fault, hfault⟩ := hcases
  · rw [Wired.answer_write_ok hwrite, hprinted, List.append_nil, if_pos hwritable]
    exact ⟨.value 0, rfl, hholds.console, hholds.bytesRead, hcount⟩
  · rw [Wired.answer_write_ok hwrite, hprinted, if_neg (Bool.eq_false_iff.mp hwritable), hsignal]
    refine ⟨.value 0, ?_, ?_, hholds.bytesRead, hcount⟩
    · simp [List.any_append]
    · simp [hholds.console, List.flatMap_append]
  · rw [Wired.answer_write_error hfault, if_neg (Bool.eq_false_iff.mp hwritable), hnone]
    exact ⟨.refused fault, hholds.clients, hholds.console, hholds.bytesRead, hcount⟩

end

theorem holds_boot {program : Program} (hapart : program.Apart) (pipelining : Bool)
    (registers : Registers) :
    Holds program ⟨(Processor.boot program pipelining registers).bus, []⟩ ⟨program.image, [], 0, 0⟩ where
  clients := Program.clients_boot hapart pipelining registers
  console := rfl
  bytesRead := rfl
  bytesWritten := rfl

/-- On every sequence of accesses to the bus of a processor that has just been made, the
bus answers as the contents of the sections do. -/
theorem bus_refines_contents {program : Program} (hapart : program.Apart) (pipelining : Bool)
    (registers : Registers) (accesses : List Access) :
    List.Forall₂ Answers
        (Mealy.run Wired.answer accesses
          ⟨(Processor.boot program pipelining registers).bus, []⟩).1
        (Mealy.run (Contents.answer program.platform) accesses ⟨program.image, [], 0, 0⟩).1 ∧
      Holds program
        (Mealy.run Wired.answer accesses
          ⟨(Processor.boot program pipelining registers).bus, []⟩).2
        (Mealy.run (Contents.answer program.platform) accesses ⟨program.image, [], 0, 0⟩).2 := by
  apply Mealy.run_related (P := fun _ _ => True) _ accesses
    (holds_boot hapart pipelining registers) (Mealy.along_of_forall (fun _ _ => trivial) _ _)
  intro a w s hholds _
  cases a with
  | read width addr => exact answers_read hapart hholds width addr
  | write width addr value => exact answers_write hapart hholds width addr value

/-- One writable section. -/
def scratchpad : Program :=
  { memories := [Memory.ofWords true 0x2000 [0x11223344, 0x55667788]]
    entrypoint := 0x2000 }

theorem scratchpad_apart : scratchpad.Apart := Program.apart_of_single rfl (by decide) (by decide)

/-- A misaligned store, a load of its bytes, a load across the end, a character. -/
theorem bus_refines_contents_scratchpad :
    List.Forall₂ Answers
        (Mealy.run Wired.answer [.write .word 0x2002 0xaabbccdd#32, .read .doubleWord 0x2000,
            .read .doubleWord 0x2004, .write .byte 0x200 0x41#8]
          ⟨(Processor.boot scratchpad true (Vector.replicate 31 0)).bus, []⟩).1
        [some 0, some 0x5566aabbccdd3344, none, some 0] ∧
      (Mealy.run Wired.answer [.write .word 0x2002 0xaabbccdd#32, .read .doubleWord 0x2000,
          .read .doubleWord 0x2004, .write .byte 0x200 0x41#8]
        ⟨(Processor.boot scratchpad true (Vector.replicate 31 0)).bus, []⟩).2.console = [0x41] := by
  obtain ⟨hanswers, hholds⟩ := bus_refines_contents scratchpad_apart true (Vector.replicate 31 0)
    [.write .word 0x2002 0xaabbccdd#32, .read .doubleWord 0x2000, .read .doubleWord 0x2004,
      .write .byte 0x200 0x41#8]
  refine ⟨?_, hholds.console.trans (by decide +kernel)⟩
  have hcontents : (Mealy.run (Contents.answer scratchpad.platform)
      [.write .word 0x2002 0xaabbccdd#32, .read .doubleWord 0x2000, .read .doubleWord 0x2004,
        .write .byte 0x200 0x41#8] ⟨scratchpad.image, [], 0, 0⟩).1 =
      [some 0, some 0x5566aabbccdd3344, none, some 0] := by decide +kernel
  rw [hcontents] at hanswers
  exact hanswers

end Rv64Emu
