import Rv64Emu.Library.Hart
import Rv64Emu.Machine.Console
import Rv64Emu.Machine.Image

/-! The bus of a program as the platform of a hart: the sections are its memory,
and the devices take signals. -/
namespace Rv64Emu

/-- What an accepted store to a device means. -/
inductive Signal where
  | character (value : Byte)
  | halt
  deriving DecidableEq, Repr

/-- The registers as those of a hart. -/
def Registers.integer (registers : Registers) : Rv64i.Registers := ⟨registers.readRegister, rfl⟩

def Signal.text : Signal → List Byte
  | .character value => [value]
  | .halt => haltRequested

namespace Program

/-- Characters go to the serial interface, and bytes or words to the halt register. -/
def signalled (addr : MemAddress) : List Byte → Option Signal
  | [value] =>
    if addr = 0x200 then some (.character value) else if addr = 0x278 then some .halt else none
  | [_, _, _, _] => if addr = 0x278 then some .halt else none
  | _ => none

def platform (program : Program) : Rv64i.Platform Signal where
  readable addr n := program.memories.any fun m => m.CoversRange addr n
  writable addr n := program.memories.any fun m => m.CoversRange addr n && m.mayWrite
  device := signalled
  stops signal := signal == .halt

/-- A hart about to execute the program. -/
def hart (program : Program) (registers : Registers) : Rv64i.Hart Signal where
  registers := registers.integer
  pc := program.entrypoint
  memory := program.image

variable {program : Program}

theorem readable_iff {addr : MemAddress} {n : Nat} :
    program.platform.readable addr n = true ↔ ∃ m ∈ program.memories, m.CoversRange addr n := by
  simp [platform]

theorem writable_iff {addr : MemAddress} {n : Nat} :
    program.platform.writable addr n = true ↔
      ∃ m ∈ program.memories, m.CoversRange addr n ∧ m.mayWrite = true := by
  simp [platform]

/-- One section, above the devices. -/
theorem apart_of_single {m : Memory} (hmemories : program.memories = [m]) (hfits : m.Fits)
    (hbase : 0x280 ≤ m.base.toNat) : program.Apart := by
  have hsingle : ∀ m' ∈ program.memories, m' = m := by
    rw [hmemories]
    exact fun m' => List.mem_singleton.mp
  constructor
  · intro m' hm'
    rw [hsingle m' hm']
    exact hfits
  · rw [hmemories]
    exact List.pairwise_singleton _ _
  · intro m' hm' hcovers
    rw [hsingle m' hm'] at hcovers
    exact absurd (hbase.trans hcovers.1) (by decide)
  · intro m' hm' addr hcovers hdevice
    rw [hsingle m' hm'] at hcovers
    exact absurd (hbase.trans hcovers.1) (Nat.not_le.mpr hdevice.2)

/-- The stores that the devices accept, by width. -/
theorem signalled_iff {width : Width} {addr : MemAddress} {value : width.Value} {signal : Signal} :
    signalled addr (LittleEndian.toBytes width.bytes value) = some signal ↔
      (width = .byte ∧ addr = 0x200 ∧ signal = .character (value.setWidth 8)) ∨
        ((width = .byte ∨ width = .word) ∧ addr = 0x278 ∧ signal = .halt) := by
  cases width with
  | byte =>
    have hvalue : value.extractLsb' 0 8 = value.setWidth 8 := (BitVec.setWidth_eq_extractLsb' (by decide)).symm
    change (if addr = 0x200 then some (Signal.character (value.extractLsb' 0 8))
      else if addr = 0x278 then some .halt else none) = _ ↔ _
    rw [hvalue]
    by_cases hserial : addr = 0x200
    · have hsys : addr ≠ 0x278 := by
        rw [hserial]
        decide
      rw [if_pos hserial, Option.some_inj]
      constructor
      · exact fun h => .inl ⟨rfl, hserial, h.symm⟩
      · rintro (⟨-, -, h⟩ | ⟨-, h, -⟩)
        · exact h.symm
        · exact absurd h hsys
    · rw [if_neg hserial]
      constructor
      · intro h
        split at h
        · rename_i hsys
          exact .inr ⟨.inl rfl, hsys, (Option.some.inj h).symm⟩
        · cases h
      · rintro (⟨-, h, -⟩ | ⟨-, hsys, rfl⟩)
        · exact absurd h hserial
        · exact if_pos hsys
  | word =>
    change (if addr = 0x278 then some Signal.halt else none) = _ ↔ _
    constructor
    · intro h
      split at h
      · rename_i hsys
        exact .inr ⟨.inr rfl, hsys, (Option.some.inj h).symm⟩
      · cases h
    · rintro (⟨h, -⟩ | ⟨-, hsys, rfl⟩)
      · cases h
      · exact if_pos hsys
  | halfWord =>
    apply iff_of_false
    · exact (Option.some_ne_none _).symm
    · simp
  | doubleWord =>
    apply iff_of_false
    · exact (Option.some_ne_none _).symm
    · simp

/-- No section hides a device. -/
theorem signalled_covered (hapart : program.Apart) {m : Memory} {addr : MemAddress}
    (hm : m ∈ program.memories) (hcovers : m.Covers addr) {width : Width} (value : width.Value) :
    signalled addr (LittleEndian.toBytes width.bytes value) = none := by
  cases hsignal : signalled addr (LittleEndian.toBytes width.bytes value) with
  | none => rfl
  | some signal =>
    obtain ⟨-, rfl, -⟩ | ⟨-, rfl, -⟩ := signalled_iff.mp hsignal
    · exact absurd hcovers (hapart.serial m hm)
    · exact absurd (by decide) (hapart.sysStatus m hm _ hcovers)

theorem device_refuses {halt : Bool} {c : Client} {width : Width} {addr : MemAddress}
    {value : width.Value} {e : Exception} (hc : c ∈ devices halt)
    (h : c.write width addr value = .error e) : ∃ fault, e = .illegalAccess fault := by
  have herror := Client.write_error h
  cases e with
  | illegalAccess fault => exact ⟨fault, rfl⟩
  | outOfBounds at' =>
    simp only [devices, List.mem_cons, List.not_mem_nil, or_false] at hc
    obtain rfl | rfl := hc
    · cases width with
      | byte =>
        change Client.serial <$> (if addr ≠ 0x200 then Except.error _ else .ok _) = _ at h
        split at h <;> cases h
      | _ => cases h
    · cases width with
      | byte | word =>
        change Client.sysStatus <$> (if addr ≠ 0x270 + 0x8 then Except.error _ else .ok _) = _ at h
        split at h <;> cases h
      | _ => cases h
  | _ => cases herror

section

variable (hapart : program.Apart) (bytes : MemAddress → Byte) (halt : Bool) {addr : MemAddress}
  (h : ∀ m ∈ program.memories, ¬m.Covers addr)

include hapart h

/-- What the devices accept changes the devices alone. -/
theorem write_uncovered_iff {width : Width} {value : width.Value} {clients : Clients} :
    (program.clientsWith bytes halt).write width addr value = .ok clients ↔
      ∃ c c', (devices halt).findClient addr = some c ∧ c.write width addr value = .ok c' ∧
        clients = program.memories.map (fun m => .memory (m.filled bytes)) ++
          Clients.replaceClient (devices halt) addr c' := by
  have hsections : ∀ c ∈ program.memories.map fun m => Client.memory (m.filled bytes),
      ¬c.contains addr = true := by
    intro c hc
    obtain ⟨m, hm, rfl⟩ := List.mem_map.mp hc
    exact fun hcontains => h m hm ((Memory.contains_iff (hapart.fits m hm)).mp hcontains)
  rw [Clients.write_ok_iff, findClient_uncovered hapart bytes halt h]
  unfold clientsWith
  simp only [replaceClient_append _ hsections]

/-- An accepted store signals, prints the text of the signal, and halts on the halt signal. -/
theorem write_signals {width : Width} {value : width.Value} {signal : Signal}
    (hsignal : signalled addr (LittleEndian.toBytes width.bytes value) = some signal) :
    (program.clientsWith bytes halt).write width addr value =
        .ok (program.clientsWith bytes (halt || program.platform.stops signal)) ∧
      (program.clientsWith bytes halt).printed ⟨addr, width, value⟩ = signal.text := by
  have hfind : (program.clientsWith bytes halt).findClient addr = (devices halt).findClient addr :=
    findClient_uncovered hapart bytes halt h
  rw [write_uncovered_iff hapart bytes halt h]
  unfold Clients.printed
  rw [hfind]
  obtain ⟨rfl, rfl, rfl⟩ | ⟨hwidth, rfl, rfl⟩ := signalled_iff.mp hsignal
  · refine ⟨⟨.serial { base := 0x200 }, .serial { base := 0x200 }, rfl, rfl, ?_⟩, ?_⟩
    · change program.clientsWith bytes (halt || false) = _
      rw [Bool.or_false]
      rfl
    · exact congrArg (fun value => [value]) (BitVec.setWidth_eq value).symm
  · have hsys : (devices halt).findClient 0x278 =
        some (.sysStatus { base := 0x270, shouldHaltFlag := halt }) := rfl
    rw [hsys]
    refine ⟨⟨_, .sysStatus { base := 0x270, shouldHaltFlag := true }, rfl, ?_, ?_⟩, ?_⟩
    · obtain rfl | rfl := hwidth
      · rfl
      · rfl
    · change program.clientsWith bytes (halt || true) = _
      rw [Bool.or_true]
      rfl
    · obtain rfl | rfl := hwidth
      · rfl
      · rfl

/-- Every other store outside the sections is refused. -/
theorem write_unserved {width : Width} (value : width.Value)
    (hsignal : signalled addr (LittleEndian.toBytes width.bytes value) = none) :
    ∃ fault, (program.clientsWith bytes halt).write width addr value =
      .error (.illegalAccess fault) := by
  have hnone : ∀ signal,
      signalled addr (LittleEndian.toBytes width.bytes value) ≠ some signal := by
    rw [hsignal]
    exact fun signal => (Option.some_ne_none signal).symm
  cases hwrite : (program.clientsWith bytes halt).write width addr value with
  | ok clients =>
    obtain ⟨c, c', hfind, hclient, -⟩ := (write_uncovered_iff hapart bytes halt h).mp hwrite
    obtain ⟨-, ⟨haddr, hbytes⟩ | ⟨haddr, hbytes⟩⟩ := write_devices hfind hclient
    · have hwidth : width = .byte := by
        revert hbytes
        cases width <;> decide
      exact absurd (signalled_iff.mpr (.inl ⟨hwidth, haddr, rfl⟩)) (hnone _)
    · subst haddr
      cases width with
      | byte => exact absurd (signalled_iff.mpr (.inr ⟨.inl rfl, rfl, rfl⟩)) (hnone _)
      | word => exact absurd (signalled_iff.mpr (.inr ⟨.inr rfl, rfl, rfl⟩)) (hnone _)
      | halfWord =>
        cases hfind
        cases hclient
      | doubleWord => exact absurd hbytes (by decide)
  | error e =>
    unfold Clients.write Clients.getClient at hwrite
    rw [findClient_uncovered hapart bytes halt h] at hwrite
    cases hfind : (devices halt).findClient addr with
    | none =>
      rw [hfind] at hwrite
      cases hwrite
      exact ⟨_, rfl⟩
    | some c =>
      rw [hfind] at hwrite
      cases hclient : c.write width addr value with
      | ok c' =>
        simp only [bind, Except.bind, hclient] at hwrite
        cases hwrite
      | error e' =>
        simp only [bind, Except.bind, hclient] at hwrite
        cases hwrite
        obtain ⟨fault, rfl⟩ := device_refuses (List.mem_of_find?_eq_some hfind) hclient
        exact ⟨fault, rfl⟩

end

/-- A write lands in a section, signals to a device, or is refused. -/
theorem write_cases (hapart : program.Apart) (bytes : MemAddress → Byte) (halt : Bool)
    (width : Width) (addr : MemAddress) (value : width.Value) :
    (program.platform.writable addr width.bytes = true ∧
      (program.clientsWith bytes halt).write width addr value =
        .ok (program.clientsWith
          (ByteMemory.Store.apply ⟨addr, LittleEndian.toBytes width.bytes value⟩ bytes) halt) ∧
      (program.clientsWith bytes halt).printed ⟨addr, width, value⟩ = []) ∨
    (program.platform.writable addr width.bytes = false ∧ ∃ signal,
      program.platform.device addr (LittleEndian.toBytes width.bytes value) = some signal ∧
      (program.clientsWith bytes halt).write width addr value =
        .ok (program.clientsWith bytes (halt || program.platform.stops signal)) ∧
      (program.clientsWith bytes halt).printed ⟨addr, width, value⟩ = signal.text) ∨
    (program.platform.writable addr width.bytes = false ∧
      program.platform.device addr (LittleEndian.toBytes width.bytes value) = none ∧
      ∃ fault, (program.clientsWith bytes halt).write width addr value =
        .error (.illegalAccess fault)) := by
  have hwidth : 0 < width.bytes := by cases width <;> decide
  by_cases hcovered : ∃ m ∈ program.memories, m.Covers addr
  · obtain ⟨m, hm, hcovers⟩ := hcovered
    by_cases hgood : m.CoversRange addr width.bytes ∧ m.mayWrite = true
    · have hprinted : (program.clientsWith bytes halt).printed ⟨addr, width, value⟩ = [] := by
        unfold Clients.printed
        rw [findClient_covered hapart bytes _ hm hcovers]
        rfl
      exact .inl ⟨writable_iff.mpr ⟨m, hm, hgood⟩,
        write_inside hapart bytes halt hm hgood.1 hgood.2 value, hprinted⟩
    · have hwritable : program.platform.writable addr width.bytes = false := by
        rw [Bool.eq_false_iff, Ne, writable_iff]
        intro ⟨m', hm', hrange, hwrite⟩
        obtain rfl := hapart.eq_of_covers hm hm' hcovers (hrange.covers hwidth)
        exact hgood ⟨hrange, hwrite⟩
      exact .inr (.inr ⟨hwritable, signalled_covered hapart hm hcovers value,
        write_refused hapart bytes halt hm hcovers hgood value⟩)
  · have huncovered : ∀ m ∈ program.memories, ¬m.Covers addr :=
      fun m hm hcovers => hcovered ⟨m, hm, hcovers⟩
    have hwritable : program.platform.writable addr width.bytes = false := by
      rw [Bool.eq_false_iff, Ne, writable_iff]
      intro ⟨m, hm, hrange, _⟩
      exact huncovered m hm (hrange.covers hwidth)
    cases hsignal : signalled addr (LittleEndian.toBytes width.bytes value) with
    | some signal =>
      exact .inr (.inl ⟨hwritable, signal, hsignal,
        write_signals hapart bytes halt huncovered hsignal⟩)
    | none =>
      exact .inr (.inr ⟨hwritable, hsignal,
        write_unserved hapart bytes halt huncovered value hsignal⟩)

end Program

end Rv64Emu
