import Rv64Emu.ElfImage
import Rv64Emu.Pipelined.Conformance
import Rv64Emu.Pipelined.Progress

/-! From a file to the end of its execution. A hart whose memory is what the ELF
format says of the file runs to its end in the emulator, in either mode. -/
namespace Rv64Emu

namespace SectionHeader

/-- The `n` bytes from `addr` on belong to the section. -/
def CoversRange (s : SectionHeader) (addr : MemAddress) (n : Nat) : Prop :=
  s.sh_addr.toNat ≤ addr.toNat ∧ addr.toNat + n ≤ s.sh_addr.toNat + s.sh_size.toNat

instance (s : SectionHeader) (addr : MemAddress) (n : Nat) : Decidable (s.CoversRange addr n) :=
  inferInstanceAs (Decidable (_ ∧ _))

def isWritable (s : SectionHeader) : Bool := ELFFile.hasFlag s.sh_flags ELFFile.SHF_WRITE

end SectionHeader

namespace ELFFile

variable (f : ELFFile)

/-- The contents of memory that the file describes. -/
def memoryImage (addr : MemAddress) : Byte :=
  match f.sections.find? fun s => s.isAllocated && s.CoversRange addr 1 with
  | some s => f.imageByte s (addr.toNat - s.sh_addr.toNat)
  | none => 0

/-- Memory where the file has sections, and the devices of the emulator. -/
def platform : Rv64i.Platform Signal where
  readable addr n := f.sections.any fun s => s.isAllocated && s.CoversRange addr n
  writable addr n := f.sections.any fun s =>
    s.isAllocated && (s.CoversRange addr n && s.isWritable)
  device := Program.signalled
  stops signal := signal == .halt

/-- A hart at the entry point of the file. -/
def hart (registers : Registers) : Rv64i.Hart Signal where
  registers := registers.integer
  pc := f.fieldAt 24 8
  memory := f.memoryImage

/-- A file whose sections the loader handles, with room behind them, and none of
which is where the devices are. -/
structure Emulated : Prop extends f.WellFormed where
  supported : f.Supported
  room : ∀ s ∈ f.sections, s.isAllocated = true → s.sh_addr.toNat + s.sh_size.toNat + 8 ≤ 2 ^ 64
  serial : ∀ s ∈ f.sections, s.isAllocated = true → ¬s.CoversRange 0x200 1
  sysStatus : ∀ s ∈ f.sections, s.isAllocated = true →
    s.sh_size = 0 ∨ s.sh_addr.toNat + s.sh_size.toNat ≤ 0x270 ∨ 0x280 ≤ s.sh_addr.toNat

/-- The program that the loader makes of the file. -/
def loaded : Program where
  memories := (f.sections.filter (·.isAllocated)).map f.memoryOf
  entrypoint := f.fieldAt 24 8

variable {f}

theorem value_program {allocate : Allocator} (hwell : f.WellFormed)
    (halloc : f.Allocates allocate) : (f.program allocate).value = .ok f.loaded := by
  unfold program getEntrypoint e_entry
  rw [Traced.value_bind_of_ok (createMemories_eq hwell.entrySize halloc), value_field_bind]
  rfl

theorem mem_loaded {m : Memory} (hm : m ∈ f.loaded.memories) :
    ∃ s ∈ f.sections, s.isAllocated = true ∧ f.memoryOf s = m := by
  obtain ⟨s, hs, rfl⟩ := List.mem_map.mp hm
  obtain ⟨hs, halloc⟩ := List.mem_filter.mp hs
  exact ⟨s, hs, halloc, rfl⟩

theorem covers_memoryOf_iff {s : SectionHeader} {addr : MemAddress} :
    (f.memoryOf s).Covers addr ↔ s.CoversRange addr 1 := by
  change s.sh_addr.toNat ≤ addr.toNat ∧ addr.toNat < s.sh_addr.toNat + s.sh_size.toNat ↔
    s.sh_addr.toNat ≤ addr.toNat ∧ addr.toNat + 1 ≤ s.sh_addr.toNat + s.sh_size.toNat
  omega

/-- Sections apart have no address in common. -/
theorem disjoint_of_apart {s t : SectionHeader} (h : s.Apart t) {addr : MemAddress}
    (hs : s.CoversRange addr 1) (ht : t.CoversRange addr 1) : False := by
  have hzero : ∀ v : BitVec 64, v = 0 → v.toNat = 0 := fun v hv => congrArg BitVec.toNat hv
  unfold SectionHeader.CoversRange at hs ht
  obtain h | h | h | h := h
  · have := hzero _ h
    omega
  · have := hzero _ h
    omega
  · omega
  · omega

theorem apart_loaded (h : f.Emulated) : f.loaded.Apart where
  fits := by
    intro m hm
    obtain ⟨s, hs, halloc, rfl⟩ := mem_loaded hm
    exact h.room s hs halloc
  disjoint := by
    apply List.pairwise_map.mpr
    apply h.apart.imp
    intro s t hapart addr hboth
    rw [covers_memoryOf_iff, covers_memoryOf_iff] at hboth
    exact disjoint_of_apart hapart hboth.1 hboth.2
  serial := by
    intro m hm
    obtain ⟨s, hs, halloc, rfl⟩ := mem_loaded hm
    rw [covers_memoryOf_iff]
    exact h.serial s hs halloc
  sysStatus := by
    intro m hm addr hcovers hdevice
    obtain ⟨s, hs, halloc, rfl⟩ := mem_loaded hm
    rw [covers_memoryOf_iff] at hcovers
    unfold SectionHeader.CoversRange at hcovers
    obtain hempty | hbefore | hbehind := h.sysStatus s hs halloc
    · have hzero : s.sh_size.toNat = 0 := congrArg BitVec.toNat hempty
      omega
    · omega
    · omega

/-- The loader makes the platform that the file describes. -/
theorem platform_loaded : f.loaded.platform = f.platform := by
  ext1
  · funext addr n
    change ((f.sections.filter (·.isAllocated)).map f.memoryOf).any _ = _
    rw [List.any_map, List.any_filter]
    rfl
  · funext addr n
    change ((f.sections.filter (·.isAllocated)).map f.memoryOf).any _ = _
    rw [List.any_map, List.any_filter]
    rfl
  · rfl
  · rfl

/-- What the loader puts in memory is the byte of the file, if it handles the section. -/
theorem imageByte_eq {s : SectionHeader} {i : Nat}
    (h : s.sh_type = SHT_PROGBITS ∨ s.sh_type = SHT_NOBITS ∨
      f.contents.getD (s.sh_offset.toNat + i) 0 = 0) :
    (if s.sh_type = SHT_PROGBITS then f.contents.getD (s.sh_offset.toNat + i) 0 else 0) =
      f.imageByte s i := by
  unfold imageByte
  obtain hprogbits | hnobits | hzero := h
  · rw [if_pos hprogbits, if_neg (by rw [hprogbits]; decide)]
  · rw [if_pos hnobits, if_neg (by rw [hnobits]; decide)]
  · rw [hzero]
    simp

theorem image_loaded (h : f.Emulated) : f.loaded.image = f.memoryImage := by
  funext addr
  have hfind : f.loaded.memories.find? (fun m => m.Covers addr) =
      (f.sections.find? fun s => s.isAllocated && s.CoversRange addr 1).map f.memoryOf := by
    change ((f.sections.filter (·.isAllocated)).map f.memoryOf).find? _ = _
    rw [List.find?_map, List.find?_filter]
    refine congrArg (Option.map f.memoryOf) (congrArg (List.find? · f.sections) ?_)
    funext s
    simp [covers_memoryOf_iff]
  unfold Program.image memoryImage
  rw [hfind]
  cases hs : f.sections.find? fun s => s.isAllocated && s.CoversRange addr 1 with
  | none => rfl
  | some s =>
    have hmem := List.mem_of_find?_eq_some hs
    have hcovered : s.isAllocated = true ∧ s.CoversRange addr 1 := by
      simpa using List.find?_some hs
    obtain ⟨halloc, hrange⟩ := hcovered
    have hoffset : (f.memoryOf s).offset addr = addr.toNat - s.sh_addr.toNat :=
      Memory.offset_eq (covers_memoryOf_iff.mpr hrange)
    have hlt : addr.toNat - s.sh_addr.toNat < s.sh_size.toNat := by
      unfold SectionHeader.CoversRange at hrange
      omega
    change (f.memoryOf s).data.getD ((f.memoryOf s).offset addr) 0 = _
    rw [hoffset, getD_memoryOf (h.contents s hmem halloc) hlt]
    exact imageByte_eq (h.supported s hmem halloc _ hlt).2

/-- The emulator starts where the hart of the file does. -/
theorem hart_loaded (h : f.Emulated) (registers : Registers) :
    f.loaded.hart registers = f.hart registers := by
  ext1
  · rfl
  · rfl
  · exact image_loaded h
  · rfl

/-- `k` instructions of the hart of the file. -/
def hartRun (f : ELFFile) (registers : Registers) (k : Nat) : Option (Rv64i.Hart Signal) :=
  Runs.steps (Rv64i.Hart.next f.platform) k (f.hart registers)

theorem hartRun_loaded (h : f.Emulated) (registers : Registers) (k : Nat) :
    Conformance.hartRun f.loaded registers k = f.hartRun registers k := by
  unfold Conformance.hartRun hartRun
  rw [platform_loaded, hart_loaded h]

/-- A file whose hart comes to a stop: the emulator loads it and halts with the
registers, the memory and the console text of the hart, and the pipeline does so
too or throws, unless the hart has met code that a store can change. -/
theorem completes (hfile : f.Emulated) {allocate : Allocator} (halloc : f.Allocates allocate)
    {registers : Registers} {k : Nat} {h : Rv64i.Hart Signal}
    (hrun : f.hartRun registers k = some h) (hstopped : h.stopped f.platform = true)
    (hexecutes : ∀ j < k, ∀ g, f.hartRun registers j = some g →
      Conformance.executes g.word = true) :
    ∃ program, (f.program allocate).value = .ok program ∧
      ∃ n s, Conformance.Shows program registers n s h ∧
        Processor.runLoop n (Processor.boot program false registers) = .halted s ∧
        ((∀ j < k, ∀ g, f.hartRun registers j = some g → f.platform.writable g.pc 1 = false) →
          Processor.HaltsInTime program registers n s) := by
  have hapart := apart_loaded hfile
  simp only [← hartRun_loaded hfile, ← platform_loaded] at hrun hstopped hexecutes ⊢
  obtain ⟨σ, hσ⟩ := Conformance.abreast_of_hart hapart hrun hexecutes
  obtain ⟨n, s, hreached⟩ :=
    Processor.reached (Processor.atStage_boot f.loaded registers) hσ.steps
  have hhalted := Conformance.halted_of_reached hσ hreached hstopped
  refine ⟨f.loaded, value_program hfile.toWellFormed halloc, n, s,
    Conformance.shows_of_reached hσ hreached, hhalted, fun hcode => ?_⟩
  apply Processor.halts_in_time _ hhalted
  exact Conformance.codeReadOnly_of_hart hapart hrun hexecutes hstopped hcode

/-- A header, the null section, and the program that prints a character and halts. -/
def greetingFile : ELFFile :=
  { contents :=
      [0x7f, 0x45, 0x4c, 0x46, 2, 1, 1, 0, 0, 0, 0, 0, 0, 0, 0, 0,
        2, 0, 243, 0, 1, 0, 0, 0, 0, 0x10, 0, 0, 0, 0, 0, 0,
        64, 0, 0, 0, 0, 0, 0, 0, 64, 0, 0, 0, 0, 0, 0, 0,
        0, 0, 0, 0, 64, 0, 56, 0, 0, 0, 64, 0, 2, 0, 0, 0] ++
      List.replicate 64 0 ++
      [0, 0, 0, 0, 1, 0, 0, 0, 6, 0, 0, 0, 0, 0, 0, 0,
        0, 0x10, 0, 0, 0, 0, 0, 0, 192, 0, 0, 0, 0, 0, 0, 0,
        16, 0, 0, 0, 0, 0, 0, 0, 0, 0, 0, 0, 0, 0, 0, 0,
        4, 0, 0, 0, 0, 0, 0, 0, 0, 0, 0, 0, 0, 0, 0, 0] ++
      [0x93, 0x00, 0x80, 0x04, 0x23, 0x00, 0x10, 0x20, 0x23, 0x2c, 0x00, 0x26, 0x13, 0, 0, 0]
    contents_lt := by
      simp only [List.length_append, List.length_replicate, List.length_cons, List.length_nil]
      decide }

theorem greetingFile_emulated : greetingFile.Emulated where
  accepted := by decide +kernel
  entrySize := by decide +kernel
  headers := by decide +kernel
  contents := by decide +kernel
  ranges := by decide +kernel
  apart := by decide +kernel
  supported := by
    unfold Supported
    decide +kernel
  room := by decide +kernel
  serial := by decide +kernel
  sysStatus := by decide +kernel

theorem greetingFile_allocates : greetingFile.Allocates alignedHeap := by
  unfold Allocates
  decide +kernel

theorem completes_greetingFile : ∃ h, greetingFile.hartRun (Vector.replicate 31 0) 3 = some h ∧
    h.stopped greetingFile.platform = true ∧
    ∃ program, (greetingFile.program alignedHeap).value = .ok program ∧
      ∃ n s, Conformance.Shows program (Vector.replicate 31 0) n s h ∧
        Processor.runLoop n (Processor.boot program false (Vector.replicate 31 0)) = .halted s ∧
        ((∀ j < 3, ∀ g, greetingFile.hartRun (Vector.replicate 31 0) j = some g →
            greetingFile.platform.writable g.pc 1 = false) →
          Processor.HaltsInTime program (Vector.replicate 31 0) n s) := by
  have hend : (greetingFile.hartRun (Vector.replicate 31 0) 3).map
      (fun h => h.stopped greetingFile.platform) = some true := by decide +kernel
  have hall : ∀ j < 3, (greetingFile.hartRun (Vector.replicate 31 0) j).all
      (fun g => Conformance.executes g.word) = true := by decide +kernel
  obtain ⟨h, hh, hstopped⟩ := Option.map_eq_some_iff.mp hend
  refine ⟨h, hh, hstopped, completes greetingFile_emulated greetingFile_allocates hh
    hstopped fun j hj g hg => ?_⟩
  have hg' := hall j hj
  rw [hg] at hg'
  exact hg'

end ELFFile

end Rv64Emu
