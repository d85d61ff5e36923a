import Rv64Emu.TestNotation
import Rv64Emu.UnitTests

/-! Tests as they are written, run by the launcher. The registers start as the test file
says, and the exit code is about those that it expects. -/
namespace Rv64Emu

namespace Launcher

open TestFile

/-- Registers as the assignments leave them, starting from zeros. -/
structure Assigned (inits : List RegisterInit) (registers : Registers) : Prop where
  assigned : ∀ r ∈ inits, r.register ≠ 0 → registers.readRegister r.register = r.value
  others : ∀ regnum, (∀ r ∈ inits, r.register ≠ regnum) → registers.readRegister regnum = 0

theorem register_injective {r r' : RegisterInit} (h : r.Valid) (h' : r'.Valid)
    (heq : r.register = r'.register) : r.number = r'.number := by
  have hnat := congrArg BitVec.toNat heq
  unfold RegisterInit.register at hnat
  unfold RegisterInit.Valid at h h'
  rw [BitVec.toNat_setWidth, BitVec.toNat_setWidth, Nat.mod_eq_of_lt h, Nat.mod_eq_of_lt h'] at hnat
  exact BitVec.eq_of_toNat_eq hnat

theorem readRegister_initialised {inits : List RegisterInit} {regnum : RegNumber}
    (h : ∀ r ∈ inits, r.register ≠ regnum) (registers : Registers) :
    (initialised registers inits).readRegister regnum = registers.readRegister regnum := by
  induction inits generalizing registers with
  | nil => rfl
  | cons r inits ih =>
    obtain ⟨hhead, htail⟩ := List.forall_mem_cons.mp h
    refine (ih htail _).trans ?_
    rw [Registers.readRegister_writeRegister, if_neg fun hand => hhead hand.1]

theorem readRegister_initialised_of_mem {inits : List RegisterInit} (hvalid : ∀ r ∈ inits, r.Valid)
    (hnodup : (inits.map (·.number)).Nodup) {r : RegisterInit} (hr : r ∈ inits)
    (hzero : r.register ≠ 0) (registers : Registers) :
    (initialised registers inits).readRegister r.register = r.value := by
  induction inits generalizing registers with
  | nil => cases hr
  | cons r' inits ih =>
    obtain ⟨hhead, htail⟩ := List.forall_mem_cons.mp hvalid
    rw [List.map_cons, List.nodup_cons] at hnodup
    obtain rfl | hmem := List.mem_cons.mp hr
    · have hlater : ∀ r' ∈ inits, r'.register ≠ r.register := fun r' hr' heq =>
        hnodup.1 (List.mem_map.mpr ⟨r', hr', register_injective (htail r' hr') hhead heq⟩)
      refine (readRegister_initialised hlater _).trans ?_
      rw [Registers.readRegister_writeRegister, if_pos ⟨rfl, hzero⟩]
    · exact ih htail hnodup.2 hmem _

theorem assigned_initial {inits : List RegisterInit} (hvalid : ∀ r ∈ inits, r.Valid)
    (hnodup : (inits.map (·.number)).Nodup) : Assigned inits (initial inits) where
  assigned _ hr hzero := readRegister_initialised_of_mem hvalid hnodup hr hzero _
  others regnum h := by
    refine (readRegister_initialised h _).trans ?_
    unfold Registers.readRegister
    split
    · rfl
    · exact Vector.getElem_replicate _

theorem Assigned.of_perm {inits inits' : List RegisterInit} {registers : Registers}
    (h : Assigned inits registers) (hperm : inits.Perm inits') : Assigned inits' registers where
  assigned r hr := h.assigned r (hperm.mem_iff.mpr hr)
  others regnum hregnum := h.others regnum fun r hr => hregnum r (hperm.mem_iff.mp hr)

/-- The assignments determine the registers. -/
theorem Assigned.unique {inits : List RegisterInit} {registers registers' : Registers}
    (h : Assigned inits registers) (h' : Assigned inits registers') : registers = registers' := by
  apply Vector.ext
  intro i hi
  have hread : ∀ registers : Registers,
      registers.readRegister (BitVec.ofNat 5 (i + 1)) = registers[i] := by
    intro registers
    have hnat : (BitVec.ofNat 5 (i + 1)).toNat = i + 1 := Nat.mod_eq_of_lt (by omega)
    have hne : BitVec.ofNat 5 (i + 1) ≠ 0 := fun heq => by simp [heq] at hnat
    unfold Registers.readRegister
    simp only [if_neg hne, hnat, Nat.add_sub_cancel]
  rw [← hread registers, ← hread registers']
  by_cases hmem : ∃ r ∈ inits, r.register = BitVec.ofNat 5 (i + 1)
  · obtain ⟨r, hr, heq⟩ := hmem
    have hzero : r.register ≠ 0 := by
      intro hzero
      have hnat := congrArg BitVec.toNat (heq.symm.trans hzero)
      rw [BitVec.toNat_ofNat, Nat.mod_eq_of_lt (by omega)] at hnat
      exact absurd hnat (Nat.succ_ne_zero i)
    rw [← heq, h.assigned r hr hzero, h'.assigned r hr hzero]
  · have hnone : ∀ r ∈ inits, r.register ≠ BitVec.ofNat 5 (i + 1) := fun r hr heq =>
      hmem ⟨r, hr, heq⟩
    rw [h.others _ hnone, h'.others _ hnone]

/-- The order of the expected values makes no difference to the verdict. -/
theorem verdict_of_perm {inits inits' : List RegisterInit} (hperm : inits.Perm inits')
    (read : RegNumber → RegValue) : verdict read inits = verdict read inits' := by
  unfold verdict
  have hall : (∀ r ∈ inits, read r.register = r.value) ↔
      ∀ r ∈ inits', read r.register = r.value := forall_congr' fun r =>
    imp_congr_left hperm.mem_iff
  simp only [hall]

/-- A number without a register stops the initialisation. -/
theorem initRegisters_of_not_valid {inits : List RegisterInit} (h : ∃ r ∈ inits, ¬r.Valid)
    (p : Processor) : ∃ e, initRegisters p inits = .error e := by
  induction inits generalizing p with
  | nil => exact absurd h (by simp)
  | cons r inits ih =>
    unfold initRegisters
    rw [List.foldlM_cons]
    cases hfirst : p.initRegister r.number r.value with
    | error e => exact ⟨e, rfl⟩
    | ok p' =>
      obtain ⟨r', hr', hnot⟩ := h
      obtain rfl | hmem := List.mem_cons.mp hr'
      · unfold Processor.initRegister RegisterFile.checkRegNumber at hfirst
        rw [if_pos (Nat.not_lt.mp hnot)] at hfirst
        cases hfirst
      · exact ih ⟨r', hmem, hnot⟩ p'

/-- A test file that writes the test, and the program next to it. -/
structure Written (files : Files) (name : Text) (test : UnitTest) (f : ELFFile) : Prop where
  named : name ≠ []
  config : ∃ lines, files.lines (name ++ testConfigSuffix) = some lines ∧ test.Writes lines
  program : files.contents (name ++ ".bin".toList) = some f

section

variable {files : Files} {name : Text} {test : UnitTest} {f : ELFFile}
  (hwritten : Written files name test f) (execFilename : Text) (initializers : List RegisterInit)

include hwritten

/-- The first half of the launcher takes over what is written. -/
theorem job_cases :
    (test.Distinct ∧ ∃ j,
      job files (some (name ++ testConfigSuffix)) execFilename initializers = .ok j ∧
      files.contents j.programFilename = some f ∧ j.initializers.Perm (test.pre.map (·.init)) ∧
      j.postRegisters.Perm (test.post.map (·.init))) ∨
    ¬test.Distinct ∧ job files (some (name ++ testConfigSuffix)) execFilename initializers =
      .error (.exit .initializationError) := by
  obtain ⟨lines, hlines, hwrites⟩ := hwritten.config
  have hpos : 0 < name.length := List.length_pos_iff.mpr hwritten.named
  have hlength : (name ++ testConfigSuffix).length = name.length + 5 := List.length_append
  have hsuffix : ¬((name ++ testConfigSuffix).length < 6 ∨
      (name ++ testConfigSuffix).drop ((name ++ testConfigSuffix).length - 5) ≠
        testConfigSuffix) := by
    rw [hlength, Nat.add_sub_cancel, List.drop_left]
    exact not_or.mpr ⟨by omega, not_not.mpr rfl⟩
  unfold job
  dsimp only
  rw [if_neg hsuffix]
  unfold testJob
  rw [hlines]
  obtain ⟨hdistinct, t, initial, expected, hload, hfilename, hpre, hpermPre, hpost, hpermPost⟩ |
    ⟨hnot, e, hload⟩ := load_written hwrites (name ++ testConfigSuffix)
  · have hexecutable : t.getExecutable = .ok (name ++ ".bin".toList) := by
      unfold getExecutable
      rw [hfilename, if_neg (by omega), hlength, Nat.add_sub_cancel, List.take_left]
      rfl
    refine .inl ⟨hdistinct, ⟨name ++ ".bin".toList, initial, expected⟩, ?_, hwritten.program,
      hpermPre, hpermPost⟩
    rw [hload]
    simp only [bind, Except.bind, hpre, hpost, hexecutable]
    rfl
  · refine .inr ⟨hnot, ?_⟩
    rw [hload]
    rfl

variable {allocate : ELFFile.Allocator} (hemulated : f.Emulated) (hallocates : f.Allocates allocate)

include hemulated hallocates

/-- A register that does not exist is refused before the program runs. -/
theorem launcher_of_not_valid (hdistinct : test.Distinct)
    (hnot : ∃ a ∈ test.pre, ¬a.init.Valid) (pipelining : Bool) (fuel : Nat) :
    launcher files allocate (some (name ++ testConfigSuffix)) execFilename pipelining initializers
      fuel = some (.exit .invalidArgument) := by
  obtain ⟨-, j, hjob, hfile, hinitial, -⟩ | ⟨hdup, -⟩ :=
    job_cases hwritten execFilename initializers
  · have hinvalid : ∃ r ∈ j.initializers, ¬r.Valid := by
      obtain ⟨a, ha, hvalid⟩ := hnot
      exact ⟨a.init, hinitial.mem_iff.mpr (List.mem_map_of_mem ha), hvalid⟩
    have hload := loadProgram_eq hfile hemulated hallocates
    obtain ⟨e, hinit⟩ := initRegisters_of_not_valid hinvalid
      (Processor.boot f.loaded pipelining (Vector.replicate 31 0))
    unfold launcher start
    rw [hjob]
    simp only [bind, Except.bind, hload, hinit]
    rfl
  · exact absurd hdistinct hdup

theorem ready_of_written (hdistinct : test.Distinct) (hpre : ∀ a ∈ test.pre, a.init.Valid)
    (hpost : ∀ a ∈ test.post, a.init.Valid) : ∃ j,
      Ready files allocate (some (name ++ testConfigSuffix)) execFilename initializers j f ∧
      Assigned (test.pre.map (·.init)) (initial j.initializers) ∧
      j.postRegisters.Perm (test.post.map (·.init)) := by
  have hmap : ∀ {assignments : List Assignment} {inits : List RegisterInit},
      inits.Perm (assignments.map (·.init)) → (∀ a ∈ assignments, a.init.Valid) →
        ∀ r ∈ inits, r.Valid := by
    intro assignments inits hperm hvalid r hr
    obtain ⟨a, ha, rfl⟩ := List.mem_map.mp (hperm.mem_iff.mp hr)
    exact hvalid a ha
  obtain ⟨-, j, hjob, hfile, hinitial, hexpected⟩ | ⟨hdup, -⟩ :=
    job_cases hwritten execFilename initializers
  · have hnodup : (j.initializers.map (·.number)).Nodup := by
      rw [(hinitial.map _).nodup_iff, List.map_map]
      exact hdistinct.1
    exact ⟨j, ⟨hjob, hfile, hemulated, hallocates, hmap hinitial hpre, hmap hexpected hpost⟩,
      (assigned_initial (hmap hinitial hpre) hnodup).of_perm hinitial, hexpected⟩
  · exact absurd hdistinct hdup

end

/-- A register that the program leaves alone. -/
def keptRegister : Assignment where
  init := ⟨2, 7⟩
  before := [' ']
  after := [' ']
  literal := ['7']
  before_blank := List.all_eq_true.mp (by decide)
  after_blank := List.all_eq_true.mp (by decide)
  spells := .decimal (by decide) (List.all_eq_true.mp (by decide))

/-- The test of the program that prints a character. -/
def greetingTest : UnitTest where
  pre := [keptRegister]
  post := [
    { init := ⟨1, 72⟩
      before := [' ']
      after := [' ']
      literal := ['0', 'x', '4', '8']
      before_blank := List.all_eq_true.mp (by decide)
      after_blank := List.all_eq_true.mp (by decide)
      spells := .hexadecimal (.inl rfl) (show ['4', '8'] ≠ [] by decide)
        (List.all_eq_true.mp (by decide)) },
    keptRegister]

end Launcher

end Rv64Emu
