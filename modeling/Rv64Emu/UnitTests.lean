import Rv64Emu.FileExecution
import Rv64Emu.Frontend.Launcher
import Rv64Emu.Pipelined.EndMarker

/-! The verdict of a unit test. It is about the registers of a hart that executes the
file from the initial values of the test, in either mode. -/
namespace Rv64Emu

/-! ### Initial and expected registers -/

namespace RegisterInit

/-- The register file has such a register. -/
def Valid (r : RegisterInit) : Prop := r.number.toNat < 32

instance (r : RegisterInit) : Decidable r.Valid := inferInstanceAs (Decidable (_ < _))

def register (r : RegisterInit) : RegNumber := r.number.setWidth 5

theorem checkRegNumber_of_valid {r : RegisterInit} (h : r.Valid) :
    RegisterFile.checkRegNumber r.number = .ok r.register := by
  unfold RegisterFile.checkRegNumber
  rw [if_neg (Nat.not_le.mpr h)]
  rfl

theorem getRegister_of_valid {r : RegisterInit} (h : r.Valid) (p : Processor) :
    p.getRegister r.number = .ok (p.regfile.registers.readRegister r.register) := by
  unfold Processor.getRegister
  rw [checkRegNumber_of_valid h]
  rfl

end RegisterInit

namespace Launcher

/-- The initialisers, one after the other. -/
def initialised (registers : Registers) (initializers : List RegisterInit) : Registers :=
  initializers.foldl (fun registers r => registers.writeRegister r.register r.value) registers

/-- The registers of a test before the program runs. -/
def initial (initializers : List RegisterInit) : Registers :=
  initialised (Vector.replicate 31 0) initializers

/-- The exit code for the registers at the end. -/
def verdict (read : RegNumber → RegValue) (postRegisters : List RegisterInit) : Ending :=
  .exit (if ∀ r ∈ postRegisters, read r.register = r.value then .success else .unitTestFailed)

theorem initRegisters_boot {initializers : List RegisterInit}
    (h : ∀ r ∈ initializers, r.Valid) (program : Program) (pipelining : Bool)
    (registers : Registers) :
    initRegisters (Processor.boot program pipelining registers) initializers =
      .ok (Processor.boot program pipelining (initialised registers initializers)) := by
  induction initializers generalizing registers with
  | nil => rfl
  | cons r initializers ih =>
    obtain ⟨hhead, htail⟩ := List.forall_mem_cons.mp h
    have hfirst : (Processor.boot program pipelining registers).initRegister r.number r.value =
        .ok (Processor.boot program pipelining (registers.writeRegister r.register r.value)) := by
      unfold Processor.initRegister
      rw [RegisterInit.checkRegNumber_of_valid hhead]
      rfl
    unfold initRegisters
    rw [List.foldlM_cons, hfirst]
    exact ih htail (registers.writeRegister r.register r.value)

/-- The flag of the loop stays down once a register is not as expected. -/
theorem validate_fold {postRegisters : List RegisterInit} (h : ∀ r ∈ postRegisters, r.Valid)
    (p : Processor) (allAsExpected : Bool) :
    postRegisters.foldlM (fun allAsExpected r => do
      let value ← p.getRegister r.number
      return if r.value ≠ value then false else allAsExpected) allAsExpected =
        (.ok (allAsExpected && decide (∀ r ∈ postRegisters,
          p.regfile.registers.readRegister r.register = r.value)) : Except Exception Bool) := by
  induction postRegisters generalizing allAsExpected with
  | nil => simp [pure, Except.pure]
  | cons r postRegisters ih =>
    obtain ⟨hhead, htail⟩ := List.forall_mem_cons.mp h
    rw [List.foldlM_cons, RegisterInit.getRegister_of_valid hhead]
    refine (ih htail _).trans ?_
    by_cases hequal : p.regfile.registers.readRegister r.register = r.value
    · simp [hequal]
    · simp [hequal, Ne.symm hequal]

theorem validateRegisters_eq {postRegisters : List RegisterInit}
    (h : ∀ r ∈ postRegisters, r.Valid) (p : Processor) :
    validateRegisters p postRegisters =
      .ok (decide (∀ r ∈ postRegisters, p.regfile.registers.readRegister r.register = r.value)) :=
  (validate_fold h p true).trans (congrArg Except.ok (Bool.true_and _))

theorem finish_eq {postRegisters : List RegisterInit} (h : ∀ r ∈ postRegisters, r.Valid)
    (p : Processor) :
    finish p postRegisters = verdict p.regfile.registers.readRegister postRegisters := by
  unfold finish verdict
  rw [validateRegisters_eq h]
  by_cases hall : ∀ r ∈ postRegisters, p.regfile.registers.readRegister r.register = r.value
  · rw [decide_eq_true hall, if_pos hall]
  · rw [decide_eq_false hall, if_neg hall]

/-- A test or a program that can start: its files are there, its register numbers are
valid, and the emulator handles the file. -/
structure Ready (files : Files) (allocate : ELFFile.Allocator) (testFilename : Option Text)
    (execFilename : Text) (initializers : List RegisterInit) (j : Job) (f : ELFFile) : Prop where
  job : job files testFilename execFilename initializers = .ok j
  file : files.contents j.programFilename = some f
  emulated : f.Emulated
  allocates : f.Allocates allocate
  initialValid : ∀ r ∈ j.initializers, r.Valid
  postValid : ∀ r ∈ j.postRegisters, r.Valid

theorem loadProgram_eq {files : Files} {allocate : ELFFile.Allocator} {filename : Text}
    {f : ELFFile} (hfile : files.contents filename = some f) (hemulated : f.Emulated)
    (hallocates : f.Allocates allocate) : loadProgram files allocate filename = .ok f.loaded := by
  have hvalue := ELFFile.value_program hemulated.toWellFormed hallocates
  unfold loadProgram
  rw [hfile]
  dsimp only
  rw [Traced.value_bind_of_ok hemulated.accepted, hvalue]
  rfl

section

variable {files : Files} {allocate : ELFFile.Allocator} {testFilename : Option Text}
  {execFilename : Text} {initializers : List RegisterInit} {j : Job} {f : ELFFile}
  (hready : Ready files allocate testFilename execFilename initializers j f)

include hready

theorem start_of_ready (pipelining : Bool) :
    start files allocate testFilename execFilename pipelining initializers =
      .ok (Processor.boot f.loaded pipelining (initial j.initializers), j.postRegisters) := by
  have hload := loadProgram_eq hready.file hready.emulated hready.allocates
  unfold start
  rw [hready.job]
  simp only [bind, Except.bind, hload, initRegisters_boot hready.initialValid]
  rfl

/-- Once the main loop has ended the registers decide. -/
theorem launcher_of_halted {pipelining : Bool} {n : Nat} {s : Processor}
    (hloop : Processor.runLoop n (Processor.boot f.loaded pipelining (initial j.initializers)) =
      .halted s) {fuel : Nat} (hle : n ≤ fuel) :
    launcher files allocate testFilename execFilename pipelining initializers fuel =
      some (verdict s.regfile.registers.readRegister j.postRegisters) := by
  have hended : ∀ t, Processor.runLoop n
      (Processor.boot f.loaded pipelining (initial j.initializers)) ≠ .running t := by
    intro t hrunning
    cases hloop.symm.trans hrunning
  have hfuel := Processor.runLoop_of_le hended hle
  unfold launcher
  rw [start_of_ready hready]
  simp only [hfuel, hloop, finish_eq hready.postValid]

theorem launcher_of_terminated {pipelining : Bool} {n : Nat} {e : Exception} {s : Processor}
    (hloop : Processor.runLoop n (Processor.boot f.loaded pipelining (initial j.initializers)) =
      .terminated e s) (hdefined : e.isCatchable = true) {fuel : Nat} (hle : n ≤ fuel) :
    launcher files allocate testFilename execFilename pipelining initializers fuel =
      some (verdict s.regfile.registers.readRegister j.postRegisters) := by
  have hended : ∀ t, Processor.runLoop n
      (Processor.boot f.loaded pipelining (initial j.initializers)) ≠ .running t := by
    intro t hrunning
    cases hloop.symm.trans hrunning
  have hfuel := Processor.runLoop_of_le hended hle
  unfold launcher
  rw [start_of_ready hready]
  simp only [hfuel, hloop, finish_eq hready.postValid]
  cases e with
  | outOfBounds addr => cases hdefined
  | _ => rfl

end

/-! ### The end of the run -/

open Processor Conformance

/-- The main loop has ended with the given registers, and its behaviour is defined. -/
def EndsWith (start : Processor) (n : Nat) (registers : Registers) : Prop :=
  (∃ s, runLoop n start = .halted s ∧ s.regfile.registers = registers) ∨
    ∃ e s, runLoop n start = .terminated e s ∧ e.isCatchable = true ∧
      s.regfile.registers = registers

theorem Ready.launcher_eq {files : Files} {allocate : ELFFile.Allocator}
    {testFilename : Option Text} {execFilename : Text} {initializers : List RegisterInit} {j : Job}
    {f : ELFFile} (hready : Ready files allocate testFilename execFilename initializers j f)
    {pipelining : Bool} {n : Nat} {registers : Registers}
    (hends : EndsWith (boot f.loaded pipelining (initial j.initializers)) n registers) {fuel : Nat}
    (hle : n ≤ fuel) :
    launcher files allocate testFilename execFilename pipelining initializers fuel =
      some (verdict registers.readRegister j.postRegisters) := by
  obtain ⟨s, hloop, rfl⟩ | ⟨e, s, hloop, hdefined, rfl⟩ := hends
  · exact launcher_of_halted hready hloop hle
  · exact launcher_of_terminated hready hloop hdefined hle

section

variable {program : Program} (hapart : program.Apart) {registers : Registers} {k : Nat}
  {h : Rv64i.Hart Signal} (hrun : hartRun program registers k = some h)
  (hexecutes : ∀ j < k, ∀ g, hartRun program registers j = some g → executes g.word = true)
  (hends : Ends program h)

include hapart hrun hexecutes hends

/-- The end of the hart is the end of the main loop. -/
theorem endsWith_of_hart : ∃ n σ, Abreast program registers k σ h ∧ σ.next = none ∧
    EndsWith (boot program false registers) n σ.registers := by
  obtain ⟨σ, hσ⟩ := abreast_of_hart hapart hrun hexecutes
  have hstuck := stuck_of_ends hapart hσ.toRepresents hends
  cases hhalt : σ.clients.shouldHalt with
  | true =>
    obtain ⟨n, s, hreached⟩ := reached (atStage_boot program registers) hσ.steps
    have hflag : s.shouldHalt = true := by
      unfold shouldHalt
      rw [hreached.clients, hhalt]
    have hloop : runLoop (n + 0) (boot program false registers) = runLoop 0 s :=
      runLoop_of_steps hreached.steps
    exact ⟨n, σ, hσ, hstuck, .inl ⟨s, hloop.trans (runLoop_of_halt hflag), hreached.registers⟩⟩
  | false =>
    obtain hhalt' | ⟨e, hstep, hdefined⟩ := ends_cases hapart hσ.toRepresents hends
    · cases hhalt.symm.trans hhalt'
    · obtain ⟨m, s, u, hthrown⟩ :=
        error_reached (atStage_boot program registers) hσ.steps hhalt hstep
      obtain ⟨n, hloop⟩ := runLoop_terminated_iff.mpr ⟨m, s, hthrown.toThrows⟩
      exact ⟨n, σ, hσ, hstuck, .inr ⟨e, u, hloop, hdefined, hthrown.registers⟩⟩

end

/-- The pipeline throws the end marker, which it has met on no wrong path, and with
no instruction lost in front of it. -/
def DrainsToMarker (program : Program) (registers : Registers) (e : Exception) : Prop :=
  MarkerIssues program registers ∧ RedirectsStay program registers ∧
    ∃ addr, e = .testEndMarkerEncountered addr

/-- Such a pipeline has the registers of the machine at its end. -/
theorem registers_of_drained {program : Program} {registers : Registers}
    (hsettled : Settled program registers) {e : Exception} {n : Nat} {s u : Processor}
    (hdrains : DrainsToMarker program registers e)
    (h : Throws (boot program true registers) n e s u) :
    ∃ k σ, Runs.steps ArchState.next k (boot program false registers).arch = some σ ∧
      σ.next = none ∧ u.regfile.registers = σ.registers := by
  obtain ⟨hissues, hstay, addr, rfl⟩ := hdrains
  obtain ⟨k, σ, hσ⟩ := atMarker_steps hsettled h.steps
  obtain ⟨hcase, huntouched⟩ := cycle_throws hσ.tracks.pipelining h.thrown
  obtain ⟨hseen, hcount, -⟩ := drained_of_marker hcase
  have hdropped := (dropped_eq_none_iff hsettled h.steps).mpr fun i _ u => hissues i u
  have hstep := step_of_emptied hσ hseen hcount h.running
    (pc_of_redirectsStay hstay (fun _ _ => h.not_halted) h.steps hseen) hdropped
  refine ⟨k, σ, hσ.steps, ArchState.next_of_error hstep, ?_⟩
  rw [huntouched.registers, registers_of_emptied hσ hseen hcount]

section

variable {program : Program} (hapart : program.Apart) {registers : Registers} {k : Nat}
  {h : Rv64i.Hart Signal} (hrun : hartRun program registers k = some h)
  (hexecutes : ∀ j < k, ∀ g, hartRun program registers j = some g → executes g.word = true)
  (hends : Ends program h)
  (hcode : ∀ j ≤ k, ∀ g, hartRun program registers j = some g →
    g.stopped program.platform = false → program.platform.writable g.pc 1 = false)

include hapart hrun hexecutes hends hcode

/-- The pipeline ends with the same registers, or on another exception. -/
theorem pipelined_endsWith {n : Nat} {σ : ArchState}
    (hsteps : Runs.steps ArchState.next k (boot program false registers).arch = some σ)
    (hstuck : σ.next = none) (hended : EndsWith (boot program false registers) n σ.registers) :
    ∃ m, EndsWith (boot program true registers) m σ.registers ∨
      ∃ e u, runLoop m (boot program true registers) = .terminated e u ∧
        ¬DrainsToMarker program registers e := by
  have hreadOnly : ∀ addr, Fetches program false registers addr →
      (boot program false registers).bus.clients.ReadOnlyAt addr :=
    fun addr => readOnlyAt_of_hart hapart hrun hexecutes hends hcode
  have hcodeReadOnly : CodeReadOnly program registers := fun addr _ => hreadOnly addr
  have hthrows : ∀ m e u, runLoop m (boot program true registers) = .terminated e u →
      ∃ m, EndsWith (boot program true registers) m σ.registers ∨
        ∃ e u, runLoop m (boot program true registers) = .terminated e u ∧
          ¬DrainsToMarker program registers e := by
    intro m e u hloop
    by_cases hdrains : DrainsToMarker program registers e
    · obtain ⟨i, s, hthrown⟩ := runLoop_terminated_iff.mp ⟨m, hloop⟩
      obtain ⟨l, τ, hτ, hnone, hregisters⟩ :=
        registers_of_drained (settled_of_readOnly hreadOnly) hdrains hthrown
      obtain ⟨-, rfl⟩ := Runs.steps_stuck_unique hτ hnone hsteps hstuck
      obtain ⟨-, -, addr, rfl⟩ := hdrains
      exact ⟨m, .inl (.inr ⟨_, u, hloop, rfl, hregisters⟩)⟩
    · exact ⟨m, .inr ⟨e, u, hloop, hdrains⟩⟩
  obtain ⟨s, hloop, hregisters⟩ | ⟨e, s, hloop, -, -⟩ := hended
  · obtain ⟨t, hloop', halike⟩ | ⟨e, u, hloop'⟩ := halts_in_time hcodeReadOnly hloop
    · exact ⟨_, .inl (.inl ⟨t, hloop', halike.registers.trans hregisters⟩)⟩
    · exact hthrows _ e u hloop'
  · obtain ⟨e', u, hloop'⟩ := throws_in_time hcodeReadOnly hloop
    exact hthrows _ e' u hloop'

end

/-- A test passes exactly if a hart that executes the file from the initial values of
the test comes to its end with the expected values. The pipeline gives the same
verdict if its code does not change, unless it has thrown an exception other than the
end marker, or has met the marker on a wrong path or with an instruction lost. -/
theorem launcher_of_hart {files : Files} {allocate : ELFFile.Allocator}
    {testFilename : Option Text} {execFilename : Text} {initializers : List RegisterInit} {j : Job}
    {f : ELFFile} (hready : Ready files allocate testFilename execFilename initializers j f)
    {k : Nat} {h : Rv64i.Hart Signal} (hrun : f.hartRun (initial j.initializers) k = some h)
    (hexecutes : ∀ i < k, ∀ g, f.hartRun (initial j.initializers) i = some g →
      executes g.word = true) (hends : Ends f.loaded h) :
    (∃ n, ∀ fuel, n ≤ fuel →
      launcher files allocate testFilename execFilename false initializers fuel =
        some (verdict h.registers.read j.postRegisters)) ∧
    ((∀ i ≤ k, ∀ g, f.hartRun (initial j.initializers) i = some g →
        g.stopped f.platform = false → f.platform.writable g.pc 1 = false) →
      ∃ n, ∀ fuel, n ≤ fuel →
        launcher files allocate testFilename execFilename true initializers fuel =
            some (verdict h.registers.read j.postRegisters) ∨
          ∃ e u, runLoop fuel (boot f.loaded true (initial j.initializers)) = .terminated e u ∧
            ¬DrainsToMarker f.loaded (initial j.initializers) e) := by
  have hapart := ELFFile.apart_loaded hready.emulated
  simp only [← ELFFile.hartRun_loaded hready.emulated, ← ELFFile.platform_loaded]
    at hrun hexecutes ⊢
  obtain ⟨n, σ, hσ, hstuck, hended⟩ := endsWith_of_hart hapart hrun hexecutes hends
  have hregisters : σ.registers.readRegister = h.registers.read := hσ.registers
  rw [← hregisters]
  refine ⟨⟨n, fun fuel hle => hready.launcher_eq hended hle⟩, fun hcode => ?_⟩
  obtain ⟨m, hpipelined | ⟨e, u, hloop, hother⟩⟩ :=
    pipelined_endsWith hapart hrun hexecutes hends hcode hσ.steps hstuck hended
  · exact ⟨m, fun fuel hle => .inl (hready.launcher_eq hpipelined hle)⟩
  · refine ⟨m, fun fuel hle => .inr ⟨e, u, ?_, hother⟩⟩
    rw [runLoop_of_le _ hle, hloop]
    intro t hrunning
    cases hloop.symm.trans hrunning

/-- A test of the program that prints a character: one register is kept, and the
character is left in another one. -/
def greetingFiles : Files where
  lines name := if name = "greeting.conf".toList then
    some ["[pre]".toList, "R2 = 7".toList, [], "[post]".toList, "R1 = 0x48".toList,
      "R2 = 7".toList] else none
  contents name := if name = "greeting.bin".toList then some ELFFile.greetingFile else none

def greetingJob : Job where
  programFilename := "greeting.bin".toList
  initializers := [⟨2, 7⟩]
  postRegisters := [⟨1, 72⟩, ⟨2, 7⟩]

theorem greeting_ready : Ready greetingFiles ELFFile.alignedHeap (some "greeting.conf".toList) []
    [] greetingJob ELFFile.greetingFile where
  job := by decide +kernel
  file := rfl
  emulated := ELFFile.greetingFile_emulated
  allocates := ELFFile.greetingFile_allocates
  initialValid := by decide
  postValid := by decide

theorem greeting_executes : ∀ i < 3, ∀ g,
    ELFFile.greetingFile.hartRun (initial greetingJob.initializers) i = some g →
      executes g.word = true := by
  have hall : ∀ i < 3, (ELFFile.greetingFile.hartRun (initial greetingJob.initializers) i).all
      (fun g => executes g.word) = true := by decide +kernel
  intro i hi g hg
  have hg' := hall i hi
  rw [hg] at hg'
  exact hg'

theorem greeting_halts : ∃ h, ELFFile.greetingFile.hartRun (initial greetingJob.initializers) 3 =
    some h ∧ h.stopped ELFFile.greetingFile.platform = true ∧
      verdict h.registers.read greetingJob.postRegisters = .exit .success := by
  have hend : (ELFFile.greetingFile.hartRun (initial greetingJob.initializers) 3).map (fun h =>
      (h.stopped ELFFile.greetingFile.platform,
        verdict h.registers.read greetingJob.postRegisters)) =
      some (true, .exit .success) := by decide +kernel
  obtain ⟨h, hh, hpair⟩ := Option.map_eq_some_iff.mp hend
  obtain ⟨hstopped, hverdict⟩ := Prod.mk.inj hpair
  exact ⟨h, hh, hstopped, hverdict⟩

theorem launcher_of_hart_greeting : ∃ n, ∀ fuel, n ≤ fuel →
    launcher greetingFiles ELFFile.alignedHeap (some "greeting.conf".toList) [] false [] fuel =
      some (.exit .success) := by
  obtain ⟨h, hh, hstopped, hverdict⟩ := greeting_halts
  rw [← hverdict]
  exact (launcher_of_hart greeting_ready hh greeting_executes (.inl hstopped)).1

end Launcher

end Rv64Emu
