import Rv64Emu.DebugTrace
import Rv64Emu.Frontend.Transcript
import Rv64Emu.SpacedPrograms

/-! All that the non-pipelined emulator writes to the standard error stream, from the
run of a hart that executes the file. -/
namespace Rv64Emu

namespace Processor

/-! ### The output of the main loop -/

section

variable {testMode debugMode showbase : Bool} {n fuel : Nat} {s t : Processor}

theorem transcript_of_next (h : next s = some t) :
    transcript testMode debugMode showbase (fuel + 1) s = s.cerr debugMode ++
      transcript testMode debugMode (showbase || !(s.dumped debugMode).isEmpty) fuel t := by
  obtain ⟨hhalt, hcycle⟩ := next_eq_some_iff.mp h
  rw [transcript, hhalt, hcycle]
  rfl

theorem transcript_of_steps (h : Runs.steps next n s = some t) :
    transcript testMode debugMode showbase (n + fuel) s = Runs.trace next (cerr debugMode) n s ++
      transcript testMode debugMode
        (showbase || !(Runs.trace next (dumped debugMode) n s).isEmpty) fuel t := by
  induction n generalizing t fuel with
  | zero =>
    cases h
    rw [Nat.zero_add, Runs.trace_zero, Runs.trace_zero, List.isEmpty_nil, Bool.not_true,
      Bool.or_false]
    rfl
  | succ n ih =>
    obtain ⟨u, hu, hlast⟩ := Runs.steps_succ_cases h
    have hempty : ∀ l l' : List IFIDRegisters, (l ++ l').isEmpty = (l.isEmpty && l'.isEmpty) := by
      intro l l'
      cases l <;> rfl
    rw [Nat.add_assoc, Nat.add_comm 1, ih hu, transcript_of_next hlast, Runs.trace_succ hu,
      Runs.trace_succ hu, List.append_assoc, hempty, Bool.not_and, Bool.or_assoc]

theorem transcript_of_halt (h : s.shouldHalt = true) :
    transcript testMode debugMode showbase fuel s = [] := by
  unfold transcript
  rw [if_pos h]

theorem transcript_of_error {e : Exception} (hhalt : s.shouldHalt = false)
    (h : cycle s = .error e t) : transcript testMode debugMode showbase (fuel + 1) s =
      (s.dumped debugMode).flatMap IFIDRegisters.dump ++ asciiBytes (abnormalTermination testMode
        (showbase || !(s.dumped debugMode).isEmpty) e t.pc) := by
  rw [transcript, hhalt, h]
  rfl

theorem trace_dumped_off (h : Runs.steps next n s = some t) :
    Runs.trace next (dumped false) n s = [] := by
  induction n generalizing t with
  | zero => rfl
  | succ n ih =>
    obtain ⟨u, hu, -⟩ := Runs.steps_succ_cases h
    rw [Runs.trace_succ hu, ih hu, dumped_off]
    rfl

/-- The non-pipelined machine has printed a line unless it is at its first instruction. -/
theorem isEmpty_dumped {k : Nat} (hs : AtStage 0 s) (h : Runs.steps next (5 * k) s = some t) :
    (!(Runs.trace next (dumped debugMode) (5 * k) s).isEmpty) = (debugMode && k != 0) := by
  cases debugMode with
  | false =>
    rw [trace_dumped_off h]
    rfl
  | true =>
    cases k with
    | zero => rfl
    | succ k =>
      have hsplit : 5 * (k + 1) = 2 + (5 * k + 3) := by omega
      rw [hsplit] at h ⊢
      obtain ⟨v, hv, hrest⟩ := Runs.steps_add_cases h
      obtain ⟨u, hu, -⟩ := Runs.steps_succ_cases hv
      have hcycle : cycle s = .ok () u := (next_eq_some_iff.mp hu).2
      obtain ⟨hstage, -⟩ := atStage_next hs hcycle
      have hclocks : u.clocks .instructionDecode = true := clocks_alone hstage _
      rw [Runs.trace_add hv hrest, Runs.trace_succ hu, dumped_alone hstage.pipelining hclocks]
      simp

end

end Processor

namespace Conformance

open Processor

/-! ### The memory accesses of the hart -/

/-- The bytes that the next instruction loads, and those that it stores. -/
def loadedBytes (h : Rv64i.Hart Signal) : Nat :=
  ((Rv64i.decodeLoad h.word).map Rv64i.Load.bytes).getD 0

def storedBytes (h : Rv64i.Hart Signal) : Nat :=
  ((Rv64i.decodeStore h.word).map Rv64i.Store.bytes).getD 0

section

variable {program : Program} (hapart : program.Apart) {σ : ArchState} {h g : Rv64i.Hart Signal}
  (hrep : Represents program σ h) (hexecutes : executes h.word = true)
  (hstep : h.step program.platform = .ok g)

include hapart hrep hexecutes hstep

theorem loaded_of_hart : Width.total σ.loaded = loadedBytes h := by
  obtain ⟨τ, hτ⟩ := follows_step hapart hrep hexecutes hstep
  unfold Rv64i.Hart.step at hstep
  split at hstep
  case isFalse => cases hstep
  case isTrue hreadable =>
  split at hstep
  case h_2 => cases hstep
  case h_1 i hlisted =>
  have hfetch := fetch_of_listed hapart hrep hreadable hlisted
  obtain ⟨idEx, -, -, hdecode, -⟩ := ArchState.step_ok_iff.mp hτ.step
  obtain ⟨word, hword, hat⟩ := ArchState.decode_ok_iff.mp hdecode
  cases hfetch.symm.trans hword
  obtain ⟨immediate, -, rfl⟩ := decodeAt_ok_iff.mp hat
  rw [ArchState.loaded_of hdecode]
  change Width.total (if (ControlSignals.setFromInstruction ⟨h.word⟩).memRead then
    (Width.ofSize (ControlSignals.setFromInstruction ⟨h.word⟩).memSize).toList else []) = _
  unfold loadedBytes
  cases hload : Rv64i.decodeLoad h.word with
  | none =>
    have hread : ¬(ControlSignals.setFromInstruction ⟨h.word⟩).memRead = true := by
      intro hread
      obtain ⟨l, hl, -⟩ := load_of_opcode hlisted ((Interlock.memRead_setFromInstruction _).mp hread)
      cases hload.symm.trans hl
    rw [if_neg hread]
    rfl
  | some l =>
    unfold Rv64i.decodeLoad at hload
    split at hload
    case isFalse => cases hload
    case isTrue hbits =>
    obtain ⟨⟨bytes, signed⟩, hformat, rfl⟩ := Option.map_eq_some_iff.mp hload
    obtain ⟨width, hsize, hbytes, -⟩ := LoadStore.loadAccess_of_loadFormat hformat
    have hopcode : InstructionDecoder.getOpcode ⟨h.word⟩ = .load := by
      rw [InstructionDecoder.getOpcode_eq, hbits]
      rfl
    unfold ControlSignals.setFromInstruction
    rw [hopcode, InstructionDecoder.getFunct3_eq, hsize, if_pos rfl]
    exact (Nat.add_zero _).trans hbytes

theorem stored_of_hart : Width.total σ.stored = storedBytes h := by
  obtain ⟨τ, hτ⟩ := follows_step hapart hrep hexecutes hstep
  unfold Rv64i.Hart.step at hstep
  split at hstep
  case isFalse => cases hstep
  case isTrue hreadable =>
  split at hstep
  case h_2 => cases hstep
  case h_1 i hlisted =>
  have hfetch := fetch_of_listed hapart hrep hreadable hlisted
  unfold ArchState.stored storedBytes
  cases hstore : Rv64i.decodeStore h.word with
  | none =>
    rw [busWrites_of_no_store hfetch hstore hτ.step]
    rfl
  | some st =>
    obtain ⟨write, hwrites⟩ := writes_of_store hfetch hstore
    have hlength := congrArg List.length hwrites.bytes
    rw [LittleEndian.length_toBytes, LittleEndian.length_toBytes] at hlength
    rw [hwrites.busWrites]
    exact (Nat.add_zero _).trans hlength

end

/-- A number for each instruction of a run. -/
def total (program : Program) (initial : Registers) (k : Nat) (event : Rv64i.Hart Signal → Nat) :
    Nat :=
  (Runs.trace (Rv64i.Hart.next program.platform) (fun h => [event h]) k (program.hart initial)).sum

theorem total_of_hart {program : Program} (hapart : program.Apart) {initial : Registers}
    {archEvent : ArchState → List Width} {event : Rv64i.Hart Signal → Nat}
    (hevent : ∀ σ h g, Represents program σ h → executes h.word = true →
      h.step program.platform = .ok g → Width.total (archEvent σ) = event h) {k : Nat}
    {h : Rv64i.Hart Signal} (hrun : hartRun program initial k = some h)
    (hexecutes : ∀ j < k, ∀ g, hartRun program initial j = some g → executes g.word = true) :
    Width.total (Runs.trace ArchState.next archEvent k (boot program false initial).arch) =
      total program initial k event := by
  have hsum : ∀ {k σ}, Runs.steps ArchState.next k (boot program false initial).arch = some σ →
      Width.total (Runs.trace ArchState.next archEvent k (boot program false initial).arch) =
        (Runs.trace ArchState.next (fun σ => [Width.total (archEvent σ)]) k
          (boot program false initial).arch).sum := by
    intro k σ hσ
    induction k generalizing σ with
    | zero => rfl
    | succ k ih =>
      obtain ⟨ρ, hρ, -⟩ := Runs.steps_succ_cases hσ
      rw [Runs.trace_succ hρ, Runs.trace_succ hρ, Width.total_append, List.sum_append, ih hρ,
        List.sum_singleton]
  obtain ⟨σ, hσ⟩ := abreast_of_hart hapart hrun hexecutes
  have hnumber : ∀ σ h g, Represents program σ h → executes h.word = true →
      h.step program.platform = .ok g → [Width.total (archEvent σ)] = [event h] :=
    fun σ h g hrep hexec hstep => congrArg (fun n => [n]) (hevent σ h g hrep hexec hstep)
  rw [hsum hσ.steps]
  exact congrArg List.sum (trace_of_hart hapart hnumber hrun hexecutes)

/-- The statistics for `k` instructions that have been issued. -/
def runStatistics (program : Program) (initial : Registers) (k cycles completed fetches : Nat) :
    String :=
  statisticsText none (cycles % 2 ^ 64) (k % 2 ^ 64) (completed % 2 ^ 64)
    ((4 * fetches + total program initial k loadedBytes) % 2 ^ 64)
    (total program initial k storedBytes % 2 ^ 64)

section

variable {program : Program} (hapart : program.Apart) {initial : Registers} {k n : Nat}
  {h : Rv64i.Hart Signal} (hrun : hartRun program initial k = some h)
  (hexecutes : ∀ j < k, ∀ g, hartRun program initial j = some g → executes g.word = true)
  {σ : ArchState} (hσ : Abreast program initial k σ h) {s : Processor}
  (hreached : Reached (boot program false initial) k σ n s)

include hapart hrun hexecutes hσ hreached

theorem bytesRead_of_hart : s.bus.bytesRead =
    BitVec.ofNat 64 (4 * k + total program initial k loadedBytes) := by
  have htally := tallied_reached hσ.steps hreached
  have hloaded := total_of_hart hapart (fun σ h g hrep hexec hstep =>
    loaded_of_hart hapart hrep hexec hstep) hrun hexecutes
  rw [(moved_run hreached.steps).bytesRead, htally.fetched, htally.loaded, hloaded,
    total_replicate]

theorem bytesWritten_of_hart : s.bus.bytesWritten =
    BitVec.ofNat 64 (total program initial k storedBytes) := by
  have hstored := total_of_hart hapart (fun σ h g hrep hexec hstep =>
    stored_of_hart hapart hrep hexec hstep) hrun hexecutes
  have hwritten : Width.total ((Runs.trace next busWrites n (boot program false initial)).map
      BusWrite.width) = total program initial k storedBytes := by
    rw [← hstored, hreached.busWrites, ← Runs.trace_map BusWrite.width hσ.steps]
    rfl
  rw [(moved_run hreached.steps).bytesWritten, hwritten]

/-- The instruction that halts the system has not been retired, and its fifth cycle
has not been run. -/
theorem dumpStatistics_of_halted (hhalt : s.shouldHalt = true) : s.dumpStatistics =
    asciiBytes (runStatistics program initial k (5 * k - 1) (k - 1) k) := by
  have htally := tallied_reached hσ.steps hreached
  have hcycles := htally.cycles
  rw [if_pos hhalt] at hcycles
  obtain ⟨i, -, hstage⟩ := atStage_steps (atStage_boot program initial) hreached.steps
  unfold dumpStatistics runStatistics
  rw [hstage.pipelining, (moved_run hreached.steps).nCycles, htally.nInstrIssued,
    htally.nInstrCompleted, bytesRead_of_hart hapart hrun hexecutes hσ hreached,
    bytesWritten_of_hart hapart hrun hexecutes hσ hreached]
  simp only [BitVec.toNat_ofNat, show n = 5 * k - 1 by omega, show (5 * k - 1) / 5 = k - 1 by omega]
  rfl

/-- The word that is no instruction has been read as well. -/
theorem dumpStatistics_of_unfetched (hhalt : s.shouldHalt = false) :
    (InstructionFetchStage.accessed (ready s)).dumpStatistics =
      asciiBytes (runStatistics program initial k (5 * k) k (k + 1)) := by
  have htally := tallied_reached hσ.steps hreached
  have hcycles := htally.cycles
  rw [if_neg (Bool.eq_false_iff.mp hhalt)] at hcycles
  obtain ⟨i, -, hstage⟩ := atStage_steps (atStage_boot program initial) hreached.steps
  have hread : s.bus.bytesRead + BitVec.ofNat 64 Width.word.bytes =
      BitVec.ofNat 64 (4 * (k + 1) + total program initial k loadedBytes) := by
    rw [bytesRead_of_hart hapart hrun hexecutes hσ hreached, ← BitVec.ofNat_add]
    exact congrArg (BitVec.ofNat 64) (Nat.add_right_comm _ _ _)
  unfold dumpStatistics runStatistics
  change asciiBytes (statisticsText (if s.pipelining then some s.nStalls.toNat else none)
    s.nCycles.toNat s.nInstrIssued.toNat s.nInstrCompleted.toNat
    (s.bus.bytesRead + BitVec.ofNat 64 Width.word.bytes).toNat s.bus.bytesWritten.toNat) = _
  rw [hstage.pipelining, (moved_run hreached.steps).nCycles, htally.nInstrIssued,
    htally.nInstrCompleted, hread, bytesWritten_of_hart hapart hrun hexecutes hσ hreached]
  simp only [BitVec.toNat_ofNat, show n = 5 * k by omega, show 5 * k / 5 = k by omega]
  rfl

end

/-! ### The end of a run -/

/-- The hart has no instruction to execute next. -/
def Unfetched (program : Program) (h : Rv64i.Hart Signal) : Prop :=
  program.platform.readable h.pc 4 = false ∨ h.word = testEndMarker

def fetchError (program : Program) (h : Rv64i.Hart Signal) : Exception :=
  if program.platform.readable h.pc 4 then .testEndMarkerEncountered h.pc
  else .instructionFetchFailure h.pc

theorem fetch_of_unfetched {program : Program} (hapart : program.Apart) {σ : ArchState}
    {h : Rv64i.Hart Signal} (hrep : Represents program σ h) (hends : Unfetched program h) :
    σ.fetch = .error (fetchError program h) := by
  unfold fetchError
  cases hreadable : program.platform.readable h.pc 4 with
  | false =>
    rw [if_neg Bool.false_ne_true]
    exact fetch_of_unreadable hapart hrep hreadable
  | true =>
    obtain hunreadable | hword := hends
    · cases hreadable.symm.trans hunreadable
    · rw [if_pos rfl]
      exact fetch_of_marker hapart hrep hreadable hword

theorem fetchError_cases (program : Program) (h : Rv64i.Hart Signal) :
    fetchError program h = .testEndMarkerEncountered h.pc ∨
      fetchError program h = .instructionFetchFailure h.pc := by
  unfold fetchError
  split
  · exact .inl rfl
  · exact .inr rfl

/-- What a program, which is no unit test, leaves behind on the standard error
stream after `k` instructions. -/
def closing (debugMode : Bool) (program : Program) (initial : Registers) (k : Nat)
    (h : Rv64i.Hart Signal) : String :=
  if h.stopped program.platform then
    registerTable h.registers.read ++ runStatistics program initial k (5 * k - 1) (k - 1) k
  else
    abnormalTermination false (debugMode && k != 0) (fetchError program h) h.pc ++
      (registerTable h.registers.read ++ runStatistics program initial k (5 * k) k (k + 1))

end Conformance

namespace Launcher

open Processor Conformance

/-- The messages about the registers that are not as expected. -/
def mismatches (read : RegNumber → RegValue) (postRegisters : List RegisterInit) : String :=
  String.join <| (postRegisters.filter fun r => read r.register ≠ r.value).map fun r =>
    mismatch r (read r.register)

theorem validationText_eq {postRegisters : List RegisterInit} (h : ∀ r ∈ postRegisters, r.Valid)
    (p : Processor) :
    validationText p postRegisters = mismatches p.regfile.registers.readRegister postRegisters := by
  induction postRegisters with
  | nil => rfl
  | cons r postRegisters ih =>
    obtain ⟨hhead, htail⟩ := List.forall_mem_cons.mp h
    unfold validationText
    rw [RegisterInit.getRegister_of_valid hhead]
    dsimp only
    rw [ih htail]
    unfold mismatches
    by_cases hequal : p.regfile.registers.readRegister r.register = r.value
    · rw [if_neg (not_not.mpr hequal.symm), List.filter_cons_of_neg (by simpa using hequal)]
      exact String.empty_append
    · rw [if_pos (Ne.symm hequal), List.filter_cons_of_pos (by simpa using hequal),
        List.map_cons, String.join_cons]

section

variable {files : Files} {allocate : ELFFile.Allocator} {testFilename : Option Text}
  {execFilename : Text} {initializers : List RegisterInit} {j : Job} {f : ELFFile}
  (hready : Ready files allocate testFilename execFilename initializers j f) {pipelining : Bool}
  {n : Nat} {s : Processor} (debugMode : Bool)

include hready

/-- Once the main loop has ended the rest of the output is about the last state. -/
theorem emulate_of_halted
    (hsteps : Runs.steps next n (boot f.loaded pipelining (initial j.initializers)) = some s)
    (hhalt : s.shouldHalt = true) {fuel : Nat} (hle : n ≤ fuel) :
    emulate files allocate testFilename execFilename pipelining debugMode initializers fuel =
      some (Runs.trace next (cerr debugMode) n (boot f.loaded pipelining (initial j.initializers)) ++
        report testFilename s j.postRegisters,
        verdict s.regfile.registers.readRegister j.postRegisters) := by
  obtain ⟨rest, rfl⟩ := Nat.exists_eq_add_of_le hle
  have hloop : runLoop (n + rest) (boot f.loaded pipelining (initial j.initializers)) =
      .halted s := (runLoop_of_steps hsteps).trans (runLoop_of_halt hhalt)
  unfold emulate
  rw [start_of_ready hready]
  simp only [hloop, transcript_of_steps hsteps, transcript_of_halt hhalt, List.append_nil,
    finish_eq hready.postValid]

theorem emulate_of_thrown {e : Exception} {u : Processor}
    (h : Throws (boot f.loaded pipelining (initial j.initializers)) n e s u)
    (hdefined : e.isCatchable = true) (hnone : s.dumped debugMode = []) {fuel : Nat}
    (hlt : n < fuel) :
    emulate files allocate testFilename execFilename pipelining debugMode initializers fuel =
      some (Runs.trace next (cerr debugMode) n (boot f.loaded pipelining (initial j.initializers)) ++
        asciiBytes (abnormalTermination testFilename.isSome (!(Runs.trace next (dumped debugMode) n
          (boot f.loaded pipelining (initial j.initializers))).isEmpty) e u.pc) ++
        report testFilename u j.postRegisters,
        verdict u.regfile.registers.readRegister j.postRegisters) := by
  obtain ⟨rest, rfl⟩ := Nat.exists_eq_add_of_lt hlt
  rw [Nat.add_assoc]
  have hloop : runLoop (n + (rest + 1)) (boot f.loaded pipelining (initial j.initializers)) =
      .terminated e u := (runLoop_of_steps h.steps).trans (runLoop_of_error h.running h.thrown)
  unfold emulate
  rw [start_of_ready hready]
  simp only [hloop, transcript_of_steps h.steps, transcript_of_error h.running h.thrown, hnone,
    finish_eq hready.postValid]
  simp only [List.flatMap_nil, List.nil_append, List.isEmpty_nil, Bool.not_true, Bool.or_false,
    Bool.false_or]
  cases e with
  | outOfBounds addr => cases hdefined
  | _ => rfl

end

/-- The text of each instruction of the hart, then that of the end. -/
def written (testFilename : Option Text) (debugMode : Bool) (f : ELFFile) (j : Job) (k : Nat)
    (h : Rv64i.Hart Signal) : List Byte :=
  Runs.trace (Rv64i.Hart.next f.platform) (narrated debugMode f.loaded) k
      (f.hart (initial j.initializers)) ++
    asciiBytes ((if testFilename.isNone then
        closing debugMode f.loaded (initial j.initializers) k h else "") ++
      mismatches h.registers.read j.postRegisters)

theorem Ready.emulate_eq {files : Files} {allocate : ELFFile.Allocator}
    {testFilename : Option Text} {execFilename : Text} {initializers : List RegisterInit} {j : Job}
    {f : ELFFile} (hready : Ready files allocate testFilename execFilename initializers j f)
    {k : Nat} {h : Rv64i.Hart Signal} (hrun : f.hartRun (initial j.initializers) k = some h)
    (hexecutes : ∀ i < k, ∀ g, f.hartRun (initial j.initializers) i = some g →
      executes g.word = true)
    (hends : h.stopped f.platform = true ∨ f.platform.readable h.pc 4 = false ∨
      h.word = testEndMarker) (debugMode : Bool) {fuel : Nat} (hfuel : 5 * k < fuel) :
    emulate files allocate testFilename execFilename false debugMode initializers fuel =
      some (written testFilename debugMode f j k h,
        verdict h.registers.read j.postRegisters) := by
  unfold written
  have hapart := ELFFile.apart_loaded hready.emulated
  simp only [← ELFFile.hartRun_loaded hready.emulated, ← ELFFile.platform_loaded,
    ← ELFFile.hart_loaded hready.emulated] at hrun hexecutes hends ⊢
  obtain ⟨σ, hσ⟩ := abreast_of_hart hapart hrun hexecutes
  have hstart := atStage_boot f.loaded (initial j.initializers)
  obtain ⟨n, s, hreached⟩ := reached hstart hσ.steps
  have hcerr := (cerr_reached debugMode hstart hσ.steps hreached).trans
    (trace_of_hart hapart (fun σ h g hrep hexec hstep =>
      cerr_of_hart hapart hrep hexec hstep debugMode) hrun hexecutes)
  have hread : s.regfile.registers.readRegister = h.registers.read := by
    rw [hreached.registers]
    exact hσ.registers
  have hhalt : s.shouldHalt = h.stopped f.loaded.platform := by
    unfold shouldHalt
    rw [hreached.clients, hσ.clients]
    exact Program.shouldHalt_clientsWith ..
  have hcycles := (tallied_reached hσ.steps hreached).cycles
  unfold closing
  cases hstopped : h.stopped f.loaded.platform with
  | true =>
    rw [hstopped] at hhalt
    rw [hhalt] at hcycles
    rw [emulate_of_halted hready debugMode hreached.steps hhalt (by omega), hcerr, hread]
    unfold report dumpRegisters
    rw [dumpStatistics_of_halted hapart hrun hexecutes hσ hreached hhalt,
      validationText_eq hready.postValid, hread]
    cases testFilename with
    | none => simp [asciiBytes_append]
    | some testConfig => simp
  | false =>
    rw [hstopped] at hhalt
    obtain ⟨rfl, hs, rfl, -⟩ := hreached.boundary (hreached.clients ▸ hhalt)
    have hfetch := fetch_of_unfetched hapart hσ.toRepresents
      (hends.resolve_left (Bool.eq_false_iff.mp hstopped))
    have hthrows : Throws (boot f.loaded false (initial j.initializers)) (5 * k)
        (fetchError f.loaded h) s (InstructionFetchStage.accessed (ready s)) :=
      ⟨hreached.steps, hhalt, cycle_of_fetch_error hs hfetch⟩
    have hdefined : (fetchError f.loaded h).isCatchable = true := by
      obtain herror | herror := fetchError_cases f.loaded h <;> rw [herror] <;> rfl
    have hidle : s.clocks .instructionDecode = false := clocks_alone hs _
    rw [emulate_of_thrown hready debugMode hthrows hdefined (dumped_of_idle debugMode hidle) hfuel,
      hcerr, isEmpty_dumped hstart hreached.steps]
    have hpc : (InstructionFetchStage.accessed (ready s)).pc = h.pc := hσ.pc
    have hread' : (InstructionFetchStage.accessed (ready s)).regfile.registers.readRegister =
        h.registers.read := hread
    unfold report dumpRegisters
    rw [dumpStatistics_of_unfetched hapart hrun hexecutes hσ hreached hhalt,
      validationText_eq hready.postValid, hread', hpc]
    cases testFilename with
    | none => simp [asciiBytes_append]
    | some testConfig =>
      -- A test ends without a message.
      have hquiet : ∀ showbase, abnormalTermination true showbase (fetchError f.loaded h) h.pc = "" := by
        obtain herror | herror := fetchError_cases f.loaded h <;> rw [herror] <;> exact fun _ => rfl
      simp [hquiet, asciiBytes]

/-- All that the non-pipelined emulator writes to the standard error stream once it
has started, and how it ends: the text of each instruction of the hart, then the
registers and the statistics of a program, or the registers of a test that are not
as expected. The hart halts, or has no more instructions. -/
theorem emulate_of_hart {files : Files} {allocate : ELFFile.Allocator}
    {testFilename : Option Text} {execFilename : Text} {initializers : List RegisterInit} {j : Job}
    {f : ELFFile} (hready : Ready files allocate testFilename execFilename initializers j f)
    {k : Nat} {h : Rv64i.Hart Signal} (hrun : f.hartRun (initial j.initializers) k = some h)
    (hexecutes : ∀ i < k, ∀ g, f.hartRun (initial j.initializers) i = some g →
      executes g.word = true)
    (hends : h.stopped f.platform = true ∨ f.platform.readable h.pc 4 = false ∨
      h.word = testEndMarker) (debugMode : Bool) {fuel : Nat} (hfuel : 5 * k < fuel) :
    emulate files allocate testFilename execFilename false debugMode initializers fuel =
      some (Runs.trace (Rv64i.Hart.next f.platform) (narrated debugMode f.loaded) k
          (f.hart (initial j.initializers)) ++
        asciiBytes ((if testFilename.isNone then
            closing debugMode f.loaded (initial j.initializers) k h else "") ++
          mismatches h.registers.read j.postRegisters),
        verdict h.registers.read j.postRegisters) :=
  hready.emulate_eq hrun hexecutes hends debugMode hfuel

/-- The program that prints a character, which is no test here. -/
theorem greeting_ready_program : Ready greetingFiles ELFFile.alignedHeap none
    "greeting.bin".toList [⟨2, 7⟩]
    { programFilename := "greeting.bin".toList, initializers := [⟨2, 7⟩] }
    ELFFile.greetingFile where
  job := rfl
  file := rfl
  emulated := ELFFile.greetingFile_emulated
  allocates := ELFFile.greetingFile_allocates
  initialValid := by decide
  postValid := by decide

theorem emulate_of_hart_greeting :
    ∃ h, ELFFile.greetingFile.hartRun (initial [⟨2, 7⟩]) 3 = some h ∧
      emulate greetingFiles ELFFile.alignedHeap none "greeting.bin".toList false true [⟨2, 7⟩] 16 =
        some (Runs.trace (Rv64i.Hart.next ELFFile.greetingFile.platform)
            (narrated true ELFFile.greetingFile.loaded) 3
            (ELFFile.greetingFile.hart (initial [⟨2, 7⟩])) ++
          asciiBytes (closing true ELFFile.greetingFile.loaded (initial [⟨2, 7⟩]) 3 h ++
            mismatches h.registers.read []), .exit .success) := by
  obtain ⟨h, hh, hstopped, -⟩ := greeting_halts
  exact ⟨h, hh, emulate_of_hart greeting_ready_program hh greeting_executes (.inl hstopped) true
    (by decide)⟩

/-- The text of each instruction of the hart, then that of the state in which the
pipeline ends, at the end marker if it has not halted. -/
def writtenPipelined (testFilename : Option Text) (f : ELFFile) (j : Job) (k : Nat)
    (h : Rv64i.Hart Signal) (s : Processor) : List Byte :=
  Runs.trace (Rv64i.Hart.next f.platform) (narrated false f.loaded) k
      (f.hart (initial j.initializers)) ++
    (if testFilename.isNone then
      asciiBytes ((if h.stopped f.platform then "" else
        abnormalTermination false false (.testEndMarkerEncountered h.pc) h.pc) ++
          registerTable h.registers.read) ++ s.dumpStatistics
    else []) ++ asciiBytes (mismatches h.registers.read j.postRegisters)

theorem Ready.emulate_spaced {files : Files} {allocate : ELFFile.Allocator}
    {testFilename : Option Text} {execFilename : Text} {initializers : List RegisterInit} {j : Job}
    {f : ELFFile} (hready : Ready files allocate testFilename execFilename initializers j f)
    {k : Nat} {h : Rv64i.Hart Signal} (hrun : f.hartRun (initial j.initializers) k = some h)
    (hexecutes : ∀ i < k, ∀ g, f.hartRun (initial j.initializers) i = some g →
      executes g.word = true)
    (hcode : ∀ i ≤ k, ∀ g, f.hartRun (initial j.initializers) i = some g →
      g.stopped f.platform = false → f.platform.writable g.pc 1 = false)
    (hspaced : ∀ i < k, ∀ g g', f.hartRun (initial j.initializers) i = some g →
      f.hartRun (initial j.initializers) (i + 1) = some g' → spaced f.loaded g g' = true)
    (hends : h.stopped f.platform = true ∨
      f.platform.readable h.pc 4 = true ∧ h.word = testEndMarker) {fuel : Nat}
    (hfuel : 3 * k + 9 < fuel) :
    ∃ s, EndsAs f.loaded (initial j.initializers) (3 * k + 9) h s ∧
      emulate files allocate testFilename execFilename true false initializers fuel =
        some (writtenPipelined testFilename f j k h s,
          verdict h.registers.read j.postRegisters) := by
  unfold writtenPipelined
  have hapart := ELFFile.apart_loaded hready.emulated
  simp only [← ELFFile.hartRun_loaded hready.emulated, ← ELFFile.platform_loaded,
    ← ELFFile.hart_loaded hready.emulated] at hrun hexecutes hcode hspaced hends ⊢
  obtain ⟨s, hs⟩ := pipelined_ends hapart hrun hexecutes hcode hspaced hends
  refine ⟨s, hs, ?_⟩
  obtain ⟨σ, hσ⟩ := abreast_of_hart hapart hrun hexecutes
  obtain ⟨m, t, ht, hstuck, hprinted⟩ := hs.printed
  have hcerr : Runs.trace next (cerr false) m (boot f.loaded true (initial j.initializers)) =
      Runs.trace (Rv64i.Hart.next f.loaded.platform) (narrated false f.loaded) k
        (f.loaded.hart (initial j.initializers)) := by
    rw [funext cerr_off, hprinted, hσ.printed]
    exact trace_of_hart hapart (fun σ h g hrep hexec hstep =>
      cerr_of_hart hapart hrep hexec hstep false) hrun hexecutes
  have hended := hs.ended
  obtain ⟨n, hn, v, hv, ⟨hhalt, hloop⟩ | ⟨e, u, hhalt, hcycle, hloop⟩ | hloop⟩ :=
    runLoop_cases (3 * k + 9) (boot f.loaded true (initial j.initializers))
  · obtain ⟨rfl, rfl⟩ := Runs.steps_stuck_unique ht hstuck hv (next_none_of_halt hhalt)
    cases hstopped : h.stopped f.loaded.platform with
    | false =>
      rw [hloop, hstopped] at hended
      cases hended
    | true =>
      rw [hloop, hstopped] at hended
      cases hended
      rw [emulate_of_halted hready false hv hhalt (by omega), hcerr, hs.registers]
      unfold report dumpRegisters
      rw [validationText_eq hready.postValid, hs.registers]
      cases testFilename with
      | none => simp
      | some testConfig => simp
  · obtain ⟨rfl, rfl⟩ := Runs.steps_stuck_unique ht hstuck hv (next_none_of_error hcycle)
    cases hstopped : h.stopped f.loaded.platform with
    | true =>
      rw [hloop, hstopped] at hended
      cases hended
    | false =>
      rw [hloop, hstopped] at hended
      cases hended
      have hpc := pc_of_marker hapart hrun hexecutes hcode hspaced hends hloop
      rw [emulate_of_thrown hready false ⟨hv, hhalt, hcycle⟩ rfl (dumped_off t) (by omega), hcerr,
        trace_dumped_off hv, hpc, hs.registers]
      unfold report dumpRegisters
      rw [validationText_eq hready.postValid, hs.registers]
      cases testFilename with
      | none => simp [asciiBytes_append]
      | some testConfig => simp [abnormalTermination, asciiBytes]
  · cases hstopped : h.stopped f.loaded.platform <;> rw [hloop, hstopped] at hended <;> cases hended

/-- Without debug mode the pipeline writes the same for a spaced program, in front of
its own statistics: they are those of the state that it ends in. -/
theorem emulate_of_spaced {files : Files} {allocate : ELFFile.Allocator}
    {testFilename : Option Text} {execFilename : Text} {initializers : List RegisterInit} {j : Job}
    {f : ELFFile} (hready : Ready files allocate testFilename execFilename initializers j f)
    {k : Nat} {h : Rv64i.Hart Signal} (hrun : f.hartRun (initial j.initializers) k = some h)
    (hexecutes : ∀ i < k, ∀ g, f.hartRun (initial j.initializers) i = some g →
      executes g.word = true)
    (hcode : ∀ i ≤ k, ∀ g, f.hartRun (initial j.initializers) i = some g →
      g.stopped f.platform = false → f.platform.writable g.pc 1 = false)
    (hspaced : ∀ i < k, ∀ g g', f.hartRun (initial j.initializers) i = some g →
      f.hartRun (initial j.initializers) (i + 1) = some g' → spaced f.loaded g g' = true)
    (hends : h.stopped f.platform = true ∨
      f.platform.readable h.pc 4 = true ∧ h.word = testEndMarker) {fuel : Nat}
    (hfuel : 3 * k + 9 < fuel) :
    ∃ s, EndsAs f.loaded (initial j.initializers) (3 * k + 9) h s ∧
      emulate files allocate testFilename execFilename true false initializers fuel =
        some (Runs.trace (Rv64i.Hart.next f.platform) (narrated false f.loaded) k
            (f.hart (initial j.initializers)) ++
          (if testFilename.isNone then
            asciiBytes ((if h.stopped f.platform then "" else
              abnormalTermination false false (.testEndMarkerEncountered h.pc) h.pc) ++
                registerTable h.registers.read) ++ s.dumpStatistics
          else []) ++ asciiBytes (mismatches h.registers.read j.postRegisters),
          verdict h.registers.read j.postRegisters) :=
  hready.emulate_spaced hrun hexecutes hcode hspaced hends hfuel

/-- The test of the program with a jump. -/
theorem emulate_of_spaced_skipping :
    ∃ h s, skippingFile.hartRun (initial skippingJob.initializers) 2 = some h ∧
      EndsAs skippingFile.loaded (initial skippingJob.initializers) 15 h s ∧
      emulate skippingFiles ELFFile.alignedHeap (some "skipping.conf".toList) [] true false [] 16 =
        some (Runs.trace (Rv64i.Hart.next skippingFile.platform)
            (narrated false skippingFile.loaded) 2
            (skippingFile.hart (initial skippingJob.initializers)) ++ [] ++
          asciiBytes (mismatches h.registers.read skippingJob.postRegisters), .exit .success) := by
  obtain ⟨h, hh, hends, hverdict⟩ := skipping_ends
  rw [← hverdict]
  obtain ⟨s, hs⟩ := emulate_of_spaced skipping_ready hh skipping_executes skipping_code
    skipping_spaced (.inr hends) (show 3 * 2 + 9 < 16 by decide)
  exact ⟨h, s, hh, hs⟩

end Launcher

end Rv64Emu
