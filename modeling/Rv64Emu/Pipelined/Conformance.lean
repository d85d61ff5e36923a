import Rv64Emu.Conformance
import Rv64Emu.Pipelined.Refinement

/-! The pipeline as a hart of the RV64I base set, for programs whose code no
store changes. -/
namespace Rv64Emu.Conformance

open Processor

/-- After `n` cycles the pipeline has taken the bus to where the hart is after `k`
instructions; the registers follow when the instruction in M/WB has retired. -/
structure Pipelines (program : Program) (initial : Registers) (n : Nat) (s : Processor) (k : Nat)
    (h : Rv64i.Hart Signal) : Prop where
  hart : hartRun program initial k = some h
  registers : (s.mWb.commit s.regfile.registers).readRegister = h.registers.read
  clients : s.bus.clients = program.clientsWith h.memory (h.stopped program.platform)
  printed : Runs.trace next printed n (boot program true initial) = h.signals.flatMap Signal.text
  halted : h.stopped program.platform = true → s.regfile.registers.readRegister = h.registers.read ∧
    runLoop n (boot program true initial) = .halted s

theorem pipelines_of_simulated {program : Program} (hapart : program.Apart) {initial : Registers}
    (hcode : CodeReadOnly program initial) (hconforms : Conforms program initial) {n k : Nat}
    {s : Processor} {σ : ArchState} (hsteps : Runs.steps next n (boot program true initial) = some s)
    (hsim : Simulated (boot program true initial) n s k σ) :
    ∃ h, Pipelines program initial n s k h := by
  have hrun : Runs.steps ArchState.next k (boot program false initial).arch = some σ := hsim.steps
  obtain ⟨h, hh, habreast⟩ := abreast_of_machine hapart hconforms hrun
  have hclients : s.bus.clients = σ.clients := hsim.tracks.clients.symm
  refine ⟨h, hh, ?_, hclients.trans habreast.clients, ?_, fun hstopped => ?_⟩
  · rw [← hsim.tracks.registers]
    exact habreast.registers
  · rw [trace_printed (driven_boot program true initial) hsteps, hsim.busWrites, habreast.printed,
      ArchState.trace_printed hrun]
    rfl
  · have hhalt : s.shouldHalt = true := by
      unfold shouldHalt
      rw [hclients, habreast.clients, Program.shouldHalt_clientsWith, hstopped]
    obtain ⟨j, τ, hτ, hregisters, hclients'⟩ := halted_of_readOnly hcode hsteps hhalt
    have hstuck : ∀ υ : ArchState, υ.clients = s.bus.clients → υ.next = none :=
      fun υ hυ => ArchState.next_of_halted (hυ ▸ hhalt)
    obtain ⟨-, rfl⟩ := Runs.steps_stuck_unique hτ (hstuck τ hclients') hrun
      (hstuck σ hclients.symm)
    refine ⟨by rw [← hregisters, habreast.registers], ?_⟩
    have hloop : runLoop (n + 0) (boot program true initial) = runLoop 0 s :=
      runLoop_of_steps hsteps
    exact hloop.trans (runLoop_of_halt hhalt)

/-- Every cycle of the pipeline shows the hart between two of its instructions, and
the pipeline halts with the registers, the memory and the console text of a hart
that is stopped. -/
theorem pipelined_as_hart {program : Program} (hapart : program.Apart) {initial : Registers}
    (hcode : CodeReadOnly program initial) (hconforms : Conforms program initial) {n : Nat}
    {s : Processor} (hsteps : Runs.steps next n (boot program true initial) = some s) :
    ∃ k h, Pipelines program initial n s k h := by
  obtain ⟨k, σ, hsim⟩ := simulated_of_readOnly hcode hsteps
  exact ⟨k, pipelines_of_simulated hapart hcode hconforms hsteps hsim⟩

/-- The address of a fetch is the program counter of the machine between two
instructions. -/
theorem arch_of_fetches {program : Program} {initial : Registers} {addr : MemAddress}
    (h : Fetches program false initial addr) : ∃ l ρ,
      Runs.steps ArchState.next l (boot program false initial).arch = some ρ ∧
      ρ.clients.shouldHalt = false ∧ ρ.pc = addr := by
  obtain ⟨n, s, hs, hrun, hfetch, -, rfl⟩ := h
  obtain ⟨l, j, r, hw⟩ := within (atStage_boot program initial) hs
  obtain ⟨i, hi, hstage⟩ := atStage_steps hw.atStage hw.steps
  have hzero : ∀ i : Fin 5, (Pipeline.stages.get i == Stage.instructionFetch) = true → i.val = 0 := by
    decide
  rw [clocks_alone hstage] at hfetch
  have hj : j = 0 := by
    have := hzero i hfetch
    have := hw.offset
    omega
  subst hj
  cases hw.steps
  exact ⟨l, _, hw.arch, hrun, rfl⟩

/-- An address outside of the writable sections. -/
theorem readOnlyAt_of_unwritable {program : Program} (hapart : program.Apart) {addr : MemAddress}
    (h : program.platform.writable addr 1 = false) (pipelining : Bool) (initial : Registers) :
    (boot program pipelining initial).bus.clients.ReadOnlyAt addr := by
  intro m hfind
  have hmem : m ∈ program.memories := memory_mem_boot.mp (List.mem_of_find?_eq_some hfind)
  have hcontains : m.contains addr = true :=
    List.find?_some (p := fun c : Client => c.contains addr) hfind
  have hcovers := (Memory.contains_iff (hapart.fits m hmem)).mp hcontains
  cases hwrite : m.mayWrite with
  | false => rfl
  | true =>
    have hwritable : program.platform.writable addr 1 = true := by
      apply Program.writable_iff.mpr
      refine ⟨m, hmem, ?_, hwrite⟩
      unfold Memory.Covers at hcovers
      unfold Memory.CoversRange
      omega
    cases h.symm.trans hwritable

section

variable {program : Program} (hapart : program.Apart) {initial : Registers} {k : Nat}
  {h : Rv64i.Hart Signal} (hrun : hartRun program initial k = some h)
  (hexecutes : ∀ j < k, ∀ g, hartRun program initial j = some g → executes g.word = true)

include hapart hrun hexecutes

/-- What the machine fetches on the way of the hart to its end is in memory that no
store can change. -/
theorem readOnlyAt_of_hart (hends : Ends program h)
    (hcode : ∀ j ≤ k, ∀ g, hartRun program initial j = some g →
      g.stopped program.platform = false → program.platform.writable g.pc 1 = false)
    {addr : MemAddress} (hfetches : Fetches program false initial addr) :
    (boot program false initial).bus.clients.ReadOnlyAt addr := by
  obtain ⟨l, ρ, hρ, hhalt, rfl⟩ := arch_of_fetches hfetches
  obtain ⟨σ, hσ⟩ := abreast_of_hart hapart hrun hexecutes
  have hle := Runs.le_of_stuck hσ.steps (stuck_of_ends hapart hσ.toRepresents hends) hρ
  obtain ⟨g, hg⟩ := Runs.steps_of_le hle hrun
  obtain ⟨τ, hτ⟩ := abreast_of_hart hapart hg fun j hj => hexecutes j (Nat.lt_of_lt_of_le hj hle)
  obtain rfl := Option.some.inj (hρ.symm.trans hτ.steps)
  have hrunning : g.stopped program.platform = false := by
    rw [← hhalt, hτ.clients, Program.shouldHalt_clientsWith]
  apply readOnlyAt_of_unwritable hapart
  rw [hτ.pc]
  exact hcode l hle g hg hrunning

/-- The pipeline may rely on the code if the hart is stopped at the end. -/
theorem codeReadOnly_of_hart (hstopped : h.stopped program.platform = true)
    (hcode : ∀ j < k, ∀ g, hartRun program initial j = some g →
      program.platform.writable g.pc 1 = false) : CodeReadOnly program initial := by
  intro addr _ hfetches
  apply readOnlyAt_of_hart hapart hrun hexecutes (.inl hstopped) _ hfetches
  intro j hj g hg hrunning
  obtain hlt | rfl := Nat.lt_or_eq_of_le hj
  · exact hcode j hlt g hg
  · obtain rfl := Option.some.inj (hrun.symm.trans hg)
    cases hrunning.symm.trans hstopped

end

theorem greeting_conforms : Conforms greeting (Vector.replicate 31 0) :=
  conforms_of_ends (m := 4) (by decide +kernel) (by decide +kernel)

theorem pipelined_as_hart_greeting :
    ∃ s, Runs.steps next 6 (boot greeting true (Vector.replicate 31 0)) = some s ∧
      s.shouldHalt = true ∧ ∃ k h, Pipelines greeting (Vector.replicate 31 0) 6 s k h := by
  have hend : (Runs.steps next 6 (boot greeting true (Vector.replicate 31 0))).map shouldHalt =
      some true := by decide +kernel
  obtain ⟨s, hs, hhalt⟩ := Option.map_eq_some_iff.mp hend
  exact ⟨s, hs, hhalt, pipelined_as_hart greeting_apart
    (fun addr _ _ => readOnlyAt_boot (by decide +kernel) addr) greeting_conforms hs⟩

end Rv64Emu.Conformance
