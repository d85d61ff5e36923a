import Rv64Emu.Machine.DebugMode
import Rv64Emu.Pipelined.Conformance
import Rv64Emu.Statistics

/-! Debug mode lists the instructions of the hart. The non-pipelined machine prints a
line for each of them, in front of what it sends to the devices; the pipeline also
prints the lines of instructions that wait in ID or are taken back. -/
namespace Rv64Emu

namespace ArchState

/-- The line of the instruction at the program counter. -/
def dumped (σ : ArchState) : List IFIDRegisters :=
  match σ.fetch with
  | .ok word => [⟨σ.pc, word⟩]
  | .error _ => []

def cerr (debugMode : Bool) (σ : ArchState) : List Byte :=
  (if debugMode then σ.dumped else []).flatMap IFIDRegisters.dump ++ σ.printed

theorem dumped_of_fetch {σ : ArchState} {word : InstructionWord} (h : σ.fetch = .ok word) :
    σ.dumped = [⟨σ.pc, word⟩] := by
  unfold dumped
  rw [h]

end ArchState

namespace Processor

/-! ### The non-pipelined machine -/

section

variable {ε : Type} {event : Processor → List ε} {archEvent : ArchState → List ε}
  (hfour : ∀ s t τ, AtStage 0 s → s.shouldHalt = false → s.arch.step = .ok τ →
    Executed s t τ → Runs.trace next event 4 s = archEvent s.arch)
  (hlast : ∀ s, AtStage 4 s → event s = [])

include hfour hlast

/-- Events of the cycles before the write back, over a run of whole instructions. -/
theorem trace_reached {start : Processor} (hstart : AtStage 0 start) {k n : Nat} {σ : ArchState}
    {s : Processor} (harch : Runs.steps ArchState.next k start.arch = some σ)
    (h : Reached start k σ n s) :
    Runs.trace next event n start = Runs.trace ArchState.next archEvent k start.arch := by
  induction k generalizing n σ s with
  | zero =>
    cases harch
    obtain ⟨rfl, -⟩ := reached_unique h
      ⟨Runs.steps_zero _, rfl, rfl, rfl, rfl, fun _ => ⟨rfl, hstart, rfl, rfl⟩⟩
    rfl
  | succ k ih =>
    obtain ⟨ρ, hρ, hnext⟩ := Runs.steps_succ_cases harch
    obtain ⟨hhalt, hstep⟩ := ArchState.next_eq_some_iff.mp hnext
    obtain ⟨m, r, hr⟩ := reached hstart hρ
    obtain ⟨rfl, hstage, rfl, -⟩ := hr.boundary hhalt
    obtain ⟨t, ht⟩ := instruction_ok hstage hhalt hstep
    have hsteps₄ := Runs.steps_add_of hr.steps ht.steps
    have htrace : Runs.trace next event (5 * k + 4) start =
        Runs.trace ArchState.next archEvent (k + 1) start.arch := by
      rw [trace_four hr.steps ht.steps, ih hρ hr, hfour r t σ hstage hhalt hstep ht,
        Runs.trace_succ hρ]
    cases hhaltσ : σ.clients.shouldHalt with
    | true =>
      have hflag : ∀ u : Processor, u.bus.clients = σ.clients → u.shouldHalt = true := by
        intro u hu
        unfold shouldHalt
        rw [hu]
        exact hhaltσ
      obtain ⟨rfl, -⟩ := Runs.steps_stuck_unique h.steps (next_none_of_halt (hflag s h.clients))
        hsteps₄ (next_none_of_halt (hflag t ht.clients))
      exact htrace
    | false =>
      obtain ⟨rfl, -⟩ := h.boundary hhaltσ
      change Runs.trace next event (5 * k + 4 + 1) start = _
      rw [Runs.trace_succ hsteps₄, htrace, hlast t ht.atStage, List.append_nil]

end

theorem printed_of_idle {s : Processor} (h : s.clocks .memory = false) : s.printed = [] := by
  unfold printed
  rw [busWrites_of_idle h]
  rfl

/-- Only ID and MEM print. -/
theorem cerr_of_idle {i : Fin 5} {s : Processor} (hs : AtStage i s) (debugMode : Bool)
    (hdecode : i ≠ 1) (hmemory : i ≠ 3) : s.cerr debugMode = [] := by
  have hother : ∀ i : Fin 5, i ≠ 1 → i ≠ 3 →
      (Pipeline.stages.get i == Stage.instructionDecode) = false ∧
        (Pipeline.stages.get i == Stage.memory) = false := by decide
  obtain ⟨hidle, hidle'⟩ := hother i hdecode hmemory
  unfold cerr
  rw [dumped_of_idle debugMode ((clocks_alone hs _).trans hidle),
    printed_of_idle ((clocks_alone hs _).trans hidle')]
  rfl

theorem cerr_decode {s : Processor} (hs : AtStage 1 s) (debugMode : Bool) :
    s.cerr debugMode = (if debugMode then [s.ifId] else []).flatMap IFIDRegisters.dump := by
  have hclocks : s.clocks .instructionDecode = true := clocks_alone hs _
  have hidle : s.clocks .memory = false := clocks_alone hs _
  unfold cerr
  rw [dumped_alone hs.pipelining hclocks, printed_of_idle hidle, List.append_nil]

theorem cerr_memory {s : Processor} (hs : AtStage 3 s) (debugMode : Bool) :
    s.cerr debugMode = s.printed := by
  have hidle : s.clocks .instructionDecode = false := clocks_alone hs _
  unfold cerr
  rw [dumped_of_idle debugMode hidle]
  rfl

/-- Four cycles print the line of an instruction and what it sends to the devices. -/
theorem cerr_four (debugMode : Bool) {s t : Processor} {τ : ArchState} (hs : AtStage 0 s)
    (hstep : s.arch.step = .ok τ) (ht : Executed s t τ) :
    Runs.trace next (cerr debugMode) 4 s = s.arch.cerr debugMode := by
  obtain ⟨idEx, memData, clients, hdecode, -⟩ := ArchState.step_ok_iff.mp hstep
  obtain ⟨word, hfetch, -⟩ := ArchState.decode_ok_iff.mp hdecode
  obtain ⟨t₃, ht₃, hlast₃⟩ := Runs.steps_succ_cases ht.steps
  obtain ⟨t₂, ht₂, hlast₂⟩ := Runs.steps_succ_cases ht₃
  obtain ⟨t₁, ht₁, hlast₁⟩ := Runs.steps_succ_cases ht₂
  have hlast₀ : next s = some t₁ := ht₁
  have hcycle : ∀ {s t}, next s = some t → cycle s = .ok () t := fun h => (next_eq_some_iff.mp h).2
  obtain ⟨hs₁, hclients₁⟩ := atStage_next hs (hcycle hlast₀)
  obtain ⟨hs₂, hclients₂⟩ := atStage_next hs₁ (hcycle hlast₁)
  obtain ⟨hs₃, hclients₃⟩ := atStage_next hs₂ (hcycle hlast₂)
  have hifId : t₁.ifId = ⟨s.pc, word⟩ := by
    obtain ⟨u, hu, -, hlatch, -⟩ := fetch_ok hs hfetch
    obtain rfl := ok_eq_ok_iff.mp ((hcycle hlast₀).symm.trans hu)
    exact hlatch
  have hclients : t₃.bus.clients = s.bus.clients :=
    ((hclients₃ (by decide)).trans (hclients₂ (by decide))).trans (hclients₁ (by decide))
  have hwrites : t₃.busWrites = s.arch.busWrites := by
    rw [← ht.busWrites, Runs.trace_succ ht₃, Runs.trace_succ ht₂, Runs.trace_succ ht₁,
      Runs.trace_succ (Runs.steps_zero s), busWrites_of_idle (clocks_alone hs _),
      busWrites_of_idle (clocks_alone hs₁ _), busWrites_of_idle (clocks_alone hs₂ _)]
    rfl
  rw [Runs.trace_succ ht₃, Runs.trace_succ ht₂, Runs.trace_succ ht₁,
    Runs.trace_succ (Runs.steps_zero s), cerr_of_idle hs debugMode (by decide) (by decide),
    cerr_decode hs₁, cerr_of_idle hs₂ debugMode (by decide) (by decide), cerr_memory hs₃]
  unfold ArchState.cerr ArchState.printed printed
  rw [ArchState.dumped_of_fetch hfetch, hwrites, hclients, hifId]
  simp only [Runs.trace_zero, List.nil_append, List.append_nil]
  rfl

/-- What the non-pipelined machine prints is the text of its instructions. -/
theorem cerr_reached (debugMode : Bool) {start : Processor} (hstart : AtStage 0 start) {k n : Nat}
    {σ : ArchState} {s : Processor} (harch : Runs.steps ArchState.next k start.arch = some σ)
    (h : Reached start k σ n s) : Runs.trace next (cerr debugMode) n start =
      Runs.trace ArchState.next (ArchState.cerr debugMode) k start.arch :=
  trace_reached (fun _ _ _ hs _ hstep => cerr_four debugMode hs hstep)
    (fun _ hs => cerr_of_idle hs debugMode (by decide) (by decide)) hstart harch h

end Processor

namespace Conformance

open Processor

/-! ### The text of the hart -/

/-- The line of the next instruction. -/
def listed (h : Rv64i.Hart Signal) : IFIDRegisters := ⟨h.pc, h.word⟩

/-- What a debug mode prints for the next instruction: its line, and the text of what
it signals. -/
def narrated (debugMode : Bool) (program : Program) (h : Rv64i.Hart Signal) : List Byte :=
  (if debugMode then [listed h] else []).flatMap IFIDRegisters.dump ++
    (h.emitted program.platform).flatMap Signal.text

section

variable {program : Program} (hapart : program.Apart) {initial : Registers}

include hapart

theorem dumped_of_hart {σ : ArchState} {h g : Rv64i.Hart Signal} (hrep : Represents program σ h)
    (hstep : h.step program.platform = .ok g) : σ.dumped = [listed h] := by
  unfold Rv64i.Hart.step at hstep
  split at hstep
  case isFalse => cases hstep
  case isTrue hreadable =>
  split at hstep
  case h_2 => cases hstep
  case h_1 i hlisted =>
  rw [ArchState.dumped_of_fetch (fetch_of_listed hapart hrep hreadable hlisted), hrep.pc]
  rfl

/-- Each instruction of the hart prints its text. -/
theorem cerr_of_hart {σ : ArchState} {h g : Rv64i.Hart Signal} (hrep : Represents program σ h)
    (hexecutes : executes h.word = true) (hstep : h.step program.platform = .ok g)
    (debugMode : Bool) : σ.cerr debugMode = narrated debugMode program h := by
  obtain ⟨τ, hτ⟩ := follows_step hapart hrep hexecutes hstep
  have hprinted := hτ.printed
  rw [Rv64i.Hart.signals_eq hstep, List.flatMap_append] at hprinted
  unfold ArchState.cerr narrated
  rw [dumped_of_hart hapart hrep hstep, List.append_cancel_left hprinted]

/-- Events that agree at each instruction agree over the run. -/
theorem trace_of_hart {ε : Type} {archEvent : ArchState → List ε}
    {event : Rv64i.Hart Signal → List ε}
    (hevent : ∀ σ h g, Represents program σ h → executes h.word = true →
      h.step program.platform = .ok g → archEvent σ = event h) {k : Nat} {h : Rv64i.Hart Signal}
    (hrun : hartRun program initial k = some h)
    (hexecutes : ∀ j < k, ∀ g, hartRun program initial j = some g → executes g.word = true) :
    Runs.trace ArchState.next archEvent k (boot program false initial).arch =
      Runs.trace (Rv64i.Hart.next program.platform) event k (program.hart initial) := by
  induction k generalizing h with
  | zero => rfl
  | succ k ih =>
    obtain ⟨g, hg, hnext⟩ := Runs.steps_succ_cases hrun
    have hbefore : ∀ j < k, ∀ g, hartRun program initial j = some g → executes g.word = true :=
      fun j hj => hexecutes j (by omega)
    obtain ⟨σ, hσ⟩ := abreast_of_hart hapart hg hbefore
    obtain ⟨-, hstep⟩ := Rv64i.Hart.next_eq_some_iff.mp hnext
    rw [Runs.trace_succ hσ.steps, Runs.trace_succ hg, ih hg hbefore,
      hevent σ g h hσ.toRepresents (hexecutes k (by omega) g hg) hstep]

end

end Conformance

end Rv64Emu
