import Rv64Emu.Sequential.FiveCycles

/-! Runs of the non-pipelined machine are runs of `ArchState.next`, five cycles
to the instruction. -/
namespace Rv64Emu

namespace ArchState

theorem pc_of_decode {σ : ArchState} {idEx : IDEXRegisters} (h : σ.decode = .ok idEx) :
    idEx.pc = σ.pc := by
  obtain ⟨word, -, hat⟩ := decode_ok_iff.mp h
  obtain ⟨immediate, -, rfl⟩ := decodeAt_ok_iff.mp hat
  rfl

theorem control_of_decode {σ : ArchState} {idEx : IDEXRegisters} (h : σ.decode = .ok idEx) :
    ∃ decoder, idEx.control = ControlSignals.setFromInstruction decoder ∧
      idEx.opcode = decoder.getOpcode := by
  obtain ⟨word, -, hat⟩ := decode_ok_iff.mp h
  obtain ⟨immediate, -, rfl⟩ := decodeAt_ok_iff.mp hat
  exact ⟨⟨word⟩, rfl, rfl⟩

/-- An instruction that leaves the registers alone, unless it leaves the bus alone. -/
theorem registers_or_clients {σ τ : ArchState} (h : σ.step = .ok τ) :
    τ.clients = σ.clients ∨ τ.registers = σ.registers ∧ σ.registerWrites = [] := by
  obtain ⟨idEx, memData, clients, hdecode, hload, hstore, rfl⟩ := step_ok_iff.mp h
  obtain ⟨decoder, hcontrol, -⟩ := control_of_decode hdecode
  by_cases hwrite : idEx.control.memWrite = true
  · have hreg : idEx.control.regWrite = false := by
      rw [hcontrol] at hwrite ⊢
      exact ControlSignals.regWrite_of_memWrite decoder hwrite
    refine .inr ⟨?_, ?_⟩
    · change (if idEx.control.regWrite then _ else σ.registers) = _
      rw [hreg]
      rfl
    · rw [registerWrites_of (retires_of hdecode hload)]
      change (if idEx.control.regWrite && _ then _ else _) = _
      rw [hreg]
      rfl
  · refine .inl (Except.ok.inj (hstore.symm.trans ?_))
    exact if_neg hwrite

end ArchState

namespace Processor

/-- The address of the instruction that is retired in this cycle. -/
def retiredPC (s : Processor) : List MemAddress :=
  if s.clocks .writeBack then [s.mWb.pc] else []

theorem clocks_alone {i : Fin 5} {s : Processor} (hs : AtStage i s) (stage : Stage) :
    s.clocks stage = (Pipeline.stages.get i == stage) := by
  unfold clocks
  rw [hs.pipelining, hs.currentStage, Bool.false_or]

theorem registerWrites_of_idle {s : Processor} (h : s.clocks .writeBack = false) :
    s.registerWrites = [] := by
  unfold registerWrites
  rw [h]
  cases Pipeline.propagate s <;> rfl

theorem busWrites_of_idle {s : Processor} (h : s.clocks .memory = false) :
    s.busWrites = [] := by
  unfold busWrites
  rw [h]
  cases Pipeline.propagate s <;> rfl

theorem registerWrites_writeBack {s : Processor} (hs : AtStage 4 s) :
    s.registerWrites = s.mWb.registerWrites := by
  have hpropagate : Pipeline.propagate s = .ok () (WriteBackStage.propagate (ready s)) := by
    rw [propagate_alone hs.pipelining, hs.currentStage]
    rfl
  unfold registerWrites
  rw [hpropagate, clocks_alone hs]
  rfl

theorem busWrites_memory {s : Processor} {memData : RegValue} (hs : AtStage 3 s)
    (hload : s.exM.load s.bus.clients = .ok memData) : s.busWrites = s.exM.busWrites := by
  have hpropagate : Pipeline.propagate s = .ok () (MemoryStage.propagated (ready s)) := by
    rw [propagate_alone hs.pipelining, hs.currentStage]
    exact (MemoryStage.propagate_ok_iff (ready s) _).mpr
      ⟨((MemoryStage.load_ok_iff (s := ready s)).mp hload).1, rfl⟩
  unfold busWrites
  rw [hpropagate, clocks_alone hs]
  exact MemoryStage.busWrites_bufferOf _ _ _

/-! ### One instruction -/

/-- What an instruction leaves behind before its last cycle, the write back. -/
structure Executed (s t : Processor) (τ : ArchState) : Prop where
  steps : Runs.steps next 4 s = some t
  atStage : AtStage 4 t
  registers : t.regfile.registers = s.regfile.registers
  clients : t.bus.clients = τ.clients
  commits : t.mWb.commit t.regfile.registers = τ.registers
  pc : t.pc = τ.pc
  retires : s.arch.retires = .ok t.mWb
  retiredPC : t.mWb.pc = s.pc
  noRegisterWrites : Runs.trace next registerWrites 4 s = []
  busWrites : Runs.trace next busWrites 4 s = s.arch.busWrites
  noRetiredPC : Runs.trace next Processor.retiredPC 4 s = []

/-- The three cycles before the memory access, for a word that decodes. -/
theorem issue_cycles {s : Processor} {idEx : IDEXRegisters} (hs : AtStage 0 s)
    (hhalt : s.shouldHalt = false) (hdecode : s.arch.decode = .ok idEx) :
    ∃ t, Runs.steps next 3 s = some t ∧ AtStage 3 t ∧ t.shouldHalt = false ∧
      t.exM = ArchState.executed idEx ∧ t.arch = { s.arch with pc := s.arch.nextPC idEx } ∧
      Runs.trace next registerWrites 3 s = [] ∧ Runs.trace next busWrites 3 s = [] ∧
      Runs.trace next retiredPC 3 s = [] := by
  obtain ⟨word, hfetch, hat⟩ := ArchState.decode_ok_iff.mp hdecode
  obtain ⟨t₁, hcycle₁, hs₁, hifId, harch₁⟩ := fetch_ok hs hfetch
  have hat₁ : decodeAt t₁.regfile.registers t₁.ifId.pc t₁.ifId.instructionWord = .ok idEx := by
    rw [hifId, show t₁.regfile.registers = s.regfile.registers from congrArg ArchState.registers harch₁]
    exact hat
  obtain ⟨t₂, hcycle₂, hs₂, hidEx, harch₂⟩ := decode_ok hs₁ hat₁
  obtain ⟨t₃, hcycle₃, hs₃, hexM, harch₃⟩ := execute_ok hs₂
  have hhalt₁ : t₁.shouldHalt = false := by
    rw [← hhalt]
    exact congrArg (fun σ : ArchState => σ.clients.shouldHalt) harch₁
  have hhalt₂ : t₂.shouldHalt = false := by
    rw [← hhalt₁]
    exact congrArg (fun σ : ArchState => σ.clients.shouldHalt) harch₂
  have hhalt₃ : t₃.shouldHalt = false := by
    rw [← hhalt₂]
    exact congrArg (fun σ : ArchState => σ.clients.shouldHalt) harch₃
  have hsteps₁ : Runs.steps next 1 s = some t₁ := next_eq_some_iff.mpr ⟨hhalt, hcycle₁⟩
  have hsteps₂ : Runs.steps next 2 s = some t₂ :=
    Runs.steps_succ_of hsteps₁ (next_eq_some_iff.mpr ⟨hhalt₁, hcycle₂⟩)
  have hsteps₃ : Runs.steps next 3 s = some t₃ :=
    Runs.steps_succ_of hsteps₂ (next_eq_some_iff.mpr ⟨hhalt₂, hcycle₃⟩)
  refine ⟨t₃, hsteps₃, hs₃, hhalt₃, by rw [hexM, hidEx], ?_, ?_, ?_, ?_⟩
  · rw [harch₃, harch₂, harch₁, hidEx]
    have hpc : t₂.pc = s.pc + 4 := by
      rw [show t₂.pc = t₁.pc from congrArg ArchState.pc harch₂]
      exact congrArg ArchState.pc harch₁
    rw [hpc]
    rfl
  · rw [Runs.trace_succ hsteps₂, Runs.trace_succ hsteps₁, Runs.trace_succ (Runs.steps_zero s),
      registerWrites_of_idle (clocks_alone hs _), registerWrites_of_idle (clocks_alone hs₁ _),
      registerWrites_of_idle (clocks_alone hs₂ _)]
    rfl
  · rw [Runs.trace_succ hsteps₂, Runs.trace_succ hsteps₁, Runs.trace_succ (Runs.steps_zero s),
      busWrites_of_idle (clocks_alone hs _), busWrites_of_idle (clocks_alone hs₁ _),
      busWrites_of_idle (clocks_alone hs₂ _)]
    rfl
  · rw [Runs.trace_succ hsteps₂, Runs.trace_succ hsteps₁, Runs.trace_succ (Runs.steps_zero s)]
    unfold retiredPC
    rw [clocks_alone hs, clocks_alone hs₁, clocks_alone hs₂]
    rfl

theorem instruction_ok {s : Processor} {τ : ArchState} (hs : AtStage 0 s)
    (hhalt : s.shouldHalt = false) (hstep : s.arch.step = .ok τ) : ∃ t, Executed s t τ := by
  obtain ⟨idEx, memData, clients, hdecode, hload, hstore, rfl⟩ := ArchState.step_ok_iff.mp hstep
  obtain ⟨t₃, hsteps₃, hs₃, hhalt₃, hexM, harch₃, hregs, hbus, hpcs⟩ :=
    issue_cycles hs hhalt hdecode
  have hclients₃ : t₃.bus.clients = s.bus.clients := congrArg ArchState.clients harch₃
  have hload₃ : t₃.exM.load t₃.bus.clients = .ok memData := by
    rw [hexM, hclients₃]
    exact hload
  have hstore₃ : t₃.exM.store t₃.bus.clients = .ok clients := by
    rw [hexM, hclients₃]
    exact hstore
  obtain ⟨t₄, hcycle₄, hs₄, hmWb, harch₄⟩ := memory_ok hs₃ hload₃ hstore₃
  have hregisters₄ : t₄.regfile.registers = s.regfile.registers := by
    rw [show t₄.regfile.registers = t₃.regfile.registers from congrArg ArchState.registers harch₄]
    exact congrArg ArchState.registers harch₃
  have hretires : s.arch.retires = .ok t₄.mWb := by
    rw [hmWb, hexM]
    exact ArchState.retires_of hdecode hload
  refine ⟨t₄, ?_⟩
  exact {
    steps := Runs.steps_succ_of hsteps₃ (next_eq_some_iff.mpr ⟨hhalt₃, hcycle₄⟩)
    atStage := hs₄
    registers := hregisters₄
    clients := congrArg ArchState.clients harch₄
    commits := by
      rw [hregisters₄, hmWb, hexM]
      rfl
    pc := by
      rw [show t₄.pc = t₃.pc from congrArg ArchState.pc harch₄]
      exact congrArg ArchState.pc harch₃
    retires := hretires
    retiredPC := by
      rw [hmWb, hexM]
      exact ArchState.pc_of_decode hdecode
    noRegisterWrites := by
      rw [Runs.trace_succ hsteps₃, hregs, registerWrites_of_idle (clocks_alone hs₃ _)]
      rfl
    busWrites := by
      rw [Runs.trace_succ hsteps₃, hbus, busWrites_memory hs₃ hload₃, hexM,
        ArchState.busWrites_of hdecode]
      rfl
    noRetiredPC := by
      rw [Runs.trace_succ hsteps₃, hpcs]
      unfold Processor.retiredPC
      rw [clocks_alone hs₃]
      rfl }

/-- The exception of a step is thrown in one of the five cycles. -/
theorem instruction_error {s : Processor} {e : Exception} (hs : AtStage 0 s)
    (hhalt : s.shouldHalt = false) (hstep : s.arch.step = .error e) :
    ∃ n t u, n < 5 ∧ Runs.steps next n s = some t ∧ t.shouldHalt = false ∧
      cycle t = .error e u ∧ u.regfile.registers = s.regfile.registers ∧
      u.bus.clients = s.bus.clients ∧ Runs.trace next retiredPC n s = [] ∧
      (e.isFault = true → t.faultPC e = s.pc) := by
  obtain hfetch | ⟨word, hfetch, hat⟩ | ⟨idEx, hdecode, haccess⟩ :=
    ArchState.step_error_cases hstep
  · obtain ⟨u, hcycle, harch⟩ := fetch_error hs hfetch
    refine ⟨0, s, u, by omega, rfl, hhalt, hcycle, congrArg ArchState.registers harch,
      congrArg ArchState.clients harch, rfl, fun hfault => ?_⟩
    obtain rfl := ArchState.fetch_fault hfetch hfault
    rfl
  · obtain ⟨t, hcycle₁, hs₁, hifId, harch₁⟩ := fetch_ok hs hfetch
    have hregisters : t.regfile.registers = s.regfile.registers :=
      congrArg ArchState.registers harch₁
    have hclients : t.bus.clients = s.bus.clients := congrArg ArchState.clients harch₁
    have hat₁ : decodeAt t.regfile.registers t.ifId.pc t.ifId.instructionWord = .error e := by
      rw [hifId, hregisters]
      exact hat
    obtain ⟨u, hcycle, harch⟩ := decode_error hs₁ hat₁
    have hhalt₁ : t.shouldHalt = false := by
      rw [← hhalt]
      exact congrArg Clients.shouldHalt hclients
    refine ⟨1, t, u, by omega, next_eq_some_iff.mpr ⟨hhalt, hcycle₁⟩, hhalt₁, hcycle,
      (congrArg ArchState.registers harch).trans hregisters,
      (congrArg ArchState.clients harch).trans hclients, ?_, fun _ => ?_⟩
    · rw [Runs.trace_succ (Runs.steps_zero s)]
      unfold retiredPC
      rw [clocks_alone hs]
      rfl
    · obtain ⟨what, rfl⟩ := decodeAt_error hat
      change t.ifId.pc = s.pc
      rw [hifId]
  · obtain ⟨t, hsteps, hs₃, hhalt₃, hexM, harch, -, -, hpcs⟩ := issue_cycles hs hhalt hdecode
    have hregisters : t.regfile.registers = s.regfile.registers :=
      congrArg ArchState.registers harch
    have hclients : t.bus.clients = s.bus.clients := congrArg ArchState.clients harch
    have haccess₃ : ArchState.accessFails t.bus.clients t.exM e := by
      rw [hexM, hclients]
      exact haccess
    obtain ⟨u, hcycle, hregisters', hclients'⟩ := memory_error hs₃ haccess₃
    refine ⟨3, t, u, by omega, hsteps, hhalt₃, hcycle, hregisters'.trans hregisters,
      hclients'.trans hclients, hpcs, fun _ => ?_⟩
    have herror := ArchState.accessFails_error haccess
    have hpc : t.exM.pc = s.pc := by
      rw [hexM]
      exact ArchState.pc_of_decode hdecode
    cases e with
    | illegalAccess fault => exact hpc
    | outOfBounds addr => exact hpc
    | _ => cases herror

/-! ### Whole runs -/

/-- How far the cycles have come with the instructions up to `σ`: all five
cycles of the last one, or four when its store has raised the halt flag. -/
structure Reached (start : Processor) (k : Nat) (σ : ArchState) (n : Nat) (s : Processor) :
    Prop where
  steps : Runs.steps next n start = some s
  registers : s.regfile.registers = σ.registers
  clients : s.bus.clients = σ.clients
  registerWrites : Runs.trace next registerWrites n start =
    Runs.trace ArchState.next ArchState.registerWrites k start.arch
  busWrites : Runs.trace next busWrites n start =
    Runs.trace ArchState.next ArchState.busWrites k start.arch
  boundary : σ.clients.shouldHalt = false → n = 5 * k ∧ AtStage 0 s ∧ s.arch = σ ∧
    Runs.trace next retiredPC n start = Runs.trace ArchState.next (fun σ => [σ.pc]) k start.arch

theorem trace_four {ε : Type} {event : Processor → List ε} {n : Nat} {s t : Processor}
    {start : Processor} (hn : Runs.steps next n start = some s)
    (ht : Runs.steps next 4 s = some t) :
    Runs.trace next event (n + 4) start =
      Runs.trace next event n start ++ Runs.trace next event 4 s :=
  Runs.trace_add hn ht

/-- Every run of whole instructions is a run of the non-pipelined machine. -/
theorem reached {start : Processor} (hstart : AtStage 0 start) {k : Nat} {σ : ArchState}
    (h : Runs.steps ArchState.next k start.arch = some σ) : ∃ n s, Reached start k σ n s := by
  induction k generalizing σ with
  | zero =>
    cases h
    exact ⟨0, start, rfl, rfl, rfl, rfl, rfl, fun _ => ⟨rfl, hstart, rfl, rfl⟩⟩
  | succ k ih =>
    obtain ⟨ρ, hρ, hlast⟩ := Runs.steps_succ_cases h
    obtain ⟨hhalt, hstep⟩ := ArchState.next_eq_some_iff.mp hlast
    obtain ⟨n, s, hn⟩ := ih hρ
    obtain ⟨rfl, hs, rfl, hpcs⟩ := hn.boundary hhalt
    obtain ⟨t, ht⟩ := instruction_ok hs hhalt hstep
    have hsteps₄ := Runs.steps_add_of hn.steps ht.steps
    have hbus : Runs.trace next Processor.busWrites (5 * k + 4) start =
        Runs.trace ArchState.next ArchState.busWrites (k + 1) start.arch := by
      rw [trace_four hn.steps ht.steps, Runs.trace_succ hρ, hn.busWrites, ht.busWrites]
    have hregs : Runs.trace next Processor.registerWrites (5 * k + 4) start =
        Runs.trace ArchState.next ArchState.registerWrites k start.arch := by
      rw [trace_four hn.steps ht.steps, ht.noRegisterWrites, List.append_nil, hn.registerWrites]
    cases hhaltσ : σ.clients.shouldHalt with
    | true =>
      have hstore : σ.clients ≠ s.arch.clients := by
        intro heq
        rw [heq, hhalt] at hhaltσ
        cases hhaltσ
      obtain ⟨hregisters, hnone⟩ := (ArchState.registers_or_clients hstep).resolve_left hstore
      refine ⟨5 * k + 4, t, hsteps₄, ?_, ht.clients, ?_, hbus, ?_⟩
      · rw [ht.registers, hregisters]
        rfl
      · rw [hregs, Runs.trace_succ hρ, hnone, List.append_nil]
      · intro hfalse
        rw [hhaltσ] at hfalse
        cases hfalse
    | false =>
      obtain ⟨u, hcycle, hu, harch⟩ := writeBack_ok ht.atStage
      have hhalt₄ : t.shouldHalt = false := by
        rw [← hhaltσ, ← ht.clients]
        rfl
      have hσ : u.arch = σ := by
        rw [harch, ht.commits]
        change (⟨σ.registers, t.pc, t.bus.clients⟩ : ArchState) = σ
        rw [ht.pc, ht.clients]
      have hsteps₅ : Runs.steps next (5 * (k + 1)) start = some u :=
        Runs.steps_succ_of hsteps₄ (next_eq_some_iff.mpr ⟨hhalt₄, hcycle⟩)
      refine ⟨5 * (k + 1), u, hsteps₅, congrArg ArchState.registers hσ,
        congrArg ArchState.clients hσ, ?_, ?_, fun _ => ⟨rfl, hu, hσ, ?_⟩⟩
      · change Runs.trace next Processor.registerWrites (5 * k + 4 + 1) start = _
        rw [Runs.trace_succ hsteps₄, hregs, Runs.trace_succ hρ, registerWrites_writeBack ht.atStage,
          ArchState.registerWrites_of ht.retires]
      · change Runs.trace next Processor.busWrites (5 * k + 4 + 1) start = _
        rw [Runs.trace_succ hsteps₄, hbus, busWrites_of_idle (clocks_alone ht.atStage _),
          List.append_nil]
      · change Runs.trace next Processor.retiredPC (5 * k + 4 + 1) start = _
        rw [Runs.trace_succ hsteps₄, trace_four hn.steps ht.steps, hpcs, ht.noRetiredPC,
          Runs.trace_succ hρ, List.append_nil]
        unfold Processor.retiredPC
        rw [clocks_alone ht.atStage, ht.retiredPC]
        rfl

/-- Between two instructions five cycles are a step. -/
theorem instruction_steps {s : Processor} {τ : ArchState} (hs : AtStage 0 s)
    (hnext : s.arch.next = some τ) (hhalt : τ.clients.shouldHalt = false) :
    ∃ t, Runs.steps next 5 s = some t ∧ AtStage 0 t ∧ t.arch = τ := by
  obtain ⟨hhalt₀, hstep⟩ := ArchState.next_eq_some_iff.mp hnext
  obtain ⟨t, ht⟩ := instruction_ok hs hhalt₀ hstep
  obtain ⟨u, hcycle, hu, harch⟩ := writeBack_ok ht.atStage
  have hhalt₄ : t.shouldHalt = false := by
    rw [← hhalt, ← ht.clients]
    rfl
  refine ⟨u, Runs.steps_succ_of ht.steps (next_eq_some_iff.mpr ⟨hhalt₄, hcycle⟩), hu, ?_⟩
  rw [harch, ht.commits]
  change (⟨τ.registers, t.pc, t.bus.clients⟩ : ArchState) = τ
  rw [ht.pc, ht.clients]

/-- A state of the non-pipelined machine lies within an instruction. -/
structure Within (start : Processor) (n : Nat) (t : Processor) (k j : Nat) (s : Processor) :
    Prop where
  arch : Runs.steps ArchState.next k start.arch = some s.arch
  boundary : Runs.steps next (5 * k) start = some s
  atStage : AtStage 0 s
  offset : j < 5
  cycles : n = 5 * k + j
  steps : Runs.steps next j s = some t

/-- An instruction whose five cycles all went well has taken its step. -/
theorem boundary_of_steps {s t : Processor} (hs : AtStage 0 s)
    (h : Runs.steps next 5 s = some t) : AtStage 0 t ∧ s.arch.next = some t.arch := by
  obtain ⟨t₁, ht₁⟩ := Runs.steps_of_le (show 1 ≤ 5 by omega) h
  have hhalt : s.shouldHalt = false := (next_eq_some_iff.mp ht₁).1
  cases hstep : s.arch.step with
  | error e =>
    obtain ⟨n, v, u, hn, hv, -, hcycle, -⟩ := instruction_error hs hhalt hstep
    obtain ⟨w, hw⟩ := Runs.steps_of_le (show n + 1 ≤ 5 by omega) h
    rw [Runs.steps_succ, hv, Option.bind_some, next_none_of_error hcycle] at hw
    cases hw
  | ok τ =>
    obtain ⟨v, hv⟩ := instruction_ok hs hhalt hstep
    obtain ⟨u, hcycle, hu, harch⟩ := writeBack_ok hv.atStage
    rw [Runs.steps_succ, hv.steps, Option.bind_some] at h
    obtain ⟨-, hcycle'⟩ := next_eq_some_iff.mp h
    obtain rfl : t = u := ok_eq_ok_iff.mp (hcycle.symm.trans hcycle')
    refine ⟨hu, ArchState.next_eq_some_iff.mpr ⟨hhalt, ?_⟩⟩
    rw [hstep, harch, hv.commits]
    change _ = Except.ok (⟨τ.registers, v.pc, v.bus.clients⟩ : ArchState)
    rw [hv.pc, hv.clients]

theorem within {start : Processor} (hstart : AtStage 0 start) {n : Nat} {t : Processor}
    (h : Runs.steps next n start = some t) : ∃ k j s, Within start n t k j s := by
  induction n generalizing t with
  | zero =>
    cases h
    exact ⟨0, 0, start, rfl, rfl, hstart, by omega, rfl, rfl⟩
  | succ n ih =>
    obtain ⟨u, hu, hlast⟩ := Runs.steps_succ_cases h
    obtain ⟨k, j, s, hw⟩ := ih hu
    have hsteps : Runs.steps next (j + 1) s = some t := Runs.steps_succ_of hw.steps hlast
    have hcycles := hw.cycles
    have hoffset := hw.offset
    by_cases hj : j = 4
    · subst hj
      obtain ⟨hs, hnext⟩ := boundary_of_steps hw.atStage hsteps
      exact ⟨k + 1, 0, t, Runs.steps_succ_of hw.arch hnext,
        Runs.steps_add_of hw.boundary hsteps, hs, by omega, by omega, rfl⟩
    · exact ⟨k, j + 1, s, hw.arch, hw.boundary, hw.atStage, by omega, by omega, hsteps⟩

/-- The run ends on the exception of the instruction after the first `k`. -/
structure ThrownBy (start : Processor) (k : Nat) (σ : ArchState) (e : Exception) (n : Nat)
    (s u : Processor) : Prop extends Throws start n e s u where
  arch : Runs.steps ArchState.next k start.arch = some σ
  notHalted : σ.clients.shouldHalt = false
  step : σ.step = .error e
  registers : u.regfile.registers = σ.registers
  clients : u.bus.clients = σ.clients
  executed : Runs.trace next retiredPC n start =
    Runs.trace ArchState.next (fun σ => [σ.pc]) k start.arch
  faultPC : e.isFault = true → s.faultPC e = σ.pc

/-- The exception of an instruction ends the non-pipelined run. -/
theorem error_reached {start : Processor} (hstart : AtStage 0 start) {k : Nat} {σ : ArchState}
    {e : Exception} (h : Runs.steps ArchState.next k start.arch = some σ)
    (hhalt : σ.clients.shouldHalt = false) (hstep : σ.step = .error e) :
    ∃ n s u, ThrownBy start k σ e n s u := by
  obtain ⟨m, r, hm⟩ := reached hstart h
  obtain ⟨rfl, hr, rfl, hretired⟩ := hm.boundary hhalt
  obtain ⟨j, s, u, -, hs, hhalt', hcycle, hregisters, hclients, hpcs, hfault⟩ :=
    instruction_error hr hhalt hstep
  refine ⟨5 * k + j, s, u, ?_⟩
  exact {
    steps := Runs.steps_add_of hm.steps hs
    running := hhalt'
    thrown := hcycle
    arch := h
    notHalted := hhalt
    step := hstep
    registers := hregisters
    clients := hclients
    executed := by rw [Runs.trace_add hm.steps hs, hpcs, hretired, List.append_nil]
    faultPC := hfault }

/-- The exception that ends a non-pipelined run is that of the instruction it
was executing. -/
theorem error_cases {start : Processor} (hstart : AtStage 0 start) {n : Nat} {s u : Processor}
    {e : Exception} (h : Throws start n e s u) : ∃ k σ, ThrownBy start k σ e n s u := by
  obtain ⟨k, j, r, hw⟩ := within hstart h.steps
  have hstuck := next_none_of_error h.thrown
  have hhalt : r.shouldHalt = false := by
    cases j with
    | zero =>
      cases hw.steps
      exact h.running
    | succ j =>
      obtain ⟨v, hv⟩ := Runs.steps_of_le (show 1 ≤ j + 1 by omega) hw.steps
      exact (next_eq_some_iff.mp hv).1
  cases hstep : r.arch.step with
  | ok τ =>
    obtain ⟨v, hv⟩ := instruction_ok hw.atStage hhalt hstep
    obtain ⟨w, hcycle, -⟩ := writeBack_ok hv.atStage
    have hhalt₄ := h.not_halted (Runs.steps_add_of hw.boundary hv.steps)
    have hfive : Runs.steps next 5 r = some w :=
      Runs.steps_succ_of hv.steps (next_eq_some_iff.mpr ⟨hhalt₄, hcycle⟩)
    obtain ⟨x, hx⟩ := Runs.steps_of_le hw.offset hfive
    rw [Runs.steps_succ, hw.steps, Option.bind_some, hstuck] at hx
    cases hx
  | error e' =>
    obtain ⟨m, v, w, hv⟩ := error_reached hstart hw.arch hhalt hstep
    obtain ⟨rfl, rfl, rfl, rfl⟩ := h.unique hv.toThrows
    exact ⟨k, r.arch, hv⟩

/-- A run of `5 * k` cycles executes `k` instructions. -/
theorem boundary_steps {start : Processor} (hstart : AtStage 0 start) {k : Nat} {s : Processor}
    (h : Runs.steps next (5 * k) start = some s) :
    AtStage 0 s ∧ Runs.steps ArchState.next k start.arch = some s.arch := by
  induction k generalizing s with
  | zero =>
    cases h
    exact ⟨hstart, rfl⟩
  | succ k ih =>
    obtain ⟨u, hu, hlast⟩ := Runs.steps_add_cases (m := 5 * k) (n := 5) h
    obtain ⟨hstage, harch⟩ := ih hu
    obtain ⟨hs, hnext⟩ := boundary_of_steps hstage hlast
    exact ⟨hs, Runs.steps_succ_of harch hnext⟩

/-! ### Reachable states between two instructions -/

/-- One cycle moves to the next stage, and only MEM touches the bus clients. -/
theorem atStage_next {i : Fin 5} {s t : Processor} (hs : AtStage i s)
    (h : cycle s = .ok () t) : AtStage (i + 1) t ∧ (i ≠ 3 → t.bus.clients = s.bus.clients) := by
  have hsame : ∀ {u : Processor} {e : Exception}, cycle s = .error e u → False := by
    intro u e hu
    cases h.symm.trans hu
  match i with
  | 0 =>
    cases hfetch : s.arch.fetch with
    | error e =>
      obtain ⟨u, hu, -⟩ := fetch_error hs hfetch
      exact (hsame hu).elim
    | ok word =>
      obtain ⟨u, hu, hstage, -, harch⟩ := fetch_ok hs hfetch
      obtain rfl := ok_eq_ok_iff.mp (hu.symm.trans h)
      exact ⟨hstage, fun _ => congrArg ArchState.clients harch⟩
  | 1 =>
    cases hat : decodeAt s.regfile.registers s.ifId.pc s.ifId.instructionWord with
    | error e =>
      obtain ⟨u, hu, -⟩ := decode_error hs hat
      exact (hsame hu).elim
    | ok idEx =>
      obtain ⟨u, hu, hstage, -, harch⟩ := decode_ok hs hat
      obtain rfl := ok_eq_ok_iff.mp (hu.symm.trans h)
      exact ⟨hstage, fun _ => congrArg ArchState.clients harch⟩
  | 2 =>
    obtain ⟨u, hu, hstage, -, harch⟩ := execute_ok hs
    obtain rfl := ok_eq_ok_iff.mp (hu.symm.trans h)
    exact ⟨hstage, fun _ => congrArg ArchState.clients harch⟩
  | 3 =>
    cases hload : s.exM.load s.bus.clients with
    | error e =>
      obtain ⟨u, hu, -⟩ := memory_error hs (.inl hload)
      exact (hsame hu).elim
    | ok memData =>
      cases hstore : s.exM.store s.bus.clients with
      | error e =>
        obtain ⟨u, hu, -⟩ := memory_error hs (.inr ⟨memData, hload, hstore⟩)
        exact (hsame hu).elim
      | ok clients =>
        obtain ⟨u, hu, hstage, -⟩ := memory_ok hs hload hstore
        obtain rfl := ok_eq_ok_iff.mp (hu.symm.trans h)
        exact ⟨hstage, fun h => absurd rfl h⟩
  | 4 =>
    obtain ⟨u, hu, hstage, harch⟩ := writeBack_ok hs
    obtain rfl := ok_eq_ok_iff.mp (hu.symm.trans h)
    exact ⟨hstage, fun _ => congrArg ArchState.clients harch⟩

/-- The three cycles of an instruction that can throw; they have written nothing. -/
theorem atStage_throws {i : Fin 5} {s u : Processor} {e : Exception} (hs : AtStage i s)
    (h : cycle s = .error e u) : u.bus.clients = s.bus.clients ∧
      (s.arch.fetch = .error e ∨
        decodeAt s.regfile.registers s.ifId.pc s.ifId.instructionWord = .error e ∨
        ArchState.accessFails s.bus.clients s.exM e) := by
  match i with
  | 0 =>
    cases hfetch : s.arch.fetch with
    | error e' =>
      obtain ⟨v, hv, harch⟩ := fetch_error hs hfetch
      cases hv.symm.trans h
      exact ⟨congrArg ArchState.clients harch, .inl rfl⟩
    | ok word =>
      obtain ⟨v, hv, -⟩ := fetch_ok hs hfetch
      cases hv.symm.trans h
  | 1 =>
    cases hat : decodeAt s.regfile.registers s.ifId.pc s.ifId.instructionWord with
    | error e' =>
      obtain ⟨v, hv, harch⟩ := decode_error hs hat
      cases hv.symm.trans h
      exact ⟨congrArg ArchState.clients harch, .inr (.inl rfl)⟩
    | ok idEx =>
      obtain ⟨v, hv, -⟩ := decode_ok hs hat
      cases hv.symm.trans h
  | 2 =>
    obtain ⟨v, hv, -⟩ := execute_ok hs
    cases hv.symm.trans h
  | 3 =>
    have hfails : ∀ {e'}, ArchState.accessFails s.bus.clients s.exM e' →
        u.bus.clients = s.bus.clients ∧ ArchState.accessFails s.bus.clients s.exM e := by
      intro e' haccess
      obtain ⟨v, hv, -, hclients⟩ := memory_error hs haccess
      cases hv.symm.trans h
      exact ⟨hclients, haccess⟩
    cases hload : s.exM.load s.bus.clients with
    | error e' =>
      obtain ⟨hclients, haccess⟩ := hfails (.inl hload)
      exact ⟨hclients, .inr (.inr haccess)⟩
    | ok memData =>
      cases hstore : s.exM.store s.bus.clients with
      | error e' =>
        obtain ⟨hclients, haccess⟩ := hfails (.inr ⟨memData, hload, hstore⟩)
        exact ⟨hclients, .inr (.inr haccess)⟩
      | ok clients =>
        obtain ⟨v, hv, -⟩ := memory_ok hs hload hstore
        cases hv.symm.trans h
  | 4 =>
    obtain ⟨v, hv, -⟩ := writeBack_ok hs
    cases hv.symm.trans h

theorem atStage_steps {s t : Processor} (hs : AtStage 0 s) {n : Nat}
    (h : Runs.steps next n s = some t) : ∃ i : Fin 5, i.val = n % 5 ∧ AtStage i t := by
  induction n generalizing t with
  | zero =>
    cases h
    exact ⟨0, rfl, hs⟩
  | succ n ih =>
    obtain ⟨u, hu, hlast⟩ := Runs.steps_succ_cases h
    obtain ⟨i, hi, hstage⟩ := ih hu
    refine ⟨i + 1, ?_, (atStage_next hstage (next_eq_some_iff.mp hlast).2).1⟩
    rw [Fin.val_add, hi]
    change (n % 5 + 1) % 5 = _
    omega

section

variable {ε : Type} {event : Processor → List ε}
  (hidle : ∀ s, s.currentStage ≠ 0 → event s = [])

include hidle

/-- Events of the fetch cycle alone, over the five cycles of an instruction. -/
theorem trace_instruction {s t : Processor} (hs : AtStage 0 s)
    (h : Runs.steps next 5 s = some t) : Runs.trace next event 5 s = event s := by
  have hnone : ∀ n < 4, Runs.trace next event (n + 2) s = Runs.trace next event (n + 1) s := by
    intro n hn
    obtain ⟨u, hu⟩ := Runs.steps_of_le (show n + 1 ≤ 5 by omega) h
    obtain ⟨i, hi, hstage⟩ := atStage_steps hs hu
    have hne : u.currentStage ≠ 0 := by
      rw [hstage.currentStage]
      rintro rfl
      change 0 = _ at hi
      omega
    rw [Runs.trace_succ hu, hidle u hne, List.append_nil]
  rw [hnone 3 (by decide), hnone 2 (by decide), hnone 1 (by decide), hnone 0 (by decide),
    Runs.trace_succ (Runs.steps_zero s)]
  rfl

/-- Between two instructions, the trace of such events is that of the steps. -/
theorem trace_boundary {start : Processor} (hstart : AtStage 0 start)
    {archEvent : ArchState → List ε} (hevent : ∀ s, AtStage 0 s → event s = archEvent s.arch)
    {k : Nat} {s : Processor} (h : Runs.steps next (5 * k) start = some s) :
    Runs.trace next event (5 * k) start = Runs.trace ArchState.next archEvent k start.arch := by
  induction k generalizing s with
  | zero => rfl
  | succ k ih =>
    obtain ⟨u, hu, hlast⟩ := Runs.steps_add_cases (m := 5 * k) (n := 5) h
    obtain ⟨hstage, harch⟩ := boundary_steps hstart hu
    rw [Runs.trace_succ harch, ← ih hu, ← hevent u hstage, ← trace_instruction hidle hstage hlast]
    exact Runs.trace_add hu hlast

end

/-- Between two instructions the number of cycles is a multiple of five. -/
theorem cycles_of_currentStage {start s : Processor} (hstart : AtStage 0 start) {n : Nat}
    (h : Runs.steps next n start = some s) (hstage : s.currentStage = 0) : ∃ k, n = 5 * k := by
  obtain ⟨i, hi, hs⟩ := atStage_steps hstart h
  obtain rfl : i = 0 := hs.currentStage.symm.trans hstage
  exact ⟨n / 5, by change 0 = _ at hi; omega⟩

/-- Only between MEM and WB can the halt flag be seen raised. -/
theorem reachable_atStage {start : Processor} (hstart : AtStage 0 start)
    (hhalt : start.shouldHalt = false) {n : Nat} {s : Processor}
    (h : Runs.steps next n start = some s) :
    ∃ i, AtStage i s ∧ (i ≠ 4 → s.shouldHalt = false) := by
  refine Runs.steps_invariant (P := fun s => ∃ i, AtStage i s ∧ (i ≠ 4 → s.shouldHalt = false))
    ?_ ⟨0, hstart, fun _ => hhalt⟩ h
  rintro s t ⟨i, hs, -⟩ hnext
  obtain ⟨hrun, hcycle⟩ := next_eq_some_iff.mp hnext
  obtain ⟨hstage, hclients⟩ := atStage_next hs hcycle
  refine ⟨i + 1, hstage, fun hne => ?_⟩
  rw [← hrun]
  refine congrArg Clients.shouldHalt (hclients ?_)
  rintro rfl
  exact hne rfl

/-- The states that the non-pipelined machine reaches between two instructions. -/
structure Boundary (program : Program) (registers : Registers) (s : Processor) : Prop where
  reachable : ∃ n, Runs.steps next n (boot program false registers) = some s
  currentStage : s.currentStage = 0

theorem shouldHalt_boot (program : Program) (pipelining : Bool) (registers : Registers) :
    (boot program pipelining registers).shouldHalt = false := by
  change Clients.shouldHalt ((program.memories.map Client.memory ++
    [Client.serial { base := 0x200 }]) ++ [Client.sysStatus { base := 0x270 }]) = false
  unfold Clients.shouldHalt
  rw [List.any_append, List.any_append, List.any_map]
  simp [Client.shouldHalt, Function.comp_def]

theorem atStage_boot (program : Program) (registers : Registers) :
    AtStage 0 (boot program false registers) := ⟨rfl, rfl, rfl⟩

theorem boundary_boot (program : Program) (registers : Registers) :
    Boundary program registers (boot program false registers) := ⟨⟨0, rfl⟩, rfl⟩

theorem Boundary.atStage {program : Program} {registers : Registers} {s : Processor}
    (h : Boundary program registers s) : AtStage 0 s ∧ s.shouldHalt = false := by
  obtain ⟨n, hn⟩ := h.reachable
  obtain ⟨i, hs, hhalt⟩ :=
    reachable_atStage (atStage_boot program registers) (shouldHalt_boot program false registers) hn
  obtain rfl : i = 0 := hs.currentStage.symm.trans h.currentStage
  exact ⟨hs, hhalt (by decide)⟩

/-- One of the next five cycles throws. -/
def Raises (s : Processor) (e : Exception) : Prop :=
  ∃ n t u, n < 5 ∧ Runs.steps next n s = some t ∧ t.shouldHalt = false ∧ cycle t = .error e u

/-- What is thrown is the exception of the step. -/
theorem raises_iff {s : Processor} (hs : AtStage 0 s) (hhalt : s.shouldHalt = false)
    {e : Exception} : Raises s e ↔ s.arch.step = .error e := by
  constructor
  · rintro ⟨n, t, u, hn, ht, hhalt', hcycle⟩
    have hstuck := next_none_of_error hcycle
    cases hstep : s.arch.step with
    | ok τ =>
      obtain ⟨v, hv⟩ := instruction_ok hs hhalt hstep
      obtain ⟨w, hcycle', -⟩ := writeBack_ok hv.atStage
      cases Nat.lt_or_eq_of_le (show n ≤ 4 by omega) with
      | inl hlt =>
        obtain ⟨y, hy⟩ := Runs.steps_of_le hlt hv.steps
        rw [Runs.steps_succ, ht, Option.bind_some, hstuck] at hy
        cases hy
      | inr heq =>
        subst heq
        obtain rfl := Option.some.inj (ht.symm.trans hv.steps)
        cases hcycle.symm.trans hcycle'
    | error e' =>
      obtain ⟨m, v, w, -, hv, -, hcycle', -⟩ := instruction_error hs hhalt hstep
      obtain ⟨-, rfl⟩ := Runs.steps_stuck_unique ht hstuck hv (next_none_of_error hcycle')
      cases hcycle.symm.trans hcycle'
      rfl
  · intro hstep
    obtain ⟨n, t, u, hn, ht, hhalt', hcycle, -⟩ := instruction_error hs hhalt hstep
    exact ⟨n, t, u, hn, ht, hhalt', hcycle⟩

end Processor

end Rv64Emu
