import Rv64Emu.Machine.BusRouting
import Rv64Emu.Pipelined.Tracking

/-! Runs of the pipeline against runs of the non-pipelined machine: what has been
written so far, and the state in which the system halts. -/
namespace Rv64Emu.Processor

/-! ### Writes -/

/-- In a pipelined cycle WB and MEM write what M/WB and EX/M ask for. -/
theorem pipelined_writes {s t : Processor} (hp : s.pipelining = true) (h : cycle s = .ok () t) :
    s.registerWrites = s.mWb.registerWrites ∧ s.busWrites = s.exM.busWrites := by
  obtain ⟨u, hu, -⟩ := (cycle_ok_iff s t).mp h
  obtain ⟨⟨⟩, p, hpropagate, -⟩ := bind_ok_cases hu
  have hfixed := hpropagate
  rw [StageOrder.propagate_of_pipelined hp] at hfixed
  obtain ⟨-, rfl⟩ := (StageOrder.propagateIn_fixed_ok_iff hp).mp hfixed
  have hclocks : ∀ stage, s.clocks stage = true := fun stage => by
    unfold clocks
    rw [hp]
    rfl
  constructor
  · unfold registerWrites
    rw [hpropagate, hclocks]
    rfl
  · unfold busWrites
    rw [hpropagate, hclocks]
    exact MemoryStage.busWrites_bufferOf _ _ _

/-- The events of the step past a latch. -/
def pastEvents {ε : Type} (event : ArchState → List ε) (token : Option MemAddress)
    (σ : ArchState) : List ε :=
  match token with
  | none => []
  | some _ => event σ

theorem steps_past {token : Option MemAddress} {start σ τ : ArchState} {k : Nat}
    (h : Past token σ τ) (hk : Runs.steps ArchState.next k start = some σ) :
    Runs.steps ArchState.next (k + token.toList.length) start = some τ := by
  cases token with
  | none =>
    obtain rfl : τ = σ := h
    exact hk
  | some p => exact Runs.steps_succ_of hk h

theorem trace_past {ε : Type} {event : ArchState → List ε} {token : Option MemAddress}
    {start σ : ArchState} {k : Nat} (hk : Runs.steps ArchState.next k start = some σ) :
    Runs.trace ArchState.next event (k + token.toList.length) start =
      Runs.trace ArchState.next event k start ++ pastEvents event token σ := by
  cases token with
  | none => exact (List.append_nil _).symm
  | some p => exact Runs.trace_succ hk

section

variable {f : Flight} {s : Processor} {σ τ : ArchState} (h : Backend f s σ)
  (hpast : Past f.exM σ τ)

include h hpast

theorem executed_past : pastEvents (fun σ => [σ.pc]) f.exM σ = f.exM.toList := by
  cases hexM : f.exM with
  | none => rfl
  | some p =>
    rw [hexM] at hpast
    obtain ⟨hrun, -⟩ := ArchState.next_eq_some_iff.mp hpast
    obtain ⟨rfl, -⟩ := h.exM_some p hexM hrun
    rfl

/-- The instruction in EX/M writes in the pipeline what it writes on its own. -/
theorem writes_past {memData : RegValue} (hload : s.exM.load s.bus.clients = .ok memData) :
    pastEvents ArchState.registerWrites f.exM σ = (s.exM.accessed memData).registerWrites ∧
      pastEvents ArchState.busWrites f.exM σ = s.exM.busWrites := by
  cases hexM : f.exM with
  | none =>
    have hidle := h.exM_none hexM
    constructor
    · unfold MWBRegisters.registerWrites
      change _ = if s.exM.control.regWrite && s.exM.rd != 0 then _ else _
      by_cases hwrite : s.exM.control.regWrite = true
      · rw [hidle.rd hwrite, bne_self_eq_false, Bool.and_false]
        rfl
      · rw [Bool.eq_false_iff.mpr hwrite]
        rfl
    · exact (if_neg (Bool.eq_false_iff.mp hidle.memWrite)).symm
  | some p =>
    rw [hexM] at hpast
    obtain ⟨hrun, -⟩ := ArchState.next_eq_some_iff.mp hpast
    obtain ⟨-, idEx, hdecode, hagrees⟩ := h.exM_some p hexM hrun
    constructor
    · rw [hagrees.accessed]
      refine ArchState.registerWrites_of (ArchState.retires_of hdecode ?_)
      rw [← hagrees.load, h.clients]
      exact hload
    · rw [hagrees.busWrites]
      exact ArchState.busWrites_of hdecode

end

/-! ### Runs -/

/-- After `n` cycles of the pipeline, `k` instructions have got past MEM. -/
structure Simulated (start : Processor) (n : Nat) (s : Processor) (k : Nat) (σ : ArchState) :
    Prop where
  steps : Runs.steps ArchState.next k start.arch = some σ
  tracks : Tracks (Flight.after n start) s σ
  executed : Runs.trace ArchState.next (fun σ => [σ.pc]) k start.arch =
    (Flight.after n start).retired ++ (Flight.after n start).mWb.toList
  registerWrites : Runs.trace next registerWrites n start ++ s.mWb.registerWrites =
    Runs.trace ArchState.next ArchState.registerWrites k start.arch
  busWrites : Runs.trace next busWrites n start =
    Runs.trace ArchState.next ArchState.busWrites k start.arch

theorem Simulated.machine_running {start : Processor} {n : Nat} {s : Processor} {k : Nat}
    {σ : ArchState} (h : Simulated start n s k σ) (hrun : s.shouldHalt = false) :
    σ.clients.shouldHalt = false := by
  rw [h.tracks.clients]
  exact hrun

theorem idle_default : Idle {} 0 := by
  constructor <;> decide

theorem chain_boot (program : Program) (registers : Registers) :
    Chain {} (boot program true registers) (boot program true registers).arch := by
  refine ⟨fun p h => ?_, fun p h => ?_, fun τ hpast _ => ?_⟩
  · cases h
  · cases h
  · obtain rfl : τ = (boot program true registers).arch := hpast
    rfl

theorem tracks_boot (program : Program) (registers : Registers) :
    Tracks {} (boot program true registers) (boot program true registers).arch where
  pipelining := rfl
  clients := rfl
  registers := rfl
  mWb_none _ _ := rfl
  exM_none _ := idle_default
  exM_some p h := by cases h
  idEx_none _ := idle_default
  idEx_some p h := by cases h
  memToReg := rfl
  operand₁ h := absurd rfl h
  operand₂ h := absurd rfl h
  loadUse h := absurd rfl h
  ifId_none _ := rfl
  ifId_pc p h := by cases h
  ifId_some p h := by cases h
  chain _ := chain_boot program registers
  drained _ := rfl
  dropped_none _ := rfl

theorem simulated_boot (program : Program) (registers : Registers) :
    Simulated (boot program true registers) 0 (boot program true registers) 0
      (boot program true registers).arch where
  steps := rfl
  tracks := tracks_boot program registers
  executed := rfl
  registerWrites := rfl
  busWrites := rfl

theorem simulated_next {start : Processor} {n : Nat} {s t : Processor} {k : Nat} {σ : ArchState}
    (h : Simulated start n s k σ) (hsteps : Runs.steps next n start = some s)
    (hnext : next s = some t)
    (hcoherent : s.fetch.endMarkerSeen = false → Coherent σ s) :
    ∃ τ, Past (Flight.after n start).exM σ τ ∧
      Simulated start (n + 1) t (k + (Flight.after n start).exM.toList.length) τ := by
  obtain ⟨hhalt, hok⟩ := next_eq_some_iff.mp hnext
  have hp := h.tracks.pipelining
  have hcycle := pipelinedCycle hp hok
  obtain ⟨hregisterWrites, hbusWrites⟩ := pipelined_writes hp hok
  obtain ⟨τ, hpast, htracks⟩ := h.tracks.next hhalt hcoherent hcycle
  have hflight : Flight.after (n + 1) start = (Flight.after n start).advance s :=
    Runs.history_succ hsteps
  obtain ⟨memData, hload, -, hmWb⟩ := hcycle.access
  have hexecuted' := executed_past h.tracks.toBackend hpast
  obtain ⟨hregisterWrites', hbusWrites'⟩ := writes_past h.tracks.toBackend hpast hload
  refine ⟨τ, hpast, steps_past hpast h.steps, hflight ▸ htracks, ?_, ?_, ?_⟩
  · rw [trace_past h.steps, h.executed, hexecuted', hflight]
    rfl
  · rw [trace_past h.steps, Runs.trace_succ hsteps, hregisterWrites, h.registerWrites,
      hregisterWrites', hmWb]
  · rw [trace_past h.steps, Runs.trace_succ hsteps, hbusWrites, h.busWrites, hbusWrites']

theorem simulated_steps {program : Program} {registers : Registers} {n : Nat} {s : Processor}
    (h : Runs.steps next n (boot program true registers) = some s)
    (hcoherent : ∀ i u k σ, i < n → Runs.steps next i (boot program true registers) = some u →
      Simulated (boot program true registers) i u k σ → u.fetch.endMarkerSeen = false →
      Coherent σ u) :
    ∃ k σ, Simulated (boot program true registers) n s k σ := by
  induction n generalizing s with
  | zero =>
    cases h
    exact ⟨0, _, simulated_boot program registers⟩
  | succ n ih =>
    obtain ⟨u, hu, hlast⟩ := Runs.steps_succ_cases h
    obtain ⟨k, σ, hσ⟩ := ih hu fun i v l τ hi => hcoherent i v l τ (by omega)
    obtain ⟨τ, -, hτ⟩ := simulated_next hσ hu hlast (hcoherent n u k σ (by omega) hu hσ)
    exact ⟨_, τ, hτ⟩

/-- The last cycle before the halt commits all that the machine has written. -/
theorem registers_of_halted {f : Flight} {s t : Processor} {σ τ : ArchState} (h : Tracks f s σ)
    (hnext : next s = some t) (hpast : Past f.exM σ τ) (hclients : τ.clients = t.bus.clients)
    (hhalt : t.shouldHalt = true) : t.regfile.registers = τ.registers := by
  obtain ⟨hrun, hok⟩ := next_eq_some_iff.mp hnext
  rw [(pipelinedCycle h.pipelining hok).registers, ← h.registers]
  have hchanged : τ.clients ≠ σ.clients := by
    intro hsame
    have hhalt' : σ.clients.shouldHalt = true := hsame ▸ hclients ▸ hhalt
    rw [h.clients] at hhalt'
    cases hrun.symm.trans hhalt'
  cases hexM : f.exM with
  | none =>
    rw [hexM] at hpast
    exact absurd (congrArg ArchState.clients hpast) hchanged
  | some p =>
    rw [hexM] at hpast
    obtain ⟨-, hstep⟩ := ArchState.next_eq_some_iff.mp hpast
    exact ((ArchState.registers_or_clients hstep).resolve_left hchanged).1.symm

/-! ### Code that no store changes -/

/-- In some cycle of the run IF fetches a word from the address. -/
def Fetches (program : Program) (pipelining : Bool) (registers : Registers) (addr : MemAddress) :
    Prop :=
  ∃ n s, Runs.steps next n (boot program pipelining registers) = some s ∧
    s.shouldHalt = false ∧ s.clocks .instructionFetch = true ∧ s.fetch.endMarkerSeen = false ∧
    s.pc = addr

/-- No memory that instructions are fetched from accepts stores. -/
def CodeReadOnly (program : Program) (registers : Registers) : Prop :=
  ∀ addr, Fetches program true registers addr → Fetches program false registers addr →
    (boot program true registers).bus.clients.ReadOnlyAt addr

/-- An image in which no memory accepts stores. -/
theorem readOnlyAt_boot {program : Program} {pipelining : Bool} {registers : Registers}
    (h : ∀ m ∈ program.memories, m.mayWrite = false) (addr : MemAddress) :
    (boot program pipelining registers).bus.clients.ReadOnlyAt addr := by
  intro m hm
  have hmem : Client.memory m ∈ (boot program pipelining registers).bus.clients :=
    List.mem_of_find?_eq_some hm
  change Client.memory m ∈ (program.memories.map Client.memory ++ [_]) ++ [_] at hmem
  apply h
  simpa using hmem

theorem readOnlyAt_next {σ τ : ArchState} {addr : MemAddress}
    (h : σ.clients.ReadOnlyAt addr) (hnext : σ.next = some τ) :
    τ.clients.ReadOnlyAt addr ∧ τ.clients.fetchWord addr = σ.clients.fetchWord addr := by
  obtain ⟨-, hstep⟩ := ArchState.next_eq_some_iff.mp hnext
  obtain ⟨idEx, memData, clients, -, -, hstore, rfl⟩ := ArchState.step_ok_iff.mp hstep
  unfold EXMRegisters.store at hstore
  split at hstore
  · obtain ⟨width, -, hwrite⟩ := Clients.storeData_ok_cases hstore
    exact ⟨Clients.readOnlyAt_write hwrite h, Clients.read_write_of_readOnly hwrite h .word⟩
  · obtain rfl := Except.ok.inj hstore
    exact ⟨h, rfl⟩

theorem readOnlyAt_steps {σ τ : ArchState} {addr : MemAddress} {k : Nat}
    (h : σ.clients.ReadOnlyAt addr) (hsteps : Runs.steps ArchState.next k σ = some τ) :
    τ.clients.ReadOnlyAt addr ∧ τ.clients.fetchWord addr = σ.clients.fetchWord addr := by
  induction k generalizing τ with
  | zero =>
    cases hsteps
    exact ⟨h, rfl⟩
  | succ k ih =>
    obtain ⟨ρ, hρ, hlast⟩ := Runs.steps_succ_cases hsteps
    obtain ⟨hreadOnly, hfetch⟩ := ih hρ
    obtain ⟨hreadOnly', hfetch'⟩ := readOnlyAt_next hreadOnly hlast
    exact ⟨hreadOnly', hfetch'.trans hfetch⟩

/-- What is executed between two instructions was fetched there. -/
theorem fetches_of_steps {program : Program} {registers : Registers} {k : Nat} {σ : ArchState}
    (h : Runs.steps ArchState.next k (boot program false registers).arch = some σ)
    (hhalt : σ.clients.shouldHalt = false) : Fetches program false registers σ.pc := by
  obtain ⟨n, s, hn⟩ := reached (atStage_boot program registers) h
  obtain ⟨-, hs, rfl, -⟩ := hn.boundary hhalt
  refine ⟨n, s, hn.steps, hhalt, ?_, hs.endMarkerSeen, rfl⟩
  rw [clocks_alone hs]
  rfl

theorem coherent_of_readOnly {program : Program} {registers : Registers} {n : Nat}
    {s : Processor} {k : Nat} {σ : ArchState} (hcode : CodeReadOnly program registers)
    (h : Simulated (boot program true registers) n s k σ)
    (hsteps : Runs.steps next n (boot program true registers) = some s)
    (hhalt : s.shouldHalt = false) (hseen : s.fetch.endMarkerSeen = false) : Coherent σ s := by
  intro j hj υ hυ hrun hpc
  have hclocks : s.clocks .instructionFetch = true := by
    unfold clocks
    rw [h.tracks.pipelining]
    rfl
  have hfetched : Fetches program false registers s.pc :=
    hpc ▸ fetches_of_steps (Runs.steps_add_of h.steps hυ) hrun
  have hreadOnly := hcode s.pc ⟨n, s, hsteps, hhalt, hclocks, hseen, rfl⟩ hfetched
  obtain ⟨hreadOnly', -⟩ := readOnlyAt_steps hreadOnly h.steps
  rw [hpc, (readOnlyAt_steps hreadOnly' hυ).2, h.tracks.clients]
  rfl

theorem simulated_of_readOnly {program : Program} {registers : Registers}
    (hcode : CodeReadOnly program registers) {n : Nat} {s : Processor}
    (h : Runs.steps next n (boot program true registers) = some s) :
    ∃ k σ, Simulated (boot program true registers) n s k σ := by
  refine simulated_steps h fun i u k σ hi hu hσ hseen => ?_
  obtain ⟨v, hv⟩ := Runs.steps_of_le (show i + 1 ≤ n by omega) h
  obtain ⟨w, hw, hlast⟩ := Runs.steps_succ_cases hv
  obtain rfl := Option.some.inj (hu.symm.trans hw)
  exact coherent_of_readOnly hcode hσ hu (next_eq_some_iff.mp hlast).1 hseen

/-- The halting state of the pipeline is one in which the machine halts. -/
theorem halted_of_readOnly {program : Program} {registers : Registers}
    (hcode : CodeReadOnly program registers) {n : Nat} {s : Processor}
    (h : Runs.steps next n (boot program true registers) = some s) (hhalt : s.shouldHalt = true) :
    ∃ k σ, Runs.steps ArchState.next k (boot program true registers).arch = some σ ∧
      σ.registers = s.regfile.registers ∧ σ.clients = s.bus.clients := by
  cases n with
  | zero =>
    cases h
    cases (shouldHalt_boot program true registers).symm.trans hhalt
  | succ n =>
    obtain ⟨u, hu, hlast⟩ := Runs.steps_succ_cases h
    obtain ⟨k, σ, hσ⟩ := simulated_of_readOnly hcode hu
    obtain ⟨τ, hpast, hτ⟩ := simulated_next hσ hu hlast
      (coherent_of_readOnly hcode hσ hu (next_eq_some_iff.mp hlast).1)
    exact ⟨_, τ, hτ.steps,
      (registers_of_halted hσ.tracks hlast hpast hτ.tracks.clients hhalt).symm, hτ.tracks.clients⟩

/-- The pipeline writes what the non-pipelined machine writes, in the same order,
and halts with the same registers and memories. -/
theorem pipelined_refines {program : Program} {registers : Registers}
    (hcode : CodeReadOnly program registers) {n : Nat} {s : Processor}
    (h : Runs.steps next n (boot program true registers) = some s) :
    (∃ m t, Runs.steps next m (boot program false registers) = some t ∧
      Runs.trace next registerWrites n (boot program true registers) <+:
        Runs.trace next registerWrites m (boot program false registers) ∧
      Runs.trace next busWrites n (boot program true registers) <+:
        Runs.trace next busWrites m (boot program false registers)) ∧
    (s.shouldHalt = true → ∃ m t, runLoop m (boot program false registers) = .halted t ∧
      t.regfile.registers = s.regfile.registers ∧ t.bus.clients = s.bus.clients) := by
  constructor
  · obtain ⟨k, σ, hσ⟩ := simulated_of_readOnly hcode h
    obtain ⟨m, t, hm⟩ := reached (atStage_boot program registers) hσ.steps
    refine ⟨m, t, hm.steps, ?_, ?_⟩
    · rw [hm.registerWrites]
      exact ⟨s.mWb.registerWrites, hσ.registerWrites⟩
    · rw [hm.busWrites]
      exact ⟨[], (List.append_nil _).trans hσ.busWrites⟩
  · intro hhalt
    obtain ⟨k, σ, hk, hregisters, hclients⟩ := halted_of_readOnly hcode h hhalt
    obtain ⟨m, t, hm⟩ := reached (atStage_boot program registers) hk
    have hhalt' : t.shouldHalt = true := by
      unfold shouldHalt
      rw [hm.clients, hclients]
      exact hhalt
    have hloop : runLoop (m + 0) (boot program false registers) = runLoop 0 t :=
      runLoop_of_steps hm.steps
    exact ⟨m, t, hloop.trans (runLoop_of_halt hhalt'), hm.registers.trans hregisters,
      hm.clients.trans hclients⟩

/-- A result used at once, then the halt: `addi x1, x0, 5`, `addi x2, x1, 1`,
`sw x0, 632(x0)`, and words for IF to run into. -/
def forwardThenHalt : Program :=
  { memories := [Memory.ofWords false 0x1000 [0x00500093, 0x00108113, 0x26002c23, 0x00000013,
      0x00000013, 0x00000013, 0x00000013]]
    entrypoint := 0x1000 }

theorem pipelined_refines_forwardThenHalt :
    ∃ s, Runs.steps next 6 (boot forwardThenHalt true (Vector.replicate 31 0)) = some s ∧
      (∃ m t, Runs.steps next m (boot forwardThenHalt false (Vector.replicate 31 0)) = some t ∧
        Runs.trace next registerWrites 6 (boot forwardThenHalt true (Vector.replicate 31 0)) <+:
          Runs.trace next registerWrites m (boot forwardThenHalt false (Vector.replicate 31 0)) ∧
        Runs.trace next busWrites 6 (boot forwardThenHalt true (Vector.replicate 31 0)) <+:
          Runs.trace next busWrites m (boot forwardThenHalt false (Vector.replicate 31 0))) ∧
      s.shouldHalt = true ∧
      ∃ m t, runLoop m (boot forwardThenHalt false (Vector.replicate 31 0)) = .halted t ∧
        t.regfile.registers = s.regfile.registers ∧ t.bus.clients = s.bus.clients := by
  have hend : (Runs.steps next 6 (boot forwardThenHalt true (Vector.replicate 31 0))).map
      shouldHalt = some true := by decide +kernel
  obtain ⟨s, hs, hhalt⟩ := Option.map_eq_some_iff.mp hend
  obtain ⟨hwrites, hhalted⟩ := pipelined_refines
    (fun addr _ _ => readOnlyAt_boot (by decide +kernel) addr) hs
  exact ⟨s, hs, hwrites, hhalt, hhalted hhalt⟩

/-! ### Code that changes only at a distance -/

/-- The non-pipelined machine executes no instruction that one of the three
instructions before it has changed. -/
def Settled (program : Program) (registers : Registers) : Prop :=
  ∀ i j s t, j ≤ 3 → Runs.steps next (5 * i) (boot program false registers) = some s →
    Runs.steps next (5 * j) s = some t →
    t.bus.clients.fetchWord t.pc = s.bus.clients.fetchWord t.pc

theorem settled_of_readOnly {program : Program} {registers : Registers}
    (h : ∀ addr, Fetches program false registers addr →
      (boot program false registers).bus.clients.ReadOnlyAt addr) :
    Settled program registers := by
  intro i j s t _ hs ht
  have hstart := atStage_boot program registers
  obtain ⟨hstage, hsteps⟩ := boundary_steps hstart hs
  obtain ⟨hstage', hsteps'⟩ := boundary_steps hstage ht
  have hhalt : t.shouldHalt = false := by
    obtain ⟨l, hl, hhalt⟩ := reachable_atStage hstart (shouldHalt_boot program false registers)
      (Runs.steps_add_of hs ht)
    apply hhalt
    rintro rfl
    cases hl.currentStage.symm.trans hstage'.currentStage
  have hreadOnly := h t.pc (fetches_of_steps (Runs.steps_add_of hsteps hsteps') hhalt)
  exact (readOnlyAt_steps (readOnlyAt_steps hreadOnly hsteps).1 hsteps').2

theorem settled_of_memories {program : Program} (registers : Registers)
    (h : ∀ m ∈ program.memories, m.mayWrite = false) : Settled program registers :=
  settled_of_readOnly fun addr _ => readOnlyAt_boot h addr

theorem coherent_of_settled {program : Program} {registers : Registers} {n : Nat}
    {s : Processor} {k : Nat} {σ : ArchState} (hsettled : Settled program registers)
    (h : Simulated (boot program true registers) n s k σ) : Coherent σ s := by
  intro j hj υ hυ hrun hpc
  have hstart := atStage_boot program registers
  have harch : Runs.steps ArchState.next k (boot program false registers).arch = some σ := h.steps
  obtain ⟨m, t, ht⟩ := reached hstart (Runs.steps_add_of harch hυ)
  obtain ⟨rfl, -, rfl, -⟩ := ht.boundary hrun
  have hsum : Runs.steps next (5 * k + 5 * j) (boot program false registers) = some t := by
    rw [← Nat.mul_add]
    exact ht.steps
  obtain ⟨r, hr, hlast⟩ := Runs.steps_add_cases hsum
  obtain ⟨-, hsteps⟩ := boundary_steps hstart hr
  obtain rfl : σ = r.arch := Option.some.inj (harch.symm.trans hsteps)
  have hfetch := hsettled k j r t hj hr hlast
  have hclients : r.bus.clients = s.bus.clients := h.tracks.clients
  have hpc' : t.pc = s.pc := hpc
  rw [hclients, hpc'] at hfetch
  change t.bus.clients.fetchWord t.pc = _
  rw [hpc']
  exact hfetch

theorem simulated_of_settled {program : Program} {registers : Registers}
    (hsettled : Settled program registers) {n : Nat} {s : Processor}
    (h : Runs.steps next n (boot program true registers) = some s) :
    ∃ k σ, Simulated (boot program true registers) n s k σ :=
  simulated_steps h fun _ _ _ _ _ _ hσ _ => coherent_of_settled hsettled hσ

end Rv64Emu.Processor
