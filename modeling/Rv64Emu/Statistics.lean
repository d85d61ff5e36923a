import Rv64Emu.BusRuns
import Rv64Emu.Pipelined.Progress

/-! The statistics printed after a run, as sums over the instructions that it has
executed. Both modes store the same bytes; they load the same, but the pipeline
fetches ahead. -/
namespace Rv64Emu

/-- The widths that MEM reads for an instruction. -/
def EXMRegisters.loaded (exM : EXMRegisters) : List Width :=
  if exM.control.memRead then (Width.ofSize exM.control.memSize).toList else []

def Width.total (widths : List Width) : Nat := (widths.map Width.bytes).sum

@[simp] theorem Width.total_nil : Width.total [] = 0 := rfl

@[simp] theorem Width.total_append (widths widths' : List Width) :
    Width.total (widths ++ widths') = Width.total widths + Width.total widths' := by
  simp [total]

namespace ArchState

/-- The widths of the load that an instruction makes, and of its store. -/
def loaded (σ : ArchState) : List Width :=
  match σ.decode with
  | .ok idEx => (executed idEx).loaded
  | .error _ => []

def stored (σ : ArchState) : List Width := σ.busWrites.map BusWrite.width

theorem loaded_of {σ : ArchState} {idEx : IDEXRegisters} (h : σ.decode = .ok idEx) :
    σ.loaded = (executed idEx).loaded := by
  unfold loaded
  rw [h]

end ArchState

namespace Processor

/-- The widths of the bus accesses in this cycle. -/
def fetched (s : Processor) : List Width :=
  if s.clocks .instructionFetch && !s.fetch.endMarkerSeen then [.word] else []

def loaded (s : Processor) : List Width := if s.clocks .memory then s.exM.loaded else []

def stored (s : Processor) : List Width := s.busWrites.map BusWrite.width

theorem loadBytes_eq (exM : EXMRegisters) :
    MemoryStage.loadBytes exM = BitVec.ofNat 64 (Width.total exM.loaded) := by
  unfold MemoryStage.loadBytes EXMRegisters.loaded
  cases exM.control.memRead with
  | false => rfl
  | true => cases Width.ofSize exM.control.memSize <;> simp [Width.total]

theorem bytesWritten_storedBus {bus : MemoryBus} {dm : DataMemory} {clients : Clients}
    (h : MemoryStage.storeOf bus.clients dm = .ok clients) :
    (MemoryStage.storedBus bus dm).bytesWritten =
      bus.bytesWritten + BitVec.ofNat 64 (Width.total (dm.busWrites.map BusWrite.width)) := by
  unfold MemoryStage.storeOf at h
  unfold MemoryStage.storedBus DataMemory.busWrites
  by_cases hwrite : dm.writeEnable = true
  · rw [if_pos hwrite] at h
    rw [if_pos hwrite, if_pos hwrite, h]
    unfold MemoryBus.countStore
    cases Width.ofSize dm.size with
    | none => simp
    | some width => simp [Width.total, MemoryBus.countWrite]
  · rw [if_neg hwrite, if_neg hwrite]
    simp

theorem bytesRead_storedBus (bus : MemoryBus) (dm : DataMemory) :
    (MemoryStage.storedBus bus dm).bytesRead = bus.bytesRead := by
  unfold MemoryStage.storedBus MemoryBus.countStore
  split
  · split
    · cases Width.ofSize dm.size <;> rfl
    · rfl
  · rfl

/-- What a cycle adds to the counters of the clock and of the bus. -/
structure Counted (s t : Processor) : Prop where
  nCycles : t.nCycles = s.nCycles + 1
  bytesRead : t.bus.bytesRead =
    s.bus.bytesRead + BitVec.ofNat 64 (Width.total (s.fetched ++ s.loaded))
  bytesWritten : t.bus.bytesWritten =
    s.bus.bytesWritten + BitVec.ofNat 64 (Width.total s.stored)

/-- The rest of the statistics, in the cycle of one stage. -/
structure CountedAt (i : Fin 5) (s t : Processor) : Prop extends Counted s t where
  nStalls : t.nStalls = s.nStalls
  nInstrIssued : t.nInstrIssued = if i = 1 then s.nInstrIssued + 1 else s.nInstrIssued
  nInstrCompleted : t.nInstrCompleted =
    if i = 4 then s.nInstrCompleted + 1 else s.nInstrCompleted

/-! ### One cycle -/

theorem counted_pipelined {s t : Processor} (hp : s.pipelining = true)
    (h : cycle s = .ok () t) : Counted s t := by
  have hwrites := (pipelined_writes hp h).2
  obtain ⟨u, hu, rfl⟩ := (cycle_ok_iff s t).mp h
  obtain ⟨⟨⟩, p, hpropagate, hclock⟩ := bind_ok_cases hu
  rw [StageOrder.propagate_of_pipelined hp] at hpropagate
  obtain ⟨⟨hfetch, hload⟩, rfl⟩ := (StageOrder.propagateIn_fixed_ok_iff hp).mp hpropagate
  have hflush := StageOrder.redirectFlushes_allPropagated hp
  rw [StageOrder.clockPulse_of_pipelined hflush.pipelined] at hclock
  obtain ⟨⟨hdrain, hissue, hstore⟩, rfl⟩ := (StageOrder.clockPulseIn_fixed_ok_iff hflush).mp hclock
  have hclocks : ∀ stage, s.clocks stage = true := fun stage => by
    unfold clocks
    rw [hp]
    rfl
  obtain ⟨clients, hclients⟩ := hstore
  constructor
  · rfl
  · change (MemoryStage.storedBus (StageOrder.allPropagated s).bus _).bytesRead = _
    rw [bytesRead_storedBus]
    change s.bus.bytesRead + InstructionFetchStage.bytesOf s.fetch + MemoryStage.loadBytes s.exM = _
    unfold fetched loaded InstructionFetchStage.bytesOf
    rw [hclocks, hclocks, loadBytes_eq, BitVec.add_assoc]
    cases s.fetch.endMarkerSeen with
    | true => simp
    | false =>
      rw [Width.total_append, BitVec.ofNat_add]
      rfl
  · change (MemoryStage.storedBus (StageOrder.allPropagated s).bus
      (StageOrder.allPropagated s).memory.dataMemory).bytesWritten = _
    rw [bytesWritten_storedBus hclients]
    unfold stored
    rw [hwrites, ← MemoryStage.busWrites_bufferOf s.exM s.memory.dataMemory
      (MemoryStage.loadOf s.bus.clients s.exM)]
    rfl

theorem cycle_alone {i : Fin 5} {s t : Processor} (hs : AtStage i s) (h : cycle s = .ok () t) :
    ∃ p, (Pipeline.stages.get i).propagate (ready s) = .ok () p ∧
      (AtStage i p → ∃ u, (Pipeline.stages.get i).clockPulse p = .ok () u ∧
        t = ticked (stageAdvanced u)) := by
  obtain ⟨v, hv, rfl⟩ := (cycle_ok_iff s t).mp h
  obtain ⟨⟨⟩, p, hpropagate, hclock⟩ := bind_ok_cases hv
  rw [propagate_alone hs.pipelining, hs.currentStage] at hpropagate
  refine ⟨p, hpropagate, fun hp => ?_⟩
  rw [clockPulse_alone hp.pipelining, hp.currentStage] at hclock
  obtain ⟨⟨⟩, u, hu, hadvance⟩ := bind_ok_cases hclock
  obtain rfl := ok_eq_ok_iff.mp hadvance
  exact ⟨u, hu, rfl⟩

section

variable {s t : Processor}

/-- The stages other than MEM make no bus write, and only IF and MEM read. -/
theorem idle_at {i : Fin 5} (hs : AtStage i s) :
    (i ≠ 0 → s.fetched = []) ∧ (i ≠ 3 → s.loaded = [] ∧ s.stored = []) := by
  have hfetch : ∀ i : Fin 5, i ≠ 0 → (Pipeline.stages.get i == Stage.instructionFetch) = false := by
    decide
  have hmemory : ∀ i : Fin 5, i ≠ 3 → (Pipeline.stages.get i == Stage.memory) = false := by
    decide
  constructor
  · intro hi
    unfold fetched
    rw [clocks_alone hs, hfetch i hi]
    rfl
  · intro hi
    have hidle : s.clocks .memory = false := (clocks_alone hs _).trans (hmemory i hi)
    unfold loaded stored
    rw [busWrites_of_idle hidle, hidle]
    exact ⟨rfl, rfl⟩

theorem counted_of_idle {i : Fin 5} (hs : AtStage i s) (hfetch : i ≠ 0) (hmemory : i ≠ 3)
    (hcycles : t.nCycles = s.nCycles + 1) (hbus : t.bus = s.bus) : Counted s t := by
  obtain ⟨hloaded, hstored⟩ := (idle_at hs).2 hmemory
  refine ⟨hcycles, ?_, ?_⟩
  · rw [(idle_at hs).1 hfetch, hloaded, hbus]
    exact (BitVec.add_zero _).symm
  · rw [hstored, hbus]
    exact (BitVec.add_zero _).symm

theorem counted_fetch (hs : AtStage 0 s) (h : cycle s = .ok () t) : CountedAt 0 s t := by
  obtain ⟨p, hpropagate, hclock⟩ := cycle_alone hs h
  change InstructionFetchStage.propagate (ready s) = _ at hpropagate
  have hseen : ¬(ready s).fetch.endMarkerSeen = true := by
    change ¬s.fetch.endMarkerSeen = true
    rw [hs.endMarkerSeen]
    decide
  have hmode : ¬(ready s).pipelining = true := by
    change ¬s.pipelining = true
    rw [hs.pipelining]
    decide
  rw [InstructionFetchStage.propagate_eq, if_neg hseen] at hpropagate
  split at hpropagate
  · rename_i word hword
    rw [if_neg hmode] at hpropagate
    split at hpropagate
    · cases hpropagate
    · obtain rfl := ok_eq_ok_iff.mp hpropagate
      have hp : AtStage 0 (InstructionFetchStage.fetched (ready s) word) :=
        ⟨hs.pipelining, hs.currentStage, hs.endMarkerSeen⟩
      obtain ⟨u, hu, rfl⟩ := hclock hp
      have hlatch := InstructionFetchStage.clockPulse_alone hp.pipelining hp.endMarkerSeen
      obtain rfl := ok_eq_ok_iff.mp (hlatch.symm.trans hu)
      obtain ⟨hloaded, hstored⟩ := (idle_at hs).2 (by decide)
      have hfetched : s.fetched = [.word] := by
        unfold fetched
        rw [clocks_alone hs, hs.endMarkerSeen]
        rfl
      refine ⟨⟨rfl, ?_, ?_⟩, rfl, rfl, rfl⟩
      · rw [hfetched, hloaded]
        rfl
      · rw [hstored]
        exact (BitVec.add_zero _).symm
  · cases hpropagate

theorem counted_decode (hs : AtStage 1 s) (h : cycle s = .ok () t) : CountedAt 1 s t := by
  obtain ⟨p, hpropagate, hclock⟩ := cycle_alone hs h
  obtain rfl := ok_eq_ok_iff.mp hpropagate
  obtain ⟨u, hu, rfl⟩ := hclock ⟨hs.pipelining, hs.currentStage, hs.endMarkerSeen⟩
  have hpulse := clockPulse_decoded hs
  change InstructionDecodeStage.clockPulse (InstructionDecodeStage.propagate (ready s)) = _ at hu
  rw [hpulse] at hu
  split at hu
  · obtain rfl := ok_eq_ok_iff.mp hu
    refine ⟨counted_of_idle hs (by decide) (by decide) rfl rfl, rfl, ?_, rfl⟩
    change (if !s.pipelining || _ then _ else _) = _
    rw [hs.pipelining]
    rfl
  · cases hu

theorem counted_execute (hs : AtStage 2 s) (h : cycle s = .ok () t) : CountedAt 2 s t := by
  obtain ⟨p, hpropagate, hclock⟩ := cycle_alone hs h
  obtain rfl := ok_eq_ok_iff.mp hpropagate
  obtain ⟨u, hu, rfl⟩ := hclock ⟨hs.pipelining, hs.currentStage, hs.endMarkerSeen⟩
  obtain rfl := ok_eq_ok_iff.mp hu
  exact ⟨counted_of_idle hs (by decide) (by decide) rfl rfl, rfl, rfl, rfl⟩

theorem counted_memory (hs : AtStage 3 s) (h : cycle s = .ok () t) : CountedAt 3 s t := by
  obtain ⟨p, hpropagate, hclock⟩ := cycle_alone hs h
  obtain ⟨hcan, rfl⟩ := (MemoryStage.propagate_ok_iff (ready s) p).mp hpropagate
  obtain ⟨u, hu, rfl⟩ := hclock ⟨hs.pipelining, hs.currentStage, hs.endMarkerSeen⟩
  obtain ⟨⟨clients, hstore⟩, rfl⟩ := (MemoryStage.clockPulse_ok_iff _ u).mp hu
  obtain ⟨memData, hload⟩ : ∃ memData, s.exM.load s.bus.clients = .ok memData :=
    ⟨_, (MemoryStage.load_ok_iff (s := ready s)).mpr ⟨hcan, rfl⟩⟩
  have hclocks : s.clocks .memory = true := by
    rw [clocks_alone hs]
    rfl
  refine ⟨⟨rfl, ?_, ?_⟩, rfl, rfl, rfl⟩
  · change (MemoryStage.storedBus (MemoryStage.propagated (ready s)).bus _).bytesRead = _
    rw [bytesRead_storedBus]
    unfold loaded
    rw [(idle_at hs).1 (by decide), hclocks, List.nil_append, if_pos rfl, ← loadBytes_eq]
    rfl
  · change (MemoryStage.storedBus (MemoryStage.propagated (ready s)).bus
      (MemoryStage.propagated (ready s)).memory.dataMemory).bytesWritten = _
    rw [bytesWritten_storedBus hstore]
    unfold stored
    rw [busWrites_memory hs hload, ← MemoryStage.busWrites_bufferOf s.exM s.memory.dataMemory
      (MemoryStage.loadOf s.bus.clients s.exM)]
    rfl

theorem counted_writeBack (hs : AtStage 4 s) (h : cycle s = .ok () t) : CountedAt 4 s t := by
  obtain ⟨p, hpropagate, hclock⟩ := cycle_alone hs h
  obtain rfl := ok_eq_ok_iff.mp hpropagate
  obtain ⟨u, hu, rfl⟩ := hclock ⟨hs.pipelining, hs.currentStage, hs.endMarkerSeen⟩
  obtain rfl := ok_eq_ok_iff.mp hu
  refine ⟨counted_of_idle hs (by decide) (by decide) rfl rfl, rfl, rfl, ?_⟩
  change (if !s.pipelining || _ then _ else _) = _
  rw [hs.pipelining]
  rfl

end

theorem countedAt {i : Fin 5} {s t : Processor} (hs : AtStage i s) (h : cycle s = .ok () t) :
    CountedAt i s t := by
  match i with
  | 0 => exact counted_fetch hs h
  | 1 => exact counted_decode hs h
  | 2 => exact counted_execute hs h
  | 3 => exact counted_memory hs h
  | 4 => exact counted_writeBack hs h

/-! ### Whole runs -/

theorem counted_next {s t : Processor} (hs : Driven s) (h : next s = some t) : Counted s t := by
  obtain ⟨-, hcycle⟩ := next_eq_some_iff.mp h
  obtain hp | ⟨i, hstage⟩ := hs
  · exact counted_pipelined hp hcycle
  · exact (countedAt hstage hcycle).toCounted

/-- The bytes that a run moves over the bus. -/
structure Moved (start : Processor) (n : Nat) (s : Processor) : Prop where
  nCycles : s.nCycles = BitVec.ofNat 64 n
  bytesRead : s.bus.bytesRead = BitVec.ofNat 64
    (Width.total (Runs.trace next fetched n start) + Width.total (Runs.trace next loaded n start))
  bytesWritten : s.bus.bytesWritten =
    BitVec.ofNat 64 (Width.total ((Runs.trace next busWrites n start).map BusWrite.width))

theorem moved_run {program : Program} {pipelining : Bool} {registers : Registers} {n : Nat}
    {s : Processor} (h : Runs.steps next n (boot program pipelining registers) = some s) :
    Moved (boot program pipelining registers) n s := by
  induction n generalizing s with
  | zero =>
    cases h
    exact ⟨rfl, rfl, rfl⟩
  | succ n ih =>
    obtain ⟨u, hu, hlast⟩ := Runs.steps_succ_cases h
    have hbefore := ih hu
    have hcycle := counted_next (replay_run (driven_boot program pipelining registers) hu).1 hlast
    constructor
    · rw [hcycle.nCycles, hbefore.nCycles, BitVec.ofNat_add]
      rfl
    · rw [hcycle.bytesRead, hbefore.bytesRead, ← BitVec.ofNat_add, Runs.trace_succ hu,
        Runs.trace_succ hu]
      simp only [Width.total_append]
      congr 1
      omega
    · rw [hcycle.bytesWritten, hbefore.bytesWritten, ← BitVec.ofNat_add, Runs.trace_succ hu,
        List.map_append, Width.total_append]
      rfl

/-- Four cycles issue an instruction and make its accesses. -/
theorem counted_four {s t : Processor} {τ : ArchState} (hs : AtStage 0 s)
    (hhalt : s.shouldHalt = false) (hstep : s.arch.step = .ok τ)
    (hsteps : Runs.steps next 4 s = some t) :
    t.nInstrIssued = s.nInstrIssued + 1 ∧ t.nInstrCompleted = s.nInstrCompleted ∧
      t.nStalls = s.nStalls ∧ Runs.trace next fetched 4 s = [.word] ∧
      Runs.trace next loaded 4 s = s.arch.loaded := by
  obtain ⟨idEx, memData, clients, hdecode, -⟩ := ArchState.step_ok_iff.mp hstep
  obtain ⟨u, hu, -, -, hexM, -⟩ := issue_cycles hs hhalt hdecode
  obtain ⟨t₃, ht₃, hlast₃⟩ := Runs.steps_succ_cases hsteps
  obtain ⟨t₂, ht₂, hlast₂⟩ := Runs.steps_succ_cases ht₃
  obtain ⟨t₁, ht₁, hlast₁⟩ := Runs.steps_succ_cases ht₂
  have hlast₀ : next s = some t₁ := ht₁
  obtain rfl := Option.some.inj (ht₃.symm.trans hu)
  have hcycle : ∀ {s t}, next s = some t → cycle s = .ok () t := fun h => (next_eq_some_iff.mp h).2
  have hs₁ := (atStage_next hs (hcycle hlast₀)).1
  have hs₂ := (atStage_next hs₁ (hcycle hlast₁)).1
  have hs₃ := (atStage_next hs₂ (hcycle hlast₂)).1
  have hcount₀ := countedAt hs (hcycle hlast₀)
  have hcount₁ := countedAt hs₁ (hcycle hlast₁)
  have hcount₂ := countedAt hs₂ (hcycle hlast₂)
  have hcount₃ := countedAt hs₃ (hcycle hlast₃)
  refine ⟨?_, ?_, ?_, ?_, ?_⟩
  · rw [hcount₃.nInstrIssued, hcount₂.nInstrIssued, hcount₁.nInstrIssued, hcount₀.nInstrIssued]
    rfl
  · rw [hcount₃.nInstrCompleted, hcount₂.nInstrCompleted, hcount₁.nInstrCompleted,
      hcount₀.nInstrCompleted]
    rfl
  · rw [hcount₃.nStalls, hcount₂.nStalls, hcount₁.nStalls, hcount₀.nStalls]
  · rw [Runs.trace_succ ht₃, Runs.trace_succ ht₂, Runs.trace_succ ht₁,
      Runs.trace_succ (Runs.steps_zero s), (idle_at hs₃).1 (by decide), (idle_at hs₂).1 (by decide),
      (idle_at hs₁).1 (by decide)]
    unfold fetched
    rw [clocks_alone hs, hs.endMarkerSeen]
    rfl
  · rw [Runs.trace_succ ht₃, Runs.trace_succ ht₂, Runs.trace_succ ht₁,
      Runs.trace_succ (Runs.steps_zero s), ((idle_at hs₂).2 (by decide)).1,
      ((idle_at hs₁).2 (by decide)).1, ((idle_at hs).2 (by decide)).1,
      ArchState.loaded_of hdecode, ← hexM]
    unfold loaded
    rw [clocks_alone hs₃]
    rfl

/-- What the non-pipelined machine has counted when it has executed `k` instructions. -/
structure Tallied (start : Processor) (k n : Nat) (s : Processor) : Prop where
  nInstrIssued : s.nInstrIssued = BitVec.ofNat 64 k
  nInstrCompleted : s.nInstrCompleted = BitVec.ofNat 64 (n / 5)
  nStalls : s.nStalls = 0
  cycles : n + (if s.shouldHalt then 1 else 0) = 5 * k
  fetched : Runs.trace next fetched n start = List.replicate k .word
  loaded : Runs.trace next loaded n start = Runs.trace ArchState.next ArchState.loaded k start.arch

theorem Tallied.next {start s t : Processor} {k : Nat} {τ : ArchState} (hs : AtStage 0 s)
    (hsteps : Runs.steps next (5 * k) start = some s)
    (harch : Runs.steps ArchState.next k start.arch = some s.arch) (h : Tallied start k (5 * k) s)
    (hhalt : s.shouldHalt = false) (hstep : s.arch.step = .ok τ) (ht : Executed s t τ) :
    t.nInstrIssued = BitVec.ofNat 64 (k + 1) ∧ t.nInstrCompleted = BitVec.ofNat 64 k ∧
      t.nStalls = 0 ∧ Runs.trace Processor.next Processor.fetched (5 * k + 4) start =
        List.replicate (k + 1) .word ∧
      Runs.trace Processor.next Processor.loaded (5 * k + 4) start =
        Runs.trace ArchState.next ArchState.loaded (k + 1) start.arch := by
  obtain ⟨hissued, hcompleted, hstalls, hfetched, hloaded⟩ := counted_four hs hhalt hstep ht.steps
  refine ⟨?_, ?_, ?_, ?_, ?_⟩
  · rw [hissued, h.nInstrIssued, BitVec.ofNat_add]
    rfl
  · rw [hcompleted, h.nInstrCompleted, Nat.mul_div_cancel_left k (by decide)]
  · rw [hstalls, h.nStalls]
  · rw [trace_four hsteps ht.steps, h.fetched, hfetched]
    exact List.replicate_succ'.symm
  · rw [trace_four hsteps ht.steps, h.loaded, hloaded, Runs.trace_succ harch]

/-- Where the machine has got with `k` instructions is determined by them. -/
theorem reached_unique {start s s' : Processor} {k n n' : Nat} {σ : ArchState}
    (h : Reached start k σ n s) (h' : Reached start k σ n' s') : n = n' ∧ s = s' := by
  cases hhalt : σ.clients.shouldHalt with
  | true =>
    have hstuck : ∀ u : Processor, u.bus.clients = σ.clients → Processor.next u = none := by
      intro u hu
      apply next_none_of_halt
      unfold shouldHalt
      rw [hu]
      exact hhalt
    exact Runs.steps_stuck_unique h.steps (hstuck s h.clients) h'.steps (hstuck s' h'.clients)
  | false =>
    obtain ⟨rfl, -⟩ := h.boundary hhalt
    obtain ⟨rfl, -⟩ := h'.boundary hhalt
    exact ⟨rfl, Option.some.inj (h.steps.symm.trans h'.steps)⟩

theorem tallied_reached {program : Program} {registers : Registers} {k n : Nat} {σ : ArchState}
    {s : Processor} (harch : Runs.steps ArchState.next k (boot program false registers).arch = some σ)
    (h : Reached (boot program false registers) k σ n s) :
    Tallied (boot program false registers) k n s := by
  have hstart := atStage_boot program registers
  induction k generalizing n σ s with
  | zero =>
    cases harch
    obtain ⟨rfl, rfl⟩ := reached_unique h
      ⟨Runs.steps_zero _, rfl, rfl, rfl, rfl, fun _ => ⟨rfl, hstart, rfl, rfl⟩⟩
    refine ⟨rfl, rfl, rfl, ?_, rfl, rfl⟩
    rw [shouldHalt_boot]
    rfl
  | succ k ih =>
    obtain ⟨ρ, hρ, hlast⟩ := Runs.steps_succ_cases harch
    obtain ⟨hhalt, hstep⟩ := ArchState.next_eq_some_iff.mp hlast
    obtain ⟨m, r, hr⟩ := reached hstart hρ
    obtain ⟨rfl, hstage, rfl, -⟩ := hr.boundary hhalt
    obtain ⟨t, ht⟩ := instruction_ok hstage hhalt hstep
    obtain ⟨hissued, hcompleted, hstalls, hfetched, hloaded⟩ :=
      (ih hρ hr).next hstage hr.steps hρ hhalt hstep ht
    have hsteps₄ := Runs.steps_add_of hr.steps ht.steps
    cases hhaltσ : σ.clients.shouldHalt with
    | true =>
      have hflag : ∀ u : Processor, u.bus.clients = σ.clients → u.shouldHalt = true := by
        intro u hu
        unfold shouldHalt
        rw [hu]
        exact hhaltσ
      obtain ⟨rfl, rfl⟩ := Runs.steps_stuck_unique h.steps
        (next_none_of_halt (hflag s h.clients)) hsteps₄ (next_none_of_halt (hflag t ht.clients))
      refine ⟨hissued, ?_, hstalls, ?_, hfetched, hloaded⟩
      · rw [hcompleted]
        congr 1
        omega
      · rw [hflag s ht.clients, if_pos rfl]
        omega
    | false =>
      obtain ⟨rfl, -⟩ := h.boundary hhaltσ
      obtain ⟨t', ht', hlast'⟩ := Runs.steps_succ_cases (n := 5 * k + 4) h.steps
      obtain rfl := Option.some.inj (hsteps₄.symm.trans ht')
      have hcount := countedAt ht.atStage (next_eq_some_iff.mp hlast').2
      have hrunning : s.shouldHalt = false := by
        unfold shouldHalt
        rw [h.clients]
        exact hhaltσ
      refine ⟨hcount.nInstrIssued.trans hissued, ?_, hcount.nStalls.trans hstalls, ?_, ?_, ?_⟩
      · rw [hcount.nInstrCompleted, hcompleted, Nat.mul_div_cancel_left (k + 1) (by decide),
          BitVec.ofNat_add]
        rfl
      · rw [hrunning]
        rfl
      · change Runs.trace Processor.next Processor.fetched (5 * k + 4 + 1) _ = _
        rw [Runs.trace_succ hsteps₄, hfetched, (idle_at ht.atStage).1 (by decide), List.append_nil]
      · change Runs.trace Processor.next Processor.loaded (5 * k + 4 + 1) _ = _
        rw [Runs.trace_succ hsteps₄, hloaded, ((idle_at ht.atStage).2 (by decide)).1,
          List.append_nil]

/-! ### The pipeline -/

/-- MEM reads in the pipeline what the instruction in EX/M reads on its own. -/
theorem loaded_past {f : Flight} {s : Processor} {σ τ : ArchState} (h : Backend f s σ)
    (hpast : Past f.exM σ τ) : pastEvents ArchState.loaded f.exM σ = s.exM.loaded := by
  cases hexM : f.exM with
  | none =>
    have hidle := h.exM_none hexM
    exact (if_neg (Bool.eq_false_iff.mp hidle.memRead)).symm
  | some p =>
    rw [hexM] at hpast
    obtain ⟨hrun, -⟩ := ArchState.next_eq_some_iff.mp hpast
    obtain ⟨-, idEx, hdecode, hagrees⟩ := h.exM_some p hexM hrun
    unfold EXMRegisters.loaded
    rw [hagrees.control]
    exact ArchState.loaded_of hdecode

theorem simulated_loaded {program : Program} {registers : Registers}
    (hcode : CodeReadOnly program registers) {n : Nat} {s : Processor}
    (h : Runs.steps next n (boot program true registers) = some s) :
    ∃ k σ, Simulated (boot program true registers) n s k σ ∧
      Runs.trace next loaded n (boot program true registers) =
        Runs.trace ArchState.next ArchState.loaded k (boot program true registers).arch := by
  induction n generalizing s with
  | zero =>
    cases h
    exact ⟨0, _, simulated_boot program registers, rfl⟩
  | succ n ih =>
    obtain ⟨u, hu, hlast⟩ := Runs.steps_succ_cases h
    obtain ⟨k, σ, hσ, hloaded⟩ := ih hu
    have hrun := (next_eq_some_iff.mp hlast).1
    obtain ⟨τ, hpast, hτ⟩ := simulated_next hσ hu hlast (coherent_of_readOnly hcode hσ hu hrun)
    refine ⟨_, τ, hτ, ?_⟩
    have hevent : u.loaded = u.exM.loaded := by
      unfold loaded clocks
      rw [hσ.tracks.pipelining]
      rfl
    rw [Runs.trace_succ hu, hloaded, hevent, trace_past hσ.steps,
      loaded_past hσ.tracks.toBackend hpast]

/-- Both modes have halted after `k` instructions; the pipeline took `n` cycles. -/
structure CountedAlike (program : Program) (registers : Registers) (k n : Nat)
    (s t : Processor) : Prop where
  executed : ∃ σ, Runs.steps ArchState.next k (boot program false registers).arch = some σ ∧
    σ.clients = t.bus.clients
  cycles : Runs.steps next n (boot program true registers) = some s
  nCycles : t.nCycles + 1 = BitVec.ofNat 64 (5 * k) ∧ s.nCycles = BitVec.ofNat 64 n
  nInstrIssued : t.nInstrIssued = BitVec.ofNat 64 k
  nInstrCompleted : t.nInstrCompleted + 1 = BitVec.ofNat 64 k
  nStalls : t.nStalls = 0
  bytesRead : t.bus.bytesRead = BitVec.ofNat 64 (4 * k + Width.total
    (Runs.trace ArchState.next ArchState.loaded k (boot program false registers).arch))
  readAhead : s.bus.bytesRead = BitVec.ofNat 64
    (Width.total (Runs.trace next fetched n (boot program true registers)) + Width.total
      (Runs.trace ArchState.next ArchState.loaded k (boot program false registers).arch))
  bytesWritten : t.bus.bytesWritten = BitVec.ofNat 64 (Width.total
    (Runs.trace ArchState.next ArchState.stored k (boot program false registers).arch))
  writtenAlike : s.bus.bytesWritten = t.bus.bytesWritten

theorem total_replicate (k : Nat) : Width.total (List.replicate k .word) = 4 * k := by
  simp [Width.total, Width.bytes, Nat.mul_comm]

/-- When both modes halt, their statistics are those of the same instructions:
they have written the same bytes, and read the same but for the fetches. -/
theorem statistics_alike {program : Program} {registers : Registers}
    (hcode : CodeReadOnly program registers) {m l : Nat} {s t : Processor}
    (ht : runLoop m (boot program false registers) = .halted t)
    (hs : runLoop l (boot program true registers) = .halted s) :
    ∃ k n, CountedAlike program registers k n s t := by
  obtain ⟨n, hn, hhalt⟩ := steps_of_halted hs
  obtain ⟨j, hj, hhalt'⟩ := steps_of_halted ht
  obtain ⟨k, σ, hσ, hloaded⟩ := simulated_loaded hcode hn
  have hrun : Runs.steps ArchState.next k (boot program false registers).arch = some σ := hσ.steps
  obtain ⟨i, u, hu⟩ := reached (atStage_boot program registers) hrun
  have hflag : u.shouldHalt = true := by
    unfold shouldHalt
    rw [hu.clients, hσ.tracks.clients]
    exact hhalt
  obtain ⟨rfl, rfl⟩ := Runs.steps_stuck_unique hu.steps (next_none_of_halt hflag) hj
    (next_none_of_halt hhalt')
  have htally := tallied_reached hrun hu
  have hmoved := moved_run hu.steps
  have hmoved' := moved_run hn
  have hperiod : i + 1 = 5 * k := by
    have hcycles := htally.cycles
    rw [hflag] at hcycles
    exact hcycles
  refine ⟨k, n, ⟨σ, hrun, hu.clients.symm⟩, hn, ⟨?_, hmoved'.nCycles⟩, htally.nInstrIssued, ?_,
    htally.nStalls, ?_, ?_, ?_, ?_⟩
  · rw [hmoved.nCycles, ← hperiod, BitVec.ofNat_add]
    rfl
  · rw [htally.nInstrCompleted, show k = i / 5 + 1 by omega, BitVec.ofNat_add]
    rfl
  · rw [hmoved.bytesRead, htally.fetched, htally.loaded, total_replicate]
  · rw [hmoved'.bytesRead, hloaded]
    rfl
  · rw [hmoved.bytesWritten, hu.busWrites, ← Runs.trace_map BusWrite.width hrun]
    rfl
  · rw [hmoved.bytesWritten, hmoved'.bytesWritten, hu.busWrites, hσ.busWrites]
    rfl

theorem statistics_alike_forwardThenHalt :
    ∃ s t, runLoop 15 (boot forwardThenHalt false (Vector.replicate 31 0)) = .halted t ∧
      runLoop 7 (boot forwardThenHalt true (Vector.replicate 31 0)) = .halted s ∧
      ∃ k n, CountedAlike forwardThenHalt (Vector.replicate 31 0) k n s t := by
  have halts : ∀ (pipelining : Bool) (n : Nat),
      (Runs.steps next n (boot forwardThenHalt pipelining (Vector.replicate 31 0))).map shouldHalt =
        some true → ∃ s, runLoop (n + 1)
          (boot forwardThenHalt pipelining (Vector.replicate 31 0)) = .halted s := by
    intro pipelining n h
    obtain ⟨s, hs, hhalt⟩ := Option.map_eq_some_iff.mp h
    exact ⟨s, (runLoop_of_steps hs).trans (runLoop_of_halt hhalt)⟩
  obtain ⟨t, ht⟩ := halts false 14 (by decide +kernel)
  obtain ⟨s, hs⟩ := halts true 6 (by decide +kernel)
  exact ⟨s, t, ht, hs, statistics_alike
    (fun addr _ _ => readOnlyAt_boot (by decide +kernel) addr) ht hs⟩

end Processor

end Rv64Emu
