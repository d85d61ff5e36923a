import Rv64Emu.Machine.Cycles
import Rv64Emu.Sequential.Instruction

/-! Without pipelining, five clock cycles are one instruction. Each cycle runs
one stage; what the stage leaves for the next one, and what it throws, is the
corresponding part of `ArchState.step`. -/
namespace Rv64Emu

/-- The bus write of the instruction in EX/M. -/
def EXMRegisters.busWrites (exM : EXMRegisters) : List BusWrite :=
  (MemoryStage.requested exM).busWrites

namespace MemoryStage

theorem busWrites_bufferOf (exM : EXMRegisters) (dm : DataMemory)
    (data : Except Exception RegValue) :
    (bufferOf exM dm data).dataMemory.busWrites = exM.busWrites := by
  unfold EXMRegisters.busWrites
  by_cases hactive : (exM.control.memRead || exM.control.memWrite) = true
  · simp only [bufferOf, if_pos hactive]
  · have hwrite : ¬exM.control.memWrite = true := fun h => hactive (by rw [h, Bool.or_true])
    have hidle : (requested exM).busWrites = [] := if_neg hwrite
    rw [hidle]
    simp only [bufferOf, if_neg hactive]
    rfl

end MemoryStage

namespace ArchState

/-- What the instruction at the program counter hands to WB. -/
def retires (σ : ArchState) : Except Exception MWBRegisters := do
  let idEx ← σ.decode
  let memData ← (executed idEx).load σ.clients
  return (executed idEx).accessed memData

def registerWrites (σ : ArchState) : List (RegNumber × RegValue) :=
  match σ.retires with
  | .ok mWb => mWb.registerWrites
  | .error _ => []

def busWrites (σ : ArchState) : List BusWrite :=
  match σ.decode with
  | .ok idEx => (executed idEx).busWrites
  | .error _ => []

theorem retires_of {σ : ArchState} {idEx : IDEXRegisters} {memData : RegValue}
    (hdecode : σ.decode = .ok idEx) (hload : (executed idEx).load σ.clients = .ok memData) :
    σ.retires = .ok ((executed idEx).accessed memData) := by
  unfold retires
  rw [hdecode]
  simp only [bind, Except.bind, hload]
  rfl

theorem registerWrites_of {σ : ArchState} {mWb : MWBRegisters} (h : σ.retires = .ok mWb) :
    σ.registerWrites = mWb.registerWrites := by
  unfold registerWrites
  rw [h]

theorem busWrites_of {σ : ArchState} {idEx : IDEXRegisters} (h : σ.decode = .ok idEx) :
    σ.busWrites = (executed idEx).busWrites := by
  unfold busWrites
  rw [h]

end ArchState

namespace Processor

/-- The non-pipelined machine, about to run the given stage. -/
structure AtStage (stage : Fin 5) (s : Processor) : Prop where
  pipelining : s.pipelining = false
  currentStage : s.currentStage = stage
  endMarkerSeen : s.fetch.endMarkerSeen = false

/-- The architectural part of the state. -/
def arch (s : Processor) : ArchState := ⟨s.regfile.registers, s.pc, s.bus.clients⟩

def stageAdvanced (s : Processor) : Processor := { s with currentStage := s.currentStage + 1 }

theorem propagate_alone {s : Processor} (hp : s.pipelining = false) :
    Pipeline.propagate s = (Pipeline.stages.get s.currentStage).propagate (ready s) := by
  have hmode : (!s.pipelining) = true := by rw [hp]; decide
  change (if !s.pipelining then _ else _ : Action Unit) s = _
  rw [if_pos hmode]
  rfl

theorem clockPulse_alone {s : Processor} (hp : s.pipelining = false) :
    Pipeline.clockPulse s = ((Pipeline.stages.get s.currentStage).clockPulse >>= fun _ =>
      (modify stageAdvanced : Action Unit)) s := by
  have hmode : (!s.pipelining) = true := by rw [hp]; decide
  change (if !s.pipelining then _ else _ : Action Unit) s = _
  rw [if_pos hmode]
  rfl

/-- A cycle of the stage at `i`, when it throws nothing. -/
theorem cycle_at {i : Fin 5} {s t u : Processor} (hs : AtStage i s) (ht : AtStage i t)
    (hpropagate : (Pipeline.stages.get i).propagate (ready s) = .ok () t)
    (hclock : (Pipeline.stages.get i).clockPulse t = .ok () u) :
    cycle s = .ok () (ticked (stageAdvanced u)) := by
  refine (cycle_ok_iff s _).mpr ⟨stageAdvanced u, ?_, rfl⟩
  rw [← hs.currentStage] at hpropagate
  rw [← ht.currentStage] at hclock
  rw [bind_of_ok ((propagate_alone hs.pipelining).trans hpropagate),
    clockPulse_alone ht.pipelining, bind_of_ok hclock]
  rfl

theorem cycle_at_propagate_error {i : Fin 5} {s t : Processor} {e : Exception}
    (hs : AtStage i s) (h : (Pipeline.stages.get i).propagate (ready s) = .error e t) :
    cycle s = .error e t := by
  rw [← hs.currentStage] at h
  exact cycle_of_propagate_error ((propagate_alone hs.pipelining).trans h)

theorem cycle_at_clockPulse_error {i : Fin 5} {s t u : Processor} {e : Exception}
    (hs : AtStage i s) (ht : AtStage i t)
    (hpropagate : (Pipeline.stages.get i).propagate (ready s) = .ok () t)
    (hclock : (Pipeline.stages.get i).clockPulse t = .error e u) : cycle s = .error e u := by
  rw [← hs.currentStage] at hpropagate
  rw [← ht.currentStage] at hclock
  refine cycle_of_clockPulse_error ((propagate_alone hs.pipelining).trans hpropagate) ?_
  rw [clockPulse_alone ht.pipelining]
  exact bind_of_error hclock

theorem atStage_advanced {i : Fin 5} {s : Processor} (hs : AtStage i s) :
    AtStage (i + 1) (ticked (stageAdvanced s)) where
  pipelining := hs.pipelining
  currentStage := congrArg (· + 1) hs.currentStage
  endMarkerSeen := hs.endMarkerSeen

/-! ### Fetch -/

theorem fetch_ok {s : Processor} {word : InstructionWord} (hs : AtStage 0 s)
    (h : s.arch.fetch = .ok word) :
    ∃ t, cycle s = .ok () t ∧ AtStage 1 t ∧ t.ifId = { pc := s.pc, instructionWord := word } ∧
      t.arch = { s.arch with pc := s.pc + 4 } := by
  obtain ⟨hword, hmarker⟩ := ArchState.fetch_ok_iff.mp h
  have hseen : ¬(ready s).fetch.endMarkerSeen = true := by
    change ¬s.fetch.endMarkerSeen = true
    rw [hs.endMarkerSeen]
    decide
  have hpropagate : InstructionFetchStage.propagate (ready s) =
      .ok () (InstructionFetchStage.fetched (ready s) word) := by
    have hfetched : (ready s).bus.clients.fetchWord (ready s).pc = .ok word := hword
    rw [InstructionFetchStage.propagate_eq, if_neg hseen, hfetched]
    simp only [if_neg hmarker]
  have ht : AtStage 0 (InstructionFetchStage.fetched (ready s) word) :=
    ⟨hs.pipelining, hs.currentStage, hs.endMarkerSeen⟩
  have hclock := InstructionFetchStage.clockPulse_alone ht.pipelining ht.endMarkerSeen
  refine ⟨_, cycle_at hs ht hpropagate hclock, ?_, rfl, rfl⟩
  exact atStage_advanced (i := 0) ⟨hs.pipelining, hs.currentStage, hs.endMarkerSeen⟩

theorem cycle_of_fetch_error {s : Processor} {e : Exception} (hs : AtStage 0 s)
    (h : s.arch.fetch = .error e) :
    cycle s = .error e (InstructionFetchStage.accessed (ready s)) := by
  have hseen : ¬(ready s).fetch.endMarkerSeen = true := by
    change ¬s.fetch.endMarkerSeen = true
    rw [hs.endMarkerSeen]
    decide
  apply cycle_at_propagate_error hs
  change InstructionFetchStage.propagate (ready s) = _
  rw [InstructionFetchStage.propagate_eq, if_neg hseen]
  unfold ArchState.fetch at h
  have hsame : s.arch.clients.fetchWord s.arch.pc =
      (ready s).bus.clients.fetchWord (ready s).pc := rfl
  rw [hsame] at h
  cases hword : (ready s).bus.clients.fetchWord (ready s).pc with
  | error e' =>
    rw [hword] at h
    cases h
    rfl
  | ok word =>
    rw [hword] at h
    by_cases hmarker : word = testEndMarker
    · simp only [if_pos hmarker] at h ⊢
      cases h
      change (if s.pipelining = true then _ else _) = _
      rw [hs.pipelining]
      rfl
    · simp only [if_neg hmarker] at h
      cases h

theorem fetch_error {s : Processor} {e : Exception} (hs : AtStage 0 s)
    (h : s.arch.fetch = .error e) : ∃ t, cycle s = .error e t ∧ t.arch = s.arch :=
  ⟨_, cycle_of_fetch_error hs h, rfl⟩

/-! ### Decode -/

theorem decode_mode {s : Processor} (hs : AtStage 1 s) (control : Bool) :
    ¬((InstructionDecodeStage.propagate (ready s)).pipelining && control) = true := by
  change ¬(s.pipelining && control) = true
  rw [hs.pipelining]
  simp

theorem clockPulse_decoded {s : Processor} (hs : AtStage 1 s) :
    InstructionDecodeStage.clockPulse (InstructionDecodeStage.propagate (ready s)) =
      match InstructionDecoder.getImmediate ⟨s.ifId.instructionWord⟩ with
      | .ok immediate => .ok () (InstructionDecodeStage.issued
          (InstructionDecodeStage.propagate (ready s)) immediate)
      | .error e => .error e (InstructionDecodeStage.halfIssued
          (InstructionDecodeStage.propagate (ready s))) := by
  rw [InstructionDecodeStage.clockPulse_eq, if_neg (decode_mode hs _), if_neg (decode_mode hs _)]
  rfl

theorem decode_ok {s : Processor} {idEx : IDEXRegisters} (hs : AtStage 1 s)
    (h : decodeAt s.regfile.registers s.ifId.pc s.ifId.instructionWord = .ok idEx) :
    ∃ t, cycle s = .ok () t ∧ AtStage 2 t ∧ t.idEx = idEx ∧ t.arch = s.arch := by
  obtain ⟨immediate, himm, rfl⟩ := decodeAt_ok_iff.mp h
  have ht : AtStage 1 (InstructionDecodeStage.propagate (ready s)) :=
    ⟨hs.pipelining, hs.currentStage, hs.endMarkerSeen⟩
  have hclock := clockPulse_decoded hs
  rw [himm] at hclock
  refine ⟨_, cycle_at hs ht rfl hclock, ?_, ?_, rfl⟩
  · exact atStage_advanced (i := 1) ⟨hs.pipelining, hs.currentStage, hs.endMarkerSeen⟩
  · have hreads : (InstructionDecodeStage.propagate (ready s)).decode =
        { pc := s.ifId.pc
          instructionWord := s.ifId.instructionWord
          decodedControl := ControlSignals.setFromInstruction ⟨s.ifId.instructionWord⟩
          readData1 := s.regfile.registers.readRegister
            (InstructionDecoder.getRS1 ⟨s.ifId.instructionWord⟩)
          readData2 := s.regfile.registers.readRegister
            (InstructionDecoder.getRS2 ⟨s.ifId.instructionWord⟩) } := by
      simp only [InstructionDecodeStage.propagate, ready, hs.pipelining, Bool.false_eq_true,
        if_false]
      rfl
    simp only [ticked, stageAdvanced, InstructionDecodeStage.issued, hreads]
    rfl

theorem decode_error {s : Processor} {e : Exception} (hs : AtStage 1 s)
    (h : decodeAt s.regfile.registers s.ifId.pc s.ifId.instructionWord = .error e) :
    ∃ t, cycle s = .error e t ∧ t.arch = s.arch := by
  have ht : AtStage 1 (InstructionDecodeStage.propagate (ready s)) :=
    ⟨hs.pipelining, hs.currentStage, hs.endMarkerSeen⟩
  have hclock := clockPulse_decoded hs
  unfold decodeAt at h
  cases himm : InstructionDecoder.getImmediate ⟨s.ifId.instructionWord⟩ with
  | ok immediate =>
    rw [himm] at h
    cases h
  | error e' =>
    rw [himm] at h hclock
    cases h
    exact ⟨_, cycle_at_clockPulse_error hs ht rfl hclock, rfl⟩

/-! ### Execute -/

theorem execute_ok {s : Processor} (hs : AtStage 2 s) :
    ∃ t, cycle s = .ok () t ∧ AtStage 3 t ∧ t.exM = ArchState.executed s.idEx ∧
      t.arch = { s.arch with
        pc := (ExecuteStage.redirectOf s.idEx s.idEx.readData1 s.idEx.readData2).getD s.pc } := by
  have hvalue₁ : ExecuteStage.rs1Value (ready s) = s.idEx.readData1 := by
    simp only [ExecuteStage.rs1Value, ready, hs.pipelining, Bool.false_eq_true, if_false]
  have hvalue₂ : ExecuteStage.rs2Value (ready s) = s.idEx.readData2 := by
    simp only [ExecuteStage.rs2Value, ready, hs.pipelining, Bool.false_eq_true, if_false]
  have ht : AtStage 2 (ExecuteStage.propagate (ready s)) :=
    ⟨hs.pipelining, hs.currentStage, hs.endMarkerSeen⟩
  refine ⟨_, cycle_at hs ht rfl rfl, ?_, ?_, ?_⟩
  · exact atStage_advanced (i := 2) ⟨hs.pipelining, hs.currentStage, hs.endMarkerSeen⟩
  · simp only [ticked, stageAdvanced, ExecuteStage.clockPulse, ExecuteStage.propagate, hvalue₁,
      hvalue₂]
    rfl
  · have hpc := ExecuteStage.clocked_pc (ready s)
    rw [hvalue₁, hvalue₂] at hpc
    exact congrArg (fun pc => ({ s.arch with pc := pc } : ArchState)) hpc

/-! ### Memory -/

theorem memory_ok {s : Processor} {memData : RegValue} {clients : Clients} (hs : AtStage 3 s)
    (hload : s.exM.load s.bus.clients = .ok memData)
    (hstore : s.exM.store s.bus.clients = .ok clients) :
    ∃ t, cycle s = .ok () t ∧ AtStage 4 t ∧ t.mWb = s.exM.accessed memData ∧
      t.arch = { s.arch with clients := clients } := by
  obtain ⟨hcan, hdata⟩ := (MemoryStage.load_ok_iff (s := ready s)).mp hload
  have hpropagate := (MemoryStage.propagate_ok_iff (ready s) _).mpr ⟨hcan, rfl⟩
  have ht : AtStage 3 (MemoryStage.propagated (ready s)) :=
    ⟨hs.pipelining, hs.currentStage, hs.endMarkerSeen⟩
  have hlines := (MemoryStage.storeOf_propagated (ready s)).trans hstore
  have hclock := (MemoryStage.clockPulse_ok_iff (MemoryStage.propagated (ready s)) _).mpr
    ⟨⟨clients, hlines⟩, rfl⟩
  refine ⟨_, cycle_at hs ht hpropagate hclock, ?_, ?_, ?_⟩
  · exact atStage_advanced (i := 3) ⟨hs.pipelining, hs.currentStage, hs.endMarkerSeen⟩
  · exact congrArg s.exM.accessed hdata
  · exact congrArg (fun clients => ({ s.arch with clients := clients } : ArchState))
      (MemoryStage.clients_storedBus hlines)

theorem memory_error {s : Processor} {e : Exception} (hs : AtStage 3 s)
    (h : ArchState.accessFails s.bus.clients s.exM e) :
    ∃ t, cycle s = .error e t ∧ t.regfile.registers = s.regfile.registers ∧
      t.bus.clients = s.bus.clients := by
  obtain hload | ⟨memData, hload, hstore⟩ := h
  · obtain ⟨t, ht, hregisters, hclients⟩ := MemoryStage.propagate_error (s := ready s) hload
    exact ⟨t, cycle_at_propagate_error hs ht, hregisters, hclients⟩
  · obtain ⟨hcan, -⟩ := (MemoryStage.load_ok_iff (s := ready s)).mp hload
    have hpropagate := (MemoryStage.propagate_ok_iff (ready s) _).mpr ⟨hcan, rfl⟩
    have ht : AtStage 3 (MemoryStage.propagated (ready s)) :=
      ⟨hs.pipelining, hs.currentStage, hs.endMarkerSeen⟩
    have hclock := MemoryStage.clockPulse_error
      ((MemoryStage.storeOf_propagated (ready s)).trans hstore)
    refine ⟨_, cycle_at_clockPulse_error hs ht hpropagate hclock, rfl, ?_⟩
    exact MemoryBus.clients_countStore _ _

/-! ### Write back -/

theorem writeBack_ok {s : Processor} (hs : AtStage 4 s) :
    ∃ t, cycle s = .ok () t ∧ AtStage 0 t ∧
      t.arch = { s.arch with registers := s.mWb.commit s.regfile.registers } := by
  have ht : AtStage 4 (WriteBackStage.propagate (ready s)) :=
    ⟨hs.pipelining, hs.currentStage, hs.endMarkerSeen⟩
  refine ⟨_, cycle_at hs ht rfl rfl, ?_, ?_⟩
  · exact atStage_advanced (i := 4) ⟨hs.pipelining, hs.currentStage, hs.endMarkerSeen⟩
  · exact congrArg (fun registers => ({ s.arch with registers := registers } : ArchState))
      (WriteBackStage.clocked_registers (ready s))

end Processor

end Rv64Emu
