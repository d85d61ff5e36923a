import Rv64Emu.StageOrder
import Rv64Emu.Machine.Cycles
import Rv64Emu.Sequential.Instruction

/-! A pipelined cycle as equations between the latches before and after it. ID
to WB are stated apart from IF, so that they also describe a pipeline that is
fed bubbles. -/
namespace Rv64Emu.Processor

/-- The next address that EX asks for in this cycle. -/
def redirect (s : Processor) : Option MemAddress :=
  ExecuteStage.redirectOf s.idEx (ExecuteStage.rs1Value s) (ExecuteStage.rs2Value s)

/-- A load in EX whose target the word in IF/ID names as a source. -/
def stalls (s : Processor) : Bool :=
  InstructionDecodeStage.hazard s.idEx ⟨s.ifId.instructionWord⟩

/-- What an instruction fetch would read in this cycle. -/
def fetchedWord (s : Processor) : Except Exception InstructionWord :=
  s.bus.clients.fetchWord s.pc

/-- IF fetches the end marker in this cycle. -/
def meetsMarker (s : Processor) : Bool :=
  InstructionFetchStage.meetsMarker s.fetch s.fetchedWord

/-- The control lines once every stage has propagated. -/
def lines (s : Processor) (marker : Bool) : PipelineControl :=
  { stallFetch := s.stalls
    insertDecodeBubble := s.stalls
    flushFetch := marker || s.redirect.isSome
    flushDecode := s.redirect.isSome }

/-- ID to WB over one cycle. -/
structure BackendCycle (s t : Processor) : Prop where
  pipelining : t.pipelining = true
  registers : t.regfile.registers = s.mWb.commit s.regfile.registers
  access : ∃ memData, s.exM.load s.bus.clients = .ok memData ∧
    s.exM.store s.bus.clients = .ok t.bus.clients ∧ t.mWb = s.exM.accessed memData
  exM : t.exM = s.idEx.executed (ExecuteStage.rs1Value s) (ExecuteStage.rs2Value s)
  bubble : s.redirect.isSome = true ∨ s.stalls = true → t.idEx = {}
  issue : s.redirect.isSome = false → s.stalls = false →
    ∃ immediate, InstructionDecoder.getImmediate ⟨s.ifId.instructionWord⟩ = .ok immediate ∧
      t.idEx = InstructionDecodeStage.latchOf (InstructionDecodeStage.propagate s).decode
        ⟨s.ifId.instructionWord⟩ immediate

/-- The state in which ID propagates, whatever IF has done. -/
def fed (s : Processor) (fetch : InstructionFetchStage) (bytesRead : BitVec 64) (marker : Bool) :
    Processor :=
  { s with
    fetch := fetch
    bus := { s.bus with bytesRead := bytesRead }
    controlSignals := { flushFetch := marker } }

/-- The state in which ID is clocked, whatever IF has latched. -/
def latching (s : Processor) (fetch : InstructionFetchStage) (ifId : IFIDRegisters)
    (pc : MemAddress) : Processor :=
  { s with fetch := fetch, ifId := ifId, pc := pc }

def backendPropagated (s : Processor) : Processor :=
  WriteBackStage.propagate (MemoryStage.propagated (ExecuteStage.propagate
    (InstructionDecodeStage.propagate s)))

def backendClocked (s : Processor) : Processor :=
  WriteBackStage.clockPulse (MemoryStage.clocked (ExecuteStage.clockPulse
    (InstructionDecodeStage.clocked s)))

section

variable {s : Processor} (hp : s.pipelining = true) (fetch fetch' : InstructionFetchStage)
  (bytesRead : BitVec 64) (marker : Bool) (ifId : IFIDRegisters) (pc : MemAddress)

include hp

theorem stalls_eq : InstructionDecodeStage.stalls s = s.stalls := by
  unfold InstructionDecodeStage.stalls
  rw [hp]
  rfl

theorem lines_eq :
    (backendPropagated (fed s fetch bytesRead marker)).controlSignals = s.lines marker := by
  change (ExecuteStage.propagate (InstructionDecodeStage.propagate
    (fed s fetch bytesRead marker))).controlSignals = _
  rw [ExecuteStage.propagate_control, InstructionDecodeStage.propagate_control]
  change ({ stallFetch := false || InstructionDecodeStage.stalls s
            insertDecodeBubble := false || InstructionDecodeStage.stalls s
            flushFetch := marker || s.redirect.isSome
            flushDecode := false || s.redirect.isSome } : PipelineControl) = _
  rw [stalls_eq hp]
  simp only [Bool.false_or]
  rfl

theorem backendCycle_of
    (hload : MemoryStage.canLoad (fed s fetch bytesRead marker))
    (hissue : InstructionDecodeStage.canIssue (backendPropagated (fed s fetch bytesRead marker)))
    (hstore : MemoryStage.canStore (backendPropagated (fed s fetch bytesRead marker))) :
    BackendCycle s (backendClocked
      (latching (backendPropagated (fed s fetch bytesRead marker)) fetch' ifId pc)) := by
  have hlines := lines_eq hp fetch bytesRead marker
  have hidEx : (backendClocked
      (latching (backendPropagated (fed s fetch bytesRead marker)) fetch' ifId pc)).idEx =
      InstructionDecodeStage.idExOf (s.lines marker) (InstructionDecodeStage.propagate s).decode
        ⟨s.ifId.instructionWord⟩ s.idEx := by
    rw [← hlines]
    rfl
  have hlines' := MemoryStage.storeOf_propagated (fed s fetch bytesRead marker)
  obtain ⟨clients, hclients⟩ := hstore
  exact {
    pipelining := hp
    registers := RegisterFile.registers_clockPulse _
    access := by
      obtain ⟨memData, hdata⟩ : ∃ memData,
          (MemoryStage.propagated (fed s fetch bytesRead marker)).memory.memData = memData :=
        ⟨_, rfl⟩
      refine ⟨memData, MemoryStage.load_ok_iff.mpr ⟨hload, hdata⟩, ?_,
        congrArg s.exM.accessed hdata⟩
      rw [show (backendClocked (latching (backendPropagated (fed s fetch bytesRead marker)) fetch'
        ifId pc)).bus.clients = clients from MemoryStage.clients_storedBus hclients]
      exact hlines'.symm.trans hclients
    exM := rfl
    bubble := by
      intro h
      rw [hidEx]
      refine if_pos ?_
      change (s.redirect.isSome || s.stalls) = true
      simpa using h
    issue := by
      intro hredirect hstall
      unfold InstructionDecodeStage.canIssue at hissue
      rw [hlines] at hissue
      obtain h | h | ⟨immediate, himm⟩ := hissue
      · exact absurd (hredirect.symm.trans h) (by decide)
      · exact absurd (hstall.symm.trans h) (by decide)
      · refine ⟨immediate, himm, ?_⟩
        have hgo : ¬(s.redirect.isSome || s.stalls) = true := by
          rw [hredirect, hstall]
          decide
        have himm' : InstructionDecoder.getImmediate ⟨s.ifId.instructionWord⟩ = .ok immediate :=
          himm
        rw [hidEx]
        unfold InstructionDecodeStage.idExOf
        rw [himm']
        exact if_neg hgo }

end

/-! ### Instruction fetch -/

/-- IF over one cycle. -/
structure FrontendCycle (s t : Processor) : Prop where
  fetches : s.fetch.endMarkerSeen = true ∨ ∃ word, s.fetchedWord = .ok word
  drains : s.fetch.endMarkerSeen = true → s.fetch.endMarkerCountdown > 0
  seen : t.fetch.endMarkerSeen = (s.fetch.endMarkerSeen || s.meetsMarker)
  countdown : s.fetch.endMarkerSeen = true →
    t.fetch.endMarkerCountdown = s.fetch.endMarkerCountdown - 1 ∧
      t.fetch.endMarkerPC = s.fetch.endMarkerPC
  marked : s.meetsMarker = true →
    t.fetch.endMarkerCountdown = 4 ∧ t.fetch.endMarkerPC = s.pc
  flushed : s.meetsMarker = true ∨ s.redirect.isSome = true → t.ifId = {}
  held : s.meetsMarker = false → s.redirect.isSome = false →
    s.stalls = true ∨ s.fetch.endMarkerSeen = true → t.ifId = s.ifId
  latched : s.meetsMarker = false → s.redirect.isSome = false → s.stalls = false →
    s.fetch.endMarkerSeen = false → ∃ word, s.fetchedWord = .ok word ∧
      t.ifId = { pc := s.pc, instructionWord := word }
  pc : t.pc = s.redirect.getD
    (if s.meetsMarker || s.stalls || s.fetch.endMarkerSeen then s.pc else s.pc + 4)

/-- The counters over one cycle. -/
structure CountersCycle (s t : Processor) : Prop where
  nCycles : t.nCycles = s.nCycles + 1
  nStalls : t.nStalls =
    if !s.redirect.isSome && s.stalls then s.nStalls + 1 else s.nStalls
  nInstrIssued : t.nInstrIssued =
    if !s.redirect.isSome && !s.stalls && s.ifId.pc != 0 then s.nInstrIssued + 1
    else s.nInstrIssued
  nInstrCompleted : t.nInstrCompleted =
    if s.mWb.pc != 0 then s.nInstrCompleted + 1 else s.nInstrCompleted

structure PipelinedCycle (s t : Processor) : Prop extends
  BackendCycle s t, FrontendCycle s t, CountersCycle s t

/-- The buffers of IF once it has propagated. -/
def fetchBuffer (s : Processor) : InstructionFetchStage :=
  InstructionFetchStage.bufferOf s.fetch s.pc s.fetchedWord

theorem meetsMarker_of_seen {s : Processor} (h : s.fetch.endMarkerSeen = true) :
    s.meetsMarker = false := if_pos h

theorem fetchBuffer_of_seen {s : Processor} (h : s.fetch.endMarkerSeen = true) :
    s.fetchBuffer = { s.fetch with fetchPC := s.pc, fetchedInstruction := nopInstruction } :=
  if_pos h

theorem meetsMarker_iff {s : Processor} :
    s.meetsMarker = true ↔
      s.fetch.endMarkerSeen = false ∧ s.fetchedWord = .ok testEndMarker := by
  unfold meetsMarker InstructionFetchStage.meetsMarker
  cases s.fetch.endMarkerSeen with
  | true => simp
  | false =>
    cases s.fetchedWord with
    | error e => simp
    | ok word => simp

theorem fetchBuffer_of_marker {s : Processor} (h : s.meetsMarker = true) :
    s.fetchBuffer = { instructionMemory := { size := 4, addr := s.pc }
                      endMarkerSeen := true
                      endMarkerCountdown := 5
                      endMarkerPC := s.pc
                      fetchPC := s.pc
                      fetchedInstruction := nopInstruction } := by
  obtain ⟨hseen, hword⟩ := meetsMarker_iff.mp h
  unfold fetchBuffer InstructionFetchStage.bufferOf
  rw [hseen, hword]
  rfl

theorem fetchBuffer_of_word {s : Processor} {word : InstructionWord}
    (hseen : s.fetch.endMarkerSeen = false) (hmarker : s.meetsMarker = false)
    (hword : s.fetchedWord = .ok word) :
    s.fetchBuffer = { s.fetch with
      instructionMemory := { size := 4, addr := s.pc }
      fetchPC := s.pc
      fetchedInstruction := word } := by
  have hne : ¬word = testEndMarker := by
    rintro rfl
    rw [meetsMarker_iff.mpr ⟨hseen, hword⟩] at hmarker
    cases hmarker
  have hseen' : ¬s.fetch.endMarkerSeen = true := by rw [hseen]; decide
  unfold fetchBuffer InstructionFetchStage.bufferOf
  rw [if_neg hseen', hword]
  exact if_neg hne

theorem endMarkerSeen_fetchBuffer (s : Processor) :
    s.fetchBuffer.endMarkerSeen = (s.fetch.endMarkerSeen || s.meetsMarker) := by
  cases hseen : s.fetch.endMarkerSeen with
  | true => rw [fetchBuffer_of_seen hseen]; exact hseen
  | false =>
    cases hmarker : s.meetsMarker with
    | true => rw [fetchBuffer_of_marker hmarker]; rfl
    | false =>
      cases hword : s.fetchedWord with
      | ok word =>
        rw [fetchBuffer_of_word hseen hmarker hword]
        exact hseen
      | error e =>
        unfold fetchBuffer InstructionFetchStage.bufferOf
        rw [hseen, hword]
        exact hseen

theorem allPropagated_eq (s : Processor) :
    StageOrder.allPropagated s = backendPropagated (fed s s.fetchBuffer
      (s.bus.bytesRead + InstructionFetchStage.bytesOf s.fetch) s.meetsMarker) := rfl

/-- IF latches a word and advances the program counter. -/
theorem advances_allPropagated {s : Processor} (hp : s.pipelining = true) :
    InstructionFetchStage.advances (StageOrder.allPropagated s).controlSignals
      (StageOrder.allPropagated s).fetch =
      (!(s.meetsMarker || s.redirect.isSome) && !s.stalls && !s.fetch.endMarkerSeen) := by
  have hlines := lines_eq hp s.fetchBuffer
    (s.bus.bytesRead + InstructionFetchStage.bytesOf s.fetch) s.meetsMarker
  rw [← allPropagated_eq] at hlines
  change (!(StageOrder.allPropagated s).controlSignals.flushFetch &&
    !(StageOrder.allPropagated s).controlSignals.stallFetch && !s.fetchBuffer.endMarkerSeen) = _
  rw [hlines, endMarkerSeen_fetchBuffer]
  change (!(s.meetsMarker || s.redirect.isSome) && !s.stalls &&
    !(s.fetch.endMarkerSeen || s.meetsMarker)) = _
  cases s.meetsMarker <;> simp

theorem flushFetch_allPropagated {s : Processor} (hp : s.pipelining = true) :
    (StageOrder.allPropagated s).controlSignals.flushFetch =
      (s.meetsMarker || s.redirect.isSome) := by
  rw [allPropagated_eq, lines_eq hp]
  rfl

theorem frontendCycle {s : Processor} (hp : s.pipelining = true)
    (hfetch : InstructionFetchStage.canFetch s)
    (hdrain : InstructionFetchStage.canDrain (StageOrder.allPropagated s)) :
    FrontendCycle s (StageOrder.allClocked (StageOrder.allPropagated s)) := by
  have hadvances := advances_allPropagated hp
  have hflush := flushFetch_allPropagated hp
  have hifId : (StageOrder.allClocked (StageOrder.allPropagated s)).ifId =
      if s.meetsMarker || s.redirect.isSome then {}
      else if !(s.meetsMarker || s.redirect.isSome) && !s.stalls && !s.fetch.endMarkerSeen then
        { pc := s.fetchBuffer.fetchPC, instructionWord := s.fetchBuffer.fetchedInstruction }
      else s.ifId := by
    rw [← hadvances, ← hflush]
    rfl
  have hfetch' : (StageOrder.allClocked (StageOrder.allPropagated s)).fetch =
      { s.fetchBuffer with
        endMarkerCountdown :=
          if s.fetchBuffer.endMarkerSeen then s.fetchBuffer.endMarkerCountdown - 1
          else s.fetchBuffer.endMarkerCountdown } := rfl
  have hpc : (StageOrder.allClocked (StageOrder.allPropagated s)).pc =
      s.redirect.getD (if !(s.meetsMarker || s.redirect.isSome) && !s.stalls &&
        !s.fetch.endMarkerSeen then s.pc + 4 else s.pc) := by
    rw [← hadvances]
    change (if s.redirect.isSome then s.redirect.getD 0 else _) = _
    cases s.redirect <;> rfl
  have hgo : ∀ word, s.meetsMarker = false → s.fetch.endMarkerSeen = false →
      s.fetchedWord = .ok word →
      s.fetchBuffer.fetchPC = s.pc ∧ s.fetchBuffer.fetchedInstruction = word := by
    intro word hmarker hseen hword
    rw [fetchBuffer_of_word hseen hmarker hword]
    exact ⟨rfl, rfl⟩
  exact {
    fetches := hfetch
    drains := by
      intro hseen
      have hcount := hdrain ((endMarkerSeen_fetchBuffer s).trans (by rw [hseen, Bool.true_or]))
      change s.fetchBuffer.endMarkerCountdown > 0 at hcount
      rw [fetchBuffer_of_seen hseen] at hcount
      exact hcount
    seen := by
      rw [hfetch']
      exact endMarkerSeen_fetchBuffer s
    countdown := by
      intro hseen
      rw [hfetch', fetchBuffer_of_seen hseen]
      exact ⟨if_pos hseen, rfl⟩
    marked := by
      intro hmarker
      rw [hfetch', fetchBuffer_of_marker hmarker]
      exact ⟨rfl, rfl⟩
    flushed := by
      intro h
      rw [hifId]
      exact if_pos (by simpa using h)
    held := by
      intro hmarker hredirect h
      rw [hifId, hmarker, hredirect]
      obtain h | h := h
      · rw [h]
        rfl
      · rw [h]
        cases s.stalls <;> rfl
    latched := by
      intro hmarker hredirect hstall hseen
      obtain h | ⟨word, hword⟩ := hfetch
      · exact absurd (hseen.symm.trans h) (by decide)
      · obtain ⟨hfetchPC, hfetched⟩ := hgo word hmarker hseen hword
        refine ⟨word, hword, ?_⟩
        rw [hifId, hmarker, hredirect, hstall, hseen, hfetchPC, hfetched]
        rfl
    pc := by
      rw [hpc]
      cases s.redirect with
      | some target => rfl
      | none => cases s.meetsMarker <;> cases s.stalls <;> cases s.fetch.endMarkerSeen <;> rfl }

/-- Everything that a pipelined cycle without exceptions does. -/
theorem pipelinedCycle {s t : Processor} (hp : s.pipelining = true) (h : cycle s = .ok () t) :
    PipelinedCycle s t := by
  obtain ⟨u, hu, rfl⟩ := (cycle_ok_iff s t).mp h
  obtain ⟨⟨⟩, p, hpropagate, hclock⟩ := bind_ok_cases hu
  rw [StageOrder.propagate_of_pipelined hp] at hpropagate
  obtain ⟨⟨hfetch, hload⟩, rfl⟩ := (StageOrder.propagateIn_fixed_ok_iff hp).mp hpropagate
  have hflush := StageOrder.redirectFlushes_allPropagated hp
  rw [StageOrder.clockPulse_of_pipelined hflush.pipelined] at hclock
  obtain ⟨⟨hdrain, hissue, hstore⟩, rfl⟩ := (StageOrder.clockPulseIn_fixed_ok_iff hflush).mp hclock
  have hback := backendCycle_of hp s.fetchBuffer
    (StageOrder.allClocked (StageOrder.allPropagated s)).fetch
    (s.bus.bytesRead + InstructionFetchStage.bytesOf s.fetch) s.meetsMarker
    (InstructionFetchStage.clocked (StageOrder.allPropagated s)).ifId
    (InstructionFetchStage.clocked (StageOrder.allPropagated s)).pc hload hissue hstore
  have hfront := frontendCycle hp hfetch hdrain
  have hlines := lines_eq hp s.fetchBuffer
    (s.bus.bytesRead + InstructionFetchStage.bytesOf s.fetch) s.meetsMarker
  rw [← allPropagated_eq] at hlines
  have hcounters : CountersCycle s
      (ticked (StageOrder.allClocked (StageOrder.allPropagated s))) := {
    nCycles := rfl
    nStalls := by
      change (if !(StageOrder.allPropagated s).controlSignals.flushDecode &&
        (StageOrder.allPropagated s).controlSignals.insertDecodeBubble then _ else _) = _
      rw [hlines]
      rfl
    nInstrIssued := by
      change (if !(StageOrder.allPropagated s).controlSignals.flushDecode &&
        !(StageOrder.allPropagated s).controlSignals.insertDecodeBubble && _ then _ else _) = _
      rw [hlines]
      rfl
    nInstrCompleted := by
      change (if !s.pipelining || (s.pipelining && s.mWb.pc != 0) then _ else _) = _
      rw [hp]
      rfl }
  exact { hback, hfront, hcounters with }

theorem pipelinedCycle_of_next {s t : Processor} (hp : s.pipelining = true)
    (h : next s = some t) : PipelinedCycle s t :=
  pipelinedCycle hp (next_eq_some_iff.mp h).2

theorem pipelining_steps {n : Nat} {s t : Processor} (hp : s.pipelining = true)
    (h : Runs.steps next n s = some t) : t.pipelining = true :=
  Runs.steps_invariant (fun _ _ hs hstep => (pipelinedCycle_of_next hs hstep).pipelining) hp h

/-- The end marker is never forgotten. -/
theorem seen_of_next {s t : Processor} (hcycle : PipelinedCycle s t)
    (hseen : t.fetch.endMarkerSeen = false) :
    s.fetch.endMarkerSeen = false ∧ s.meetsMarker = false := by
  have h := hcycle.seen
  rw [hseen] at h
  simpa using h.symm

end Rv64Emu.Processor
