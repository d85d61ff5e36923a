import Rv64Emu.Pipelined.Forwarding

/-! The instructions in flight. The latches from EX/M on are related to the
machine that executes one instruction at a time, in the state `σ` that it has
reached before the instruction in EX/M. -/
namespace Rv64Emu

/-- The addresses of the instructions that the latches hold, and of those that
have been retired or lost, for one run of the pipeline. -/
structure Flight where
  ifId : Option MemAddress := none
  idEx : Option MemAddress := none
  exM : Option MemAddress := none
  mWb : Option MemAddress := none
  retired : List MemAddress := []
  dropped : Option MemAddress := none
  deriving DecidableEq

namespace Flight

/-- Over one pipelined cycle. Fetching the end marker clears IF/ID even when a
load-use hazard keeps the instruction there from issuing. -/
def advance (f : Flight) (s : Processor) : Flight where
  ifId :=
    if s.meetsMarker || s.redirect.isSome then none
    else if s.stalls || s.fetch.endMarkerSeen then f.ifId
    else some s.pc
  idEx := if s.redirect.isSome || s.stalls then none else f.ifId
  exM := f.idEx
  mWb := f.exM
  retired := f.retired ++ f.mWb.toList
  dropped := if s.meetsMarker && s.stalls then f.ifId else f.dropped

section

variable {f : Flight} {s : Processor}

theorem idEx_of_drained (h : f.ifId = none) : (f.advance s).idEx = none := by
  change (if s.redirect.isSome || s.stalls then none else f.ifId) = none
  rw [h]
  exact ite_self none

theorem idEx_of_flush (h : s.redirect.isSome = true) : (f.advance s).idEx = none := by
  change (if s.redirect.isSome || s.stalls then none else f.ifId) = none
  rw [h]
  rfl

theorem idEx_of_stalls (h : s.stalls = true) : (f.advance s).idEx = none := by
  change (if s.redirect.isSome || s.stalls then none else f.ifId) = none
  rw [h, Bool.or_true]
  rfl

theorem idEx_of_issues (hredirect : s.redirect = none) (hstall : s.stalls = false) :
    (f.advance s).idEx = f.ifId := by
  change (if s.redirect.isSome || s.stalls then none else f.ifId) = f.ifId
  rw [hredirect, hstall]
  rfl

theorem ifId_of_flush (h : s.redirect.isSome = true) : (f.advance s).ifId = none := by
  change (if s.meetsMarker || s.redirect.isSome then none else _) = none
  rw [h, Bool.or_true]
  rfl

theorem ifId_of_marker (h : s.meetsMarker = true) : (f.advance s).ifId = none := by
  change (if s.meetsMarker || s.redirect.isSome then none else _) = none
  rw [h]
  rfl

theorem ifId_of_kept (hmeets : s.meetsMarker = false) (hredirect : s.redirect.isSome = false) :
    (f.advance s).ifId = if s.stalls || s.fetch.endMarkerSeen then f.ifId else some s.pc := by
  change (if s.meetsMarker || s.redirect.isSome then none else _) = _
  rw [hmeets, hredirect]
  rfl

theorem dropped_of_marker (h : s.meetsMarker = true) :
    (f.advance s).dropped = if s.stalls then f.ifId else f.dropped := by
  change (if s.meetsMarker && s.stalls then f.ifId else f.dropped) = _
  rw [h]
  rfl

theorem dropped_of_no_marker (h : s.meetsMarker = false) :
    (f.advance s).dropped = f.dropped := by
  change (if s.meetsMarker && s.stalls then f.ifId else f.dropped) = _
  rw [h]
  rfl

end

/-- The instructions in front of the one that throws `e`, youngest last: those
that MEM has not completed. -/
def before (f : Flight) : Exception → List MemAddress
  | .instructionFetchFailure _ => f.exM.toList ++ f.idEx.toList ++ f.ifId.toList
  | .illegalInstruction _ => f.exM.toList ++ f.idEx.toList
  | _ => []

/-- All instructions of the run in front of the one that throws `e`. -/
def allBefore (f : Flight) (e : Exception) : List MemAddress :=
  f.retired ++ f.mWb.toList ++ f.before e

/-- After `n` cycles from an empty pipeline. -/
def after (n : Nat) (start : Processor) : Flight :=
  Runs.history Processor.next advance {} n start

end Flight

/-- The instruction in a latch, if there is one, takes its step. -/
def Past (token : Option MemAddress) (σ τ : ArchState) : Prop :=
  match token with
  | none => τ = σ
  | some _ => σ.next = some τ

/-- A decoded instruction without the operand values. -/
def IDEXRegisters.unread (idEx : IDEXRegisters) : IDEXRegisters :=
  { idEx with readData1 := 0, readData2 := 0 }

/-- Lines with which an instruction leaves no trace but its write to x0. -/
structure Idle (control : ControlSignals) (rd : RegNumber) : Prop where
  memRead : control.memRead = false
  memWrite : control.memWrite = false
  memToReg : control.memToReg = false
  branch : control.branch = false
  jump : control.jump = false
  rd : control.regWrite = true → rd = 0

/-- What EX has computed, as far as MEM and WB look at it. -/
structure EXMRegisters.Agrees (exM exM' : EXMRegisters) : Prop where
  pc : exM.pc = exM'.pc
  aluResult : exM.aluResult = exM'.aluResult
  rd : exM.rd = exM'.rd
  control : exM.control = exM'.control
  writeData : exM.control.memWrite = true → exM.writeData = exM'.writeData

namespace EXMRegisters

variable {exM exM' : EXMRegisters}

theorem Agrees.load (h : exM.Agrees exM') (clients : Clients) :
    exM.load clients = exM'.load clients := by
  unfold EXMRegisters.load MemoryStage.loadOf
  rw [h.control, h.aluResult]

theorem Agrees.store (h : exM.Agrees exM') (clients : Clients) :
    exM.store clients = exM'.store clients := by
  unfold EXMRegisters.store
  by_cases hwrite : exM.control.memWrite = true
  · rw [if_pos hwrite, if_pos (h.control ▸ hwrite), h.control, h.aluResult, h.writeData hwrite]
  · rw [if_neg hwrite, if_neg (h.control ▸ hwrite)]

theorem Agrees.busWrites (h : exM.Agrees exM') : exM.busWrites = exM'.busWrites := by
  unfold EXMRegisters.busWrites DataMemory.busWrites MemoryStage.requested
  by_cases hwrite : exM.control.memWrite = true
  · rw [h.writeData hwrite, h.control, h.aluResult]
  · have hwrite' : ¬exM'.control.memWrite = true := h.control ▸ hwrite
    rw [if_neg hwrite, if_neg hwrite']

theorem Agrees.accessed (h : exM.Agrees exM') (memData : RegValue) :
    exM.accessed memData = exM'.accessed memData := by
  unfold EXMRegisters.accessed
  rw [h.pc, h.aluResult, h.rd, h.control]

end EXMRegisters

namespace Idle

variable {exM : EXMRegisters} (h : Idle exM.control exM.rd) (clients : Clients)

include h

theorem load : exM.load clients = .ok 0 := by
  unfold EXMRegisters.load
  rw [h.memRead, h.memWrite]
  rfl

theorem store : exM.store clients = .ok clients := by
  unfold EXMRegisters.store
  rw [h.memWrite]
  rfl

theorem commit (memData : RegValue) (registers : Registers) :
    (exM.accessed memData).commit registers = registers := by
  unfold MWBRegisters.commit
  change (if exM.control.regWrite then registers.writeRegister exM.rd _ else registers) = _
  by_cases hwrite : exM.control.regWrite = true
  · rw [if_pos hwrite, h.rd hwrite]
    rfl
  · rw [if_neg hwrite]

end Idle

theorem ArchState.readData_of_decode {σ : ArchState} {idEx : IDEXRegisters}
    (h : σ.decode = .ok idEx) : idEx.readData1 = σ.registers.readRegister idEx.rs1 ∧
      idEx.readData2 = σ.registers.readRegister idEx.rs2 := by
  obtain ⟨word, -, hat⟩ := decode_ok_iff.mp h
  obtain ⟨immediate, -, rfl⟩ := decodeAt_ok_iff.mp hat
  exact ⟨rfl, rfl⟩

section

variable {idEx idEx' : IDEXRegisters} (h : idEx.unread = idEx'.unread) (rs1Value rs2Value : RegValue)

include h

theorem ExecuteStage.resultOf_of_unread :
    resultOf idEx rs1Value rs2Value = resultOf idEx' rs1Value rs2Value := by
  change resultOf idEx.unread rs1Value rs2Value = _
  rw [h]
  rfl

theorem ExecuteStage.redirectOf_of_unread :
    redirectOf idEx rs1Value rs2Value = redirectOf idEx' rs1Value rs2Value := by
  change redirectOf idEx.unread rs1Value rs2Value = _
  rw [h]
  rfl

end

/-- The second operand matters only to instructions that have one. -/
theorem ExecuteStage.ignores_rs2 {idEx : IDEXRegisters} {decoder : InstructionDecoder}
    (hcontrol : idEx.control = ControlSignals.setFromInstruction decoder)
    (h : instructionUsesRS2 decoder.getOpcode = false) (rs1Value left right : RegValue) :
    resultOf idEx rs1Value left = resultOf idEx rs1Value right ∧
      redirectOf idEx rs1Value left = redirectOf idEx rs1Value right := by
  obtain ⟨-, hbranch, halu⟩ := ControlSignals.ignoresRS2 decoder h
  rw [← hcontrol] at hbranch halu
  constructor
  · have hresult : (aluInputs idEx rs1Value left).getResult =
        (aluInputs idEx rs1Value right).getResult := by
      unfold aluInputs
      obtain hsrc | hnop := halu
      · rw [hsrc]
        rfl
      · rw [hnop]
        rfl
    unfold resultOf
    rw [hresult]
  · unfold redirectOf
    rw [hbranch]
    rfl

/-! ### The invariant of ID/EX, EX/M and M/WB -/

/-- EX/M and M/WB, and the state `σ` before the instruction in EX/M. -/
structure Retiring (f : Flight) (s : Processor) (σ : ArchState) : Prop where
  pipelining : s.pipelining = true
  clients : σ.clients = s.bus.clients
  registers : σ.registers = s.mWb.commit s.regfile.registers
  mWb_none : f.mWb = none → ∀ registers, s.mWb.commit registers = registers
  exM_none : f.exM = none → Idle s.exM.control s.exM.rd
  exM_some : ∀ p, f.exM = some p → σ.clients.shouldHalt = false →
    σ.pc = p ∧ ∃ idEx, σ.decode = .ok idEx ∧ s.exM.Agrees (ArchState.executed idEx)

/-- ID/EX, and the state before the instruction in EX/M. -/
structure Issued (f : Flight) (s : Processor) (σ : ArchState) : Prop where
  idEx_none : f.idEx = none → Idle s.idEx.control s.idEx.rd
  idEx_some : ∀ p, f.idEx = some p → ∀ τ, Past f.exM σ τ → τ.clients.shouldHalt = false →
    τ.pc = p ∧ ∃ idEx, τ.decode = .ok idEx ∧ s.idEx.unread = idEx.unread
  memToReg : s.idEx.control.memToReg = s.idEx.control.memRead
  operand₁ : f.idEx ≠ none → s.idEx.readData1 = s.regfile.registers.readRegister s.idEx.rs1
  operand₂ : f.idEx ≠ none → instructionUsesRS2 s.idEx.opcode = true →
    s.idEx.readData2 = s.regfile.registers.readRegister s.idEx.rs2
  loadUse : f.idEx ≠ none → ¬s.exM.LoadsInto s.idEx.rs1 ∧
    (instructionUsesRS2 s.idEx.opcode = true → ¬s.exM.LoadsInto s.idEx.rs2)

structure Backend (f : Flight) (s : Processor) (σ : ArchState) : Prop extends
  Retiring f s σ, Issued f s σ

/-- The word in IF/ID is the one at its address, unless EX redirects. -/
structure Fetched (f : Flight) (s : Processor) (σ : ArchState) : Prop where
  ifId_none : f.ifId = none → s.ifId = {}
  ifId_pc : ∀ p, f.ifId = some p → s.ifId.pc = p
  ifId_some : ∀ p, f.ifId = some p → ∀ τ υ, Past f.exM σ τ → Past f.idEx τ υ →
    υ.clients.shouldHalt = false → s.redirect = none →
    υ.pc = p ∧ υ.fetch = .ok s.ifId.instructionWord

namespace Backend

variable {f : Flight} {s t : Processor} {σ : ArchState}

/-- A successful access in MEM takes the instruction in EX/M past its step. -/
theorem past_exM (h : Backend f s σ) (hhalt : s.shouldHalt = false) {memData : RegValue}
    {clients : Clients} (hload : s.exM.load s.bus.clients = .ok memData)
    (hstore : s.exM.store s.bus.clients = .ok clients) :
    ∃ τ, Past f.exM σ τ ∧ τ.clients = clients ∧
      τ.registers = (s.exM.accessed memData).commit σ.registers := by
  cases hexM : f.exM with
  | none =>
    have hidle := h.exM_none hexM
    refine ⟨σ, rfl, ?_, (hidle.commit memData σ.registers).symm⟩
    rw [h.clients]
    exact Except.ok.inj ((hidle.store s.bus.clients).symm.trans hstore)
  | some p =>
    have hrun : σ.clients.shouldHalt = false := by
      rw [h.clients]
      exact hhalt
    obtain ⟨-, idEx, hdecode, hagrees⟩ := h.exM_some p hexM hrun
    refine ⟨σ.after idEx memData clients, ?_, rfl, ?_⟩
    · refine ArchState.next_eq_some_iff.mpr ⟨hrun, ArchState.step_ok_iff.mpr
        ⟨idEx, memData, clients, hdecode, ?_, ?_, rfl⟩⟩
      · rw [← hagrees.load, h.clients]
        exact hload
      · rw [← hagrees.store, h.clients]
        exact hstore
    · rw [hagrees.accessed]
      rfl

/-- EX computes what the instruction computes after its step's predecessor. -/
theorem executed (h : Backend f s σ) {memData : RegValue} {p : MemAddress} {τ : ArchState}
    (hidEx : f.idEx = some p) (hpast : Past f.exM σ τ) (hrun : τ.clients.shouldHalt = false)
    (hregisters : τ.registers = (s.exM.accessed memData).commit σ.registers) :
    ∃ idEx, τ.decode = .ok idEx ∧
      (s.idEx.executed (ExecuteStage.rs1Value s) (ExecuteStage.rs2Value s)).Agrees
        (ArchState.executed idEx) ∧
      s.redirect = ExecuteStage.redirectOf idEx idEx.readData1 idEx.readData2 := by
  obtain ⟨-, idEx, hdecode, hunread⟩ := h.idEx_some p hidEx τ hpast hrun
  have hpresent : f.idEx ≠ none := by
    rw [hidEx]
    exact Option.some_ne_none p
  obtain ⟨hload₁, hload₂⟩ := h.loadUse hpresent
  obtain ⟨decoder, hcontrol, hopcode⟩ := ArchState.control_of_decode hdecode
  obtain ⟨hread₁, hread₂⟩ := ArchState.readData_of_decode hdecode
  have hrs₁ : s.idEx.rs1 = idEx.rs1 := congrArg (fun idEx => idEx.rs1) hunread
  have hrs₂ : s.idEx.rs2 = idEx.rs2 := congrArg (fun idEx => idEx.rs2) hunread
  have hopcode' : s.idEx.opcode = decoder.getOpcode :=
    (congrArg (fun idEx => idEx.opcode) hunread).trans hopcode
  have hvalue₁ : ExecuteStage.rs1Value s = idEx.readData1 := by
    unfold ExecuteStage.rs1Value
    rw [if_pos h.pipelining, h.operand₁ hpresent, ExecuteStage.forwardOperand_eq memData hload₁,
      ← h.registers, ← hregisters, hread₁, hrs₁]
  have hvalue₂ : instructionUsesRS2 decoder.getOpcode = true →
      ExecuteStage.rs2Value s = idEx.readData2 := by
    intro huses
    rw [← hopcode'] at huses
    unfold ExecuteStage.rs2Value
    rw [if_pos h.pipelining, h.operand₂ hpresent huses,
      ExecuteStage.forwardOperand_eq memData (hload₂ huses), ← h.registers, ← hregisters, hread₂,
      hrs₂]
  have hresult : ∀ value, ExecuteStage.resultOf s.idEx (ExecuteStage.rs1Value s) value =
      ExecuteStage.resultOf idEx idEx.readData1 value := by
    intro value
    rw [hvalue₁]
    exact ExecuteStage.resultOf_of_unread hunread _ value
  have hredirect : ∀ value, ExecuteStage.redirectOf s.idEx (ExecuteStage.rs1Value s) value =
      ExecuteStage.redirectOf idEx idEx.readData1 value := by
    intro value
    rw [hvalue₁]
    exact ExecuteStage.redirectOf_of_unread hunread _ value
  have hcontrol' : s.idEx.control = idEx.control := congrArg (fun idEx => idEx.control) hunread
  cases huses : instructionUsesRS2 decoder.getOpcode with
  | true =>
    have hsame := hresult (ExecuteStage.rs2Value s)
    have hsame' := hredirect (ExecuteStage.rs2Value s)
    rw [hvalue₂ huses] at hsame hsame'
    refine ⟨idEx, hdecode, ⟨congrArg (fun idEx => idEx.pc) hunread, ?_,
      congrArg (fun idEx => idEx.rd) hunread, hcontrol', fun _ => hvalue₂ huses⟩, ?_⟩
    · change ExecuteStage.resultOf s.idEx _ (ExecuteStage.rs2Value s) = _
      rw [hvalue₂ huses]
      exact hsame
    · unfold Processor.redirect
      rw [hvalue₂ huses]
      exact hsame'
  | false =>
    obtain ⟨hsame, hsame'⟩ := ExecuteStage.ignores_rs2 hcontrol huses idEx.readData1
      (ExecuteStage.rs2Value s) idEx.readData2
    refine ⟨idEx, hdecode, ⟨congrArg (fun idEx => idEx.pc) hunread, (hresult _).trans hsame,
      congrArg (fun idEx => idEx.rd) hunread, hcontrol', fun hwrite => ?_⟩,
      (hredirect _).trans hsame'⟩
    have hnone := (ControlSignals.ignoresRS2 decoder huses).1
    rw [← hcontrol, ← hcontrol'] at hnone
    exact absurd (hnone.symm.trans hwrite) (by decide)

/-- The registers after the step of the instruction in EX/M. -/
theorem registers_of_past (h : Backend f s σ) {τ : ArchState} (hpast : Past f.exM σ τ) :
    ∃ memData, τ.registers = (s.exM.accessed memData).commit σ.registers := by
  cases hexM : f.exM with
  | none =>
    rw [hexM] at hpast
    obtain rfl : τ = σ := hpast
    exact ⟨0, ((h.exM_none hexM).commit 0 τ.registers).symm⟩
  | some p =>
    rw [hexM] at hpast
    obtain ⟨hrun, hstep⟩ := ArchState.next_eq_some_iff.mp hpast
    obtain ⟨-, idEx, hdecode, hagrees⟩ := h.exM_some p hexM hrun
    obtain ⟨idEx', memData, clients, hdecode', -, -, rfl⟩ := ArchState.step_ok_iff.mp hstep
    cases hdecode.symm.trans hdecode'
    refine ⟨memData, ?_⟩
    rw [hagrees.accessed]
    rfl

/-- EX redirects to where the instruction's step leads. -/
theorem pc_of_next (h : Backend f s σ) {p : MemAddress} {τ υ : ArchState}
    (hidEx : f.idEx = some p) (hpast : Past f.exM σ τ) (hnext : τ.next = some υ) :
    υ.pc = s.redirect.getD (p + 4) := by
  obtain ⟨hrun, hstep⟩ := ArchState.next_eq_some_iff.mp hnext
  obtain ⟨memData, hregisters⟩ := h.registers_of_past hpast
  obtain ⟨idEx, hdecode, -, hredirect⟩ := h.executed hidEx hpast hrun hregisters
  obtain ⟨idEx', memData', clients, hdecode', -, -, rfl⟩ := ArchState.step_ok_iff.mp hstep
  cases hdecode.symm.trans hdecode'
  rw [hredirect, ← (h.idEx_some p hidEx τ hpast hrun).1]
  rfl

theorem redirect_of_idle {s : Processor} (h : Idle s.idEx.control s.idEx.rd) :
    s.redirect = none := by
  unfold Processor.redirect ExecuteStage.redirectOf
  rw [h.jump, h.branch]
  rfl

/-- Loads, which are what ID stalls for, do not redirect. -/
theorem redirect_of_stalls (h : Backend f s σ) {τ υ : ArchState} (hpast : Past f.exM σ τ)
    (hpast' : Past f.idEx τ υ) (hstall : s.stalls = true) : s.redirect = none := by
  cases hidEx : f.idEx with
  | none => exact redirect_of_idle (h.idEx_none hidEx)
  | some p =>
    rw [hidEx] at hpast'
    obtain ⟨hrun, -⟩ := ArchState.next_eq_some_iff.mp hpast'
    obtain ⟨-, idEx, hdecode, hunread⟩ := h.idEx_some p hidEx τ hpast hrun
    obtain ⟨decoder, hcontrol, -⟩ := ArchState.control_of_decode hdecode
    have hcontrol' : s.idEx.control = ControlSignals.setFromInstruction decoder :=
      (congrArg (fun idEx => idEx.control) hunread).trans hcontrol
    have hload : s.idEx.control.memRead = true := by
      unfold Processor.stalls InstructionDecodeStage.hazard at hstall
      rw [Bool.and_eq_true, Bool.and_eq_true] at hstall
      exact hstall.1.1
    rw [hcontrol'] at hload
    obtain ⟨hbranch, hjump⟩ := ControlSignals.straight_of_memRead decoder hload
    unfold Processor.redirect ExecuteStage.redirectOf
    rw [hcontrol', hjump, hbranch]
    rfl

/-- Without a stall the word in IF/ID names no register that is being loaded. -/
theorem not_loadsInto {s : Processor} (hmemToReg : s.idEx.control.memToReg = s.idEx.control.memRead)
    (hstall : s.stalls = false) (exM : EXMRegisters) (hcontrol : exM.control = s.idEx.control)
    (hrd : exM.rd = s.idEx.rd) :
    ¬exM.LoadsInto (InstructionDecoder.getRS1 ⟨s.ifId.instructionWord⟩) ∧
      (instructionUsesRS2 (InstructionDecoder.getOpcode ⟨s.ifId.instructionWord⟩) = true →
        ¬exM.LoadsInto (InstructionDecoder.getRS2 ⟨s.ifId.instructionWord⟩)) := by
  have hhazard : ¬(s.idEx.control.memRead = true ∧ s.idEx.rd ≠ 0 ∧
      (s.idEx.rd = InstructionDecoder.getRS1 ⟨s.ifId.instructionWord⟩ ∨
        instructionUsesRS2 (InstructionDecoder.getOpcode ⟨s.ifId.instructionWord⟩) = true ∧
          s.idEx.rd = InstructionDecoder.getRS2 ⟨s.ifId.instructionWord⟩)) := by
    unfold Processor.stalls InstructionDecodeStage.hazard at hstall
    rw [Bool.eq_false_iff] at hstall
    intro h
    exact hstall (by simpa [and_assoc] using h)
  unfold EXMRegisters.LoadsInto
  rw [hcontrol, hrd, hmemToReg]
  exact ⟨fun h => hhazard ⟨h.1, h.2.1, .inl h.2.2⟩,
    fun huses h => hhazard ⟨h.1, h.2.1, .inr ⟨huses, h.2.2⟩⟩⟩

/-- What ID leaves in ID/EX: a bubble, or the word in IF/ID with its operands. -/
theorem issue_cases (hp : s.pipelining = true) (hcycle : Processor.BackendCycle s t) :
    ((s.redirect.isSome || s.stalls) = true ∧ t.idEx = {}) ∨
      (s.redirect = none ∧ s.stalls = false ∧ ∃ immediate readData2,
        InstructionDecoder.getImmediate ⟨s.ifId.instructionWord⟩ = .ok immediate ∧
        (instructionUsesRS2 (InstructionDecoder.getOpcode ⟨s.ifId.instructionWord⟩) = true →
          readData2 = t.regfile.registers.readRegister
            (InstructionDecoder.getRS2 ⟨s.ifId.instructionWord⟩)) ∧
        t.idEx =
          { pc := s.ifId.pc
            readData1 := t.regfile.registers.readRegister
              (InstructionDecoder.getRS1 ⟨s.ifId.instructionWord⟩)
            readData2 := readData2
            immediate := immediate
            rd := InstructionDecoder.getRD ⟨s.ifId.instructionWord⟩
            rs1 := InstructionDecoder.getRS1 ⟨s.ifId.instructionWord⟩
            rs2 := InstructionDecoder.getRS2 ⟨s.ifId.instructionWord⟩
            opcode := InstructionDecoder.getOpcode ⟨s.ifId.instructionWord⟩
            funct3 := InstructionDecoder.getFunct3 ⟨s.ifId.instructionWord⟩
            control := ControlSignals.setFromInstruction ⟨s.ifId.instructionWord⟩ }) := by
  cases hbubble : s.redirect.isSome || s.stalls with
  | true =>
    rw [Bool.or_eq_true] at hbubble
    exact .inl ⟨rfl, hcycle.bubble hbubble⟩
  | false =>
    rw [Bool.or_eq_false_iff] at hbubble
    obtain ⟨immediate, himm, hidEx⟩ := hcycle.issue hbubble.1 hbubble.2
    refine .inr ⟨Option.not_isSome_iff_eq_none.mp (Bool.eq_false_iff.mp hbubble.1), hbubble.2,
      immediate, (InstructionDecodeStage.propagate s).decode.readData2, himm, fun huses => ?_, ?_⟩
    · change (if s.pipelining then InstructionDecodeStage.forwardWriteBack s.mWb
        (InstructionDecoder.getRS2 ⟨s.ifId.instructionWord⟩)
        (instructionUsesRS2 (InstructionDecoder.getOpcode ⟨s.ifId.instructionWord⟩))
        (s.regfile.registers.readRegister (InstructionDecoder.getRS2 ⟨s.ifId.instructionWord⟩))
        else _) = _
      rw [if_pos hp, huses, InstructionDecodeStage.forwardWriteBack_eq, hcycle.registers]
    · have hread₁ : (InstructionDecodeStage.propagate s).decode.readData1 =
          t.regfile.registers.readRegister
            (InstructionDecoder.getRS1 ⟨s.ifId.instructionWord⟩) := by
        change (if s.pipelining then InstructionDecodeStage.forwardWriteBack s.mWb
          (InstructionDecoder.getRS1 ⟨s.ifId.instructionWord⟩) true
          (s.regfile.registers.readRegister (InstructionDecoder.getRS1 ⟨s.ifId.instructionWord⟩))
          else _) = _
        rw [if_pos hp, InstructionDecodeStage.forwardWriteBack_eq, hcycle.registers]
      rw [hidEx, ← hread₁]
      rfl

theorem idle_nop : Idle (ControlSignals.setFromInstruction ⟨nopInstruction⟩)
    (InstructionDecoder.getRD ⟨nopInstruction⟩) := by
  constructor <;> decide

theorem issued_next (h : Backend f s σ) (hfetched : Fetched f s σ)
    (hcycle : Processor.BackendCycle s t) {τ : ArchState} (hpast : Past f.exM σ τ) :
    Issued (f.advance s) t τ := by
  obtain ⟨hbubble, hidEx⟩ | ⟨hredirect, hstall, immediate, readData2, himm, hread₂, hidEx⟩ :=
    issue_cases h.pipelining hcycle
  · have hnone : (f.advance s).idEx = none := if_pos hbubble
    have hsome : ∀ p, (f.advance s).idEx ≠ some p := by
      intro p
      rw [hnone]
      exact (Option.some_ne_none p).symm
    refine ⟨fun _ => ?_, fun p hp => absurd hp (hsome p), ?_, fun hp => absurd hnone hp,
      fun hp => absurd hnone hp, fun hp => absurd hnone hp⟩
    · rw [hidEx]
      constructor <;> decide
    · rw [hidEx]
  · have htoken : (f.advance s).idEx = f.ifId := Flight.idEx_of_issues hredirect hstall
    have hcontrol : t.exM.control = s.idEx.control := congrArg EXMRegisters.control hcycle.exM
    have hrd : t.exM.rd = s.idEx.rd := congrArg EXMRegisters.rd hcycle.exM
    have hloads := not_loadsInto h.memToReg hstall t.exM hcontrol hrd
    exact {
      idEx_none := by
        intro hnone
        rw [hidEx, hfetched.ifId_none (htoken ▸ hnone)]
        exact idle_nop
      idEx_some := by
        intro p hsome υ hpast' hrun
        rw [htoken] at hsome
        obtain ⟨hpc, hfetch⟩ := hfetched.ifId_some p hsome τ υ hpast hpast' hrun hredirect
        refine ⟨hpc, _, ArchState.decode_ok_iff.mpr ⟨_, hfetch,
          decodeAt_ok_iff.mpr ⟨immediate, himm, rfl⟩⟩, ?_⟩
        rw [hidEx, hfetched.ifId_pc p hsome, hpc]
        rfl
      memToReg := by
        rw [hidEx]
        exact ControlSignals.memToReg_setFromInstruction _
      operand₁ := by
        intro hsome
        rw [hidEx]
      operand₂ := by
        intro hsome huses
        rw [hidEx] at huses ⊢
        exact hread₂ huses
      loadUse := by
        intro hsome
        rw [hidEx]
        exact hloads }

/-- One cycle takes the instruction in EX/M past its step. -/
theorem next (h : Backend f s σ) (hfetched : Fetched f s σ) (hhalt : s.shouldHalt = false)
    (hcycle : Processor.BackendCycle s t) :
    ∃ τ, Past f.exM σ τ ∧ Backend (f.advance s) t τ := by
  obtain ⟨memData, hload, hstore, hmWb⟩ := hcycle.access
  obtain ⟨τ, hpast, hclients, hregisters⟩ := h.past_exM hhalt hload hstore
  have hretiring : Retiring (f.advance s) t τ := {
    pipelining := hcycle.pipelining
    clients := hclients
    registers := by rw [hregisters, hmWb, hcycle.registers, h.registers]
    mWb_none := by
      intro hnone registers
      rw [hmWb]
      exact (h.exM_none hnone).commit memData registers
    exM_none := by
      intro hnone
      rw [hcycle.exM]
      exact h.idEx_none hnone
    exM_some := by
      intro p hsome hrun
      obtain ⟨idEx, hdecode, hagrees, -⟩ := h.executed hsome hpast hrun hregisters
      rw [hcycle.exM]
      exact ⟨(h.idEx_some p hsome τ hpast hrun).1, idEx, hdecode, hagrees⟩ }
  exact ⟨τ, hpast, ⟨hretiring, h.issued_next hfetched hcycle hpast⟩⟩

end Backend

end Rv64Emu
