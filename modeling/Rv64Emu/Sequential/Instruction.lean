import Rv64Emu.Machine.StageSpecs
import Rv64Emu.Library.Runs

/-! One instruction as one step. The machine that the emulator implements has
only architectural state: registers, program counter and bus clients. A step
is put together from the functions that the five stages apply, with nothing
latched in between. -/
namespace Rv64Emu

/-- What ID latches for a word at `pc` whose operands come from `registers`. -/
def decodeAt (registers : Registers) (pc : MemAddress) (word : InstructionWord) :
    Except Exception IDEXRegisters :=
  InstructionDecodeStage.latchOf
    { pc := pc
      instructionWord := word
      decodedControl := ControlSignals.setFromInstruction ⟨word⟩
      readData1 := registers.readRegister (InstructionDecoder.getRS1 ⟨word⟩)
      readData2 := registers.readRegister (InstructionDecoder.getRS2 ⟨word⟩) } ⟨word⟩ <$>
    InstructionDecoder.getImmediate ⟨word⟩

/-- What EX latches once the operand values are known. -/
def IDEXRegisters.executed (idEx : IDEXRegisters) (rs1Value rs2Value : RegValue) :
    EXMRegisters :=
  { pc := idEx.pc
    aluResult := ExecuteStage.resultOf idEx rs1Value rs2Value
    writeData := rs2Value
    rd := idEx.rd
    control := idEx.control }

namespace EXMRegisters

/-- The first half of a memory access: the size check, then the load. -/
def load (exM : EXMRegisters) (clients : Clients) : Except Exception RegValue :=
  if exM.control.memRead || exM.control.memWrite then
    if Width.ofSize exM.control.memSize = none then .error (invalidSize exM.control.memSize)
    else if exM.control.memRead then MemoryStage.loadOf clients exM
    else .ok 0
  else .ok 0

/-- The second half: the store. -/
def store (exM : EXMRegisters) (clients : Clients) : Except Exception Clients :=
  if exM.control.memWrite then
    clients.storeData exM.control.memSize exM.aluResult exM.writeData
  else .ok clients

/-- What MEM latches. -/
def accessed (exM : EXMRegisters) (memData : RegValue) : MWBRegisters :=
  { pc := exM.pc
    aluResult := exM.aluResult
    memData := memData
    rd := exM.rd
    control := exM.control }

end EXMRegisters

/-- The registers once the instruction in M/WB has written back. -/
def MWBRegisters.commit (mWb : MWBRegisters) (registers : Registers) : Registers :=
  if mWb.control.regWrite then registers.writeRegister mWb.rd mWb.wbValue else registers

/-- The state of the machine between two instructions. -/
structure ArchState where
  registers : Registers
  pc : MemAddress
  clients : Clients
  deriving DecidableEq

namespace ArchState

def fetch (σ : ArchState) : Except Exception InstructionWord :=
  match σ.clients.fetchWord σ.pc with
  | .ok word => if word = testEndMarker then .error (.testEndMarkerEncountered σ.pc) else .ok word
  | .error e => .error (InstructionFetchStage.fetchError σ.pc e)

def decode (σ : ArchState) : Except Exception IDEXRegisters := do
  decodeAt σ.registers σ.pc (← σ.fetch)

/-- The address of the next instruction. -/
def nextPC (σ : ArchState) (idEx : IDEXRegisters) : MemAddress :=
  (ExecuteStage.redirectOf idEx idEx.readData1 idEx.readData2).getD (σ.pc + 4)

def executed (idEx : IDEXRegisters) : EXMRegisters :=
  idEx.executed idEx.readData1 idEx.readData2

/-- The state after an instruction whose memory access went well. -/
def after (σ : ArchState) (idEx : IDEXRegisters) (memData : RegValue) (clients : Clients) :
    ArchState :=
  { registers := ((executed idEx).accessed memData).commit σ.registers
    pc := σ.nextPC idEx
    clients := clients }

def step (σ : ArchState) : Except Exception ArchState := do
  let idEx ← σ.decode
  let memData ← (executed idEx).load σ.clients
  let clients ← (executed idEx).store σ.clients
  return σ.after idEx memData clients

/-- A step of a machine that has not been told to halt. -/
def next (σ : ArchState) : Option ArchState :=
  if σ.clients.shouldHalt then none else σ.step.toOption

/-- All that a successful step consists of. -/
theorem step_ok_iff {σ τ : ArchState} :
    σ.step = .ok τ ↔ ∃ idEx memData clients, σ.decode = .ok idEx ∧
      (executed idEx).load σ.clients = .ok memData ∧
      (executed idEx).store σ.clients = .ok clients ∧ τ = σ.after idEx memData clients := by
  unfold step
  cases hdecode : σ.decode with
  | error e => simp [bind, Except.bind]
  | ok idEx =>
    cases hload : (executed idEx).load σ.clients with
    | error e => simp [bind, Except.bind, hload]
    | ok memData =>
      cases hstore : (executed idEx).store σ.clients with
      | error e => simp [bind, Except.bind, hload, hstore]
      | ok clients =>
        simp only [bind, Except.bind, hload, hstore, pure, Except.pure, Except.ok.injEq]
        constructor
        · rintro rfl
          exact ⟨idEx, memData, clients, rfl, hload, hstore, rfl⟩
        · rintro ⟨idEx', memData', clients', rfl, hload', hstore', rfl⟩
          rw [hload] at hload'
          rw [hstore] at hstore'
          cases hload'
          cases hstore'
          rfl

/-- An instruction that asks for no memory access takes its step. -/
theorem step_of_noAccess {σ : ArchState} {idEx : IDEXRegisters} (hdecode : σ.decode = .ok idEx)
    (hread : idEx.control.memRead = false) (hwrite : idEx.control.memWrite = false) :
    σ.step = .ok (σ.after idEx 0 σ.clients) := by
  refine step_ok_iff.mpr ⟨idEx, 0, σ.clients, hdecode, ?_, ?_, rfl⟩
  · refine if_neg ?_
    change ¬(idEx.control.memRead || idEx.control.memWrite) = true
    rw [hread, hwrite]
    decide
  · refine if_neg ?_
    change ¬idEx.control.memWrite = true
    rw [hwrite]
    decide

/-- The memory access of an instruction throws. -/
def accessFails (clients : Clients) (exM : EXMRegisters) (e : Exception) : Prop :=
  exM.load clients = .error e ∨
    ∃ memData, exM.load clients = .ok memData ∧ exM.store clients = .error e

/-- The three places where an instruction throws. -/
theorem step_error_cases {σ : ArchState} {e : Exception} (h : σ.step = .error e) :
    σ.fetch = .error e ∨
      (∃ word, σ.fetch = .ok word ∧ decodeAt σ.registers σ.pc word = .error e) ∨
      ∃ idEx, σ.decode = .ok idEx ∧ accessFails σ.clients (executed idEx) e := by
  unfold step at h
  cases hdecode : σ.decode with
  | error e' =>
    rw [hdecode] at h
    cases h
    unfold decode at hdecode
    cases hfetch : σ.fetch with
    | error e' =>
      rw [hfetch] at hdecode
      cases hdecode
      exact .inl rfl
    | ok word =>
      rw [hfetch] at hdecode
      exact .inr (.inl ⟨word, rfl, hdecode⟩)
  | ok idEx =>
    rw [hdecode] at h
    refine .inr (.inr ⟨idEx, rfl, ?_⟩)
    unfold accessFails
    cases hload : (executed idEx).load σ.clients with
    | error e' =>
      simp only [bind, Except.bind, hload] at h
      cases h
      exact .inl rfl
    | ok memData =>
      cases hstore : (executed idEx).store σ.clients with
      | error e' =>
        simp only [bind, Except.bind, hload, hstore] at h
        cases h
        exact .inr ⟨memData, rfl, rfl⟩
      | ok clients =>
        simp only [bind, Except.bind, hload, hstore] at h
        cases h

theorem step_of_decode_error {σ : ArchState} {e : Exception} (h : σ.decode = .error e) :
    σ.step = .error e := by
  unfold step
  rw [h]
  rfl

theorem step_of_load_error {σ : ArchState} {idEx : IDEXRegisters} {e : Exception}
    (hdecode : σ.decode = .ok idEx) (h : (executed idEx).load σ.clients = .error e) :
    σ.step = .error e := by
  unfold step
  rw [hdecode]
  simp only [bind, Except.bind, h]

theorem step_of_accessFails {σ : ArchState} {idEx : IDEXRegisters} {e : Exception}
    (hdecode : σ.decode = .ok idEx) (h : accessFails σ.clients (executed idEx) e) :
    σ.step = .error e := by
  obtain hload | ⟨memData, hload, hstore⟩ := h
  · exact step_of_load_error hdecode hload
  · unfold step
    rw [hdecode]
    simp only [bind, Except.bind, hload, hstore]

/-- A memory access throws only what the bus throws. -/
theorem accessFails_error {clients : Clients} {exM : EXMRegisters} {e : Exception}
    (h : accessFails clients exM e) : e.isAccessError = true := by
  obtain hload | ⟨memData, -, hstore⟩ := h
  · unfold EXMRegisters.load at hload
    split at hload
    · split at hload
      · cases hload
        rfl
      · split at hload
        · exact Clients.loadData_error hload
        · cases hload
    · cases hload
  · unfold EXMRegisters.store at hstore
    split at hstore
    · exact Clients.storeData_error hstore
    · cases hstore

theorem decode_ok_iff {σ : ArchState} {idEx : IDEXRegisters} :
    σ.decode = .ok idEx ↔ ∃ word, σ.fetch = .ok word ∧
      decodeAt σ.registers σ.pc word = .ok idEx := by
  unfold decode
  cases hfetch : σ.fetch with
  | error e => simp [bind, Except.bind]
  | ok word => simp [bind, Except.bind]

theorem fetch_ok_iff {σ : ArchState} {word : InstructionWord} :
    σ.fetch = .ok word ↔ σ.clients.fetchWord σ.pc = .ok word ∧ word ≠ testEndMarker := by
  unfold fetch
  cases σ.clients.fetchWord σ.pc with
  | error e => simp
  | ok word' =>
    by_cases hmarker : word' = testEndMarker
    · simp only [hmarker, if_true]
      constructor
      · intro h
        cases h
      · rintro ⟨h, hne⟩
        exact absurd (Except.ok.inj h).symm hne
    · simp only [if_neg hmarker, Except.ok.injEq]
      constructor
      · rintro rfl
        exact ⟨rfl, hmarker⟩
      · exact fun h => h.1

/-- A table that does not list the marker lists only words that are fetched as such. -/
theorem fetch_of_listed {σ : ArchState} {word : InstructionWord}
    {table : InstructionWord → Option ι} {i : ι} (hmarker : table testEndMarker = none)
    (hlisted : table word = some i) (hword : σ.clients.fetchWord σ.pc = .ok word) :
    σ.fetch = .ok word := by
  refine fetch_ok_iff.mpr ⟨hword, ?_⟩
  rintro rfl
  rw [hmarker] at hlisted
  cases hlisted

/-- A fault of the fetch is a fetch failure at the program counter. -/
theorem fetch_fault {σ : ArchState} {e : Exception} (h : σ.fetch = .error e)
    (hfault : e.isFault = true) : e = .instructionFetchFailure σ.pc := by
  unfold fetch at h
  cases hword : σ.clients.fetchWord σ.pc with
  | ok word =>
    rw [hword] at h
    change (if word = testEndMarker then _ else _) = _ at h
    split at h
    · cases h
      cases hfault
    · cases h
  | error e' =>
    rw [hword] at h
    cases h
    exact InstructionFetchStage.fetchError_fault hfault

theorem next_eq_some_iff {σ τ : ArchState} :
    σ.next = some τ ↔ σ.clients.shouldHalt = false ∧ σ.step = .ok τ := by
  unfold next
  cases σ.clients.shouldHalt with
  | true => simp
  | false =>
    cases hstep : σ.step with
    | error e => simp [Except.toOption]
    | ok τ' => simp [Except.toOption]

theorem next_of_halted {σ : ArchState} (h : σ.clients.shouldHalt = true) : σ.next = none := by
  unfold next
  rw [if_pos h]

theorem next_of_error {σ : ArchState} {e : Exception} (h : σ.step = .error e) : σ.next = none := by
  unfold next
  rw [h]
  exact ite_self none

end ArchState

/-! ### What the decoder guarantees -/

theorem decodeAt_ok_iff {registers : Registers} {pc : MemAddress} {word : InstructionWord}
    {idEx : IDEXRegisters} :
    decodeAt registers pc word = .ok idEx ↔ ∃ immediate,
      InstructionDecoder.getImmediate ⟨word⟩ = .ok immediate ∧
      idEx =
        { pc := pc
          readData1 := registers.readRegister (InstructionDecoder.getRS1 ⟨word⟩)
          readData2 := registers.readRegister (InstructionDecoder.getRS2 ⟨word⟩)
          immediate := immediate
          rd := InstructionDecoder.getRD ⟨word⟩
          rs1 := InstructionDecoder.getRS1 ⟨word⟩
          rs2 := InstructionDecoder.getRS2 ⟨word⟩
          opcode := InstructionDecoder.getOpcode ⟨word⟩
          funct3 := InstructionDecoder.getFunct3 ⟨word⟩
          control := ControlSignals.setFromInstruction ⟨word⟩ } := by
  unfold decodeAt
  cases InstructionDecoder.getImmediate ⟨word⟩ with
  | error e => simp
  | ok immediate =>
    simp only [Except.map_ok, Except.ok.injEq, InstructionDecodeStage.latchOf]
    constructor
    · rintro rfl
      exact ⟨immediate, rfl, rfl⟩
    · rintro ⟨_, rfl, rfl⟩
      rfl

/-- The decoder refuses opcodes only. -/
theorem InstructionDecoder.getImmediate_error {decoder : InstructionDecoder} {e : Exception}
    (h : decoder.getImmediate = .error e) : ∃ what, e = .illegalInstruction what := by
  unfold getImmediate getInstructionType at h
  cases hopcode : decoder.getOpcode with
  | unlisted bits =>
    rw [hopcode] at h
    cases h
    exact ⟨_, rfl⟩
  | _ =>
    rw [hopcode] at h
    cases h

theorem decodeAt_error {registers : Registers} {pc : MemAddress} {word : InstructionWord}
    {e : Exception} (h : decodeAt registers pc word = .error e) :
    ∃ what, e = .illegalInstruction what := by
  unfold decodeAt at h
  cases himm : InstructionDecoder.getImmediate ⟨word⟩ with
  | ok immediate =>
    rw [himm] at h
    cases h
  | error e' =>
    rw [himm] at h
    cases h
    exact InstructionDecoder.getImmediate_error himm

namespace ControlSignals

/-- Loads are the instructions that write memory data back. -/
theorem memToReg_setFromInstruction (decoder : InstructionDecoder) :
    (setFromInstruction decoder).memToReg = (setFromInstruction decoder).memRead := by
  unfold setFromInstruction
  cases decoder.getOpcode <;> rfl

/-- An instruction that stores changes no register. -/
theorem regWrite_of_memWrite (decoder : InstructionDecoder)
    (h : (setFromInstruction decoder).memWrite = true) :
    (setFromInstruction decoder).regWrite = false := by
  revert h
  unfold setFromInstruction
  cases decoder.getOpcode <;> simp

theorem straight_of_memRead (decoder : InstructionDecoder)
    (h : (setFromInstruction decoder).memRead = true) :
    (setFromInstruction decoder).branch = false ∧ (setFromInstruction decoder).jump = false := by
  revert h
  unfold setFromInstruction
  cases decoder.getOpcode <;> simp

/-- Stores are the instructions that write to memory. -/
theorem memWrite_of_opcode {decoder : InstructionDecoder} (h : decoder.getOpcode ≠ .store) :
    (setFromInstruction decoder).memWrite = false := by
  unfold setFromInstruction
  cases hopcode : decoder.getOpcode with
  | store => exact absurd hopcode h
  | _ => rfl

/-- Only instructions with a second source register let it reach the ALU, the
branch comparison or the bus. -/
theorem ignoresRS2 (decoder : InstructionDecoder)
    (h : instructionUsesRS2 decoder.getOpcode = false) :
    (setFromInstruction decoder).memWrite = false ∧
      (setFromInstruction decoder).branch = false ∧
      ((setFromInstruction decoder).aluSrc = true ∨
        (setFromInstruction decoder).aluOp = .nop) := by
  revert h
  unfold setFromInstruction
  cases decoder.getOpcode <;> simp [instructionUsesRS2]

end ControlSignals

/-! ### MEM performs the two halves of an access -/
namespace MemoryStage

/-- The load goes well when MEM gets through `propagate`, and delivers what MEM
then holds. -/
theorem load_ok_iff {s : Processor} {memData : RegValue} :
    s.exM.load s.bus.clients = .ok memData ↔
      canLoad s ∧ (propagated s).memory.memData = memData := by
  change _ ↔ canLoad s ∧
    (if s.exM.control.memRead then (loadOf s.bus.clients s.exM).toOption.getD 0 else 0) = memData
  unfold EXMRegisters.load canLoad
  by_cases hactive : (s.exM.control.memRead || s.exM.control.memWrite) = true
  · rw [if_pos hactive]
    by_cases hsize : Width.ofSize s.exM.control.memSize = none
    · simp [hsize, hactive]
    · rw [if_neg hsize]
      by_cases hread : s.exM.control.memRead = true
      · rw [if_pos hread, if_pos hread]
        cases loadOf s.bus.clients s.exM with
        | error e => simp [hread]
        | ok value => simp [hread, hsize, Except.toOption]
      · rw [if_neg hread, if_neg hread]
        simp [hread, hsize]
  · have hread : ¬s.exM.control.memRead = true := fun h => hactive (by rw [h, Bool.true_or])
    rw [if_neg hactive, if_neg hread]
    simp [hactive]

/-- A load that fails is thrown before anything but the byte counters changed. -/
theorem propagate_error {s : Processor} {e : Exception}
    (h : s.exM.load s.bus.clients = .error e) :
    ∃ t, propagate s = .error e t ∧ t.regfile.registers = s.regfile.registers ∧
      t.bus.clients = s.bus.clients := by
  unfold EXMRegisters.load at h
  by_cases hactive : (s.exM.control.memRead || s.exM.control.memWrite) = true
  · rw [if_pos hactive] at h
    rw [propagate_active hactive]
    by_cases hsize : Width.ofSize s.exM.control.memSize = none
    · rw [if_pos hsize] at h ⊢
      cases h
      exact ⟨addressed s, rfl, rfl, rfl⟩
    · rw [if_neg hsize] at h ⊢
      by_cases hread : s.exM.control.memRead = true
      · rw [if_pos hread] at h ⊢
        unfold loadOf at h
        rw [h]
        exact ⟨counted s, rfl, rfl, MemoryBus.clients_countLoad s.bus _⟩
      · rw [if_neg hread] at h
        cases h
  · rw [if_neg hactive] at h
    cases h

/-- The lines that MEM has set up ask for the store of the instruction. -/
theorem storeOf_propagated (s : Processor) :
    storeOf (propagated s).bus.clients (propagated s).memory.dataMemory =
      s.exM.store s.bus.clients := by
  change storeOf s.bus.clients (bufferOf s.exM s.memory.dataMemory _).dataMemory = _
  unfold bufferOf EXMRegisters.store
  by_cases hactive : (s.exM.control.memRead || s.exM.control.memWrite) = true
  · simp only [if_pos hactive]
    rfl
  · have hwrite : ¬s.exM.control.memWrite = true :=
      fun h => hactive (by rw [h, Bool.or_true])
    simp only [if_neg hactive, if_neg hwrite]
    rfl

theorem clockPulse_error {s : Processor} {e : Exception}
    (h : storeOf s.bus.clients s.memory.dataMemory = .error e) :
    clockPulse s = .error e (storeFailed s) := by
  rw [clockPulse_eq]
  unfold storeOf at h
  by_cases hwrite : s.memory.dataMemory.writeEnable = true
  · rw [if_pos hwrite] at h ⊢
    rw [h]
  · rw [if_neg hwrite] at h
    cases h

end MemoryStage

theorem WriteBackStage.clocked_registers (s : Processor) :
    (clockPulse (propagate s)).regfile.registers = s.mWb.commit s.regfile.registers :=
  RegisterFile.registers_clockPulse _

end Rv64Emu
