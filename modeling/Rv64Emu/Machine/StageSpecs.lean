import Rv64Emu.Machine.Processor

/-! One equation per stage operation that can throw: when it throws, and the
state it leaves in either case. Later proofs never unfold the operations. -/
namespace Rv64Emu

theorem get_apply (s : σ) : (get : EStateM ε σ σ) s = .ok s s := rfl

theorem set_apply (s t : σ) : (set t : EStateM ε σ PUnit) s = .ok ⟨⟩ t := rfl

theorem bind_of_ok {x : EStateM ε σ α} {f : α → EStateM ε σ β} {s t : σ} {a : α}
    (h : x s = .ok a t) : (x >>= f) s = f a t := by
  simp only [bind, EStateM.bind, h]

theorem bind_of_error {x : EStateM ε σ α} {f : α → EStateM ε σ β} {s t : σ} {e : ε}
    (h : x s = .error e t) : (x >>= f) s = .error e t := by
  simp only [bind, EStateM.bind, h]

theorem bind_ok_cases {x : EStateM ε σ α} {f : α → EStateM ε σ β} {s u : σ} {b : β}
    (h : (x >>= f) s = .ok b u) : ∃ a t, x s = .ok a t ∧ f a t = .ok b u := by
  cases hx : x s with
  | ok a t => exact ⟨a, t, rfl, (bind_of_ok hx).symm.trans h⟩
  | error e t => exact absurd ((bind_of_error (f := f) hx).symm.trans h) (by simp)

theorem bind_error_cases {x : EStateM ε σ α} {f : α → EStateM ε σ β} {s u : σ} {e : ε}
    (h : (x >>= f) s = .error e u) :
    x s = .error e u ∨ ∃ a t, x s = .ok a t ∧ f a t = .error e u := by
  cases hx : x s with
  | ok a t => exact .inr ⟨a, t, rfl, (bind_of_ok hx).symm.trans h⟩
  | error e' t =>
    have herror := (bind_of_error (f := f) hx).symm.trans h
    cases herror
    exact .inl rfl

theorem onBus_of_ok {act : EStateM Exception MemoryBus α} {s : Processor} {a : α}
    {bus : MemoryBus} (h : act s.bus = .ok a bus) : onBus act s = .ok a { s with bus := bus } := by
  simp only [onBus, h]

theorem onBus_of_error {act : EStateM Exception MemoryBus α} {s : Processor} {e : Exception}
    {bus : MemoryBus} (h : act s.bus = .error e bus) :
    onBus act s = .error e { s with bus := bus } := by
  simp only [onBus, h]

theorem ok_eq_ok_iff {s t : σ} :
    (EStateM.Result.ok () s : EStateM.Result ε σ Unit) = .ok () t ↔ t = s := by
  constructor
  · intro h
    cases h
    rfl
  · rintro rfl
    rfl

theorem error_ne_ok {e : ε} {s t : σ} :
    ¬(EStateM.Result.error e s : EStateM.Result ε σ Unit) = .ok () t := by
  intro h
  cases h

namespace MemoryBus

/-- The bus after the byte counter of a read was bumped. -/
def countRead (bus : MemoryBus) (width : Width) : MemoryBus :=
  { bus with bytesRead := bus.bytesRead + BitVec.ofNat 64 width.bytes }

def countWrite (bus : MemoryBus) (width : Width) : MemoryBus :=
  { bus with bytesWritten := bus.bytesWritten + BitVec.ofNat 64 width.bytes }

theorem read_eq (width : Width) (addr : MemAddress) (bus : MemoryBus) :
    read width addr bus = match bus.clients.read width addr with
      | .ok value => .ok value (bus.countRead width)
      | .error e => .error e (bus.countRead width) := by
  change (liftExcept (bus.clients.read width addr) : EStateM Exception MemoryBus _)
    (bus.countRead width) = _
  cases bus.clients.read width addr <;> rfl

theorem write_eq (width : Width) (addr : MemAddress) (value : width.Value) (bus : MemoryBus) :
    write width addr value bus = match bus.clients.write width addr value with
      | .ok clients => .ok () { bus.countWrite width with clients := clients }
      | .error e => .error e (bus.countWrite width) := by
  change (liftExcept (bus.clients.write width addr value) >>= fun clients =>
    (modify fun bus => { bus with clients := clients } : EStateM Exception MemoryBus _))
      (bus.countWrite width) = _
  cases bus.clients.write width addr value <;> rfl

end MemoryBus

/-- What a bus access may throw. -/
def Exception.isAccessError : Exception → Bool
  | .illegalAccess _ | .outOfBounds _ => true
  | _ => false

/-- The exceptions by which an instruction ends a run on its own account. -/
def Exception.isFault : Exception → Bool
  | .instructionFetchFailure _ | .illegalInstruction _ | .illegalAccess _ => true
  | _ => false

theorem Client.read_error {c : Client} {width : Width} {addr : MemAddress} {e : Exception}
    (h : c.read width addr = .error e) : e.isAccessError = true := by
  cases c with
  | memory m =>
    simp only [Client.read, Memory.readData] at h
    split at h
    · cases h
      rfl
    · split at h <;> cases h
      rfl
  | serial d =>
    cases h
    rfl
  | sysStatus d =>
    cases h
    rfl

theorem Client.write_error {c : Client} {width : Width} {addr : MemAddress}
    {value : width.Value} {e : Exception} (h : c.write width addr value = .error e) :
    e.isAccessError = true := by
  cases c with
  | memory m =>
    simp only [Client.write, Memory.writeData] at h
    split at h
    · cases h
      rfl
    · split at h <;> cases h
      rfl
  | serial d =>
    cases width with
    | byte =>
      simp only [Client.write, Serial.write] at h
      split at h <;> cases h
      rfl
    | _ =>
      cases h
      rfl
  | sysStatus d =>
    cases width with
    | byte | word =>
      simp only [Client.write, SysStatus.write, SysStatus.requestHalt] at h
      split at h <;> cases h
      rfl
    | _ =>
      cases h
      rfl

theorem Clients.read_error {clients : Clients} {width : Width} {addr : MemAddress}
    {e : Exception} (h : clients.read width addr = .error e) : e.isAccessError = true := by
  unfold Clients.read Clients.getClient at h
  cases hfind : clients.findClient addr with
  | none =>
    rw [hfind] at h
    cases h
    rfl
  | some c =>
    rw [hfind] at h
    exact Client.read_error h

theorem Clients.write_error {clients : Clients} {width : Width} {addr : MemAddress}
    {value : width.Value} {e : Exception} (h : clients.write width addr value = .error e) :
    e.isAccessError = true := by
  unfold Clients.write Clients.getClient at h
  cases hfind : clients.findClient addr with
  | none =>
    rw [hfind] at h
    cases h
    rfl
  | some c =>
    rw [hfind] at h
    cases hwrite : c.write width addr value with
    | error e' =>
      simp only [bind, Except.bind, hwrite] at h
      cases h
      exact Client.write_error hwrite
    | ok c' =>
      simp only [bind, Except.bind, hwrite] at h
      cases h

/-- What an instruction fetch at `pc` reads from the bus. -/
def Clients.fetchWord (clients : Clients) (pc : MemAddress) : Except Exception InstructionWord :=
  Clients.read clients .word pc

namespace InstructionFetchStage

/-- The state after the instruction memory was read at the program counter. -/
def accessed (s : Processor) : Processor :=
  { s with
    bus := s.bus.countRead .word
    fetch := { s.fetch with instructionMemory := { size := 4, addr := s.pc } } }

def fetched (s : Processor) (word : InstructionWord) : Processor :=
  { accessed s with
    fetch := { (accessed s).fetch with fetchPC := s.pc, fetchedInstruction := word } }

def markerFetched (s : Processor) : Processor :=
  { accessed s with
    fetch := { (accessed s).fetch with
      endMarkerSeen := true
      endMarkerCountdown := 5
      endMarkerPC := s.pc
      fetchPC := s.pc
      fetchedInstruction := nopInstruction }
    controlSignals := { s.controlSignals with flushFetch := true } }

def idled (s : Processor) : Processor :=
  { s with fetch := { s.fetch with fetchPC := s.pc, fetchedInstruction := nopInstruction } }

/-- What the `catch` clauses turn a failed fetch into. -/
def fetchError (pc : MemAddress) (e : Exception) : Exception :=
  if e.isCatchable then .instructionFetchFailure pc else e

theorem fetchError_fault {pc : MemAddress} {e : Exception}
    (hfault : (fetchError pc e).isFault = true) : fetchError pc e = .instructionFetchFailure pc := by
  unfold fetchError at hfault ⊢
  cases e with
  | outOfBounds addr => cases hfault
  | _ => rfl

theorem fetchInstruction_eq (s : Processor) :
    fetchInstruction s = match s.bus.clients.fetchWord s.pc with
      | .ok word =>
        if word = testEndMarker then
          if s.pipelining then .ok () (markerFetched s)
          else .error (.testEndMarkerEncountered s.pc) (accessed s)
        else .ok () (fetched s word)
      | .error e => .error e (accessed s) := by
  have hvalue : onBus (InstructionMemory.getValue { size := 4, addr := s.pc })
        { s with fetch := { s.fetch with instructionMemory := { size := 4, addr := s.pc } } } =
      match s.bus.clients.fetchWord s.pc with
      | .ok word => .ok (word.setWidth 64) (accessed s)
      | .error e => .error e (accessed s) := by
    have hread := MemoryBus.read_eq .word s.pc s.bus
    unfold onBus InstructionMemory.getValue Clients.fetchWord
    simp only [show (4 : BitVec 8) ≠ 2 by decide, if_false, if_true, bind, EStateM.bind,
      MemoryBus.readWord, hread]
    cases s.bus.clients.read .word s.pc <;> rfl
  have hset : liftExcept ((s.fetch.instructionMemory.setAddress s.pc).setSize 4) s =
      (.ok { size := 4, addr := s.pc } s : EStateM.Result Exception Processor _) := rfl
  unfold fetchInstruction
  simp only [bind, EStateM.bind, get_apply, set_apply, hset, hvalue]
  cases s.bus.clients.fetchWord s.pc with
  | error e => rfl
  | ok word =>
    simp only [BitVec.setWidth_setWidth_of_le word (show 32 ≤ 64 by decide), BitVec.setWidth_eq]
    by_cases hmarker : word = testEndMarker
    · simp only [hmarker, if_true]
      cases hp : s.pipelining <;> rfl
    · simp only [hmarker, if_false]
      rfl

theorem propagate_eq (s : Processor) :
    propagate s =
      if s.fetch.endMarkerSeen then .ok () (idled s)
      else match s.bus.clients.fetchWord s.pc with
        | .ok word =>
          if word = testEndMarker then
            if s.pipelining then .ok () (markerFetched s)
            else .error (.testEndMarkerEncountered s.pc) (accessed s)
          else .ok () (fetched s word)
        | .error e => .error (fetchError s.pc e) (accessed s) := by
  have hbody := fetchInstruction_eq s
  unfold propagate
  simp only [bind, EStateM.bind, get_apply]
  by_cases hseen : s.fetch.endMarkerSeen
  · simp only [if_pos hseen]
    rfl
  · simp only [if_neg hseen, tryCatch, tryCatchThe, MonadExceptOf.tryCatch, EStateM.tryCatch,
      hbody]
    cases hword : s.bus.clients.fetchWord s.pc with
    | error e =>
      cases e with
      | testEndMarkerEncountered a =>
        exact absurd (Clients.read_error hword) (by simp [Exception.isAccessError])
      | outOfBounds a => rfl
      | _ => rfl
    | ok word =>
      by_cases hmarker : word = testEndMarker
      · simp only [hmarker, if_true]
        cases hp : s.pipelining <;> rfl
      · simp only [hmarker, if_false]

theorem clockPulse_pipelined {s : Processor} (hp : s.pipelining = true) :
    clockPulse s =
      if s.fetch.endMarkerSeen then
        if s.fetch.endMarkerCountdown > 0 then .ok () (countedDown (latched s))
        else .error (.testEndMarkerEncountered s.fetch.endMarkerPC) (latched s)
      else .ok () (latched s) := by
  have hmode : ¬(!s.pipelining) = true := by rw [hp]; decide
  unfold clockPulse
  simp only [bind, EStateM.bind, get_apply, if_neg hmode, set_apply]
  split
  · split <;> rfl
  · rfl

theorem clockPulse_alone {s : Processor} (hp : s.pipelining = false)
    (hseen : s.fetch.endMarkerSeen = false) : clockPulse s = .ok () (latchedAlone s) := by
  have hmode : (!s.pipelining) = true := by rw [hp]; decide
  have hmarker : ¬(s.fetch.endMarkerSeen && decide (s.fetch.endMarkerCountdown ≤ 0)) = true := by
    rw [hseen]
    simp
  unfold clockPulse
  simp only [bind, EStateM.bind, get_apply, if_pos hmode, set_apply, if_neg hmarker]
  rfl

end InstructionFetchStage

namespace InstructionDecodeStage

/-- What ID has written when the decoder throws. -/
def halfIssued (s : Processor) : Processor :=
  { s with
    nInstrIssued :=
      if !s.pipelining || (s.pipelining && s.decode.pc != 0) then s.nInstrIssued + 1
      else s.nInstrIssued
    idEx := { s.idEx with
      pc := s.decode.pc
      readData1 := s.decode.readData1
      readData2 := s.decode.readData2 } }

def issued (s : Processor) (immediate : BitVec 64) : Processor :=
  { halfIssued s with
    idEx := {
      pc := s.decode.pc
      readData1 := s.decode.readData1
      readData2 := s.decode.readData2
      immediate := immediate
      rd := s.decoder.getRD
      rs1 := s.decoder.getRS1
      rs2 := s.decoder.getRS2
      opcode := s.decoder.getOpcode
      funct3 := s.decoder.getFunct3
      control := s.decode.decodedControl } }

theorem issue_eq (s : Processor) :
    issue s = match s.decoder.getImmediate with
      | .ok immediate => .ok () (issued s immediate)
      | .error e => .error e (halfIssued s) := by
  change (liftExcept s.decoder.getImmediate >>= fun immediate => modify _ :
    Action Unit) (halfIssued s) = _
  cases s.decoder.getImmediate <;> rfl

theorem clockPulse_eq (s : Processor) :
    clockPulse s =
      if s.pipelining && s.controlSignals.flushDecode then .ok () { s with idEx := {} }
      else if s.pipelining && s.controlSignals.insertDecodeBubble then
        .ok () { s with nStalls := s.nStalls + 1, idEx := {} }
      else match s.decoder.getImmediate with
        | .ok immediate => .ok () (issued s immediate)
        | .error e => .error e (halfIssued s) := by
  rw [← issue_eq]
  unfold clockPulse
  simp only [bind, EStateM.bind, get_apply]
  split
  · rfl
  · split <;> rfl

end InstructionDecodeStage

/-- The access width that a size field selects, if it is a valid one. -/
def Width.ofSize (size : BitVec 8) : Option Width :=
  if size = 1 then some .byte
  else if size = 2 then some .halfWord
  else if size = 4 then some .word
  else if size = 8 then some .doubleWord
  else none

namespace Clients

/-- A load as `DataMemory` performs it. -/
def loadData (clients : Clients) (size : BitVec 8) (signExtend : Bool) (addr : MemAddress) :
    Except Exception RegValue :=
  match Width.ofSize size with
  | some width => DataMemory.extend signExtend <$> clients.read width addr
  | none => .error (invalidSize size)

/-- A store as `DataMemory` performs it. -/
def storeData (clients : Clients) (size : BitVec 8) (addr : MemAddress) (value : RegValue) :
    Except Exception Clients :=
  match Width.ofSize size with
  | some width => clients.write width addr (value.setWidth _)
  | none => .error (invalidSize size)

theorem loadData_error {clients : Clients} {size : BitVec 8} {signExtend : Bool}
    {addr : MemAddress} {e : Exception} (h : clients.loadData size signExtend addr = .error e) :
    e.isAccessError = true := by
  unfold loadData at h
  split at h
  · rename_i width hwidth
    cases hread : clients.read width addr with
    | error e' =>
      rw [hread] at h
      cases h
      exact read_error hread
    | ok value =>
      rw [hread] at h
      cases h
  · cases h
    rfl

theorem storeData_error {clients : Clients} {size : BitVec 8} {addr : MemAddress}
    {value : RegValue} {e : Exception} (h : clients.storeData size addr value = .error e) :
    e.isAccessError = true := by
  unfold storeData at h
  split at h
  · exact write_error h
  · cases h
    rfl

end Clients

namespace MemoryBus

/-- The byte counters of an access with the given size field. -/
def countLoad (bus : MemoryBus) (size : BitVec 8) : MemoryBus :=
  match Width.ofSize size with
  | some width => bus.countRead width
  | none => bus

def countStore (bus : MemoryBus) (size : BitVec 8) : MemoryBus :=
  match Width.ofSize size with
  | some width => bus.countWrite width
  | none => bus

@[simp] theorem clients_countLoad (bus : MemoryBus) (size : BitVec 8) :
    (bus.countLoad size).clients = bus.clients := by
  unfold countLoad
  cases Width.ofSize size <;> rfl

@[simp] theorem clients_countStore (bus : MemoryBus) (size : BitVec 8) :
    (bus.countStore size).clients = bus.clients := by
  unfold countStore
  cases Width.ofSize size <;> rfl

end MemoryBus

namespace DataMemory

theorem extend_doubleWord (signExtend : Bool) (value : BitVec 64) :
    extend signExtend value = value := by
  cases signExtend <;> simp [extend]

/-- The five outcomes of a size field, to be told apart once. -/
theorem size_cases (size : BitVec 8) :
    size = 1 ∨ size = 2 ∨ size = 4 ∨ size = 8 ∨
      (size ≠ 1 ∧ size ≠ 2 ∧ size ≠ 4 ∧ size ≠ 8) := by
  grind

theorem getDataOut_eq {dm : DataMemory} (hread : dm.readEnable = true) (signExtend : Bool)
    (bus : MemoryBus) :
    dm.getDataOut signExtend bus =
      match bus.clients.loadData dm.size signExtend dm.addr with
      | .ok value => .ok value (bus.countLoad dm.size)
      | .error e => .error e (bus.countLoad dm.size) := by
  have hmode : ¬(!dm.readEnable) = true := by rw [hread]; decide
  unfold getDataOut
  rw [if_neg hmode]
  rcases size_cases dm.size with h | h | h | h | ⟨h₁, h₂, h₄, h₈⟩
  · simp only [h, if_true, Clients.loadData, MemoryBus.countLoad, Width.ofSize, bind,
      EStateM.bind, MemoryBus.readByte, MemoryBus.read_eq]
    cases bus.clients.read .byte dm.addr <;> rfl
  · simp only [h, show (2 : BitVec 8) ≠ 1 by decide, if_true, if_false, Clients.loadData,
      MemoryBus.countLoad, Width.ofSize, bind, EStateM.bind, MemoryBus.readHalfWord,
      MemoryBus.read_eq]
    cases bus.clients.read .halfWord dm.addr <;> rfl
  · simp only [h, show (4 : BitVec 8) ≠ 1 by decide, show (4 : BitVec 8) ≠ 2 by decide, if_true,
      if_false, Clients.loadData, MemoryBus.countLoad, Width.ofSize, bind, EStateM.bind,
      MemoryBus.readWord, MemoryBus.read_eq]
    cases bus.clients.read .word dm.addr <;> rfl
  · simp only [h, show (8 : BitVec 8) ≠ 1 by decide, show (8 : BitVec 8) ≠ 2 by decide,
      show (8 : BitVec 8) ≠ 4 by decide, if_true, if_false, Clients.loadData,
      MemoryBus.countLoad, Width.ofSize, MemoryBus.readDoubleWord]
    change MemoryBus.read .doubleWord dm.addr bus = _
    rw [MemoryBus.read_eq]
    cases bus.clients.read .doubleWord dm.addr with
    | ok value =>
      exact congrArg (fun v => EStateM.Result.ok v (bus.countRead .doubleWord))
        (extend_doubleWord signExtend value).symm
    | error e => rfl
  · simp only [h₁, h₂, h₄, h₈, if_false, Clients.loadData, MemoryBus.countLoad, Width.ofSize]
    rfl

theorem clockPulse_eq {dm : DataMemory} (hwrite : dm.writeEnable = true) (bus : MemoryBus) :
    dm.clockPulse bus =
      match bus.clients.storeData dm.size dm.addr dm.dataIn with
      | .ok clients => .ok () { bus.countStore dm.size with clients := clients }
      | .error e => .error e (bus.countStore dm.size) := by
  have hmode : ¬(!dm.writeEnable) = true := by rw [hwrite]; decide
  unfold clockPulse
  rw [if_neg hmode]
  rcases size_cases dm.size with h | h | h | h | ⟨h₁, h₂, h₄, h₈⟩
  · simp only [h, if_true, Clients.storeData, MemoryBus.countStore, Width.ofSize]
    exact MemoryBus.write_eq .byte _ _ _
  · simp only [h, show (2 : BitVec 8) ≠ 1 by decide, if_true, if_false, Clients.storeData,
      MemoryBus.countStore, Width.ofSize]
    exact MemoryBus.write_eq .halfWord _ _ _
  · simp only [h, show (4 : BitVec 8) ≠ 1 by decide, show (4 : BitVec 8) ≠ 2 by decide, if_true,
      if_false, Clients.storeData, MemoryBus.countStore, Width.ofSize]
    exact MemoryBus.write_eq .word _ _ _
  · simp only [h, show (8 : BitVec 8) ≠ 1 by decide, show (8 : BitVec 8) ≠ 2 by decide,
      show (8 : BitVec 8) ≠ 4 by decide, if_true, if_false, Clients.storeData,
      MemoryBus.countStore, Width.ofSize]
    exact (congrArg (fun v => MemoryBus.write .doubleWord dm.addr v bus)
      (BitVec.setWidth_eq dm.dataIn).symm).trans (MemoryBus.write_eq .doubleWord _ _ _)
  · simp only [h₁, h₂, h₄, h₈, if_false, Clients.storeData, MemoryBus.countStore, Width.ofSize]
    rfl

end DataMemory

namespace MemoryStage

/-- The data memory lines that EX/M asks for. -/
def requested (exM : EXMRegisters) : DataMemory :=
  { size := exM.control.memSize
    addr := exM.aluResult
    dataIn := exM.writeData
    readEnable := exM.control.memRead
    writeEnable := exM.control.memWrite }

def configured (s : Processor) : Processor := withDataMemory (buffered s) (requested s.exM)

/-- The state in which an invalid access size is reported. -/
def addressed (s : Processor) : Processor :=
  withDataMemory (buffered s) ((buffered s).memory.dataMemory.setAddress s.exM.aluResult)

/-- The state after a load has reached the bus. -/
def counted (s : Processor) : Processor :=
  { configured s with bus := s.bus.countLoad s.exM.control.memSize }

def loaded (s : Processor) (memData : RegValue) : Processor :=
  { counted s with memory := { (counted s).memory with memData := memData } }

theorem propagate_idle {s : Processor}
    (hidle : (s.exM.control.memRead || s.exM.control.memWrite) = false) :
    propagate s = .ok () (buffered s) := by
  have hmode : ¬(s.exM.control.memRead || s.exM.control.memWrite) = true := by
    rw [hidle]
    decide
  change (if s.exM.control.memRead || s.exM.control.memWrite then _ else _ : Action Unit)
    (buffered s) = _
  rw [if_neg hmode]
  rfl

theorem ofSize_eq_none (size : BitVec 8) :
    Width.ofSize size = none ↔ size ≠ 1 ∧ size ≠ 2 ∧ size ≠ 4 ∧ size ≠ 8 := by
  unfold Width.ofSize
  grind

theorem configure_buffered (s : Processor) :
    configure (buffered s) =
      if Width.ofSize s.exM.control.memSize = none then
        .error (invalidSize s.exM.control.memSize) (addressed s)
      else .ok () (configured s) := by
  change (liftExcept ((addressed s).memory.dataMemory.setSize s.exM.control.memSize) >>= _ :
    Action Unit) (addressed s) = _
  simp only [DataMemory.setSize, ← ofSize_eq_none]
  split
  · rfl
  · rfl

theorem load_configured (s : Processor) :
    load (configured s) =
      if s.exM.control.memRead then
        match s.bus.clients.loadData s.exM.control.memSize s.exM.control.memSignExtend
            s.exM.aluResult with
        | .ok memData => .ok () (loaded s memData)
        | .error e => .error e (counted s)
      else .ok () (configured s) := by
  change (if s.exM.control.memRead then _ else _ : Action Unit) (configured s) = _
  by_cases hread : s.exM.control.memRead
  · have hload := DataMemory.getDataOut_eq (show (requested s.exM).readEnable = true from hread)
      s.exM.control.memSignExtend s.bus
    rw [if_pos hread, if_pos hread]
    change _ = match s.bus.clients.loadData (requested s.exM).size _ (requested s.exM).addr with
      | .ok memData => _
      | .error e => _
    cases hdata : s.bus.clients.loadData (requested s.exM).size s.exM.control.memSignExtend
        (requested s.exM).addr with
    | ok memData =>
      rw [hdata] at hload
      exact bind_of_ok (onBus_of_ok (s := configured s) hload)
    | error e =>
      rw [hdata] at hload
      exact bind_of_error (onBus_of_error (s := configured s) hload)
  · rw [if_neg hread, if_neg hread]
    rfl

theorem propagate_active {s : Processor}
    (hactive : (s.exM.control.memRead || s.exM.control.memWrite) = true) :
    propagate s =
      if Width.ofSize s.exM.control.memSize = none then
        .error (invalidSize s.exM.control.memSize) (addressed s)
      else if s.exM.control.memRead then
        match s.bus.clients.loadData s.exM.control.memSize s.exM.control.memSignExtend
            s.exM.aluResult with
        | .ok memData => .ok () (loaded s memData)
        | .error e => .error e (counted s)
      else .ok () (configured s) := by
  change (if s.exM.control.memRead || s.exM.control.memWrite then _ else _ : Action Unit)
    (buffered s) = _
  rw [if_pos hactive]
  have hconfigure := configure_buffered s
  by_cases hsize : Width.ofSize s.exM.control.memSize = none
  · rw [if_pos hsize] at hconfigure ⊢
    exact bind_of_error hconfigure
  · rw [if_neg hsize] at hconfigure ⊢
    exact (bind_of_ok hconfigure).trans (load_configured s)

/-- The bus after the store of the instruction in the stage. -/
def stored (s : Processor) (clients : Clients) : Processor :=
  { s with bus := { s.bus.countStore s.memory.dataMemory.size with clients := clients } }

def storeFailed (s : Processor) : Processor :=
  { s with bus := s.bus.countStore s.memory.dataMemory.size }

theorem clockPulse_eq (s : Processor) :
    clockPulse s =
      if s.memory.dataMemory.writeEnable then
        match s.bus.clients.storeData s.memory.dataMemory.size s.memory.dataMemory.addr
            s.memory.dataMemory.dataIn with
        | .ok clients => .ok () (latched (stored s clients))
        | .error e => .error e (storeFailed s)
      else .ok () (latched s) := by
  change (onBus s.memory.dataMemory.clockPulse >>= fun _ => modify latched : Action Unit) s = _
  by_cases hwrite : s.memory.dataMemory.writeEnable
  · have hstore := DataMemory.clockPulse_eq hwrite s.bus
    rw [if_pos hwrite]
    cases hdata : s.bus.clients.storeData s.memory.dataMemory.size s.memory.dataMemory.addr
        s.memory.dataMemory.dataIn with
    | ok clients =>
      rw [hdata] at hstore
      exact bind_of_ok (onBus_of_ok hstore)
    | error e =>
      rw [hdata] at hstore
      exact bind_of_error (onBus_of_error hstore)
  · have hidle : s.memory.dataMemory.clockPulse s.bus = .ok () s.bus := by
      unfold DataMemory.clockPulse
      rw [if_pos (by simpa using hwrite)]
      rfl
    rw [if_neg hwrite]
    exact bind_of_ok (onBus_of_ok hidle)

end MemoryStage

/-! ### Updates in normal form

Every field that a stage writes, as a function of the fields that it reads; raised
control lines are or-ed in. Two stages that do not interfere then commute by
definition. -/

namespace InstructionFetchStage

/-- The buffers of IF after `propagate`, from the word that the bus delivers. -/
def bufferOf (fetch : InstructionFetchStage) (pc : MemAddress)
    (word : Except Exception InstructionWord) : InstructionFetchStage :=
  if fetch.endMarkerSeen then { fetch with fetchPC := pc, fetchedInstruction := nopInstruction }
  else match word with
    | .ok word =>
      if word = testEndMarker then
        { instructionMemory := { size := 4, addr := pc }
          endMarkerSeen := true
          endMarkerCountdown := 5
          endMarkerPC := pc
          fetchPC := pc
          fetchedInstruction := nopInstruction }
      else
        { fetch with
          instructionMemory := { size := 4, addr := pc }
          fetchPC := pc
          fetchedInstruction := word }
    | .error _ => fetch

/-- IF meets the end marker in this cycle. -/
def meetsMarker (fetch : InstructionFetchStage) (word : Except Exception InstructionWord) : Bool :=
  if fetch.endMarkerSeen then false
  else match word with
    | .ok word => word == testEndMarker
    | .error _ => false

def bytesOf (fetch : InstructionFetchStage) : BitVec 64 := if fetch.endMarkerSeen then 0 else 4

def propagated (s : Processor) : Processor :=
  { s with
    fetch := bufferOf s.fetch s.pc (s.bus.clients.fetchWord s.pc)
    bus := { s.bus with bytesRead := s.bus.bytesRead + bytesOf s.fetch }
    controlSignals := { s.controlSignals with
      flushFetch := s.controlSignals.flushFetch ||
        meetsMarker s.fetch (s.bus.clients.fetchWord s.pc) } }

/-- Whether IF gets through `propagate`. -/
def canFetch (s : Processor) : Prop :=
  s.fetch.endMarkerSeen = true ∨ ∃ word, s.bus.clients.fetchWord s.pc = .ok word

theorem propagated_of_seen {s : Processor} (hseen : s.fetch.endMarkerSeen = true) :
    propagated s = idled s := by
  simp only [propagated, bufferOf, meetsMarker, bytesOf, if_pos hseen, Bool.or_false, add_zero]
  rfl

theorem propagated_of_marker {s : Processor} (hseen : ¬s.fetch.endMarkerSeen = true)
    (hword : s.bus.clients.fetchWord s.pc = .ok testEndMarker) :
    propagated s = markerFetched s := by
  simp only [propagated, bufferOf, meetsMarker, bytesOf, if_neg hseen, hword, if_true,
    beq_self_eq_true, Bool.or_true]
  rfl

theorem propagated_of_word {s : Processor} {word : InstructionWord}
    (hseen : ¬s.fetch.endMarkerSeen = true)
    (hword : s.bus.clients.fetchWord s.pc = .ok word) (hmarker : word ≠ testEndMarker) :
    propagated s = fetched s word := by
  simp only [propagated, bufferOf, meetsMarker, bytesOf, if_neg hseen, hword, if_neg hmarker,
    beq_eq_false_iff_ne.mpr hmarker, Bool.or_false]
  rfl

theorem propagate_ok_iff {s : Processor} (hp : s.pipelining = true) (t : Processor) :
    propagate s = .ok () t ↔ canFetch s ∧ t = propagated s := by
  rw [propagate_eq]
  unfold canFetch
  by_cases hseen : s.fetch.endMarkerSeen
  · rw [if_pos hseen, ok_eq_ok_iff, propagated_of_seen hseen]
    exact ⟨fun h => ⟨.inl hseen, h⟩, fun h => h.2⟩
  · rw [if_neg hseen]
    cases hword : s.bus.clients.fetchWord s.pc with
    | error e => simp [hseen]
    | ok word =>
      by_cases hmarker : word = testEndMarker
      · subst hmarker
        rw [propagated_of_marker hseen hword]
        simp only [if_true, hp, ok_eq_ok_iff]
        exact ⟨fun h => ⟨.inr ⟨_, rfl⟩, h⟩, fun h => h.2⟩
      · rw [propagated_of_word hseen hword hmarker]
        simp only [if_neg hmarker, ok_eq_ok_iff]
        exact ⟨fun h => ⟨.inr ⟨_, rfl⟩, h⟩, fun h => h.2⟩

/-- IF latches a fetched word and advances the program counter. -/
def advances (control : PipelineControl) (fetch : InstructionFetchStage) : Bool :=
  !control.flushFetch && !control.stallFetch && !fetch.endMarkerSeen

def clocked (s : Processor) : Processor :=
  { s with
    ifId :=
      if s.controlSignals.flushFetch then {}
      else if advances s.controlSignals s.fetch then
        { pc := s.fetch.fetchPC, instructionWord := s.fetch.fetchedInstruction }
      else s.ifId
    pc := if advances s.controlSignals s.fetch then s.pc + 4 else s.pc
    fetch := { s.fetch with
      endMarkerCountdown :=
        if s.fetch.endMarkerSeen then s.fetch.endMarkerCountdown - 1
        else s.fetch.endMarkerCountdown } }

theorem latched_eq (s : Processor) :
    latched s = { s with
      ifId :=
        if s.controlSignals.flushFetch then {}
        else if advances s.controlSignals s.fetch then
          { pc := s.fetch.fetchPC, instructionWord := s.fetch.fetchedInstruction }
        else s.ifId
      pc := if advances s.controlSignals s.fetch then s.pc + 4 else s.pc } := by
  unfold latched advances
  cases s.controlSignals.flushFetch <;> cases s.controlSignals.stallFetch <;>
    cases s.fetch.endMarkerSeen <;> rfl

def canDrain (s : Processor) : Prop :=
  s.fetch.endMarkerSeen = true → s.fetch.endMarkerCountdown > 0

theorem clocked_of_seen {s : Processor} (hseen : s.fetch.endMarkerSeen = true) :
    clocked s = countedDown (latched s) := by
  rw [latched_eq]
  simp only [clocked, if_pos hseen]
  rfl

theorem clocked_of_unseen {s : Processor} (hseen : ¬s.fetch.endMarkerSeen = true) :
    clocked s = latched s := by
  rw [latched_eq]
  simp only [clocked, if_neg hseen]

theorem clockPulse_ok_iff {s : Processor} (hp : s.pipelining = true) (t : Processor) :
    clockPulse s = .ok () t ↔ canDrain s ∧ t = clocked s := by
  rw [clockPulse_pipelined hp]
  unfold canDrain
  by_cases hseen : s.fetch.endMarkerSeen
  · rw [if_pos hseen, clocked_of_seen hseen]
    by_cases hcount : s.fetch.endMarkerCountdown > 0
    · rw [if_pos hcount, ok_eq_ok_iff]
      exact ⟨fun h => ⟨fun _ => hcount, h⟩, fun h => h.2⟩
    · rw [if_neg hcount]
      exact ⟨fun h => absurd h error_ne_ok, fun h => absurd (h.1 hseen) hcount⟩
  · rw [if_neg hseen, ok_eq_ok_iff, clocked_of_unseen hseen]
    exact ⟨fun h => ⟨fun h' => absurd h' hseen, h⟩, fun h => h.2⟩

end InstructionFetchStage

namespace InstructionDecodeStage

/-- ID asks for a load-use stall. -/
def stalls (s : Processor) : Bool :=
  s.pipelining && hazard s.idEx (s.decoder.setInstructionWord s.ifId.instructionWord)

theorem propagate_control (s : Processor) :
    (propagate s).controlSignals = { s.controlSignals with
      stallFetch := s.controlSignals.stallFetch || stalls s
      insertDecodeBubble := s.controlSignals.insertDecodeBubble || stalls s } := by
  change (if stalls s then _ else s.controlSignals) = _
  cases stalls s <;> simp

def canIssue (s : Processor) : Prop :=
  s.controlSignals.flushDecode = true ∨ s.controlSignals.insertDecodeBubble = true ∨
    ∃ immediate, s.decoder.getImmediate = .ok immediate

/-- What ID latches for the instruction it has decoded. -/
def latchOf (decode : InstructionDecodeStage) (decoder : InstructionDecoder)
    (immediate : BitVec 64) : IDEXRegisters :=
  { pc := decode.pc
    readData1 := decode.readData1
    readData2 := decode.readData2
    immediate := immediate
    rd := decoder.getRD
    rs1 := decoder.getRS1
    rs2 := decoder.getRS2
    opcode := decoder.getOpcode
    funct3 := decoder.getFunct3
    control := decode.decodedControl }

def idExOf (control : PipelineControl) (decode : InstructionDecodeStage)
    (decoder : InstructionDecoder) (idEx : IDEXRegisters) : IDEXRegisters :=
  if control.flushDecode || control.insertDecodeBubble then {}
  else match decoder.getImmediate with
    | .ok immediate => latchOf decode decoder immediate
    | .error _ => idEx

def clocked (s : Processor) : Processor :=
  { s with
    idEx := idExOf s.controlSignals s.decode s.decoder s.idEx
    nStalls :=
      if !s.controlSignals.flushDecode && s.controlSignals.insertDecodeBubble then s.nStalls + 1
      else s.nStalls
    nInstrIssued :=
      if !s.controlSignals.flushDecode && !s.controlSignals.insertDecodeBubble &&
          s.decode.pc != 0 then s.nInstrIssued + 1
      else s.nInstrIssued }

theorem clockPulse_ok_iff {s : Processor} (hp : s.pipelining = true) (t : Processor) :
    clockPulse s = .ok () t ↔ canIssue s ∧ t = clocked s := by
  rw [clockPulse_eq]
  unfold canIssue clocked idExOf
  rw [hp]
  simp only [Bool.true_and]
  cases s.controlSignals.flushDecode with
  | true =>
    simp only [if_true, ok_eq_ok_iff, true_or, true_and, Bool.true_or, Bool.not_true,
      Bool.false_and, Bool.false_eq_true, if_false]
  | false =>
    cases s.controlSignals.insertDecodeBubble with
    | true =>
      simp only [if_true, ok_eq_ok_iff, true_or, or_true, true_and, Bool.or_true, Bool.not_true,
        Bool.not_false, Bool.true_and, Bool.false_and, Bool.and_false, Bool.false_eq_true,
        if_false]
    | false =>
      cases s.decoder.getImmediate with
      | error e => simp
      | ok immediate =>
        simp only [Bool.false_eq_true, if_false, Bool.or_false, Bool.not_false, Bool.true_and,
          ok_eq_ok_iff, false_or]
        constructor
        · rintro rfl
          refine ⟨⟨immediate, rfl⟩, ?_⟩
          simp only [issued, halfIssued, latchOf, hp, Bool.not_true, Bool.false_or,
            Bool.true_and]
        · rintro ⟨-, rfl⟩
          simp only [issued, halfIssued, latchOf, hp, Bool.not_true, Bool.false_or,
            Bool.true_and]

end InstructionDecodeStage

namespace ExecuteStage

/-- EX redirects the program counter in this cycle. -/
def redirects (s : Processor) : Bool := (redirectOf s.idEx (rs1Value s) (rs2Value s)).isSome

theorem propagate_control (s : Processor) :
    (propagate s).controlSignals = { s.controlSignals with
      flushFetch := s.controlSignals.flushFetch || redirects s
      flushDecode := s.controlSignals.flushDecode || redirects s } := by
  change (if redirects s then _ else s.controlSignals) = _
  cases redirects s <;> simp

/-- A redirect replaces the program counter. -/
theorem clocked_pc (s : Processor) :
    (clockPulse (propagate s)).pc = (redirectOf s.idEx (rs1Value s) (rs2Value s)).getD s.pc := by
  change (if (redirectOf s.idEx (rs1Value s) (rs2Value s)).isSome then
    (redirectOf s.idEx (rs1Value s) (rs2Value s)).getD 0 else s.pc) = _
  cases redirectOf s.idEx (rs1Value s) (rs2Value s) <;> rfl

end ExecuteStage

namespace MemoryStage

/-- The buffers of MEM after `propagate`, from the outcome of the load. -/
def bufferOf (exM : EXMRegisters) (dm : DataMemory) (data : Except Exception RegValue) :
    MemoryStage :=
  { dataMemory :=
      if exM.control.memRead || exM.control.memWrite then requested exM
      else (dm.setReadEnable false).setWriteEnable false
    pc := exM.pc
    aluResult := exM.aluResult
    memData := if exM.control.memRead then data.toOption.getD 0 else 0
    nextRD := exM.rd
    nextControl := exM.control }

/-- The bytes a load of the instruction in EX/M adds to the read counter. -/
def loadBytes (exM : EXMRegisters) : BitVec 64 :=
  if exM.control.memRead then
    match Width.ofSize exM.control.memSize with
    | some width => BitVec.ofNat 64 width.bytes
    | none => 0
  else 0

/-- The load of the instruction in EX/M. -/
def loadOf (clients : Clients) (exM : EXMRegisters) : Except Exception RegValue :=
  clients.loadData exM.control.memSize exM.control.memSignExtend exM.aluResult

def propagated (s : Processor) : Processor :=
  { s with
    memory := bufferOf s.exM s.memory.dataMemory (loadOf s.bus.clients s.exM)
    bus := { s.bus with bytesRead := s.bus.bytesRead + loadBytes s.exM } }

/-- Whether MEM gets through `propagate`. -/
def canLoad (s : Processor) : Prop :=
  (s.exM.control.memRead || s.exM.control.memWrite) = true →
    Width.ofSize s.exM.control.memSize ≠ none ∧
    (s.exM.control.memRead = true → ∃ memData, loadOf s.bus.clients s.exM = .ok memData)

theorem countLoad_eq (bus : MemoryBus) {exM : EXMRegisters} (hread : exM.control.memRead = true) :
    bus.countLoad exM.control.memSize = { bus with bytesRead := bus.bytesRead + loadBytes exM } := by
  unfold MemoryBus.countLoad loadBytes
  rw [if_pos hread]
  cases Width.ofSize exM.control.memSize with
  | none => simp only [add_zero]
  | some width => rfl

theorem propagate_ok_iff (s t : Processor) :
    propagate s = .ok () t ↔ canLoad s ∧ t = propagated s := by
  unfold canLoad
  by_cases hactive : (s.exM.control.memRead || s.exM.control.memWrite) = true
  · rw [propagate_active hactive]
    by_cases hsize : Width.ofSize s.exM.control.memSize = none
    · simp [hsize, hactive]
    · rw [if_neg hsize]
      by_cases hread : s.exM.control.memRead = true
      · rw [if_pos hread]
        change (match loadOf s.bus.clients s.exM with
          | .ok memData => _
          | .error e => _) = _ ↔ _
        cases hload : loadOf s.bus.clients s.exM with
        | error e => simp [hread]
        | ok memData =>
          have hstate : loaded s memData = propagated s := by
            simp only [propagated, bufferOf, if_pos hactive, if_pos hread, hload,
              Except.toOption, Option.getD_some, loaded, counted, countLoad_eq s.bus hread]
            rfl
          simp only [ok_eq_ok_iff, hstate]
          exact ⟨fun h => ⟨fun _ => ⟨hsize, fun _ => ⟨memData, rfl⟩⟩, h⟩, fun h => h.2⟩
      · have hstate : configured s = propagated s := by
          simp only [propagated, bufferOf, if_pos hactive, if_neg hread, loadBytes, add_zero]
          rfl
        rw [if_neg hread, ok_eq_ok_iff, hstate]
        exact ⟨fun h => ⟨fun _ => ⟨hsize, fun h' => absurd h' hread⟩, h⟩, fun h => h.2⟩
  · have hidle : (s.exM.control.memRead || s.exM.control.memWrite) = false := by
      simpa using hactive
    have hread : ¬s.exM.control.memRead = true := by
      intro h
      simp [h] at hidle
    have hstate : buffered s = propagated s := by
      simp only [propagated, bufferOf, if_neg hactive, if_neg hread, loadBytes, add_zero]
      rfl
    rw [propagate_idle hidle, ok_eq_ok_iff, hstate]
    exact ⟨fun h => ⟨fun h' => absurd h' hactive, h⟩, fun h => h.2⟩

/-- The store that the data memory lines ask for. -/
def storeOf (clients : Clients) (dm : DataMemory) : Except Exception Clients :=
  if dm.writeEnable then clients.storeData dm.size dm.addr dm.dataIn else .ok clients

def storedBus (bus : MemoryBus) (dm : DataMemory) : MemoryBus :=
  if dm.writeEnable then
    match bus.clients.storeData dm.size dm.addr dm.dataIn with
    | .ok clients => { bus.countStore dm.size with clients := clients }
    | .error _ => bus
  else bus

def canStore (s : Processor) : Prop :=
  ∃ clients, storeOf s.bus.clients s.memory.dataMemory = .ok clients

theorem clients_storedBus {bus : MemoryBus} {dm : DataMemory} {clients : Clients}
    (h : storeOf bus.clients dm = .ok clients) : (storedBus bus dm).clients = clients := by
  unfold storeOf at h
  unfold storedBus
  by_cases hwrite : dm.writeEnable = true
  · rw [if_pos hwrite] at h ⊢
    rw [h]
  · rw [if_neg hwrite] at h ⊢
    exact Except.ok.inj h

def clocked (s : Processor) : Processor :=
  { latched s with bus := storedBus s.bus s.memory.dataMemory }

theorem clockPulse_ok_iff (s t : Processor) :
    clockPulse s = .ok () t ↔ canStore s ∧ t = clocked s := by
  rw [clockPulse_eq]
  unfold canStore storeOf clocked storedBus
  by_cases hwrite : s.memory.dataMemory.writeEnable = true
  · simp only [if_pos hwrite]
    cases s.bus.clients.storeData s.memory.dataMemory.size s.memory.dataMemory.addr
        s.memory.dataMemory.dataIn with
    | error e => simp
    | ok clients =>
      simp only [ok_eq_ok_iff]
      exact ⟨fun h => ⟨⟨clients, rfl⟩, h⟩, fun h => h.2⟩
  · simp only [if_neg hwrite, ok_eq_ok_iff]
    exact ⟨fun h => ⟨⟨_, rfl⟩, h⟩, fun h => h.2⟩

end MemoryStage

end Rv64Emu
