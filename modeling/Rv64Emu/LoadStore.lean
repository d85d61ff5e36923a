import Rv64Emu.Library.Rv64i
import Rv64Emu.Machine.Fields
import Rv64Emu.Machine.Image
import Rv64Emu.Sequential.NonPipelined

/-! Loads and stores over runs of the non-pipelined machine: what a load delivers
is what the earlier stores of the run have left at its addresses. -/
namespace Rv64Emu.LoadStore

open Processor

/-! ### The tables of the ISA and of the control unit -/

/-- The access that the control table selects for a legal load. -/
theorem loadAccess_of_loadFormat {funct3 : BitVec 3} {bytes : Nat} {signed : Bool}
    (h : Rv64i.loadFormat funct3 = some (bytes, signed)) :
    ∃ width, Width.ofSize (ControlSignals.loadAccess funct3).1 = some width ∧
      width.bytes = bytes ∧ ∀ value : width.Value,
        DataMemory.extend (ControlSignals.loadAccess funct3).2 value =
          if signed then value.signExtend 64 else value.setWidth 64 := by
  rcases funct3_cases funct3 with rfl | rfl | rfl | rfl | rfl | rfl | rfl | rfl
  case inr.inr.inr.inr.inr.inr.inr => cases h
  case inr.inr.inr.inl =>
    cases h
    refine ⟨.doubleWord, rfl, rfl, fun value => ?_⟩
    exact (DataMemory.extend_doubleWord _ value).trans (BitVec.signExtend_eq value).symm
  all_goals
    cases h
    exact ⟨_, rfl, rfl, fun value => rfl⟩

theorem storeSize_of_storeFormat {funct3 : BitVec 3} {bytes : Nat}
    (h : Rv64i.storeFormat funct3 = some bytes) :
    ∃ width, Width.ofSize (ControlSignals.storeSize funct3) = some width ∧
      width.bytes = bytes := by
  rcases funct3_cases funct3 with rfl | rfl | rfl | rfl | rfl | rfl | rfl | rfl <;> cases h <;>
    exact ⟨_, rfl, rfl⟩

/-- The control table has no size for the other words with the opcode STORE. -/
theorem ofSize_of_storeFormat_none {funct3 : BitVec 3} (h : Rv64i.storeFormat funct3 = none) :
    Width.ofSize (ControlSignals.storeSize funct3) = none := by
  rcases funct3_cases funct3 with rfl | rfl | rfl | rfl | rfl | rfl | rfl | rfl <;> cases h <;> rfl

/-! ### One instruction -/

/-- What ID hands on for a load. -/
structure IssuedLoad (σ : ArchState) (l : Rv64i.Load) (idEx : IDEXRegisters) (width : Width) :
    Prop where
  decode : σ.decode = .ok idEx
  bytes : width.bytes = l.bytes
  load : ∀ clients, (ArchState.executed idEx).load clients =
    (fun value : width.Value => if l.signed then value.signExtend 64 else value.setWidth 64) <$>
      clients.read width (σ.registers.readRegister l.rs1 + l.offset)
  store : ∀ clients, (ArchState.executed idEx).store clients = .ok clients
  after : ∀ memData clients, σ.after idEx memData clients =
    { registers := σ.registers.writeRegister l.rd memData, pc := σ.pc + 4, clients := clients }

/-- What ID hands on for a store. -/
structure IssuedStore (σ : ArchState) (st : Rv64i.Store) (idEx : IDEXRegisters) (width : Width) :
    Prop where
  decode : σ.decode = .ok idEx
  bytes : width.bytes = st.bytes
  load : ∀ clients, (ArchState.executed idEx).load clients = .ok 0
  store : ∀ clients, (ArchState.executed idEx).store clients =
    clients.write width (σ.registers.readRegister st.rs1 + st.offset)
      ((σ.registers.readRegister st.rs2).setWidth _)
  after : ∀ clients, σ.after idEx 0 clients =
    { registers := σ.registers, pc := σ.pc + 4, clients := clients }

theorem opcode_eq_store_iff {w : InstructionWord} :
    InstructionDecoder.getOpcode ⟨w⟩ = .store ↔ w.extractLsb' 0 7 = 0b0100011 := by
  rw [InstructionDecoder.getOpcode_eq]
  generalize w.extractLsb' 0 7 = bits
  revert bits
  decide +kernel

section

variable {σ : ArchState} {w : InstructionWord} (hfetch : σ.fetch = .ok w)

include hfetch

theorem decode_of_store (hopcode : InstructionDecoder.getOpcode ⟨w⟩ = .store) :
    σ.decode = .ok
      { pc := σ.pc
        readData1 := σ.registers.readRegister (w.extractLsb' 15 5)
        readData2 := σ.registers.readRegister (w.extractLsb' 20 5)
        immediate := (w.extractLsb' 25 7 ++ w.extractLsb' 7 5).signExtend 64
        rd := w.extractLsb' 7 5
        rs1 := w.extractLsb' 15 5
        rs2 := w.extractLsb' 20 5
        opcode := .store
        funct3 := w.extractLsb' 12 3
        control := { aluSrc := true, memWrite := true, aluOp := .add
                     memSize := ControlSignals.storeSize (w.extractLsb' 12 3) } } := by
  have himm : InstructionDecoder.getImmediate ⟨w⟩ =
      .ok ((w.extractLsb' 25 7 ++ w.extractLsb' 7 5).signExtend 64) := by
    rw [← InstructionDecoder.getImmediateS_eq]
    unfold InstructionDecoder.getImmediate InstructionDecoder.getInstructionType
    rw [hopcode]
    rfl
  have hcontrol : ControlSignals.setFromInstruction ⟨w⟩ =
      { aluSrc := true, memWrite := true, aluOp := .add
        memSize := ControlSignals.storeSize (w.extractLsb' 12 3) } := by
    unfold ControlSignals.setFromInstruction
    rw [hopcode, InstructionDecoder.getFunct3_eq]
  refine ArchState.decode_ok_iff.mpr ⟨w, hfetch, decodeAt_ok_iff.mpr ⟨_, himm, ?_⟩⟩
  rw [hcontrol, hopcode, InstructionDecoder.getRD_eq, InstructionDecoder.getRS1_eq,
    InstructionDecoder.getRS2_eq, InstructionDecoder.getFunct3_eq]

theorem issued_load {l : Rv64i.Load} (h : Rv64i.decodeLoad w = some l) :
    ∃ idEx width, IssuedLoad σ l idEx width := by
  unfold Rv64i.decodeLoad at h
  split at h
  case isFalse => cases h
  case isTrue hbits =>
  obtain ⟨⟨bytes, signed⟩, hformat, rfl⟩ := Option.map_eq_some_iff.mp h
  have hopcode : InstructionDecoder.getOpcode ⟨w⟩ = .load := by
    rw [InstructionDecoder.getOpcode_eq, hbits]
    rfl
  have himm : InstructionDecoder.getImmediate ⟨w⟩ =
      .ok ((w.extractLsb' 20 12).signExtend 64) := by
    rw [← InstructionDecoder.getImmediateI_eq]
    unfold InstructionDecoder.getImmediate InstructionDecoder.getInstructionType
    rw [hopcode]
    rfl
  have hcontrol : ControlSignals.setFromInstruction ⟨w⟩ =
      { regWrite := true, aluSrc := true, memRead := true, memToReg := true, aluOp := .add
        memSize := (ControlSignals.loadAccess (w.extractLsb' 12 3)).1
        memSignExtend := (ControlSignals.loadAccess (w.extractLsb' 12 3)).2 } := by
    unfold ControlSignals.setFromInstruction
    rw [hopcode, InstructionDecoder.getFunct3_eq]
  obtain ⟨width, hsize, hbytes, hextend⟩ := loadAccess_of_loadFormat hformat
  have hdecode := ArchState.decode_ok_iff.mpr
    ⟨w, hfetch, decodeAt_ok_iff.mpr ⟨_, himm, rfl⟩⟩
  rw [hcontrol, hopcode, InstructionDecoder.getRD_eq, InstructionDecoder.getRS1_eq] at hdecode
  refine ⟨_, width, hdecode, hbytes, fun clients => ?_, fun clients => rfl,
    fun memData clients => rfl⟩
  change (if Width.ofSize (ControlSignals.loadAccess (w.extractLsb' 12 3)).1 = none then
    Except.error _ else clients.loadData (ControlSignals.loadAccess (w.extractLsb' 12 3)).1
      (ControlSignals.loadAccess (w.extractLsb' 12 3)).2 _) = _
  unfold Clients.loadData
  rw [hsize, if_neg (Option.some_ne_none width), ← funext hextend]
  rfl

theorem issued_store {st : Rv64i.Store} (h : Rv64i.decodeStore w = some st) :
    ∃ idEx width, IssuedStore σ st idEx width := by
  unfold Rv64i.decodeStore at h
  split at h
  case isFalse => cases h
  case isTrue hbits =>
  obtain ⟨bytes, hformat, rfl⟩ := Option.map_eq_some_iff.mp h
  have hopcode := opcode_eq_store_iff.mpr hbits
  obtain ⟨width, hsize, hbytes⟩ := storeSize_of_storeFormat hformat
  have hdecode := decode_of_store hfetch hopcode
  refine ⟨_, width, hdecode, hbytes, fun clients => ?_, fun clients => ?_, fun clients => rfl⟩
  · change (if Width.ofSize (ControlSignals.storeSize (w.extractLsb' 12 3)) = none then
      Except.error _ else Except.ok 0) = _
    rw [hsize, if_neg (Option.some_ne_none width)]
  · change clients.storeData (ControlSignals.storeSize (w.extractLsb' 12 3)) _ _ = _
    unfold Clients.storeData
    rw [hsize]
    rfl

/-- A word with the opcode STORE that is no legal store is refused. -/
theorem step_of_sizeless_store (hopcode : InstructionDecoder.getOpcode ⟨w⟩ = .store)
    (h : Rv64i.decodeStore w = none) : ∃ e, σ.step = .error e := by
  unfold Rv64i.decodeStore at h
  rw [if_pos (opcode_eq_store_iff.mp hopcode), Option.map_eq_none_iff] at h
  have hsize := ofSize_of_storeFormat_none h
  refine ⟨invalidSize (ControlSignals.storeSize (w.extractLsb' 12 3)),
    ArchState.step_of_load_error (decode_of_store hfetch hopcode) ?_⟩
  change (if Width.ofSize (ControlSignals.storeSize (w.extractLsb' 12 3)) = none then
    Except.error _ else _) = _
  rw [if_pos hsize]
  rfl

end

/-- The store that the instruction at the program counter makes. -/
def executedStore (σ : ArchState) : List (ByteMemory.Store 64) :=
  match σ.clients.fetchWord σ.pc with
  | .ok w =>
    match Rv64i.decodeStore w with
    | some st =>
      [{ addr := σ.registers.readRegister st.rs1 + st.offset
         bytes := LittleEndian.toBytes st.bytes (σ.registers.readRegister st.rs2) }]
    | none => []
  | .error _ => []

section

variable {program : Program} (hapart : program.Apart) {σ : ArchState}
  {bytes : MemAddress → Byte} {halt : Bool}
  (hclients : σ.clients = program.clientsWith bytes halt) {w : InstructionWord}
  (hfetch : σ.fetch = .ok w)

include hapart hclients hfetch

theorem step_load_inside {l : Rv64i.Load} (h : Rv64i.decodeLoad w = some l) {m : Memory}
    (hm : m ∈ program.memories)
    (hrange : m.CoversRange (σ.registers.readRegister l.rs1 + l.offset) l.bytes) :
    σ.step = .ok
      { registers := σ.registers.writeRegister l.rd (l.value (ByteMemory.loaded bytes
          (σ.registers.readRegister l.rs1 + l.offset) l.bytes))
        pc := σ.pc + 4
        clients := σ.clients } := by
  obtain ⟨idEx, width, hissued⟩ := issued_load hfetch h
  have hbytes := hissued.bytes
  rw [← hbytes] at hrange
  refine ArchState.step_ok_iff.mpr ⟨idEx, _, σ.clients, hissued.decode, ?_, hissued.store _,
    (hissued.after _ _).symm⟩
  rw [hissued.load, hclients, Program.read_inside hapart bytes halt hm hrange]
  unfold Rv64i.Load.value
  rw [← hbytes]
  rfl

theorem step_load_outside {l : Rv64i.Load} (h : Rv64i.decodeLoad w = some l)
    (hrange : ∀ m ∈ program.memories,
      ¬m.CoversRange (σ.registers.readRegister l.rs1 + l.offset) l.bytes) :
    ∃ fault, σ.step = .error (.illegalAccess fault) := by
  obtain ⟨idEx, width, hissued⟩ := issued_load hfetch h
  rw [← hissued.bytes] at hrange
  obtain ⟨fault, hread⟩ := Program.read_outside hapart bytes halt hrange
  refine ⟨fault, ArchState.step_of_load_error hissued.decode ?_⟩
  rw [hissued.load, hclients, hread]
  rfl

theorem step_store_inside {st : Rv64i.Store} (h : Rv64i.decodeStore w = some st) {m : Memory}
    (hm : m ∈ program.memories)
    (hrange : m.CoversRange (σ.registers.readRegister st.rs1 + st.offset) st.bytes)
    (hwrite : m.mayWrite = true) :
    σ.step = .ok
      { registers := σ.registers
        pc := σ.pc + 4
        clients := program.clientsWith (ByteMemory.Store.apply
          { addr := σ.registers.readRegister st.rs1 + st.offset
            bytes := LittleEndian.toBytes st.bytes (σ.registers.readRegister st.rs2) } bytes)
          halt } := by
  obtain ⟨idEx, width, hissued⟩ := issued_store hfetch h
  rw [← hissued.bytes] at hrange
  refine ArchState.step_ok_iff.mpr ⟨idEx, _, _, hissued.decode, hissued.load _, ?_,
    (hissued.after _).symm⟩
  rw [hissued.store, hclients, Program.write_inside hapart bytes halt hm hrange hwrite,
    LittleEndian.toBytes_setWidth, hissued.bytes]

theorem step_store_refused {st : Rv64i.Store} (h : Rv64i.decodeStore w = some st) {m : Memory}
    (hm : m ∈ program.memories)
    (hcovers : m.Covers (σ.registers.readRegister st.rs1 + st.offset))
    (hrefused : ¬(m.CoversRange (σ.registers.readRegister st.rs1 + st.offset) st.bytes ∧
      m.mayWrite = true)) :
    ∃ fault, σ.step = .error (.illegalAccess fault) := by
  obtain ⟨idEx, width, hissued⟩ := issued_store hfetch h
  rw [← hissued.bytes] at hrefused
  obtain ⟨fault, hwrite⟩ := Program.write_refused hapart bytes halt hm hcovers hrefused
    ((σ.registers.readRegister st.rs2).setWidth _)
  refine ⟨fault, ?_⟩
  unfold ArchState.step
  rw [hissued.decode]
  simp only [bind, Except.bind, hissued.load, hissued.store, hclients, hwrite]

/-- An instruction changes the bytes by the store it makes and no other way. -/
theorem clients_step {τ : ArchState} (hstep : σ.step = .ok τ) :
    ∃ halt', τ.clients = program.clientsWith
      ((executedStore σ).foldl (fun bytes st => st.apply bytes) bytes) halt' := by
  have hword := (ArchState.fetch_ok_iff.mp hfetch).1
  have hexecuted : executedStore σ = match Rv64i.decodeStore w with
      | some st =>
        [{ addr := σ.registers.readRegister st.rs1 + st.offset
           bytes := LittleEndian.toBytes st.bytes (σ.registers.readRegister st.rs2) }]
      | none => [] := by
    unfold executedStore
    rw [hword]
  rw [hexecuted]
  cases hdecode : Rv64i.decodeStore w with
  | some st =>
    by_cases hcovered : ∃ m ∈ program.memories,
        m.Covers (σ.registers.readRegister st.rs1 + st.offset)
    · obtain ⟨m, hm, hcovers⟩ := hcovered
      by_cases hgood : m.CoversRange (σ.registers.readRegister st.rs1 + st.offset) st.bytes ∧
          m.mayWrite = true
      · rw [step_store_inside hapart hclients hfetch hdecode hm hgood.1 hgood.2] at hstep
        cases hstep
        exact ⟨halt, rfl⟩
      · obtain ⟨fault, herror⟩ := step_store_refused hapart hclients hfetch hdecode hm hcovers hgood
        cases hstep.symm.trans herror
    · obtain ⟨idEx, width, hissued⟩ := issued_store hfetch hdecode
      obtain ⟨idEx', memData, clients, hdecode', -, hstore, rfl⟩ := ArchState.step_ok_iff.mp hstep
      cases hissued.decode.symm.trans hdecode'
      rw [hissued.store, hclients] at hstore
      obtain ⟨halt', hwrite⟩ := Program.write_device hapart bytes halt
        (fun m hm hcovers => hcovered ⟨m, hm, hcovers⟩) hstore
      rw [LittleEndian.toBytes_setWidth, hissued.bytes] at hwrite
      exact ⟨halt', hwrite⟩
  | none =>
    obtain ⟨idEx, memData, clients, hdecode', -, hstore, rfl⟩ := ArchState.step_ok_iff.mp hstep
    refine ⟨halt, ?_⟩
    have hopcode : InstructionDecoder.getOpcode ⟨w⟩ ≠ .store := by
      intro hopcode
      obtain ⟨e, herror⟩ := step_of_sizeless_store hfetch hopcode hdecode
      cases hstep.symm.trans herror
    have hwrite : idEx.control.memWrite = false := by
      obtain ⟨word, hword', hat⟩ := ArchState.decode_ok_iff.mp hdecode'
      cases hfetch.symm.trans hword'
      obtain ⟨immediate, -, rfl⟩ := decodeAt_ok_iff.mp hat
      exact ControlSignals.memWrite_of_opcode hopcode
    have hsame : (ArchState.executed idEx).store σ.clients = .ok σ.clients :=
      if_neg (Bool.eq_false_iff.mp hwrite)
    cases hstore.symm.trans hsame
    exact hclients

end

/-! ### Runs -/

/-- After every run the sections hold what the stores of the run have left. -/
theorem clients_steps {program : Program} (hapart : program.Apart) {start σ : ArchState}
    {image : MemAddress → Byte} {halt : Bool}
    (hstart : start.clients = program.clientsWith image halt) {k : Nat}
    (h : Runs.steps ArchState.next k start = some σ) : ∃ halt', σ.clients = program.clientsWith
      (ByteMemory.contents image (Runs.trace ArchState.next executedStore k start)) halt' := by
  refine Runs.history_invariant (P := fun stores σ => ∃ halt', σ.clients =
    program.clientsWith (ByteMemory.contents image stores) halt') ?_ ?_ h
  · rintro stores σ τ ⟨halt, hclients⟩ hnext
    obtain ⟨-, hstep⟩ := ArchState.next_eq_some_iff.mp hnext
    obtain ⟨idEx, -, -, hdecode, -⟩ := ArchState.step_ok_iff.mp hstep
    obtain ⟨w, hfetch, -⟩ := ArchState.decode_ok_iff.mp hdecode
    rw [ByteMemory.contents_append]
    exact clients_step hapart hclients hfetch hstep
  · exact ⟨halt, hstart⟩

/-- The store that the non-pipelined machine executes, at the cycle that fetches it. -/
def fetchedStore (s : Processor) : List (ByteMemory.Store 64) :=
  if s.currentStage = 0 then executedStore s.arch else []

/-- The next five cycles of a state whose sections hold `bytes`, for a load. -/
structure LoadSpec (program : Program) (bytes : MemAddress → Byte) (s : Processor)
    (l : Rv64i.Load) (addr : MemAddress) : Prop where
  raises : (∃ fault, Raises s (.illegalAccess fault)) ↔
    ¬∃ m ∈ program.memories, m.CoversRange addr l.bytes
  loads : (∃ m ∈ program.memories, m.CoversRange addr l.bytes) →
    ∃ t, Runs.steps next 5 s = some t ∧
      (l.rd ≠ 0 → t.regfile.registers.readRegister l.rd =
        l.value (ByteMemory.loaded bytes addr l.bytes)) ∧
      (∀ regnum, regnum ≠ l.rd → t.regfile.registers.readRegister regnum =
        s.regfile.registers.readRegister regnum) ∧
      t.bus.clients = s.bus.clients

/-- The next five cycles of a state whose sections hold `bytes`, for a store
that starts in a section. -/
structure StoreSpec (program : Program) (bytes : MemAddress → Byte) (s : Processor)
    (st : ByteMemory.Store 64) (m : Memory) : Prop where
  raises : (∃ e, Raises s e) ↔ ¬m.CoversRange st.addr st.bytes.length ∨ m.mayWrite = false
  refused : ∀ e, Raises s e → ∃ fault, e = .illegalAccess fault
  stores : m.CoversRange st.addr st.bytes.length → m.mayWrite = true →
    ∃ t, Runs.steps next 5 s = some t ∧ t.regfile.registers = s.regfile.registers ∧
      t.bus.clients = program.clientsWith (st.apply bytes) false

section

variable {program : Program} (hapart : program.Apart) {bytes : MemAddress → Byte}
  {s : Processor} (hstage : AtStage 0 s)
  (hclients : s.bus.clients = program.clientsWith bytes false) {w : InstructionWord}
  (hfetch : s.arch.fetch = .ok w)

include hapart hstage hclients hfetch

theorem loadSpec {l : Rv64i.Load} (h : Rv64i.decodeLoad w = some l) :
    LoadSpec program bytes s l (s.regfile.registers.readRegister l.rs1 + l.offset) := by
  have hhalt : s.shouldHalt = false := by
    unfold shouldHalt
    rw [hclients, Program.shouldHalt_clientsWith]
  have hinside : (∃ m ∈ program.memories, m.CoversRange
      (s.regfile.registers.readRegister l.rs1 + l.offset) l.bytes) → s.arch.step = .ok
        { registers := s.regfile.registers.writeRegister l.rd (l.value (ByteMemory.loaded bytes
            (s.regfile.registers.readRegister l.rs1 + l.offset) l.bytes))
          pc := s.pc + 4
          clients := s.bus.clients } := by
    rintro ⟨m, hm, hrange⟩
    exact step_load_inside hapart (σ := s.arch) hclients hfetch h hm hrange
  constructor
  · simp only [raises_iff hstage hhalt]
    constructor
    · rintro ⟨fault, hstep⟩ hrange
      cases (hinside hrange).symm.trans hstep
    · intro hrange
      exact step_load_outside hapart (σ := s.arch) hclients hfetch h fun m hm hcovers =>
        hrange ⟨m, hm, hcovers⟩
  · intro hrange
    obtain ⟨t, ht, -, harch⟩ := instruction_steps hstage
      (ArchState.next_eq_some_iff.mpr ⟨hhalt, hinside hrange⟩) hhalt
    have hregisters : t.regfile.registers = _ := congrArg ArchState.registers harch
    refine ⟨t, ht, fun hrd => ?_, fun regnum hne => ?_, congrArg ArchState.clients harch⟩
    · rw [hregisters, Registers.readRegister_writeRegister, if_pos ⟨rfl, hrd⟩]
    · rw [hregisters, Registers.readRegister_writeRegister,
        if_neg (fun h => hne h.1.symm)]

theorem storeSpec {st : Rv64i.Store} (h : Rv64i.decodeStore w = some st) {m : Memory}
    (hm : m ∈ program.memories)
    (hcovers : m.Covers (s.regfile.registers.readRegister st.rs1 + st.offset)) :
    StoreSpec program bytes s
      { addr := s.regfile.registers.readRegister st.rs1 + st.offset
        bytes := LittleEndian.toBytes st.bytes (s.regfile.registers.readRegister st.rs2) } m := by
  have hhalt : s.shouldHalt = false := by
    unfold shouldHalt
    rw [hclients, Program.shouldHalt_clientsWith]
  have hinside := step_store_inside hapart (σ := s.arch) hclients hfetch h hm
  have hrefused := step_store_refused hapart (σ := s.arch) hclients hfetch h hm hcovers
  have hlength := LittleEndian.length_toBytes st.bytes (s.regfile.registers.readRegister st.rs2)
  constructor
  · simp only [raises_iff hstage hhalt, hlength]
    constructor
    · rintro ⟨e, hstep⟩
      by_contra hgood
      rw [not_or, not_not, Bool.not_eq_false] at hgood
      cases (hinside hgood.1 hgood.2).symm.trans hstep
    · intro hbad
      obtain ⟨fault, hstep⟩ := hrefused fun hgood => by
        obtain hrange | hwrite := hbad
        · exact hrange hgood.1
        · exact absurd (hgood.2.symm.trans hwrite) (by decide)
      exact ⟨_, hstep⟩
  · intro e hraises
    rw [raises_iff hstage hhalt] at hraises
    obtain ⟨fault, hstep⟩ := hrefused fun hgood => by
      cases (hinside hgood.1 hgood.2).symm.trans hraises
    exact ⟨fault, Except.error.inj (hraises.symm.trans hstep)⟩
  · intro hrange hwrite
    rw [hlength] at hrange
    have hstep := hinside hrange hwrite
    obtain ⟨t, ht, -, harch⟩ := instruction_steps hstage
      (ArchState.next_eq_some_iff.mpr ⟨hhalt, hstep⟩) (Program.shouldHalt_clientsWith _ _)
    exact ⟨t, ht, congrArg ArchState.registers harch, congrArg ArchState.clients harch⟩

end

/-- Between two instructions of any run, the sections hold what the stores of
the run have left, and the next load or store acts on these bytes. -/
theorem loadStore_run {program : Program} (hapart : program.Apart) {registers : Registers} {n : Nat}
    {s : Processor} (h : Runs.steps next n (boot program false registers) = some s)
    (hcurrent : s.currentStage = 0) :
    let bytes := ByteMemory.contents program.image
      (Runs.trace next fetchedStore n (boot program false registers))
    s.bus.clients = program.clientsWith bytes false ∧
      ∀ w, s.bus.clients.fetchWord s.pc = .ok w →
        (∀ l, Rv64i.decodeLoad w = some l →
          LoadSpec program bytes s l (s.regfile.registers.readRegister l.rs1 + l.offset)) ∧
        ∀ st, Rv64i.decodeStore w = some st → ∀ m ∈ program.memories,
          m.Covers (s.regfile.registers.readRegister st.rs1 + st.offset) →
          StoreSpec program bytes s
            { addr := s.regfile.registers.readRegister st.rs1 + st.offset
              bytes := LittleEndian.toBytes st.bytes (s.regfile.registers.readRegister st.rs2) }
            m := by
  intro bytes
  have hboundary : Boundary program registers s := ⟨⟨n, h⟩, hcurrent⟩
  obtain ⟨hstage, hhalt⟩ := hboundary.atStage
  obtain ⟨k, rfl⟩ := cycles_of_currentStage (atStage_boot program registers) h hcurrent
  have hevent : ∀ s, AtStage 0 s → fetchedStore s = executedStore s.arch :=
    fun s hs => if_pos hs.currentStage
  obtain ⟨-, harch⟩ := boundary_steps (atStage_boot program registers) h
  have htrace :=
    trace_boundary (fun s hs => if_neg hs) (atStage_boot program registers) hevent h
  have hclients : s.bus.clients = program.clientsWith bytes false := by
    obtain ⟨halt, hclients⟩ := clients_steps hapart (Program.clients_boot hapart false registers) harch
    rw [← htrace] at hclients
    change s.bus.clients = program.clientsWith bytes halt at hclients
    have hflag : halt = false := by
      rw [← hhalt]
      unfold shouldHalt
      rw [hclients, Program.shouldHalt_clientsWith]
    rw [hclients, hflag]
  refine ⟨hclients, fun w hword => ⟨fun l hl => ?_, fun st hst m hm hcovers => ?_⟩⟩
  · have hfetch : s.arch.fetch = .ok w :=
      ArchState.fetch_of_listed (by decide +kernel) hl hword
    exact loadSpec hapart hstage hclients hfetch hl
  · have hfetch : s.arch.fetch = .ok w :=
      ArchState.fetch_of_listed (by decide +kernel) hst hword
    exact storeSpec hapart hstage hclients hfetch hst hm hcovers

/-- `sw x2, 8(x1)` and `lw x3, 8(x1)` in a writable section. -/
def storeThenLoad : Program :=
  { memories := [Memory.ofWords true 0x1000 [0x0020a423, 0x0080a183, 0, 0]]
    entrypoint := 0x1000 }

theorem storeThenLoad_apart : storeThenLoad.Apart where
  fits := by
    intro m hm
    cases List.mem_singleton.mp hm
    decide
  disjoint := List.pairwise_singleton _ _
  serial := by
    intro m hm
    cases List.mem_singleton.mp hm
    decide
  sysStatus := by
    intro m hm addr hcovers hsys
    cases List.mem_singleton.mp hm
    have hlow : 0x1000 ≤ addr.toNat := hcovers.1
    omega

def storeThenLoadBoot : Processor := boot storeThenLoad false (Vector.replicate 31 0x1000)

theorem loadStore_run_storeThenLoad : ∃ s, Runs.steps next 5 storeThenLoadBoot = some s ∧
    LoadSpec storeThenLoad (ByteMemory.contents storeThenLoad.image
      (Runs.trace next fetchedStore 5 storeThenLoadBoot)) s
      ⟨4, true, 3, 1, 8⟩ (s.regfile.registers.readRegister 1 + 8) := by
  have hrun : ((Runs.steps next 5 storeThenLoadBoot).map fun s =>
      (s.currentStage, s.bus.clients.fetchWord s.pc)) = some (0, .ok 0x0080a183) := by
    decide +kernel
  obtain ⟨s, hs, hstate⟩ := Option.map_eq_some_iff.mp hrun
  obtain ⟨hcurrent, hword⟩ := Prod.mk.inj hstate
  have hspec := loadStore_run storeThenLoad_apart hs hcurrent
  exact ⟨s, hs, (hspec.2 _ hword).1 ⟨4, true, 3, 1, 8⟩ (by decide +kernel)⟩

end Rv64Emu.LoadStore
