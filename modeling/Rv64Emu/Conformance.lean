import Rv64Emu.BusRuns
import Rv64Emu.Computational
import Rv64Emu.ControlFlow
import Rv64Emu.LoadStore
import Rv64Emu.Machine.Platform
import Rv64Emu.UpperImmediate

/-! The emulator as a hart of the RV64I base set. Every instruction of the hart
is one of the non-pipelined machine, except for those that the machine is known
to execute differently. -/
namespace Rv64Emu.Conformance

open Processor

/-- FENCE is missing; the shifts by 32 and more and the upper immediates with a
sign differ, unless the result goes to x0. -/
def executes (w : InstructionWord) : Bool :=
  match Rv64i.decodeInstruction w with
  | some (.computational i) => !Computational.wideShift w || i.rd == 0
  | some (.upper i) => !w.getLsbD 31 || i.rd == 0
  | some .fence => false
  | _ => true

/-- The machine shows the registers and the memory of the hart, and halts with it. -/
structure Represents (program : Program) (σ : ArchState) (h : Rv64i.Hart Signal) : Prop where
  registers : σ.registers.readRegister = h.registers.read
  pc : σ.pc = h.pc
  clients : σ.clients = program.clientsWith h.memory (h.stopped program.platform)

/-- The step from `σ` has taken the machine to the state that represents `g`, and
printed what the hart has signalled since `h`. -/
structure Follows (program : Program) (σ : ArchState) (h g : Rv64i.Hart Signal) (τ : ArchState) :
    Prop extends Represents program τ g where
  step : σ.step = .ok τ
  printed : g.signals.flatMap Signal.text = h.signals.flatMap Signal.text ++ σ.printed

theorem represents_boot {program : Program} (hapart : program.Apart) (pipelining : Bool)
    (registers : Registers) :
    Represents program (boot program pipelining registers).arch (program.hart registers) where
  registers := rfl
  pc := rfl
  clients := Program.clients_boot hapart pipelining registers

theorem read_write {registers : Registers} {registers' : Rv64i.Registers}
    (h : registers.readRegister = registers'.read) (rd : RegNumber) (value : RegValue) :
    (registers.writeRegister rd value).readRegister = (registers'.write rd value).read := by
  funext regnum
  rw [Registers.readRegister_writeRegister, h]
  rfl

/-- What is not a store makes no bus write. -/
theorem busWrites_of_no_store {σ τ : ArchState} {w : InstructionWord} (hfetch : σ.fetch = .ok w)
    (h : Rv64i.decodeStore w = none) (hstep : σ.step = .ok τ) : σ.busWrites = [] := by
  have hopcode : InstructionDecoder.getOpcode ⟨w⟩ ≠ .store := by
    intro hopcode
    obtain ⟨e, herror⟩ := LoadStore.step_of_sizeless_store hfetch hopcode h
    cases hstep.symm.trans herror
  obtain ⟨idEx, -, -, hdecode, -⟩ := ArchState.step_ok_iff.mp hstep
  obtain ⟨word, hword, hat⟩ := ArchState.decode_ok_iff.mp hdecode
  cases hfetch.symm.trans hword
  obtain ⟨immediate, -, rfl⟩ := decodeAt_ok_iff.mp hat
  rw [ArchState.busWrites_of hdecode]
  apply if_neg
  change ¬(ControlSignals.setFromInstruction ⟨w⟩).memWrite = true
  rw [ControlSignals.memWrite_of_opcode hopcode]
  decide

theorem bytes_injective {width width' : Width} (h : width.bytes = width'.bytes) :
    width = width' := by
  revert h
  cases width <;> cases width' <;> decide

/-- What a store comes down to: one bus write. -/
structure Writes (σ : ArchState) (st : Rv64i.Store) (write : BusWrite) : Prop where
  addr : write.addr = σ.registers.readRegister st.rs1 + st.offset
  bytes : LittleEndian.toBytes write.width.bytes write.data =
    LittleEndian.toBytes st.bytes (σ.registers.readRegister st.rs2)
  busWrites : σ.busWrites = [write]
  step : ∀ {clients}, σ.clients.write write.width write.addr write.data = .ok clients →
    σ.step = .ok { registers := σ.registers, pc := σ.pc + 4, clients := clients }
  fails : ∀ {e}, σ.clients.write write.width write.addr write.data = .error e → σ.step = .error e

theorem writes_of_store {σ : ArchState} {w : InstructionWord} {st : Rv64i.Store}
    (hfetch : σ.fetch = .ok w) (hdecode : Rv64i.decodeStore w = some st) :
    ∃ write, Writes σ st write := by
  obtain ⟨idEx, width, hissued⟩ := LoadStore.issued_store hfetch hdecode
  have hwrites : σ.busWrites = [⟨σ.registers.readRegister st.rs1 + st.offset, width,
      (σ.registers.readRegister st.rs2).setWidth _⟩] := by
    unfold Rv64i.decodeStore at hdecode
    split at hdecode
    case isFalse => cases hdecode
    case isTrue hbits =>
    obtain ⟨bytes, hformat, rfl⟩ := Option.map_eq_some_iff.mp hdecode
    obtain ⟨width', hsize, hbytes⟩ := LoadStore.storeSize_of_storeFormat hformat
    obtain rfl := bytes_injective (hissued.bytes.trans hbytes.symm)
    have hat := LoadStore.decode_of_store hfetch (LoadStore.opcode_eq_store_iff.mpr hbits)
    rw [ArchState.busWrites_of hat]
    exact DataMemory.busWrites_of_size rfl hsize
  refine ⟨_, ⟨rfl, ?_, hwrites, fun hwrite => ?_, fun hwrite => ?_⟩⟩
  · exact (LittleEndian.toBytes_setWidth _ _).trans (congrArg
      (fun n => LittleEndian.toBytes n (σ.registers.readRegister st.rs2)) hissued.bytes)
  · exact ArchState.step_ok_iff.mpr ⟨idEx, 0, _, hissued.decode, hissued.load _,
      (hissued.store _).trans hwrite, (hissued.after _).symm⟩
  · exact ArchState.step_of_accessFails hissued.decode
      (.inr ⟨0, hissued.load _, (hissued.store _).trans hwrite⟩)

section

variable {program : Program} (hapart : program.Apart) {σ : ArchState} {h : Rv64i.Hart Signal}
  (hrep : Represents program σ h)

include hapart hrep

theorem fetchWord_of_readable (hreadable : program.platform.readable h.pc 4 = true) :
    σ.clients.fetchWord σ.pc = .ok h.word := by
  obtain ⟨m, hm, hrange⟩ := Program.readable_iff.mp hreadable
  have hword : m.CoversRange h.pc Width.word.bytes := hrange
  rw [hrep.clients, hrep.pc]
  exact Program.read_inside hapart h.memory _ hm hword

theorem fetch_of_unreadable (hreadable : program.platform.readable h.pc 4 = false) :
    σ.fetch = .error (.instructionFetchFailure h.pc) := by
  have houtside : ∀ m ∈ program.memories, ¬m.CoversRange h.pc Width.word.bytes := by
    intro m hm hrange
    cases hreadable.symm.trans (Program.readable_iff.mpr ⟨m, hm, hrange⟩)
  obtain ⟨fault, hread⟩ := Program.read_outside hapart h.memory (h.stopped program.platform)
    houtside
  unfold ArchState.fetch Clients.fetchWord
  rw [hrep.clients, hrep.pc, hread]
  rfl

theorem step_of_unreadable (hreadable : program.platform.readable h.pc 4 = false) :
    σ.step = .error (.instructionFetchFailure h.pc) := by
  apply ArchState.step_of_decode_error
  unfold ArchState.decode
  rw [fetch_of_unreadable hapart hrep hreadable]
  rfl

theorem fetch_of_listed {i : Rv64i.Instruction}
    (hreadable : program.platform.readable h.pc 4 = true)
    (hdecode : Rv64i.decodeInstruction h.word = some i) : σ.fetch = .ok h.word :=
  ArchState.fetch_of_listed (by decide +kernel) hdecode
    (fetchWord_of_readable hapart hrep hreadable)

end

section

variable {program : Program} {σ : ArchState} {h : Rv64i.Hart Signal}
  (hrep : Represents program σ h) (hfetch : σ.fetch = .ok h.word)
  (hstore : Rv64i.decodeStore h.word = none)

include hrep hfetch hstore

/-- An instruction that only writes a register and chooses the next address. -/
theorem follows_of_step {rd : RegNumber} {value value' : RegValue} {pc pc' : MemAddress}
    (hstep : σ.step = .ok
      { registers := σ.registers.writeRegister rd value, pc := pc, clients := σ.clients })
    (hvalue : value = value' ∨ rd = 0) (hpc : pc = pc') :
    ∃ τ, Follows program σ h { h with registers := h.registers.write rd value', pc := pc' } τ := by
  refine ⟨⟨σ.registers.writeRegister rd value, pc, σ.clients⟩, ⟨?_, hpc, hrep.clients⟩, hstep, ?_⟩
  · obtain rfl | rfl := hvalue
    · exact read_write hrep.registers rd value
    · exact (read_write hrep.registers 0 value').trans rfl
  · unfold ArchState.printed
    rw [busWrites_of_no_store hfetch hstore hstep]
    exact (List.append_nil _).symm

theorem follows_computational {i : Rv64i.Computational}
    (hdecode : Rv64i.decode h.word = some i)
    (hexecutes : Computational.wideShift h.word = false ∨ i.rd = 0) :
    ∃ τ, Follows program σ h (h.advance i.rd (i.result h.registers.read)) τ := by
  apply follows_of_step hrep hfetch hstore (Computational.step_of_decode hdecode hfetch)
  · rw [hrep.registers]
    obtain hwide | hrd := hexecutes
    · rw [hwide]
      exact .inl rfl
    · exact .inr hrd
  · rw [hrep.pc]

theorem follows_upper {i : Rv64i.Upper} (hdecode : Rv64i.decodeUpper h.word = some i)
    (hexecutes : h.word.getLsbD 31 = false ∨ i.rd = 0) :
    ∃ τ, Follows program σ h (h.advance i.rd (i.result h.pc)) τ := by
  apply follows_of_step hrep hfetch hstore (UpperImmediate.step_of_decodeUpper hdecode hfetch)
  · rw [hrep.pc]
    exact hexecutes.imp_left (UpperImmediate.computed_eq_iff hdecode h.pc).mpr
  · rw [hrep.pc]

theorem follows_transfer {i : Rv64i.Transfer} (hdecode : Rv64i.decodeTransfer h.word = some i) :
    ∃ τ, Follows program σ h { h with
      registers := h.registers.write i.link (h.pc + 4)
      pc := i.target h.pc h.registers.read } τ := by
  apply follows_of_step hrep hfetch hstore (ControlFlow.step_of_decodeTransfer hdecode hfetch)
  · rw [hrep.pc]
    exact .inl rfl
  · rw [hrep.pc, hrep.registers]

end

section

variable {program : Program} (hapart : program.Apart) {σ : ArchState} {h : Rv64i.Hart Signal}
  (hrep : Represents program σ h) (hfetch : σ.fetch = .ok h.word)

include hapart hrep hfetch

/-- A load takes its step, or both refuse it. -/
theorem follows_load (hstore : Rv64i.decodeStore h.word = none) {l : Rv64i.Load}
    (hdecode : Rv64i.decodeLoad h.word = some l) :
    (∃ g τ, h.loadFrom program.platform l = .ok g ∧ Follows program σ h g τ) ∨
      (h.loadFrom program.platform l = .error .loadAccess ∧
        ∃ fault, σ.step = .error (.illegalAccess fault)) := by
  cases hreadable : program.platform.readable (h.registers.read l.rs1 + l.offset) l.bytes with
  | true =>
    obtain ⟨m, hm, hrange⟩ := Program.readable_iff.mp hreadable
    rw [← hrep.registers] at hrange
    have hstep := LoadStore.step_load_inside hapart hrep.clients hfetch hdecode hm hrange
    rw [hrep.registers] at hstep
    obtain ⟨τ, hτ⟩ := follows_of_step hrep hfetch hstore hstep (.inl rfl)
      (congrArg (· + 4) hrep.pc)
    exact .inl ⟨_, τ, if_pos hreadable, hτ⟩
  | false =>
    refine .inr ⟨if_neg (Bool.eq_false_iff.mp hreadable),
      LoadStore.step_load_outside hapart hrep.clients hfetch hdecode ?_⟩
    intro m hm hrange
    rw [hrep.registers] at hrange
    cases hreadable.symm.trans (Program.readable_iff.mpr ⟨m, hm, hrange⟩)

omit hapart hfetch in
/-- An accepted bus write is the step of the store. -/
theorem follows_of_write {st : Rv64i.Store} {write : BusWrite} {clients : Clients}
    (hwrites : Writes σ st write) {g : Rv64i.Hart Signal}
    (hwrite : σ.clients.write write.width write.addr write.data = .ok clients)
    (hregisters : g.registers = h.registers) (hpc : g.pc = h.pc + 4)
    (hclients : clients = program.clientsWith g.memory (g.stopped program.platform))
    (hprinted : g.signals.flatMap Signal.text =
      h.signals.flatMap Signal.text ++ σ.clients.printed write) :
    ∃ τ, Follows program σ h g τ := by
  refine ⟨⟨σ.registers, σ.pc + 4, clients⟩, ⟨?_, ?_, hclients⟩, hwrites.step hwrite, ?_⟩
  · rw [hregisters]
    exact hrep.registers
  · rw [hpc]
    exact congrArg (· + 4) hrep.pc
  · unfold ArchState.printed
    rw [hwrites.busWrites, List.flatMap_singleton, hprinted]

/-- A store takes its step, into a section or to a device, or both refuse it. -/
theorem follows_store {st : Rv64i.Store} (hdecode : Rv64i.decodeStore h.word = some st) :
    (∃ g τ, h.storeTo program.platform (h.stored st) = .ok g ∧ Follows program σ h g τ) ∨
      (h.storeTo program.platform (h.stored st) = .error .storeAccess ∧
        ∃ fault, σ.step = .error (.illegalAccess fault)) := by
  obtain ⟨⟨addr, width, data⟩, hwrites⟩ := writes_of_store hfetch hdecode
  have hstored : h.stored st = ⟨addr, LittleEndian.toBytes width.bytes data⟩ := by
    rw [hwrites.bytes, hrep.registers, show addr = _ from hwrites.addr, hrep.registers]
    rfl
  have hlength : (LittleEndian.toBytes width.bytes data).length = width.bytes :=
    LittleEndian.length_toBytes _ _
  rw [hstored]
  unfold Rv64i.Hart.storeTo
  rw [hlength]
  have hcases := Program.write_cases hapart h.memory (h.stopped program.platform) width addr data
  rw [← hrep.clients] at hcases
  obtain ⟨hwritable, hwrite, hprinted⟩ | ⟨hwritable, signal, hsignal, hwrite, hprinted⟩ |
    ⟨hwritable, hnone, fault, hfault⟩ := hcases
  · rw [if_pos hwritable]
    obtain ⟨τ, hτ⟩ := follows_of_write hrep hwrites hwrite (g := { h with
      pc := h.pc + 4
      memory := ByteMemory.Store.apply ⟨addr, LittleEndian.toBytes width.bytes data⟩ h.memory })
      rfl rfl rfl (by rw [hprinted, List.append_nil])
    exact .inl ⟨_, τ, rfl, hτ⟩
  · rw [if_neg (Bool.eq_false_iff.mp hwritable), hsignal]
    obtain ⟨τ, hτ⟩ := follows_of_write hrep hwrites hwrite (g := { h with
      pc := h.pc + 4
      signals := h.signals ++ [signal] }) rfl rfl
      (by simp [Rv64i.Hart.stopped, List.any_append])
      (by rw [hprinted, List.flatMap_append, List.flatMap_singleton])
    exact .inl ⟨_, τ, rfl, hτ⟩
  · rw [if_neg (Bool.eq_false_iff.mp hwritable), hnone]
    exact .inr ⟨rfl, fault, hwrites.fails hfault⟩

end

/-- The traps that the emulator reports as exceptions. -/
def accessTrap : Rv64i.Trap → Bool
  | .fetchAccess | .loadAccess | .storeAccess => true
  | _ => false

section

variable {program : Program} (hapart : program.Apart) {σ : ArchState} {h : Rv64i.Hart Signal}
  (hrep : Represents program σ h)

include hapart hrep

/-- A step of the hart is a step of the machine. -/
theorem follows_step {g : Rv64i.Hart Signal} (hexecutes : executes h.word = true)
    (hstep : h.step program.platform = .ok g) : ∃ τ, Follows program σ h g τ := by
  unfold Rv64i.Hart.step at hstep
  split at hstep
  case isFalse => cases hstep
  case isTrue hreadable =>
  split at hstep
  case h_2 => cases hstep
  case h_1 i hdecode =>
  have hfetch := fetch_of_listed hapart hrep hreadable hdecode
  unfold executes at hexecutes
  rw [hdecode] at hexecutes
  obtain ⟨st, hst, rfl⟩ | ⟨hstore, ⟨c, hc, rfl⟩ | ⟨u, hu, rfl⟩ | ⟨t, ht, rfl⟩ | ⟨l, hl, rfl⟩ |
    rfl | rfl⟩ := Rv64i.decodeInstruction_cases hdecode
  · obtain ⟨g', τ, hg', hτ⟩ | ⟨herror, -⟩ := follows_store hapart hrep hfetch hst
    · cases hstep.symm.trans hg'
      exact ⟨τ, hτ⟩
    · cases hstep.symm.trans herror
  · cases hstep
    exact follows_computational hrep hfetch hstore hc (by simpa using hexecutes)
  · cases hstep
    exact follows_upper hrep hfetch hstore hu (by simpa using hexecutes)
  · have htransfer := follows_transfer hrep hfetch hstore ht
    change (if _ then Except.error _ else Except.ok _) = _ at hstep
    split at hstep
    · cases hstep
    · cases hstep
      exact htransfer
  · obtain ⟨g', τ, hg', hτ⟩ | ⟨herror, -⟩ := follows_load hapart hrep hfetch hstore hl
    · cases hstep.symm.trans hg'
      exact ⟨τ, hτ⟩
    · cases hstep.symm.trans herror
  · cases hexecutes
  · cases hstep

/-- The exception of an access trap: the fetch failure names the program counter. -/
theorem step_of_trap {t : Rv64i.Trap} (hstep : h.step program.platform = .error t)
    (haccess : accessTrap t = true) :
    ∃ e, σ.step = .error e ∧ (t = .fetchAccess → e = .instructionFetchFailure h.pc) ∧
      (t ≠ .fetchAccess → ∃ fault, e = .illegalAccess fault) := by
  unfold Rv64i.Hart.step at hstep
  split at hstep
  case isFalse hreadable =>
    cases hstep
    have hfalse := Bool.eq_false_iff.mpr hreadable
    exact ⟨_, step_of_unreadable hapart hrep hfalse, fun _ => rfl, fun h => absurd rfl h⟩
  case isTrue hreadable =>
  split at hstep
  case h_2 =>
    cases hstep
    cases haccess
  case h_1 i hdecode =>
  have hfetch := fetch_of_listed hapart hrep hreadable hdecode
  obtain ⟨st, hst, rfl⟩ | ⟨hstore, ⟨c, -, rfl⟩ | ⟨u, -, rfl⟩ | ⟨i, -, rfl⟩ | ⟨l, hl, rfl⟩ |
    rfl | rfl⟩ := Rv64i.decodeInstruction_cases hdecode
  · obtain ⟨g, τ, hg, -⟩ | ⟨herror, fault, hfault⟩ := follows_store hapart hrep hfetch hst
    · cases hstep.symm.trans hg
    · cases hstep.symm.trans herror
      exact ⟨_, hfault, nofun, fun _ => ⟨fault, rfl⟩⟩
  · cases hstep
  · cases hstep
  · change (if _ then Except.error _ else Except.ok _) = _ at hstep
    split at hstep
    · cases hstep
      cases haccess
    · cases hstep
  · obtain ⟨g, τ, hg, -⟩ | ⟨herror, fault, hfault⟩ := follows_load hapart hrep hfetch hstore hl
    · cases hstep.symm.trans hg
    · cases hstep.symm.trans herror
      exact ⟨_, hfault, nofun, fun _ => ⟨fault, rfl⟩⟩
  · cases hstep
  · cases hstep
    cases haccess

/-- The end marker, where the hart has an instruction that it does not know. -/
theorem fetch_of_marker (hreadable : program.platform.readable h.pc 4 = true)
    (hword : h.word = testEndMarker) : σ.fetch = .error (.testEndMarkerEncountered h.pc) := by
  unfold ArchState.fetch
  rw [fetchWord_of_readable hapart hrep hreadable, hword, hrep.pc]
  rfl

theorem step_of_marker (hreadable : program.platform.readable h.pc 4 = true)
    (hword : h.word = testEndMarker) : σ.step = .error (.testEndMarkerEncountered h.pc) := by
  apply ArchState.step_of_decode_error
  unfold ArchState.decode
  rw [fetch_of_marker hapart hrep hreadable hword]
  rfl

end

/-- The hart is stopped, at the end marker, or refused an access. -/
def Ends (program : Program) (h : Rv64i.Hart Signal) : Prop :=
  h.stopped program.platform = true ∨
    (program.platform.readable h.pc 4 = true ∧ h.word = testEndMarker) ∨
    ∃ t, h.step program.platform = .error t ∧ accessTrap t = true

/-- The machine is at its end as well. -/
theorem ends_cases {program : Program} (hapart : program.Apart) {σ : ArchState}
    {h : Rv64i.Hart Signal} (hrep : Represents program σ h) (hends : Ends program h) :
    σ.clients.shouldHalt = true ∨ ∃ e, σ.step = .error e ∧ e.isCatchable = true := by
  obtain hstopped | ⟨hreadable, hword⟩ | ⟨t, htrap, haccess⟩ := hends
  · left
    rw [hrep.clients, Program.shouldHalt_clientsWith, hstopped]
  · exact .inr ⟨_, step_of_marker hapart hrep hreadable hword, rfl⟩
  · obtain ⟨e, hstep, hfetch, hfault⟩ := step_of_trap hapart hrep htrap haccess
    refine .inr ⟨e, hstep, ?_⟩
    by_cases ht : t = .fetchAccess
    · rw [hfetch ht]
      rfl
    · obtain ⟨fault, rfl⟩ := hfault ht
      rfl

theorem stuck_of_ends {program : Program} (hapart : program.Apart) {σ : ArchState}
    {h : Rv64i.Hart Signal} (hrep : Represents program σ h) (hends : Ends program h) :
    σ.next = none := by
  obtain hhalt | ⟨e, hstep, -⟩ := ends_cases hapart hrep hends
  · exact ArchState.next_of_halted hhalt
  · exact ArchState.next_of_error hstep

/-! ### Whole runs -/

/-- `k` instructions of the hart that starts with the program. -/
def hartRun (program : Program) (initial : Registers) (k : Nat) : Option (Rv64i.Hart Signal) :=
  Runs.steps (Rv64i.Hart.next program.platform) k (program.hart initial)

/-- After `k` instructions the machine is where the hart is, and has printed the
text of its signals. -/
structure Abreast (program : Program) (initial : Registers) (k : Nat) (σ : ArchState)
    (h : Rv64i.Hart Signal) : Prop extends Represents program σ h where
  steps : Runs.steps ArchState.next k (boot program false initial).arch = some σ
  printed : h.signals.flatMap Signal.text =
    Runs.trace ArchState.next ArchState.printed k (boot program false initial).arch

section

variable {program : Program} (hapart : program.Apart) {initial : Registers}

include hapart

theorem abreast_boot : Abreast program initial 0 (boot program false initial).arch
    (program.hart initial) :=
  ⟨represents_boot hapart false initial, rfl, rfl⟩

omit hapart in
theorem Abreast.next {k : Nat} {σ τ : ArchState} {h g : Rv64i.Hart Signal}
    (habreast : Abreast program initial k σ h) (hrun : h.stopped program.platform = false)
    (hfollows : Follows program σ h g τ) : Abreast program initial (k + 1) τ g := by
  have hhalt : σ.clients.shouldHalt = false := by
    rw [habreast.clients, Program.shouldHalt_clientsWith, hrun]
  refine ⟨hfollows.toRepresents, ?_, ?_⟩
  · exact Runs.steps_succ_of habreast.steps
      (ArchState.next_eq_some_iff.mpr ⟨hhalt, hfollows.step⟩)
  · rw [Runs.trace_succ habreast.steps, ← habreast.printed, hfollows.printed]

/-- A run of the hart is a run of the machine. -/
theorem abreast_of_hart {k : Nat} {h : Rv64i.Hart Signal} (hrun : hartRun program initial k = some h)
    (hexecutes : ∀ j < k, ∀ g, hartRun program initial j = some g → executes g.word = true) :
    ∃ σ, Abreast program initial k σ h := by
  induction k generalizing h with
  | zero =>
    cases hrun
    exact ⟨_, abreast_boot hapart⟩
  | succ k ih =>
    obtain ⟨g, hg, hnext⟩ := Runs.steps_succ_cases hrun
    obtain ⟨σ, hσ⟩ := ih hg fun j hj => hexecutes j (by omega)
    obtain ⟨hstopped, hstep⟩ := Rv64i.Hart.next_eq_some_iff.mp hnext
    obtain ⟨τ, hτ⟩ := follows_step hapart hσ.toRepresents (hexecutes k (by omega) g hg) hstep
    exact ⟨τ, hσ.next hstopped hτ⟩

/-- The hart meets only instructions that the machine executes, and traps only on
refused accesses. -/
def Conforms (program : Program) (initial : Registers) : Prop :=
  ∀ k h, hartRun program initial k = some h → h.stopped program.platform = false →
    (program.platform.readable h.pc 4 = true → executes h.word = true) ∧
      ∀ t, h.step program.platform = .error t → accessTrap t = true

/-- The condition on one state, as a test. -/
def conformsAt (program : Program) (h : Rv64i.Hart Signal) : Bool :=
  h.stopped program.platform ||
    (!program.platform.readable h.pc 4 || executes h.word) &&
      match h.step program.platform with
      | .ok _ => true
      | .error t => accessTrap t

omit hapart in
/-- A run that is known to end can be tested state by state. -/
theorem conforms_of_ends {m : Nat} (hend : hartRun program initial m = none)
    (htest : ∀ k < m, (hartRun program initial k).all (conformsAt program) = true) :
    Conforms program initial := by
  intro k h hrun hstopped
  have hat : conformsAt program h = true := Runs.steps_all hend htest hrun
  unfold conformsAt at hat
  rw [hstopped, Bool.false_or, Bool.and_eq_true, Bool.or_eq_true, Bool.not_eq_true'] at hat
  refine ⟨fun hreadable => ?_, fun t ht => ?_⟩
  · apply hat.1.resolve_left
    rw [hreadable]
    decide
  · rw [ht] at hat
    exact hat.2

/-- For such a program a run of the machine is a run of the hart. -/
theorem abreast_of_machine (hconforms : Conforms program initial) {k : Nat} {σ : ArchState}
    (hrun : Runs.steps ArchState.next k (boot program false initial).arch = some σ) :
    ∃ h, hartRun program initial k = some h ∧ Abreast program initial k σ h := by
  induction k generalizing σ with
  | zero =>
    cases hrun
    exact ⟨_, rfl, abreast_boot hapart⟩
  | succ k ih =>
    obtain ⟨ρ, hρ, hnext⟩ := Runs.steps_succ_cases hrun
    obtain ⟨h, hh, habreast⟩ := ih hρ
    obtain ⟨hhalt, hstep⟩ := ArchState.next_eq_some_iff.mp hnext
    have hstopped : h.stopped program.platform = false := by
      rw [← hhalt, habreast.clients, Program.shouldHalt_clientsWith]
    obtain ⟨hexecutes, htraps⟩ := hconforms k h hh hstopped
    cases hhart : h.step program.platform with
    | ok g =>
      have hreadable : program.platform.readable h.pc 4 = true := by
        by_contra hreadable
        unfold Rv64i.Hart.step at hhart
        rw [if_neg hreadable] at hhart
        cases hhart
      obtain ⟨τ, hτ⟩ := follows_step hapart habreast.toRepresents (hexecutes hreadable) hhart
      obtain rfl := Except.ok.inj (hτ.step.symm.trans hstep)
      exact ⟨g, Runs.steps_succ_of hh (Rv64i.Hart.next_eq_some_iff.mpr ⟨hstopped, hhart⟩),
        habreast.next hstopped hτ⟩
    | error t =>
      obtain ⟨e, herror, -⟩ := step_of_trap hapart habreast.toRepresents hhart (htraps t hhart)
      cases hstep.symm.trans herror

end

/-- The non-pipelined machine, `n` cycles into its run, shows what the hart has
come to: registers, memory, halt flag and console text. -/
structure Shows (program : Program) (initial : Registers) (n : Nat) (s : Processor)
    (h : Rv64i.Hart Signal) : Prop where
  steps : Runs.steps next n (boot program false initial) = some s
  registers : s.regfile.registers.readRegister = h.registers.read
  clients : s.bus.clients = program.clientsWith h.memory (h.stopped program.platform)
  printed : Runs.trace next printed n (boot program false initial) =
    h.signals.flatMap Signal.text

/-- The main loop ends on an exception with the registers and memory of the hart. -/
structure Traps (program : Program) (initial : Registers) (s : Processor)
    (h : Rv64i.Hart Signal) (t : Rv64i.Trap) (e : Exception) (u : Processor) : Prop where
  ends : ∃ fuel, runLoop fuel (boot program false initial) = .terminated e u
  fetch : t = .fetchAccess → e = .instructionFetchFailure h.pc
  access : t ≠ .fetchAccess → ∃ fault, e = .illegalAccess fault
  registers : u.regfile.registers = s.regfile.registers
  clients : u.bus.clients = s.bus.clients

theorem shows_of_reached {program : Program} {initial : Registers} {k n : Nat} {σ : ArchState}
    {h : Rv64i.Hart Signal} {s : Processor} (habreast : Abreast program initial k σ h)
    (hreached : Reached (boot program false initial) k σ n s) :
    Shows program initial n s h where
  steps := hreached.steps
  registers := by
    rw [hreached.registers]
    exact habreast.registers
  clients := hreached.clients.trans habreast.clients
  printed := by
    rw [trace_printed (driven_boot program false initial) hreached.steps, hreached.busWrites,
      habreast.printed, ArchState.trace_printed habreast.steps]
    rfl

/-- A stopped hart halts the machine. -/
theorem halted_of_reached {program : Program} {initial : Registers} {k n : Nat} {σ : ArchState}
    {h : Rv64i.Hart Signal} {s : Processor} (habreast : Abreast program initial k σ h)
    (hreached : Reached (boot program false initial) k σ n s)
    (hstopped : h.stopped program.platform = true) :
    runLoop n (boot program false initial) = .halted s := by
  have hflag : s.shouldHalt = true := by
    unfold shouldHalt
    rw [hreached.clients, habreast.clients, Program.shouldHalt_clientsWith, hstopped]
  have hloop : runLoop (n + 0) (boot program false initial) = runLoop 0 s :=
    runLoop_of_steps hreached.steps
  exact hloop.trans (runLoop_of_halt hflag)

/-- What the hart does in `k` instructions, the non-pipelined machine does in five
cycles each: it shows the same registers, memory and console text, halts when the
hart is stopped, and throws when the hart traps on a refused access. -/
theorem executes_as_hart {program : Program} (hapart : program.Apart) {initial : Registers}
    {k : Nat} {h : Rv64i.Hart Signal} (hrun : hartRun program initial k = some h)
    (hexecutes : ∀ j < k, ∀ g, hartRun program initial j = some g → executes g.word = true) :
    ∃ n s, Shows program initial n s h ∧
      (h.stopped program.platform = false → n = 5 * k ∧ s.currentStage = 0 ∧ s.pc = h.pc ∧
        ∀ t, h.step program.platform = .error t → accessTrap t = true →
          ∃ e u, Traps program initial s h t e u) ∧
      (h.stopped program.platform = true →
        runLoop n (boot program false initial) = .halted s) := by
  obtain ⟨σ, hσ⟩ := abreast_of_hart hapart hrun hexecutes
  obtain ⟨n, s, hreached⟩ := reached (atStage_boot program initial) hσ.steps
  have hhalt : σ.clients.shouldHalt = h.stopped program.platform := by
    rw [hσ.clients, Program.shouldHalt_clientsWith]
  refine ⟨n, s, shows_of_reached hσ hreached, fun hstopped => ?_, halted_of_reached hσ hreached⟩
  obtain ⟨hn, hstage, rfl, -⟩ := hreached.boundary (hhalt.trans hstopped)
  refine ⟨hn, hstage.currentStage, hσ.pc, fun t htrap haccess => ?_⟩
  obtain ⟨e, hstep, hfetch, hfault⟩ := step_of_trap hapart hσ.toRepresents htrap haccess
  obtain ⟨m, v, u, hthrown⟩ := error_reached (atStage_boot program initial) hσ.steps
    (hhalt.trans hstopped) hstep
  exact ⟨e, u, runLoop_terminated_iff.mpr ⟨m, v, hthrown.toThrows⟩, hfetch, hfault,
    hthrown.registers, hthrown.clients⟩

/-- `addi x1, x0, 72`, `sb x1, 512(x0)`, `sw x0, 632(x0)`, and words for IF to run into. -/
def greeting : Program :=
  { memories := [Memory.ofWords false 0x1000 [0x04800093, 0x20100023, 0x26002c23, 0x00000013,
      0x00000013, 0x00000013, 0x00000013]]
    entrypoint := 0x1000 }

theorem greeting_apart : greeting.Apart := Program.apart_of_single rfl (by decide) (by decide)

theorem executes_as_hart_greeting :
    ∃ h, hartRun greeting (Vector.replicate 31 0) 3 = some h ∧
      h.stopped greeting.platform = true ∧
      ∃ n s, Shows greeting (Vector.replicate 31 0) n s h ∧
        (h.stopped greeting.platform = false → n = 5 * 3 ∧ s.currentStage = 0 ∧ s.pc = h.pc ∧
          ∀ t, h.step greeting.platform = .error t → accessTrap t = true →
            ∃ e u, Traps greeting (Vector.replicate 31 0) s h t e u) ∧
        (h.stopped greeting.platform = true →
          runLoop n (boot greeting false (Vector.replicate 31 0)) = .halted s) := by
  have hend : (hartRun greeting (Vector.replicate 31 0) 3).map
      (fun h => h.stopped greeting.platform) = some true := by decide +kernel
  have hall : ∀ j < 3, (hartRun greeting (Vector.replicate 31 0) j).all
      (fun g => executes g.word) = true := by decide +kernel
  obtain ⟨h, hh, hstopped⟩ := Option.map_eq_some_iff.mp hend
  refine ⟨h, hh, hstopped, executes_as_hart greeting_apart hh fun j hj g hg => ?_⟩
  have hg' := hall j hj
  rw [hg] at hg'
  exact hg'

end Rv64Emu.Conformance
