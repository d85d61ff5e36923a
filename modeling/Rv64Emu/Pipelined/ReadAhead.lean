import Rv64Emu.Machine.Platform
import Rv64Emu.Pipelined.Refinement

/-! What IF and ID read behind an instruction before it is known where it leads.
Each instruction of a run sets bounds on this; the words in question are in memory
that no store can change. -/
namespace Rv64Emu

namespace InstructionDecoder

/-- ID does not throw. -/
def decodes (word : InstructionWord) : Bool := (getImmediate ⟨word⟩).toOption.isSome

theorem decodes_of_error {word : InstructionWord} {e : Exception}
    (h : getImmediate ⟨word⟩ = .error e) : decodes word = false := by
  unfold decodes
  rw [h]
  rfl

end InstructionDecoder

namespace Program

/-- The instruction word at an address, where no store can change it. -/
def codeAt (program : Program) (addr : MemAddress) : Option InstructionWord :=
  if program.platform.readable addr 4 && !program.platform.writable addr 1 then
    some (BitVec.ofNat 32 (LittleEndian.ofBytes (ByteMemory.loaded program.image addr 4)))
  else none

/-- IF can fetch so many words from the address on, and ID can decode so many of
them. The first end marker ends this; it has to be harmless. -/
def readsAhead (program : Program) (harmless : MemAddress → Bool) :
    Nat → Nat → MemAddress → Bool
  | 0, _, _ => true
  | fetched + 1, decoded, addr =>
    (program.codeAt addr).any fun word =>
      if word = testEndMarker then harmless addr
      else (decoded == 0 || InstructionDecoder.decodes word) &&
        program.readsAhead harmless fetched (decoded - 1) (addr + 4)

section

variable {program : Program} {harmless : MemAddress → Bool} {fetched decoded : Nat}
  {addr : MemAddress}

theorem readsAhead_head (h : program.readsAhead harmless (fetched + 1) decoded addr = true) :
    ∃ word, program.codeAt addr = some word ∧ (word = testEndMarker → harmless addr = true) := by
  obtain ⟨word, hword, hrest⟩ := (Option.any_eq_true _ _).mp h
  refine ⟨word, hword, fun hmarker => ?_⟩
  rw [if_pos hmarker] at hrest
  exact hrest

theorem readsAhead_tail (h : program.readsAhead harmless (fetched + 1) decoded addr = true)
    (hcode : program.codeAt addr ≠ some testEndMarker) :
    program.readsAhead harmless fetched (decoded - 1) (addr + 4) = true ∧
      ∀ word, program.codeAt addr = some word → decoded ≠ 0 →
        InstructionDecoder.decodes word = true := by
  obtain ⟨word, hword, hrest⟩ := (Option.any_eq_true _ _).mp h
  have hne : word ≠ testEndMarker := by
    rintro rfl
    exact hcode hword
  rw [if_neg hne, Bool.and_eq_true, Bool.or_eq_true, beq_iff_eq] at hrest
  refine ⟨hrest.2, fun word' hword' hdecoded => ?_⟩
  obtain rfl := Option.some.inj (hword.symm.trans hword')
  exact hrest.1.resolve_left hdecoded

end

end Program

/-! ### The latches in front of IF -/

/-- The latches and the program counter hold the words from `addr` on, one behind
the other, and no latch holds an end marker. -/
structure InLine (program : Program) (idEx ifId : Option MemAddress) (pc addr : MemAddress) :
    Prop where
  head : (idEx.or ifId).getD pc = addr
  after_idEx : ∀ p, idEx = some p → ifId.getD pc = p + 4
  after_ifId : ∀ p, ifId = some p → pc = p + 4
  idEx_code : ∀ p, idEx = some p → program.codeAt p ≠ some testEndMarker
  ifId_code : ∀ p, ifId = some p → program.codeAt p ≠ some testEndMarker

namespace InLine

variable {program : Program} {idEx ifId : Option MemAddress} {p pc addr : MemAddress}
  {harmless : MemAddress → Bool} {fetched decoded : Nat}

theorem behind_idEx (h : InLine program (some p) ifId pc addr) :
    p = addr ∧ InLine program none ifId pc (p + 4) := by
  refine ⟨h.head, h.after_idEx p rfl, ?_, h.after_ifId, ?_, h.ifId_code⟩
  · intro q hq
    cases hq
  · intro q hq
    cases hq

theorem behind_ifId (h : InLine program none (some p) pc addr) :
    p = addr ∧ InLine program none none pc (p + 4) := by
  refine ⟨h.head, h.after_ifId p rfl, ?_, ?_, ?_, ?_⟩ <;>
  · intro q hq
    cases hq

/-- What IF fetches. -/
theorem readsAhead_pc (h : InLine program idEx ifId pc addr)
    (hreads : program.readsAhead harmless (fetched + 1) decoded addr = true)
    (hle : idEx.toList.length + ifId.toList.length ≤ fetched) :
    ∃ word, program.codeAt pc = some word ∧ (word = testEndMarker → harmless pc = true) := by
  have hpc : ∀ {addr' fetched' decoded'}, InLine program none none pc addr' →
      program.readsAhead harmless (fetched' + 1) decoded' addr' = true →
      ∃ word, program.codeAt pc = some word ∧ (word = testEndMarker → harmless pc = true) := by
    intro addr' fetched' decoded' h hreads
    obtain rfl : pc = addr' := h.head
    exact Program.readsAhead_head hreads
  have hifId : ∀ {addr' fetched' decoded'}, InLine program none ifId pc addr' →
      program.readsAhead harmless (fetched' + 1) decoded' addr' = true →
      ifId.toList.length ≤ fetched' →
      ∃ word, program.codeAt pc = some word ∧ (word = testEndMarker → harmless pc = true) := by
    intro addr' fetched' decoded' h hreads hle
    cases ifId with
    | none => exact hpc h hreads
    | some q =>
      obtain ⟨rfl, hbehind⟩ := h.behind_ifId
      obtain ⟨n, rfl⟩ := Nat.exists_eq_add_of_le' (show 1 ≤ fetched' from hle)
      exact hpc hbehind (Program.readsAhead_tail hreads (h.ifId_code q rfl)).1
  cases idEx with
  | none =>
    apply hifId h hreads
    omega
  | some q =>
    obtain ⟨rfl, hbehind⟩ := h.behind_idEx
    have hle' : 1 + ifId.toList.length ≤ fetched := hle
    obtain ⟨n, rfl⟩ := Nat.exists_eq_add_of_le' (show 1 ≤ fetched by omega)
    apply hifId hbehind (Program.readsAhead_tail hreads (h.idEx_code q rfl)).1
    omega

/-- What ID decodes. -/
theorem readsAhead_ifId (h : InLine program idEx (some p) pc addr)
    (hreads : program.readsAhead harmless (fetched + 2) decoded addr = true)
    (hlt : idEx.toList.length < decoded) :
    ∃ word, program.codeAt p = some word ∧ InstructionDecoder.decodes word = true := by
  have hifId : ∀ {addr' fetched' decoded'}, InLine program none (some p) pc addr' →
      program.readsAhead harmless (fetched' + 1) decoded' addr' = true → decoded' ≠ 0 →
      ∃ word, program.codeAt p = some word ∧ InstructionDecoder.decodes word = true := by
    intro addr' fetched' decoded' h hreads hdecoded
    obtain rfl : p = addr' := h.head
    obtain ⟨word, hword, -⟩ := Program.readsAhead_head hreads
    exact ⟨word, hword,
      (Program.readsAhead_tail hreads (h.ifId_code p rfl)).2 word hword hdecoded⟩
  cases idEx with
  | none => exact hifId h hreads (Nat.ne_of_gt hlt)
  | some q =>
    obtain ⟨rfl, hbehind⟩ := h.behind_idEx
    have hlt' : 1 < decoded := hlt
    apply hifId hbehind (Program.readsAhead_tail hreads (h.idEx_code q rfl)).1
    omega

end InLine

/-! ### Spaced runs -/

/-- The words behind an instruction that takes the machine from `σ` to `τ` are far
enough from what could go wrong: a taken branch or jump has two words behind it, of
which only its target may be the end marker; the store that halts the system has
three, and two instructions among them; and no end marker is behind the use of a
loaded value that follows the load. -/
structure Spaced (program : Program) (σ τ : ArchState) : Prop where
  redirects : ∀ idEx target, σ.decode = .ok idEx →
    ExecuteStage.redirectOf idEx idEx.readData1 idEx.readData2 = some target →
    program.readsAhead (· == target) 2 0 (σ.pc + 4) = true
  halts : τ.clients.shouldHalt = true →
    program.readsAhead (fun _ => true) 3 2 (σ.pc + 4) = true
  loads : ∀ idEx word, σ.decode = .ok idEx → τ.fetch = .ok word →
    InstructionDecodeStage.hazard idEx ⟨word⟩ = true →
    program.readsAhead (fun _ => false) 1 0 (σ.pc + 8) = true

/-- Wherever the machine comes to it has halted, is at the end marker, or executes
an instruction that is spaced. -/
def SpacedRun (program : Program) (registers : Registers) : Prop :=
  ∀ k σ, Runs.steps ArchState.next k (Processor.boot program false registers).arch = some σ →
    σ.clients.shouldHalt = false →
    (∃ addr, σ.step = .error (.testEndMarkerEncountered addr)) ∨
      ∃ τ, σ.next = some τ ∧ Spaced program σ τ

namespace ControlSignals

theorem straight_of_memWrite (decoder : InstructionDecoder)
    (h : (setFromInstruction decoder).memWrite = true) :
    (setFromInstruction decoder).branch = false ∧ (setFromInstruction decoder).jump = false := by
  revert h
  unfold setFromInstruction
  cases decoder.getOpcode <;> simp

theorem memWrite_of_memRead (decoder : InstructionDecoder)
    (h : (setFromInstruction decoder).memRead = true) :
    (setFromInstruction decoder).memWrite = false := by
  revert h
  unfold setFromInstruction
  cases decoder.getOpcode <;> simp

end ControlSignals

namespace ArchState

variable {σ τ : ArchState}

/-- What has been fetched is not the end marker. -/
theorem step_of_fetch {word : InstructionWord} (h : σ.fetch = .ok word) (addr : MemAddress) :
    σ.step ≠ .error (.testEndMarkerEncountered addr) := by
  intro hstep
  obtain herror | ⟨word', -, hat⟩ | ⟨idEx, -, haccess⟩ := step_error_cases hstep
  · cases h.symm.trans herror
  · obtain ⟨what, hwhat⟩ := decodeAt_error hat
    cases hwhat
  · cases accessFails_error haccess

/-- Where no word can be fetched the machine has neither a step nor the end marker. -/
theorem step_of_unfetched {fault : Exception} (h : σ.clients.fetchWord σ.pc = .error fault) :
    σ.next = none ∧ ∀ addr, σ.step ≠ .error (.testEndMarkerEncountered addr) := by
  have hfetch : σ.fetch = .error (InstructionFetchStage.fetchError σ.pc fault) := by
    unfold fetch
    rw [h]
  have hstep : σ.step = .error (InstructionFetchStage.fetchError σ.pc fault) := by
    apply step_of_decode_error
    unfold decode
    rw [hfetch]
    rfl
  refine ⟨next_of_error hstep, fun addr hmarker => ?_⟩
  have hfault := Clients.read_error h
  have hthrown := Except.error.inj (hstep.symm.trans hmarker)
  cases fault with
  | illegalAccess _ => cases hthrown
  | outOfBounds _ => cases hthrown
  | _ => cases hfault

/-- Only a store changes the bus. -/
theorem clients_of_next {idEx : IDEXRegisters} (hdecode : σ.decode = .ok idEx)
    (hwrite : idEx.control.memWrite = false) (hnext : σ.next = some τ) :
    τ.clients = σ.clients := by
  obtain ⟨-, hstep⟩ := next_eq_some_iff.mp hnext
  obtain ⟨idEx', memData, clients, hdecode', -, hstore, rfl⟩ := step_ok_iff.mp hstep
  cases hdecode.symm.trans hdecode'
  have hnone : (executed idEx).store σ.clients = .ok σ.clients := by
    apply if_neg
    change ¬idEx.control.memWrite = true
    rw [hwrite]
    decide
  exact Except.ok.inj (hstore.symm.trans hnone)

/-- The store that halts the system leads to the next word. -/
theorem pc_of_halting (hnext : σ.next = some τ) (hhalt : τ.clients.shouldHalt = true) :
    τ.pc = σ.pc + 4 := by
  obtain ⟨hrun, hstep⟩ := next_eq_some_iff.mp hnext
  obtain ⟨idEx, memData, clients, hdecode, -, -, hτ⟩ := step_ok_iff.mp hstep
  have hwrite : idEx.control.memWrite = true := by
    by_contra hwrite
    have hsame := clients_of_next hdecode (Bool.eq_false_iff.mpr hwrite) hnext
    rw [hsame] at hhalt
    cases hrun.symm.trans hhalt
  obtain ⟨decoder, hcontrol, -⟩ := control_of_decode hdecode
  rw [hcontrol] at hwrite
  obtain ⟨hbranch, hjump⟩ := ControlSignals.straight_of_memWrite decoder hwrite
  rw [hτ]
  change (ExecuteStage.redirectOf idEx idEx.readData1 idEx.readData2).getD (σ.pc + 4) = _
  unfold ExecuteStage.redirectOf
  rw [hcontrol, hjump, hbranch]
  rfl

end ArchState

end Rv64Emu
