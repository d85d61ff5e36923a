import Rv64Emu.Pipelined.Interlock
import Rv64Emu.Pipelined.Progress
import Rv64Emu.Pipelined.Spacing
import Rv64Emu.UnitTests

/-! Programs that the pipeline executes to their end. What the words behind an
instruction have to be like is said of the hart, one instruction at a time. -/
namespace Rv64Emu

/-- ID keeps the word waiting for a load of the register. -/
def InstructionDecodeStage.waits (rd : RegNumber) (word : InstructionWord) : Bool :=
  rd != 0 && (rd == InstructionDecoder.getRS1 ⟨word⟩ ||
    (instructionUsesRS2 (InstructionDecoder.getOpcode ⟨word⟩) &&
      rd == InstructionDecoder.getRS2 ⟨word⟩))

theorem InstructionDecodeStage.hazard_eq (idEx : IDEXRegisters) (word : InstructionWord) :
    hazard idEx ⟨word⟩ = (idEx.control.memRead && waits idEx.rd word) := Bool.and_assoc ..

namespace Conformance

open Processor

/-- The words behind the instruction from which the hart goes on to `g`: behind a taken
branch or jump, behind a load whose value the next instruction uses, and behind the
store that halts the system. -/
def spaced (program : Program) (h g : Rv64i.Hart Signal) : Bool :=
  ((Rv64i.decodeTransfer h.word).all fun i =>
    !i.taken h.registers.read || program.readsAhead (· == g.pc) 2 0 (h.pc + 4)) &&
  ((Rv64i.decodeLoad h.word).all fun l =>
    !InstructionDecodeStage.waits l.rd g.word ||
      program.readsAhead (fun _ => false) 1 0 (h.pc + 8)) &&
  (!g.stopped program.platform || program.readsAhead (fun _ => true) 3 2 (h.pc + 4))

/-! ### Instructions by their opcodes -/

section

variable {word : InstructionWord}

/-- Transfers and loads are in no other table. -/
theorem decodeInstruction_of_opcode (h : word.extractLsb' 0 7 = 0x63 ∨
    word.extractLsb' 0 7 = 0x6F ∨ word.extractLsb' 0 7 = 0x67 ∨ word.extractLsb' 0 7 = 0x03) :
    Rv64i.decodeInstruction word = ((Rv64i.decodeTransfer word).map .transfer).or
      ((Rv64i.decodeLoad word).map .load) := by
  have hsystem : ¬(word = 0x00000073 ∨ word = 0x00100073) := by
    rintro (rfl | rfl) <;> revert h <;> decide
  have hothers : Rv64i.decodeStore word = none ∧ Rv64i.decode word = none ∧
      Rv64i.decodeUpper word = none ∧
      ¬(word.extractLsb' 0 7 = 0b0001111 ∧ word.extractLsb' 12 3 = 0b000) := by
    obtain h | h | h | h := h <;>
      simp [Rv64i.decodeStore, Rv64i.decode, Rv64i.decodeUpper, h]
  obtain ⟨hstore, hcomputational, hupper, hfence⟩ := hothers
  unfold Rv64i.decodeInstruction
  rw [hstore, hcomputational, hupper, if_neg hfence, if_neg hsystem, Option.or_none]
  rfl

variable {i : Rv64i.Instruction} (hlisted : Rv64i.decodeInstruction word = some i)

include hlisted

theorem transfer_of_opcode (hopcode : InstructionDecoder.getOpcode ⟨word⟩ = .branch ∨
    InstructionDecoder.getOpcode ⟨word⟩ = .jal ∨ InstructionDecoder.getOpcode ⟨word⟩ = .jalr) :
    ∃ t, Rv64i.decodeTransfer word = some t := by
  have hbits : ∀ bits : BitVec 7, Opcode.ofBits bits = .branch ∨ Opcode.ofBits bits = .jal ∨
      Opcode.ofBits bits = .jalr → bits = 0x63 ∨ bits = 0x6F ∨ bits = 0x67 := by decide +kernel
  rw [InstructionDecoder.getOpcode_eq] at hopcode
  have hlow := hbits _ hopcode
  have hload : Rv64i.decodeLoad word = none := by
    obtain h | h | h := hlow <;> simp [Rv64i.decodeLoad, h]
  rw [decodeInstruction_of_opcode (by tauto), hload] at hlisted
  cases htransfer : Rv64i.decodeTransfer word with
  | some t => exact ⟨t, rfl⟩
  | none =>
    rw [htransfer] at hlisted
    cases hlisted

theorem load_of_opcode (hopcode : InstructionDecoder.getOpcode ⟨word⟩ = .load) :
    ∃ l, Rv64i.decodeLoad word = some l ∧ l.rd = InstructionDecoder.getRD ⟨word⟩ := by
  have hbits : ∀ bits : BitVec 7, Opcode.ofBits bits = .load → bits = 0x03 := by decide +kernel
  rw [InstructionDecoder.getOpcode_eq] at hopcode
  have hlow := hbits _ hopcode
  have htransfer : Rv64i.decodeTransfer word = none := by simp [Rv64i.decodeTransfer, hlow]
  rw [decodeInstruction_of_opcode (by tauto), htransfer] at hlisted
  cases hload : Rv64i.decodeLoad word with
  | none =>
    rw [hload] at hlisted
    cases hlisted
  | some l =>
    refine ⟨l, rfl, ?_⟩
    unfold Rv64i.decodeLoad at hload
    rw [if_pos hlow] at hload
    obtain ⟨format, -, rfl⟩ := Option.map_eq_some_iff.mp hload
    exact (InstructionDecoder.getRD_eq word).symm

end

/-- Only branches and jumps redirect. -/
theorem opcode_of_redirect {idEx : IDEXRegisters} {decoder : InstructionDecoder}
    (hcontrol : idEx.control = ControlSignals.setFromInstruction decoder)
    {rs1Value rs2Value : RegValue} {target : MemAddress}
    (h : ExecuteStage.redirectOf idEx rs1Value rs2Value = some target) :
    decoder.getOpcode = .branch ∨ decoder.getOpcode = .jal ∨ decoder.getOpcode = .jalr := by
  by_contra hother
  have hcalm : idEx.control.jump = false ∧ idEx.control.branch = false := by
    rw [hcontrol]
    unfold ControlSignals.setFromInstruction
    cases hopcode : decoder.getOpcode with
    | branch => exact absurd (.inl hopcode) hother
    | jal => exact absurd (.inr (.inl hopcode)) hother
    | jalr => exact absurd (.inr (.inr hopcode)) hother
    | _ => exact ⟨rfl, rfl⟩
  unfold ExecuteStage.redirectOf at h
  rw [hcalm.1, hcalm.2] at h
  cases h

/-- What redirects is a jump, or a branch whose condition holds. -/
theorem taken_of_redirect {registers : Registers} {pc : MemAddress} {word : InstructionWord}
    {idEx : IDEXRegisters} {i : Rv64i.Instruction}
    (hlisted : Rv64i.decodeInstruction word = some i)
    (hat : decodeAt registers pc word = .ok idEx) {target : MemAddress}
    (h : ExecuteStage.redirectOf idEx idEx.readData1 idEx.readData2 = some target) :
    ∃ t, Rv64i.decodeTransfer word = some t ∧ t.taken registers.readRegister = true := by
  obtain ⟨immediate, -, rfl⟩ := decodeAt_ok_iff.mp hat
  obtain ⟨t, ht⟩ := transfer_of_opcode hlisted (opcode_of_redirect rfl h)
  refine ⟨t, ht, ?_⟩
  cases t with
  | branch condition rs1 rs2 offset =>
    obtain ⟨hopcode, hcondition, rfl, rfl, -⟩ := ControlFlow.agrees_of_decodeTransfer ht
    change condition.holds _ _ = true
    rw [← ControlFlow.evaluateBranch_eq hcondition]
    unfold ExecuteStage.redirectOf ControlSignals.setFromInstruction at h
    rw [hopcode] at h
    by_contra hholds
    rw [Bool.not_eq_true] at hholds
    simp [hholds] at h
  | jal rd offset => rfl
  | jalr rd rs1 offset => rfl

/-! ### The run of the hart as a run of the machine -/

section

variable {program : Program} (hapart : program.Apart)

include hapart

/-- The machine fetches the word of the hart, if any. -/
theorem word_of_fetch {σ : ArchState} {h : Rv64i.Hart Signal} (hrep : Represents program σ h)
    {word : InstructionWord} (hfetch : σ.fetch = .ok word) : word = h.word := by
  cases hreadable : program.platform.readable h.pc 4 with
  | true =>
    have hword := fetchWord_of_readable hapart hrep hreadable
    exact Except.ok.inj ((ArchState.fetch_ok_iff.mp hfetch).1.symm.trans hword)
  | false =>
    have hstep := step_of_unreadable hapart hrep hreadable
    obtain herror | ⟨word', hword', hat⟩ | ⟨idEx, hdecode, haccess⟩ :=
      ArchState.step_error_cases hstep
    · cases hfetch.symm.trans herror
    · obtain ⟨what, hwhat⟩ := decodeAt_error hat
      cases hwhat
    · cases ArchState.accessFails_error haccess

theorem spaced_of_hart {σ τ : ArchState} {h g : Rv64i.Hart Signal}
    (hrep : Represents program σ h) (hrep' : Represents program τ g)
    (hstep : h.step program.platform = .ok g) (hnext : σ.next = some τ)
    (hspaced : spaced program h g = true) : Spaced program σ τ := by
  unfold Rv64i.Hart.step at hstep
  split at hstep
  case isFalse => cases hstep
  case isTrue hreadable =>
  split at hstep
  case h_2 => cases hstep
  case h_1 i hlisted =>
  have hfetch := fetch_of_listed hapart hrep hreadable hlisted
  unfold spaced at hspaced
  rw [Bool.and_eq_true, Bool.and_eq_true, Option.all_eq_true, Option.all_eq_true] at hspaced
  obtain ⟨⟨htransfers, hloads⟩, hhalts⟩ := hspaced
  exact {
    redirects := by
      intro idEx target hdecode hredirect
      obtain ⟨word, hword, hat⟩ := ArchState.decode_ok_iff.mp hdecode
      cases hfetch.symm.trans hword
      obtain ⟨t, ht, htaken⟩ := taken_of_redirect hlisted hat hredirect
      have hpc : g.pc = target := by
        obtain ⟨-, hτ⟩ := ArchState.next_eq_some_iff.mp hnext
        obtain ⟨idEx', memData, clients, hdecode', -, -, rfl⟩ := ArchState.step_ok_iff.mp hτ
        cases hdecode.symm.trans hdecode'
        rw [← hrep'.pc]
        change (ExecuteStage.redirectOf idEx idEx.readData1 idEx.readData2).getD _ = target
        rw [hredirect]
        rfl
      have hreads := htransfers t ht
      rw [← hrep.registers, htaken, hpc, ← hrep.pc] at hreads
      exact hreads
    halts := by
      intro hhalt
      have hstopped : g.stopped program.platform = true := by
        rw [← hhalt, hrep'.clients, Program.shouldHalt_clientsWith]
      rw [hstopped, ← hrep.pc] at hhalts
      exact hhalts
    loads := by
      intro idEx word hdecode hfetch' hhazard
      obtain rfl := word_of_fetch hapart hrep' hfetch'
      rw [InstructionDecodeStage.hazard_eq, Bool.and_eq_true] at hhazard
      obtain ⟨hread, hwaits⟩ := hhazard
      obtain ⟨word, hword, hat⟩ := ArchState.decode_ok_iff.mp hdecode
      cases hfetch.symm.trans hword
      obtain ⟨immediate, -, rfl⟩ := decodeAt_ok_iff.mp hat
      obtain ⟨l, hl, hrd⟩ :=
        load_of_opcode hlisted ((Interlock.memRead_setFromInstruction _).mp hread)
      have hreads := hloads l hl
      rw [hrd, show InstructionDecodeStage.waits _ g.word = true from hwaits, ← hrep.pc] at hreads
      exact hreads }

end

/-- The main loop of the pipeline has ended after at most `n` iterations with all that
the hart has come to: halted, or at the end marker. -/
structure EndsAs (program : Program) (initial : Registers) (n : Nat) (h : Rv64i.Hart Signal)
    (s : Processor) : Prop where
  ended : runLoop n (boot program true initial) =
    if h.stopped program.platform then .halted s else .terminated (.testEndMarkerEncountered h.pc) s
  registers : s.regfile.registers.readRegister = h.registers.read
  clients : s.bus.clients = program.clientsWith h.memory (h.stopped program.platform)
  printed : ∃ m t, Runs.steps next m (boot program true initial) = some t ∧ next t = none ∧
    Runs.trace next printed m (boot program true initial) = h.signals.flatMap Signal.text

section

variable {program : Program} (hapart : program.Apart) {initial : Registers} {k : Nat}
  {h : Rv64i.Hart Signal} (hrun : hartRun program initial k = some h)
  (hexecutes : ∀ j < k, ∀ g, hartRun program initial j = some g → executes g.word = true)
  (hcode : ∀ j ≤ k, ∀ g, hartRun program initial j = some g →
    g.stopped program.platform = false → program.platform.writable g.pc 1 = false)
  (hspaced : ∀ j < k, ∀ g g', hartRun program initial j = some g →
    hartRun program initial (j + 1) = some g' → spaced program g g' = true)
  (hends : h.stopped program.platform = true ∨
    program.platform.readable h.pc 4 = true ∧ h.word = testEndMarker)

include hapart hrun hexecutes hends hspaced

/-- The machine behind the hart. -/
theorem spacedRun_of_hart : SpacedRun program initial := by
  intro l σ hσ hhalt
  obtain ⟨τ, hτ⟩ := abreast_of_hart hapart hrun hexecutes
  have hstuck := stuck_of_ends hapart hτ.toRepresents (hends.imp_right .inl)
  have hle := Runs.le_of_stuck hτ.steps hstuck hσ
  have hat : ∀ {j g ρ}, j ≤ k → hartRun program initial j = some g →
      Runs.steps ArchState.next j (boot program false initial).arch = some ρ →
      Represents program ρ g := by
    intro j g ρ hj hg hρ
    obtain ⟨ρ', hρ'⟩ := abreast_of_hart hapart hg fun i hi =>
      hexecutes i (Nat.lt_of_lt_of_le hi hj)
    obtain rfl := Option.some.inj (hρ.symm.trans hρ'.steps)
    exact hρ'.toRepresents
  obtain rfl | hlt := Nat.eq_or_lt_of_le hle
  · have hrep := hat hle hrun hσ
    obtain hstopped | ⟨hreadable, hword⟩ := hends
    · rw [hrep.clients, Program.shouldHalt_clientsWith, hstopped] at hhalt
      cases hhalt
    · exact .inl ⟨h.pc, step_of_marker hapart hrep hreadable hword⟩
  · obtain ⟨g', hg'⟩ := Runs.steps_of_le (show l + 1 ≤ k from hlt) hrun
    obtain ⟨g, hg, hnext⟩ := Runs.steps_succ_cases hg'
    obtain ⟨υ, hυ⟩ := Runs.steps_of_le (show l + 1 ≤ k from hlt) hτ.steps
    obtain ⟨ρ, hρ, hnext'⟩ := Runs.steps_succ_cases hυ
    obtain rfl := Option.some.inj (hσ.symm.trans hρ)
    exact .inr ⟨υ, hnext', spaced_of_hart hapart (hat hle hg hσ) (hat hlt hg' hυ)
      (Rv64i.Hart.next_eq_some_iff.mp hnext).2 hnext' (hspaced l hlt g g' hg hg')⟩

include hcode

theorem pipelined_ends : ∃ s, EndsAs program initial (3 * k + 9) h s := by
  have hends' : Ends program h := hends.imp_right .inl
  have hreadOnly : ∀ addr, Fetches program false initial addr →
      (boot program false initial).bus.clients.ReadOnlyAt addr :=
    fun addr => readOnlyAt_of_hart hapart hrun hexecutes hends' hcode
  have hcodeReadOnly : CodeReadOnly program initial := fun addr _ => hreadOnly addr
  obtain ⟨σ, hσ⟩ := abreast_of_hart hapart hrun hexecutes
  have hstuck := stuck_of_ends hapart hσ.toRepresents hends'
  have hflag : σ.clients.shouldHalt = h.stopped program.platform := by
    rw [hσ.clients, Program.shouldHalt_clientsWith]
  have hprinted : ∀ {n s}, Runs.steps next n (boot program true initial) = some s →
      Runs.trace next busWrites n (boot program true initial) =
        Runs.trace ArchState.next ArchState.busWrites k (boot program false initial).arch →
      Runs.trace next printed n (boot program true initial) = h.signals.flatMap Signal.text := by
    intro n s hs hwrites
    rw [trace_printed (driven_boot program true initial) hs, hwrites, hσ.printed,
      ArchState.trace_printed hσ.steps]
    rfl
  obtain ⟨n, -, s, hs, ⟨hhalt, hloop⟩ | ⟨e, u, hhalt, hcycle, hloop⟩ | hloop⟩ :=
    runLoop_cases (3 * k + 9) (boot program true initial)
  · obtain ⟨l, τ, hτ, hregisters, hclients⟩ := halted_of_readOnly hcodeReadOnly hs hhalt
    have hnone : ∀ ρ : ArchState, ρ.clients = s.bus.clients → ρ.next = none :=
      fun ρ hρ => ArchState.next_of_halted (hρ ▸ hhalt)
    obtain ⟨rfl, rfl⟩ := Runs.steps_stuck_unique hσ.steps hstuck hτ (hnone τ hclients)
    obtain ⟨l, υ, hυ⟩ := simulated_of_readOnly hcodeReadOnly hs
    obtain ⟨rfl, rfl⟩ := Runs.steps_stuck_unique hσ.steps hstuck hυ.steps
      (hnone υ hυ.tracks.clients)
    have hstopped : h.stopped program.platform = true := by
      rw [← hflag, hclients]
      exact hhalt
    refine ⟨s, ?_, ?_, ?_, n, s, hs, next_none_of_halt hhalt, hprinted hs hυ.busWrites⟩
    · rw [hstopped]
      exact hloop
    · rw [← hregisters, hσ.registers]
    · rw [← hclients, hσ.clients]
  · obtain ⟨l, τ, hτ⟩ := throwsAtMarker_of_spaced hapart (settled_of_readOnly hreadOnly)
      (spacedRun_of_hart hapart hrun hexecutes hspaced hends) ⟨hs, hhalt, hcycle⟩
    obtain ⟨rfl, rfl⟩ := Runs.steps_stuck_unique hσ.steps hstuck hτ.steps
      (ArchState.next_of_error hτ.step)
    have hstopped : h.stopped program.platform = false := hflag.symm.trans hτ.running
    refine ⟨u, ?_, ?_, ?_, n, s, hs, next_none_of_error hcycle, hprinted hs hτ.busWrites⟩
    · rw [hstopped]
      obtain hhalted | ⟨hreadable, hword⟩ := hends
      · cases hstopped.symm.trans hhalted
      · have hstep := step_of_marker hapart hσ.toRepresents hreadable hword
        rw [hloop, Except.error.inj (hτ.step.symm.trans hstep)]
        rfl
    · rw [hτ.registers, hσ.registers]
    · rw [hτ.clients, hσ.clients]
  · obtain ⟨l, τ, hτ, hle⟩ := cycles_le hcodeReadOnly (steps_of_running hloop)
    have hshort := Runs.le_of_stuck hσ.steps hstuck hτ.steps
    omega

/-- PC is at the marker when the exception is thrown. -/
theorem pc_of_marker {n : Nat} {addr : MemAddress} {s : Processor}
    (h : runLoop n (boot program true initial) = .terminated (.testEndMarkerEncountered addr) s) :
    s.pc = addr := by
  obtain ⟨m, t, hthrown⟩ := runLoop_terminated_iff.mp ⟨n, h⟩
  have hreadOnly : ∀ addr, Fetches program false initial addr →
      (boot program false initial).bus.clients.ReadOnlyAt addr :=
    fun addr => readOnlyAt_of_hart hapart hrun hexecutes (hends.imp_right .inl) hcode
  obtain ⟨l, σ, hσ⟩ := throwsAtMarker_of_spaced hapart (settled_of_readOnly hreadOnly)
    (spacedRun_of_hart hapart hrun hexecutes hspaced hends) hthrown
  cases hσ.marker
  rfl

end

/-- A spaced program whose hart comes to the halt or to the end marker after `k`
instructions: the pipeline ends there too, after at most `3 * k + 9` cycles, with the
same registers, memory and console text. -/
theorem pipelined_completes {program : Program} (hapart : program.Apart) {initial : Registers}
    {k : Nat} {h : Rv64i.Hart Signal} (hrun : hartRun program initial k = some h)
    (hexecutes : ∀ j < k, ∀ g, hartRun program initial j = some g → executes g.word = true)
    (hcode : ∀ j ≤ k, ∀ g, hartRun program initial j = some g →
      g.stopped program.platform = false → program.platform.writable g.pc 1 = false)
    (hspaced : ∀ j < k, ∀ g g', hartRun program initial j = some g →
      hartRun program initial (j + 1) = some g' → spaced program g g' = true)
    (hends : h.stopped program.platform = true ∨
      program.platform.readable h.pc 4 = true ∧ h.word = testEndMarker) :
    ∃ s, EndsAs program initial (3 * k + 9) h s :=
  pipelined_ends hapart hrun hexecutes hcode hspaced hends

/-- A loop, a character, and the halt: `addi x1, x0, 3`, `addi x1, x1, -1`, `bne x1, x0, -4`,
`addi x2, x0, 72`, `sb x2, 512(x0)`, `sw x0, 632(x0)`, and words for IF to run into. -/
def loopThenHalt : Program :=
  { memories := [Memory.ofWords false 0x1000 [0x00300093, 0xfff08093, 0xfe009ee3, 0x04800113,
      0x20200023, 0x26002c23, 0x00000013, 0x00000013, 0x00000013]]
    entrypoint := 0x1000 }

theorem pipelined_completes_loopThenHalt :
    ∃ h, hartRun loopThenHalt (Vector.replicate 31 0) 10 = some h ∧
      h.stopped loopThenHalt.platform = true ∧
      ∃ s, EndsAs loopThenHalt (Vector.replicate 31 0) 39 h s := by
  have hend : (hartRun loopThenHalt (Vector.replicate 31 0) 10).map
      (fun h => h.stopped loopThenHalt.platform) = some true := by decide +kernel
  have hall : ∀ j < 11, (hartRun loopThenHalt (Vector.replicate 31 0) j).all (fun g =>
      (j == 10 || executes g.word) && !loopThenHalt.platform.writable g.pc 1 &&
        (hartRun loopThenHalt (Vector.replicate 31 0) (j + 1)).all
          (spaced loopThenHalt g)) = true := by decide +kernel
  obtain ⟨h, hh, hstopped⟩ := Option.map_eq_some_iff.mp hend
  have hat : ∀ j < 11, ∀ g, hartRun loopThenHalt (Vector.replicate 31 0) j = some g →
      (j = 10 ∨ executes g.word = true) ∧ loopThenHalt.platform.writable g.pc 1 = false ∧
        (hartRun loopThenHalt (Vector.replicate 31 0) (j + 1)).all
          (spaced loopThenHalt g) = true := by
    intro j hj g hg
    have hg' := hall j hj
    rw [hg] at hg'
    simpa [and_assoc] using hg'
  refine ⟨h, hh, hstopped, pipelined_completes (k := 10)
    (Program.apart_of_single rfl (by decide) (by decide)) hh ?_ ?_ ?_ (.inl hstopped)⟩
  · intro j hj g hg
    exact (hat j (by omega) g hg).1.resolve_left (by omega)
  · intro j hj g hg _
    exact (hat j (by omega) g hg).2.1
  · intro j hj g g' hg hg'
    have hspaced := (hat j (by omega) g hg).2.2
    rw [hg'] at hspaced
    exact hspaced

end Conformance

namespace Launcher

open Processor Conformance

/-- A spaced test has the verdict of the hart in either mode. -/
theorem launcher_of_spaced {files : Files} {allocate : ELFFile.Allocator}
    {testFilename : Option Text} {execFilename : Text} {initializers : List RegisterInit} {j : Job}
    {f : ELFFile} (hready : Ready files allocate testFilename execFilename initializers j f)
    {k : Nat} {h : Rv64i.Hart Signal} (hrun : f.hartRun (initial j.initializers) k = some h)
    (hexecutes : ∀ i < k, ∀ g, f.hartRun (initial j.initializers) i = some g →
      executes g.word = true)
    (hcode : ∀ i ≤ k, ∀ g, f.hartRun (initial j.initializers) i = some g →
      g.stopped f.platform = false → f.platform.writable g.pc 1 = false)
    (hspaced : ∀ i < k, ∀ g g', f.hartRun (initial j.initializers) i = some g →
      f.hartRun (initial j.initializers) (i + 1) = some g' → spaced f.loaded g g' = true)
    (hends : h.stopped f.platform = true ∨
      f.platform.readable h.pc 4 = true ∧ h.word = testEndMarker) (pipelining : Bool) :
    ∃ n, ∀ fuel, n ≤ fuel →
      launcher files allocate testFilename execFilename pipelining initializers fuel =
        some (verdict h.registers.read j.postRegisters) := by
  have hapart := ELFFile.apart_loaded hready.emulated
  simp only [← ELFFile.hartRun_loaded hready.emulated, ← ELFFile.platform_loaded]
    at hrun hexecutes hcode hspaced hends
  cases pipelining with
  | false =>
    obtain ⟨n, σ, hσ, -, hended⟩ :=
      endsWith_of_hart hapart hrun hexecutes (hends.imp_right .inl)
    rw [← hσ.registers]
    exact ⟨n, fun fuel hle => hready.launcher_eq hended hle⟩
  | true =>
    obtain ⟨s, hs⟩ := pipelined_ends hapart hrun hexecutes hcode hspaced hends
    have hended : EndsWith (boot f.loaded true (initial j.initializers)) (3 * k + 9)
        s.regfile.registers := by
      have hloop := hs.ended
      cases hstopped : h.stopped f.loaded.platform with
      | true =>
        rw [hstopped] at hloop
        exact .inl ⟨s, hloop, rfl⟩
      | false =>
        rw [hstopped] at hloop
        exact .inr ⟨_, s, hloop, rfl, rfl⟩
    rw [← hs.registers]
    exact ⟨_, fun fuel hle => hready.launcher_eq hended hle⟩

/-- `addi x1, x0, 72`, a jump over `addi x1, x0, 0`, and the end marker. -/
def skippingFile : ELFFile where
  contents := ELFFile.greetingFile.contents.take 192 ++
    [0x93, 0x00, 0x80, 0x04, 0x6f, 0x00, 0x80, 0x00, 0x93, 0, 0, 0, 0xff, 0xcc, 0xff, 0xdd]
  contents_lt := by decide +kernel

theorem skippingFile_emulated : skippingFile.Emulated where
  accepted := by decide +kernel
  entrySize := by decide +kernel
  headers := by decide +kernel
  contents := by decide +kernel
  ranges := by decide +kernel
  apart := by decide +kernel
  supported := by
    unfold ELFFile.Supported
    decide +kernel
  room := by decide +kernel
  serial := by decide +kernel
  sysStatus := by decide +kernel

theorem skippingFile_allocates : skippingFile.Allocates ELFFile.alignedHeap := by
  unfold ELFFile.Allocates
  decide +kernel

/-- The test of it. -/
def skippingFiles : Files where
  lines name := if name = "skipping.conf".toList then
    some ["[pre]".toList, "R1 = 1".toList, "[post]".toList, "R1 = 0x48".toList] else none
  contents name := if name = "skipping.bin".toList then some skippingFile else none

def skippingJob : Job where
  programFilename := "skipping.bin".toList
  initializers := [⟨1, 1⟩]
  postRegisters := [⟨1, 72⟩]

/-- Its hart meets emulated instructions only, in unwritable code and spaced. -/
theorem skippingFile_spaced : ∀ i < 3, ∀ g,
    skippingFile.hartRun (initial skippingJob.initializers) i = some g →
      (i = 2 ∨ executes g.word = true) ∧ skippingFile.platform.writable g.pc 1 = false ∧
        (skippingFile.hartRun (initial skippingJob.initializers) (i + 1)).all
          (spaced skippingFile.loaded g) = true := by
  have hall : ∀ i < 3, (skippingFile.hartRun (initial skippingJob.initializers) i).all (fun g =>
      (i == 2 || executes g.word) && !skippingFile.platform.writable g.pc 1 &&
        (skippingFile.hartRun (initial skippingJob.initializers) (i + 1)).all
          (spaced skippingFile.loaded g)) = true := by decide +kernel
  intro i hi g hg
  have hg' := hall i hi
  rw [hg] at hg'
  simpa [and_assoc] using hg'

theorem skipping_executes : ∀ i < 2, ∀ g,
    skippingFile.hartRun (initial skippingJob.initializers) i = some g → executes g.word = true :=
  fun i hi g hg => (skippingFile_spaced i (by omega) g hg).1.resolve_left (by omega)

theorem skipping_code : ∀ i ≤ 2, ∀ g,
    skippingFile.hartRun (initial skippingJob.initializers) i = some g →
      g.stopped skippingFile.platform = false →
        skippingFile.platform.writable g.pc 1 = false :=
  fun i hi g hg _ => (skippingFile_spaced i (by omega) g hg).2.1

theorem skipping_spaced : ∀ i < 2, ∀ g g',
    skippingFile.hartRun (initial skippingJob.initializers) i = some g →
      skippingFile.hartRun (initial skippingJob.initializers) (i + 1) = some g' →
        spaced skippingFile.loaded g g' = true := by
  intro i hi g g' hg hg'
  have hspaced := (skippingFile_spaced i (by omega) g hg).2.2
  rw [hg'] at hspaced
  exact hspaced

/-- It ends at the end marker, with the registers that are expected. -/
theorem skipping_ends : ∃ h, skippingFile.hartRun (initial skippingJob.initializers) 2 = some h ∧
    (skippingFile.platform.readable h.pc 4 = true ∧ h.word = testEndMarker) ∧
      verdict h.registers.read skippingJob.postRegisters = .exit .success := by
  have hend : (skippingFile.hartRun (initial skippingJob.initializers) 2).map (fun h =>
      (skippingFile.platform.readable h.pc 4, h.word,
        verdict h.registers.read skippingJob.postRegisters)) =
      some (true, testEndMarker, .exit .success) := by decide +kernel
  obtain ⟨h, hh, hpair⟩ := Option.map_eq_some_iff.mp hend
  obtain ⟨hreadable, hpair⟩ := Prod.mk.inj hpair
  obtain ⟨hword, hverdict⟩ := Prod.mk.inj hpair
  exact ⟨h, hh, ⟨hreadable, hword⟩, hverdict⟩

theorem skipping_ready : Ready skippingFiles ELFFile.alignedHeap (some "skipping.conf".toList) []
    [] skippingJob skippingFile where
  job := by decide +kernel
  file := rfl
  emulated := skippingFile_emulated
  allocates := skippingFile_allocates
  initialValid := by decide
  postValid := by decide

theorem launcher_of_spaced_skipping : ∃ n, ∀ fuel, n ≤ fuel →
    launcher skippingFiles ELFFile.alignedHeap (some "skipping.conf".toList) [] true [] fuel =
      some (.exit .success) := by
  obtain ⟨h, hh, hends, hverdict⟩ := skipping_ends
  rw [← hverdict]
  exact launcher_of_spaced skipping_ready hh skipping_executes skipping_code skipping_spaced
    (.inr hends) true

end Launcher

end Rv64Emu
