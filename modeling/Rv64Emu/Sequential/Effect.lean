import Rv64Emu.Sequential.NonPipelined

/-! Instructions that leave memory alone. All that they do is a write to one
register and the choice of the next address; an instruction without a target
writes x0. -/
namespace Rv64Emu

namespace ArchState

variable {σ : ArchState} {idEx : IDEXRegisters}

theorem registers_after (σ : ArchState) (hload : idEx.control.memToReg = false)
    (clients : Clients) :
    (σ.after idEx 0 clients).registers = if idEx.control.regWrite then
        σ.registers.writeRegister idEx.rd
          (ExecuteStage.resultOf idEx idEx.readData1 idEx.readData2)
      else σ.registers := by
  unfold after MWBRegisters.commit MWBRegisters.wbValue
  change (if idEx.control.regWrite then σ.registers.writeRegister idEx.rd
    (if idEx.control.memToReg then _ else _) else σ.registers) = _
  rw [hload]
  rfl

/-- An instruction that writes the result of EX. -/
theorem step_of_result {value : RegValue} {pc : MemAddress} (hdecode : σ.decode = .ok idEx)
    (hwrite : idEx.control.regWrite = true) (hload : idEx.control.memToReg = false)
    (hread : idEx.control.memRead = false) (hstore : idEx.control.memWrite = false)
    (hresult : ExecuteStage.resultOf idEx idEx.readData1 idEx.readData2 = value)
    (hpc : σ.nextPC idEx = pc) :
    σ.step = .ok
      { registers := σ.registers.writeRegister idEx.rd value, pc := pc, clients := σ.clients } := by
  rw [step_of_noAccess hdecode hread hstore]
  have hregisters := registers_after σ hload σ.clients
  rw [hwrite, if_pos rfl, hresult] at hregisters
  rw [← hregisters, ← hpc]
  rfl

/-- An instruction that writes no register. -/
theorem step_of_noResult {pc : MemAddress} (hdecode : σ.decode = .ok idEx)
    (hwrite : idEx.control.regWrite = false) (hload : idEx.control.memToReg = false)
    (hread : idEx.control.memRead = false) (hstore : idEx.control.memWrite = false)
    (hpc : σ.nextPC idEx = pc) :
    σ.step = .ok { registers := σ.registers, pc := pc, clients := σ.clients } := by
  rw [step_of_noAccess hdecode hread hstore]
  have hregisters := registers_after σ hload σ.clients
  rw [hwrite, if_neg Bool.false_ne_true] at hregisters
  have hsame : (⟨(σ.after idEx 0 σ.clients).registers, σ.nextPC idEx, σ.clients⟩ : ArchState) =
      ⟨σ.registers, pc, σ.clients⟩ := by rw [hregisters, hpc]
  exact congrArg Except.ok hsame

end ArchState

namespace Processor

/-- The next five cycles write `value` to `rd`, continue at `pc` and do nothing else. -/
def Writes (s : Processor) (rd : RegNumber) (value : RegValue) (pc : MemAddress) : Prop :=
  ∃ t, Runs.steps next 5 s = some t ∧ t.pc = pc ∧
    (∀ regnum, t.regfile.registers.readRegister regnum =
      if regnum = rd ∧ rd ≠ 0 then value else s.regfile.registers.readRegister regnum) ∧
    t.bus.clients = s.bus.clients

/-- What five cycles write is what the step writes. -/
theorem writes_iff {s : Processor} (hs : AtStage 0 s) (hhalt : s.shouldHalt = false)
    {rd : RegNumber} {value value' : RegValue} {pc pc' : MemAddress}
    (hstep : s.arch.step = .ok
      { registers := s.regfile.registers.writeRegister rd value'
        pc := pc'
        clients := s.bus.clients }) :
    Writes s rd value pc ↔ pc' = pc ∧ (value' = value ∨ rd = 0) := by
  obtain ⟨t, ht, -, harch⟩ :=
    instruction_steps hs (ArchState.next_eq_some_iff.mpr ⟨hhalt, hstep⟩) hhalt
  have hpc : t.pc = pc' := congrArg ArchState.pc harch
  have hregisters : ∀ regnum, t.regfile.registers.readRegister regnum =
      if rd = regnum ∧ rd ≠ 0 then value' else s.regfile.registers.readRegister regnum := by
    intro regnum
    rw [show t.regfile.registers = _ from congrArg ArchState.registers harch,
      Registers.readRegister_writeRegister]
  constructor
  · rintro ⟨t', ht', hpc', hregisters', -⟩
    obtain rfl := Option.some.inj (ht.symm.trans ht')
    refine ⟨hpc.symm.trans hpc', ?_⟩
    by_cases hrd : rd = 0
    · exact .inr hrd
    · have hread := hregisters rd
      rw [hregisters' rd, if_pos ⟨rfl, hrd⟩, if_pos ⟨rfl, hrd⟩] at hread
      exact .inl hread.symm
  · rintro ⟨hpc', hvalue⟩
    refine ⟨t, ht, hpc.trans hpc', fun regnum => ?_, congrArg ArchState.clients harch⟩
    rw [hregisters regnum]
    by_cases htarget : rd = regnum ∧ rd ≠ 0
    · have htarget' : regnum = rd ∧ rd ≠ 0 := ⟨htarget.1.symm, htarget.2⟩
      rw [if_pos htarget, if_pos htarget']
      obtain heq | hzero := hvalue
      · exact heq
      · exact absurd hzero htarget.2
    · have htarget' : ¬(regnum = rd ∧ rd ≠ 0) := fun h => htarget ⟨h.1.symm, h.2⟩
      rw [if_neg htarget, if_neg htarget']

/-- The word that a state between two instructions is about to execute. -/
theorem Boundary.fetch {program : Program} {registers : Registers} {s : Processor}
    {word : InstructionWord} {table : InstructionWord → Option ι} {i : ι}
    (h : Boundary program registers s) (hword : s.bus.clients.fetchWord s.pc = .ok word)
    (hmarker : table testEndMarker = none) (hlisted : table word = some i) :
    AtStage 0 s ∧ s.shouldHalt = false ∧ s.arch.fetch = .ok word :=
  ⟨h.atStage.1, h.atStage.2, ArchState.fetch_of_listed hmarker hlisted hword⟩

end Processor

end Rv64Emu
