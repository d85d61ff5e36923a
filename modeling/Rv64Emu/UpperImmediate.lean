import Rv64Emu.Library.Rv64i
import Rv64Emu.Machine.Fields
import Rv64Emu.Sequential.Effect

/-! LUI and AUIPC against their RV64I results. The immediate of the decoder is
widened without its sign, so that the two agree below 2^31 only. -/
namespace Rv64Emu.UpperImmediate

open Processor

/-- The immediate as the decoder has it. -/
def widened (w : InstructionWord) : RegValue := (w.extractLsb' 12 20 ++ 0#12).setWidth 64

/-- What EX computes from it. -/
def computed (w : InstructionWord) (i : Rv64i.Upper) (pc : MemAddress) : RegValue :=
  if i.pcRelative then pc + widened w else widened w

section

variable {w : InstructionWord} {i : Rv64i.Upper} (h : Rv64i.decodeUpper w = some i)

include h

theorem decodeUpper_fields :
    InstructionDecoder.getOpcode ⟨w⟩ = (if i.pcRelative then .auipc else .lui) ∧
      i.rd = InstructionDecoder.getRD ⟨w⟩ ∧
      i.value = (w.extractLsb' 12 20 ++ 0#12).signExtend 64 := by
  have hopcode := InstructionDecoder.getOpcode_eq w
  rw [InstructionDecoder.getRD_eq]
  unfold Rv64i.decodeUpper at h
  simp only at h
  split at h
  · rename_i hlui
    cases h
    rw [hlui] at hopcode
    exact ⟨hopcode, rfl, rfl⟩
  · split at h
    · rename_i hauipc
      cases h
      rw [hauipc] at hopcode
      exact ⟨hopcode, rfl, rfl⟩
    · cases h

theorem step_of_decodeUpper {σ : ArchState} (hfetch : σ.fetch = .ok w) :
    σ.step = .ok
      { registers := σ.registers.writeRegister i.rd (computed w i σ.pc)
        pc := σ.pc + 4
        clients := σ.clients } := by
  obtain ⟨hopcode, hrd, -⟩ := decodeUpper_fields h
  have himm : InstructionDecoder.getImmediate ⟨w⟩ = .ok (widened w) := by
    unfold widened
    rw [← InstructionDecoder.getImmediateU_eq]
    unfold InstructionDecoder.getImmediate InstructionDecoder.getInstructionType
    rw [hopcode]
    cases i.pcRelative <;> rfl
  have hcontrol : ControlSignals.setFromInstruction ⟨w⟩ =
      { regWrite := true, aluSrc := true, aluOp := .add } := by
    unfold ControlSignals.setFromInstruction
    rw [hopcode]
    cases i.pcRelative <;> rfl
  have hdecode := ArchState.decode_ok_iff.mpr ⟨w, hfetch, decodeAt_ok_iff.mpr ⟨_, himm, rfl⟩⟩
  rw [hcontrol, hopcode] at hdecode
  rw [hrd]
  refine ArchState.step_of_result hdecode rfl rfl rfl rfl ?_ rfl
  unfold computed
  cases i.pcRelative with
  | true => rfl
  | false => exact BitVec.zero_add (widened w)

end

theorem signExtend_eq_setWidth_iff {n : Nat} (hn : n < 64) (x : BitVec n) :
    x.signExtend 64 = x.setWidth 64 ↔ x.msb = false := by
  constructor
  · intro h
    have htop := congrArg (fun y : BitVec 64 => y.getLsbD 63) h
    have hlow : ¬63 < n := by omega
    simp only [BitVec.getLsbD_signExtend, BitVec.getLsbD_setWidth, hlow] at htop
    rw [BitVec.getLsbD_of_ge x 63 (by omega)] at htop
    simpa using htop
  · exact fun h => BitVec.signExtend_eq_setWidth_of_msb_false h

theorem computed_eq_iff {w : InstructionWord} {i : Rv64i.Upper}
    (h : Rv64i.decodeUpper w = some i) (pc : MemAddress) :
    computed w i pc = i.result pc ↔ w.getLsbD 31 = false := by
  obtain ⟨-, -, hvalue⟩ := decodeUpper_fields h
  have hmsb : (w.extractLsb' 12 20 ++ 0#12).msb = w.getLsbD 31 := by
    rw [BitVec.msb_eq_getLsbD_last, BitVec.getLsbD_append, BitVec.getLsbD_extractLsb']
    rfl
  rw [← hmsb, ← signExtend_eq_setWidth_iff (by decide), ← hvalue]
  unfold computed Rv64i.Upper.result
  cases i.pcRelative with
  | false => exact eq_comm
  | true =>
    simp only [if_true]
    rw [BitVec.add_right_inj]
    exact eq_comm

/-! ### The next five cycles -/

/-- The next five cycles do what RV64I prescribes for `i` and nothing else. -/
def MatchesUpper (s : Processor) (i : Rv64i.Upper) : Prop :=
  Writes s i.rd (i.result s.pc) (s.pc + 4)

theorem matchesUpper_iff {program : Program} {registers : Registers} {s : Processor}
    {word : InstructionWord} {i : Rv64i.Upper} (hs : Boundary program registers s)
    (hword : s.bus.clients.fetchWord s.pc = .ok word) (hdecode : Rv64i.decodeUpper word = some i) :
    MatchesUpper s i ↔ word.getLsbD 31 = false ∨ i.rd = 0 := by
  obtain ⟨hstage, hhalt, hfetch⟩ := hs.fetch hword (by decide +kernel) hdecode
  unfold MatchesUpper
  rw [writes_iff hstage hhalt (step_of_decodeUpper hdecode hfetch)]
  change s.pc + 4 = s.pc + 4 ∧ (computed word i s.pc = i.result s.pc ∨ i.rd = 0) ↔ _
  rw [computed_eq_iff hdecode]
  simp

/-- `lui x1, 0x80000`. -/
def negative : Program :=
  { memories := [Memory.ofWords false 0x1000 [0x800000b7]]
    entrypoint := 0x1000 }

def negativeBoot : Processor := boot negative false (Vector.replicate 31 0)

/-- The immediate has bit 31 set, and no other bit above it. -/
theorem negative_mismatches : ¬∀ (program : Program) (registers : Registers) (s : Processor)
    (word : InstructionWord) (i : Rv64i.Upper), Boundary program registers s →
    s.bus.clients.fetchWord s.pc = .ok word → Rv64i.decodeUpper word = some i → i.rd ≠ 0 →
    MatchesUpper s i := by
  intro h
  obtain ⟨t, ht, -, hregisters, -⟩ := h negative (Vector.replicate 31 0) negativeBoot 0x800000b7
    ⟨false, 1, 0xffffffff80000000⟩ (boundary_boot _ _) (by decide +kernel) (by decide +kernel)
    (by decide)
  have hread : ((Runs.steps next 5 negativeBoot).map fun t =>
      t.regfile.registers.readRegister 1) = some 0x80000000 := by decide +kernel
  rw [ht, Option.map_some, hregisters 1] at hread
  revert hread
  decide

/-- `auipc x1, 0x7ffff`. -/
def positive : Program :=
  { memories := [Memory.ofWords false 0x1000 [0x7ffff097]]
    entrypoint := 0x1000 }

def positiveBoot : Processor := boot positive false (Vector.replicate 31 0)

theorem matchesUpper_iff_positive : MatchesUpper positiveBoot ⟨true, 1, 0x7ffff000⟩ ↔
    (0x7ffff097 : InstructionWord).getLsbD 31 = false ∨ (1 : RegNumber) = 0 :=
  matchesUpper_iff (boundary_boot positive (Vector.replicate 31 0))
    (show positiveBoot.bus.clients.fetchWord positiveBoot.pc = .ok 0x7ffff097 by decide +kernel)
    (by decide +kernel)

end Rv64Emu.UpperImmediate
