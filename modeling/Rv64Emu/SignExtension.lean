import Rv64Emu.Disassembly.Lines
import Rv64Emu.Library.Rvc

/-! The two helpers named `signExtend`. That of the decoder subtracts in 64
bits, that of the disassembler in 32, so that the cast of a negative field
leaves the upper half clear. The disassembler prints the immediate of one
compressed instruction through it. -/
namespace Rv64Emu.SignExtension

open Formatter

/-- Both helpers yield the two's complement value of the field. -/
structure Alike (value : BitVec 32) (bits : Nat) : Prop where
  same : Formatter.signExtend value bits = Rv64Emu.signExtend (value.setWidth 64) bits
  twosComplement : (Rv64Emu.signExtend (value.setWidth 64) bits).toInt = (value.setWidth bits).toInt

/-- The text for a compressed instruction is that of its expansion. -/
def PrintsExpansion (w : InstructionWord) : Prop :=
  ∀ e, Rvc.expand (w.setWidth 16) = some e →
    print ⟨w⟩ = emitUnaryOp e.mnemonic e.rd e.rs1 e.imm ++ "  \t(compressed)"

/-- A `c.addiw` with a negative immediate. -/
def IsNegativeAddiw (w : InstructionWord) : Prop :=
  w.extractLsb' 0 2 = 0b01 ∧ w.extractLsb' 13 3 = 0b001 ∧ w.getLsbD 12 = true

instance (w : InstructionWord) : Decidable (IsNegativeAddiw w) :=
  inferInstanceAs (Decidable (_ ∧ _))

/-! ### The helpers -/

theorem formatter_signExtend_eq {n : Nat} (hn : 0 < n) (hn32 : n ≤ 32) (x : BitVec n) :
    Formatter.signExtend (x.setWidth 32) n = (x.signExtend 32).setWidth 64 :=
  congrArg (BitVec.setWidth 64) (flip_sub_eq hn hn32 x)

/-- Widening in two steps loses the sign, unless it is clear. -/
theorem setWidth_signExtend_eq_iff {n : Nat} (hn32 : n ≤ 32) (x : BitVec n) :
    (x.signExtend 32).setWidth 64 = x.signExtend 64 ↔ x.msb = false := by
  constructor
  · intro h
    have hbit := congrArg (fun v : BitVec 64 => v.getLsbD 63) h
    rw [BitVec.getLsbD_setWidth, BitVec.getLsbD_signExtend, BitVec.getLsbD_signExtend,
      if_neg (show ¬63 < n by omega)] at hbit
    simpa using hbit.symm
  · intro h
    rw [BitVec.signExtend_eq_setWidth_of_msb_false h, BitVec.signExtend_eq_setWidth_of_msb_false h,
      BitVec.setWidth_setWidth (by omega)]

theorem alike_iff_msb {n : Nat} (hn : 0 < n) (hn32 : n ≤ 32) (x : BitVec n) :
    Alike (x.setWidth 32) n ↔ x.msb = false := by
  have hdecoder : Rv64Emu.signExtend ((x.setWidth 32).setWidth 64) n = x.signExtend 64 := by
    rw [BitVec.setWidth_setWidth (by omega)]
    exact signExtend_eq hn (by omega) x
  rw [← setWidth_signExtend_eq_iff hn32, ← formatter_signExtend_eq hn hn32]
  constructor
  · intro h
    exact h.same.trans hdecoder
  · intro h
    refine ⟨h.trans hdecoder.symm, ?_⟩
    rw [hdecoder, BitVec.toInt_signExtend_of_le (by omega), BitVec.setWidth_setWidth_of_le x hn32,
      BitVec.setWidth_eq]

/-! ### The printed immediates -/

section

variable (w : InstructionWord)

theorem quadrant_eq : low16 w &&& 0x3 = (Rvc.quadrant (w.setWidth 16)).setWidth 16 := by
  apply BitVec.eq_of_getLsbD_eq
  intro i hi
  simp only [low16, Rvc.quadrant]
  interval_cases i <;> simp

theorem funct3_eq : (low16 w >>> 13) &&& 0x7 = (Rvc.funct3 (w.setWidth 16)).setWidth 16 := by
  apply BitVec.eq_of_getLsbD_eq
  intro i hi
  simp only [low16, Rvc.funct3]
  interval_cases i <;> simp

theorem target_eq : ((low16 w >>> 7) &&& 0x1F).setWidth 5 = Rvc.target (w.setWidth 16) := by
  apply BitVec.eq_of_getLsbD_eq
  intro i hi
  simp only [low16, Rvc.target]
  interval_cases i <;> simp

theorem imm6_eq : ((low16 w >>> 12) &&& 0x1) <<< 5 ||| ((low16 w >>> 2) &&& 0x1F) =
    (Rvc.imm6 (w.setWidth 16)).setWidth 16 := by
  apply BitVec.eq_of_getLsbD_eq
  intro i hi
  simp only [low16, Rvc.imm6, BitVec.getLsbD_or, BitVec.getLsbD_shiftLeft, BitVec.getLsbD_and,
    BitVec.getLsbD_ushiftRight, BitVec.getLsbD_setWidth, BitVec.getLsbD_append,
    BitVec.getLsbD_extractLsb']
  interval_cases i <;> simp

theorem nzuimm_eq : ((low16 w >>> 11) &&& 0x3) <<< 4 ||| ((low16 w >>> 7) &&& 0xF) <<< 6 |||
      ((low16 w >>> 6) &&& 0x1) <<< 2 ||| ((low16 w >>> 5) &&& 0x1) <<< 3 =
    (Rvc.nzuimm (w.setWidth 16)).setWidth 16 := by
  apply BitVec.eq_of_getLsbD_eq
  intro i hi
  simp only [low16, Rvc.nzuimm, BitVec.getLsbD_or, BitVec.getLsbD_shiftLeft, BitVec.getLsbD_and,
    BitVec.getLsbD_ushiftRight, BitVec.getLsbD_setWidth, BitVec.getLsbD_append,
    BitVec.getLsbD_extractLsb']
  interval_cases i <;> simp

/-- The offset of the register number turns into two leading bits. -/
theorem popular_eq : (((low16 w >>> 2) &&& 0x7) + 8).setWidth 5 =
    Rvc.popular ((w.setWidth 16).extractLsb' 2 3) := by
  have hfield : (low16 w >>> 2) &&& 0x7 = ((w.setWidth 16).extractLsb' 2 3).setWidth 16 := by
    apply BitVec.eq_of_getLsbD_eq
    intro i hi
    simp only [low16]
    interval_cases i <;> simp
  have hoffset : ∀ field : BitVec 3, (field.setWidth 16 + 8).setWidth 5 = Rvc.popular field := by
    decide
  rw [hfield, hoffset]

/-- The immediate that is printed for an expansion: only that of `c.addiw` goes
through 32 bits. -/
def printedImm (e : Rvc.Expansion) : BitVec 64 :=
  if Rvc.quadrant (w.setWidth 16) = 0b01 then (e.imm.setWidth 32).setWidth 64 else e.imm

theorem format_of_expand {e : Rvc.Expansion} (h : Rvc.expand (w.setWidth 16) = some e) :
    formatCompressedInstruction (low16 w) =
      .ok (emitUnaryOp e.mnemonic e.rd e.rs1 (printedImm w e) ++ "  \t(compressed)") := by
  unfold formatCompressedInstruction printedImm
  rw [quadrant_eq, funct3_eq, popular_eq, target_eq, imm6_eq, nzuimm_eq]
  obtain ⟨hquadrant, hfunct3, rfl⟩ | ⟨hquadrant, hfunct3, rfl⟩ | ⟨hquadrant, hfunct3, rfl⟩ :=
    Rvc.expand_eq_some_iff.mp h
  · rw [hquadrant, hfunct3, if_pos (by decide), if_neg (by decide)]
    change Except.ok _ = _
    rw [BitVec.setWidth_setWidth (by decide)]
    rfl
  · have himm : Formatter.signExtend (((Rvc.imm6 (w.setWidth 16)).setWidth 16).setWidth 32) 6 =
        ((Rvc.addiw (w.setWidth 16)).imm.setWidth 32).setWidth 64 := by
      rw [BitVec.setWidth_setWidth (by decide), formatter_signExtend_eq (by decide) (by decide)]
      refine congrArg (BitVec.setWidth 64) ?_
      apply BitVec.eq_of_getLsbD_eq
      intro i hi
      rw [Rvc.addiw, BitVec.getLsbD_setWidth, BitVec.getLsbD_signExtend, BitVec.getLsbD_signExtend]
      simp [hi, show i < 64 by omega]
    rw [hquadrant, hfunct3, if_neg (by decide), if_pos (by decide), if_pos rfl, ← himm]
    rfl
  · rw [hquadrant, hfunct3, if_neg (by decide), if_neg (by decide), if_pos (by decide),
      if_neg (by decide)]
    change Except.ok _ = _
    rw [BitVec.setWidth_setWidth (by decide)]
    rfl

theorem print_of_expand {e : Rvc.Expansion} (h : Rvc.expand (w.setWidth 16) = some e) :
    print ⟨w⟩ = emitUnaryOp e.mnemonic e.rd e.rs1 (printedImm w e) ++ "  \t(compressed)" := by
  have hword : w &&& 0x3 = (Rvc.quadrant (w.setWidth 16)).setWidth 32 := by
    apply BitVec.eq_of_getLsbD_eq
    intro i hi
    simp only [Rvc.quadrant]
    interval_cases i <;> simp
  have hlow : w &&& 0x3 ≠ 0x3 := by
    rw [hword]
    obtain ⟨hquadrant, -⟩ | ⟨hquadrant, -⟩ | ⟨hquadrant, -⟩ := Rvc.expand_eq_some_iff.mp h <;>
    · rw [hquadrant]
      decide
  unfold print format
  rw [if_pos hlow, format_of_expand w h]

end

theorem emitUnaryOp_inj {mnemonic : String} {rd rs1 : RegNumber} {imm imm' : BitVec 64} :
    emitUnaryOp mnemonic rd rs1 imm ++ "  \t(compressed)" =
      emitUnaryOp mnemonic rd rs1 imm' ++ "  \t(compressed)" ↔ imm = imm' := by
  constructor
  · intro h
    have htext := congrArg String.toList h
    rw [String.toList_append, String.toList_append] at htext
    have hline := List.append_cancel_right htext
    simp only [emitUnaryOp, String.toList_append] at hline
    exact Disassembly.formatImmediate_injective (List.append_cancel_left hline)
  · rintro rfl
    rfl

/-- Only the sign of a `c.addiw` is lost. -/
theorem printsExpansion_iff (w : InstructionWord) : PrintsExpansion w ↔ ¬IsNegativeAddiw w := by
  have hlow : Rvc.quadrant (w.setWidth 16) = w.extractLsb' 0 2 := by
    apply BitVec.eq_of_getLsbD_eq
    intro i hi
    interval_cases i <;> simp [Rvc.quadrant]
  have hhigh : Rvc.funct3 (w.setWidth 16) = w.extractLsb' 13 3 := by
    apply BitVec.eq_of_getLsbD_eq
    intro i hi
    interval_cases i <;> simp [Rvc.funct3]
  have hsign : (Rvc.imm6 (w.setWidth 16)).msb = w.getLsbD 12 := by
    rw [BitVec.msb_eq_getLsbD_last, Rvc.imm6, BitVec.getLsbD_append]
    simp
  have hclear : ∀ x : BitVec 6,
      ((x.signExtend 64).setWidth 32).setWidth 64 = x.signExtend 64 ↔ x.msb = false := by
    decide
  unfold IsNegativeAddiw
  rw [← hlow, ← hhigh, ← hsign]
  constructor
  · rintro h ⟨hquadrant, hfunct3, hnegative⟩
    have hexpand := Rvc.expand_eq_some_iff.mpr (.inr (.inl ⟨hquadrant, hfunct3, rfl⟩))
    have himm := emitUnaryOp_inj.mp ((print_of_expand w hexpand).symm.trans (h _ hexpand))
    rw [printedImm, if_pos hquadrant] at himm
    exact absurd hnegative (Bool.eq_false_iff.mp ((hclear _).mp himm))
  · intro h e hexpand
    rw [print_of_expand w hexpand, emitUnaryOp_inj]
    unfold printedImm
    split
    next hquadrant =>
      obtain ⟨hother, -⟩ | ⟨-, hfunct3, rfl⟩ | ⟨hother, -⟩ := Rvc.expand_eq_some_iff.mp hexpand
      · exact absurd (hother.symm.trans hquadrant) (by decide)
      · exact (hclear _).mpr (Bool.eq_false_iff.mpr fun hnegative => h ⟨hquadrant, hfunct3, hnegative⟩)
      · exact absurd (hother.symm.trans hquadrant) (by decide)
    next => rfl

/-- The helpers agree on the fields whose sign bit is clear, and the printed
immediates are right unless one is negative. -/
theorem alike_iff {bits : Nat} {value : BitVec 32} (hpos : 0 < bits) (hle : bits ≤ 32)
    (hvalue : value.toNat < 2 ^ bits) (w : InstructionWord) :
    (Alike value bits ↔ value.toNat < 2 ^ (bits - 1)) ∧
      (PrintsExpansion w ↔ ¬IsNegativeAddiw w) := by
  refine ⟨?_, printsExpansion_iff w⟩
  have hfield : value = (value.setWidth bits).setWidth 32 := by
    apply BitVec.eq_of_toNat_eq
    rw [BitVec.toNat_setWidth, BitVec.toNat_setWidth, Nat.mod_eq_of_lt hvalue,
      Nat.mod_eq_of_lt value.isLt]
  have hmsb : (value.setWidth bits).msb = false ↔ value.toNat < 2 ^ (bits - 1) := by
    rw [BitVec.msb_eq_decide, decide_eq_false_iff_not, Nat.not_le, BitVec.toNat_setWidth,
      Nat.mod_eq_of_lt hvalue]
  rw [← hmsb, ← alike_iff_msb hpos hle, ← hfield]

/-- `c.addiw r6, -1`. -/
theorem minusOne_mismatches :
    ¬((∀ (bits : Nat) (value : BitVec 32), 0 < bits → bits ≤ 32 → value.toNat < 2 ^ bits →
      Alike value bits) ∧ ∀ w : InstructionWord, PrintsExpansion w) := by
  rintro ⟨-, hprints⟩
  exact (printsExpansion_iff 0x337d).mp (hprints 0x337d) (by decide)

/-- The immediate 16 of six bits, and the word that carries it. -/
theorem alike_iff_sixteen : (Alike 16 6 ↔ (16 : BitVec 32).toNat < 2 ^ (6 - 1)) ∧
    (PrintsExpansion 0x2341 ↔ ¬IsNegativeAddiw 0x2341) :=
  alike_iff (by decide) (by decide) (by decide) 0x2341

end Rv64Emu.SignExtension
