import Rv64Emu.Machine.Decoder
import Mathlib.Tactic.IntervalCases

/-! The shift-and-mask getters of the decoder as fields of the word, and its
sign extension as the one of bit vectors. -/
namespace Rv64Emu

theorem xor_two_pow {y m : Nat} (h : y < 2 ^ m) : y ^^^ 2 ^ m = 2 ^ m + y := by
  apply Nat.eq_of_testBit_eq
  intro j
  rw [Nat.testBit_xor, Nat.testBit_two_pow]
  rcases Nat.lt_trichotomy j m with hj | rfl | hj
  · rw [Nat.testBit_two_pow_add_gt hj, decide_eq_false (by omega), Bool.xor_false]
  · rw [Nat.testBit_two_pow_add_eq, decide_eq_true rfl, Bool.xor_true]
  · have hpow : 2 ^ (m + 1) ≤ 2 ^ j := Nat.pow_le_pow_right (by decide) hj
    have hsum : 2 ^ (m + 1) = 2 ^ m + 2 ^ m := by
      rw [Nat.pow_succ]
      omega
    rw [Nat.testBit_lt_two_pow (by omega), Nat.testBit_lt_two_pow (by omega),
      decide_eq_false (by omega), Bool.xor_false]

/-- Flipping the sign bit and subtracting its weight is sign extension, at any width. -/
theorem flip_sub_eq {n w : Nat} (hn : 0 < n) (hnw : n ≤ w) (x : BitVec n) :
    (x.setWidth w ^^^ (1 : BitVec w) <<< (n - 1)) - (1 : BitVec w) <<< (n - 1) =
      x.signExtend w := by
  obtain ⟨m, rfl⟩ : ∃ m, n = m + 1 := ⟨n - 1, by omega⟩
  have hx := x.isLt
  have hm : 2 ^ (m + 1) = 2 ^ m + 2 ^ m := by
    rw [Nat.pow_succ]
    omega
  have hw : 2 ^ (m + 1) ≤ 2 ^ w := Nat.pow_le_pow_right (by decide) hnw
  have hpos : 0 < 2 ^ m := Nat.two_pow_pos m
  have hmask : ((1 : BitVec w) <<< m).toNat = 2 ^ m := by
    rw [BitVec.toNat_shiftLeft, Nat.shiftLeft_eq]
    change 1 % 2 ^ w * 2 ^ m % 2 ^ w = 2 ^ m
    rw [Nat.mod_eq_of_lt (show 1 < 2 ^ w by omega), Nat.one_mul, Nat.mod_eq_of_lt (by omega)]
  apply BitVec.eq_of_toNat_eq
  rw [BitVec.toNat_signExtend, BitVec.msb_eq_decide, Nat.add_sub_cancel, BitVec.toNat_sub,
    BitVec.toNat_xor, BitVec.toNat_setWidth, hmask,
    Nat.mod_eq_of_lt (show x.toNat < 2 ^ w by omega)]
  by_cases hlow : x.toNat < 2 ^ m
  · rw [xor_two_pow hlow, decide_eq_false (by omega)]
    simp only [Bool.false_eq_true, if_false]
    rw [show 2 ^ w - 2 ^ m + (2 ^ m + x.toNat) = x.toNat + 2 ^ w by omega, Nat.add_mod_right,
      Nat.mod_eq_of_lt (by omega)]
    rfl
  · obtain ⟨y, hy⟩ : ∃ y, x.toNat = 2 ^ m + y := ⟨x.toNat - 2 ^ m, by omega⟩
    have hylt : y < 2 ^ m := by omega
    have hclear : x.toNat ^^^ 2 ^ m = y := by
      rw [hy, ← xor_two_pow hylt, Nat.xor_assoc, Nat.xor_self, Nat.xor_zero]
    rw [hclear, decide_eq_true (by omega), if_pos rfl, Nat.mod_eq_of_lt (by omega)]
    omega

theorem signExtend_eq {n : Nat} (hn : 0 < n) (hn64 : n ≤ 64) (x : BitVec n) :
    signExtend (x.setWidth 64) n = x.signExtend 64 := flip_sub_eq hn hn64 x

theorem funct3_cases : ∀ funct3 : BitVec 3, funct3 = 0 ∨ funct3 = 1 ∨ funct3 = 2 ∨ funct3 = 3 ∨
    funct3 = 4 ∨ funct3 = 5 ∨ funct3 = 6 ∨ funct3 = 7 := by decide

namespace InstructionDecoder

variable (w : InstructionWord)

theorem getRS1_eq : getRS1 ⟨w⟩ = w.extractLsb' 15 5 := by
  apply BitVec.eq_of_getLsbD_eq
  intro i hi
  simp only [getRS1]
  interval_cases i <;> simp

theorem getRS2_eq : getRS2 ⟨w⟩ = w.extractLsb' 20 5 := by
  apply BitVec.eq_of_getLsbD_eq
  intro i hi
  simp only [getRS2]
  interval_cases i <;> simp

theorem getRD_eq : getRD ⟨w⟩ = w.extractLsb' 7 5 := by
  apply BitVec.eq_of_getLsbD_eq
  intro i hi
  simp only [getRD]
  interval_cases i <;> simp

theorem getFunct3_eq : getFunct3 ⟨w⟩ = w.extractLsb' 12 3 := by
  apply BitVec.eq_of_getLsbD_eq
  intro i hi
  simp only [getFunct3]
  interval_cases i <;> simp

theorem getFunct7_eq : getFunct7 ⟨w⟩ = w.extractLsb' 25 7 := by
  apply BitVec.eq_of_getLsbD_eq
  intro i hi
  simp only [getFunct7]
  interval_cases i <;> simp

theorem getOpcode_eq : getOpcode ⟨w⟩ = Opcode.ofBits (w.extractLsb' 0 7) := by
  refine congrArg Opcode.ofBits ?_
  apply BitVec.eq_of_getLsbD_eq
  intro i hi
  interval_cases i <;> simp

theorem getImmediateI_eq : getImmediateI ⟨w⟩ = (w.extractLsb' 20 12).signExtend 64 := by
  have hfield : (w >>> 20) &&& 0xFFF = (w.extractLsb' 20 12).setWidth 32 := by
    apply BitVec.eq_of_getLsbD_eq
    intro i hi
    interval_cases i <;> simp
  rw [← signExtend_eq (by decide) (by decide)]
  change signExtend (((w >>> 20) &&& 0xFFF).setWidth 64) 12 = _
  rw [hfield, BitVec.setWidth_setWidth (by decide)]

/-- The two halves of a store offset. -/
theorem getImmediateS_eq :
    getImmediateS ⟨w⟩ = (w.extractLsb' 25 7 ++ w.extractLsb' 7 5).signExtend 64 := by
  have hfield : ((w >>> 25) &&& 0x7F) <<< 5 ||| ((w >>> 7) &&& 0x1F) =
      (w.extractLsb' 25 7 ++ w.extractLsb' 7 5).setWidth 32 := by
    apply BitVec.eq_of_getLsbD_eq
    intro i hi
    simp only [BitVec.getLsbD_or, BitVec.getLsbD_shiftLeft, BitVec.getLsbD_and,
      BitVec.getLsbD_ushiftRight, BitVec.getLsbD_setWidth, BitVec.getLsbD_append,
      BitVec.getLsbD_extractLsb']
    interval_cases i <;> simp
  rw [← signExtend_eq (by decide) (by decide)]
  change signExtend ((((w >>> 25) &&& 0x7F) <<< 5 ||| ((w >>> 7) &&& 0x1F)).setWidth 64) 12 = _
  rw [hfield, BitVec.setWidth_setWidth (by decide)]

/-- The scattered bits of a branch offset. -/
theorem getImmediateB_eq : getImmediateB ⟨w⟩ =
    (w.extractLsb' 31 1 ++ w.extractLsb' 7 1 ++ w.extractLsb' 25 6 ++ w.extractLsb' 8 4 ++
      0#1).signExtend 64 := by
  have hfield : ((w >>> 31) &&& 0x1) <<< 12 ||| ((w >>> 7) &&& 0x1) <<< 11 |||
      ((w >>> 25) &&& 0x3F) <<< 5 ||| ((w >>> 8) &&& 0xF) <<< 1 =
      (w.extractLsb' 31 1 ++ w.extractLsb' 7 1 ++ w.extractLsb' 25 6 ++ w.extractLsb' 8 4 ++
        0#1).setWidth 32 := by
    apply BitVec.eq_of_getLsbD_eq
    intro i hi
    simp only [BitVec.getLsbD_or, BitVec.getLsbD_shiftLeft, BitVec.getLsbD_and,
      BitVec.getLsbD_ushiftRight, BitVec.getLsbD_setWidth, BitVec.getLsbD_append,
      BitVec.getLsbD_extractLsb']
    interval_cases i <;> simp
  rw [← signExtend_eq (by decide) (by decide)]
  change signExtend ((((w >>> 31) &&& 0x1) <<< 12 ||| ((w >>> 7) &&& 0x1) <<< 11 |||
    ((w >>> 25) &&& 0x3F) <<< 5 ||| ((w >>> 8) &&& 0xF) <<< 1).setWidth 64) 13 = _
  rw [hfield, BitVec.setWidth_setWidth (by decide)]

/-- The scattered bits of a jump offset. -/
theorem getImmediateJ_eq : getImmediateJ ⟨w⟩ =
    (w.extractLsb' 31 1 ++ w.extractLsb' 12 8 ++ w.extractLsb' 20 1 ++ w.extractLsb' 21 10 ++
      0#1).signExtend 64 := by
  have hfield : ((w >>> 31) &&& 0x1) <<< 20 ||| ((w >>> 21) &&& 0x3FF) <<< 1 |||
      ((w >>> 20) &&& 0x1) <<< 11 ||| ((w >>> 12) &&& 0xFF) <<< 12 =
      (w.extractLsb' 31 1 ++ w.extractLsb' 12 8 ++ w.extractLsb' 20 1 ++ w.extractLsb' 21 10 ++
        0#1).setWidth 32 := by
    apply BitVec.eq_of_getLsbD_eq
    intro i hi
    simp only [BitVec.getLsbD_or, BitVec.getLsbD_shiftLeft, BitVec.getLsbD_and,
      BitVec.getLsbD_ushiftRight, BitVec.getLsbD_setWidth, BitVec.getLsbD_append,
      BitVec.getLsbD_extractLsb']
    interval_cases i <;> simp
  rw [← signExtend_eq (by decide) (by decide)]
  change signExtend ((((w >>> 31) &&& 0x1) <<< 20 ||| ((w >>> 21) &&& 0x3FF) <<< 1 |||
    ((w >>> 20) &&& 0x1) <<< 11 ||| ((w >>> 12) &&& 0xFF) <<< 12).setWidth 64) 21 = _
  rw [hfield, BitVec.setWidth_setWidth (by decide)]

/-- The upper immediate keeps its place, and is not sign-extended. -/
theorem getImmediateU_eq :
    getImmediateU ⟨w⟩ = (w.extractLsb' 12 20 ++ 0#12).setWidth 64 := by
  have hfield : w &&& 0xFFFFF000 = w.extractLsb' 12 20 ++ 0#12 := by
    apply BitVec.eq_of_getLsbD_eq
    intro i hi
    rw [BitVec.getLsbD_and, BitVec.getLsbD_append, BitVec.getLsbD_extractLsb']
    interval_cases i <;> simp
  exact congrArg (BitVec.setWidth 64) hfield

end InstructionDecoder

end Rv64Emu
