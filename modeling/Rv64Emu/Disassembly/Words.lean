import Rv64Emu.Disassembly.Lines

/-! Every field of the word is printed, fixed by the mnemonic, or both, except
for funct3 of JALR. -/
namespace Rv64Emu.Disassembly

/-- The words agree on `n` bits from `start` on. -/
def AgreeOn (start n : Nat) (w w' : InstructionWord) : Prop :=
  w.extractLsb' start n = w'.extractLsb' start n

section

variable {w w' : InstructionWord}

theorem agreeOn_iff {start n : Nat} :
    AgreeOn start n w w' ↔ ∀ i, start ≤ i → i < start + n → w.getLsbD i = w'.getLsbD i := by
  constructor
  · intro h i hlow hhigh
    have hbit := congrArg (fun field : BitVec n => field.getLsbD (i - start)) h
    simp only [BitVec.getLsbD_extractLsb', Nat.add_sub_cancel' hlow, show i - start < n by omega,
      decide_true, Bool.true_and] at hbit
    exact hbit
  · intro h
    apply BitVec.eq_of_getLsbD_eq
    intro j hj
    rw [BitVec.getLsbD_extractLsb', BitVec.getLsbD_extractLsb',
      h (start + j) (Nat.le_add_right start j) (Nat.add_lt_add_left hj start)]

theorem AgreeOn.append {start m n : Nat} (h : AgreeOn start m w w')
    (h' : AgreeOn (start + m) n w w') : AgreeOn start (m + n) w w' := by
  rw [agreeOn_iff] at h h' ⊢
  intro i hlow hhigh
  by_cases hi : i < start + m
  · exact h i hlow hi
  · exact h' i (by omega) (by omega)

theorem agreeOn_part {start n start' n' : Nat} (h : AgreeOn start n w w') (hlow : start ≤ start')
    (hhigh : start' + n' ≤ start + n) : AgreeOn start' n' w w' := by
  rw [agreeOn_iff] at h ⊢
  exact fun i hi hi' => h i (Nat.le_trans hlow hi) (by omega)

theorem eq_of_agreeOn (h : AgreeOn 0 32 w w') : w = w' :=
  BitVec.eq_of_getLsbD_eq fun i hi => agreeOn_iff.mp h i (Nat.zero_le i) (by omega)

theorem signExtend_injective {n : Nat} (hn : n ≤ 64) {x y : BitVec n}
    (h : x.signExtend 64 = y.signExtend 64) : x = y := by
  apply BitVec.eq_of_toInt_eq
  rw [← BitVec.toInt_signExtend_of_le hn, h, BitVec.toInt_signExtend_of_le hn]

/-! ### What the immediates determine -/

theorem agreeOn_of_immediateI
    (h : InstructionDecoder.getImmediateI ⟨w⟩ = InstructionDecoder.getImmediateI ⟨w'⟩) :
    AgreeOn 20 12 w w' := by
  rw [InstructionDecoder.getImmediateI_eq, InstructionDecoder.getImmediateI_eq] at h
  exact signExtend_injective (by decide) h

theorem agreeOn_of_immediateS
    (h : InstructionDecoder.getImmediateS ⟨w⟩ = InstructionDecoder.getImmediateS ⟨w'⟩) :
    AgreeOn 7 5 w w' ∧ AgreeOn 25 7 w w' := by
  rw [InstructionDecoder.getImmediateS_eq, InstructionDecoder.getImmediateS_eq] at h
  have hfield := signExtend_injective (by decide) h
  have hlow := congrArg (BitVec.extractLsb' 0 5) hfield
  have hhigh := congrArg (BitVec.extractLsb' 5 7) hfield
  rw [BitVec.extractLsb'_append_eq_right, BitVec.extractLsb'_append_eq_right] at hlow
  rw [BitVec.extractLsb'_append_eq_left, BitVec.extractLsb'_append_eq_left] at hhigh
  exact ⟨hlow, hhigh⟩

theorem agreeOn_of_immediateB
    (h : InstructionDecoder.getImmediateB ⟨w⟩ = InstructionDecoder.getImmediateB ⟨w'⟩) :
    AgreeOn 7 5 w w' ∧ AgreeOn 25 7 w w' := by
  rw [InstructionDecoder.getImmediateB_eq, InstructionDecoder.getImmediateB_eq] at h
  have hfield := signExtend_injective (by decide) h
  have hbit := fun j => congrArg (fun field : BitVec 13 => field.getLsbD j) hfield
  simp only [BitVec.getLsbD_append, BitVec.getLsbD_extractLsb'] at hbit
  rw [agreeOn_iff, agreeOn_iff]
  constructor
  · intro i hlow hhigh
    obtain rfl | hlow := Nat.eq_or_lt_of_le hlow
    · simpa using hbit 11
    · have hi := hbit (i - 7)
      interval_cases i <;> simpa using hi
  · intro i hlow hhigh
    obtain rfl | hhigh := Nat.eq_or_lt_of_le (Nat.le_of_lt_succ hhigh)
    · simpa using hbit 12
    · have hi := hbit (i - 20)
      interval_cases i <;> simpa using hi

theorem agreeOn_of_immediateJ
    (h : InstructionDecoder.getImmediateJ ⟨w⟩ = InstructionDecoder.getImmediateJ ⟨w'⟩) :
    AgreeOn 12 20 w w' := by
  rw [InstructionDecoder.getImmediateJ_eq, InstructionDecoder.getImmediateJ_eq] at h
  have hfield := signExtend_injective (by decide) h
  have hbit := fun j => congrArg (fun field : BitVec 21 => field.getLsbD j) hfield
  simp only [BitVec.getLsbD_append, BitVec.getLsbD_extractLsb'] at hbit
  rw [agreeOn_iff]
  intro i hlow hhigh
  obtain hlow' | rfl | hhigh' := Nat.lt_trichotomy i 20
  · have hi := hbit i
    interval_cases i <;> simpa using hi
  · simpa using hbit 11
  · obtain rfl | hlast := Nat.eq_or_lt_of_le (Nat.le_of_lt_succ hhigh)
    · simpa using hbit 20
    · have hi := hbit (i - 20)
      interval_cases i <;> simpa using hi

/-- The upper immediate is not negative, so that the shift keeps all of it. -/
theorem agreeOn_of_immediateU
    (h : (InstructionDecoder.getImmediateU ⟨w⟩).sshiftRight 12 =
      (InstructionDecoder.getImmediateU ⟨w'⟩).sshiftRight 12) : AgreeOn 12 20 w w' := by
  rw [InstructionDecoder.getImmediateU_eq, InstructionDecoder.getImmediateU_eq] at h
  have hbit := fun j => congrArg (fun field : BitVec 64 => field.getLsbD j) h
  simp only [BitVec.getLsbD_sshiftRight, BitVec.getLsbD_setWidth, BitVec.getLsbD_append,
    BitVec.getLsbD_extractLsb'] at hbit
  rw [agreeOn_iff]
  intro i hlow hhigh
  have hi := hbit (i - 12)
  interval_cases i <;> simpa using hi

/-- A masked shift amount and funct7 make up the I immediate. -/
theorem agreeOn_of_shift {mask : BitVec 64} (hmask : mask = 0x3F ∨ mask = 0x1F)
    (h : InstructionDecoder.getImmediateI ⟨w⟩ &&& mask =
      InstructionDecoder.getImmediateI ⟨w'⟩ &&& mask) (hfunct7 : AgreeOn 25 7 w w') :
    AgreeOn 20 12 w w' := by
  rw [InstructionDecoder.getImmediateI_eq, InstructionDecoder.getImmediateI_eq] at h
  have hbit := fun j => congrArg (fun field : BitVec 64 => field.getLsbD j) h
  simp only [BitVec.getLsbD_and, BitVec.getLsbD_signExtend, BitVec.getLsbD_extractLsb'] at hbit
  rw [agreeOn_iff] at hfunct7 ⊢
  intro i hlow hhigh
  obtain hlow' | hhigh' := Nat.lt_or_ge i 25
  · have hi := hbit (i - 20)
    obtain rfl | rfl := hmask
    · interval_cases i <;> simpa using hi
    · interval_cases i <;> simpa using hi
  · exact hfunct7 i hhigh' hhigh

/-! ### What the operands determine -/

theorem ofRegisters_injective {rd rs1 rs2 rd' rs1' rs2' : RegNumber}
    (h : ofRegisters rd rs1 rs2 = ofRegisters rd' rs1' rs2') :
    rd = rd' ∧ rs1 = rs1' ∧ rs2 = rs2' := by
  simp only [ofRegisters, List.cons.injEq, and_true, true_and] at h
  exact ⟨formatRegister_injective h.1, formatRegister_injective h.2.1,
    formatRegister_injective h.2.2⟩

theorem ofImmediate_injective {rd rs1 rd' rs1' : RegNumber} {imm imm' : BitVec 64}
    (h : ofImmediate rd rs1 imm = ofImmediate rd' rs1' imm') :
    rd = rd' ∧ rs1 = rs1' ∧ imm = imm' := by
  simp only [ofImmediate, List.cons.injEq, and_true, true_and] at h
  exact ⟨formatRegister_injective h.1, formatRegister_injective h.2.1,
    formatImmediate_injective h.2.2⟩

theorem ofAddress_injective {reg base reg' base' : RegNumber} {imm imm' : BitVec 64}
    (h : ofAddress reg base imm = ofAddress reg' base' imm') :
    reg = reg' ∧ base = base' ∧ imm = imm' := by
  simp only [ofAddress, List.cons.injEq, and_true, true_and] at h
  exact ⟨formatRegister_injective h.1, formatRegister_injective h.2.2,
    formatImmediate_injective h.2.1⟩

theorem ofTarget_injective {rd rd' : RegNumber} {imm imm' : BitVec 64}
    (h : ofTarget rd imm = ofTarget rd' imm') : rd = rd' ∧ imm = imm' := by
  simp only [ofTarget, List.cons.injEq, and_true, true_and] at h
  exact ⟨formatRegister_injective h.1, formatImmediate_injective h.2⟩

theorem agreeOn_of_rd (h : InstructionDecoder.getRD ⟨w⟩ = InstructionDecoder.getRD ⟨w'⟩) :
    AgreeOn 7 5 w w' := by
  rw [InstructionDecoder.getRD_eq, InstructionDecoder.getRD_eq] at h
  exact h

theorem agreeOn_of_rs1 (h : InstructionDecoder.getRS1 ⟨w⟩ = InstructionDecoder.getRS1 ⟨w'⟩) :
    AgreeOn 15 5 w w' := by
  rw [InstructionDecoder.getRS1_eq, InstructionDecoder.getRS1_eq] at h
  exact h

theorem agreeOn_of_rs2 (h : InstructionDecoder.getRS2 ⟨w⟩ = InstructionDecoder.getRS2 ⟨w'⟩) :
    AgreeOn 20 5 w w' := by
  rw [InstructionDecoder.getRS2_eq, InstructionDecoder.getRS2_eq] at h
  exact h

/-! ### What the mnemonic determines -/

def opcodeBits : Opcode → BitVec 7
  | .op => 0x33
  | .opImm => 0x13
  | .op32 => 0x3B
  | .opImm32 => 0x1B
  | .load => 0x03
  | .store => 0x23
  | .branch => 0x63
  | .jalr => 0x67
  | .jal => 0x6F
  | .lui => 0x37
  | .auipc => 0x17
  | .unlisted bits => bits

theorem opcodeBits_ofBits : ∀ bits : BitVec 7, opcodeBits (Opcode.ofBits bits) = bits := by
  decide +kernel

theorem agreeOn_of_opcode
    (h : InstructionDecoder.getOpcode ⟨w⟩ = InstructionDecoder.getOpcode ⟨w'⟩) :
    AgreeOn 0 7 w w' := by
  have hbits := congrArg opcodeBits h
  rw [InstructionDecoder.getOpcode_eq, InstructionDecoder.getOpcode_eq, opcodeBits_ofBits,
    opcodeBits_ofBits] at hbits
  exact hbits

/-- The fields that are no operand of the opcode are fixed; JALR leaves one out. -/
def Encoding.isComplete (e : Encoding) : Bool :=
  match e.opcode with
  | .op | .op32 => e.funct3.isSome && e.funct7.isSome
  | .opImm | .opImm32 =>
    e.funct3.isSome && (e.funct7.isSome || (e.funct3 != some 1 && e.funct3 != some 5))
  | .load | .store | .branch => e.funct3.isSome
  | .jalr | .jal | .lui | .auipc => true
  | .unlisted _ => false

theorem isComplete_of_lookup {mnemonic : String} {e : Encoding}
    (h : encodings.lookup mnemonic = some e) : e.isComplete = true := by
  have hall : (encodings.all fun entry => entry.2.isComplete) = true := by decide +kernel
  obtain ⟨before, after, htable, -⟩ := List.lookup_eq_some_iff.mp h
  exact List.all_eq_true.mp hall (mnemonic, e) (by rw [htable]; simp)

theorem Fixes.unique {field : Option α} {value value' : α} (h : Fixes field value)
    (h' : Fixes field value') (hsome : field.isSome = true) : value = value' := by
  obtain rfl | rfl := h
  · cases hsome
  · obtain hnone | hvalue := h'
    · cases hnone
    · exact Option.some.inj hvalue

/-! ### What the line determines -/

/-- Equal words, or two JALR words that differ in funct3 at most. -/
def SameInstruction (w w' : InstructionWord) : Prop :=
  w = w' ∨ (InstructionDecoder.getOpcode ⟨w⟩ = .jalr ∧ AgreeOn 0 12 w w' ∧ AgreeOn 15 17 w w')

theorem eq_of_fields (hopcode : AgreeOn 0 7 w w') (hrd : AgreeOn 7 5 w w')
    (hfunct3 : AgreeOn 12 3 w w') (hrs1 : AgreeOn 15 5 w w') (hhigh : AgreeOn 20 12 w w') :
    w = w' :=
  eq_of_agreeOn (hopcode.append (hrd.append (hfunct3.append (hrs1.append hhigh))))

/-- The I immediate is covered by a masked shift amount and funct7. -/
theorem eq_of_shift {mask : BitVec 64} (hmask : mask = 0x3F ∨ mask = 0x1F)
    (hopcode : AgreeOn 0 7 w w') (hfunct3 : AgreeOn 12 3 w w')
    (hfunct7 : InstructionDecoder.getFunct3 ⟨w⟩ = 1 ∨ InstructionDecoder.getFunct3 ⟨w⟩ = 5 →
      AgreeOn 25 7 w w')
    (h : ofImmediate (InstructionDecoder.getRD ⟨w⟩) (InstructionDecoder.getRS1 ⟨w⟩)
        (shiftMasked mask ⟨w⟩) =
      ofImmediate (InstructionDecoder.getRD ⟨w'⟩) (InstructionDecoder.getRS1 ⟨w'⟩)
        (shiftMasked mask ⟨w'⟩)) : w = w' := by
  obtain ⟨hrd, hrs1, himm⟩ := ofImmediate_injective h
  refine eq_of_fields hopcode (agreeOn_of_rd hrd) hfunct3 (agreeOn_of_rs1 hrs1) ?_
  have hsame : InstructionDecoder.getFunct3 ⟨w⟩ = InstructionDecoder.getFunct3 ⟨w'⟩ := by
    rw [InstructionDecoder.getFunct3_eq, InstructionDecoder.getFunct3_eq]
    exact hfunct3
  unfold shiftMasked at himm
  rw [← hsame] at himm
  by_cases hshift : InstructionDecoder.getFunct3 ⟨w⟩ = 1 ∨ InstructionDecoder.getFunct3 ⟨w⟩ = 5
  · rw [if_pos hshift, if_pos hshift] at himm
    exact agreeOn_of_shift hmask himm (hfunct7 hshift)
  · rw [if_neg hshift, if_neg hshift] at himm
    exact agreeOn_of_immediateI himm

/-- The shifts fix funct7. -/
theorem isSome_of_shift {e : Encoding} {funct3 : BitVec 3}
    (hcomplete : (e.funct7.isSome || (e.funct3 != some 1 && e.funct3 != some 5)) = true)
    (hfixes : Fixes e.funct3 funct3) (hsome : e.funct3.isSome = true)
    (hshift : funct3 = 1 ∨ funct3 = 5) : e.funct7.isSome = true := by
  obtain hnone | hfunct3 := hfixes
  · rw [hnone] at hsome
    cases hsome
  · rw [hfunct3] at hcomplete
    obtain rfl | rfl := hshift
    · simpa using hcomplete
    · simpa using hcomplete

theorem sameInstruction_of_tokens {mnemonic : String} (h : Named ⟨w⟩ mnemonic)
    (h' : Named ⟨w'⟩ mnemonic) (hoperands : operands ⟨w⟩ = operands ⟨w'⟩) :
    SameInstruction w w' := by
  obtain ⟨e, hlookup, hopcode, h3, h7⟩ := h
  obtain ⟨e', hlookup', hopcode', h3', h7'⟩ := h'
  obtain rfl := Option.some.inj (hlookup.symm.trans hlookup')
  have hcomplete := isComplete_of_lookup hlookup
  have hlow := agreeOn_of_opcode (hopcode.trans hopcode'.symm)
  have hfunct3 : e.funct3.isSome = true → AgreeOn 12 3 w w' := by
    intro hsome
    have hsame := h3.unique h3' hsome
    rw [InstructionDecoder.getFunct3_eq, InstructionDecoder.getFunct3_eq] at hsame
    exact hsame
  have hfunct7 : e.funct7.isSome = true → AgreeOn 25 7 w w' := by
    intro hsome
    have hsame := h7.unique h7' hsome
    rw [InstructionDecoder.getFunct7_eq, InstructionDecoder.getFunct7_eq] at hsame
    exact hsame
  unfold Encoding.isComplete at hcomplete
  unfold operands at hoperands
  rw [hopcode, hopcode'] at hoperands
  cases hcase : e.opcode with
  | op | op32 =>
    rw [hcase] at hcomplete hoperands
    obtain ⟨hrd, hrs1, hrs2⟩ := ofRegisters_injective hoperands
    rw [Bool.and_eq_true] at hcomplete
    exact .inl (eq_of_fields hlow (agreeOn_of_rd hrd) (hfunct3 hcomplete.1) (agreeOn_of_rs1 hrs1)
      ((agreeOn_of_rs2 hrs2).append (hfunct7 hcomplete.2)))
  | opImm =>
    rw [hcase] at hcomplete hoperands
    rw [Bool.and_eq_true] at hcomplete
    exact .inl (eq_of_shift (.inl rfl) hlow (hfunct3 hcomplete.1)
      (fun hshift => hfunct7 (isSome_of_shift hcomplete.2 h3 hcomplete.1 hshift)) hoperands)
  | opImm32 =>
    rw [hcase] at hcomplete hoperands
    rw [Bool.and_eq_true] at hcomplete
    exact .inl (eq_of_shift (.inr rfl) hlow (hfunct3 hcomplete.1)
      (fun hshift => hfunct7 (isSome_of_shift hcomplete.2 h3 hcomplete.1 hshift)) hoperands)
  | load =>
    rw [hcase] at hcomplete hoperands
    obtain ⟨hrd, hrs1, himm⟩ := ofAddress_injective hoperands
    exact .inl (eq_of_fields hlow (agreeOn_of_rd hrd) (hfunct3 hcomplete) (agreeOn_of_rs1 hrs1)
      (agreeOn_of_immediateI himm))
  | store =>
    rw [hcase] at hcomplete hoperands
    obtain ⟨hrs2, hrs1, himm⟩ := ofAddress_injective hoperands
    obtain ⟨hrd, hhigh⟩ := agreeOn_of_immediateS himm
    exact .inl (eq_of_fields hlow hrd (hfunct3 hcomplete) (agreeOn_of_rs1 hrs1)
      ((agreeOn_of_rs2 hrs2).append hhigh))
  | branch =>
    rw [hcase] at hcomplete hoperands
    obtain ⟨hrs1, hrs2, himm⟩ := ofImmediate_injective hoperands
    obtain ⟨hrd, hhigh⟩ := agreeOn_of_immediateB himm
    exact .inl (eq_of_fields hlow hrd (hfunct3 hcomplete) (agreeOn_of_rs1 hrs1)
      ((agreeOn_of_rs2 hrs2).append hhigh))
  | jalr =>
    rw [hcase] at hoperands
    obtain ⟨hrd, hrs1, himm⟩ := ofAddress_injective hoperands
    exact .inr ⟨hopcode.trans hcase, hlow.append (agreeOn_of_rd hrd),
      (agreeOn_of_rs1 hrs1).append (agreeOn_of_immediateI himm)⟩
  | jal =>
    rw [hcase] at hoperands
    obtain ⟨hrd, himm⟩ := ofTarget_injective hoperands
    exact .inl (eq_of_agreeOn
      (hlow.append ((agreeOn_of_rd hrd).append (agreeOn_of_immediateJ himm))))
  | lui | auipc =>
    rw [hcase] at hoperands
    obtain ⟨hrd, himm⟩ := ofTarget_injective hoperands
    exact .inl (eq_of_agreeOn
      (hlow.append ((agreeOn_of_rd hrd).append (agreeOn_of_immediateU himm))))
  | unlisted bits =>
    rw [hcase] at hcomplete
    cases hcomplete

end

end Rv64Emu.Disassembly
