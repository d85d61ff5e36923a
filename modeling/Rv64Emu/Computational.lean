import Rv64Emu.Library.Rv64i
import Rv64Emu.Machine.Fields
import Rv64Emu.Sequential.Effect

/-! The integer computational instructions against their RV64I results. The
control table and the ALU implement every operation; the table misses the
shifts by 32 and more, whose encoding sets the low bit of funct7. -/
namespace Rv64Emu.Computational

open Processor

/-! ### The ALU -/

def aluOp : Rv64i.Operation → ALUOp
  | .add => .add
  | .sub => .sub
  | .sll => .sll
  | .slt => .slt
  | .sltu => .sltu
  | .xor => .xor
  | .srl => .srl
  | .sra => .sra
  | .or => .or
  | .and => .and
  | .addw => .addw
  | .subw => .subw
  | .sllw => .sllw
  | .srlw => .srlw
  | .sraw => .sraw

theorem toNat_and_mask6 (b : BitVec 64) : (b &&& 0x3F).toNat = b.toNat % 64 := by
  rw [BitVec.toNat_and]
  exact Nat.and_two_pow_sub_one_eq_mod b.toNat 6

theorem toNat_and_mask5 (b : BitVec 64) : (b &&& 0x1F).toNat = b.toNat % 32 := by
  rw [BitVec.toNat_and]
  exact Nat.and_two_pow_sub_one_eq_mod b.toNat 5

theorem getResult_aluOp (op : Rv64i.Operation) (a b : BitVec 64) :
    ({ a := a, b := b, op := aluOp op } : ALU).getResult = op.result a b := by
  cases op with
  | slt => simp only [aluOp, ALU.getResult, Rv64i.Operation.result, BitVec.slt_eq_decide,
      decide_eq_true_eq]
  | sltu => simp only [aluOp, ALU.getResult, Rv64i.Operation.result, BitVec.ult_eq_decide,
      decide_eq_true_eq]
  | sll => simp only [aluOp, ALU.getResult, Rv64i.Operation.result, BitVec.shiftLeft_eq',
      toNat_and_mask6]
  | srl => simp only [aluOp, ALU.getResult, Rv64i.Operation.result, BitVec.ushiftRight_eq',
      toNat_and_mask6]
  | sra => simp only [aluOp, ALU.getResult, Rv64i.Operation.result, BitVec.sshiftRight_eq',
      toNat_and_mask6]
  | sllw => simp only [aluOp, ALU.getResult, Rv64i.Operation.result, BitVec.shiftLeft_eq',
      toNat_and_mask5]
  | srlw => simp only [aluOp, ALU.getResult, Rv64i.Operation.result, BitVec.ushiftRight_eq',
      toNat_and_mask5]
  | sraw => simp only [aluOp, ALU.getResult, Rv64i.Operation.result, BitVec.sshiftRight_eq',
      toNat_and_mask5]
  | addw => simp only [aluOp, ALU.getResult, Rv64i.Operation.result, Rv64i.word,
      BitVec.setWidth_add _ _ (show 32 ≤ 64 by decide)]
  | subw => simp only [aluOp, ALU.getResult, Rv64i.Operation.result, Rv64i.word,
      BitVec.sub_eq_add_neg, BitVec.setWidth_add _ _ (show 32 ≤ 64 by decide),
      BitVec.setWidth_neg_of_le (show 32 ≤ 64 by decide)]
  | _ => rfl

/-! ### The control tables -/

theorem opALUOp_of_registerOp : ∀ (funct7 : BitVec 7) (funct3 : BitVec 3),
    (Rv64i.registerOp funct7 funct3).all fun op =>
      ControlSignals.opALUOp funct3 funct7 == aluOp op := by
  decide +kernel

theorem op32ALUOp_of_registerOp32 : ∀ (funct7 : BitVec 7) (funct3 : BitVec 3),
    (Rv64i.registerOp32 funct7 funct3).all fun op =>
      ControlSignals.op32ALUOp funct3 funct7 == aluOp op := by
  decide +kernel

theorem opImmALUOp_of_immediateOp : ∀ (funct7 : BitVec 7) (funct3 : BitVec 3),
    (Rv64i.immediateOp funct3).all fun op =>
      ControlSignals.opImmALUOp funct3 funct7 == aluOp op := by
  decide +kernel

/-- The table compares the whole of funct7, whose low bit belongs to the amount. -/
theorem opImmALUOp_of_shiftOp : ∀ (funct7 : BitVec 7) (funct3 : BitVec 3),
    (Rv64i.shiftOp (funct7.extractLsb' 1 6) funct3).all fun op =>
      (ControlSignals.opImmALUOp funct3 funct7 == if funct7.getLsbD 0 then .nop else aluOp op) &&
        op.amountBits == some 6 := by
  decide +kernel

theorem opImm32ALUOp_of_shiftOp32 : ∀ (funct7 : BitVec 7) (funct3 : BitVec 3),
    (Rv64i.shiftOp32 funct7 funct3).all fun op =>
      ControlSignals.opImm32ALUOp funct3 funct7 == aluOp op && op.amountBits == some 5 := by
  decide +kernel

/-! ### What ID makes of a legal encoding -/

/-- A shift by an immediate of 32 or more. -/
def wideShift (w : InstructionWord) : Bool :=
  InstructionDecoder.getOpcode ⟨w⟩ == .opImm &&
    Rv64i.isShiftFunct3 (w.extractLsb' 12 3) && w.getLsbD 25

/-- The control lines and the immediate with which the ALU delivers the result
of `i`, unless `w` is one of the shifts that the table misses. -/
structure Issued (w : InstructionWord) (i : Rv64i.Computational) (aluSrc : Bool) (op : ALUOp)
    (immediate : BitVec 64) : Prop where
  getImmediate : InstructionDecoder.getImmediate ⟨w⟩ = .ok immediate
  control : ControlSignals.setFromInstruction ⟨w⟩ =
    { regWrite := true, aluSrc := aluSrc, aluOp := op }
  rd : i.rd = InstructionDecoder.getRD ⟨w⟩
  opcode : InstructionDecoder.getOpcode ⟨w⟩ ≠ .auipc ∧ InstructionDecoder.getOpcode ⟨w⟩ ≠ .lui
  result : ∀ registers : BitVec 5 → BitVec 64,
    ({ a := registers (InstructionDecoder.getRS1 ⟨w⟩)
       b := if aluSrc then immediate else registers (InstructionDecoder.getRS2 ⟨w⟩)
       op := op } : ALU).getResult =
      if wideShift w then 0 else i.result registers

section

variable {w : InstructionWord} {op : Rv64i.Operation}

theorem not_wideShift (h : InstructionDecoder.getOpcode ⟨w⟩ ≠ .opImm) : wideShift w = false := by
  unfold wideShift
  rw [beq_eq_false_iff_ne.mpr h]
  rfl

theorem getImmediate_register (hopcode : InstructionDecoder.getOpcode ⟨w⟩ = .op ∨
    InstructionDecoder.getOpcode ⟨w⟩ = .op32) : InstructionDecoder.getImmediate ⟨w⟩ = .ok 0 := by
  unfold InstructionDecoder.getImmediate InstructionDecoder.getInstructionType
  obtain h | h := hopcode <;> rw [h] <;> rfl

theorem getImmediate_immediate (hopcode : InstructionDecoder.getOpcode ⟨w⟩ = .opImm ∨
    InstructionDecoder.getOpcode ⟨w⟩ = .opImm32) :
    InstructionDecoder.getImmediate ⟨w⟩ = .ok ((w.extractLsb' 20 12).signExtend 64) := by
  rw [← InstructionDecoder.getImmediateI_eq]
  unfold InstructionDecoder.getImmediate InstructionDecoder.getInstructionType
  obtain h | h := hopcode <;> rw [h] <;> rfl

theorem issued_register (hopcode : InstructionDecoder.getOpcode ⟨w⟩ = .op ∨
      InstructionDecoder.getOpcode ⟨w⟩ = .op32)
    (hcontrol : ControlSignals.setFromInstruction ⟨w⟩ =
      { regWrite := true, aluOp := aluOp op }) :
    Issued w ⟨op, w.extractLsb' 7 5, w.extractLsb' 15 5, .register (w.extractLsb' 20 5)⟩
      false (aluOp op) 0 := by
  refine ⟨getImmediate_register hopcode, hcontrol, (InstructionDecoder.getRD_eq w).symm, ?_,
    fun registers => ?_⟩
  · obtain h | h := hopcode <;> rw [h] <;> decide
  · have hwide : wideShift w = false := by
      apply not_wideShift
      obtain h | h := hopcode <;> rw [h] <;> decide
    rw [hwide, getResult_aluOp, InstructionDecoder.getRS1_eq, InstructionDecoder.getRS2_eq]
    rfl

theorem issued_immediate {value : BitVec 64} (hopcode : InstructionDecoder.getOpcode ⟨w⟩ = .opImm ∨
      InstructionDecoder.getOpcode ⟨w⟩ = .opImm32)
    (hcontrol : ControlSignals.setFromInstruction ⟨w⟩ =
      { regWrite := true, aluSrc := true, aluOp := if wideShift w then .nop else aluOp op })
    (hvalue : ∀ a, op.result a ((w.extractLsb' 20 12).signExtend 64) = op.result a value) :
    Issued w ⟨op, w.extractLsb' 7 5, w.extractLsb' 15 5, .immediate value⟩
      true (if wideShift w then .nop else aluOp op) ((w.extractLsb' 20 12).signExtend 64) := by
  refine ⟨getImmediate_immediate hopcode, hcontrol, (InstructionDecoder.getRD_eq w).symm, ?_,
    fun registers => ?_⟩
  · obtain h | h := hopcode <;> rw [h] <;> decide
  · cases wideShift w with
    | true => rfl
    | false =>
      change ({ a := _, b := _, op := aluOp op } : ALU).getResult = _
      rw [getResult_aluOp, InstructionDecoder.getRS1_eq]
      exact hvalue _

/-- The immediate of a shift carries the amount in its low bits. -/
theorem shamt_mod (w : InstructionWord) {n : Nat} (hn : n ≤ 12) :
    ((w.extractLsb' 20 12).signExtend 64).toNat % 2 ^ n = (w.extractLsb' 20 n).toNat := by
  have hlow : ((w.extractLsb' 20 12).signExtend 64).setWidth n = w.extractLsb' 20 n := by
    apply BitVec.eq_of_getLsbD_eq
    intro i hi
    have hi12 : i < 12 := by omega
    have hi64 : i < 64 := by omega
    simp only [BitVec.getLsbD_setWidth, BitVec.getLsbD_signExtend, BitVec.getLsbD_extractLsb', hi,
      hi12, hi64, decide_true, Bool.true_and, if_true]
  rw [← hlow, BitVec.toNat_setWidth]

theorem wideShift_eq (hopcode : InstructionDecoder.getOpcode ⟨w⟩ = .opImm) :
    wideShift w = (Rv64i.isShiftFunct3 (w.extractLsb' 12 3) && (w.extractLsb' 25 7).getLsbD 0) := by
  unfold wideShift
  rw [hopcode]
  simp

theorem issued_opImm {i : Rv64i.Computational}
    (hopcode : InstructionDecoder.getOpcode ⟨w⟩ = .opImm)
    (h : (if Rv64i.isShiftFunct3 (w.extractLsb' 12 3) then
        (Rv64i.shiftOp (w.extractLsb' 26 6) (w.extractLsb' 12 3)).map fun op =>
          (⟨op, w.extractLsb' 7 5, w.extractLsb' 15 5,
            .immediate ((w.extractLsb' 20 6).setWidth 64)⟩ : Rv64i.Computational)
      else (Rv64i.immediateOp (w.extractLsb' 12 3)).map fun op =>
        ⟨op, w.extractLsb' 7 5, w.extractLsb' 15 5,
          .immediate ((w.extractLsb' 20 12).signExtend 64)⟩) = some i) :
    ∃ aluSrc op immediate, Issued w i aluSrc op immediate := by
  have hwide := wideShift_eq hopcode
  have hcontrol : ControlSignals.setFromInstruction ⟨w⟩ =
      { regWrite := true, aluSrc := true
        aluOp := ControlSignals.opImmALUOp (w.extractLsb' 12 3) (w.extractLsb' 25 7) } := by
    unfold ControlSignals.setFromInstruction
    rw [hopcode, InstructionDecoder.getFunct3_eq, InstructionDecoder.getFunct7_eq]
  split at h
  · rename_i hshift
    obtain ⟨op, hop, rfl⟩ := Option.map_eq_some_iff.mp h
    have htable := opImmALUOp_of_shiftOp (w.extractLsb' 25 7) (w.extractLsb' 12 3)
    have hfunct6 : (w.extractLsb' 25 7).extractLsb' 1 6 = w.extractLsb' 26 6 := by
      apply BitVec.eq_of_getLsbD_eq
      intro i hi
      interval_cases i <;> simp
    rw [hfunct6, hop, Option.all_some, Bool.and_eq_true, beq_iff_eq, beq_iff_eq] at htable
    refine ⟨_, _, _, issued_immediate (.inl hopcode) ?_ fun a => ?_⟩
    · rw [hcontrol, htable.1, hwide, hshift, Bool.true_and]
    · refine Rv64i.Operation.result_of_amountBits htable.2 a ?_
      have hamount := (w.extractLsb' 20 6).isLt
      rw [shamt_mod w (by decide), BitVec.toNat_setWidth]
      omega
  · rename_i hshift
    obtain ⟨op, hop, rfl⟩ := Option.map_eq_some_iff.mp h
    have htable := opImmALUOp_of_immediateOp (w.extractLsb' 25 7) (w.extractLsb' 12 3)
    rw [hop, Option.all_some, beq_iff_eq] at htable
    refine ⟨_, _, _, issued_immediate (.inl hopcode) ?_ fun a => rfl⟩
    rw [hcontrol, htable, hwide, Bool.eq_false_iff.mpr hshift]
    rfl

theorem issued_opImm32 {i : Rv64i.Computational}
    (hopcode : InstructionDecoder.getOpcode ⟨w⟩ = .opImm32)
    (h : (if Rv64i.isShiftFunct3 (w.extractLsb' 12 3) then
        (Rv64i.shiftOp32 (w.extractLsb' 25 7) (w.extractLsb' 12 3)).map fun op =>
          (⟨op, w.extractLsb' 7 5, w.extractLsb' 15 5,
            .immediate ((w.extractLsb' 20 5).setWidth 64)⟩ : Rv64i.Computational)
      else if w.extractLsb' 12 3 = 0b000 then
        some ⟨.addw, w.extractLsb' 7 5, w.extractLsb' 15 5,
          .immediate ((w.extractLsb' 20 12).signExtend 64)⟩
      else none) = some i) :
    ∃ aluSrc op immediate, Issued w i aluSrc op immediate := by
  have hwide : wideShift w = false := not_wideShift (by rw [hopcode]; decide)
  have hcontrol : ControlSignals.setFromInstruction ⟨w⟩ =
      { regWrite := true, aluSrc := true
        aluOp := ControlSignals.opImm32ALUOp (w.extractLsb' 12 3) (w.extractLsb' 25 7) } := by
    unfold ControlSignals.setFromInstruction
    rw [hopcode, InstructionDecoder.getFunct3_eq, InstructionDecoder.getFunct7_eq]
  split at h
  · obtain ⟨op, hop, rfl⟩ := Option.map_eq_some_iff.mp h
    have htable := opImm32ALUOp_of_shiftOp32 (w.extractLsb' 25 7) (w.extractLsb' 12 3)
    rw [hop, Option.all_some, Bool.and_eq_true, beq_iff_eq, beq_iff_eq] at htable
    refine ⟨_, _, _, issued_immediate (.inr hopcode) ?_ fun a => ?_⟩
    · rw [hcontrol, htable.1, hwide]
      rfl
    · refine Rv64i.Operation.result_of_amountBits htable.2 a ?_
      have hamount := (w.extractLsb' 20 5).isLt
      rw [shamt_mod w (by decide), BitVec.toNat_setWidth]
      omega
  · split at h
    · rename_i hfunct3
      cases h
      refine ⟨_, _, _, issued_immediate (.inr hopcode) ?_ fun a => rfl⟩
      rw [hcontrol, hwide, hfunct3]
      rfl
    · cases h

/-- Every legal encoding is issued with the lines for its operation. -/
theorem issued {i : Rv64i.Computational} (h : Rv64i.decode w = some i) :
    ∃ aluSrc op immediate, Issued w i aluSrc op immediate := by
  unfold Rv64i.decode at h
  have hfunct3 := InstructionDecoder.getFunct3_eq w
  have hfunct7 := InstructionDecoder.getFunct7_eq w
  have hopcode := InstructionDecoder.getOpcode_eq w
  by_cases hop : w.extractLsb' 0 7 = 0b0110011
  · rw [hop] at h hopcode
    obtain ⟨op, hop, rfl⟩ := Option.map_eq_some_iff.mp h
    have htable := opALUOp_of_registerOp (w.extractLsb' 25 7) (w.extractLsb' 12 3)
    rw [hop, Option.all_some, beq_iff_eq, ← hfunct3, ← hfunct7] at htable
    refine ⟨_, _, _, issued_register (.inl hopcode) ?_⟩
    unfold ControlSignals.setFromInstruction
    rw [hopcode, ← htable]
    rfl
  by_cases hopImm : w.extractLsb' 0 7 = 0b0010011
  · rw [hopImm] at h hopcode
    exact issued_opImm hopcode h
  by_cases hop32 : w.extractLsb' 0 7 = 0b0111011
  · rw [hop32] at h hopcode
    obtain ⟨op, hop, rfl⟩ := Option.map_eq_some_iff.mp h
    have htable := op32ALUOp_of_registerOp32 (w.extractLsb' 25 7) (w.extractLsb' 12 3)
    rw [hop, Option.all_some, beq_iff_eq, ← hfunct3, ← hfunct7] at htable
    refine ⟨_, _, _, issued_register (.inr hopcode) ?_⟩
    unfold ControlSignals.setFromInstruction
    rw [hopcode, ← htable]
    rfl
  by_cases hopImm32 : w.extractLsb' 0 7 = 0b0011011
  · rw [hopImm32] at h hopcode
    exact issued_opImm32 hopcode h
  · simp only [if_neg hop, if_neg hopImm, if_neg hop32, if_neg hopImm32, reduceCtorEq] at h

/-- An instruction that only writes the result of the ALU. -/
theorem after_alu {σ : ArchState} {idEx : IDEXRegisters} {aluSrc : Bool} {op : ALUOp}
    (hcontrol : idEx.control = { regWrite := true, aluSrc := aluSrc, aluOp := op })
    (hauipc : idEx.opcode ≠ .auipc) (hlui : idEx.opcode ≠ .lui) (clients : Clients) :
    σ.after idEx 0 clients =
      { registers := σ.registers.writeRegister idEx.rd
          ({ a := idEx.readData1
             b := if aluSrc then idEx.immediate else idEx.readData2
             op := op } : ALU).getResult
        pc := σ.pc + 4
        clients := clients } := by
  have hresult : ExecuteStage.resultOf idEx idEx.readData1 idEx.readData2 =
      ({ a := idEx.readData1
         b := if aluSrc then idEx.immediate else idEx.readData2
         op := op } : ALU).getResult := by
    unfold ExecuteStage.resultOf ExecuteStage.aluInputs
    rw [hcontrol, if_neg Bool.false_ne_true, if_neg hauipc]
    cases hopcode : idEx.opcode with
    | auipc => exact absurd hopcode hauipc
    | lui => exact absurd hopcode hlui
    | _ => rfl
  have hnextPC : σ.nextPC idEx = σ.pc + 4 := by
    unfold ArchState.nextPC ExecuteStage.redirectOf
    rw [hcontrol]
    rfl
  unfold ArchState.after
  rw [hnextPC, ← hresult]
  unfold MWBRegisters.commit MWBRegisters.wbValue
  change (⟨if idEx.control.regWrite then σ.registers.writeRegister idEx.rd
    (if idEx.control.memToReg then _ else _) else σ.registers, _, _⟩ : ArchState) = _
  rw [hcontrol]
  rfl

/-- A legal encoding takes its step. -/
theorem step_of_decode {i : Rv64i.Computational} (h : Rv64i.decode w = some i) {σ : ArchState}
    (hfetch : σ.fetch = .ok w) :
    σ.step = .ok
      { registers := σ.registers.writeRegister i.rd
          (if wideShift w then 0 else i.result σ.registers.readRegister)
        pc := σ.pc + 4
        clients := σ.clients } := by
  obtain ⟨aluSrc, op, immediate, hissued⟩ := issued h
  obtain ⟨idEx, hidEx⟩ : ∃ idEx, decodeAt σ.registers σ.pc w = .ok idEx :=
    ⟨_, decodeAt_ok_iff.mpr ⟨immediate, hissued.getImmediate, rfl⟩⟩
  have hdecode := ArchState.decode_ok_iff.mpr ⟨w, hfetch, hidEx⟩
  obtain ⟨immediate', himm, rfl⟩ := decodeAt_ok_iff.mp hidEx
  obtain rfl := Except.ok.inj (hissued.getImmediate.symm.trans himm)
  rw [hissued.control] at hdecode
  rw [ArchState.step_of_noAccess hdecode rfl rfl,
    after_alu rfl hissued.opcode.1 hissued.opcode.2, ← hissued.result, hissued.rd]

end

/-! ### The next five cycles -/

/-- The next five cycles do what RV64I prescribes for `i` and nothing else. -/
def MatchesRv64i (s : Processor) (i : Rv64i.Computational) : Prop :=
  ∃ t, Runs.steps next 5 s = some t ∧ t.pc = s.pc + 4 ∧
    (∀ regnum, t.regfile.registers.readRegister regnum =
      if regnum = i.rd ∧ i.rd ≠ 0 then i.result s.regfile.registers.readRegister
      else s.regfile.registers.readRegister regnum) ∧
    t.bus.clients = s.bus.clients

theorem matchesRv64i_iff {program : Program} {registers : Registers} {s : Processor}
    {word : InstructionWord} {i : Rv64i.Computational} (hs : Boundary program registers s)
    (hword : s.bus.clients.fetchWord s.pc = .ok word) (hdecode : Rv64i.decode word = some i) :
    MatchesRv64i s i ↔
      wideShift word = false ∨ i.rd = 0 ∨ i.result s.regfile.registers.readRegister = 0 := by
  obtain ⟨hstage, hhalt, hfetch⟩ := hs.fetch hword (by decide +kernel) hdecode
  change Writes s i.rd (i.result s.regfile.registers.readRegister) (s.pc + 4) ↔ _
  rw [writes_iff hstage hhalt (step_of_decode hdecode hfetch)]
  change s.pc + 4 = s.pc + 4 ∧ ((if wideShift word then 0
    else i.result s.regfile.registers.readRegister) =
      i.result s.regfile.registers.readRegister ∨ i.rd = 0) ↔ _
  rw [and_iff_right rfl]
  cases wideShift word with
  | false => exact iff_of_true (.inl rfl) (.inl rfl)
  | true =>
    rw [if_pos rfl]
    constructor
    · rintro (hzero | hrd)
      · exact .inr (.inr hzero.symm)
      · exact .inr (.inl hrd)
    · rintro (hwide | hrd | hzero)
      · cases hwide
      · exact .inr hrd
      · exact .inl hzero.symm

/-- `slli x1, x1, 32`. -/
def shift : Program :=
  { memories := [Memory.ofWords false 0x1000 [0x02009093]]
    entrypoint := 0x1000 }

/-- The shift clears a register that holds one. -/
theorem shift_mismatches : ¬∀ (program : Program) (registers : Registers) (s : Processor)
    (word : InstructionWord) (i : Rv64i.Computational), Boundary program registers s →
    s.bus.clients.fetchWord s.pc = .ok word → Rv64i.decode word = some i → MatchesRv64i s i := by
  intro h
  obtain ⟨t, ht, -, hregisters, -⟩ := h shift (Vector.replicate 31 1)
    (boot shift false (Vector.replicate 31 1)) 0x02009093
    ⟨.sll, 1, 1, .immediate 32⟩ (boundary_boot _ _) (by decide +kernel) (by decide +kernel)
  have hzero : ((Runs.steps next 5 (boot shift false (Vector.replicate 31 1))).map fun t =>
      t.regfile.registers.readRegister 1) = some 0 := by decide +kernel
  rw [ht, Option.map_some, hregisters 1] at hzero
  revert hzero
  decide +kernel

/-- `slli x1, x1, 31`, which the table has. -/
def narrowShift : Program :=
  { memories := [Memory.ofWords false 0x1000 [0x01f09093]]
    entrypoint := 0x1000 }

def narrowShiftBoot : Processor := boot narrowShift false (Vector.replicate 31 1)

theorem matchesRv64i_iff_narrowShift : MatchesRv64i narrowShiftBoot ⟨.sll, 1, 1, .immediate 31⟩ ↔
    wideShift 0x01f09093 = false ∨ (1 : RegNumber) = 0 ∨
      (⟨.sll, 1, 1, .immediate 31⟩ : Rv64i.Computational).result
        narrowShiftBoot.regfile.registers.readRegister = 0 :=
  matchesRv64i_iff (boundary_boot narrowShift (Vector.replicate 31 1))
    (show narrowShiftBoot.bus.clients.fetchWord narrowShiftBoot.pc = .ok 0x01f09093 by
      decide +kernel) (by decide +kernel)

end Rv64Emu.Computational
