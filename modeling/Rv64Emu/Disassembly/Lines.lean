import Rv64Emu.Library.Numerals
import Rv64Emu.Machine.Formatter
import Rv64Emu.Machine.Fields

/-! The printed text determines the instruction. A line falls into tokens at
its separators; the first token names the encoding, and the others are the
operands. -/
namespace Rv64Emu.Disassembly

open Formatter

def isSeparator (c : Char) : Bool := c == ' ' || c == ',' || c == '(' || c == ')'

def tokens (text : String) : List (List Char) := text.toList.splitOnP isSeparator

/-- The text is a single token. -/
def IsToken (text : String) : Prop := ∀ c ∈ text.toList, isSeparator c = false

theorem isSeparator_of_isDigit {c : Char} (h : c.isDigit = true) : isSeparator c = false := by
  unfold isSeparator
  simp only [Bool.or_eq_false_iff, beq_eq_false_iff_ne]
  refine ⟨⟨⟨?_, ?_⟩, ?_⟩, ?_⟩ <;>
  · rintro rfl
    exact absurd h (by decide)

theorem isToken_formatRegister (reg : RegNumber) : IsToken (formatRegister reg) := by
  intro c hc
  rw [formatRegister, String.toList_append, List.mem_append] at hc
  obtain hc | hc := hc
  · cases List.mem_singleton.mp hc
    decide
  · exact isSeparator_of_isDigit (Numerals.isDigit_of_mem_repr hc)

theorem isToken_formatImmediate (value : BitVec 64) : IsToken (formatImmediate value) := by
  intro c hc
  rw [formatImmediate, String.toList_append, List.mem_append] at hc
  obtain hc | hc := hc
  · cases List.mem_singleton.mp hc
    decide
  · obtain rfl | hdigit := Numerals.mem_repr_int hc
    · decide
    · exact isSeparator_of_isDigit hdigit

theorem formatRegister_injective {reg reg' : RegNumber}
    (h : (formatRegister reg).toList = (formatRegister reg').toList) : reg = reg' := by
  rw [formatRegister, formatRegister, String.toList_append, String.toList_append] at h
  exact BitVec.eq_of_toNat_eq
    (Numerals.repr_injective (String.toList_inj.mp (List.append_cancel_left h)))

theorem formatImmediate_injective {value value' : BitVec 64}
    (h : (formatImmediate value).toList = (formatImmediate value').toList) : value = value' := by
  rw [formatImmediate, formatImmediate, String.toList_append, String.toList_append] at h
  exact BitVec.eq_of_toInt_eq
    (Numerals.repr_int_injective (String.toList_inj.mp (List.append_cancel_left h)))

section

variable {text : String} (h : IsToken text) (rest : List Char)

include h

theorem split_space : (text.toList ++ ' ' :: rest).splitOnP isSeparator =
    text.toList :: rest.splitOnP isSeparator :=
  List.splitOnP_append_cons_of_forall_mem h ' ' rfl rest

theorem split_comma : (text.toList ++ ',' :: ' ' :: rest).splitOnP isSeparator =
    text.toList :: [] :: rest.splitOnP isSeparator := by
  have hempty : ([] ++ ' ' :: rest).splitOnP isSeparator = [] :: rest.splitOnP isSeparator :=
    List.splitOnP_append_cons_of_forall_mem (List.forall_mem_nil _) ' ' rfl rest
  rw [List.splitOnP_append_cons_of_forall_mem h ',' rfl]
  exact congrArg (text.toList :: ·) hempty

theorem split_paren : (text.toList ++ '(' :: rest).splitOnP isSeparator =
    text.toList :: rest.splitOnP isSeparator :=
  List.splitOnP_append_cons_of_forall_mem h '(' rfl rest

theorem split_close : (text.toList ++ [')']).splitOnP isSeparator = [text.toList, []] :=
  List.splitOnP_append_cons_of_forall_mem h ')' rfl []

theorem split_last : text.toList.splitOnP isSeparator = [text.toList] :=
  List.splitOnP_eq_singleton h

end

/-- The tokens of the operands of each layout. -/
def ofRegisters (rd rs1 rs2 : RegNumber) : List (List Char) :=
  [(formatRegister rd).toList, [], (formatRegister rs1).toList, [], (formatRegister rs2).toList]

def ofImmediate (rd rs1 : RegNumber) (imm : BitVec 64) : List (List Char) :=
  [(formatRegister rd).toList, [], (formatRegister rs1).toList, [], (formatImmediate imm).toList]

def ofAddress (reg base : RegNumber) (imm : BitVec 64) : List (List Char) :=
  [(formatRegister reg).toList, [], (formatImmediate imm).toList, (formatRegister base).toList, []]

def ofTarget (rd : RegNumber) (imm : BitVec 64) : List (List Char) :=
  [(formatRegister rd).toList, [], (formatImmediate imm).toList]

section

variable {mnemonic : String} (h : IsToken mnemonic) (rd rs1 rs2 : RegNumber) (imm : BitVec 64)

include h

theorem tokens_emitBinaryOp :
    tokens (emitBinaryOp mnemonic rd rs1 rs2) = mnemonic.toList :: ofRegisters rd rs1 rs2 := by
  have htext : (emitBinaryOp mnemonic rd rs1 rs2).toList = mnemonic.toList ++ ' ' ::
      ((formatRegister rd).toList ++ ',' :: ' ' :: ((formatRegister rs1).toList ++ ',' :: ' ' ::
        (formatRegister rs2).toList)) := by
    simp [emitBinaryOp]
  rw [tokens, htext, split_space h, split_comma (isToken_formatRegister rd),
    split_comma (isToken_formatRegister rs1), split_last (isToken_formatRegister rs2)]
  rfl

theorem tokens_emitUnaryOp :
    tokens (emitUnaryOp mnemonic rd rs1 imm) = mnemonic.toList :: ofImmediate rd rs1 imm := by
  have htext : (emitUnaryOp mnemonic rd rs1 imm).toList = mnemonic.toList ++ ' ' ::
      ((formatRegister rd).toList ++ ',' :: ' ' :: ((formatRegister rs1).toList ++ ',' :: ' ' ::
        (formatImmediate imm).toList)) := by
    simp [emitUnaryOp]
  rw [tokens, htext, split_space h, split_comma (isToken_formatRegister rd),
    split_comma (isToken_formatRegister rs1), split_last (isToken_formatImmediate imm)]
  rfl

theorem tokens_emitLoad :
    tokens (emitLoad mnemonic rd rs1 imm) = mnemonic.toList :: ofAddress rd rs1 imm := by
  have htext : (emitLoad mnemonic rd rs1 imm).toList = mnemonic.toList ++ ' ' ::
      ((formatRegister rd).toList ++ ',' :: ' ' :: ((formatImmediate imm).toList ++ '(' ::
        ((formatRegister rs1).toList ++ [')']))) := by
    simp [emitLoad]
  rw [tokens, htext, split_space h, split_comma (isToken_formatRegister rd),
    split_paren (isToken_formatImmediate imm), split_close (isToken_formatRegister rs1)]
  rfl

theorem tokens_target :
    tokens (mnemonic ++ " " ++ formatRegister rd ++ ", " ++ formatImmediate imm) =
      mnemonic.toList :: ofTarget rd imm := by
  have htext : (mnemonic ++ " " ++ formatRegister rd ++ ", " ++ formatImmediate imm).toList =
      mnemonic.toList ++ ' ' :: ((formatRegister rd).toList ++ ',' :: ' ' ::
        (formatImmediate imm).toList) := by
    simp
  rw [tokens, htext, split_space h, split_comma (isToken_formatRegister rd),
    split_last (isToken_formatImmediate imm)]
  rfl

end

/-! ### The table of encodings -/

/-- The fields that a mnemonic fixes; `none` where they are an operand or ignored. -/
structure Encoding where
  opcode : Opcode
  funct3 : Option (BitVec 3) := none
  funct7 : Option (BitVec 7) := none
  deriving DecidableEq

def encodings : List (String × Encoding) :=
  [("add", { opcode := .op, funct3 := some 0, funct7 := some 0x00 }),
    ("sub", { opcode := .op, funct3 := some 0, funct7 := some 0x20 }),
    ("sll", { opcode := .op, funct3 := some 1, funct7 := some 0x00 }),
    ("slt", { opcode := .op, funct3 := some 2, funct7 := some 0x00 }),
    ("sltu", { opcode := .op, funct3 := some 3, funct7 := some 0x00 }),
    ("xor", { opcode := .op, funct3 := some 4, funct7 := some 0x00 }),
    ("srl", { opcode := .op, funct3 := some 5, funct7 := some 0x00 }),
    ("sra", { opcode := .op, funct3 := some 5, funct7 := some 0x20 }),
    ("or", { opcode := .op, funct3 := some 6, funct7 := some 0x00 }),
    ("and", { opcode := .op, funct3 := some 7, funct7 := some 0x00 }),
    ("addw", { opcode := .op32, funct3 := some 0, funct7 := some 0x00 }),
    ("subw", { opcode := .op32, funct3 := some 0, funct7 := some 0x20 }),
    ("sllw", { opcode := .op32, funct3 := some 1, funct7 := some 0x00 }),
    ("srlw", { opcode := .op32, funct3 := some 5, funct7 := some 0x00 }),
    ("sraw", { opcode := .op32, funct3 := some 5, funct7 := some 0x20 }),
    ("addi", { opcode := .opImm, funct3 := some 0 }),
    ("slti", { opcode := .opImm, funct3 := some 2 }),
    ("sltiu", { opcode := .opImm, funct3 := some 3 }),
    ("xori", { opcode := .opImm, funct3 := some 4 }),
    ("ori", { opcode := .opImm, funct3 := some 6 }),
    ("andi", { opcode := .opImm, funct3 := some 7 }),
    ("slli", { opcode := .opImm, funct3 := some 1, funct7 := some 0x00 }),
    ("srli", { opcode := .opImm, funct3 := some 5, funct7 := some 0x00 }),
    ("srai", { opcode := .opImm, funct3 := some 5, funct7 := some 0x20 }),
    ("addiw", { opcode := .opImm32, funct3 := some 0 }),
    ("slliw", { opcode := .opImm32, funct3 := some 1, funct7 := some 0x00 }),
    ("srliw", { opcode := .opImm32, funct3 := some 5, funct7 := some 0x00 }),
    ("sraiw", { opcode := .opImm32, funct3 := some 5, funct7 := some 0x20 }),
    ("lb", { opcode := .load, funct3 := some 0 }),
    ("lh", { opcode := .load, funct3 := some 1 }),
    ("lw", { opcode := .load, funct3 := some 2 }),
    ("ld", { opcode := .load, funct3 := some 3 }),
    ("lbu", { opcode := .load, funct3 := some 4 }),
    ("lhu", { opcode := .load, funct3 := some 5 }),
    ("lwu", { opcode := .load, funct3 := some 6 }),
    ("sb", { opcode := .store, funct3 := some 0 }),
    ("sh", { opcode := .store, funct3 := some 1 }),
    ("sw", { opcode := .store, funct3 := some 2 }),
    ("sd", { opcode := .store, funct3 := some 3 }),
    ("beq", { opcode := .branch, funct3 := some 0 }),
    ("bne", { opcode := .branch, funct3 := some 1 }),
    ("blt", { opcode := .branch, funct3 := some 4 }),
    ("bge", { opcode := .branch, funct3 := some 5 }),
    ("bltu", { opcode := .branch, funct3 := some 6 }),
    ("bgeu", { opcode := .branch, funct3 := some 7 }),
    ("jalr", { opcode := .jalr }),
    ("jal", { opcode := .jal }),
    ("lui", { opcode := .lui }),
    ("auipc", { opcode := .auipc })]

/-- The field has the value that the encoding asks for, if it asks for one. -/
def Fixes (field : Option α) (value : α) : Prop := field = none ∨ field = some value

/-- The table gives the mnemonic to the word. -/
def Named (d : InstructionDecoder) (mnemonic : String) : Prop :=
  ∃ e, encodings.lookup mnemonic = some e ∧ d.getOpcode = e.opcode ∧
    Fixes e.funct3 d.getFunct3 ∧ Fixes e.funct7 d.getFunct7

theorem fixes_some {value c : α} (h : value = c) : Fixes (some c) value := .inr (congrArg some h.symm)

theorem fixes_none (value : α) : Fixes none value := .inl rfl

/-- An opcode with a single mnemonic. -/
theorem Named.of_opcode {d : InstructionDecoder} {mnemonic : String} {opcode : Opcode}
    (hlookup : encodings.lookup mnemonic = some { opcode := opcode })
    (hopcode : d.getOpcode = opcode) : Named d mnemonic :=
  ⟨_, hlookup, hopcode, fixes_none _, fixes_none _⟩

theorem Named.isToken {d : InstructionDecoder} {mnemonic : String} (h : Named d mnemonic) :
    IsToken mnemonic := by
  obtain ⟨e, hlookup, -⟩ := h
  have hall : (encodings.all fun entry => entry.1.toList.all fun c => !isSeparator c) = true := by
    decide +kernel
  obtain ⟨before, after, htable, -⟩ := List.lookup_eq_some_iff.mp hlookup
  have htoken := List.all_eq_true.mp hall (mnemonic, e) (by rw [htable]; simp)
  intro c hc
  simpa using List.all_eq_true.mp htoken c hc

/-- The immediate as the shifts print it. -/
def shiftMasked (mask : BitVec 64) (d : InstructionDecoder) : BitVec 64 :=
  if d.getFunct3 = 1 ∨ d.getFunct3 = 5 then d.getImmediateI &&& mask else d.getImmediateI

/-- The tokens after the mnemonic. -/
def operands (d : InstructionDecoder) : List (List Char) :=
  match d.getOpcode with
  | .op | .op32 => ofRegisters d.getRD d.getRS1 d.getRS2
  | .opImm => ofImmediate d.getRD d.getRS1 (shiftMasked 0x3F d)
  | .opImm32 => ofImmediate d.getRD d.getRS1 (shiftMasked 0x1F d)
  | .load | .jalr => ofAddress d.getRD d.getRS1 d.getImmediateI
  | .store => ofAddress d.getRS2 d.getRS1 d.getImmediateS
  | .branch => ofImmediate d.getRS1 d.getRS2 d.getImmediateB
  | .jal => ofTarget d.getRD d.getImmediateJ
  | .lui | .auipc => ofTarget d.getRD (d.getImmediateU.sshiftRight 12)
  | .unlisted _ => []

section

variable {d : InstructionDecoder} {text : String}

theorem shiftMasked_plain {mask : BitVec 64} {c : BitVec 3} (h : d.getFunct3 = c)
    (hc : ¬(c = 1 ∨ c = 5)) : d.getImmediateI = shiftMasked mask d := by
  unfold shiftMasked
  rw [h, if_neg hc]

theorem shiftMasked_shift {mask : BitVec 64} {c : BitVec 3} (h : d.getFunct3 = c)
    (hc : c = 1 ∨ c = 5) : d.getImmediateI &&& mask = shiftMasked mask d := by
  unfold shiftMasked
  rw [h, if_pos hc]

theorem formatOpType_ok (hopcode : d.getOpcode = .op) (h : formatOpType d = .ok text) :
    ∃ mnemonic, Named d mnemonic ∧ text = emitBinaryOp mnemonic d.getRD d.getRS1 d.getRS2 := by
  unfold formatOpType at h
  simp only at h
  repeat' split at h
  all_goals first
    | contradiction
    | refine ⟨_, ?_, (Except.ok.inj h).symm⟩
      exact ⟨_, rfl, hopcode, fixes_some ‹_›, fixes_some ‹_›⟩

theorem formatOp32Type_ok (hopcode : d.getOpcode = .op32) (h : formatOp32Type d = .ok text) :
    ∃ mnemonic, Named d mnemonic ∧ text = emitBinaryOp mnemonic d.getRD d.getRS1 d.getRS2 := by
  unfold formatOp32Type at h
  simp only at h
  repeat' split at h
  all_goals first
    | contradiction
    | refine ⟨_, ?_, (Except.ok.inj h).symm⟩
      exact ⟨_, rfl, hopcode, fixes_some ‹_›, fixes_some ‹_›⟩

theorem formatOpImm_ok (hopcode : d.getOpcode = .opImm) (h : formatOpImm d = .ok text) :
    ∃ mnemonic imm, Named d mnemonic ∧ imm = shiftMasked 0x3F d ∧
      text = emitUnaryOp mnemonic d.getRD d.getRS1 imm := by
  unfold formatOpImm at h
  simp only at h
  repeat' split at h
  all_goals first
    | contradiction
    | refine ⟨_, _, ?_, shiftMasked_plain ‹_› (by decide), (Except.ok.inj h).symm⟩
      exact ⟨_, rfl, hopcode, fixes_some ‹_›, fixes_none _⟩
    | refine ⟨_, _, ?_, shiftMasked_shift ‹_› (by decide), (Except.ok.inj h).symm⟩
      exact ⟨_, rfl, hopcode, fixes_some ‹_›, fixes_some ‹_›⟩

theorem formatOpImm32_ok (hopcode : d.getOpcode = .opImm32) (h : formatOpImm32 d = .ok text) :
    ∃ mnemonic imm, Named d mnemonic ∧ imm = shiftMasked 0x1F d ∧
      text = emitUnaryOp mnemonic d.getRD d.getRS1 imm := by
  unfold formatOpImm32 at h
  simp only at h
  repeat' split at h
  all_goals first
    | contradiction
    | refine ⟨_, _, ?_, shiftMasked_plain ‹_› (by decide), (Except.ok.inj h).symm⟩
      exact ⟨_, rfl, hopcode, fixes_some ‹_›, fixes_none _⟩
    | refine ⟨_, _, ?_, shiftMasked_shift ‹_› (by decide), (Except.ok.inj h).symm⟩
      exact ⟨_, rfl, hopcode, fixes_some ‹_›, fixes_some ‹_›⟩

theorem formatLoad_ok (hopcode : d.getOpcode = .load) (h : formatLoad d = .ok text) :
    ∃ mnemonic, Named d mnemonic ∧ text = emitLoad mnemonic d.getRD d.getRS1 d.getImmediateI := by
  unfold formatLoad at h
  simp only at h
  repeat' split at h
  all_goals first
    | contradiction
    | refine ⟨_, ?_, (Except.ok.inj h).symm⟩
      exact ⟨_, rfl, hopcode, fixes_some ‹_›, fixes_none _⟩

theorem formatStore_ok (hopcode : d.getOpcode = .store) (h : formatStore d = .ok text) :
    ∃ mnemonic, Named d mnemonic ∧
      text = emitStore mnemonic d.getRS2 d.getRS1 d.getImmediateS := by
  unfold formatStore at h
  simp only at h
  repeat' split at h
  all_goals first
    | contradiction
    | refine ⟨_, ?_, (Except.ok.inj h).symm⟩
      exact ⟨_, rfl, hopcode, fixes_some ‹_›, fixes_none _⟩

theorem formatBranch_ok (hopcode : d.getOpcode = .branch) (h : formatBranch d = .ok text) :
    ∃ mnemonic, Named d mnemonic ∧
      text = emitBranch mnemonic d.getRS1 d.getRS2 d.getImmediateB := by
  unfold formatBranch at h
  simp only at h
  repeat' split at h
  all_goals first
    | contradiction
    | refine ⟨_, ?_, (Except.ok.inj h).symm⟩
      exact ⟨_, rfl, hopcode, fixes_some ‹_›, fixes_none _⟩

/-- A printed line consists of a mnemonic of the table and the operands. -/
theorem tokens_of_format (hlow : d.instructionWord &&& 0x3 = 0x3) (h : format d = .ok text) :
    ∃ mnemonic, Named d mnemonic ∧ tokens text = mnemonic.toList :: operands d := by
  unfold format at h
  rw [if_neg (not_not_intro hlow)] at h
  unfold operands
  cases hopcode : d.getOpcode with
  | op =>
    rw [hopcode] at h
    obtain ⟨mnemonic, hnamed, rfl⟩ := formatOpType_ok hopcode h
    exact ⟨mnemonic, hnamed, tokens_emitBinaryOp hnamed.isToken _ _ _⟩
  | opImm =>
    rw [hopcode] at h
    obtain ⟨mnemonic, _, hnamed, rfl, rfl⟩ := formatOpImm_ok hopcode h
    exact ⟨mnemonic, hnamed, tokens_emitUnaryOp hnamed.isToken _ _ _⟩
  | op32 =>
    rw [hopcode] at h
    obtain ⟨mnemonic, hnamed, rfl⟩ := formatOp32Type_ok hopcode h
    exact ⟨mnemonic, hnamed, tokens_emitBinaryOp hnamed.isToken _ _ _⟩
  | opImm32 =>
    rw [hopcode] at h
    obtain ⟨mnemonic, _, hnamed, rfl, rfl⟩ := formatOpImm32_ok hopcode h
    exact ⟨mnemonic, hnamed, tokens_emitUnaryOp hnamed.isToken _ _ _⟩
  | load =>
    rw [hopcode] at h
    obtain ⟨mnemonic, hnamed, rfl⟩ := formatLoad_ok hopcode h
    exact ⟨mnemonic, hnamed, tokens_emitLoad hnamed.isToken _ _ _⟩
  | store =>
    rw [hopcode] at h
    obtain ⟨mnemonic, hnamed, rfl⟩ := formatStore_ok hopcode h
    exact ⟨mnemonic, hnamed, tokens_emitLoad hnamed.isToken _ _ _⟩
  | branch =>
    rw [hopcode] at h
    obtain ⟨mnemonic, hnamed, rfl⟩ := formatBranch_ok hopcode h
    exact ⟨mnemonic, hnamed, tokens_emitUnaryOp hnamed.isToken _ _ _⟩
  | jalr =>
    rw [hopcode] at h
    have hnamed : Named d "jalr" := .of_opcode rfl hopcode
    obtain rfl := Except.ok.inj h
    exact ⟨"jalr", hnamed, tokens_emitLoad hnamed.isToken _ _ _⟩
  | jal =>
    rw [hopcode] at h
    have hnamed : Named d "jal" := .of_opcode rfl hopcode
    obtain rfl := Except.ok.inj h
    exact ⟨"jal", hnamed, tokens_target hnamed.isToken _ _⟩
  | lui =>
    rw [hopcode] at h
    have hnamed : Named d "lui" := .of_opcode rfl hopcode
    obtain rfl := Except.ok.inj h
    exact ⟨"lui", hnamed, tokens_target hnamed.isToken _ _⟩
  | auipc =>
    rw [hopcode] at h
    have hnamed : Named d "auipc" := .of_opcode rfl hopcode
    obtain rfl := Except.ok.inj h
    exact ⟨"auipc", hnamed, tokens_target hnamed.isToken _ _⟩
  | unlisted bits =>
    rw [hopcode] at h
    cases h

end

end Rv64Emu.Disassembly
