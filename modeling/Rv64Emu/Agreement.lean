import Rv64Emu.Machine.Fields
import Rv64Emu.Machine.Formatter
import Rv64Emu.Sequential.NonPipelined

/-! Where the disassembler and the executor agree on what is an instruction.
Both are described by one classification of the encodings; they part on the
encodings for which the control table has a silent default. -/
namespace Rv64Emu.Agreement

open Processor Formatter

/-- The control table has no entry: the ALU operation stays `nop`, or the
branch condition is the one that never holds. -/
def fallsThrough (decoder : InstructionDecoder) : Bool :=
  match decoder.getOpcode with
  | .op => ControlSignals.opALUOp decoder.getFunct3 decoder.getFunct7 == .nop
  | .opImm => ControlSignals.opImmALUOp decoder.getFunct3 decoder.getFunct7 == .nop
  | .op32 => ControlSignals.op32ALUOp decoder.getFunct3 decoder.getFunct7 == .nop
  | .opImm32 => ControlSignals.opImm32ALUOp decoder.getFunct3 decoder.getFunct7 == .nop
  | .branch => decoder.getFunct3 == 2 || decoder.getFunct3 == 3
  | _ => false

/-- The encodings that the formatter does not know. -/
def rejected (decoder : InstructionDecoder) : Bool :=
  match decoder.getOpcode with
  | .load => (ControlSignals.loadAccess decoder.getFunct3).1 == 0
  | .store => ControlSignals.storeSize decoder.getFunct3 == 0
  | .unlisted _ => true
  | _ => fallsThrough decoder

theorem rejected_of_fallsThrough {decoder : InstructionDecoder}
    (h : fallsThrough decoder = true) : rejected decoder = true := by
  unfold rejected
  cases hopcode : decoder.getOpcode with
  | op | opImm | op32 | opImm32 | branch => exact h
  | unlisted bits => rfl
  | _ =>
    unfold fallsThrough at h
    rw [hopcode] at h
    cases h

/-! ### The formatter -/

/-- The formatter throws exactly when `rejects` says so; a text that it returns
begins with the first letter of a mnemonic. -/
def Outcome (x : Except Exception String) (rejects : Bool) : Prop :=
  match x with
  | .ok text => rejects = false ∧ ∃ c, text.toList.head? = some c ∧ c ≠ 'i'
  | .error _ => rejects = true

theorem outcome_mnemonic {mnemonic : String} (rest : String) {c : Char}
    (h : mnemonic.toList.head? = some c) (hc : c ≠ 'i') :
    Outcome (.ok (mnemonic ++ rest)) false := by
  refine ⟨rfl, c, ?_, hc⟩
  rw [String.toList_append, List.head?_append, h]
  rfl

theorem outcome_binary {mnemonic : String} (rd rs1 rs2 : RegNumber) {c : Char}
    (h : mnemonic.toList.head? = some c) (hc : c ≠ 'i') :
    Outcome (.ok (emitBinaryOp mnemonic rd rs1 rs2)) false := by
  simp only [emitBinaryOp, String.append_assoc]
  exact outcome_mnemonic _ h hc

theorem outcome_unary {mnemonic : String} (rd rs1 : RegNumber) (imm : BitVec 64) {c : Char}
    (h : mnemonic.toList.head? = some c) (hc : c ≠ 'i') :
    Outcome (.ok (emitUnaryOp mnemonic rd rs1 imm)) false := by
  simp only [emitUnaryOp, String.append_assoc]
  exact outcome_mnemonic _ h hc

theorem outcome_load {mnemonic : String} (rd rs1 : RegNumber) (imm : BitVec 64) {c : Char}
    (h : mnemonic.toList.head? = some c) (hc : c ≠ 'i') :
    Outcome (.ok (emitLoad mnemonic rd rs1 imm)) false := by
  simp only [emitLoad, String.append_assoc]
  exact outcome_mnemonic _ h hc

theorem outcome_store {mnemonic : String} (rs2 rs1 : RegNumber) (imm : BitVec 64) {c : Char}
    (h : mnemonic.toList.head? = some c) (hc : c ≠ 'i') :
    Outcome (.ok (emitStore mnemonic rs2 rs1 imm)) false := by
  simp only [emitStore, String.append_assoc]
  exact outcome_mnemonic _ h hc

theorem outcome_branch {mnemonic : String} (rs1 rs2 : RegNumber) (imm : BitVec 64) {c : Char}
    (h : mnemonic.toList.head? = some c) (hc : c ≠ 'i') :
    Outcome (.ok (emitBranch mnemonic rs1 rs2 imm)) false := by
  simp only [emitBranch, String.append_assoc]
  exact outcome_mnemonic _ h hc

theorem formatOpType_outcome (d : InstructionDecoder) :
    Outcome (formatOpType d) (ControlSignals.opALUOp d.getFunct3 d.getFunct7 == .nop) := by
  unfold formatOpType ControlSignals.opALUOp
  generalize d.getFunct3 = funct3
  generalize d.getFunct7 = funct7
  by_cases h₀ : funct7 = 0x00
  · subst h₀
    rcases funct3_cases funct3 with rfl | rfl | rfl | rfl | rfl | rfl | rfl | rfl <;>
      exact outcome_binary _ _ _ rfl (by decide)
  · by_cases h₂ : funct7 = 0x20
    · subst h₂
      rcases funct3_cases funct3 with rfl | rfl | rfl | rfl | rfl | rfl | rfl | rfl <;>
        first | exact outcome_binary _ _ _ rfl (by decide) | rfl
    · simp only [h₀, h₂, if_false, and_false]
      rcases funct3_cases funct3 with rfl | rfl | rfl | rfl | rfl | rfl | rfl | rfl <;> rfl

theorem formatOp32Type_outcome (d : InstructionDecoder) :
    Outcome (formatOp32Type d) (ControlSignals.op32ALUOp d.getFunct3 d.getFunct7 == .nop) := by
  unfold formatOp32Type ControlSignals.op32ALUOp
  generalize d.getFunct3 = funct3
  generalize d.getFunct7 = funct7
  by_cases h₀ : funct7 = 0x00
  · subst h₀
    rcases funct3_cases funct3 with rfl | rfl | rfl | rfl | rfl | rfl | rfl | rfl <;>
      first | exact outcome_binary _ _ _ rfl (by decide) | rfl
  · by_cases h₂ : funct7 = 0x20
    · subst h₂
      rcases funct3_cases funct3 with rfl | rfl | rfl | rfl | rfl | rfl | rfl | rfl <;>
        first | exact outcome_binary _ _ _ rfl (by decide) | rfl
    · simp only [h₀, h₂, if_false, and_false]
      rcases funct3_cases funct3 with rfl | rfl | rfl | rfl | rfl | rfl | rfl | rfl <;> rfl

theorem formatOpImm_outcome (d : InstructionDecoder) :
    Outcome (formatOpImm d) (ControlSignals.opImmALUOp d.getFunct3 d.getFunct7 == .nop) := by
  unfold formatOpImm ControlSignals.opImmALUOp
  generalize d.getFunct3 = funct3
  generalize d.getFunct7 = funct7
  rcases funct3_cases funct3 with rfl | rfl | rfl | rfl | rfl | rfl | rfl | rfl
  case inr.inl | inr.inr.inr.inr.inr.inl =>
    by_cases h₀ : funct7 = 0x00
    · subst h₀
      exact outcome_unary _ _ _ rfl (by decide)
    · by_cases h₂ : funct7 = 0x20
      · subst h₂
        first | exact outcome_unary _ _ _ rfl (by decide) | rfl
      · simp only [h₀, h₂, if_false, and_false]
        rfl
  all_goals exact outcome_unary _ _ _ rfl (by decide)

theorem formatOpImm32_outcome (d : InstructionDecoder) :
    Outcome (formatOpImm32 d) (ControlSignals.opImm32ALUOp d.getFunct3 d.getFunct7 == .nop) := by
  unfold formatOpImm32 ControlSignals.opImm32ALUOp
  generalize d.getFunct3 = funct3
  generalize d.getFunct7 = funct7
  rcases funct3_cases funct3 with rfl | rfl | rfl | rfl | rfl | rfl | rfl | rfl
  case inl => exact outcome_unary _ _ _ rfl (by decide)
  case inr.inl | inr.inr.inr.inr.inr.inl =>
    by_cases h₀ : funct7 = 0x00
    · subst h₀
      exact outcome_unary _ _ _ rfl (by decide)
    · by_cases h₂ : funct7 = 0x20
      · subst h₂
        first | exact outcome_unary _ _ _ rfl (by decide) | rfl
      · simp only [h₀, h₂, if_false, and_false]
        rfl
  all_goals rfl

theorem formatLoad_outcome (d : InstructionDecoder) :
    Outcome (formatLoad d) ((ControlSignals.loadAccess d.getFunct3).1 == 0) := by
  unfold formatLoad ControlSignals.loadAccess
  generalize d.getFunct3 = funct3
  rcases funct3_cases funct3 with rfl | rfl | rfl | rfl | rfl | rfl | rfl | rfl <;>
    first | exact outcome_load _ _ _ rfl (by decide) | rfl

theorem formatStore_outcome (d : InstructionDecoder) :
    Outcome (formatStore d) (ControlSignals.storeSize d.getFunct3 == 0) := by
  unfold formatStore ControlSignals.storeSize
  generalize d.getFunct3 = funct3
  rcases funct3_cases funct3 with rfl | rfl | rfl | rfl | rfl | rfl | rfl | rfl <;>
    first | exact outcome_store _ _ _ rfl (by decide) | rfl

theorem formatBranch_outcome (d : InstructionDecoder) :
    Outcome (formatBranch d) (d.getFunct3 == 2 || d.getFunct3 == 3) := by
  unfold formatBranch
  generalize d.getFunct3 = funct3
  rcases funct3_cases funct3 with rfl | rfl | rfl | rfl | rfl | rfl | rfl | rfl <;>
    first | exact outcome_branch _ _ _ rfl (by decide) | rfl

theorem format_outcome {d : InstructionDecoder} (hlow : d.instructionWord &&& 0x3 = 0x3) :
    Outcome (format d) (rejected d) := by
  unfold format rejected fallsThrough
  rw [if_neg (not_not.mpr hlow)]
  cases d.getOpcode with
  | op => exact formatOpType_outcome d
  | opImm => exact formatOpImm_outcome d
  | op32 => exact formatOp32Type_outcome d
  | opImm32 => exact formatOpImm32_outcome d
  | load => exact formatLoad_outcome d
  | store => exact formatStore_outcome d
  | branch => exact formatBranch_outcome d
  | unlisted bits => rfl
  | jalr | jal | lui | auipc =>
    simp only [String.append_assoc]
    exact outcome_mnemonic _ rfl (by decide)

theorem print_illegal_iff {d : InstructionDecoder} (hlow : d.instructionWord &&& 0x3 = 0x3) :
    print d = "illegal instruction" ↔ rejected d = true := by
  have houtcome := format_outcome hlow
  unfold print
  cases hformat : format d with
  | error e =>
    rw [hformat] at houtcome
    exact ⟨fun _ => houtcome, fun _ => rfl⟩
  | ok text =>
    rw [hformat] at houtcome
    obtain ⟨hfalse, c, hhead, hc⟩ := houtcome
    rw [hfalse]
    constructor
    · intro htext
      change text = "illegal instruction" at htext
      rw [htext] at hhead
      exact absurd (Option.some.inj hhead).symm hc
    · intro h
      cases h

/-! ### The executor -/

theorem getImmediate_ok {d : InstructionDecoder} (h : ∀ bits, d.getOpcode ≠ .unlisted bits) :
    ∃ immediate, d.getImmediate = .ok immediate := by
  unfold InstructionDecoder.getImmediate InstructionDecoder.getInstructionType
  cases hopcode : d.getOpcode with
  | unlisted bits => exact absurd hopcode (h bits)
  | _ => exact ⟨_, rfl⟩

theorem getImmediate_unlisted {d : InstructionDecoder} {bits : BitVec 7}
    (h : d.getOpcode = .unlisted bits) :
    d.getImmediate = .error (.illegalInstruction "Unknown opcode") := by
  unfold InstructionDecoder.getImmediate InstructionDecoder.getInstructionType
  rw [h]
  rfl

section

variable {σ : ArchState} {word : InstructionWord} (hfetch : σ.fetch = .ok word)

include hfetch

theorem decode_of_listed (h : ∀ bits, InstructionDecoder.getOpcode ⟨word⟩ ≠ .unlisted bits) :
    ∃ idEx, σ.decode = .ok idEx ∧ idEx.control = ControlSignals.setFromInstruction ⟨word⟩ := by
  obtain ⟨immediate, himm⟩ := getImmediate_ok h
  exact ⟨_, ArchState.decode_ok_iff.mpr ⟨word, hfetch,
    decodeAt_ok_iff.mpr ⟨immediate, himm, rfl⟩⟩, rfl⟩

theorem step_of_unlisted {bits : BitVec 7}
    (h : InstructionDecoder.getOpcode ⟨word⟩ = .unlisted bits) :
    σ.step = .error (.illegalInstruction "Unknown opcode") := by
  apply ArchState.step_of_decode_error
  unfold ArchState.decode decodeAt
  rw [hfetch]
  simp only [bind, Except.bind, getImmediate_unlisted h]
  rfl

/-- An access whose funct3 is in neither table is refused for its size. -/
theorem step_of_sizeless
    (hlisted : ∀ bits, InstructionDecoder.getOpcode ⟨word⟩ ≠ .unlisted bits)
    (haccess : ((ControlSignals.setFromInstruction ⟨word⟩).memRead ||
      (ControlSignals.setFromInstruction ⟨word⟩).memWrite) = true)
    (hsize : (ControlSignals.setFromInstruction ⟨word⟩).memSize = 0) :
    σ.step = .error (invalidSize 0) := by
  obtain ⟨idEx, hdecode, hcontrol⟩ := decode_of_listed hfetch hlisted
  apply ArchState.step_of_load_error hdecode
  unfold EXMRegisters.load
  change (if idEx.control.memRead || idEx.control.memWrite then
    if Width.ofSize idEx.control.memSize = none then
      Except.error (invalidSize idEx.control.memSize)
    else _ else _) = _
  rw [hcontrol, hsize, if_pos haccess]
  rfl

/-- A silent default executes as an instruction without memory access. -/
theorem step_of_fallsThrough (h : fallsThrough ⟨word⟩ = true) : ∃ τ, σ.step = .ok τ := by
  have hlisted : ∀ bits, InstructionDecoder.getOpcode ⟨word⟩ ≠ .unlisted bits := by
    intro bits hbits
    unfold fallsThrough at h
    rw [hbits] at h
    cases h
  obtain ⟨idEx, hdecode, hcontrol⟩ := decode_of_listed hfetch hlisted
  have hidle : idEx.control.memRead = false ∧ idEx.control.memWrite = false := by
    rw [hcontrol]
    unfold fallsThrough at h
    unfold ControlSignals.setFromInstruction
    cases hopcode : InstructionDecoder.getOpcode ⟨word⟩ with
    | op | opImm | op32 | opImm32 | branch => exact ⟨rfl, rfl⟩
    | _ =>
      rw [hopcode] at h
      cases h
  exact ⟨_, ArchState.step_of_noAccess hdecode hidle.1 hidle.2⟩

/-- Whatever else the formatter rejects is refused with an exception. -/
theorem step_of_rejected (h : rejected ⟨word⟩ = true) (hfall : fallsThrough ⟨word⟩ = false) :
    ∃ e, σ.step = .error e ∧ e.isCatchable = true := by
  unfold rejected at h
  cases hopcode : InstructionDecoder.getOpcode ⟨word⟩ with
  | unlisted bits => exact ⟨_, step_of_unlisted hfetch hopcode, rfl⟩
  | load =>
    rw [hopcode] at h
    refine ⟨_, step_of_sizeless hfetch (by simp [hopcode]) ?_ ?_, rfl⟩
    · unfold ControlSignals.setFromInstruction
      rw [hopcode]
      rfl
    · unfold ControlSignals.setFromInstruction
      rw [hopcode]
      exact beq_iff_eq.mp h
  | store =>
    rw [hopcode] at h
    refine ⟨_, step_of_sizeless hfetch (by simp [hopcode]) ?_ ?_, rfl⟩
    · unfold ControlSignals.setFromInstruction
      rw [hopcode]
      rfl
    · unfold ControlSignals.setFromInstruction
      rw [hopcode]
      exact beq_iff_eq.mp h
  | _ =>
    rw [hopcode] at h
    change fallsThrough ⟨word⟩ = true at h
    rw [hfall] at h
    cases h

/-- A word that the formatter knows is never refused as illegal. -/
theorem step_of_known (h : rejected ⟨word⟩ = false) (what : String) :
    σ.step ≠ .error (.illegalInstruction what) := by
  have hlisted : ∀ bits, InstructionDecoder.getOpcode ⟨word⟩ ≠ .unlisted bits := by
    intro bits hbits
    unfold rejected at h
    rw [hbits] at h
    cases h
  intro hstep
  obtain herror | ⟨word', hword, hat⟩ | ⟨idEx, -, haccess⟩ := ArchState.step_error_cases hstep
  · cases hfetch.symm.trans herror
  · cases hfetch.symm.trans hword
    obtain ⟨immediate, himm⟩ := getImmediate_ok hlisted
    unfold decodeAt at hat
    rw [himm] at hat
    cases hat
  · exact absurd (ArchState.accessFails_error haccess) (by simp [Exception.isAccessError])

end

/-! ### Agreement -/

/-- One of the next five cycles throws, with registers and memory as before. -/
def RaisesUnchanged (s : Processor) : Prop :=
  ∃ n t e u, n < 5 ∧ Runs.steps next n s = some t ∧ t.shouldHalt = false ∧
    cycle t = .error e u ∧ e.isCatchable = true ∧
    u.regfile.registers = s.regfile.registers ∧ u.bus.clients = s.bus.clients

def RaisesIllegal (s : Processor) : Prop :=
  ∃ what, Raises s (.illegalInstruction what)

/-- What the disassembler says of the word at the PC is what execution does. -/
def AgreesOn (s : Processor) (word : InstructionWord) : Prop :=
  (print ⟨word⟩ = "illegal instruction" → RaisesUnchanged s) ∧
    (print ⟨word⟩ ≠ "illegal instruction" → ¬RaisesIllegal s)

theorem agreesOn_iff {program : Program} {registers : Registers} {s : Processor}
    {word : InstructionWord} (hs : Boundary program registers s)
    (hword : s.bus.clients.fetchWord s.pc = .ok word) (hmarker : word ≠ testEndMarker)
    (hlow : word &&& 0x3 = 0x3) : AgreesOn s word ↔ fallsThrough ⟨word⟩ = false := by
  obtain ⟨hstage, hhalt⟩ := hs.atStage
  have hfetch : s.arch.fetch = .ok word := ArchState.fetch_ok_iff.mpr ⟨hword, hmarker⟩
  have hprint := print_illegal_iff (d := ⟨word⟩) hlow
  constructor
  · rintro ⟨hillegal, -⟩
    by_contra hfall
    have hfall' : fallsThrough ⟨word⟩ = true := by simpa using hfall
    have hrejected := rejected_of_fallsThrough hfall'
    obtain ⟨n, t, e, u, hn, ht, hhalt', hcycle, -⟩ := hillegal (hprint.mpr hrejected)
    obtain ⟨τ, hτ⟩ := step_of_fallsThrough hfetch hfall'
    have hstep := (raises_iff hstage hhalt).mp ⟨n, t, u, hn, ht, hhalt', hcycle⟩
    cases hτ.symm.trans hstep
  · intro hfall
    refine ⟨fun hillegal => ?_, fun hknown => ?_⟩
    · obtain ⟨e, hstep, hcatch⟩ := step_of_rejected hfetch (hprint.mp hillegal) hfall
      obtain ⟨n, t, u, hn, ht, hhalt', hcycle, hregisters, hclients, -⟩ :=
        instruction_error hstage hhalt hstep
      exact ⟨n, t, e, u, hn, ht, hhalt', hcycle, hcatch, hregisters, hclients⟩
    · rintro ⟨what, n, t, u, hn, ht, hhalt', hcycle⟩
      have hstep := (raises_iff hstage hhalt).mp ⟨n, t, u, hn, ht, hhalt', hcycle⟩
      have hrejected : rejected ⟨word⟩ = false := by
        cases hr : rejected ⟨word⟩ with
        | false => rfl
        | true => exact absurd (hprint.mpr hr) hknown
      exact step_of_known hfetch hrejected what hstep

/-- `mul x1, x2, x3` of the M extension, alone in memory. -/
def multiply : Program :=
  { memories := [Memory.ofWords false 0x1000 [0x023100b3]]
    entrypoint := 0x1000 }

def multiplyBoot : Processor := boot multiply false (Vector.replicate 31 7)

/-- The disassembler calls the multiplication illegal; it executes as a write
of zero to its target. -/
theorem multiply_disagrees : ¬∀ (program : Program) (registers : Registers) (s : Processor)
    (word : InstructionWord), Boundary program registers s →
    s.bus.clients.fetchWord s.pc = .ok word → word ≠ testEndMarker → word &&& 0x3 = 0x3 →
    AgreesOn s word := by
  intro h
  have hagrees := h multiply (Vector.replicate 31 7) multiplyBoot 0x023100b3
    (boundary_boot _ _) (by decide +kernel) (by decide) (by decide)
  obtain ⟨n, t, e, u, hn, ht, -, hcycle, -⟩ := hagrees.1 (by decide +kernel)
  have hfive : (Runs.steps next 5 multiplyBoot).isSome = true := by decide +kernel
  obtain ⟨v, hv⟩ := Option.isSome_iff_exists.mp hfive
  obtain ⟨w, hw⟩ := Runs.steps_of_le (show n + 1 ≤ 5 by omega) hv
  rw [Runs.steps_succ, ht, Option.bind_some, next_none_of_error hcycle] at hw
  cases hw

theorem agreesOn_iff_multiply : AgreesOn multiplyBoot 0x023100b3 ↔
    fallsThrough ⟨0x023100b3⟩ = false :=
  agreesOn_iff (boundary_boot multiply (Vector.replicate 31 7)) (by decide +kernel) (by decide)
    (by decide)

end Rv64Emu.Agreement
