import Rv64Emu.Disassembly.Words
import Rv64Emu.ControlFlow
import Rv64Emu.MemoryBounds

/-! Disassembly loses nothing that execution depends on. Equal texts leave open
only funct3 of JALR, which no stage of the processor reads. -/
namespace Rv64Emu

/-! ### Another word at the program counter -/
namespace Clients

/-- The clients with `w` in the place of the word at `pc`. -/
def withWord (clients : Clients) (pc : MemAddress) (w : Width.word.Value) : Clients :=
  match clients.findClient pc with
  | some (.memory m) =>
    if h : m.inBounds pc .word then clients.replaceClient pc (.memory (m.stored .word pc w h))
    else clients
  | _ => clients

/-- A word is fetched from a memory. -/
theorem fetchWord_ok_cases {clients : Clients} {pc : MemAddress} {w : InstructionWord}
    (h : clients.fetchWord pc = .ok w) : ∃ m, clients.findClient pc = some (.memory m) ∧
      m.canAccess pc Width.word.bytes false = true ∧ m.inBounds pc .word := by
  unfold fetchWord read getClient at h
  cases hfind : clients.findClient pc with
  | none =>
    rw [hfind] at h
    cases h
  | some c =>
    rw [hfind] at h
    cases c with
    | serial d => cases h
    | sysStatus d => cases h
    | memory m =>
      change m.readData .word pc = .ok w at h
      unfold Memory.readData at h
      split at h
      · cases h
      · rename_i hcan
        split at h
        · rename_i hin
          exact ⟨m, rfl, by simpa using hcan, hin⟩
        · cases h

section

variable {clients : Clients} {pc : MemAddress} {v : InstructionWord}
  (h : clients.fetchWord pc = .ok v) (w : Width.word.Value)

include h

theorem withWord_eq : ∃ m, clients.findClient pc = some (.memory m) ∧
    m.canAccess pc Width.word.bytes false = true ∧ ∃ hin : m.inBounds pc .word,
      clients.withWord pc w = clients.replaceClient pc (.memory (m.stored .word pc w hin)) := by
  obtain ⟨m, hfind, hcan, hin⟩ := fetchWord_ok_cases h
  refine ⟨m, hfind, hcan, hin, ?_⟩
  unfold withWord
  rw [hfind]
  exact dif_pos hin

theorem fetchWord_withWord : (clients.withWord pc w).fetchWord pc = .ok w := by
  obtain ⟨m, hfind, hcan, hin, heq⟩ := withWord_eq h w
  rw [heq]
  have hsame : (Client.memory (m.stored .word pc w hin)).contains =
      (Client.memory m).contains := rfl
  exact (read_of_memory .word (findClient_replaceClient_self hfind hsame)).trans
    (Memory.readData_stored w hin hcan)

theorem shouldHalt_withWord : (clients.withWord pc w).shouldHalt = clients.shouldHalt := by
  obtain ⟨m, hfind, -, hin, heq⟩ := withWord_eq h w
  rw [heq]
  exact shouldHalt_replaceClient hfind rfl

/-- The other bytes are what they were. -/
theorem read_withWord {addr : MemAddress} (haddr : ¬(addr - pc).toNat < 4) :
    (clients.withWord pc w).read .byte addr = clients.read .byte addr := by
  obtain ⟨m, hfind, -, hin, heq⟩ := withWord_eq h w
  rw [heq]
  have hcontains : (Client.memory (m.stored .word pc w hin)).contains =
      (Client.memory m).contains := rfl
  have hcases : (clients.replaceClient pc (.memory (m.stored .word pc w hin))).findClient addr =
      clients.findClient addr ∨ _ := findClient_replaceClient hfind hcontains
  obtain hsame | ⟨hold, hnew⟩ := hcases
  · unfold read getClient
    rw [hsame]
  · rw [read_of_memory .byte hold, read_of_memory .byte hnew]
    refine Memory.readData_stored_of_disjoint w hin ?_
    obtain ⟨hpc, -, -⟩ := MemoryBounds.toNat_of_contains (MemoryBounds.contains_of_route hfind)
    obtain ⟨hat, -, -⟩ := MemoryBounds.toNat_of_contains (MemoryBounds.contains_of_route hold)
    have hpcOffset : m.offset pc = pc.toNat - m.base.toNat := BitVec.toNat_sub_of_le hpc
    have hatOffset : m.offset addr = addr.toNat - m.base.toNat := BitVec.toNat_sub_of_le hat
    rw [hpcOffset, hatOffset]
    change _ + 1 ≤ _ ∨ _ + 4 ≤ _
    rw [BitVec.toNat_sub] at haddr
    have hpcLt := pc.isLt
    have hatLt := addr.isLt
    omega

end

end Clients

namespace Disassembly

open Processor Formatter

/-- The machine with `w` in the place of the word at PC. -/
def withWord (s : Processor) (w : InstructionWord) : Processor :=
  { s with bus := { s.bus with clients := s.bus.clients.withWord s.pc w } }

/-- Nothing tells the two states apart but the word at `start`. -/
structure SameEffect (start : MemAddress) (t t' : Processor) : Prop where
  registers : t.regfile.registers = t'.regfile.registers
  pc : t.pc = t'.pc
  memory : ∀ addr, ¬(addr - start).toNat < 4 →
    t.bus.clients.read .byte addr = t'.bus.clients.read .byte addr

/-- Five cycles from the one state and from the other have the same effect. -/
def SameFiveCycles (start : MemAddress) (s s' : Processor) : Prop :=
  (Runs.steps next 5 s = none ∧ Runs.steps next 5 s' = none) ∨
    ∃ t t', Runs.steps next 5 s = some t ∧ Runs.steps next 5 s' = some t' ∧ SameEffect start t t'

theorem sameFiveCycles_refl (start : MemAddress) (s : Processor) : SameFiveCycles start s s := by
  cases ht : Runs.steps next 5 s with
  | none => exact .inl ⟨ht, ht⟩
  | some t => exact .inr ⟨t, t, ht, ht, rfl, rfl, fun _ _ => rfl⟩

/-- A text that is not the one of the handler is that of an instruction. -/
theorem format_of_print {d : InstructionDecoder} (h : print d ≠ "illegal instruction") :
    format d = .ok (print d) := by
  unfold print at h ⊢
  cases hformat : format d with
  | ok text => rfl
  | error e =>
    rw [hformat] at h
    exact absurd rfl h

theorem sameInstruction_of_print {w w' : InstructionWord} (hlow : w &&& 0x3 = 0x3)
    (hlow' : w' &&& 0x3 = 0x3) (hprints : print ⟨w⟩ ≠ "illegal instruction")
    (h : print ⟨w⟩ = print ⟨w'⟩) : SameInstruction w w' := by
  have hformat := format_of_print hprints
  have hformat' := format_of_print (h ▸ hprints)
  obtain ⟨mnemonic, hnamed, htokens⟩ := tokens_of_format hlow hformat
  obtain ⟨mnemonic', hnamed', htokens'⟩ := tokens_of_format hlow' hformat'
  rw [h, htokens', List.cons.injEq] at htokens
  obtain ⟨hmnemonic, hoperands⟩ := htokens
  rw [String.toList_inj.mp hmnemonic] at hnamed'
  exact sameInstruction_of_tokens hnamed hnamed' hoperands.symm

/-! ### JALR -/

/-- Five cycles of a JALR, whatever its funct3. -/
theorem jalr_cycles {s : Processor} {v w : InstructionWord} (hs : AtStage 0 s)
    (hword : s.bus.clients.fetchWord s.pc = .ok v) (hhalt : s.shouldHalt = false)
    (hopcode : InstructionDecoder.getOpcode ⟨w⟩ = .jalr) :
    ∃ t, Runs.steps next 5 (withWord s w) = some t ∧
      t.regfile.registers = s.regfile.registers.writeRegister (w.extractLsb' 7 5) (s.pc + 4) ∧
      t.pc = (s.regfile.registers.readRegister (w.extractLsb' 15 5) +
        (w.extractLsb' 20 12).signExtend 64) &&& ~~~1 ∧
      t.bus.clients = s.bus.clients.withWord s.pc w := by
  have hmarker : w ≠ testEndMarker := by
    rintro rfl
    exact absurd hopcode (by decide)
  have hfetch : (withWord s w).arch.fetch = .ok w :=
    ArchState.fetch_ok_iff.mpr ⟨Clients.fetchWord_withWord hword w, hmarker⟩
  have hstep := ControlFlow.step_of_jump hfetch (.inr hopcode)
    (ControlFlow.getImmediate_jalr hopcode) rfl
  rw [if_neg (by rw [hopcode]; decide), InstructionDecoder.getRD_eq, InstructionDecoder.getRS1_eq,
    InstructionDecoder.getImmediateI_eq] at hstep
  have hhalt' : (withWord s w).shouldHalt = false :=
    (Clients.shouldHalt_withWord hword w).trans hhalt
  obtain ⟨t, ht, -, harch⟩ :=
    instruction_steps (s := withWord s w) ⟨hs.pipelining, hs.currentStage, hs.endMarkerSeen⟩
      (ArchState.next_eq_some_iff.mpr ⟨hhalt', hstep⟩) hhalt'
  exact ⟨t, ht, congrArg ArchState.registers harch, congrArg ArchState.pc harch,
    congrArg ArchState.clients harch⟩

theorem jalr_sameFiveCycles {s : Processor} {v w w' : InstructionWord} (hs : AtStage 0 s)
    (hword : s.bus.clients.fetchWord s.pc = .ok v)
    (hopcode : InstructionDecoder.getOpcode ⟨w⟩ = .jalr) (hlow : AgreeOn 0 12 w w')
    (hhigh : AgreeOn 15 17 w w') : SameFiveCycles s.pc (withWord s w) (withWord s w') := by
  have hopcode' : InstructionDecoder.getOpcode ⟨w'⟩ = .jalr := by
    rw [InstructionDecoder.getOpcode_eq] at hopcode ⊢
    rw [← show AgreeOn 0 7 w w' from agreeOn_part hlow (by decide) (by decide)]
    exact hopcode
  have hrd : AgreeOn 7 5 w w' := agreeOn_part hlow (by decide) (by decide)
  have hrs1 : AgreeOn 15 5 w w' := agreeOn_part hhigh (by decide) (by decide)
  have himm : AgreeOn 20 12 w w' := agreeOn_part hhigh (by decide) (by decide)
  cases hhalt : s.shouldHalt with
  | true =>
    have hstuck : ∀ u, Runs.steps next 5 (withWord s u) = none := by
      intro u
      have hnext : next (withWord s u) = none :=
        if_pos ((Clients.shouldHalt_withWord hword u).trans hhalt)
      cases hsteps : Runs.steps next 5 (withWord s u) with
      | none => rfl
      | some t =>
        obtain ⟨t', ht'⟩ := Runs.steps_of_le (show 1 ≤ 5 by decide) hsteps
        exact absurd (hnext.symm.trans ht') (by simp)
    exact .inl ⟨hstuck w, hstuck w'⟩
  | false =>
    obtain ⟨t, ht, hregisters, hpc, hclients⟩ := jalr_cycles hs hword hhalt hopcode
    obtain ⟨t', ht', hregisters', hpc', hclients'⟩ := jalr_cycles hs hword hhalt hopcode'
    refine .inr ⟨t, t', ht, ht', ?_, ?_, fun addr haddr => ?_⟩
    · rw [hregisters, hregisters', show w.extractLsb' 7 5 = _ from hrd]
    · rw [hpc, hpc', show w.extractLsb' 15 5 = _ from hrs1, show w.extractLsb' 20 12 = _ from himm]
    · rw [hclients, hclients', Clients.read_withWord hword w haddr,
        Clients.read_withWord hword w' haddr]

/-- Equal texts are texts of one instruction, and so have one effect. -/
theorem print_faithful {w w' : InstructionWord} (hlow : w &&& 0x3 = 0x3) (hlow' : w' &&& 0x3 = 0x3)
    (hprints : print ⟨w⟩ ≠ "illegal instruction") (h : print ⟨w⟩ = print ⟨w'⟩) :
    SameInstruction w w' ∧ ∀ (s : Processor) (v : InstructionWord), AtStage 0 s →
      s.bus.clients.fetchWord s.pc = .ok v →
      SameFiveCycles s.pc (withWord s w) (withWord s w') := by
  have hsame := sameInstruction_of_print hlow hlow' hprints h
  refine ⟨hsame, fun s v hs hword => ?_⟩
  obtain rfl | ⟨hopcode, hlow, hhigh⟩ := hsame
  · exact sameFiveCycles_refl s.pc _
  · exact jalr_sameFiveCycles hs hword hopcode hlow hhigh

/-- `jalr r1, $8(r1)` with funct3 0 and with funct3 7. -/
theorem print_faithful_jalr : SameInstruction 0x008080e7 0x0080f0e7 ∧
    SameFiveCycles 0x1000 (withWord ControlFlow.linkToBaseBoot 0x008080e7)
      (withWord ControlFlow.linkToBaseBoot 0x0080f0e7) := by
  obtain ⟨hsame, hcycles⟩ := print_faithful
    (show (0x008080e7 : InstructionWord) &&& 0x3 = 0x3 by decide)
    (show (0x0080f0e7 : InstructionWord) &&& 0x3 = 0x3 by decide)
    (by decide +kernel) (by decide +kernel)
  exact ⟨hsame, hcycles ControlFlow.linkToBaseBoot 0x008080e7 (atStage_boot _ _)
    (show ControlFlow.linkToBaseBoot.bus.clients.fetchWord 0x1000 = .ok 0x008080e7 by
      decide +kernel)⟩

end Disassembly

end Rv64Emu
