import Rv64Emu.Pipelined.Conformance
import Rv64Emu.Pipelined.EndMarker
import Rv64Emu.Pipelined.ReadAhead

/-! The pipeline in a run that is spaced. Nothing that IF and ID read ahead throws,
no instruction gets lost, and the end marker that IF meets is the one that the
machine comes to. -/
namespace Rv64Emu.Processor

variable {program : Program} {registers : Registers}

/-- What no store changes is what is fetched at any time. -/
theorem fetchWord_of_codeAt (hapart : program.Apart) {k : Nat} {σ : ArchState}
    (hsteps : Runs.steps ArchState.next k (boot program false registers).arch = some σ)
    {addr : MemAddress} {word : InstructionWord} (hcode : program.codeAt addr = some word) :
    σ.clients.fetchWord addr = .ok word := by
  unfold Program.codeAt at hcode
  split at hcode
  case isFalse => cases hcode
  case isTrue hbounds =>
  rw [Bool.and_eq_true, Bool.not_eq_true'] at hbounds
  obtain ⟨hreadable, hwritable⟩ := hbounds
  obtain ⟨m, hm, hrange⟩ := Program.readable_iff.mp hreadable
  have hword : m.CoversRange addr Width.word.bytes := hrange
  have hreadOnly := Conformance.readOnlyAt_of_unwritable hapart hwritable false registers
  have hboot : (boot program false registers).bus.clients.fetchWord addr = .ok word := by
    rw [Program.clients_boot hapart, ← Option.some.inj hcode]
    exact Program.read_inside hapart program.image false hm hword
  exact (readOnlyAt_steps (σ := (boot program false registers).arch) hreadOnly hsteps).2.trans hboot

/-! ### The machine behind the latches -/

section

variable (hspaced : SpacedRun program registers) {k : Nat} {σ τ : ArchState}
  (hsteps : Runs.steps ArchState.next k (boot program false registers).arch = some σ)
  (hrun : σ.clients.shouldHalt = false) {token : Option MemAddress}

include hspaced hsteps hrun

/-- An instruction that has been fetched takes its step. -/
theorem past_of_spaced (hfetch : ∀ p, token = some p → ∃ word, σ.fetch = .ok word) :
    ∃ τ, Past token σ τ ∧ ∀ p, token = some p → Spaced program σ τ := by
  cases token with
  | none => exact ⟨σ, rfl, fun p h => absurd h.symm (Option.some_ne_none p)⟩
  | some p =>
    obtain ⟨word, hword⟩ := hfetch p rfl
    obtain ⟨addr, hmarker⟩ | ⟨τ, hnext, hτ⟩ := hspaced k σ hsteps hrun
    · exact absurd hmarker (ArchState.step_of_fetch hword addr)
    · exact ⟨τ, hnext, fun _ _ => hτ⟩

omit hspaced hsteps in
/-- The words behind the store that halts the system. -/
theorem readsAhead_of_halting (hpast : Past token σ τ)
    (hτ : ∀ p, token = some p → Spaced program σ τ) (hhalt : τ.clients.shouldHalt = true) :
    ∃ p, token = some p ∧ τ.pc = σ.pc + 4 ∧
      program.readsAhead (fun _ => true) 3 2 τ.pc = true := by
  cases token with
  | none =>
    obtain rfl : τ = σ := hpast
    cases hrun.symm.trans hhalt
  | some p =>
    have hpc := ArchState.pc_of_halting hpast hhalt
    refine ⟨p, rfl, hpc, ?_⟩
    rw [hpc]
    exact (hτ p rfl).halts hhalt

/-- Where no word can be fetched the machine does not come to. -/
theorem ne_error_of_spaced (fault : Exception) : σ.clients.fetchWord σ.pc ≠ .error fault := by
  intro hword
  obtain ⟨hnone, hmarker⟩ := ArchState.step_of_unfetched hword
  obtain ⟨addr, hstep⟩ | ⟨τ, hnext, -⟩ := hspaced k σ hsteps hrun
  · exact hmarker addr hstep
  · cases hnone.symm.trans hnext

end

/-- The latches are in line with the machine, nothing has got lost, and IF rests at
the marker once it has met it. -/
structure Aligned (program : Program) (f : Flight) (s : Processor) (σ : ArchState) : Prop where
  head : ∀ τ, Past f.exM σ τ → τ.pc = (f.idEx.or f.ifId).getD s.pc
  kept : f.dropped = none
  idEx_code : ∀ p, f.idEx = some p → program.codeAt p ≠ some testEndMarker
  ifId_code : ∀ p, f.ifId = some p → program.codeAt p ≠ some testEndMarker
  ifId_word : ∀ p word, f.ifId = some p → program.codeAt p = some word →
    s.ifId.instructionWord = word
  rests : s.fetch.endMarkerSeen = true → s.pc = s.fetch.endMarkerPC
  found : s.fetch.endMarkerSeen = true → ∀ word,
    program.codeAt s.fetch.endMarkerPC = some word → word = testEndMarker

section

variable {f : Flight} {s t : Processor} {σ τ υ : ArchState} (haligned : Aligned program f s σ)
  (htracks : Tracks f s σ)

include haligned htracks

theorem inLine_exM (hpast : Past f.exM σ τ) : InLine program f.idEx f.ifId s.pc τ.pc :=
  have hchain := htracks.chain haligned.kept
  ⟨(haligned.head τ hpast).symm, hchain.after_idEx, hchain.after_ifId, haligned.idEx_code,
    haligned.ifId_code⟩

theorem inLine_idEx {p : MemAddress} (h : f.idEx = some p) :
    InLine program none f.ifId s.pc (p + 4) :=
  have hchain := htracks.chain haligned.kept
  ⟨hchain.after_idEx p h, fun q hq => absurd hq.symm (Option.some_ne_none q), hchain.after_ifId,
    fun q hq => absurd hq.symm (Option.some_ne_none q), haligned.ifId_code⟩

theorem inLine_ifId {p : MemAddress} (h : f.ifId = some p) :
    InLine program none none s.pc (p + 4) :=
  have hchain := htracks.chain haligned.kept
  ⟨hchain.after_ifId p h, fun q hq => absurd hq.symm (Option.some_ne_none q),
    fun q hq => absurd hq.symm (Option.some_ne_none q),
    fun q hq => absurd hq.symm (Option.some_ne_none q),
    fun q hq => absurd hq.symm (Option.some_ne_none q)⟩

end

/-! ### What is read ahead -/

section

variable (hapart : program.Apart) (hspaced : SpacedRun program registers) {f : Flight}
  {s : Processor} {k : Nat} {σ τ υ : ArchState}
  (hsteps : Runs.steps ArchState.next k (boot program false registers).arch = some σ)
  (hrun : σ.clients.shouldHalt = false) (haligned : Aligned program f s σ)
  (htracks : Tracks f s σ)

include hspaced hsteps hrun htracks

theorem past_exM : ∃ τ, Past f.exM σ τ ∧ ∀ p, f.exM = some p → Spaced program σ τ := by
  apply past_of_spaced hspaced hsteps hrun
  intro p hp
  obtain ⟨-, idEx, hdecode, -⟩ := htracks.exM_some p hp hrun
  obtain ⟨word, hword, -⟩ := ArchState.decode_ok_iff.mp hdecode
  exact ⟨word, hword⟩

omit hrun in
theorem past_idEx (hpast : Past f.exM σ τ) (hrunτ : τ.clients.shouldHalt = false) :
    ∃ υ, Past f.idEx τ υ ∧ ∀ p, f.idEx = some p → Spaced program τ υ := by
  apply past_of_spaced hspaced (steps_past hpast hsteps) hrunτ
  intro p hp
  obtain ⟨-, idEx, hdecode, -⟩ := htracks.idEx_some p hp τ hpast hrunτ
  obtain ⟨word, hword, -⟩ := ArchState.decode_ok_iff.mp hdecode
  exact ⟨word, hword⟩

/-- Nothing in EX/M fails. -/
theorem accesses (e : Exception) : ¬ArchState.accessFails s.bus.clients s.exM e := by
  intro hfails
  rw [← htracks.clients] at hfails
  cases hexM : f.exM with
  | none =>
    have hidle := htracks.exM_none hexM
    obtain hload | ⟨memData, -, hstore⟩ := hfails
    · cases (hidle.load σ.clients).symm.trans hload
    · cases (hidle.store σ.clients).symm.trans hstore
  | some p =>
    obtain ⟨τ, hpast, -⟩ := past_exM hspaced hsteps hrun htracks
    rw [hexM] at hpast
    obtain ⟨-, hstep⟩ := ArchState.next_eq_some_iff.mp hpast
    obtain ⟨-, idEx, hdecode, hagrees⟩ := htracks.exM_some p hexM hrun
    unfold ArchState.accessFails at hfails
    rw [hagrees.load, hagrees.store] at hfails
    cases hstep.symm.trans (ArchState.step_of_accessFails hdecode hfails)

include haligned

omit hspaced hsteps hrun in
/-- Behind an instruction that redirects, IF is still at a word, and at the end marker
only if it is the target. -/
theorem codeAt_of_redirect (hpast : Past f.exM σ τ) (hrunτ : τ.clients.shouldHalt = false)
    (hυ : ∀ p, f.idEx = some p → Spaced program τ υ) {target : MemAddress}
    (hredirect : s.redirect = some target) :
    ∃ word, program.codeAt s.pc = some word ∧ (word = testEndMarker → s.pc = target) := by
  cases hidEx : f.idEx with
  | none => cases hredirect.symm.trans (Backend.redirect_of_idle (htracks.idEx_none hidEx))
  | some p =>
    obtain ⟨memData, hregisters⟩ := htracks.registers_of_past hpast
    obtain ⟨idEx, hdecode, -, hsame⟩ := htracks.executed hidEx hpast hrunτ hregisters
    have hreads := (hυ p hidEx).redirects idEx target hdecode (hsame.symm.trans hredirect)
    rw [(htracks.idEx_some p hidEx τ hpast hrunτ).1] at hreads
    obtain ⟨word, hword, hmarker⟩ := (inLine_idEx haligned htracks hidEx).readsAhead_pc hreads
      (Nat.le_trans (Nat.le_of_eq (Nat.zero_add _)) Option.length_toList_le)
    exact ⟨word, hword, fun h => beq_iff_eq.mp (hmarker h)⟩

/-- ID throws nothing, unless EX takes the instruction away from it. -/
theorem decodes (hredirect : s.redirect = none) :
    InstructionDecoder.decodes s.ifId.instructionWord = true := by
  cases hifId : f.ifId with
  | none =>
    rw [htracks.ifId_none hifId]
    rfl
  | some p =>
    obtain ⟨τ, hpast, hτ⟩ := past_exM hspaced hsteps hrun htracks
    cases hhalt : τ.clients.shouldHalt with
    | true =>
      obtain ⟨-, -, -, hreads⟩ := readsAhead_of_halting hrun hpast hτ hhalt
      have hline := inLine_exM haligned htracks hpast
      rw [hifId] at hline
      obtain ⟨word, hword, hdecodes⟩ :=
        hline.readsAhead_ifId hreads (Nat.lt_succ_of_le Option.length_toList_le)
      rw [haligned.ifId_word p word hifId hword]
      exact hdecodes
    | false =>
      obtain ⟨υ, hpast', hυ⟩ := past_idEx hspaced hsteps htracks hpast hhalt
      cases hhalt' : υ.clients.shouldHalt with
      | true =>
        obtain ⟨q, hidEx, hpc, hreads⟩ := readsAhead_of_halting hhalt hpast' hυ hhalt'
        have hline := inLine_idEx haligned htracks hidEx
        rw [← (htracks.idEx_some q hidEx τ hpast hhalt).1, ← hpc, hifId] at hline
        obtain ⟨word, hword, hdecodes⟩ := hline.readsAhead_ifId hreads Nat.two_pos
        rw [haligned.ifId_word p word hifId hword]
        exact hdecodes
      | false =>
        obtain ⟨-, hfetch⟩ := htracks.ifId_some p hifId τ υ hpast hpast' hhalt' hredirect
        have hfetched : ∀ q, some p = some q → ∃ word, υ.fetch = .ok word :=
          fun _ _ => ⟨_, hfetch⟩
        obtain ⟨ω, hnext, -⟩ := past_of_spaced hspaced
          (steps_past hpast' (steps_past hpast hsteps)) hhalt' hfetched
        obtain ⟨-, hstep⟩ := ArchState.next_eq_some_iff.mp hnext
        obtain ⟨idEx, -, -, hdecode, -⟩ := ArchState.step_ok_iff.mp hstep
        obtain ⟨word, hword, hat⟩ := ArchState.decode_ok_iff.mp hdecode
        cases hfetch.symm.trans hword
        obtain ⟨immediate, himm, -⟩ := decodeAt_ok_iff.mp hat
        unfold InstructionDecoder.decodes
        rw [himm]
        rfl

include hapart

/-- IF throws nothing. -/
theorem fetches (hcoherent : Coherent σ s) (fault : Exception) : s.fetchedWord ≠ .error fault := by
  intro hfault
  have hnone : ∀ word, program.codeAt s.pc ≠ some word := by
    intro word hword
    have hfetch := fetchWord_of_codeAt hapart hsteps hword
    rw [htracks.clients] at hfetch
    cases hfault.symm.trans hfetch
  obtain ⟨τ, hpast, hτ⟩ := past_exM hspaced hsteps hrun htracks
  have hτsteps := steps_past hpast hsteps
  cases hhalt : τ.clients.shouldHalt with
  | true =>
    obtain ⟨-, -, -, hreads⟩ := readsAhead_of_halting hrun hpast hτ hhalt
    obtain ⟨word, hword, -⟩ := (inLine_exM haligned htracks hpast).readsAhead_pc hreads
      (Nat.add_le_add Option.length_toList_le Option.length_toList_le)
    exact hnone word hword
  | false =>
  obtain ⟨υ, hpast', hυ⟩ := past_idEx hspaced hsteps htracks hpast hhalt
  have hυsteps := steps_past hpast' hτsteps
  cases hredirect : s.redirect with
  | some target =>
    obtain ⟨word, hword, -⟩ := codeAt_of_redirect haligned htracks hpast hhalt hυ hredirect
    exact hnone word hword
  | none =>
  cases hhalt' : υ.clients.shouldHalt with
  | true =>
    obtain ⟨q, hidEx, hpc, hreads⟩ := readsAhead_of_halting hhalt hpast' hυ hhalt'
    have hline := inLine_idEx haligned htracks hidEx
    rw [← (htracks.idEx_some q hidEx τ hpast hhalt).1, ← hpc] at hline
    obtain ⟨word, hword, -⟩ := hline.readsAhead_pc hreads
      (Nat.le_trans (Nat.add_le_add (Nat.zero_le 1) Option.length_toList_le) (Nat.le_refl 2))
    exact hnone word hword
  | false =>
  have hpc := (htracks.chain haligned.kept).pc_of_past htracks.toBackend hpast hredirect hpast' hhalt'
  obtain ⟨i, hi, hστ⟩ := hpast.steps
  obtain ⟨j, hj, hτυ⟩ := hpast'.steps
  have hσυ := Runs.steps_add_of hστ hτυ
  cases hifId : f.ifId with
  | none =>
    rw [hifId] at hpc
    have hword := hcoherent (i + j) (by omega) υ hσυ hhalt' hpc
    exact ne_error_of_spaced hspaced hυsteps hhalt' fault (hword.trans hfault)
  | some p =>
    rw [hifId] at hpc
    have hline := inLine_ifId haligned htracks hifId
    obtain ⟨-, hfetch⟩ := htracks.ifId_some p hifId τ υ hpast hpast' hhalt' hredirect
    have hfetched : ∀ q, some p = some q → ∃ word, υ.fetch = .ok word := fun _ _ => ⟨_, hfetch⟩
    obtain ⟨ω, hpast'', hω⟩ := past_of_spaced hspaced hυsteps hhalt' hfetched
    have hlast : Runs.steps ArchState.next 1 υ = some ω := hpast''
    have hpc' : υ.pc = p := hpc
    cases hhalt'' : ω.clients.shouldHalt with
    | true =>
      obtain ⟨-, -, hpcω, hreads⟩ := readsAhead_of_halting hhalt' hpast'' hω hhalt''
      rw [← hpc', ← hpcω] at hline
      obtain ⟨word, hword, -⟩ := hline.readsAhead_pc hreads (Nat.zero_le 2)
      exact hnone word hword
    | false =>
      obtain ⟨-, hstep⟩ := ArchState.next_eq_some_iff.mp hpast''
      obtain ⟨idEx, memData, clients, hdecode, -, -, rfl⟩ := ArchState.step_ok_iff.mp hstep
      cases hredirect' : ExecuteStage.redirectOf idEx idEx.readData1 idEx.readData2 with
      | some target =>
        have hreads := (hω p rfl).redirects idEx target hdecode hredirect'
        rw [hpc'] at hreads
        obtain ⟨word, hword, -⟩ := hline.readsAhead_pc hreads (Nat.zero_le 1)
        exact hnone word hword
      | none =>
        have hpcω : (υ.after idEx memData clients).pc = s.pc := by
          change (ExecuteStage.redirectOf idEx idEx.readData1 idEx.readData2).getD (υ.pc + 4) = _
          rw [hredirect', hpc']
          exact hline.head.symm
        have hword := hcoherent (i + j + 1) (by omega) _ (Runs.steps_add_of hσυ hlast) hhalt'' hpcω
        exact ne_error_of_spaced hspaced (steps_past hpast'' hυsteps) hhalt'' fault
          (hword.trans hfault)

end

/-! ### One cycle -/

theorem IDEXRegisters.hazard_of_unread {idEx idEx' : IDEXRegisters}
    (h : idEx.unread = idEx'.unread) (decoder : InstructionDecoder) :
    InstructionDecodeStage.hazard idEx decoder = InstructionDecodeStage.hazard idEx' decoder := by
  change InstructionDecodeStage.hazard idEx.unread decoder = _
  rw [h]
  rfl

section

variable (hapart : program.Apart) (hspaced : SpacedRun program registers) {f : Flight}
  {s t : Processor} {k : Nat} {σ τ υ : ArchState}
  (hsteps : Runs.steps ArchState.next k (boot program false registers).arch = some σ)
  (haligned : Aligned program f s σ) (htracks : Tracks f s σ) (hpast : Past f.exM σ τ)
  (hrunτ : τ.clients.shouldHalt = false)

include haligned htracks hpast

/-- Where the instruction in ID/EX leads, halted or not, when EX does not redirect. -/
theorem pc_of_straight_past (hredirect : s.redirect = none) (hpast' : Past f.idEx τ υ) :
    υ.pc = f.ifId.getD s.pc := by
  cases hidEx : f.idEx with
  | none =>
    rw [hidEx] at hpast'
    obtain rfl : υ = τ := hpast'
    have hhead := haligned.head υ hpast
    rw [hidEx] at hhead
    exact hhead
  | some p =>
    rw [hidEx] at hpast'
    have hpc := htracks.pc_of_next hidEx hpast hpast'
    rw [hredirect] at hpc
    rw [(htracks.chain haligned.kept).after_idEx p hidEx]
    exact hpc

include hapart hspaced hsteps hrunτ

/-- ID does not wait for a load when IF meets the end marker. -/
theorem issues_at_marker (hmeets : s.meetsMarker = true) : s.stalls = false := by
  by_contra hstall
  rw [Bool.not_eq_false] at hstall
  have hchain := htracks.chain haligned.kept
  obtain ⟨υ, hpast', hυ⟩ := past_idEx hspaced hsteps htracks hpast hrunτ
  have hredirect := htracks.redirect_of_stalls hpast hpast' hstall
  cases hidEx : f.idEx with
  | none =>
    have hload := (htracks.idEx_none hidEx).memRead
    unfold stalls InstructionDecodeStage.hazard at hstall
    rw [hload] at hstall
    cases hstall
  | some p =>
  cases hifId : f.ifId with
  | none => cases (stalls_of_empty (htracks.ifId_none hifId)).symm.trans hstall
  | some q =>
    obtain ⟨hpc, idEx, hdecode, hunread⟩ := htracks.idEx_some p hidEx τ hpast hrunτ
    have hhazard : InstructionDecodeStage.hazard idEx ⟨s.ifId.instructionWord⟩ = true :=
      (IDEXRegisters.hazard_of_unread hunread _).symm.trans hstall
    have hread : idEx.control.memRead = true := by
      unfold InstructionDecodeStage.hazard at hhazard
      rw [Bool.and_eq_true, Bool.and_eq_true] at hhazard
      exact hhazard.1.1
    obtain ⟨decoder, hcontrol, -⟩ := ArchState.control_of_decode hdecode
    have hwrite : idEx.control.memWrite = false := by
      rw [hcontrol] at hread ⊢
      exact ControlSignals.memWrite_of_memRead decoder hread
    rw [hidEx] at hpast'
    have hrunυ : υ.clients.shouldHalt = false := by
      rw [ArchState.clients_of_next hdecode hwrite hpast']
      exact hrunτ
    obtain ⟨-, hfetch⟩ :=
      htracks.ifId_some q hifId τ υ hpast (hidEx ▸ hpast') hrunυ hredirect
    obtain ⟨word, hword, hmarker⟩ :=
      Program.readsAhead_head ((hυ p hidEx).loads idEx _ hdecode hfetch hhazard)
    have hafter := hchain.after_idEx p hidEx
    rw [hifId] at hafter
    have hspc : s.pc = τ.pc + 8 := by
      rw [hchain.after_ifId q hifId, show q = p + 4 from hafter, hpc, BitVec.add_assoc]
      rfl
    rw [← hspc] at hword
    have hfetched := fetchWord_of_codeAt hapart hsteps hword
    rw [htracks.clients] at hfetched
    cases hmarker (Except.ok.inj (hfetched.symm.trans (meetsMarker_iff.mp hmeets).2))

/-- IF stays at the marker, whatever older instructions do. -/
theorem rests_next (hcycle : PipelinedCycle s t) (hseen : t.fetch.endMarkerSeen = true) :
    t.pc = t.fetch.endMarkerPC ∧
      ∀ word, program.codeAt t.fetch.endMarkerPC = some word → word = testEndMarker := by
  have hat : s.fetch.endMarkerSeen = true ∨ s.meetsMarker = true := seen_next hcycle hseen
  have hspc : t.fetch.endMarkerPC = s.pc := by
    obtain hseen | hmeets := hat
    · rw [(hcycle.countdown hseen).2, haligned.rests hseen]
    · exact (hcycle.marked hmeets).2
  have hfound : ∀ word, program.codeAt s.pc = some word → word = testEndMarker := by
    intro word hword
    obtain hseen | hmeets := hat
    · rw [haligned.rests hseen] at hword
      exact haligned.found hseen word hword
    · have hfetched := fetchWord_of_codeAt hapart hsteps hword
      rw [htracks.clients] at hfetched
      exact Except.ok.inj (hfetched.symm.trans (meetsMarker_iff.mp hmeets).2)
  rw [hspc]
  refine ⟨?_, hfound⟩
  rw [hcycle.pc]
  cases hredirect : s.redirect with
  | none =>
    apply if_pos
    obtain hseen | hmeets := hat
    · rw [hseen, Bool.or_true]
    · rw [hmeets]
      rfl
  | some target =>
    obtain ⟨υ, -, hυ⟩ := past_idEx hspaced hsteps htracks hpast hrunτ
    obtain ⟨word, hword, hmarker⟩ :=
      codeAt_of_redirect haligned htracks hpast hrunτ hυ hredirect
    exact (hmarker (hfound word hword)).symm

omit hspaced hpast hrunτ in
/-- What IF leaves in IF/ID is a word of the code. -/
theorem ifId_next (hcycle : PipelinedCycle s t) {p : MemAddress}
    (hifId : (f.advance s).ifId = some p) :
    program.codeAt p ≠ some testEndMarker ∧
      ∀ word, program.codeAt p = some word → t.ifId.instructionWord = word := by
  cases frontendCase f hcycle.toFrontendCycle with
  | redirected target hredirect hidEx hnone hlatch hpc => cases hnone.symm.trans hifId
  | marker hredirect hmeets hnone hlatch hpc => cases hnone.symm.trans hifId
  | held hredirect hmeets hwaits hkept hlatch hpc =>
    have hsame := hkept.symm.trans hifId
    rw [hlatch]
    exact ⟨haligned.ifId_code p hsame, fun word => haligned.ifId_word p word hsame⟩
  | latched word hredirect hmeets hstall hseen hword hsome hlatch hpc =>
    obtain rfl : s.pc = p := Option.some.inj (hsome.symm.trans hifId)
    have hfetched : ∀ word', program.codeAt s.pc = some word' → word = word' := by
      intro word' hword'
      have hfetched := fetchWord_of_codeAt hapart hsteps hword'
      rw [htracks.clients] at hfetched
      exact Except.ok.inj (hword.symm.trans hfetched)
    rw [hlatch]
    refine ⟨fun hmarker => ?_, hfetched⟩
    obtain rfl := hfetched testEndMarker hmarker
    cases hmeets.symm.trans (meetsMarker_iff.mpr ⟨hseen, hword⟩)

/-- One cycle, unless it is the one that halts. -/
theorem Aligned.next (hcycle : PipelinedCycle s t) : Aligned program (f.advance s) t τ := by
  have hissues := issues_at_marker hapart hspaced hsteps haligned htracks hpast hrunτ
  have hidEx : ∀ p, (f.advance s).idEx = some p → f.ifId = some p := by
    intro p hp
    change (if s.redirect.isSome || s.stalls then none else f.ifId) = some p at hp
    split at hp
    · cases hp
    · exact hp
  exact {
    head := by
      intro υ hpast'
      cases frontendCase f hcycle.toFrontendCycle with
      | redirected target hredirect hidEx' hifId hlatch hpc =>
        rw [hidEx', hifId, hpc]
        exact htracks.pc_of_redirect hpast hredirect hpast'
      | marker hredirect hmeets hifId hlatch hpc =>
        rw [Flight.idEx_of_issues hredirect (hissues hmeets), hifId, hpc, Option.or_none]
        exact pc_of_straight_past haligned htracks hpast hredirect hpast'
      | held hredirect hmeets hwaits hifId hlatch hpc =>
        have hidEx' : (f.advance s).idEx = none := by
          obtain hstall | hseen := hwaits
          · exact Flight.idEx_of_stalls hstall
          · exact Flight.idEx_of_drained (htracks.drained hseen)
        rw [hidEx', hifId, hpc, Option.none_or]
        exact pc_of_straight_past haligned htracks hpast hredirect hpast'
      | latched word hredirect hmeets hstall hseen hword hifId hlatch hpc =>
        rw [Flight.idEx_of_issues hredirect hstall, hifId,
          pc_of_straight_past haligned htracks hpast hredirect hpast']
        cases f.ifId <;> rfl
    kept := by
      cases hmeets : s.meetsMarker with
      | true =>
        rw [Flight.dropped_of_marker hmeets, hissues hmeets]
        exact haligned.kept
      | false =>
        rw [Flight.dropped_of_no_marker hmeets]
        exact haligned.kept
    idEx_code := fun p hp => haligned.ifId_code p (hidEx p hp)
    ifId_code := fun p hp =>
      (ifId_next hapart hsteps haligned htracks hcycle hp).1
    ifId_word := fun p word hp =>
      (ifId_next hapart hsteps haligned htracks hcycle hp).2 word
    rests := fun hseen =>
      (rests_next hapart hspaced hsteps haligned htracks hpast hrunτ hcycle hseen).1
    found := fun hseen =>
      (rests_next hapart hspaced hsteps haligned htracks hpast hrunτ hcycle hseen).2 }

end

/-! ### Runs -/

theorem aligned_boot (program : Program) (registers : Registers) :
    Aligned program {} (boot program true registers) (boot program false registers).arch where
  head τ hpast := by
    obtain rfl : τ = (boot program false registers).arch := hpast
    rfl
  kept := rfl
  idEx_code p h := by cases h
  ifId_code p h := by cases h
  ifId_word p word h := by cases h
  rests h := by cases h
  found h := by cases h

/-- After `n` cycles, none of which has halted the system. -/
structure Steady (program : Program) (registers : Registers) (n : Nat) (s : Processor) (k : Nat)
    (σ : ArchState) : Prop extends Simulated (boot program true registers) n s k σ where
  aligned : Aligned program (Flight.after n (boot program true registers)) s σ

theorem steady_steps (hapart : program.Apart) (hsettled : Settled program registers)
    (hspaced : SpacedRun program registers) {n : Nat} {s : Processor}
    (h : Runs.steps next n (boot program true registers) = some s) (hrun : s.shouldHalt = false) :
    ∃ k σ, Steady program registers n s k σ := by
  induction n generalizing s with
  | zero =>
    cases h
    exact ⟨0, _, simulated_boot program registers, aligned_boot program registers⟩
  | succ n ih =>
    obtain ⟨u, hu, hlast⟩ := Runs.steps_succ_cases h
    obtain ⟨hrunu, -⟩ := next_eq_some_iff.mp hlast
    obtain ⟨k, σ, hσ⟩ := ih hu hrunu
    obtain ⟨τ, hpast, hτ⟩ := simulated_next hσ.toSimulated hu hlast fun _ =>
      coherent_of_settled hsettled hσ.toSimulated
    have hflight : Flight.after (n + 1) (boot program true registers) =
        (Flight.after n (boot program true registers)).advance u := Runs.history_succ hu
    refine ⟨_, τ, hτ, ?_⟩
    rw [hflight]
    exact Aligned.next hapart hspaced hσ.steps hσ.aligned hσ.tracks hpast
      (hτ.machine_running hrun) (pipelinedCycle_of_next hσ.tracks.pipelining hlast)

/-- The number of instructions that have got past MEM can be read off the flight. -/
theorem simulated_unique {start : Processor} {n k l : Nat} {s t : Processor} {σ τ : ArchState}
    (hσ : Simulated start n s k σ) (hτ : Simulated start n t l τ) : k = l ∧ σ = τ := by
  have hk := congrArg List.length hσ.executed
  have hl := congrArg List.length hτ.executed
  rw [Runs.length_trace ArchState.pc hσ.steps] at hk
  rw [Runs.length_trace ArchState.pc hτ.steps] at hl
  obtain rfl : k = l := hk.trans hl.symm
  exact ⟨rfl, Option.some.inj (hσ.steps.symm.trans hτ.steps)⟩

/-- The pipelined loop ends on an exception at the end marker only, where the machine
has come to it with the same registers and memories. -/
structure ThrowsAtMarker (program : Program) (registers : Registers) (n : Nat) (e : Exception)
    (u : Processor) (k : Nat) (σ : ArchState) : Prop where
  steps : Runs.steps ArchState.next k (boot program false registers).arch = some σ
  running : σ.clients.shouldHalt = false
  step : σ.step = .error e
  marker : e = .testEndMarkerEncountered u.pc
  busWrites : Runs.trace next busWrites n (boot program true registers) =
    Runs.trace ArchState.next ArchState.busWrites k (boot program false registers).arch
  registers : u.regfile.registers = σ.registers
  clients : u.bus.clients = σ.clients

theorem throwsAtMarker_of_spaced (hapart : program.Apart) (hsettled : Settled program registers)
    (hspaced : SpacedRun program registers) {n : Nat} {e : Exception} {s u : Processor}
    (h : Throws (boot program true registers) n e s u) :
    ∃ k σ, ThrowsAtMarker program registers n e u k σ := by
  obtain ⟨k, σ, hσ⟩ := steady_steps hapart hsettled hspaced h.steps h.running
  have hrun := hσ.machine_running h.running
  obtain ⟨hcase, huntouched⟩ := cycle_throws hσ.tracks.pipelining h.thrown
  cases hcase with
  | fetch fault seen word thrown =>
    exact absurd word (fetches hapart hspaced hσ.steps hrun hσ.aligned hσ.tracks
      (coherent_of_settled hsettled hσ.toSimulated) fault)
  | load fails => exact absurd (.inl fails) (accesses hspaced hσ.steps hrun hσ.tracks e)
  | store memData loads fails =>
    exact absurd (.inr ⟨memData, loads, fails⟩) (accesses hspaced hσ.steps hrun hσ.tracks e)
  | decode redirect stalls immediate =>
    have hdecodes := decodes hspaced hσ.steps hrun hσ.aligned hσ.tracks redirect
    cases hdecodes.symm.trans (InstructionDecoder.decodes_of_error immediate)
  | drained seen countdown thrown =>
    obtain ⟨l, τ, hτ⟩ := atMarker_steps hsettled h.steps
    obtain ⟨rfl, rfl⟩ := simulated_unique hσ.toSimulated hτ.toSimulated
    have hstep := step_of_emptied hτ seen countdown h.running (hσ.aligned.rests seen)
      hσ.aligned.kept
    have hpc : u.pc = s.fetch.endMarkerPC := by
      cases hload : s.exM.load s.bus.clients with
      | error fault =>
        exact absurd (.inl hload) (accesses hspaced hσ.steps hrun hσ.tracks fault)
      | ok memData =>
        obtain ⟨hcan, -⟩ := MemoryStage.load_ok_iff.mp hload
        obtain ⟨v, hv, hpc⟩ := cycle_of_drained hσ.tracks.pipelining hcan seen countdown
        cases hv.symm.trans h.thrown
        exact hpc.trans (hσ.aligned.rests seen)
    exact ⟨k, σ, {
      steps := hσ.steps
      running := hrun
      step := by rw [hstep, thrown]
      marker := by rw [thrown, hpc]
      busWrites := hσ.busWrites
      registers := by rw [huntouched.registers, registers_of_emptied hτ seen countdown]
      clients := by rw [huntouched.clients, hσ.tracks.clients] }⟩

end Rv64Emu.Processor
