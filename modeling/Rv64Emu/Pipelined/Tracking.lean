import Rv64Emu.Pipelined.Flight

/-! The pipeline as a whole tracks the machine that executes one instruction at
a time: the latches before EX/M and the program counter hold the instructions
that it executes next, until a redirect corrects them. -/
namespace Rv64Emu

/-- The addresses in front of EX/M follow each other, from where `σ` leads. -/
structure Chain (f : Flight) (s : Processor) (σ : ArchState) : Prop where
  after_idEx : ∀ p, f.idEx = some p → f.ifId.getD s.pc = p + 4
  after_ifId : ∀ p, f.ifId = some p → s.pc = p + 4
  head : ∀ τ, Past f.exM σ τ → τ.clients.shouldHalt = false →
    τ.pc = (f.idEx.or f.ifId).getD s.pc

/-- What IF fetches is what is executed at this address within three steps. -/
def Coherent (σ : ArchState) (s : Processor) : Prop :=
  ∀ j ≤ 3, ∀ υ, Runs.steps ArchState.next j σ = some υ → υ.clients.shouldHalt = false →
    υ.pc = s.pc → υ.clients.fetchWord υ.pc = s.fetchedWord

structure Tracks (f : Flight) (s : Processor) (σ : ArchState) : Prop extends
    Backend f s σ, Fetched f s σ where
  chain : f.dropped = none → Chain f s σ
  drained : s.fetch.endMarkerSeen = true → f.ifId = none
  dropped_none : s.fetch.endMarkerSeen = false → f.dropped = none

theorem Past.steps {token : Option MemAddress} {σ τ : ArchState} (h : Past token σ τ) :
    ∃ j ≤ 1, Runs.steps ArchState.next j σ = some τ := by
  cases token with
  | none =>
    obtain rfl : τ = σ := h
    exact ⟨0, by omega, rfl⟩
  | some p => exact ⟨1, by omega, h⟩

/-- The four things that can happen in front of ID. -/
inductive FrontendCase (f : Flight) (s t : Processor) : Prop where
  | redirected (target : MemAddress) (redirect : s.redirect = some target)
      (idEx : (f.advance s).idEx = none) (ifId : (f.advance s).ifId = none) (latch : t.ifId = {})
      (pc : t.pc = target)
  | marker (redirect : s.redirect = none) (meets : s.meetsMarker = true)
      (ifId : (f.advance s).ifId = none) (latch : t.ifId = {}) (pc : t.pc = s.pc)
  | held (redirect : s.redirect = none) (meets : s.meetsMarker = false)
      (waits : s.stalls = true ∨ s.fetch.endMarkerSeen = true)
      (ifId : (f.advance s).ifId = f.ifId) (latch : t.ifId = s.ifId) (pc : t.pc = s.pc)
  | latched (word : InstructionWord) (redirect : s.redirect = none)
      (meets : s.meetsMarker = false) (stalls : s.stalls = false)
      (seen : s.fetch.endMarkerSeen = false) (fetched : s.fetchedWord = .ok word)
      (ifId : (f.advance s).ifId = some s.pc)
      (latch : t.ifId = { pc := s.pc, instructionWord := word }) (pc : t.pc = s.pc + 4)

theorem frontendCase (f : Flight) {s t : Processor} (hcycle : Processor.FrontendCycle s t) :
    FrontendCase f s t := by
  have hpc := hcycle.pc
  cases hredirect : s.redirect with
  | some target =>
    rw [hredirect] at hpc
    have hsome : s.redirect.isSome = true := by
      rw [hredirect]
      rfl
    exact .redirected target hredirect (Flight.idEx_of_flush hsome) (Flight.ifId_of_flush hsome)
      (hcycle.flushed (.inr hsome)) hpc
  | none =>
    have hnone : s.redirect.isSome = false := by
      rw [hredirect]
      rfl
    rw [hredirect] at hpc
    cases hmarker : s.meetsMarker with
    | true =>
      rw [hmarker] at hpc
      exact .marker hredirect hmarker (Flight.ifId_of_marker hmarker)
        (hcycle.flushed (.inl hmarker)) hpc
    | false =>
      have hifId : (f.advance s).ifId =
          if s.stalls || s.fetch.endMarkerSeen then f.ifId else some s.pc :=
        Flight.ifId_of_kept hmarker hnone
      by_cases hwaits : s.stalls = true ∨ s.fetch.endMarkerSeen = true
      · have hwaits' : (s.stalls || s.fetch.endMarkerSeen) = true := by simpa using hwaits
        rw [hwaits'] at hifId
        rw [hmarker, Bool.false_or, hwaits'] at hpc
        exact .held hredirect hmarker hwaits hifId (hcycle.held hmarker hnone hwaits) hpc
      · have hwaits' : s.stalls = false ∧ s.fetch.endMarkerSeen = false := by simpa using hwaits
        obtain ⟨hstall, hseen⟩ := hwaits'
        rw [hstall, hseen] at hifId
        rw [hmarker, hstall, hseen] at hpc
        obtain ⟨word, hword, hlatch⟩ := hcycle.latched hmarker hnone hstall hseen
        exact .latched word hredirect hmarker hstall hseen hword hifId hlatch hpc

section

variable {f : Flight} {s t : Processor} {σ τ υ : ArchState}

/-- Where the instruction in ID/EX leads when EX does not redirect. -/
theorem Chain.pc_of_past (h : Chain f s σ) (hback : Backend f s σ) (hpast : Past f.exM σ τ)
    (hredirect : s.redirect = none) (hpast' : Past f.idEx τ υ)
    (hrun : υ.clients.shouldHalt = false) : υ.pc = f.ifId.getD s.pc := by
  cases hidEx : f.idEx with
  | none =>
    rw [hidEx] at hpast'
    obtain rfl : υ = τ := hpast'
    have hhead := h.head υ hpast hrun
    rw [hidEx] at hhead
    exact hhead
  | some p =>
    rw [hidEx] at hpast'
    have hpc := hback.pc_of_next hidEx hpast hpast'
    rw [hredirect] at hpc
    rw [h.after_idEx p hidEx]
    exact hpc

/-- Only an instruction in ID/EX redirects. -/
theorem Backend.pc_of_redirect (h : Backend f s σ) (hpast : Past f.exM σ τ) {target : MemAddress}
    (hredirect : s.redirect = some target) (hpast' : Past f.idEx τ υ) : υ.pc = target := by
  cases hidEx : f.idEx with
  | none =>
    have hnone := Backend.redirect_of_idle (h.idEx_none hidEx)
    cases hredirect.symm.trans hnone
  | some p =>
    rw [hidEx] at hpast'
    have hpc := h.pc_of_next hidEx hpast hpast'
    rw [hredirect] at hpc
    exact hpc

theorem Chain.next (h : Chain f s σ) (hback : Backend f s σ)
    (hdrained : s.fetch.endMarkerSeen = true → f.ifId = none) (hcycle : Processor.PipelinedCycle s t)
    (hpast : Past f.exM σ τ) (hkept : s.meetsMarker = true → s.stalls = true → f.ifId = none) :
    Chain (f.advance s) t τ := by
  have hidEx : s.redirect = none →
      (f.advance s).idEx = if s.stalls then none else f.ifId := by
    intro hredirect
    change (if s.redirect.isSome || s.stalls then none else f.ifId) = _
    rw [hredirect]
    rfl
  cases frontendCase f hcycle.toFrontendCycle with
  | redirected target hredirect hidEx' hifId hlatch hpc =>
    refine ⟨?_, ?_, fun υ hpast' hrun => ?_⟩
    · rw [hidEx']
      exact fun p h => absurd h (Option.some_ne_none p).symm
    · rw [hifId]
      exact fun p h => absurd h (Option.some_ne_none p).symm
    · rw [hidEx', hifId, hpc]
      exact hback.pc_of_redirect hpast hredirect hpast'
  | marker hredirect hmarker hifId hlatch hpc =>
    have hidEx' : (f.advance s).idEx = f.ifId := by
      rw [hidEx hredirect]
      cases hstall : s.stalls with
      | false => rfl
      | true => exact (hkept hmarker hstall).symm
    refine ⟨?_, ?_, fun υ hpast' hrun => ?_⟩
    · rw [hidEx', hifId, hpc]
      exact h.after_ifId
    · rw [hifId]
      exact fun p h => absurd h (Option.some_ne_none p).symm
    · rw [hidEx', hifId, hpc, Option.or_none]
      exact h.pc_of_past hback hpast hredirect hpast' hrun
  | held hredirect hmarker hwaits hifId hlatch hpc =>
    have hidEx' : (f.advance s).idEx = none := by
      rw [hidEx hredirect]
      obtain hstall | hseen := hwaits
      · rw [hstall]
        rfl
      · rw [hdrained hseen]
        exact ite_self none
    refine ⟨?_, ?_, fun υ hpast' hrun => ?_⟩
    · rw [hidEx']
      exact fun p h => absurd h (Option.some_ne_none p).symm
    · rw [hifId, hpc]
      exact h.after_ifId
    · rw [hidEx', hifId, hpc, Option.none_or]
      exact h.pc_of_past hback hpast hredirect hpast' hrun
  | latched word hredirect hmarker hstall hseen hword hifId hlatch hpc =>
    have hidEx' : (f.advance s).idEx = f.ifId := by
      rw [hidEx hredirect, hstall]
      rfl
    refine ⟨?_, ?_, fun υ hpast' hrun => ?_⟩
    · rw [hidEx', hifId]
      exact h.after_ifId
    · rw [hifId, hpc]
      intro p hp
      rw [Option.some.inj hp]
    · rw [hidEx', hifId]
      have hpc' := h.pc_of_past hback hpast hredirect hpast' hrun
      cases hifId' : f.ifId with
      | none =>
        rw [hifId'] at hpc'
        exact hpc'
      | some p =>
        rw [hifId'] at hpc'
        exact hpc'

/-- What is latched in IF/ID is what the machine executes there. -/
theorem Fetched.next (h : Fetched f s σ) (hback : Backend f s σ) (hback' : Backend (f.advance s) t τ)
    (hchain : s.fetch.endMarkerSeen = false → Chain f s σ)
    (hdrained : s.fetch.endMarkerSeen = true → f.ifId = none)
    (hcoherent : s.fetch.endMarkerSeen = false → Coherent σ s)
    (hcycle : Processor.PipelinedCycle s t) (hpast : Past f.exM σ τ) :
    Fetched (f.advance s) t τ := by
  have hempty : (f.advance s).ifId = none → t.ifId = {} → Fetched (f.advance s) t τ := by
    intro hnone hlatch
    have hsome : ∀ p, (f.advance s).ifId ≠ some p := by
      intro p
      rw [hnone]
      exact (Option.some_ne_none p).symm
    exact ⟨fun _ => hlatch, fun p hp => absurd hp (hsome p), fun p hp => absurd hp (hsome p)⟩
  cases frontendCase f hcycle.toFrontendCycle with
  | redirected target hredirect hidEx' hifId hlatch hpc => exact hempty hifId hlatch
  | marker hredirect hmarker hifId hlatch hpc => exact hempty hifId hlatch
  | held hredirect hmarker hwaits hifId hlatch hpc =>
    refine ⟨?_, ?_, ?_⟩
    · rw [hifId, hlatch]
      exact h.ifId_none
    · rw [hifId, hlatch]
      exact h.ifId_pc
    · rw [hifId, hlatch]
      intro p hp υ ω hpast' hpast'' hrun _
      have hstall : s.stalls = true := by
        obtain hstall | hseen := hwaits
        · exact hstall
        · rw [hdrained hseen] at hp
          cases hp
      have hidEx' : (f.advance s).idEx = none := Flight.idEx_of_stalls hstall
      rw [hidEx'] at hpast''
      obtain rfl : ω = υ := hpast''
      exact h.ifId_some p hp τ ω hpast hpast' hrun hredirect
  | latched word hredirect hmarker hstall hseen hword hifId hlatch hpc =>
    refine ⟨?_, ?_, ?_⟩
    · rw [hifId]
      exact fun h => absurd h (Option.some_ne_none _)
    · rw [hifId, hlatch]
      exact fun p hp => Option.some.inj hp
    · rw [hifId, hlatch]
      intro p hp υ ω hpast' hpast'' hrun hredirect'
      obtain rfl : s.pc = p := Option.some.inj hp
      have hidEx' : (f.advance s).idEx = f.ifId := Flight.idEx_of_issues hredirect hstall
      have hchain' : Chain (f.advance s) t τ :=
        (hchain hseen).next hback hdrained hcycle hpast fun hmeets => by
          cases hmarker.symm.trans hmeets
      have hpcω : ω.pc = s.pc := by
        have hpc' := hchain'.pc_of_past hback' hpast' hredirect' hpast'' hrun
        rw [hifId] at hpc'
        exact hpc'
      obtain ⟨i, hi, hσ⟩ := hpast.steps
      obtain ⟨j, hj, hτ⟩ := hpast'.steps
      obtain ⟨k, hk, hυ⟩ := hpast''.steps
      have hfetch := hcoherent hseen (i + j + k) (by omega) ω
        (Runs.steps_add_of (Runs.steps_add_of hσ hτ) hυ) hrun hpcω
      refine ⟨hpcω, ArchState.fetch_ok_iff.mpr ⟨hfetch.trans hword, ?_⟩⟩
      rintro rfl
      cases hmarker.symm.trans (Processor.meetsMarker_iff.mpr ⟨hseen, hword⟩)

/-- One cycle takes the tracked machine past the instruction in EX/M. -/
theorem Tracks.next (h : Tracks f s σ) (hhalt : s.shouldHalt = false)
    (hcoherent : s.fetch.endMarkerSeen = false → Coherent σ s)
    (hcycle : Processor.PipelinedCycle s t) :
    ∃ τ, Past f.exM σ τ ∧ Tracks (f.advance s) t τ := by
  obtain ⟨τ, hpast, hback'⟩ := h.toBackend.next h.toFetched hhalt hcycle.toBackendCycle
  have hchain : s.fetch.endMarkerSeen = false → Chain f s σ := fun hseen =>
    h.chain (h.dropped_none hseen)
  refine ⟨τ, hpast, hback', h.toFetched.next h.toBackend hback' hchain h.drained hcoherent hcycle
    hpast, fun hdropped => ?_, fun hseen => ?_, fun hseen => ?_⟩
  · cases hmeets : s.meetsMarker with
    | true =>
      have hseen := (Processor.meetsMarker_iff.mp hmeets).1
      refine (hchain hseen).next h.toBackend h.drained hcycle hpast fun _ hstall => ?_
      rw [Flight.dropped_of_marker hmeets, hstall] at hdropped
      exact hdropped
    | false =>
      rw [Flight.dropped_of_no_marker hmeets] at hdropped
      exact (h.chain hdropped).next h.toBackend h.drained hcycle hpast fun hmeets' => by
        cases hmeets.symm.trans hmeets'
  · rw [hcycle.seen, Bool.or_eq_true] at hseen
    obtain hseen | hmeets := hseen
    · change (if s.meetsMarker || s.redirect.isSome then none
        else if s.stalls || s.fetch.endMarkerSeen then f.ifId else some s.pc) = none
      rw [hseen, Bool.or_true, h.drained hseen]
      exact ite_self none
    · exact Flight.ifId_of_marker hmeets
  · obtain ⟨hseen', hmeets⟩ := Processor.seen_of_next hcycle hseen
    rw [Flight.dropped_of_no_marker hmeets]
    exact h.dropped_none hseen'

end

end Rv64Emu
