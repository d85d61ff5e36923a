import Rv64Emu.DebugTrace

/-! The lines of debug mode in the pipeline. An instruction whose line is printed goes
on to EX in the same cycle, unless it waits for a load, and prints its line again,
or EX takes it back. -/
namespace Rv64Emu

namespace Processor

/-- What is in IF/ID goes on to ID/EX. -/
def issues (s : Processor) : Bool := s.redirect.isNone && !s.stalls

/-- The line of a cycle in which ID issues. -/
def issuedLine (s : Processor) : List IFIDRegisters := if s.issues then s.dumped true else []

theorem issues_iff {s : Processor} : s.issues = true ↔ s.redirect = none ∧ s.stalls = false := by
  simp [issues]

end Processor

/-- Debug mode leaves out the lines of what ID takes for no instruction. -/
def IFIDRegisters.addressed (ifId : IFIDRegisters) : Bool := ifId.pc != 0

/-- The lines of the instructions in EX/M and in ID/EX, which are those of the machine
as far as it gets there. -/
structure Pending (f : Flight) (σ : ArchState) (first second : List IFIDRegisters) : Prop where
  exM_length : first.length = f.exM.toList.length
  idEx_length : second.length = f.idEx.toList.length
  exM_line : ∀ p, f.exM = some p → σ.clients.shouldHalt = false → first = σ.dumped
  idEx_line : ∀ p, f.idEx = some p → ∀ τ, Past f.exM σ τ → τ.clients.shouldHalt = false →
    second = τ.dumped

section

variable {f : Flight} {s t : Processor} {σ τ : ArchState} {first second : List IFIDRegisters}

theorem Pending.pastEvents (h : Pending f σ first second) (hpast : Past f.exM σ τ) :
    Processor.pastEvents ArchState.dumped f.exM σ = first := by
  have hlength := h.exM_length
  cases hexM : f.exM with
  | none =>
    rw [hexM] at hlength
    exact (List.eq_nil_of_length_eq_zero hlength).symm
  | some p =>
    rw [hexM] at hpast
    exact (h.exM_line p hexM (ArchState.next_eq_some_iff.mp hpast).1).symm

/-- One cycle moves the lines on, and adds the one that ID has printed if it issues. -/
theorem Pending.next (h : Pending f σ first second) (htracks : Tracks f s σ)
    (hpast : Past f.exM σ τ)
    (hdumped : s.dumped true = if s.ifId.pc != 0 then [s.ifId] else []) :
    ∃ third, Pending (f.advance s) τ second third ∧
      s.issuedLine = third.filter IFIDRegisters.addressed := by
  have hline : ∀ p, f.idEx = some p → τ.clients.shouldHalt = false → second = τ.dumped :=
    fun p hp => h.idEx_line p hp τ hpast
  cases hissues : s.issues with
  | false =>
    have hnone : (f.advance s).idEx = none := by
      have hbubble : (s.redirect.isSome || s.stalls) = true := by
        have hnot : (s.redirect.isSome || s.stalls) = !s.issues := by
          unfold Processor.issues
          cases s.redirect <;> simp
        rw [hnot, hissues]
        rfl
      exact if_pos hbubble
    refine ⟨[], ⟨h.idEx_length, ?_, hline, ?_⟩, ?_⟩
    · rw [hnone]
      rfl
    · intro p hp
      cases hnone.symm.trans hp
    · unfold Processor.issuedLine
      rw [hissues]
      rfl
  | true =>
    obtain ⟨hredirect, hstall⟩ := Processor.issues_iff.mp hissues
    have htoken : (f.advance s).idEx = f.ifId := Flight.idEx_of_issues hredirect hstall
    have hissued : s.issuedLine = if s.ifId.pc != 0 then [s.ifId] else [] := by
      unfold Processor.issuedLine
      rw [hissues, hdumped]
      rfl
    cases hifId : f.ifId with
    | none =>
      refine ⟨[], ⟨h.idEx_length, ?_, hline, ?_⟩, ?_⟩
      · rw [htoken, hifId]
        rfl
      · intro p hp
        rw [htoken, hifId] at hp
        cases hp
      · rw [hissued, htracks.ifId_none hifId]
        rfl
    | some p =>
      refine ⟨[s.ifId], ⟨h.idEx_length, ?_, hline, ?_⟩, ?_⟩
      · rw [htoken, hifId]
        rfl
      · intro q hq υ hpast' hrun
        obtain ⟨hpc, hfetch⟩ := htracks.ifId_some p hifId τ υ hpast hpast' hrun hredirect
        rw [ArchState.dumped_of_fetch hfetch, hpc, ← htracks.ifId_pc p hifId]
      · rw [hissued, List.filter_cons]
        rfl

/-- The lines in the latches are the next ones of a machine that goes on. -/
theorem Pending.isPrefix (h : Pending f σ first second) {m : Nat} {υ : ArchState}
    (hsteps : Runs.steps ArchState.next (m + 2) σ = some υ) :
    first ++ second <+: Runs.trace ArchState.next ArchState.dumped (m + 2) σ := by
  obtain ⟨ρ, hρ⟩ := Runs.steps_of_le (show 1 ≤ m + 2 by omega) hsteps
  have hnext : σ.next = some ρ := hρ
  have hrest : Runs.steps ArchState.next (m + 1) ρ = some υ :=
    (Runs.steps_succ_left hnext).symm.trans hsteps
  obtain ⟨ω, hω⟩ := Runs.steps_of_le (show 1 ≤ m + 1 by omega) hrest
  have hnext' : ρ.next = some ω := hω
  have hrest' : Runs.steps ArchState.next m ω = some υ :=
    (Runs.steps_succ_left hnext').symm.trans hrest
  have hrun := (ArchState.next_eq_some_iff.mp hnext).1
  have hrun' := (ArchState.next_eq_some_iff.mp hnext').1
  rw [Runs.trace_succ_left hnext hrest, Runs.trace_succ_left hnext' hrest']
  have hsecond : ∀ τ, Past f.exM σ τ → τ.clients.shouldHalt = false → second <+: τ.dumped := by
    intro τ hpast hrunτ
    cases hidEx : f.idEx with
    | none =>
      have hlength := h.idEx_length
      rw [hidEx] at hlength
      rw [List.eq_nil_of_length_eq_zero hlength]
      exact List.nil_prefix
    | some p =>
      rw [h.idEx_line p hidEx τ hpast hrunτ]
  cases hexM : f.exM with
  | none =>
    have hlength := h.exM_length
    rw [hexM] at hlength hsecond
    rw [List.eq_nil_of_length_eq_zero hlength]
    exact (hsecond σ rfl hrun).trans (List.prefix_append _ _)
  | some p =>
    rw [hexM] at hsecond
    rw [h.exM_line p hexM hrun]
    apply (List.prefix_append_right_inj _).mpr
    exact (hsecond ρ hnext hrun').trans (List.prefix_append _ _)

end

namespace Processor

/-- A cycle that throws nothing prints the line of what is in IF/ID. -/
theorem dumped_of_next {s t : Processor} (hp : s.pipelining = true) (h : next s = some t) :
    s.dumped true = if s.ifId.pc != 0 then [s.ifId] else [] := by
  obtain ⟨v, hv, -⟩ := (cycle_ok_iff s t).mp (next_eq_some_iff.mp h).2
  obtain ⟨⟨⟩, p, hpropagate, -⟩ := bind_ok_cases hv
  rw [StageOrder.propagate_of_pipelined hp] at hpropagate
  obtain ⟨⟨hcan, -⟩, -⟩ := (StageOrder.propagateIn_fixed_ok_iff hp).mp hpropagate
  exact dumped_pipelined hp
    ⟨_, (InstructionFetchStage.propagate_ok_iff (s := ready s) hp _).mpr ⟨hcan, rfl⟩⟩

/-- After `n` cycles ID has issued the lines of the `k` instructions that have got past
MEM, and those of the instructions in the latches behind. -/
structure Issued (start : Processor) (n k : Nat) (σ : ArchState)
    (first second : List IFIDRegisters) : Prop where
  pending : Pending (Flight.after n start) σ first second
  lines : Runs.trace next issuedLine n start =
    (Runs.trace ArchState.next ArchState.dumped k start.arch ++ first ++ second).filter
      IFIDRegisters.addressed

theorem issued_run {program : Program} {registers : Registers}
    (hcode : CodeReadOnly program registers) {n : Nat} {s : Processor}
    (h : Runs.steps next n (boot program true registers) = some s) :
    ∃ k σ first second, Simulated (boot program true registers) n s k σ ∧
      Issued (boot program true registers) n k σ first second := by
  induction n generalizing s with
  | zero =>
    cases h
    refine ⟨0, _, [], [], simulated_boot program registers, ⟨rfl, rfl, ?_, ?_⟩, rfl⟩
    · intro p hp
      cases hp
    · intro p hp
      cases hp
  | succ n ih =>
    obtain ⟨u, hu, hlast⟩ := Runs.steps_succ_cases h
    obtain ⟨k, σ, first, second, hσ, hpending, htrace⟩ := ih hu
    have hrun := (next_eq_some_iff.mp hlast).1
    have hp := hσ.tracks.pipelining
    obtain ⟨τ, hpast, hτ⟩ := simulated_next hσ hu hlast (coherent_of_readOnly hcode hσ hu hrun)
    obtain ⟨third, hpending', hissued⟩ := hpending.next hσ.tracks hpast (dumped_of_next hp hlast)
    have hflight : Flight.after (n + 1) (boot program true registers) =
        (Flight.after n (boot program true registers)).advance u := Runs.history_succ hu
    refine ⟨_, τ, second, third, hτ, hflight ▸ hpending', ?_⟩
    rw [Runs.trace_succ hu, htrace, hissued, trace_past hσ.steps, hpending.pastEvents hpast,
      ← List.filter_append]

/-- The issued instructions are counted as far as debug mode lists them. -/
theorem nInstrIssued_run {program : Program} {registers : Registers} {n : Nat} {s : Processor}
    (h : Runs.steps next n (boot program true registers) = some s) :
    s.nInstrIssued =
      BitVec.ofNat 64 (Runs.trace next issuedLine n (boot program true registers)).length := by
  induction n generalizing s with
  | zero =>
    cases h
    rfl
  | succ n ih =>
    obtain ⟨u, hu, hlast⟩ := Runs.steps_succ_cases h
    have hp : u.pipelining = true := pipelining_steps rfl hu
    have hcount := (pipelinedCycle_of_next hp hlast).nInstrIssued
    have hlength : u.issuedLine.length = if u.issues && u.ifId.pc != 0 then 1 else 0 := by
      unfold issuedLine
      rw [dumped_of_next hp hlast]
      cases u.issues <;> cases u.ifId.pc != 0 <;> rfl
    rw [Runs.trace_succ hu, List.length_append, BitVec.ofNat_add, ← ih hu, hcount, hlength]
    unfold issues
    rw [Option.not_isSome]
    cases u.redirect.isNone && !u.stalls && u.ifId.pc != 0 with
    | true => rfl
    | false => exact (BitVec.add_zero _).symm

end Processor

namespace Conformance

open Processor

/-- The lines of the first instructions of the hart; there is none for the address zero. -/
def listing (program : Program) (initial : Registers) (k : Nat) : List IFIDRegisters :=
  (Runs.trace (Rv64i.Hart.next program.platform) (fun h => [listed h]) k
    (program.hart initial)).filter IFIDRegisters.addressed

theorem executes_of_conforms {program : Program} {initial : Registers}
    (hconforms : Conforms program initial) {k : Nat} {h : Rv64i.Hart Signal}
    (hrun : hartRun program initial k = some h) :
    ∀ j < k, ∀ g, hartRun program initial j = some g → executes g.word = true := by
  intro j hj g hg
  obtain ⟨g', hg'⟩ := Runs.steps_of_le (show j + 1 ≤ k from hj) hrun
  obtain ⟨g'', hg'', hnext⟩ := Runs.steps_succ_cases hg'
  obtain rfl := Option.some.inj (hg.symm.trans hg'')
  obtain ⟨hstopped, hstep⟩ := Rv64i.Hart.next_eq_some_iff.mp hnext
  apply (hconforms j g hg hstopped).1
  by_contra hreadable
  unfold Rv64i.Hart.step at hstep
  rw [if_neg hreadable] at hstep
  cases hstep

theorem listing_eq {program : Program} (hapart : program.Apart) {initial : Registers}
    (hconforms : Conforms program initial) {k : Nat} {h : Rv64i.Hart Signal}
    (hrun : hartRun program initial k = some h) :
    (Runs.trace ArchState.next ArchState.dumped k (boot program false initial).arch).filter
      IFIDRegisters.addressed = listing program initial k := by
  unfold listing
  rw [trace_of_hart hapart (fun σ h g hrep _ hstep => dumped_of_hart hapart hrep hstep) hrun
    (executes_of_conforms hconforms hrun)]

/-- The listing of a debug run of the pipeline. The lines of the cycles in which ID
issues are those of the `k` instructions that the hart has executed, and of at most
two more, which are the next ones if the hart gets that far. -/
structure Lists (program : Program) (initial : Registers) (n : Nat) (s : Processor) (k : Nat) :
    Prop where
  issued : ∃ ahead, ahead.length ≤ 2 ∧ Runs.trace next issuedLine n (boot program true initial) =
    listing program initial k ++ ahead
  ahead : ∀ m h, k + 2 ≤ m → hartRun program initial m = some h →
    Runs.trace next issuedLine n (boot program true initial) <+: listing program initial m
  dumped : (Runs.trace next issuedLine n (boot program true initial)).Sublist
    (Runs.trace next (dumped true) n (boot program true initial))
  nInstrIssued : s.nInstrIssued =
    BitVec.ofNat 64 (Runs.trace next issuedLine n (boot program true initial)).length

/-- In debug mode the pipeline lists the instructions of the hart in their order, and
the counter of issued instructions is the number of these lines. -/
theorem debug_lists {program : Program} (hapart : program.Apart) {initial : Registers}
    (hcode : CodeReadOnly program initial) (hconforms : Conforms program initial) {n : Nat}
    {s : Processor} (hsteps : Runs.steps next n (boot program true initial) = some s) :
    ∃ k h, Pipelines program initial n s k h ∧ Lists program initial n s k := by
  obtain ⟨k, σ, first, second, hsim, hpending, hlines⟩ := issued_run hcode hsteps
  obtain ⟨h, hh⟩ := pipelines_of_simulated hapart hcode hconforms hsteps hsim
  have hlisting : ∀ m h, hartRun program initial m = some h →
      (Runs.trace ArchState.next ArchState.dumped m (boot program true initial).arch).filter
        IFIDRegisters.addressed = listing program initial m :=
    fun m h hm => listing_eq hapart hconforms hm
  refine ⟨k, h, hh, ?_, ?_, ?_, nInstrIssued_run hsteps⟩
  · refine ⟨(first ++ second).filter IFIDRegisters.addressed, ?_, ?_⟩
    · have hfilter := List.length_filter_le IFIDRegisters.addressed (first ++ second)
      have hexM : (Flight.after n (boot program true initial)).exM.toList.length ≤ 1 :=
        Option.length_toList_le
      have hidEx : (Flight.after n (boot program true initial)).idEx.toList.length ≤ 1 :=
        Option.length_toList_le
      rw [List.length_append, hpending.exM_length, hpending.idEx_length] at hfilter
      omega
    · rw [hlines, List.append_assoc, List.filter_append, hlisting k h hh.hart]
  · intro m g hle hg
    obtain ⟨i, rfl⟩ := Nat.exists_eq_add_of_le hle
    obtain ⟨τ, hτ⟩ := abreast_of_hart hapart hg (executes_of_conforms hconforms hg)
    have hsplit : k + 2 + i = k + (i + 2) := by omega
    have hτsteps := hτ.steps
    rw [hsplit] at hτsteps
    obtain ⟨ρ, hρ, hrest⟩ := Runs.steps_add_cases hτsteps
    obtain rfl := Option.some.inj (hsim.steps.symm.trans hρ)
    rw [hlines, ← hlisting _ g hg, hsplit, Runs.trace_add hsim.steps hrest, List.append_assoc]
    exact ((List.prefix_append_right_inj _).mpr (hpending.isPrefix hrest)).filter _
  · refine Runs.trace_sublist (fun s => ?_) n _
    unfold issuedLine
    split
    · exact List.Sublist.refl _
    · exact List.nil_sublist _

theorem debug_lists_greeting :
    ∃ s, Runs.steps next 6 (boot greeting true (Vector.replicate 31 0)) = some s ∧
      s.shouldHalt = true ∧ ∃ k h, Pipelines greeting (Vector.replicate 31 0) 6 s k h ∧
        Lists greeting (Vector.replicate 31 0) 6 s k := by
  have hend : (Runs.steps next 6 (boot greeting true (Vector.replicate 31 0))).map shouldHalt =
      some true := by decide +kernel
  obtain ⟨s, hs, hhalt⟩ := Option.map_eq_some_iff.mp hend
  exact ⟨s, hs, hhalt, debug_lists greeting_apart
    (fun addr _ _ => readOnlyAt_boot (by decide +kernel) addr) greeting_conforms hs⟩

end Conformance

end Rv64Emu
