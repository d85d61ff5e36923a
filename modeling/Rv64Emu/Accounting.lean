import Rv64Emu.Pipelined.Cycle
import Rv64Emu.Machine.BusRouting

/-! Where the cycles of a pipelined run go. A cycle issues an instruction,
inserts a bubble for a load-use hazard, redirects the program counter, or finds
the bubble in IF/ID that the start or the redirect before it has left. -/
namespace Rv64Emu.Accounting

open Processor

/-- The number of the first `n` cycles in which EX redirects the PC. -/
def redirectCount (n : Nat) (start : Processor) : Nat :=
  Runs.history next (fun count s => if ExecuteStage.redirects s then count + 1 else count) 0 n
    start

/-- One if EX redirects the PC in the last of the first `n` cycles. -/
def lastRedirected (n : Nat) (start : Processor) : Nat :=
  match Runs.steps next (n - 1) start with
  | some s => if ExecuteStage.redirects s then 1 else 0
  | none => 0

/-- The instructions held in ID/EX, EX/M and M/WB. -/
def inFlight (s : Processor) : Nat :=
  [s.idEx.pc, s.exM.pc, s.mWb.pc].countP fun pc => pc != 0

def bubbleInDecode (s : Processor) : Nat := if s.ifId.pc = 0 then 1 else 0

/-- The books after `n` cycles and `redirected` redirects. -/
structure Balanced (n redirected : Nat) (s : Processor) (issued stalled completed : Nat) :
    Prop where
  nInstrIssued : s.nInstrIssued = BitVec.ofNat 64 issued
  nStalls : s.nStalls = BitVec.ofNat 64 stalled
  nInstrCompleted : s.nInstrCompleted = BitVec.ofNat 64 completed
  cycles : n + bubbleInDecode s = issued + stalled + 2 * redirected + 1
  retired : issued = completed + inFlight s

structure Accounted (n redirected : Nat) (s : Processor) : Prop where
  pipelining : s.pipelining = true
  uncovered : s.bus.clients.Uncovered 0
  bubble : s.ifId.pc = 0 → s.idEx = {}
  balanced : ∃ issued stalled completed, Balanced n redirected s issued stalled completed

theorem redirect_of_bubble {s : Processor} (h : s.idEx = {}) : s.redirect = none := by
  unfold redirect
  rw [h]
  rfl

theorem stalls_of_bubble {s : Processor} (h : s.idEx = {}) : s.stalls = false := by
  unfold stalls
  rw [h]
  rfl

/-- Nothing is fetched from address zero. -/
theorem pc_ne_zero {s : Processor} {word : InstructionWord} (huncovered : s.bus.clients.Uncovered 0)
    (hword : s.fetchedWord = .ok word) : s.pc ≠ 0 := by
  intro hpc
  have hread := Clients.read_of_uncovered .word huncovered
  unfold fetchedWord Clients.fetchWord at hword
  rw [hpc, hread] at hword
  cases hword

theorem uncovered_next {s t : Processor} (hcycle : PipelinedCycle s t)
    (h : s.bus.clients.Uncovered 0) : t.bus.clients.Uncovered 0 := by
  obtain ⟨memData, -, hstore, -⟩ := hcycle.access
  unfold EXMRegisters.store at hstore
  split at hstore
  · obtain ⟨width, -, hwrite⟩ := Clients.storeData_ok_cases hstore
    exact Clients.uncovered_write hwrite h
  · rw [← Except.ok.inj hstore]
    exact h

theorem inFlight_next {s t : Processor} (hcycle : PipelinedCycle s t) :
    inFlight t + (if s.mWb.pc != 0 then 1 else 0) =
      inFlight s + (if t.idEx.pc != 0 then 1 else 0) := by
  obtain ⟨memData, -, -, hmWb⟩ := hcycle.access
  have hexM : t.exM.pc = s.idEx.pc := congrArg EXMRegisters.pc hcycle.exM
  have hmWb' : t.mWb.pc = s.exM.pc := congrArg MWBRegisters.pc hmWb
  simp only [inFlight, List.countP_cons, List.countP_nil, hexM, hmWb']
  omega

theorem ofNat_if_succ (c : Bool) (n : Nat) :
    (if c then BitVec.ofNat 64 n + 1 else BitVec.ofNat 64 n) =
      BitVec.ofNat 64 (n + if c then 1 else 0) := by
  cases c
  · rfl
  · exact (BitVec.ofNat_add n 1).symm

/-- One cycle goes to exactly one of its four uses. -/
theorem accounted_next {n redirected : Nat} {s t : Processor} (hs : Accounted n redirected s)
    (hcycle : PipelinedCycle s t) (hseen : t.fetch.endMarkerSeen = false) :
    Accounted (n + 1) (if s.redirect.isSome then redirected + 1 else redirected) t ∧
      bubbleInDecode t = if s.redirect.isSome then 1 else 0 := by
  obtain ⟨issued, stalled, completed, hbal⟩ := hs.balanced
  have hmarks := seen_of_next hcycle hseen
  have hissued := hcycle.nInstrIssued
  have hstalls := hcycle.nStalls
  have hcompleted := hcycle.nInstrCompleted
  have hflight := inFlight_next hcycle
  have hcycles := hbal.cycles
  have hretired := hbal.retired
  rw [hbal.nInstrIssued, ofNat_if_succ] at hissued
  rw [hbal.nStalls, ofNat_if_succ] at hstalls
  rw [hbal.nInstrCompleted, ofNat_if_succ] at hcompleted
  have hbusy : s.redirect.isSome = true ∨ s.stalls = true → s.ifId.pc ≠ 0 := by
    intro h hpc
    rw [redirect_of_bubble (hs.bubble hpc), stalls_of_bubble (hs.bubble hpc)] at h
    simp at h
  have hquiet : s.redirect.isSome = true ∨ s.stalls = true → t.idEx = {} := hcycle.bubble
  cases hredirect : s.redirect.isSome with
  | true =>
    have hifId := hcycle.flushed (.inr hredirect)
    have hidEx := hquiet (.inl hredirect)
    have hbefore : bubbleInDecode s = 0 := if_neg (hbusy (.inl hredirect))
    have hafter : bubbleInDecode t = 1 := by
      unfold bubbleInDecode
      rw [hifId]
      rfl
    rw [hredirect] at hissued hstalls
    rw [hidEx] at hflight
    refine ⟨⟨hcycle.pipelining, uncovered_next hcycle hs.uncovered, fun _ => hidEx, ?_⟩, hafter⟩
    refine ⟨_, _, _, hissued, hstalls, hcompleted, ?_, ?_⟩
    · simp only [hafter, Bool.not_true, Bool.false_and, Bool.false_eq_true, if_false, if_true]
      omega
    · simp only [Bool.not_true, Bool.false_and, Bool.false_eq_true, if_false]
      simp only [bne_self_eq_false, Bool.false_eq_true, if_false] at hflight
      omega
  | false =>
    rw [hredirect] at hissued hstalls
    cases hstall : s.stalls with
    | true =>
      have hifId := hcycle.held hmarks.2 hredirect (.inl hstall)
      have hidEx := hquiet (.inr hstall)
      have hpc := hbusy (.inr hstall)
      have hbefore : bubbleInDecode s = 0 := if_neg hpc
      have hafter : bubbleInDecode t = 0 := by
        unfold bubbleInDecode
        rw [hifId]
        exact if_neg hpc
      rw [hstall] at hissued hstalls
      rw [hidEx] at hflight
      refine ⟨⟨hcycle.pipelining, uncovered_next hcycle hs.uncovered, fun _ => hidEx, ?_⟩, hafter⟩
      refine ⟨_, _, _, hissued, hstalls, hcompleted, ?_, ?_⟩
      · simp only [hafter, Bool.not_true, Bool.not_false, Bool.true_and, Bool.false_and,
          Bool.false_eq_true, if_false, if_true]
        omega
      · simp only [Bool.not_true, Bool.not_false, Bool.true_and, Bool.false_and,
          Bool.false_eq_true, if_false]
        simp only [bne_self_eq_false, Bool.false_eq_true, if_false] at hflight
        omega
    | false =>
      obtain ⟨word, hword, hifId⟩ := hcycle.latched hmarks.2 hredirect hstall hmarks.1
      obtain ⟨immediate, -, hidEx⟩ := hcycle.issue hredirect hstall
      have hpc : t.ifId.pc ≠ 0 := by
        rw [hifId]
        exact pc_ne_zero hs.uncovered hword
      have hidExPC : t.idEx.pc = s.ifId.pc := by
        rw [hidEx]
        rfl
      have hafter : bubbleInDecode t = 0 := if_neg hpc
      rw [hstall] at hissued hstalls
      rw [hidExPC] at hflight
      refine ⟨⟨hcycle.pipelining, uncovered_next hcycle hs.uncovered,
        fun h => absurd h hpc, ?_⟩, hafter⟩
      refine ⟨_, _, _, hissued, hstalls, hcompleted, ?_, ?_⟩
      · have hissue : (if s.ifId.pc != 0 then 1 else 0) + bubbleInDecode s = 1 := by
          unfold bubbleInDecode
          by_cases h : s.ifId.pc = 0
          · rw [h]
            rfl
          · rw [if_neg h, if_pos (bne_iff_ne.mpr h)]
        simp only [hafter, Bool.not_false, Bool.true_and, Bool.and_false, Bool.false_eq_true,
          if_false]
        omega
      · simp only [Bool.not_false, Bool.true_and]
        omega

theorem boot_accounted (program : Program) (registers : Registers)
    (hzero : ∀ m ∈ program.memories, m.contains 0 = false) :
    Accounted 0 0 (boot program true registers) := by
  refine ⟨rfl, ?_, fun _ => rfl, 0, 0, 0, rfl, rfl, rfl, rfl, rfl⟩
  refine Clients.uncovered_iff.mpr ?_
  intro range hrange
  obtain ⟨c, hc, rfl⟩ := List.mem_map.mp hrange
  change c ∈ (program.memories.map Client.memory ++ [Client.serial { base := 0x200 }]) ++
    [Client.sysStatus { base := 0x270 }] at hc
  simp only [List.mem_append, List.mem_map, List.mem_singleton] at hc
  obtain (⟨m, hm, rfl⟩ | rfl) | rfl := hc
  · exact hzero m hm
  · decide
  · decide

theorem accounted_steps {program : Program} {registers : Registers}
    (hzero : ∀ m ∈ program.memories, m.contains 0 = false) {n : Nat} {s : Processor}
    (h : Runs.steps next n (boot program true registers) = some s)
    (hseen : s.fetch.endMarkerSeen = false) :
    Accounted n (redirectCount n (boot program true registers)) s ∧
      (0 < n → bubbleInDecode s = lastRedirected n (boot program true registers)) := by
  induction n generalizing s with
  | zero =>
    cases h
    exact ⟨boot_accounted program registers hzero, fun h => absurd h (by decide)⟩
  | succ n ih =>
    obtain ⟨r, hr, hlast⟩ := Runs.steps_succ_cases h
    have hcycle := pipelinedCycle_of_next (pipelining_steps (by rfl) hr) hlast
    obtain ⟨hacc, -⟩ := ih hr (seen_of_next hcycle hseen).1
    obtain ⟨hnext, hbubble⟩ := accounted_next hacc hcycle hseen
    refine ⟨?_, fun _ => ?_⟩
    · unfold redirectCount
      rw [Runs.history_succ hr]
      exact hnext
    · rw [hbubble]
      unfold lastRedirected
      rw [Nat.add_sub_cancel, hr]
      rfl

/-- Cycles, stalls and redirects account for every cycle, modulo the width of
the counters and exactly while they have not wrapped; what is issued and not
completed is in flight. -/
theorem pipelined_accounting {program : Program} {registers : Registers}
    (hzero : ∀ m ∈ program.memories, m.contains 0 = false) {n : Nat} {s : Processor}
    (hn : 1 ≤ n) (h : Runs.steps next n (boot program true registers) = some s)
    (hseen : s.fetch.endMarkerSeen = false) :
    let t := redirectCount n (boot program true registers)
    let l := lastRedirected n (boot program true registers)
    BitVec.ofNat 64 n = s.nInstrIssued + s.nStalls + BitVec.ofNat 64 (2 * t + 1 - l) ∧
      (n < 2 ^ 64 → n = s.nInstrIssued.toNat + s.nStalls.toNat + 2 * t + 1 - l) ∧
      s.nInstrIssued - s.nInstrCompleted = BitVec.ofNat 64 (inFlight s) ∧
      (n < 2 ^ 64 → s.nInstrIssued.toNat - s.nInstrCompleted.toNat = inFlight s) := by
  intro t l
  obtain ⟨hacc, hlast⟩ := accounted_steps hzero h hseen
  obtain ⟨issued, stalled, completed, hbal⟩ := hacc.balanced
  have hcycles := hbal.cycles
  have hretired := hbal.retired
  rw [hlast hn] at hcycles
  have hl : l ≤ 1 := by
    rw [show l = bubbleInDecode s from (hlast hn).symm]
    unfold bubbleInDecode
    split <;> omega
  have hsum : n = issued + stalled + (2 * t + 1 - l) := by omega
  rw [hbal.nInstrIssued, hbal.nStalls, hbal.nInstrCompleted]
  refine ⟨?_, fun hbound => ?_, ?_, fun hbound => ?_⟩
  · rw [← BitVec.ofNat_add, ← BitVec.ofNat_add, ← hsum]
  · rw [BitVec.toNat_ofNat, BitVec.toNat_ofNat, Nat.mod_eq_of_lt (by omega),
      Nat.mod_eq_of_lt (by omega)]
    omega
  · rw [hretired, BitVec.ofNat_add, BitVec.add_comm, BitVec.add_sub_cancel]
  · rw [BitVec.toNat_ofNat, BitVec.toNat_ofNat, Nat.mod_eq_of_lt (by omega),
      Nat.mod_eq_of_lt (by omega)]
    omega

/-- A load-use pair, then a jump to a jump to itself: `lw x2, 0(x1)`,
`add x3, x2, x2`, `jal x0, 8`, `nop`, `jal x0, 0`, and two words for IF to run into. -/
def stallThenLoop : Program :=
  { memories := [Memory.ofWords false 0x1000 [0x0000a103, 0x002101b3, 0x0080006f, 0x00000013,
      0x0000006f, 0x00000013, 0x00000013]]
    entrypoint := 0x1000 }

theorem pipelined_accounting_stallThenLoop :
    ∃ s, Runs.steps next 12 (boot stallThenLoop true (Vector.replicate 31 0x1000)) = some s ∧
      let t := redirectCount 12 (boot stallThenLoop true (Vector.replicate 31 0x1000))
      let l := lastRedirected 12 (boot stallThenLoop true (Vector.replicate 31 0x1000))
      BitVec.ofNat 64 12 = s.nInstrIssued + s.nStalls + BitVec.ofNat 64 (2 * t + 1 - l) ∧
        (12 < 2 ^ 64 → 12 = s.nInstrIssued.toNat + s.nStalls.toNat + 2 * t + 1 - l) ∧
        s.nInstrIssued - s.nInstrCompleted = BitVec.ofNat 64 (inFlight s) ∧
        (12 < 2 ^ 64 → s.nInstrIssued.toNat - s.nInstrCompleted.toNat = inFlight s) := by
  have hend : (Runs.steps next 12 (boot stallThenLoop true (Vector.replicate 31 0x1000))).map
      (fun s => s.fetch.endMarkerSeen) = some false := by decide +kernel
  obtain ⟨s, hs, hseen⟩ := Option.map_eq_some_iff.mp hend
  exact ⟨s, hs, pipelined_accounting (by decide +kernel) (by decide) hs hseen⟩

end Rv64Emu.Accounting
