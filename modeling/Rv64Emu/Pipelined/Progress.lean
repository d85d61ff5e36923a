import Rv64Emu.BusRuns
import Rv64Emu.Pipelined.Refinement

/-! How fast the pipeline is. A redirect costs two bubbles and a load-use hazard
one, so that at the latest every third cycle takes an instruction past MEM; once
the end marker has been fetched, the run is about to end. -/
namespace Rv64Emu

/-- The number of cycles before the next instruction is in EX/M. -/
def Flight.distance (f : Flight) : Nat :=
  if f.exM.isSome then 0 else if f.idEx.isSome then 1 else if f.ifId.isSome then 2 else 3

/-- After `n` cycles with `k` instructions past MEM. -/
structure Paced (f : Flight) (s : Processor) (n k : Nat) : Prop where
  unseen : s.fetch.endMarkerSeen = false → n + f.distance ≤ 3 * k + 3
  seen : s.fetch.endMarkerSeen = true →
    0 ≤ s.fetch.endMarkerCountdown ∧ n + s.fetch.endMarkerCountdown ≤ 3 * k + 8

section

variable {f : Flight} {s t : Processor} {σ : ArchState}

/-- Without an instruction in ID/EX there is nothing to redirect or to wait for. -/
theorem Backend.quiet (h : Backend f s σ) (hidEx : f.idEx = none) :
    s.redirect = none ∧ s.stalls = false := by
  have hidle := h.idEx_none hidEx
  refine ⟨Backend.redirect_of_idle hidle, ?_⟩
  unfold Processor.stalls InstructionDecodeStage.hazard
  rw [hidle.memRead]
  rfl

/-- While IF fetches, every cycle brings the next instruction closer to EX/M. -/
theorem distance_advance (h : Backend f s σ) (hmeets : s.meetsMarker = false)
    (hseen : s.fetch.endMarkerSeen = false) :
    (f.advance s).distance + 1 ≤ f.distance + 3 * f.exM.toList.length := by
  have hexM : (f.advance s).exM = f.idEx := rfl
  cases hidEx : f.idEx with
  | some p =>
    have hzero : (f.advance s).distance = 0 := by
      unfold Flight.distance
      rw [hexM, hidEx]
      rfl
    rw [hzero]
    unfold Flight.distance
    cases f.exM with
    | some q => simp
    | none => simp [hidEx]
  | none =>
    obtain ⟨hredirect, hstalls⟩ := h.quiet hidEx
    have hifId : (f.advance s).ifId = some s.pc := by
      rw [Flight.ifId_of_kept hmeets (by rw [hredirect]; rfl), hstalls, hseen]
      rfl
    have hidEx' : (f.advance s).idEx = f.ifId := Flight.idEx_of_issues hredirect hstalls
    unfold Flight.distance
    rw [hexM, hidEx, hidEx', hifId]
    cases f.exM with
    | some q => cases f.ifId <;> simp
    | none => cases f.ifId <;> simp

theorem Paced.next {n k : Nat} (h : Paced f s n k) (hback : Backend f s σ)
    (hcycle : Processor.PipelinedCycle s t) :
    Paced (f.advance s) t (n + 1) (k + f.exM.toList.length) := by
  have hseen' := hcycle.seen
  cases hseen : s.fetch.endMarkerSeen with
  | true =>
    rw [hseen, Bool.true_or] at hseen'
    obtain ⟨-, hbound⟩ := h.seen hseen
    have hdrains := hcycle.drains hseen
    have hcount := (hcycle.countdown hseen).1
    constructor
    · intro hunseen
      cases hseen'.symm.trans hunseen
    · intro _
      omega
  | false =>
    have hbound := h.unseen hseen
    rw [hseen, Bool.false_or] at hseen'
    cases hmeets : s.meetsMarker with
    | true =>
      rw [hmeets] at hseen'
      have hcount := (hcycle.marked hmeets).1
      constructor
      · intro hunseen
        cases hseen'.symm.trans hunseen
      · intro _
        omega
    | false =>
      rw [hmeets] at hseen'
      have hcloser := distance_advance hback hmeets hseen
      constructor
      · intro _
        omega
      · intro hseen''
        cases hseen'.symm.trans hseen''

end

namespace Processor

/-- `jal x1, 0`, and words for IF to run into. -/
def jumpInPlace : Program :=
  { memories := [Memory.ofWords false 0x1000 [0x000000ef, 0x00000013, 0x00000013, 0x00000013]]
    entrypoint := 0x1000 }

variable {program : Program} {registers : Registers} (hcode : CodeReadOnly program registers)

include hcode

theorem paced_of_readOnly {n : Nat} {s : Processor}
    (h : Runs.steps next n (boot program true registers) = some s) :
    ∃ k σ, Simulated (boot program true registers) n s k σ ∧
      Paced (Flight.after n (boot program true registers)) s n k := by
  induction n generalizing s with
  | zero =>
    cases h
    exact ⟨0, _, simulated_boot program registers, fun _ => Nat.le_refl 3, nofun⟩
  | succ n ih =>
    obtain ⟨u, hu, hlast⟩ := Runs.steps_succ_cases h
    obtain ⟨k, σ, hσ, hpaced⟩ := ih hu
    obtain ⟨hhalt, hok⟩ := next_eq_some_iff.mp hlast
    obtain ⟨τ, -, hτ⟩ := simulated_next hσ hu hlast (coherent_of_readOnly hcode hσ hu hhalt)
    have hflight : Flight.after (n + 1) (boot program true registers) =
        (Flight.after n (boot program true registers)).advance u := Runs.history_succ hu
    refine ⟨_, τ, hτ, ?_⟩
    rw [hflight]
    exact hpaced.next hσ.tracks.toBackend (pipelinedCycle hσ.tracks.pipelining hok)

/-- In `n` cycles at least a third of `n - 8` instructions get past MEM. -/
theorem cycles_le {n : Nat} {s : Processor}
    (h : Runs.steps next n (boot program true registers) = some s) :
    ∃ k σ, Simulated (boot program true registers) n s k σ ∧ n ≤ 3 * k + 8 := by
  obtain ⟨k, σ, hσ, hpaced⟩ := paced_of_readOnly hcode h
  refine ⟨k, σ, hσ, ?_⟩
  cases hseen : s.fetch.endMarkerSeen with
  | true =>
    have hbound := hpaced.seen hseen
    omega
  | false =>
    have hbound := hpaced.unseen hseen
    omega

/-- What the non-pipelined machine writes in `5 * k` cycles, the pipeline has
written after `3 * k + 9`, but for the register write in M/WB. -/
theorem pipeline_keeps_pace {n k : Nat} {s : Processor}
    (h : Runs.steps next n (boot program true registers) = some s) (hk : 3 * k + 8 < n) :
    ∃ t, Runs.steps next (5 * k) (boot program false registers) = some t ∧
      Runs.trace next registerWrites (5 * k) (boot program false registers) <+:
        Runs.trace next registerWrites n (boot program true registers) ++ s.mWb.registerWrites ∧
      Runs.trace next busWrites (5 * k) (boot program false registers) <+:
        Runs.trace next busWrites n (boot program true registers) := by
  obtain ⟨l, σ, hσ, hn⟩ := cycles_le hcode h
  have harch : Runs.steps ArchState.next l (boot program false registers).arch = some σ := hσ.steps
  obtain ⟨j, rfl⟩ := Nat.exists_eq_add_of_lt (show k < l by omega)
  obtain ⟨ρ, hρ, hrest⟩ := Runs.steps_add_cases (m := k) (n := j + 1) harch
  obtain ⟨υ, hυ⟩ := Runs.steps_of_le (show 1 ≤ j + 1 by omega) hrest
  have hrun : ρ.clients.shouldHalt = false := (ArchState.next_eq_some_iff.mp hυ).1
  obtain ⟨m, t, hm⟩ := reached (atStage_boot program registers) hρ
  obtain ⟨rfl, -⟩ := hm.boundary hrun
  refine ⟨t, hm.steps, ?_, ?_⟩
  · rw [hσ.registerWrites, hm.registerWrites]
    exact ⟨_, (Runs.trace_add hρ hrest).symm⟩
  · rw [hσ.busWrites, hm.busWrites]
    exact ⟨_, (Runs.trace_add hρ hrest).symm⟩

omit hcode in
theorem pipeline_keeps_pace_jumpInPlace :
    ∃ s, Runs.steps next 12 (boot jumpInPlace true (Vector.replicate 31 0)) = some s ∧
      ∃ t, Runs.steps next 5 (boot jumpInPlace false (Vector.replicate 31 0)) = some t ∧
        Runs.trace next registerWrites 5 (boot jumpInPlace false (Vector.replicate 31 0)) <+:
          Runs.trace next registerWrites 12 (boot jumpInPlace true (Vector.replicate 31 0)) ++
            s.mWb.registerWrites ∧
        Runs.trace next busWrites 5 (boot jumpInPlace false (Vector.replicate 31 0)) <+:
          Runs.trace next busWrites 12 (boot jumpInPlace true (Vector.replicate 31 0)) := by
  have hend : (Runs.steps next 12 (boot jumpInPlace true (Vector.replicate 31 0))).isSome =
      true := by decide +kernel
  obtain ⟨s, hs⟩ := Option.isSome_iff_exists.mp hend
  exact ⟨s, hs, pipeline_keeps_pace (k := 1)
    (fun addr _ _ => readOnlyAt_boot (by decide +kernel) addr) hs (by decide)⟩

omit hcode in
/-- A loop that has ended after `m` iterations bounds the number of instructions. -/
theorem instructions_le {m k : Nat} {σ : ArchState}
    (hended : ∀ s, runLoop m (boot program false registers) ≠ .running s)
    (h : Runs.steps ArchState.next k (boot program false registers).arch = some σ) :
    5 * k ≤ m + 1 := by
  obtain ⟨n, hn, t, ht, hend⟩ := runLoop_cases m (boot program false registers)
  have hstuck : next t = none := by
    obtain ⟨hhalt, -⟩ | ⟨e, u, -, hcycle, -⟩ | hrunning := hend
    · exact next_none_of_halt hhalt
    · exact next_none_of_error hcycle
    · exact absurd hrunning (hended t)
  cases k with
  | zero => omega
  | succ k =>
    obtain ⟨ρ, hρ, hlast⟩ := Runs.steps_succ_cases h
    obtain ⟨hrun, hstep⟩ := ArchState.next_eq_some_iff.mp hlast
    obtain ⟨l, s, hl⟩ := reached (atStage_boot program registers) hρ
    obtain ⟨rfl, hs, rfl, -⟩ := hl.boundary hrun
    obtain ⟨u, hu⟩ := instruction_ok hs hrun hstep
    have hle := Runs.le_of_stuck ht hstuck (Runs.steps_add_of hl.steps hu.steps)
    omega

/-- Iterations after which the pipelined loop has ended when the other one has after `m`. -/
def pipelinedFuel (m : Nat) : Nat := 3 * ((m + 1) / 5) + 9

theorem pipeline_terminates {m : Nat}
    (hended : ∀ s, runLoop m (boot program false registers) ≠ .running s) (s : Processor) :
    runLoop (pipelinedFuel m) (boot program true registers) ≠ .running s := by
  intro hrunning
  obtain ⟨k, σ, hσ, hn⟩ := cycles_le hcode (steps_of_running hrunning)
  have hk : 5 * k ≤ m + 1 := instructions_le hended hσ.steps
  unfold pipelinedFuel at hn
  omega

/-- Two runs that show the same where they halt. -/
structure HaltsAlike (start start' : Processor) (s t : Processor) : Prop where
  registers : s.regfile.registers = t.regfile.registers
  clients : s.bus.clients = t.bus.clients
  printed : ∃ n m, Runs.steps next n start = some s ∧ Runs.steps next m start' = some t ∧
    Runs.trace next printed n start = Runs.trace next printed m start'

theorem halted_alike {m n : Nat} {s t : Processor}
    (hm : Runs.steps next m (boot program false registers) = some t) (hstuck : next t = none)
    (hn : Runs.steps next n (boot program true registers) = some s) (hhalt : s.shouldHalt = true) :
    t.shouldHalt = true ∧
      HaltsAlike (boot program true registers) (boot program false registers) s t := by
  obtain ⟨k, σ, hk, hregisters, hclients⟩ := halted_of_readOnly hcode hn hhalt
  obtain ⟨l, υ, hσ⟩ := simulated_of_readOnly hcode hn
  have hnone : ∀ ρ : ArchState, ρ.clients = s.bus.clients → ρ.next = none :=
    fun ρ hρ => ArchState.next_of_halted (hρ ▸ hhalt)
  obtain ⟨rfl, rfl⟩ := Runs.steps_stuck_unique hk (hnone σ hclients) hσ.steps
    (hnone υ hσ.tracks.clients)
  obtain ⟨i, u, hu⟩ := reached (atStage_boot program registers) hk
  have hhalt' : u.shouldHalt = true := by
    unfold shouldHalt
    rw [hu.clients, hclients]
    exact hhalt
  obtain ⟨rfl, rfl⟩ := Runs.steps_stuck_unique hm hstuck hu.steps (next_none_of_halt hhalt')
  refine ⟨hhalt', (hu.registers.trans hregisters).symm, (hu.clients.trans hclients).symm,
    n, m, hn, hm, ?_⟩
  rw [trace_printed (driven_boot program true registers) hn,
    trace_printed (driven_boot program false registers) hm, hσ.busWrites, hu.busWrites]
  rfl

/-- The pipelined loop shows what the other one does when it halts after `m`
iterations, or ends on an exception. -/
def HaltsInTime (program : Program) (registers : Registers) (m : Nat) (t : Processor) : Prop :=
  (∃ s, runLoop (pipelinedFuel m) (boot program true registers) = .halted s ∧
    HaltsAlike (boot program true registers) (boot program false registers) s t) ∨
  ∃ e u, runLoop (pipelinedFuel m) (boot program true registers) = .terminated e u

theorem halts_in_time {m : Nat} {t : Processor}
    (h : runLoop m (boot program false registers) = .halted t) :
    HaltsInTime program registers m t := by
  have hended : ∀ s, runLoop m (boot program false registers) ≠ .running s := by
    intro s hrunning
    cases h.symm.trans hrunning
  obtain ⟨l, -, t', ht, ⟨hhalt, hloop⟩ | ⟨e, u, -, -, hloop⟩ | hloop⟩ :=
    runLoop_cases m (boot program false registers)
  · obtain rfl : t = t' := Outcome.halted.inj (h.symm.trans hloop)
    obtain ⟨n, -, s, hs, ⟨hhalt', hloop'⟩ | ⟨e, u, -, -, hloop'⟩ | hloop'⟩ :=
      runLoop_cases (pipelinedFuel m) (boot program true registers)
    · exact .inl ⟨s, hloop', (halted_alike hcode ht (next_none_of_halt hhalt) hs hhalt').2⟩
    · exact .inr ⟨e, u, hloop'⟩
    · exact absurd hloop' (pipeline_terminates hcode hended s)
  · cases h.symm.trans hloop
  · cases h.symm.trans hloop

theorem throws_in_time {m : Nat} {e : Exception} {u : Processor}
    (h : runLoop m (boot program false registers) = .terminated e u) :
    ∃ e' u', runLoop (pipelinedFuel m) (boot program true registers) = .terminated e' u' := by
  have hended : ∀ s, runLoop m (boot program false registers) ≠ .running s := by
    intro s hrunning
    cases h.symm.trans hrunning
  obtain ⟨l, -, t, ht, ⟨-, hloop⟩ | ⟨e₁, u₁, hhalt, hcycle, hloop⟩ | hloop⟩ :=
    runLoop_cases m (boot program false registers)
  · cases h.symm.trans hloop
  · obtain ⟨n, -, s, hs, ⟨hhalt', -⟩ | ⟨e', u', -, -, hloop'⟩ | hloop'⟩ :=
      runLoop_cases (pipelinedFuel m) (boot program true registers)
    · obtain ⟨hflag, -⟩ := halted_alike hcode ht (next_none_of_error hcycle) hs hhalt'
      cases hhalt.symm.trans hflag
    · exact ⟨e', u', hloop'⟩
    · exact absurd hloop' (pipeline_terminates hcode hended s)
  · cases h.symm.trans hloop

/-- How the pipelined loop ends when the other one has ended after `m` iterations. -/
structure EndsInTime (program : Program) (registers : Registers) (m : Nat) : Prop where
  halts : ∀ t, runLoop m (boot program false registers) = .halted t →
    HaltsInTime program registers m t
  throws : ∀ e u, runLoop m (boot program false registers) = .terminated e u →
    ∃ e' u', runLoop (pipelinedFuel m) (boot program true registers) = .terminated e' u'

end Processor

end Rv64Emu
