import Rv64Emu.Machine.StageSpecs
import Rv64Emu.Library.Runs

/-! A clock cycle in the two modes, what it writes, and how the main loop ends. -/
namespace Rv64Emu

/-- A write through a `writeByte` … `writeDoubleWord` of the bus. -/
structure BusWrite where
  addr : MemAddress
  width : Width
  data : width.Value
  deriving DecidableEq

/-- The register write that the control lines of M/WB ask for. -/
def MWBRegisters.registerWrites (mWb : MWBRegisters) : List (RegNumber × RegValue) :=
  if mWb.control.regWrite && mWb.rd != 0 then [(mWb.rd, mWb.wbValue)] else []

/-- The bus write that the data memory performs when it is clocked. -/
def DataMemory.busWrites (dm : DataMemory) : List BusWrite :=
  if dm.writeEnable then
    match Width.ofSize dm.size with
    | some width => [⟨dm.addr, width, dm.dataIn.setWidth _⟩]
    | none => []
  else []

theorem DataMemory.busWrites_of_size {dm : DataMemory} {width : Width}
    (hwrite : dm.writeEnable = true) (hsize : Width.ofSize dm.size = some width) :
    dm.busWrites = [⟨dm.addr, width, dm.dataIn.setWidth _⟩] := by
  unfold busWrites
  rw [if_pos hwrite, hsize]

namespace Processor

/-- Whether the stage is clocked in this cycle. -/
def clocks (s : Processor) (stage : Stage) : Bool :=
  s.pipelining || Pipeline.stages.get s.currentStage == stage

/-- The writes to registers other than x0 in this cycle, read off the lines of
the register file just before the clock pulse. -/
def registerWrites (s : Processor) : List (RegNumber × RegValue) :=
  match Pipeline.propagate s with
  | .ok _ t =>
    if s.clocks .writeBack && t.regfile.writeEnable && t.regfile.rd != 0 then
      [(t.regfile.rd, t.regfile.writeData)]
    else []
  | .error _ _ => []

/-- The bus writes in this cycle, read off the lines of the data memory. -/
def busWrites (s : Processor) : List BusWrite :=
  match Pipeline.propagate s with
  | .ok _ t => if s.clocks .memory then t.memory.dataMemory.busWrites else []
  | .error _ _ => []

/-! ### The frame of a cycle -/

/-- The state in which the stages propagate. -/
def ready (s : Processor) : Processor := { s with controlSignals := {} }

def ticked (s : Processor) : Processor := { s with nCycles := s.nCycles + 1 }

/-- The bus clock has no effect, since no client does anything on it. -/
theorem busClock_eq (s : Processor) :
    (if s.nCycles % 5 = 0 then { s with bus := s.bus.clockPulse } else s) = s := by
  have hclients : s.bus.clients.map Client.clockPulse = s.bus.clients := List.map_id _
  have hbus : s.bus.clockPulse = s.bus := by
    unfold MemoryBus.clockPulse
    rw [hclients]
  rw [hbus]
  exact ite_self s

theorem cycle_eq (s : Processor) :
    cycle s = (Pipeline.propagate >>= fun _ => Pipeline.clockPulse >>= fun _ =>
      (modify ticked : Action Unit)) s := by
  change (Pipeline.propagate >>= fun _ => Pipeline.clockPulse >>= fun _ =>
    (modify ticked : Action Unit))
      (if s.nCycles % 5 = 0 then { s with bus := s.bus.clockPulse } else s) = _
  rw [busClock_eq]

theorem cycle_ok_iff (s t : Processor) :
    cycle s = .ok () t ↔ ∃ u, (do Pipeline.propagate; Pipeline.clockPulse : Action Unit) s =
      .ok () u ∧ t = ticked u := by
  rw [cycle_eq]
  constructor
  · intro h
    obtain ⟨⟨⟩, p, hp, h⟩ := bind_ok_cases h
    obtain ⟨⟨⟩, u, hu, h⟩ := bind_ok_cases h
    refine ⟨u, (bind_of_ok hp).trans hu, ?_⟩
    exact ok_eq_ok_iff.mp h
  · rintro ⟨u, h, rfl⟩
    obtain ⟨⟨⟩, p, hp, hu⟩ := bind_ok_cases h
    rw [bind_of_ok hp, bind_of_ok hu]
    rfl

theorem cycle_of_propagate_error {s t : Processor} {e : Exception}
    (h : Pipeline.propagate s = .error e t) : cycle s = .error e t := by
  rw [cycle_eq]
  exact bind_of_error h

theorem cycle_of_clockPulse_error {s t u : Processor} {e : Exception}
    (h : Pipeline.propagate s = .ok () t) (h' : Pipeline.clockPulse t = .error e u) :
    cycle s = .error e u := by
  rw [cycle_eq, bind_of_ok h]
  exact bind_of_error h'

/-! ### The main loop -/

theorem next_eq_some_iff {s t : Processor} :
    next s = some t ↔ s.shouldHalt = false ∧ cycle s = .ok () t := by
  unfold next
  cases s.shouldHalt with
  | true => simp
  | false =>
    cases h : cycle s with
    | ok a u =>
      simp only [Bool.false_eq_true, if_false, Option.some.injEq, true_and]
      exact ⟨fun h' => h' ▸ rfl, fun h' => (ok_eq_ok_iff.mp h').symm⟩
    | error e u => simp

theorem runLoop_of_next {fuel : Nat} {s t : Processor} (h : next s = some t) :
    runLoop (fuel + 1) s = runLoop fuel t := by
  obtain ⟨hhalt, hcycle⟩ := next_eq_some_iff.mp h
  rw [runLoop, hhalt, hcycle]
  rfl

theorem runLoop_of_steps {n fuel : Nat} {s t : Processor} (h : Runs.steps next n s = some t) :
    runLoop (n + fuel) s = runLoop fuel t := by
  induction n generalizing t fuel with
  | zero =>
    cases h
    rw [Nat.zero_add]
  | succ n ih =>
    obtain ⟨u, hu, hlast⟩ := Runs.steps_succ_cases h
    rw [Nat.add_assoc, ih hu, Nat.add_comm, runLoop_of_next hlast]

theorem runLoop_of_halt {fuel : Nat} {s : Processor} (h : s.shouldHalt = true) :
    runLoop fuel s = .halted s := by
  unfold runLoop
  rw [if_pos h]

theorem runLoop_of_error {fuel : Nat} {s t : Processor} {e : Exception}
    (hhalt : s.shouldHalt = false) (h : cycle s = .error e t) :
    runLoop (fuel + 1) s = .terminated e t := by
  rw [runLoop, hhalt, h]
  rfl

/-- The loop ends in a state that the cycles reach: on the halt flag, on an
exception, or for want of fuel. -/
theorem runLoop_cases (fuel : Nat) (s : Processor) :
    ∃ n ≤ fuel, ∃ t, Runs.steps next n s = some t ∧
      ((t.shouldHalt = true ∧ runLoop fuel s = .halted t) ∨
        (∃ e u, t.shouldHalt = false ∧ cycle t = .error e u ∧
          runLoop fuel s = .terminated e u) ∨
        runLoop fuel s = .running t) := by
  induction fuel generalizing s with
  | zero =>
    refine ⟨0, Nat.le_refl _, s, rfl, ?_⟩
    cases hhalt : s.shouldHalt with
    | true => exact .inl ⟨rfl, runLoop_of_halt hhalt⟩
    | false =>
      refine .inr (.inr ?_)
      rw [runLoop, hhalt]
      rfl
  | succ fuel ih =>
    cases hhalt : s.shouldHalt with
    | true =>
      exact ⟨0, Nat.zero_le _, s, rfl, .inl ⟨hhalt, runLoop_of_halt hhalt⟩⟩
    | false =>
      cases hcycle : cycle s with
      | error e u =>
        exact ⟨0, Nat.zero_le _, s, rfl,
          .inr (.inl ⟨e, u, hhalt, hcycle, runLoop_of_error hhalt hcycle⟩)⟩
      | ok a t =>
        have hnext : next s = some t := next_eq_some_iff.mpr ⟨hhalt, hcycle⟩
        obtain ⟨n, hn, u, hu, hend⟩ := ih t
        refine ⟨n + 1, by omega, u, ?_, ?_⟩
        · rw [Runs.steps_succ_left hnext]
          exact hu
        · rw [runLoop_of_next hnext]
          exact hend

/-- A loop that wants more fuel has made a cycle of every iteration. -/
theorem steps_of_running {fuel : Nat} {s t : Processor} (h : runLoop fuel s = .running t) :
    Runs.steps next fuel s = some t := by
  induction fuel generalizing s with
  | zero =>
    unfold runLoop at h
    split at h
    · cases h
    · cases h
      rfl
  | succ fuel ih =>
    rw [runLoop] at h
    split at h
    · cases h
    · rename_i hhalt
      split at h
      · rename_i u hcycle
        have hnext : next s = some u :=
          next_eq_some_iff.mpr ⟨Bool.eq_false_iff.mpr hhalt, hcycle⟩
        rw [Runs.steps_succ_left hnext]
        exact ih h
      · cases h

/-- A loop that has ended needs no more fuel. -/
theorem runLoop_of_le {n fuel : Nat} {s : Processor} (hended : ∀ t, runLoop n s ≠ .running t)
    (hle : n ≤ fuel) : runLoop fuel s = runLoop n s := by
  obtain ⟨m, hm, t, ht, ⟨hhalt, hloop⟩ | ⟨e, u, hhalt, hcycle, hloop⟩ | hloop⟩ := runLoop_cases n s
  · have hfuel : fuel = m + (fuel - m) := by omega
    rw [hloop, hfuel, runLoop_of_steps ht, runLoop_of_halt hhalt]
  · have hlt : m < fuel := by
      by_contra hge
      have heq : m = n := by omega
      have hrunning : runLoop (n + 0) s = runLoop 0 t := runLoop_of_steps (heq ▸ ht)
      rw [Nat.add_zero] at hrunning
      apply hended t
      rw [hrunning]
      unfold runLoop
      rw [hhalt]
      rfl
    have hfuel : fuel = m + (fuel - m - 1 + 1) := by omega
    rw [hloop, hfuel, runLoop_of_steps ht, runLoop_of_error hhalt hcycle]
  · exact absurd hloop (hended t)

theorem steps_of_halted {fuel : Nat} {s t : Processor} (h : runLoop fuel s = .halted t) :
    ∃ n, Runs.steps next n s = some t ∧ t.shouldHalt = true := by
  obtain ⟨n, -, u, hu, ⟨hhalt, hloop⟩ | ⟨e, v, -, -, hloop⟩ | hloop⟩ := runLoop_cases fuel s
  · obtain rfl := Outcome.halted.inj (hloop.symm.trans h)
    exact ⟨n, hu, hhalt⟩
  · cases hloop.symm.trans h
  · cases hloop.symm.trans h

/-- After `n` cycles, in the state `s`, the next one throws `e` and leaves `u`. -/
structure Throws (start : Processor) (n : Nat) (e : Exception) (s u : Processor) : Prop where
  steps : Runs.steps next n start = some s
  running : s.shouldHalt = false
  thrown : cycle s = .error e u

/-- This is how the main loop ends on an exception. -/
theorem runLoop_terminated_iff {start u : Processor} {e : Exception} :
    (∃ fuel, runLoop fuel start = .terminated e u) ↔ ∃ n s, Throws start n e s u := by
  constructor
  · rintro ⟨fuel, h⟩
    obtain ⟨n, -, t, ht, ⟨-, hend⟩ | ⟨e', v, hhalt, hcycle, hend⟩ | hend⟩ :=
      runLoop_cases fuel start
    · cases h.symm.trans hend
    · cases h.symm.trans hend
      exact ⟨n, t, ht, hhalt, hcycle⟩
    · cases h.symm.trans hend
  · rintro ⟨n, s, h⟩
    exact ⟨n + 1, (runLoop_of_steps h.steps).trans (runLoop_of_error h.running h.thrown)⟩

/-- What the cycle after the first `n` throws, and the registers it leaves. -/
def ending (n : Nat) (start : Processor) : Option (Exception × Registers) :=
  match Runs.steps next n start with
  | none => none
  | some s =>
    if s.shouldHalt then none
    else match cycle s with
      | .ok _ _ => none
      | .error e u => some (e, u.regfile.registers)

theorem throws_of_ending {start : Processor} {n : Nat} {e : Exception} {registers : Registers}
    (h : ending n start = some (e, registers)) :
    ∃ s u, Throws start n e s u ∧ u.regfile.registers = registers := by
  unfold ending at h
  cases hs : Runs.steps next n start with
  | none =>
    rw [hs] at h
    cases h
  | some s =>
    rw [hs] at h
    change (if s.shouldHalt then none else match cycle s with
      | .ok _ _ => none
      | .error e u => some (e, u.regfile.registers)) = _ at h
    cases hhalt : s.shouldHalt with
    | true =>
      rw [hhalt] at h
      cases h
    | false =>
      rw [hhalt] at h
      cases hcycle : cycle s with
      | ok _ _ =>
        rw [hcycle] at h
        cases h
      | error e' u =>
        rw [hcycle] at h
        cases h
        exact ⟨s, u, ⟨hs, hhalt, hcycle⟩, rfl⟩

theorem next_none_of_error {s t : Processor} {e : Exception} (h : cycle s = .error e t) :
    next s = none := by
  unfold next
  rw [h]
  exact ite_self none

theorem next_none_of_halt {s : Processor} (h : s.shouldHalt = true) : next s = none := by
  unfold next
  rw [if_pos h]

/-- A run ends in one way. -/
theorem Throws.unique {start s t u v : Processor} {m n : Nat} {e e' : Exception}
    (h : Throws start n e s u) (h' : Throws start m e' t v) : n = m ∧ s = t ∧ e = e' ∧ u = v := by
  obtain ⟨rfl, rfl⟩ := Runs.steps_stuck_unique h.steps (next_none_of_error h.thrown) h'.steps
    (next_none_of_error h'.thrown)
  cases h.thrown.symm.trans h'.thrown
  exact ⟨rfl, rfl, rfl, rfl⟩

theorem Throws.not_halted {start s t u : Processor} {m n : Nat} {e : Exception}
    (h : Throws start n e s u) (ht : Runs.steps next m start = some t) :
    t.shouldHalt = false := by
  rw [Bool.eq_false_iff]
  intro hhalt
  obtain ⟨-, rfl⟩ := Runs.steps_stuck_unique h.steps (next_none_of_error h.thrown) ht
    (next_none_of_halt hhalt)
  cases h.running.symm.trans hhalt

/-- The instruction that a fault is about: the one that IF fetches, the one in
IF/ID, or the one in EX/M. -/
def faultPC (s : Processor) : Exception → MemAddress
  | .instructionFetchFailure _ => s.pc
  | .illegalInstruction _ => s.ifId.pc
  | _ => s.exM.pc

end Processor

end Rv64Emu
