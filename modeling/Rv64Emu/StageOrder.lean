import Rv64Emu.Machine.Cycles
import Rv64Emu.Library.Commutation

/-! The stages of a pipelined clock cycle may be visited in any order. In
`propagate` every stage writes only its own buffers and raises control lines;
in `clockPulse` every stage writes its outgoing register from its buffers. The
one shared target, the program counter, is written by at most one stage. -/
namespace Rv64Emu.StageOrder

open Commutation

abbrev Pipelined (s : Processor) : Prop := s.pipelining = true

/-! ### Propagate -/

def propagateGuard : Stage → Processor → Prop
  | .instructionFetch => InstructionFetchStage.canFetch
  | .memory => MemoryStage.canLoad
  | _ => fun _ => True

def propagateUpdate : Stage → Processor → Processor
  | .instructionFetch => InstructionFetchStage.propagated
  | .instructionDecode => InstructionDecodeStage.propagate
  | .execute => ExecuteStage.propagate
  | .memory => MemoryStage.propagated
  | .writeBack => WriteBackStage.propagate

theorem propagate_guardedBy (stage : Stage) :
    GuardedBy Pipelined stage.propagate (propagateGuard stage) (propagateUpdate stage) := by
  cases stage with
  | instructionFetch => exact ⟨fun s t hp => InstructionFetchStage.propagate_ok_iff hp t⟩
  | instructionDecode => exact GuardedBy.of_modify _ _
  | execute => exact GuardedBy.of_modify _ _
  | memory => exact ⟨fun s t _ => MemoryStage.propagate_ok_iff s t⟩
  | writeBack => exact GuardedBy.of_modify _ _

theorem pipelined_propagateUpdate (stage : Stage) {s : Processor} (hp : Pipelined s) :
    Pipelined (propagateUpdate stage s) := by
  cases stage <;> exact hp

/-- The state record with other control lines. -/
def withControl (s : Processor) (control : PipelineControl) : Processor :=
  { s with controlSignals := control }

theorem decode_execute_comm (s : Processor) :
    InstructionDecodeStage.propagate (ExecuteStage.propagate s) =
      ExecuteStage.propagate (InstructionDecodeStage.propagate s) := by
  have hcontrol :
      (InstructionDecodeStage.propagate (ExecuteStage.propagate s)).controlSignals =
        (ExecuteStage.propagate (InstructionDecodeStage.propagate s)).controlSignals := by
    rw [InstructionDecodeStage.propagate_control, ExecuteStage.propagate_control,
      ExecuteStage.propagate_control, InstructionDecodeStage.propagate_control]
    rfl
  exact congrArg (withControl (InstructionDecodeStage.propagate (ExecuteStage.propagate s)))
    hcontrol

theorem fetch_decode_comm (s : Processor) :
    InstructionFetchStage.propagated (InstructionDecodeStage.propagate s) =
      InstructionDecodeStage.propagate (InstructionFetchStage.propagated s) := by
  have hcontrol :
      (InstructionFetchStage.propagated (InstructionDecodeStage.propagate s)).controlSignals =
        (InstructionDecodeStage.propagate
          (InstructionFetchStage.propagated s)).controlSignals := by
    rw [InstructionDecodeStage.propagate_control]
    simp only [InstructionFetchStage.propagated, InstructionDecodeStage.propagate_control]
    rfl
  exact congrArg
    (withControl (InstructionFetchStage.propagated (InstructionDecodeStage.propagate s))) hcontrol

theorem fetch_execute_comm (s : Processor) :
    InstructionFetchStage.propagated (ExecuteStage.propagate s) =
      ExecuteStage.propagate (InstructionFetchStage.propagated s) := by
  have hcontrol :
      (InstructionFetchStage.propagated (ExecuteStage.propagate s)).controlSignals =
        (ExecuteStage.propagate (InstructionFetchStage.propagated s)).controlSignals := by
    rw [ExecuteStage.propagate_control]
    simp only [InstructionFetchStage.propagated, ExecuteStage.propagate_control]
    rw [Bool.or_right_comm]
    rfl
  exact congrArg
    (withControl (InstructionFetchStage.propagated (ExecuteStage.propagate s))) hcontrol

/-- Both bus readers bump the same counter. -/
theorem fetch_memory_comm (s : Processor) :
    InstructionFetchStage.propagated (MemoryStage.propagated s) =
      MemoryStage.propagated (InstructionFetchStage.propagated s) := by
  simp only [InstructionFetchStage.propagated, MemoryStage.propagated]
  rw [add_right_comm]

/-- The remaining pairs touch disjoint fields, so they commute by definition. -/
theorem propagate_comm (i j : Stage) (s : Processor) :
    propagateUpdate i (propagateUpdate j s) = propagateUpdate j (propagateUpdate i s) := by
  cases i <;> cases j
  case instructionFetch.instructionDecode => exact fetch_decode_comm s
  case instructionDecode.instructionFetch => exact (fetch_decode_comm s).symm
  case instructionFetch.execute => exact fetch_execute_comm s
  case execute.instructionFetch => exact (fetch_execute_comm s).symm
  case instructionFetch.memory => exact fetch_memory_comm s
  case memory.instructionFetch => exact (fetch_memory_comm s).symm
  case instructionDecode.execute => exact decode_execute_comm s
  case execute.instructionDecode => exact (decode_execute_comm s).symm
  all_goals rfl

theorem propagateGuard_update {i j : Stage} (hij : i ≠ j) (s : Processor) :
    propagateGuard i (propagateUpdate j s) ↔ propagateGuard i s := by
  cases i <;> cases j <;> first | exact absurd rfl hij | exact Iff.rfl

theorem propagate_independent (i j : Stage) (hij : i ≠ j) :
    Independent Pipelined (propagateGuard i) (propagateGuard j) (propagateUpdate i)
      (propagateUpdate j) where
  guard_left := fun s _ => propagateGuard_update hij s
  guard_right := fun s _ => propagateGuard_update hij.symm s
  comm := fun s _ => propagate_comm i j s

/-! ### Clock pulse -/

def clockPulseGuard : Stage → Processor → Prop
  | .instructionFetch => InstructionFetchStage.canDrain
  | .instructionDecode => InstructionDecodeStage.canIssue
  | .memory => MemoryStage.canStore
  | _ => fun _ => True

def clockPulseUpdate : Stage → Processor → Processor
  | .instructionFetch => InstructionFetchStage.clocked
  | .instructionDecode => InstructionDecodeStage.clocked
  | .execute => ExecuteStage.clockPulse
  | .memory => MemoryStage.clocked
  | .writeBack => WriteBackStage.clockPulse

/-- A pending redirect has raised the flush line, so IF leaves the program
counter alone. -/
structure RedirectFlushes (s : Processor) : Prop where
  pipelined : s.pipelining = true
  flush : s.execute.pcWriteEnable = true → s.controlSignals.flushFetch = true

theorem clockPulse_guardedBy (stage : Stage) :
    GuardedBy RedirectFlushes stage.clockPulse (clockPulseGuard stage)
      (clockPulseUpdate stage) := by
  cases stage with
  | instructionFetch =>
    exact ⟨fun s t hs => InstructionFetchStage.clockPulse_ok_iff hs.pipelined t⟩
  | instructionDecode =>
    exact ⟨fun s t hs => InstructionDecodeStage.clockPulse_ok_iff hs.pipelined t⟩
  | execute => exact GuardedBy.of_modify _ _
  | memory => exact ⟨fun s t _ => MemoryStage.clockPulse_ok_iff s t⟩
  | writeBack => exact GuardedBy.of_modify _ _

theorem redirectFlushes_update (stage : Stage) {s : Processor} (hs : RedirectFlushes s) :
    RedirectFlushes (clockPulseUpdate stage s) := by
  cases stage with
  | execute =>
    refine ⟨hs.pipelined, fun h => ?_⟩
    exact absurd h (by simp [clockPulseUpdate, ExecuteStage.clockPulse])
  | _ => exact ⟨hs.pipelined, hs.flush⟩

def withPC (s : Processor) (pc : MemAddress) : Processor := { s with pc := pc }

/-- The increment in IF and the redirect in EX never meet. -/
theorem fetch_execute_clock_comm {s : Processor} (hs : RedirectFlushes s) :
    InstructionFetchStage.clocked (ExecuteStage.clockPulse s) =
      ExecuteStage.clockPulse (InstructionFetchStage.clocked s) := by
  have hpc : (InstructionFetchStage.clocked (ExecuteStage.clockPulse s)).pc =
      (ExecuteStage.clockPulse (InstructionFetchStage.clocked s)).pc := by
    change (if InstructionFetchStage.advances s.controlSignals s.fetch then
        (if s.execute.pcWriteEnable then s.execute.nextPC else s.pc) + 4
      else if s.execute.pcWriteEnable then s.execute.nextPC else s.pc) =
      if s.execute.pcWriteEnable then s.execute.nextPC
      else if InstructionFetchStage.advances s.controlSignals s.fetch then s.pc + 4 else s.pc
    by_cases hredirect : s.execute.pcWriteEnable = true
    · have hhold : InstructionFetchStage.advances s.controlSignals s.fetch = false := by
        simp [InstructionFetchStage.advances, hs.flush hredirect]
      simp only [hhold, hredirect, Bool.false_eq_true, if_false, if_true]
    · simp only [if_neg hredirect]
  exact congrArg
    (withPC (InstructionFetchStage.clocked (ExecuteStage.clockPulse s))) hpc

theorem clockPulse_comm (i j : Stage) {s : Processor} (hs : RedirectFlushes s) :
    clockPulseUpdate i (clockPulseUpdate j s) = clockPulseUpdate j (clockPulseUpdate i s) := by
  cases i <;> cases j
  case instructionFetch.execute => exact fetch_execute_clock_comm hs
  case execute.instructionFetch => exact (fetch_execute_clock_comm hs).symm
  all_goals rfl

theorem clockPulseGuard_update {i j : Stage} (hij : i ≠ j) (s : Processor) :
    clockPulseGuard i (clockPulseUpdate j s) ↔ clockPulseGuard i s := by
  cases i <;> cases j <;> first | exact absurd rfl hij | exact Iff.rfl

theorem clockPulse_independent (i j : Stage) (hij : i ≠ j) :
    Independent RedirectFlushes (clockPulseGuard i) (clockPulseGuard j) (clockPulseUpdate i)
      (clockPulseUpdate j) where
  guard_left := fun s _ => clockPulseGuard_update hij s
  guard_right := fun s _ => clockPulseGuard_update hij.symm s
  comm := fun _ hs => clockPulse_comm i j hs

/-! ### The whole cycle -/

abbrev fixedOrder : List Stage := Pipeline.stages.toList

/-- All five stages have propagated, in the order of `Pipeline::stages`. -/
def allPropagated (s : Processor) : Processor :=
  fixedOrder.foldl (fun t stage => propagateUpdate stage t) (withControl s {})

/-- All five stages have been clocked. -/
def allClocked (s : Processor) : Processor :=
  fixedOrder.foldl (fun t stage => clockPulseUpdate stage t) s

theorem propagateIn_fixed_ok_iff {s t : Processor} (hp : Pipelined s) :
    Pipeline.propagateIn fixedOrder s = .ok () t ↔
      (InstructionFetchStage.canFetch s ∧ MemoryStage.canLoad s) ∧ t = allPropagated s := by
  have hrun := forM_ok_iff propagate_guardedBy
    (fun stage u hu _ => pipelined_propagateUpdate stage hu) fixedOrder
    (s := withControl s {}) (u := t) hp
  refine hrun.trans (and_congr_left fun _ => ?_)
  constructor
  · rintro ⟨hfetch, -, -, hload, -⟩
    exact ⟨hfetch, hload⟩
  · rintro ⟨hfetch, hload⟩
    exact ⟨hfetch, trivial, trivial, hload, trivial, trivial⟩

theorem redirectFlushes_allPropagated {s : Processor} (hp : Pipelined s) :
    RedirectFlushes (allPropagated s) := by
  refine ⟨hp, fun h => ?_⟩
  have hredirect : ExecuteStage.redirects s = true := h
  change (ExecuteStage.propagate (InstructionDecodeStage.propagate
    (InstructionFetchStage.propagated (withControl s {})))).controlSignals.flushFetch = true
  rw [ExecuteStage.propagate_control]
  change (_ || ExecuteStage.redirects s) = true
  rw [hredirect, Bool.or_true]

theorem clockPulseIn_fixed_ok_iff {s t : Processor} (hs : RedirectFlushes s) :
    Pipeline.clockPulseIn fixedOrder s = .ok () t ↔
      (InstructionFetchStage.canDrain s ∧ InstructionDecodeStage.canIssue s ∧
        MemoryStage.canStore s) ∧ t = allClocked s := by
  have hrun := forM_ok_iff clockPulse_guardedBy
    (fun stage u hu _ => redirectFlushes_update stage hu) fixedOrder (s := s) (u := t) hs
  refine hrun.trans (and_congr_left fun _ => ?_)
  constructor
  · rintro ⟨hdrain, hissue, -, hstore, -⟩
    exact ⟨hdrain, hissue, hstore⟩
  · rintro ⟨hdrain, hissue, hstore⟩
    exact ⟨hdrain, hissue, trivial, hstore, trivial, trivial⟩

theorem propagate_of_pipelined {s : Processor} (hs : s.pipelining = true) :
    Pipeline.propagate s = Pipeline.propagateIn fixedOrder s := by
  have hmode : ¬(!s.pipelining) = true := by rw [hs]; decide
  change (if !s.pipelining then _ else _ : Action Unit) s = _
  rw [if_neg hmode]

theorem clockPulse_of_pipelined {s : Processor} (hs : s.pipelining = true) :
    Pipeline.clockPulse s = Pipeline.clockPulseIn fixedOrder s := by
  have hmode : ¬(!s.pipelining) = true := by rw [hs]; decide
  change (if !s.pipelining then _ else _ : Action Unit) s = _
  rw [if_neg hmode]

/-- Whatever order the stages are visited in, a cycle that raises no exception
leaves the state that the fixed order of `Pipeline` leaves. -/
theorem cycle_order_irrelevant {p q : List Stage} (hp : p.Perm fixedOrder)
    (hq : q.Perm fixedOrder) {s t : Processor} (hs : s.pipelining = true)
    (h : (do Pipeline.propagateIn p; Pipeline.clockPulseIn q : Action Unit) s = .ok () t) :
    (do Pipeline.propagate; Pipeline.clockPulse : Action Unit) s = .ok () t := by
  obtain ⟨⟨⟩, u, hu, hclock⟩ := bind_ok_cases h
  have hfixed : Pipeline.propagateIn fixedOrder s = .ok () u :=
    forM_perm propagate_guardedBy (fun stage v hv _ => pipelined_propagateUpdate stage hv)
      propagate_independent hp (withControl s {}) u hs hu
  have hflush : RedirectFlushes u := by
    rw [((propagateIn_fixed_ok_iff hs).mp hfixed).2]
    exact redirectFlushes_allPropagated hs
  have hfixed' : Pipeline.clockPulseIn fixedOrder u = .ok () t :=
    forM_perm clockPulse_guardedBy (fun stage v hv _ => redirectFlushes_update stage hv)
      clockPulse_independent hq u t hflush hclock
  rw [bind_of_ok ((propagate_of_pipelined hs).trans hfixed),
    clockPulse_of_pipelined hflush.pipelined]
  exact hfixed'

/-- An unconditional jump over a `nop`. -/
def jumpAhead : Program :=
  { memories := [Memory.ofWords false 0x1000 [0x0080006f, 0x00000013, 0x00000013]]
    entrypoint := 0x1000 }

def jumpAheadBoot : Processor := Processor.boot jumpAhead true (Vector.replicate 31 7)

/-- Whether the action ends without a throw. -/
def succeeds (act : Action Unit) (s : Processor) : Bool :=
  match act s with
  | .ok _ _ => true
  | .error _ _ => false

theorem ok_of_succeeds {act : Action Unit} {s : Processor} (h : succeeds act s = true) :
    ∃ t, act s = .ok () t := by
  unfold succeeds at h
  cases hact : act s with
  | ok a t => exact ⟨t, rfl⟩
  | error e t =>
    rw [hact] at h
    cases h

/-- The jump is in EX, and IF/ID and ID/EX are flushed. -/
theorem cycle_order_irrelevant_reversed :
    ∃ s t, Runs.steps Processor.next 2 jumpAheadBoot = some s ∧ ExecuteStage.redirects s = true ∧
      (do Pipeline.propagateIn fixedOrder.reverse; Pipeline.clockPulseIn fixedOrder.reverse :
        Action Unit) s = .ok () t ∧
      (do Pipeline.propagate; Pipeline.clockPulse : Action Unit) s = .ok () t := by
  have htaken : (Runs.steps Processor.next 2 jumpAheadBoot).map (fun s =>
      (ExecuteStage.redirects s, s.pipelining,
        succeeds (Pipeline.propagateIn fixedOrder.reverse >>= fun _ =>
          Pipeline.clockPulseIn fixedOrder.reverse) s)) = some (true, true, true) := by
    decide +kernel
  obtain ⟨s, hs, htaken⟩ := Option.map_eq_some_iff.mp htaken
  obtain ⟨hredirects, htaken⟩ := Prod.mk.inj htaken
  obtain ⟨hpipelining, hok⟩ := Prod.mk.inj htaken
  obtain ⟨t, h⟩ := ok_of_succeeds hok
  exact ⟨s, t, hs, hredirects, h,
    cycle_order_irrelevant (List.reverse_perm _) (List.reverse_perm _) hpipelining h⟩

end Rv64Emu.StageOrder
