import Rv64Emu.Machine.Console
import Rv64Emu.Pipelined.Refinement
import Rv64Emu.Sequential.Replay

/-! What a run does to the bus, in either mode. A cycle changes the clients by
the bus writes that it makes and in no other way. -/
namespace Rv64Emu

namespace Clients

/-- What every accepted write preserves holds after a list of them. -/
theorem replay_invariant {P : Clients → Prop}
    (hwrite : ∀ {clients clients' : Clients} {width : Width} {addr : MemAddress}
      {value : width.Value}, P clients → clients.write width addr value = .ok clients' → P clients')
    {writes : List BusWrite} {clients clients' : Clients} (hinit : P clients)
    (h : clients.replay writes = .ok clients') : P clients' := by
  induction writes generalizing clients with
  | nil =>
    cases h
    exact hinit
  | cons write writes ih =>
    unfold replay at h
    split at h
    · rename_i next hnext
      exact ih (hwrite hinit hnext) h
    · cases h

theorem printed_replay {writes : List BusWrite} {clients clients' : Clients}
    (h : clients.replay writes = .ok clients') : clients'.printed = clients.printed :=
  replay_invariant (P := fun c => c.printed = clients.printed)
    (fun hc hwrite => (printed_write hwrite).trans hc) rfl h

end Clients

namespace ArchState

/-- What the devices print while an instruction is executed. -/
def printed (σ : ArchState) : List Byte := σ.busWrites.flatMap σ.clients.printed

theorem trace_printed {start σ : ArchState} {k : Nat} (h : Runs.steps next k start = some σ) :
    Runs.trace next printed k start =
      (Runs.trace next busWrites k start).flatMap start.clients.printed := by
  induction k generalizing σ with
  | zero => rfl
  | succ k ih =>
    obtain ⟨ρ, hρ, -⟩ := Runs.steps_succ_cases h
    rw [Runs.trace_succ hρ, Runs.trace_succ hρ, List.flatMap_append, ih hρ,
      ← Clients.printed_replay (replay_steps hρ).2]
    rfl

end ArchState

namespace Processor

/-- The states of a run: those of the pipeline, and those of the non-pipelined
machine at one of its stages. -/
def Driven (s : Processor) : Prop := s.pipelining = true ∨ ∃ i, AtStage i s

theorem driven_boot (program : Program) (pipelining : Bool) (registers : Registers) :
    Driven (boot program pipelining registers) := by
  cases pipelining with
  | true => exact .inl rfl
  | false => exact .inr ⟨0, atStage_boot program registers⟩

/-- The memories on the bus are those of the program. -/
theorem memory_mem_boot {program : Program} {pipelining : Bool} {registers : Registers}
    {m : Memory} : Client.memory m ∈ (boot program pipelining registers).bus.clients ↔
      m ∈ program.memories := by
  change Client.memory m ∈ program.memories.map Client.memory ++ [_] ++ [_] ↔ _
  simp

/-- The bus writes of a cycle, made on its clients, give the next ones. -/
theorem driven_next {s t : Processor} (hs : Driven s) (h : next s = some t) :
    Driven t ∧ s.bus.clients.replay s.busWrites = .ok t.bus.clients := by
  obtain ⟨-, hcycle⟩ := next_eq_some_iff.mp h
  obtain hp | ⟨i, hstage⟩ := hs
  · have hback := (pipelinedCycle hp hcycle).toBackendCycle
    obtain ⟨memData, -, hstore, -⟩ := hback.access
    refine ⟨.inl hback.pipelining, ?_⟩
    rw [(pipelined_writes hp hcycle).2]
    exact EXMRegisters.store_eq_replay hstore
  · obtain ⟨hstage', hclients⟩ := atStage_next hstage hcycle
    refine ⟨.inr ⟨i + 1, hstage'⟩, ?_⟩
    by_cases hi : i = 3
    · subst hi
      cases hload : s.exM.load s.bus.clients with
      | error e =>
        obtain ⟨u, hu, -⟩ := memory_error hstage (.inl hload)
        cases hcycle.symm.trans hu
      | ok memData =>
        cases hstore : s.exM.store s.bus.clients with
        | error e =>
          obtain ⟨u, hu, -⟩ := memory_error hstage (.inr ⟨memData, hload, hstore⟩)
          cases hcycle.symm.trans hu
        | ok clients =>
          obtain ⟨u, hu, -, -, harch⟩ := memory_ok hstage hload hstore
          obtain rfl := ok_eq_ok_iff.mp (hu.symm.trans hcycle)
          have hwritten := EXMRegisters.store_eq_replay hstore
          rw [← busWrites_memory hstage hload] at hwritten
          exact hwritten.trans (congrArg Except.ok (congrArg ArchState.clients harch).symm)
    · have hother : ∀ i : Fin 5, i ≠ 3 → (Pipeline.stages.get i == Stage.memory) = false := by
        decide
      have hidle : s.clocks .memory = false := (clocks_alone hstage _).trans (hother i hi)
      rw [busWrites_of_idle hidle, hclients hi]
      rfl

/-- After every run, the bus is the first one with the writes of the run made. -/
theorem replay_run {start s : Processor} (hstart : Driven start) {n : Nat}
    (h : Runs.steps next n start = some s) :
    Driven s ∧ start.bus.clients.replay (Runs.trace next busWrites n start) =
      .ok s.bus.clients := by
  refine Runs.history_invariant (P := fun writes s => Driven s ∧
    start.bus.clients.replay writes = .ok s.bus.clients) ?_ ⟨hstart, rfl⟩ h
  rintro writes s t ⟨hs, hreplay⟩ hnext
  obtain ⟨ht, hcycle⟩ := driven_next hs hnext
  refine ⟨ht, ?_⟩
  rw [Clients.replay_append, hreplay]
  exact hcycle

/-- The console text of a run, from its bus writes. -/
theorem trace_printed {start s : Processor} (hstart : Driven start) {n : Nat}
    (h : Runs.steps next n start = some s) :
    Runs.trace next printed n start =
      (Runs.trace next busWrites n start).flatMap start.bus.clients.printed := by
  induction n generalizing s with
  | zero => rfl
  | succ n ih =>
    obtain ⟨u, hu, -⟩ := Runs.steps_succ_cases h
    rw [Runs.trace_succ hu, Runs.trace_succ hu, List.flatMap_append, ih hu,
      ← Clients.printed_replay (replay_run hstart hu).2]
    rfl

end Processor

end Rv64Emu
