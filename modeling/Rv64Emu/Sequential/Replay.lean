import Rv64Emu.Machine.BusRouting
import Rv64Emu.Sequential.NonPipelined

/-! The writes of a run determine where it ends: made once more, in order, they
lead from its first registers and memories to its last ones. -/
namespace Rv64Emu

namespace Registers

def replay (registers : Registers) (writes : List (RegNumber × RegValue)) : Registers :=
  writes.foldl (fun registers write => registers.writeRegister write.1 write.2) registers

theorem replay_append (registers : Registers) (first second : List (RegNumber × RegValue)) :
    registers.replay (first ++ second) = (registers.replay first).replay second :=
  List.foldl_append

end Registers

namespace Clients

def replay (clients : Clients) : List BusWrite → Except Exception Clients
  | [] => .ok clients
  | write :: writes =>
    match clients.write write.width write.addr write.data with
    | .ok clients => replay clients writes
    | .error e => .error e

theorem replay_singleton (clients : Clients) (write : BusWrite) :
    clients.replay [write] = clients.write write.width write.addr write.data := by
  unfold replay
  cases clients.write write.width write.addr write.data with
  | ok clients' => rfl
  | error e => rfl

theorem replay_append (clients : Clients) (first second : List BusWrite) :
    clients.replay (first ++ second) = (clients.replay first).bind fun clients =>
      clients.replay second := by
  induction first generalizing clients with
  | nil => rfl
  | cons write writes ih =>
    change (match clients.write write.width write.addr write.data with
      | .ok clients => replay clients (writes ++ second)
      | .error e => .error e) = Except.bind (match clients.write write.width write.addr write.data with
      | .ok clients => replay clients writes
      | .error e => .error e) _
    cases clients.write write.width write.addr write.data with
    | ok clients' => exact ih clients'
    | error e => rfl

end Clients

theorem MWBRegisters.commit_eq_replay (mWb : MWBRegisters) (registers : Registers) :
    mWb.commit registers = registers.replay mWb.registerWrites := by
  unfold commit registerWrites
  cases mWb.control.regWrite with
  | false => rfl
  | true =>
    by_cases hrd : mWb.rd = 0
    · rw [hrd]
      rfl
    · have hne : (mWb.rd != 0) = true := bne_iff_ne.mpr hrd
      rw [hne]
      rfl

theorem EXMRegisters.store_eq_replay {exM : EXMRegisters} {clients clients' : Clients}
    (h : exM.store clients = .ok clients') : clients.replay exM.busWrites = .ok clients' := by
  unfold EXMRegisters.store at h
  by_cases hwrite : exM.control.memWrite = true
  · rw [if_pos hwrite] at h
    obtain ⟨width, hsize, hstored⟩ := Clients.storeData_ok_cases h
    have hwrites : exM.busWrites = [⟨exM.aluResult, width, exM.writeData.setWidth _⟩] :=
      DataMemory.busWrites_of_size hwrite hsize
    rw [hwrites, Clients.replay_singleton]
    exact hstored
  · rw [if_neg hwrite] at h
    have hwrites : exM.busWrites = [] := if_neg hwrite
    rw [hwrites]
    exact h

namespace ArchState

theorem replay_next {σ τ : ArchState} (h : σ.next = some τ) :
    τ.registers = σ.registers.replay σ.registerWrites ∧
      σ.clients.replay σ.busWrites = .ok τ.clients := by
  obtain ⟨-, hstep⟩ := next_eq_some_iff.mp h
  obtain ⟨idEx, memData, clients, hdecode, hload, hstore, rfl⟩ := step_ok_iff.mp hstep
  rw [registerWrites_of (retires_of hdecode hload), busWrites_of hdecode,
    ← MWBRegisters.commit_eq_replay]
  exact ⟨rfl, EXMRegisters.store_eq_replay hstore⟩

/-- The end of a run, from its writes. -/
theorem replay_steps {σ τ : ArchState} {k : Nat} (h : Runs.steps next k σ = some τ) :
    τ.registers = σ.registers.replay (Runs.trace next registerWrites k σ) ∧
      σ.clients.replay (Runs.trace next busWrites k σ) = .ok τ.clients := by
  induction k generalizing τ with
  | zero =>
    cases h
    exact ⟨rfl, rfl⟩
  | succ k ih =>
    obtain ⟨ρ, hρ, hlast⟩ := Runs.steps_succ_cases h
    obtain ⟨hregisters, hclients⟩ := ih hρ
    obtain ⟨hregisters', hclients'⟩ := replay_next hlast
    rw [Runs.trace_succ hρ, Runs.trace_succ hρ, Registers.replay_append, Clients.replay_append,
      hregisters', hregisters, hclients]
    exact ⟨rfl, hclients'⟩

end ArchState

end Rv64Emu
