import Rv64Emu.Sequential.Replay
import Rv64Emu.Pipelined.Refinement
import Rv64Emu.Pipelined.Thrown

/-! Faults in the pipeline. A stage throws in the cycle in which it finds the
fault, while older instructions are still in the stages behind it: they may
lead elsewhere, and what they have not written by then is never written. -/
namespace Rv64Emu

/-- Both are raised by a failing fetch, by the decoder, or by a memory access. -/
def Exception.sameClass : Exception → Exception → Bool
  | .instructionFetchFailure _, .instructionFetchFailure _ => true
  | .illegalInstruction _, .illegalInstruction _ => true
  | .illegalAccess _, .illegalAccess _ => true
  | _, _ => false

theorem Exception.isFault_of_sameClass {e e' : Exception} (h : e.sameClass e' = true) :
    e.isFault = true := by
  cases e with
  | instructionFetchFailure addr => rfl
  | illegalInstruction what => rfl
  | illegalAccess fault => rfl
  | _ => cases h

theorem Exception.sameClass_self {e : Exception} (h : e.isFault = true) :
    e.sameClass e = true := by
  cases e with
  | instructionFetchFailure addr => rfl
  | illegalInstruction what => rfl
  | illegalAccess fault => rfl
  | _ => cases h

namespace ArchState

/-- The machine executes the instructions at these addresses one after the other
and then is at `target`, not halted. -/
def executesInOrder : List MemAddress → MemAddress → ArchState → Bool
  | [], target, σ => !σ.clients.shouldHalt && σ.pc == target
  | p :: older, target, σ =>
    σ.pc == p && match σ.next with
      | some τ => executesInOrder older target τ
      | none => false

theorem executesInOrder_iff {older : List MemAddress} {target : MemAddress} {σ : ArchState} :
    executesInOrder older target σ = true ↔ ∃ τ, Runs.steps next older.length σ = some τ ∧
      Runs.trace next (fun σ => [σ.pc]) older.length σ = older ∧
      τ.clients.shouldHalt = false ∧ τ.pc = target := by
  induction older generalizing σ with
  | nil =>
    change (!σ.clients.shouldHalt && σ.pc == target) = true ↔ ∃ τ, some σ = some τ ∧ [] = [] ∧ _
    simp
  | cons p older ih =>
    change (σ.pc == p && match σ.next with
      | some τ => executesInOrder older target τ
      | none => false) = true ↔ ∃ τ, Runs.steps next (older.length + 1) σ = some τ ∧
        Runs.trace next (fun σ => [σ.pc]) (older.length + 1) σ = p :: older ∧ _
    cases hnext : σ.next with
    | none =>
      rw [Bool.and_false]
      constructor
      · intro h
        cases h
      · rintro ⟨τ, hτ, -⟩
        obtain ⟨ρ, hρ⟩ := Runs.steps_of_le (show 1 ≤ older.length + 1 by omega) hτ
        cases hnext.symm.trans hρ
    | some ρ =>
      rw [Runs.steps_succ_left hnext, Bool.and_eq_true, beq_iff_eq]
      change σ.pc = p ∧ executesInOrder older target ρ = true ↔ _
      rw [ih]
      constructor
      · rintro ⟨rfl, τ, hτ, htrace, hhalt, hpc⟩
        refine ⟨τ, hτ, ?_, hhalt, hpc⟩
        rw [Runs.trace_succ_left hnext hτ, htrace]
        rfl
      · rintro ⟨τ, hτ, htrace, hhalt, hpc⟩
        rw [Runs.trace_succ_left hnext hτ] at htrace
        obtain ⟨hhead, htail⟩ := List.cons.inj htrace
        exact ⟨hhead, τ, hτ, htail, hhalt, hpc⟩

end ArchState

theorem past_of_steps {token : Option MemAddress} {σ τ : ArchState}
    (h : Runs.steps ArchState.next token.toList.length σ = some τ) : Past token σ τ := by
  cases token with
  | none => exact (Option.some.inj h).symm
  | some p => exact h

namespace Processor

/-- The machine in front of the instruction in EX/M, at the given address. -/
def committed (s : Processor) (pc : MemAddress) : ArchState :=
  ⟨s.mWb.commit s.regfile.registers, pc, s.bus.clients⟩

/-- The machine in front of the oldest instruction that MEM has not completed
when `e` is thrown. -/
def inFront (f : Flight) (s : Processor) (e : Exception) : ArchState :=
  s.committed ((f.before e).headD (s.faultPC e))

/-- The instructions in flight lead to the one that throws `e`. -/
def leadsToFault (f : Flight) (s : Processor) (e : Exception) : Bool :=
  (inFront f s e).executesInOrder (f.before e) (s.faultPC e)

/-- A fault in a tracked pipeline, with the instruction that raises it. -/
inductive FaultCase (f : Flight) (s : Processor) (σ : ArchState) : Exception → Prop where
  | fetch (fault : Exception) (dropped : f.dropped = none) (word : s.fetchedWord = .error fault)
      (thrown : InstructionFetchStage.fetchError s.pc fault = .instructionFetchFailure s.pc) :
      FaultCase f s σ (.instructionFetchFailure s.pc)
  | decode (p : MemAddress) (what : String) (dropped : f.dropped = none) (ifId : f.ifId = some p)
      (redirect : s.redirect = none)
      (immediate : InstructionDecoder.getImmediate ⟨s.ifId.instructionWord⟩ =
        .error (.illegalInstruction what)) : FaultCase f s σ (.illegalInstruction what)
  | access (p : MemAddress) (fault : AccessFault) (exM : f.exM = some p)
      (fails : ArchState.accessFails σ.clients s.exM (.illegalAccess fault)) :
      FaultCase f s σ (.illegalAccess fault)

section

variable {f : Flight} {s : Processor} {σ : ArchState}

theorem faultCase_of_access (h : Tracks f s σ) {e : Exception} (hfault : e.isFault = true)
    (hfails : ArchState.accessFails s.bus.clients s.exM e) : FaultCase f s σ e := by
  have herror := ArchState.accessFails_error hfails
  rw [← h.clients] at hfails
  cases hexM : f.exM with
  | none =>
    have hidle := h.exM_none hexM
    obtain hload | ⟨memData, -, hstore⟩ := hfails
    · cases (hidle.load σ.clients).symm.trans hload
    · cases (hidle.store σ.clients).symm.trans hstore
  | some p =>
    cases e with
    | illegalAccess fault => exact .access p fault hexM hfails
    | outOfBounds addr => cases hfault
    | _ => cases herror

theorem faultCase (h : Tracks f s σ) {e : Exception} (hcase : ThrowCase s e)
    (hfault : e.isFault = true) : FaultCase f s σ e := by
  cases hcase with
  | fetch fault seen word thrown =>
    subst thrown
    have hthrown := InstructionFetchStage.fetchError_fault hfault
    rw [hthrown]
    exact .fetch fault (h.dropped_none seen) word hthrown
  | load fails => exact faultCase_of_access h hfault (.inl fails)
  | drained seen countdown thrown =>
    subst thrown
    cases hfault
  | decode redirect stalls immediate =>
    obtain ⟨what, rfl⟩ := InstructionDecoder.getImmediate_error immediate
    cases hifId : f.ifId with
    | none =>
      rw [h.ifId_none hifId] at immediate
      cases immediate
    | some p =>
      have hunseen : s.fetch.endMarkerSeen = false := by
        rw [Bool.eq_false_iff]
        intro hseen
        cases hifId.symm.trans (h.drained hseen)
      exact .decode p what (h.dropped_none hunseen) hifId redirect immediate
  | store memData loads fails => exact faultCase_of_access h hfault (.inr ⟨memData, loads, fails⟩)

/-- The oldest instruction in flight is the next that the machine executes. -/
theorem pc_of_flight (h : Tracks f s σ) (hrun : σ.clients.shouldHalt = false)
    (hdropped : f.dropped = none) :
    σ.pc = (f.exM.toList ++ f.idEx.toList ++ f.ifId.toList).headD s.pc := by
  cases hexM : f.exM with
  | some p => exact (h.exM_some p hexM hrun).1
  | none =>
    have hhead := (h.chain hdropped).head σ (by rw [hexM]; rfl) hrun
    rw [hhead]
    cases f.idEx with
    | some p => rfl
    | none => cases f.ifId <;> rfl

theorem inFront_eq (h : Tracks f s σ) (hrun : σ.clients.shouldHalt = false) {e : Exception}
    (hcase : FaultCase f s σ e) : inFront f s e = σ := by
  have hpc : (f.before e).headD (s.faultPC e) = σ.pc := by
    cases hcase with
    | fetch fault dropped word thrown => exact (pc_of_flight h hrun dropped).symm
    | decode p what dropped ifId redirect immediate =>
      rw [pc_of_flight h hrun dropped, ifId]
      change (f.exM.toList ++ f.idEx.toList).headD s.ifId.pc = _
      rw [h.ifId_pc p ifId]
      cases f.exM with
      | some q => rfl
      | none => cases f.idEx <;> rfl
    | access p fault exM fails =>
      obtain ⟨hσ, idEx, hdecode, hagrees⟩ := h.exM_some p exM hrun
      change s.exM.pc = σ.pc
      rw [hagrees.pc]
      exact ArchState.pc_of_decode hdecode
  have hfront : inFront f s e = ⟨σ.registers, σ.pc, σ.clients⟩ := by
    unfold inFront committed
    rw [hpc, h.registers, h.clients]
  exact hfront

/-- There the machine meets the same fault. -/
theorem step_of_faultCase (h : Tracks f s σ) (hcoherent : Coherent σ s)
    (hrun : σ.clients.shouldHalt = false) {e : Exception} (hcase : FaultCase f s σ e)
    {ω : ArchState} (hω : Runs.steps ArchState.next (f.before e).length σ = some ω)
    (hrunω : ω.clients.shouldHalt = false) (hpc : ω.pc = s.faultPC e) : ω.step = .error e := by
  cases hcase with
  | fetch fault dropped word thrown =>
    have htoken : ∀ token : Option MemAddress, token.toList.length ≤ 1 := by
      intro token
      cases token <;> simp
    have hlength : (f.before (.instructionFetchFailure s.pc)).length ≤ 3 := by
      have hexM := htoken f.exM
      have hidEx := htoken f.idEx
      have hifId := htoken f.ifId
      change (f.exM.toList ++ f.idEx.toList ++ f.ifId.toList).length ≤ 3
      rw [List.length_append, List.length_append]
      omega
    have hword := (hcoherent _ hlength ω hω hrunω hpc).trans word
    have hpc' : ω.pc = s.pc := hpc
    apply ArchState.step_of_decode_error
    unfold ArchState.decode ArchState.fetch
    rw [hword, ← thrown, ← hpc']
    rfl
  | decode p what dropped ifId redirect immediate =>
    have hlength : (f.before (.illegalInstruction what)).length =
        f.exM.toList.length + f.idEx.toList.length := List.length_append
    rw [hlength] at hω
    obtain ⟨τ, hτ, hlast⟩ := Runs.steps_add_cases hω
    obtain ⟨-, hfetch⟩ := h.ifId_some p ifId τ ω (past_of_steps hτ) (past_of_steps hlast) hrunω
      redirect
    apply ArchState.step_of_decode_error
    unfold ArchState.decode decodeAt
    rw [hfetch]
    change _ <$> InstructionDecoder.getImmediate ⟨s.ifId.instructionWord⟩ = _
    rw [immediate]
    rfl
  | access p fault exM fails =>
    obtain rfl : σ = ω := Option.some.inj hω
    obtain ⟨-, idEx, hdecode, hagrees⟩ := h.exM_some p exM hrun
    apply ArchState.step_of_accessFails hdecode
    unfold ArchState.accessFails at fails ⊢
    rw [← hagrees.load, ← hagrees.store]
    exact fails

end

/-! ### The same instruction in both runs -/

section

variable {start : Processor} {n : Nat} {s : Processor} {k : Nat} {σ : ArchState}

theorem length_of_allBefore (h : Simulated start n s k σ) {e : Exception} {l : Nat}
    {ω : ArchState} (hω : Runs.steps ArchState.next l start.arch = some ω)
    (htrace : Runs.trace ArchState.next (fun σ => [σ.pc]) l start.arch =
      (Flight.after n start).allBefore e) : l = k + ((Flight.after n start).before e).length := by
  have hlength := congrArg List.length htrace
  unfold Flight.allBefore at hlength
  rw [← h.executed, Runs.length_trace ArchState.pc hω, List.length_append,
    Runs.length_trace ArchState.pc h.steps] at hlength
  exact hlength

/-- The instructions in flight lead to the fault exactly if, with the retired
ones, they are what the machine executes first and lead there. -/
theorem leadsToFault_iff (h : Simulated start n s k σ) {e : Exception}
    (hfront : inFront (Flight.after n start) s e = σ) :
    leadsToFault (Flight.after n start) s e = true ↔ ∃ ω,
      Runs.steps ArchState.next ((Flight.after n start).before e).length σ = some ω ∧
      Runs.trace ArchState.next (fun σ => [σ.pc]) (k + ((Flight.after n start).before e).length)
        start.arch = (Flight.after n start).allBefore e ∧
      ω.clients.shouldHalt = false ∧ ω.pc = s.faultPC e := by
  unfold leadsToFault Flight.allBefore
  rw [hfront, ArchState.executesInOrder_iff, ← h.executed]
  apply exists_congr
  intro ω
  apply and_congr_right
  intro hω
  rw [Runs.trace_add h.steps hω, List.append_right_inj]

end

/-- The non-pipelined run ends on a fault of the same class, raised by the same
instruction after the same instructions. -/
def FaultsAlike (program : Program) (registers : Registers) (n : Nat) (e : Exception)
    (s : Processor) : Prop :=
  ∃ m e' t v, Throws (boot program false registers) m e' t v ∧ e'.sameClass e = true ∧
    Runs.trace next retiredPC m (boot program false registers) =
      (Flight.after n (boot program true registers)).allBefore e ∧ t.faultPC e' = s.faultPC e

/-- No pipelined run ends on a fault that the non-pipelined run does not meet. -/
def NoSpuriousFaults (program : Program) (registers : Registers) : Prop :=
  ∀ n e s u, Throws (boot program true registers) n e s u → e.isFault = true →
    FaultsAlike program registers n e s

/-- A fault is genuine exactly if the older instructions that are still in
flight neither halt, nor fault, nor lead elsewhere. -/
theorem faultsAlike_iff {program : Program} {registers : Registers}
    (hsettled : Settled program registers) {n : Nat} {e : Exception} {s u : Processor}
    (h : Throws (boot program true registers) n e s u) (hfault : e.isFault = true) :
    FaultsAlike program registers n e s ↔
      leadsToFault (Flight.after n (boot program true registers)) s e = true := by
  obtain ⟨k, σ, hσ⟩ := simulated_of_settled hsettled h.steps
  have hrun := hσ.machine_running h.running
  have hcase := faultCase hσ.tracks (cycle_throws hσ.tracks.pipelining h.thrown).1 hfault
  have hfront := inFront_eq hσ.tracks hrun hcase
  rw [leadsToFault_iff hσ hfront]
  constructor
  · rintro ⟨m, e', t, v, hthrows, hclass, htrace, hpc⟩
    obtain ⟨l, ω, hω⟩ := error_cases (atStage_boot program registers) hthrows
    have hexecuted := hω.executed.symm.trans htrace
    obtain rfl := length_of_allBefore hσ hω.arch hexecuted
    obtain ⟨ρ, hρ, hlast⟩ := Runs.steps_add_cases hω.arch
    obtain rfl : σ = ρ := Option.some.inj (hσ.steps.symm.trans hρ)
    exact ⟨ω, hlast, hexecuted, hω.notHalted,
      (hω.faultPC (Exception.isFault_of_sameClass hclass)).symm.trans hpc⟩
  · rintro ⟨ω, hω, htrace, hrunω, hpc⟩
    have hstep := step_of_faultCase hσ.tracks (coherent_of_settled hsettled hσ) hrun hcase hω
      hrunω hpc
    obtain ⟨m, t, v, hm⟩ := error_reached (atStage_boot program registers)
      (Runs.steps_add_of hσ.steps hω) hrunω hstep
    exact ⟨m, e, t, v, hm.toThrows, Exception.sameClass_self hfault, hm.executed.trans htrace,
      (hm.faultPC hfault).trans hpc⟩

/-- The store that halts the system as the last word of the image:
`sw x0, 632(x0)`. -/
def haltAtEnd : Program :=
  { memories := [Memory.ofWords false 0x1000 [0x26002c23]]
    entrypoint := 0x1000 }

theorem haltAtEnd_spurious : ¬NoSpuriousFaults haltAtEnd (Vector.replicate 31 0) := by
  intro hgenuine
  have hpipelined : ending 1 (boot haltAtEnd true (Vector.replicate 31 0)) =
      some (.instructionFetchFailure 0x1004, Vector.replicate 31 0) := by decide +kernel
  obtain ⟨s, u, hs, -⟩ := throws_of_ending hpipelined
  obtain ⟨m, e, t, v, ht, -⟩ := hgenuine 1 _ s u hs rfl
  have hhalt : (Runs.steps next 4 (boot haltAtEnd false (Vector.replicate 31 0))).map
      shouldHalt = some true := by decide +kernel
  obtain ⟨w, hw, hhalted⟩ := Option.map_eq_some_iff.mp hhalt
  cases (ht.not_halted hw).symm.trans hhalted

/-- One instruction and the end of the image behind it: `addi x1, x0, 5`. -/
def writeAtEnd : Program :=
  { memories := [Memory.ofWords false 0x1000 [0x00500093]]
    entrypoint := 0x1000 }

theorem faultsAlike_writeAtEnd :
    ∃ s u, Throws (boot writeAtEnd true (Vector.replicate 31 0)) 1
        (.instructionFetchFailure 0x1004) s u ∧
      FaultsAlike writeAtEnd (Vector.replicate 31 0) 1 (.instructionFetchFailure 0x1004) s := by
  have hpipelined : ending 1 (boot writeAtEnd true (Vector.replicate 31 0)) =
      some (.instructionFetchFailure 0x1004, Vector.replicate 31 0) := by decide +kernel
  obtain ⟨s, u, hs, -⟩ := throws_of_ending hpipelined
  have hleads : (Runs.steps next 1 (boot writeAtEnd true (Vector.replicate 31 0))).map (fun s =>
      leadsToFault (Flight.after 1 (boot writeAtEnd true (Vector.replicate 31 0))) s
        (.instructionFetchFailure 0x1004)) = some true := by decide +kernel
  rw [hs.steps] at hleads
  exact ⟨s, u, hs, (faultsAlike_iff (settled_of_memories _ (by decide +kernel)) hs rfl).mpr
    (Option.some.inj hleads)⟩

/-! ### What a fault leaves undone -/

/-- The register writes that the instructions in front of the fault still had to
make, the one in M/WB first. -/
def lostRegisterWrites (f : Flight) (s : Processor) (e : Exception) :
    List (RegNumber × RegValue) :=
  s.mWb.registerWrites ++
    Runs.trace ArchState.next ArchState.registerWrites (f.before e).length (inFront f s e)

def lostBusWrites (f : Flight) (s : Processor) (e : Exception) : List BusWrite :=
  Runs.trace ArchState.next ArchState.busWrites (f.before e).length (inFront f s e)

/-- The writes that are lost would have changed nothing. -/
structure LosesNothing (f : Flight) (s : Processor) (e : Exception) : Prop where
  registers : s.regfile.registers.replay (lostRegisterWrites f s e) = s.regfile.registers
  clients : s.bus.clients.replay (lostBusWrites f s e) = .ok s.bus.clients

instance (f : Flight) (s : Processor) (e : Exception) : Decidable (LosesNothing f s e) :=
  decidable_of_iff
    (s.regfile.registers.replay (lostRegisterWrites f s e) = s.regfile.registers ∧
      s.bus.clients.replay (lostBusWrites f s e) = .ok s.bus.clients)
    ⟨fun h => ⟨h.1, h.2⟩, fun h => ⟨h.1, h.2⟩⟩

/-- Both runs have ended on the same dynamic instruction. -/
structure SameInstruction (program : Program) (registers : Registers) (n m : Nat)
    (e e' : Exception) (s t : Processor) : Prop where
  executed : Runs.trace next retiredPC m (boot program false registers) =
    (Flight.after n (boot program true registers)).allBefore e
  faultPC : t.faultPC e' = s.faultPC e

structure SameResult (u v : Processor) : Prop where
  registers : u.regfile.registers = v.regfile.registers
  clients : u.bus.clients = v.bus.clients

/-- A fault that ends both runs finds all older instructions completed, and no younger one. -/
def PreciseFaults (program : Program) (registers : Registers) : Prop :=
  ∀ n m e e' s u t v, Throws (boot program true registers) n e s u →
    Throws (boot program false registers) m e' t v → e.isFault = true → e'.isFault = true →
    SameInstruction program registers n m e e' s t → SameResult u v

/-- A fault is precise exactly if the writes that it loses would have changed nothing. -/
theorem sameResult_iff {program : Program} {registers : Registers}
    (hsettled : Settled program registers) {n m : Nat} {e e' : Exception} {s u t v : Processor}
    (hp : Throws (boot program true registers) n e s u)
    (hs : Throws (boot program false registers) m e' t v) (hfault : e.isFault = true)
    (hsame : SameInstruction program registers n m e e' s t) :
    SameResult u v ↔ LosesNothing (Flight.after n (boot program true registers)) s e := by
  obtain ⟨k, σ, hσ⟩ := simulated_of_settled hsettled hp.steps
  have hrun := hσ.machine_running hp.running
  obtain ⟨hthrow, huntouched⟩ := cycle_throws hσ.tracks.pipelining hp.thrown
  have hfront := inFront_eq hσ.tracks hrun (faultCase hσ.tracks hthrow hfault)
  obtain ⟨l, ω, hω⟩ := error_cases (atStage_boot program registers) hs
  obtain rfl := length_of_allBefore hσ hω.arch (hω.executed.symm.trans hsame.executed)
  obtain ⟨ρ, hρ, hlast⟩ := Runs.steps_add_cases hω.arch
  obtain rfl : σ = ρ := Option.some.inj (hσ.steps.symm.trans hρ)
  obtain ⟨hregisters, hclients⟩ := ArchState.replay_steps hlast
  have hlostRegisters : s.regfile.registers.replay
      (lostRegisterWrites (Flight.after n (boot program true registers)) s e) = ω.registers := by
    unfold lostRegisterWrites
    rw [Registers.replay_append, ← MWBRegisters.commit_eq_replay, ← hσ.tracks.registers, hfront]
    exact hregisters.symm
  have hlostClients : s.bus.clients.replay
      (lostBusWrites (Flight.after n (boot program true registers)) s e) = .ok ω.clients := by
    unfold lostBusWrites
    rw [hfront, ← hσ.tracks.clients]
    exact hclients
  constructor
  · intro hresult
    constructor
    · rw [hlostRegisters, ← huntouched.registers, hresult.registers, hω.registers]
    · rw [hlostClients, ← huntouched.clients, hresult.clients, hω.clients]
  · intro hnothing
    constructor
    · rw [huntouched.registers, hω.registers, ← hlostRegisters, hnothing.registers]
    · have hkept := hlostClients.symm.trans hnothing.clients
      rw [huntouched.clients, hω.clients]
      exact (Except.ok.inj hkept).symm

theorem sameInstruction_of {program : Program} {registers : Registers} {n m : Nat}
    {e e' : Exception} {s t : Processor} (pc : MemAddress)
    (hs : Runs.steps next n (boot program true registers) = some s)
    (ht : Runs.steps next m (boot program false registers) = some t)
    (hexecuted : Runs.trace next retiredPC m (boot program false registers) =
      (Flight.after n (boot program true registers)).allBefore e)
    (hpc : (Runs.steps next n (boot program true registers)).map (fun s => s.faultPC e) = some pc)
    (hpc' : (Runs.steps next m (boot program false registers)).map (fun t => t.faultPC e') =
      some pc) : SameInstruction program registers n m e e' s t := by
  rw [hs] at hpc
  rw [ht] at hpc'
  exact ⟨hexecuted, (Option.some.inj hpc').trans (Option.some.inj hpc).symm⟩

theorem writeAtEnd_imprecise : ¬PreciseFaults writeAtEnd (Vector.replicate 31 0) := by
  intro hprecise
  have hpipelined : (ending 1 (boot writeAtEnd true (Vector.replicate 31 0))).map
      (fun last => (last.1, last.2.readRegister 1)) =
        some (.instructionFetchFailure 0x1004, 0) := by decide +kernel
  have halone : (ending 5 (boot writeAtEnd false (Vector.replicate 31 0))).map
      (fun last => (last.1, last.2.readRegister 1)) =
        some (.instructionFetchFailure 0x1004, 5) := by decide +kernel
  obtain ⟨⟨e, left⟩, hleft, heq⟩ := Option.map_eq_some_iff.mp hpipelined
  obtain ⟨⟨e', right⟩, hright, heq'⟩ := Option.map_eq_some_iff.mp halone
  obtain ⟨rfl, hx₁⟩ := Prod.mk.inj heq
  obtain ⟨rfl, hx₁'⟩ := Prod.mk.inj heq'
  obtain ⟨s, u, hs, rfl⟩ := throws_of_ending hleft
  obtain ⟨t, v, ht, rfl⟩ := throws_of_ending hright
  have hsame : SameInstruction writeAtEnd (Vector.replicate 31 0) 1 5
      (.instructionFetchFailure 0x1004) (.instructionFetchFailure 0x1004) s t :=
    sameInstruction_of 0x1004 hs.steps ht.steps (by decide +kernel) (by decide +kernel)
      (by decide +kernel)
  rw [(hprecise 1 5 _ _ s u t v hs ht rfl rfl hsame).registers] at hx₁
  cases hx₁.symm.trans hx₁'

/-- The write with time to complete: `addi x1, x0, 5` and four times `nop`. -/
def writeThenEnd : Program :=
  { memories := [Memory.ofWords false 0x1000 [0x00500093, 0x00000013, 0x00000013, 0x00000013,
      0x00000013]]
    entrypoint := 0x1000 }

theorem sameResult_writeThenEnd :
    ∃ s u t v, Throws (boot writeThenEnd true (Vector.replicate 31 0)) 5
        (.instructionFetchFailure 0x1014) s u ∧
      Throws (boot writeThenEnd false (Vector.replicate 31 0)) 25
        (.instructionFetchFailure 0x1014) t v ∧ SameResult u v := by
  have hpipelined : (ending 5 (boot writeThenEnd true (Vector.replicate 31 0))).map Prod.fst =
      some (.instructionFetchFailure 0x1014) := by decide +kernel
  have halone : (ending 25 (boot writeThenEnd false (Vector.replicate 31 0))).map Prod.fst =
      some (.instructionFetchFailure 0x1014) := by decide +kernel
  obtain ⟨⟨e, left⟩, hleft, rfl⟩ := Option.map_eq_some_iff.mp hpipelined
  obtain ⟨⟨e', right⟩, hright, rfl⟩ := Option.map_eq_some_iff.mp halone
  obtain ⟨s, u, hs, -⟩ := throws_of_ending hleft
  obtain ⟨t, v, ht, -⟩ := throws_of_ending hright
  have hsame : SameInstruction writeThenEnd (Vector.replicate 31 0) 5 25
      (.instructionFetchFailure 0x1014) (.instructionFetchFailure 0x1014) s t :=
    sameInstruction_of 0x1014 hs.steps ht.steps (by decide +kernel) (by decide +kernel)
      (by decide +kernel)
  have hnothing : (Runs.steps next 5 (boot writeThenEnd true (Vector.replicate 31 0))).map
      (fun s => decide (LosesNothing (Flight.after 5 (boot writeThenEnd true
        (Vector.replicate 31 0))) s (.instructionFetchFailure 0x1014))) = some true := by
    decide +kernel
  rw [hs.steps] at hnothing
  exact ⟨s, u, t, v, hs, ht, (sameResult_iff (settled_of_memories _ (by decide +kernel)) hs ht rfl
    hsame).mpr (of_decide_eq_true (Option.some.inj hnothing))⟩

end Processor

end Rv64Emu
