import Rv64Emu.Pipelined.Cycle

/-! Where a pipelined cycle throws. Whatever it is, the stages behind have not
been clocked, so that registers and memories are those before the cycle. -/
namespace Rv64Emu.Processor

/-- The five places where a pipelined cycle throws. -/
inductive ThrowCase (s : Processor) (e : Exception) : Prop where
  | fetch (fault : Exception) (seen : s.fetch.endMarkerSeen = false)
      (word : s.fetchedWord = .error fault) (thrown : e = InstructionFetchStage.fetchError s.pc fault)
  | load (fails : s.exM.load s.bus.clients = .error e)
  | drained (seen : s.fetch.endMarkerSeen = true) (countdown : s.fetch.endMarkerCountdown ≤ 0)
      (thrown : e = .testEndMarkerEncountered s.fetch.endMarkerPC)
  | decode (redirect : s.redirect = none) (stalls : s.stalls = false)
      (immediate : InstructionDecoder.getImmediate ⟨s.ifId.instructionWord⟩ = .error e)
  | store (memData : RegValue) (loads : s.exM.load s.bus.clients = .ok memData)
      (fails : s.exM.store s.bus.clients = .error e)

/-- The cycle has left registers and memories alone. -/
structure Untouched (s u : Processor) : Prop where
  registers : u.regfile.registers = s.regfile.registers
  clients : u.bus.clients = s.bus.clients

section

variable {s u : Processor} {e : Exception}

theorem fetch_throws (h : InstructionFetchStage.propagate (ready s) = .error e u)
    (hp : s.pipelining = true) : ThrowCase s e ∧ Untouched s u := by
  have hmode : (ready s).pipelining = s.pipelining := rfl
  have hunseen : (ready s).fetch.endMarkerSeen = s.fetch.endMarkerSeen := rfl
  have hfetched : (ready s).bus.clients.fetchWord (ready s).pc = s.fetchedWord := rfl
  rw [InstructionFetchStage.propagate_eq, hmode, hunseen, hfetched] at h
  cases hseen : s.fetch.endMarkerSeen with
  | true =>
    rw [hseen] at h
    cases h
  | false =>
    rw [hseen, hp] at h
    cases hword : s.fetchedWord with
    | ok word =>
      rw [hword] at h
      simp only [Bool.false_eq_true, if_false, if_true] at h
      split at h
      · cases h
      · cases h
    | error fault =>
      rw [hword] at h
      cases h
      exact ⟨.fetch fault hseen hword rfl, rfl, rfl⟩

theorem load_throws {t : Processor} (h : MemoryStage.propagate t = .error e u)
    (hexM : t.exM = s.exM) (hsame : Untouched s t) : ThrowCase s e ∧ Untouched s u := by
  cases hload : t.exM.load t.bus.clients with
  | ok memData =>
    obtain ⟨hcan, -⟩ := MemoryStage.load_ok_iff.mp hload
    have hok := (MemoryStage.propagate_ok_iff t _).mpr ⟨hcan, rfl⟩
    cases hok.symm.trans h
  | error e' =>
    obtain ⟨v, hv, hregisters, hclients⟩ := MemoryStage.propagate_error hload
    cases hv.symm.trans h
    rw [hexM, hsame.clients] at hload
    exact ⟨.load hload, hregisters.trans hsame.registers, hclients.trans hsame.clients⟩

theorem propagate_throws (hp : s.pipelining = true) (h : Pipeline.propagate s = .error e u) :
    ThrowCase s e ∧ Untouched s u := by
  rw [StageOrder.propagate_of_pipelined hp] at h
  change (InstructionFetchStage.propagate >>= fun _ =>
    (modify InstructionDecodeStage.propagate : Action Unit) >>= fun _ =>
    (modify ExecuteStage.propagate : Action Unit) >>= fun _ => MemoryStage.propagate >>= fun _ =>
    (modify WriteBackStage.propagate : Action Unit) >>= fun _ => pure ()) (ready s) = _ at h
  obtain hfetch | ⟨⟨⟩, t, hfetch, h⟩ := bind_error_cases h
  · exact fetch_throws hfetch hp
  · have hready : (ready s).pipelining = true := hp
    obtain ⟨-, rfl⟩ := (InstructionFetchStage.propagate_ok_iff hready t).mp hfetch
    change (MemoryStage.propagate >>= fun _ => _) (ExecuteStage.propagate
      (InstructionDecodeStage.propagate (InstructionFetchStage.propagated (ready s)))) = _ at h
    obtain hload | ⟨⟨⟩, v, -, h⟩ := bind_error_cases h
    · exact load_throws hload rfl ⟨rfl, rfl⟩
    · cases h

/-- IF throws once the marker has been seen and the countdown is over. -/
theorem drain_throws (hp : s.pipelining = true)
    (h : InstructionFetchStage.clockPulse (StageOrder.allPropagated s) = .error e u) :
    ThrowCase s e ∧ Untouched s u := by
  have hpropagated : (StageOrder.allPropagated s).pipelining = true := hp
  rw [InstructionFetchStage.clockPulse_pipelined hpropagated] at h
  change (if s.fetchBuffer.endMarkerSeen then if s.fetchBuffer.endMarkerCountdown > 0 then _
    else _ else _) = _ at h
  cases hmarker : s.meetsMarker with
  | true =>
    rw [fetchBuffer_of_marker hmarker] at h
    cases h
  | false =>
    have hseen' := endMarkerSeen_fetchBuffer s
    rw [hmarker, Bool.or_false] at hseen'
    rw [hseen'] at h
    cases hseen : s.fetch.endMarkerSeen with
    | false =>
      rw [hseen] at h
      cases h
    | true =>
      rw [hseen, if_pos rfl, fetchBuffer_of_seen hseen] at h
      change (if s.fetch.endMarkerCountdown > 0 then _ else _) = _ at h
      split at h
      · cases h
      · rename_i hcount
        rw [InstructionFetchStage.latched_eq] at h
        cases h
        refine ⟨.drained hseen (by omega) ?_, rfl, rfl⟩
        change Exception.testEndMarkerEncountered s.fetchBuffer.endMarkerPC = _
        rw [fetchBuffer_of_seen hseen]

theorem decode_throws (hp : s.pipelining = true)
    (h : InstructionDecodeStage.clockPulse
      (InstructionFetchStage.clocked (StageOrder.allPropagated s)) = .error e u) :
    ThrowCase s e ∧ Untouched s u := by
  have hlines := lines_eq hp s.fetchBuffer
    (s.bus.bytesRead + InstructionFetchStage.bytesOf s.fetch) s.meetsMarker
  rw [← allPropagated_eq] at hlines
  have hmode : (InstructionFetchStage.clocked (StageOrder.allPropagated s)).pipelining = true := hp
  have hflush : (InstructionFetchStage.clocked
      (StageOrder.allPropagated s)).controlSignals.flushDecode = s.redirect.isSome :=
    congrArg PipelineControl.flushDecode hlines
  have hbubble : (InstructionFetchStage.clocked
      (StageOrder.allPropagated s)).controlSignals.insertDecodeBubble = s.stalls :=
    congrArg PipelineControl.insertDecodeBubble hlines
  have hdecoder : (InstructionFetchStage.clocked (StageOrder.allPropagated s)).decoder =
      ⟨s.ifId.instructionWord⟩ := rfl
  rw [InstructionDecodeStage.clockPulse_eq, hmode, hflush, hbubble, hdecoder, Bool.true_and,
    Bool.true_and] at h
  cases hredirect : s.redirect with
  | some target =>
    rw [hredirect] at h
    cases h
  | none =>
    cases hstall : s.stalls with
    | true =>
      rw [hredirect, hstall] at h
      cases h
    | false =>
      rw [hredirect, hstall] at h
      cases himm : InstructionDecoder.getImmediate ⟨s.ifId.instructionWord⟩ with
      | ok immediate =>
        rw [himm] at h
        cases h
      | error e' =>
        rw [himm] at h
        cases h
        exact ⟨.decode hredirect hstall himm, rfl, rfl⟩

theorem store_throws {t : Processor} (hload : MemoryStage.canLoad s)
    (hmemory : t.memory = (MemoryStage.propagated s).memory) (hsame : Untouched s t)
    (h : MemoryStage.clockPulse t = .error e u) : ThrowCase s e ∧ Untouched s u := by
  have hstore : MemoryStage.storeOf t.bus.clients t.memory.dataMemory =
      s.exM.store s.bus.clients := by
    rw [hmemory, hsame.clients]
    exact MemoryStage.storeOf_propagated s
  cases hfails : s.exM.store s.bus.clients with
  | ok clients =>
    have hok := (MemoryStage.clockPulse_ok_iff t _).mpr ⟨⟨clients, hstore.trans hfails⟩, rfl⟩
    cases hok.symm.trans h
  | error e' =>
    cases (MemoryStage.clockPulse_error (hstore.trans hfails)).symm.trans h
    exact ⟨.store _ (MemoryStage.load_ok_iff.mpr ⟨hload, rfl⟩) hfails, hsame.registers,
      (MemoryBus.clients_countStore _ _).trans hsame.clients⟩

theorem clockPulse_throws (hp : s.pipelining = true) (hload : MemoryStage.canLoad s)
    (h : Pipeline.clockPulse (StageOrder.allPropagated s) = .error e u) :
    ThrowCase s e ∧ Untouched s u := by
  have hpropagated : (StageOrder.allPropagated s).pipelining = true := hp
  rw [StageOrder.clockPulse_of_pipelined hpropagated] at h
  change (InstructionFetchStage.clockPulse >>= fun _ => InstructionDecodeStage.clockPulse >>=
    fun _ => (modify ExecuteStage.clockPulse : Action Unit) >>= fun _ =>
    MemoryStage.clockPulse >>= fun _ => (modify WriteBackStage.clockPulse : Action Unit) >>=
    fun _ => pure ()) (StageOrder.allPropagated s) = _ at h
  obtain hdrain | ⟨⟨⟩, t, ht, h⟩ := bind_error_cases h
  · exact drain_throws hp hdrain
  · obtain ⟨-, rfl⟩ := (InstructionFetchStage.clockPulse_ok_iff hpropagated t).mp ht
    obtain hdecode | ⟨⟨⟩, v, hv, h⟩ := bind_error_cases h
    · exact decode_throws hp hdecode
    · have hclocked :
          (InstructionFetchStage.clocked (StageOrder.allPropagated s)).pipelining = true := hp
      obtain ⟨-, rfl⟩ := (InstructionDecodeStage.clockPulse_ok_iff hclocked v).mp hv
      change (MemoryStage.clockPulse >>= fun _ => _) (ExecuteStage.clockPulse _) = _ at h
      obtain hstore | ⟨⟨⟩, w, -, h⟩ := bind_error_cases h
      · apply store_throws hload ?_ ?_ hstore
        · rfl
        · exact ⟨rfl, rfl⟩
      · cases h

/-- Everything about a pipelined cycle that throws. -/
theorem cycle_throws (hp : s.pipelining = true) (h : cycle s = .error e u) :
    ThrowCase s e ∧ Untouched s u := by
  rw [cycle_eq] at h
  obtain hpropagate | ⟨⟨⟩, t, ht, h⟩ := bind_error_cases h
  · exact propagate_throws hp hpropagate
  · rw [StageOrder.propagate_of_pipelined hp] at ht
    obtain ⟨⟨-, hload⟩, rfl⟩ := (StageOrder.propagateIn_fixed_ok_iff hp).mp ht
    obtain hclock | ⟨⟨⟩, v, -, h⟩ := bind_error_cases h
    · exact clockPulse_throws hp hload hclock
    · cases h

/-- The drained pipeline throws before PC is clocked. -/
theorem cycle_of_drained (hp : s.pipelining = true) (hload : MemoryStage.canLoad s)
    (hseen : s.fetch.endMarkerSeen = true) (hcount : s.fetch.endMarkerCountdown ≤ 0) :
    ∃ u, cycle s = .error (.testEndMarkerEncountered s.fetch.endMarkerPC) u ∧ u.pc = s.pc := by
  have hfetch : InstructionFetchStage.canFetch s := .inl hseen
  have hpropagate : Pipeline.propagate s = .ok () (StageOrder.allPropagated s) := by
    rw [StageOrder.propagate_of_pipelined hp]
    exact (StageOrder.propagateIn_fixed_ok_iff hp).mpr ⟨⟨hfetch, hload⟩, rfl⟩
  have hpropagated : (StageOrder.allPropagated s).pipelining = true := hp
  have hbuffer : (StageOrder.allPropagated s).fetch =
      { s.fetch with fetchPC := s.pc, fetchedInstruction := nopInstruction } :=
    fetchBuffer_of_seen hseen
  have hdrain : InstructionFetchStage.clockPulse (StageOrder.allPropagated s) =
      .error (.testEndMarkerEncountered s.fetch.endMarkerPC)
        (InstructionFetchStage.latched (StageOrder.allPropagated s)) := by
    rw [InstructionFetchStage.clockPulse_pipelined hpropagated, hbuffer]
    change (if s.fetch.endMarkerSeen then if s.fetch.endMarkerCountdown > 0 then _ else _
      else _) = _
    rw [if_pos hseen, if_neg (by omega)]
  refine ⟨InstructionFetchStage.latched (StageOrder.allPropagated s), ?_, ?_⟩
  · apply cycle_of_clockPulse_error hpropagate
    rw [StageOrder.clockPulse_of_pipelined hpropagated]
    exact bind_of_error hdrain
  · have hstays : InstructionFetchStage.advances (StageOrder.allPropagated s).controlSignals
        (StageOrder.allPropagated s).fetch = false := by
      rw [hbuffer]
      unfold InstructionFetchStage.advances
      simp [hseen]
    rw [InstructionFetchStage.latched_eq, hstays]
    rfl

/-- Only the drained pipeline throws the end marker. -/
theorem drained_of_marker {addr : MemAddress} (h : ThrowCase s (.testEndMarkerEncountered addr)) :
    s.fetch.endMarkerSeen = true ∧ s.fetch.endMarkerCountdown ≤ 0 ∧
      addr = s.fetch.endMarkerPC := by
  cases h with
  | fetch fault seen word thrown =>
    have herror := Clients.read_error word
    cases fault with
    | illegalAccess _ => cases thrown
    | outOfBounds _ => cases thrown
    | _ => cases herror
  | load fails => cases ArchState.accessFails_error (.inl fails)
  | drained seen countdown thrown =>
    cases thrown
    exact ⟨seen, countdown, rfl⟩
  | decode redirect stalls immediate =>
    obtain ⟨what, hwhat⟩ := InstructionDecoder.getImmediate_error immediate
    cases hwhat
  | store memData loads fails => cases ArchState.accessFails_error (.inr ⟨memData, loads, fails⟩)

end

end Rv64Emu.Processor
