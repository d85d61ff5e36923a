import Rv64Emu.Pipelined.Refinement
import Rv64Emu.Pipelined.Thrown

/-! The end marker in the pipeline. Once IF has fetched it, IF only counts down
while the latches empty; the run ends when they are empty, wherever an older
instruction may have redirected the program counter by then. -/
namespace Rv64Emu.Processor

/-! ### The countdown -/

/-- Over the countdown the latches empty one after the other. -/
structure Countdown (f : Flight) (s : Processor) : Prop where
  idEx : s.fetch.endMarkerCountdown ≤ 3 → f.idEx = none
  exM : s.fetch.endMarkerCountdown ≤ 2 → f.exM = none
  mWb : s.fetch.endMarkerCountdown ≤ 1 → f.mWb = none

/-- The marker is what the machine fetches next, or before it the instruction that got lost. -/
structure Draining (f : Flight) (s : Processor) (σ : ArchState) : Prop where
  found : ∀ τ υ, Past f.exM σ τ → Past f.idEx τ υ → υ.clients.shouldHalt = false →
    υ.pc = s.fetch.endMarkerPC → υ.clients.fetchWord υ.pc = .ok testEndMarker
  lost : f.dropped ≠ none → ∀ τ υ, Past f.exM σ τ → Past f.idEx τ υ →
    υ.clients.shouldHalt = false → ∃ word, υ.fetch = .ok word

section

variable {f : Flight} {s t : Processor} {σ τ : ArchState}

theorem countdown_of_marker (hcycle : PipelinedCycle s t) (hmeets : s.meetsMarker = true) :
    Countdown (f.advance s) t := by
  have hcount := (hcycle.marked hmeets).1
  constructor
  · intro h
    omega
  · intro h
    omega
  · intro h
    omega

theorem Countdown.next (h : Countdown f s) (hcycle : PipelinedCycle s t)
    (hseen : s.fetch.endMarkerSeen = true) (hdrained : f.ifId = none) :
    Countdown (f.advance s) t := by
  have hcount := (hcycle.countdown hseen).1
  constructor
  · intro _
    exact Flight.idEx_of_drained hdrained
  · intro hle
    apply h.idEx
    omega
  · intro hle
    apply h.exM
    omega

theorem draining_of_marker (h : Tracks f s σ) (hcoherent : Coherent σ s)
    (hcycle : PipelinedCycle s t) (hmeets : s.meetsMarker = true) (hpast : Past f.exM σ τ) :
    Draining (f.advance s) t τ := by
  obtain ⟨hseen, hword⟩ := meetsMarker_iff.mp hmeets
  have hdropped : (f.advance s).dropped = if s.stalls then f.ifId else none := by
    rw [Flight.dropped_of_marker hmeets, h.dropped_none hseen]
  constructor
  · intro υ ω hpast' hpast'' hrun hpc
    obtain ⟨i, hi, hσ⟩ := hpast.steps
    obtain ⟨j, hj, hτ⟩ := hpast'.steps
    obtain ⟨k, hk, hυ⟩ := hpast''.steps
    rw [(hcycle.marked hmeets).2] at hpc
    rw [← hword]
    exact hcoherent (i + j + k) (by omega) ω (Runs.steps_add_of (Runs.steps_add_of hσ hτ) hυ)
      hrun hpc
  · intro hlost υ ω hpast' hpast'' hrun
    cases hstall : s.stalls with
    | false =>
      rw [hdropped, hstall] at hlost
      exact absurd rfl hlost
    | true =>
      rw [hdropped, hstall] at hlost
      obtain ⟨p, hp⟩ := Option.ne_none_iff_exists'.mp hlost
      rw [Flight.idEx_of_stalls hstall] at hpast''
      obtain rfl : ω = υ := hpast''
      obtain ⟨-, hfetch⟩ := h.ifId_some p hp τ ω hpast hpast' hrun
        (h.redirect_of_stalls hpast hpast' hstall)
      exact ⟨_, hfetch⟩

theorem Draining.next (h : Draining f s σ) (hcycle : PipelinedCycle s t)
    (hseen : s.fetch.endMarkerSeen = true) (hdrained : f.ifId = none) (hpast : Past f.exM σ τ) :
    Draining (f.advance s) t τ := by
  have hidEx : (f.advance s).idEx = none := Flight.idEx_of_drained hdrained
  constructor
  · intro υ ω hpast' hpast'' hrun hpc
    rw [hidEx] at hpast''
    obtain rfl : ω = υ := hpast''
    rw [(hcycle.countdown hseen).2] at hpc
    exact h.found τ ω hpast hpast' hrun hpc
  · intro hlost υ ω hpast' hpast'' hrun
    rw [hidEx] at hpast''
    obtain rfl : ω = υ := hpast''
    rw [Flight.dropped_of_no_marker (meetsMarker_of_seen hseen)] at hlost
    exact h.lost hlost τ ω hpast hpast' hrun

end

/-! ### Runs that meet the marker -/

structure AtMarker (start : Processor) (n : Nat) (s : Processor) (k : Nat) (σ : ArchState) :
    Prop extends Simulated start n s k σ where
  countdown : s.fetch.endMarkerSeen = true → Countdown (Flight.after n start) s
  draining : s.fetch.endMarkerSeen = true → Draining (Flight.after n start) s σ

theorem seen_next {s t : Processor} (hcycle : PipelinedCycle s t)
    (hseen : t.fetch.endMarkerSeen = true) :
    s.fetch.endMarkerSeen = true ∨ s.meetsMarker = true := by
  rw [hcycle.seen, Bool.or_eq_true] at hseen
  exact hseen

section

variable {program : Program} {registers : Registers}

theorem atMarker_steps (hsettled : Settled program registers) {n : Nat} {s : Processor}
    (h : Runs.steps next n (boot program true registers) = some s) :
    ∃ k σ, AtMarker (boot program true registers) n s k σ := by
  induction n generalizing s with
  | zero =>
    cases h
    exact ⟨0, _, simulated_boot program registers, Bool.noConfusion, Bool.noConfusion⟩
  | succ n ih =>
    obtain ⟨u, hu, hlast⟩ := Runs.steps_succ_cases h
    obtain ⟨k, σ, hσ⟩ := ih hu
    have hcoherent := coherent_of_settled hsettled hσ.toSimulated
    obtain ⟨τ, hpast, hτ⟩ := simulated_next hσ.toSimulated hu hlast fun _ => hcoherent
    have hcycle := pipelinedCycle_of_next hσ.tracks.pipelining hlast
    have hflight : Flight.after (n + 1) (boot program true registers) =
        (Flight.after n (boot program true registers)).advance u := Runs.history_succ hu
    refine ⟨_, τ, hτ, fun hseen => ?_, fun hseen => ?_⟩
    · rw [hflight]
      obtain hseen' | hmeets := seen_next hcycle hseen
      · exact (hσ.countdown hseen').next hcycle hseen' (hσ.tracks.drained hseen')
      · exact countdown_of_marker hcycle hmeets
    · rw [hflight]
      obtain hseen' | hmeets := seen_next hcycle hseen
      · exact (hσ.draining hseen').next hcycle hseen' (hσ.tracks.drained hseen') hpast
      · exact draining_of_marker hσ.tracks hcoherent hcycle hmeets hpast

/-- The cycle in which IF fetched the marker. -/
theorem marker_origin {n : Nat} {s : Processor}
    (h : Runs.steps next n (boot program true registers) = some s)
    (hseen : s.fetch.endMarkerSeen = true) :
    ∃ i < n, ∃ u, Runs.steps next i (boot program true registers) = some u ∧
      u.meetsMarker = true ∧ s.fetch.endMarkerPC = u.pc := by
  induction n generalizing s with
  | zero =>
    cases h
    cases hseen
  | succ n ih =>
    obtain ⟨u, hu, hlast⟩ := Runs.steps_succ_cases h
    have hcycle := pipelinedCycle_of_next (pipelining_steps (by rfl) hu) hlast
    obtain hseen' | hmeets := seen_next hcycle hseen
    · obtain ⟨i, hi, v, hv, hmeets, hpc⟩ := ih hu hseen'
      exact ⟨i, by omega, v, hv, hmeets, (hcycle.countdown hseen').2.trans hpc⟩
    · exact ⟨n, by omega, u, hu, hmeets, (hcycle.marked hmeets).2⟩

/-- Once fetched, the marker is remembered. -/
theorem seen_of_meets {i j : Nat} {u v : Processor}
    (hu : Runs.steps next i (boot program true registers) = some u) (hmeets : u.meetsMarker = true)
    (hv : Runs.steps next j (boot program true registers) = some v) (hij : i < j) :
    v.fetch.endMarkerSeen = true := by
  induction j generalizing v with
  | zero => omega
  | succ j ih =>
    obtain ⟨w, hw, hlast⟩ := Runs.steps_succ_cases hv
    have hcycle := pipelinedCycle_of_next (pipelining_steps (by rfl) hw) hlast
    rw [hcycle.seen, Bool.or_eq_true]
    by_cases heq : i = j
    · subst heq
      obtain rfl := Option.some.inj (hu.symm.trans hw)
      exact .inr hmeets
    · exact .inl (ih hw (by omega))

/-- The program counter rests at the marker while nothing redirects it away. -/
theorem pc_at_marker {n : Nat} {s : Processor}
    (hstay : ∀ i < n, ∀ u target, Runs.steps next i (boot program true registers) = some u →
      u.redirect = some target → (u.meetsMarker = true → target = u.pc) ∧
        (u.fetch.endMarkerSeen = true → target = u.fetch.endMarkerPC))
    (h : Runs.steps next n (boot program true registers) = some s)
    (hseen : s.fetch.endMarkerSeen = true) : s.pc = s.fetch.endMarkerPC := by
  induction n generalizing s with
  | zero =>
    cases h
    cases hseen
  | succ n ih =>
    obtain ⟨u, hu, hlast⟩ := Runs.steps_succ_cases h
    have hcycle := pipelinedCycle_of_next (pipelining_steps (by rfl) hu) hlast
    obtain hseen' | hmeets := seen_next hcycle hseen
    · rw [hcycle.pc, (hcycle.countdown hseen').2, hseen', Bool.or_true, if_pos rfl,
        ih (fun i hi => hstay i (by omega)) hu hseen']
      cases hredirect : u.redirect with
      | none => rfl
      | some target => exact (hstay n (by omega) u target hu hredirect).2 hseen'
    · rw [hcycle.pc, (hcycle.marked hmeets).2, hmeets, Bool.true_or, Bool.true_or, if_pos rfl]
      cases hredirect : u.redirect with
      | none => rfl
      | some target => exact (hstay n (by omega) u target hu hredirect).1 hmeets

end

/-! ### The end of the countdown -/

section

variable {start : Processor} {n : Nat} {s : Processor} {k : Nat} {σ : ArchState}
  (h : AtMarker start n s k σ) (hseen : s.fetch.endMarkerSeen = true)
  (hcount : s.fetch.endMarkerCountdown ≤ 0)

include h hseen hcount

theorem emptied : (Flight.after n start).ifId = none ∧ (Flight.after n start).idEx = none ∧
    (Flight.after n start).exM = none ∧ (Flight.after n start).mWb = none := by
  have hcountdown := h.countdown hseen
  refine ⟨h.tracks.drained hseen, hcountdown.idEx ?_, hcountdown.exM ?_, hcountdown.mWb ?_⟩
  · omega
  · omega
  · omega

theorem registers_of_emptied : s.regfile.registers = σ.registers := by
  obtain ⟨-, -, -, hmWb⟩ := emptied h hseen hcount
  rw [h.tracks.registers, h.tracks.mWb_none hmWb]

theorem executed_of_emptied :
    Runs.trace ArchState.next (fun σ => [σ.pc]) k start.arch = (Flight.after n start).retired := by
  obtain ⟨-, -, -, hmWb⟩ := emptied h hseen hcount
  rw [h.executed, hmWb]
  exact List.append_nil _

/-- The machine has reached the marker, unless an instruction got lost on the way. -/
theorem step_of_emptied (hrun : s.shouldHalt = false) (hpc : s.pc = s.fetch.endMarkerPC)
    (hdropped : (Flight.after n start).dropped = none) :
    σ.step = .error (.testEndMarkerEncountered s.fetch.endMarkerPC) := by
  obtain ⟨hifId, hidEx, hexM, -⟩ := emptied h hseen hcount
  have hrun' := h.machine_running hrun
  have hhead : σ.pc = s.pc := by
    have hσ := (h.tracks.chain hdropped).head σ (by rw [hexM]; rfl) hrun'
    rw [hidEx, hifId] at hσ
    exact hσ
  rw [← hpc, ← hhead]
  have hword := (h.draining hseen).found σ σ (by rw [hexM]; rfl) (by rw [hidEx]; rfl) hrun'
    (hhead.trans hpc)
  apply ArchState.step_of_decode_error
  unfold ArchState.decode ArchState.fetch
  rw [hword]
  rfl

/-- If one got lost, the machine is still in front of it. -/
theorem step_of_lost (hrun : s.shouldHalt = false)
    (hdropped : (Flight.after n start).dropped ≠ none) (addr : MemAddress) :
    σ.step ≠ .error (.testEndMarkerEncountered addr) := by
  obtain ⟨hifId, hidEx, hexM, -⟩ := emptied h hseen hcount
  have hrun' := h.machine_running hrun
  obtain ⟨word, hfetch⟩ := (h.draining hseen).lost hdropped σ σ (by rw [hexM]; rfl)
    (by rw [hidEx]; rfl) hrun'
  intro hstep
  obtain herror | ⟨word', -, hat⟩ | ⟨idEx, -, haccess⟩ := ArchState.step_error_cases hstep
  · cases hfetch.symm.trans herror
  · obtain ⟨what, hwhat⟩ := decodeAt_error hat
    cases hwhat
  · cases ArchState.accessFails_error haccess

end

/-! ### Speculation -/

/-- Fetching the marker on a path that older instructions leave has no effect. -/
structure SpeculationSafe (program : Program) (registers : Registers) : Prop where
  continues : ∀ i j u v w target, i ≤ j →
    Runs.steps next i (boot program true registers) = some u → u.meetsMarker = true →
    Runs.steps next j (boot program true registers) = some v → v.redirect = some target →
    target ≠ u.pc → next v = some w → w.shouldHalt = false →
      w.pc = target ∧ w.fetch.endMarkerSeen = false
  ends : ∀ n addr s u,
    Throws (boot program true registers) n (.testEndMarkerEncountered addr) s u →
    ∃ m t v, Throws (boot program false registers) m (.testEndMarkerEncountered addr) t v

/-- The marker does not drive an instruction out of ID that waits for a load. -/
def MarkerIssues (program : Program) (registers : Registers) : Prop :=
  ∀ n s, Runs.steps next n (boot program true registers) = some s → s.meetsMarker = true →
    s.stalls = false

/-- No older instruction leads away from the marker that IF has fetched, unless the
system halts. -/
def RedirectsStay (program : Program) (registers : Registers) : Prop :=
  ∀ i j u v w target, i ≤ j → Runs.steps next i (boot program true registers) = some u →
    u.meetsMarker = true → Runs.steps next j (boot program true registers) = some v →
    v.redirect = some target → next v = some w → w.shouldHalt = false → target = u.pc

/-- What ID holds when IF/ID is empty waits for nothing. -/
theorem stalls_of_empty {s : Processor} (h : s.ifId = {}) : s.stalls = false := by
  have hrs1 : InstructionDecoder.getRS1 ⟨nopInstruction⟩ = 0 := by decide
  have hrs2 : instructionUsesRS2 (InstructionDecoder.getOpcode ⟨nopInstruction⟩) = false := by
    decide
  unfold stalls InstructionDecodeStage.hazard
  rw [h]
  change (s.idEx.control.memRead && s.idEx.rd != 0 &&
    (s.idEx.rd == InstructionDecoder.getRS1 ⟨nopInstruction⟩ ||
      (instructionUsesRS2 (InstructionDecoder.getOpcode ⟨nopInstruction⟩) && _))) = false
  rw [hrs1, hrs2]
  cases hrd : s.idEx.rd == 0 with
  | true =>
    rw [bne, hrd]
    simp
  | false => simp

section

variable {program : Program} {registers : Registers}

/-- An instruction is lost exactly when the marker is fetched while ID stalls. -/
theorem dropped_eq_none_iff (hsettled : Settled program registers) {n : Nat} {s : Processor}
    (h : Runs.steps next n (boot program true registers) = some s) :
    (Flight.after n (boot program true registers)).dropped = none ↔
      ∀ i < n, ∀ u, Runs.steps next i (boot program true registers) = some u →
        u.meetsMarker = true → u.stalls = false := by
  induction n generalizing s with
  | zero =>
    constructor
    · intro _ i hi
      omega
    · intro _
      rfl
  | succ n ih =>
    obtain ⟨t, ht, -⟩ := Runs.steps_succ_cases h
    obtain ⟨k, σ, hσ⟩ := simulated_of_settled hsettled ht
    have hdropped : (Flight.after (n + 1) (boot program true registers)).dropped =
        if t.meetsMarker && t.stalls then (Flight.after n (boot program true registers)).ifId
        else (Flight.after n (boot program true registers)).dropped :=
      congrArg Flight.dropped (Runs.history_succ ht)
    have hlost : (t.meetsMarker && t.stalls) = true →
        (Flight.after n (boot program true registers)).ifId ≠ none := by
      intro hboth hnone
      rw [stalls_of_empty (hσ.tracks.ifId_none hnone), Bool.and_false] at hboth
      cases hboth
    rw [hdropped]
    constructor
    · intro hnone i hi u hu hmeets
      by_cases hboth : (t.meetsMarker && t.stalls) = true
      · rw [if_pos hboth] at hnone
        exact absurd hnone (hlost hboth)
      · rw [if_neg hboth] at hnone
        by_cases heq : i = n
        · subst heq
          obtain rfl := Option.some.inj (ht.symm.trans hu)
          rw [hmeets, Bool.true_and] at hboth
          exact Bool.eq_false_iff.mpr hboth
        · exact (ih ht).mp hnone i (by omega) u hu hmeets
    · intro hissues
      rw [if_neg]
      · exact (ih ht).mpr fun i hi => hissues i (by omega)
      · intro hboth
        rw [Bool.and_eq_true] at hboth
        cases (hissues n (by omega) t ht hboth.1).symm.trans hboth.2

theorem pc_of_redirectsStay (hstay : RedirectsStay program registers)
    (hrun : ∀ m t, Runs.steps next m (boot program true registers) = some t → t.shouldHalt = false)
    {n : Nat} {s : Processor} (h : Runs.steps next n (boot program true registers) = some s)
    (hseen : s.fetch.endMarkerSeen = true) : s.pc = s.fetch.endMarkerPC := by
  apply pc_at_marker _ h hseen
  intro i hi u target hu hredirect
  obtain ⟨v, hv⟩ := Runs.steps_of_le (show i + 1 ≤ n by omega) h
  obtain ⟨w, hw, hlast⟩ := Runs.steps_succ_cases hv
  obtain rfl := Option.some.inj (hu.symm.trans hw)
  have hnext := hrun (i + 1) v hv
  constructor
  · intro hmeets
    exact hstay i i u u v target (Nat.le_refl i) hu hmeets hu hredirect hlast hnext
  · intro hseen'
    obtain ⟨j, hj, r, hr, hmeets, hpc⟩ := marker_origin hu hseen'
    rw [hpc]
    exact hstay j i r u v target (by omega) hr hmeets hu hredirect hlast hnext

/-- The run that ends at the marker, if no instruction got lost, ends where the machine does. -/
theorem ends_of_throws (hsettled : Settled program registers)
    (hissues : MarkerIssues program registers) (hstay : RedirectsStay program registers) {n : Nat}
    {addr : MemAddress} {s u : Processor}
    (h : Throws (boot program true registers) n (.testEndMarkerEncountered addr) s u) :
    ∃ m t v, Throws (boot program false registers) m (.testEndMarkerEncountered addr) t v := by
  obtain ⟨k, σ, hσ⟩ := atMarker_steps hsettled h.steps
  obtain ⟨hseen, hcount, rfl⟩ := drained_of_marker (cycle_throws hσ.tracks.pipelining h.thrown).1
  have hdropped := (dropped_eq_none_iff hsettled h.steps).mpr fun i _ u => hissues i u
  have hstep := step_of_emptied hσ hseen hcount h.running
    (pc_of_redirectsStay hstay (fun _ _ => h.not_halted) h.steps hseen) hdropped
  obtain ⟨m, t, v, hm⟩ := error_reached (atStage_boot program registers) hσ.steps
    (hσ.machine_running h.running) hstep
  exact ⟨m, t, v, hm.toThrows⟩

/-- In a run where the marker issues, it is harmless exactly if no older
instruction redirects away from it: the redirect does not clear `endMarkerSeen`. -/
theorem speculationSafe_iff (hsettled : Settled program registers)
    (hissues : MarkerIssues program registers) :
    SpeculationSafe program registers ↔ RedirectsStay program registers := by
  constructor
  · intro hsafe i j u v w target hij hu hmeets hv hredirect hw hrun
    by_contra hne
    have hcleared := (hsafe.continues i j u v w target hij hu hmeets hv hredirect hne hw hrun).2
    have hseen := seen_of_meets hu hmeets (Runs.steps_succ_of hv hw) (by omega)
    cases hcleared.symm.trans hseen
  · intro hstay
    constructor
    · intro i j u v w target hij hu hmeets hv hredirect hne hw hrun
      exact absurd (hstay i j u v w target hij hu hmeets hv hredirect hw hrun) hne
    · intro n addr s u h
      exact ends_of_throws hsettled hissues hstay h

end

/-- A jump over the marker to the store that halts the system: `jal x0, 8`, the
marker, `sw x0, 632(x0)`, and words for IF to run into. -/
def jumpOverMarker : Program :=
  { memories := [Memory.ofWords false 0x1000 [0x0080006f, 0xddffccff, 0x26002c23, 0x00000013,
      0x00000013, 0x00000013, 0x00000013]]
    entrypoint := 0x1000 }

theorem jumpOverMarker_unsafe : ¬SpeculationSafe jumpOverMarker (Vector.replicate 31 0) := by
  intro hsafe
  have hpipelined : ending 6 (boot jumpOverMarker true (Vector.replicate 31 0)) =
      some (.testEndMarkerEncountered 0x1004, Vector.replicate 31 0) := by decide +kernel
  obtain ⟨s, u, hs, -⟩ := throws_of_ending hpipelined
  obtain ⟨m, t, v, ht⟩ := hsafe.ends 6 0x1004 s u hs
  have hhalt : (Runs.steps next 9 (boot jumpOverMarker false (Vector.replicate 31 0))).map
      shouldHalt = some true := by decide +kernel
  obtain ⟨w, hw, hhalted⟩ := Option.map_eq_some_iff.mp hhalt
  cases (ht.not_halted hw).symm.trans hhalted

/-- A jump to the marker: `addi x1, x0, 5`, `jal x0, 4`, the marker. -/
def jumpToMarker : Program :=
  { memories := [Memory.ofWords false 0x1000 [0x00500093, 0x0040006f, 0xddffccff, 0x00000013,
      0x00000013, 0x00000013, 0x00000013]]
    entrypoint := 0x1000 }

/-- In the state nothing keeps the run from ending at the marker at `0x1008`. -/
def jumpsToMarker (s : Processor) : Bool :=
  (!s.meetsMarker || (s.pc == 0x1008 && !s.stalls)) && s.redirect.all fun pc => pc == 0x1008

theorem jumpsToMarker_steps {n : Nat} {s : Processor}
    (h : Runs.steps next n (boot jumpToMarker true (Vector.replicate 31 0)) = some s) :
    jumpsToMarker s = true := by
  have hend : Runs.steps next 8 (boot jumpToMarker true (Vector.replicate 31 0)) = none := by
    decide +kernel
  have hall : ∀ n < 8, (Runs.steps next n (boot jumpToMarker true (Vector.replicate 31 0))).all
      jumpsToMarker = true := by decide +kernel
  exact Runs.steps_all hend hall h

theorem speculationSafe_jumpToMarker :
    SpeculationSafe jumpToMarker (Vector.replicate 31 0) := by
  have hchecked : ∀ n s,
      Runs.steps next n (boot jumpToMarker true (Vector.replicate 31 0)) = some s →
      (s.meetsMarker = true → s.pc = 0x1008 ∧ s.stalls = false) ∧
        ∀ target, s.redirect = some target → target = 0x1008 := by
    intro n s h
    have hcheck := jumpsToMarker_steps h
    unfold jumpsToMarker at hcheck
    simpa [Option.all_eq_true, or_iff_not_imp_left] using hcheck
  apply (speculationSafe_iff (settled_of_memories _ (by decide +kernel)) _).mpr
  · intro i j u v w target _ hu hmeets hv hredirect _ _
    rw [(hchecked j v hv).2 target hredirect, ((hchecked i u hu).1 hmeets).1]
  · intro n s h hmeets
    exact ((hchecked n s h).1 hmeets).2

/-! ### Draining -/

/-- Between the fetch of the marker and the end of the run nothing redirects. -/
def MarkerStraight (start : Processor) (n : Nat) : Prop :=
  ∀ i ≤ n, ∀ s, Runs.steps next i start = some s →
    s.meetsMarker = true ∨ s.fetch.endMarkerSeen = true → s.redirect = none

/-- What the run in front of the marker has done in both modes: every
instruction retired once, the same registers and the same memories. -/
structure DrainedAlike (program : Program) (registers : Registers) (n m : Nat) (u v : Processor) :
    Prop where
  retired : (Flight.after n (boot program true registers)).retired =
    Runs.trace next retiredPC m (boot program false registers)
  registers : u.regfile.registers = v.regfile.registers
  clients : u.bus.clients = v.bus.clients

/-- Both runs end at the marker, and the pipeline has lost nothing. -/
def DrainsCompletely (program : Program) (registers : Registers) : Prop :=
  ∀ n m addr addr' s u t v,
    Throws (boot program true registers) n (.testEndMarkerEncountered addr) s u →
    Throws (boot program false registers) m (.testEndMarkerEncountered addr') t v →
    MarkerStraight (boot program true registers) n → DrainedAlike program registers n m u v

section

variable {program : Program} {registers : Registers}

theorem pc_of_straight {n : Nat} {s : Processor}
    (hstraight : MarkerStraight (boot program true registers) n)
    (h : Runs.steps next n (boot program true registers) = some s)
    (hseen : s.fetch.endMarkerSeen = true) : s.pc = s.fetch.endMarkerPC := by
  apply pc_at_marker _ h hseen
  intro i hi u target hu hredirect
  have hnone : ¬(u.meetsMarker = true ∨ u.fetch.endMarkerSeen = true) := by
    intro hmarked
    cases hredirect.symm.trans (hstraight i (by omega) u hu hmarked)
  exact ⟨fun hmeets => absurd (.inl hmeets) hnone, fun hseen' => absurd (.inr hseen') hnone⟩

/-- At the end of the countdown both machines have done the same exactly if the
cycle that fetched the marker did not stall ID: the flush that the marker asks
for wins over the stall, and the instruction in IF/ID is gone. -/
theorem drainedAlike_iff (hsettled : Settled program registers) {n m : Nat}
    {addr addr' : MemAddress} {s u t v : Processor}
    (hp : Throws (boot program true registers) n (.testEndMarkerEncountered addr) s u)
    (hs : Throws (boot program false registers) m (.testEndMarkerEncountered addr') t v)
    (hstraight : MarkerStraight (boot program true registers) n) :
    DrainedAlike program registers n m u v ↔
      ∀ i < n, ∀ w, Runs.steps next i (boot program true registers) = some w →
        w.meetsMarker = true → w.stalls = false := by
  obtain ⟨k, σ, hσ⟩ := atMarker_steps hsettled hp.steps
  obtain ⟨hcase, huntouched⟩ := cycle_throws hσ.tracks.pipelining hp.thrown
  obtain ⟨hseen, hcount, -⟩ := drained_of_marker hcase
  obtain ⟨l, τ, hτ⟩ := error_cases (atStage_boot program registers) hs
  have hexecuted := executed_of_emptied hσ hseen hcount
  rw [← dropped_eq_none_iff hsettled hp.steps]
  constructor
  · intro halike
    by_contra hdropped
    -- both runs have executed equally many instructions, but one of them is at the marker
    have hlength : k = l := by
      rw [← Runs.length_trace ArchState.pc hσ.steps,
        ← Runs.length_trace ArchState.pc hτ.arch]
      exact congrArg List.length (hexecuted.trans (halike.retired.trans hτ.executed))
    subst hlength
    obtain rfl : σ = τ := Option.some.inj (hσ.steps.symm.trans hτ.arch)
    exact step_of_lost hσ hseen hcount hp.running hdropped addr' hτ.step
  · intro hdropped
    have hstep := step_of_emptied hσ hseen hcount hp.running
      (pc_of_straight hstraight hp.steps hseen) hdropped
    obtain ⟨rfl, rfl⟩ := Runs.steps_stuck_unique hσ.steps (ArchState.next_of_error hstep)
      hτ.arch (ArchState.next_of_error hτ.step)
    exact {
      retired := hexecuted.symm.trans hτ.executed.symm
      registers := by
        rw [huntouched.registers, registers_of_emptied hσ hseen hcount, hτ.registers]
      clients := by rw [huntouched.clients, ← hσ.tracks.clients, hτ.clients] }

end

/-- A load whose result is used by the last instruction in front of the marker:
`lw x2, 0(x1)`, `add x3, x2, x2`, the marker. -/
def useBeforeMarker : Program :=
  { memories := [Memory.ofWords false 0x1000 [0x0000a103, 0x002101b3, 0xddffccff, 0x00000013,
      0x00000013, 0x00000013, 0x00000013]]
    entrypoint := 0x1000 }

theorem straight_of_all {start : Processor} {n : Nat}
    (h : ∀ i ≤ n, (Runs.steps next i start).all (fun s =>
      !(s.meetsMarker || s.fetch.endMarkerSeen) || s.redirect.isNone) = true) :
    MarkerStraight start n := by
  intro i hi s hs hmarked
  have hall := h i hi
  rw [hs] at hall
  simp only [Option.all_some, Bool.or_eq_true, Bool.not_eq_true', Bool.or_eq_false_iff,
    Option.isNone_iff_eq_none] at hall
  obtain ⟨hmeets, hseen⟩ | hnone := hall
  · simp [hmeets, hseen] at hmarked
  · exact hnone

theorem useBeforeMarker_loses : ¬DrainsCompletely useBeforeMarker (Vector.replicate 31 0x1000) := by
  intro hdrains
  have hpipelined : (ending 7 (boot useBeforeMarker true (Vector.replicate 31 0x1000))).map
      (fun last => (last.1, last.2.readRegister 3)) =
        some (.testEndMarkerEncountered 0x1008, 0x1000) := by decide +kernel
  have halone : (ending 10 (boot useBeforeMarker false (Vector.replicate 31 0x1000))).map
      (fun last => (last.1, last.2.readRegister 3)) =
        some (.testEndMarkerEncountered 0x1008, 0x14206) := by decide +kernel
  have hstraight : MarkerStraight (boot useBeforeMarker true (Vector.replicate 31 0x1000)) 7 :=
    straight_of_all (by decide +kernel)
  obtain ⟨⟨e, left⟩, hleft, heq⟩ := Option.map_eq_some_iff.mp hpipelined
  obtain ⟨⟨e', right⟩, hright, heq'⟩ := Option.map_eq_some_iff.mp halone
  obtain ⟨rfl, hx₃⟩ := Prod.mk.inj heq
  obtain ⟨rfl, hx₃'⟩ := Prod.mk.inj heq'
  obtain ⟨s, u, hs, rfl⟩ := throws_of_ending hleft
  obtain ⟨t, v, ht, rfl⟩ := throws_of_ending hright
  have halike := hdrains 7 10 _ _ s u t v hs ht hstraight
  rw [halike.registers] at hx₃
  cases hx₃.symm.trans hx₃'

/-- The same use with an instruction between it and the marker: `lw x2, 0(x1)`,
`add x3, x2, x2`, `nop`, the marker. -/
def useThenMarker : Program :=
  { memories := [Memory.ofWords false 0x1000 [0x0000a103, 0x002101b3, 0x00000013, 0xddffccff,
      0x00000013, 0x00000013, 0x00000013]]
    entrypoint := 0x1000 }

theorem drainedAlike_useThenMarker :
    ∃ s u t v,
      Throws (boot useThenMarker true (Vector.replicate 31 0x1000)) 9
        (.testEndMarkerEncountered 0x100c) s u ∧
      Throws (boot useThenMarker false (Vector.replicate 31 0x1000)) 15
        (.testEndMarkerEncountered 0x100c) t v ∧
      DrainedAlike useThenMarker (Vector.replicate 31 0x1000) 9 15 u v := by
  have hpipelined : (ending 9 (boot useThenMarker true (Vector.replicate 31 0x1000))).map
      Prod.fst = some (.testEndMarkerEncountered 0x100c) := by decide +kernel
  have halone : (ending 15 (boot useThenMarker false (Vector.replicate 31 0x1000))).map
      Prod.fst = some (.testEndMarkerEncountered 0x100c) := by decide +kernel
  have hstraight : MarkerStraight (boot useThenMarker true (Vector.replicate 31 0x1000)) 9 :=
    straight_of_all (by decide +kernel)
  have hissues : ∀ i < 9,
      (Runs.steps next i (boot useThenMarker true (Vector.replicate 31 0x1000))).all
        (fun s => !s.meetsMarker || !s.stalls) = true := by decide +kernel
  obtain ⟨⟨e, left⟩, hleft, rfl⟩ := Option.map_eq_some_iff.mp hpipelined
  obtain ⟨⟨e', right⟩, hright, rfl⟩ := Option.map_eq_some_iff.mp halone
  obtain ⟨s, u, hs, -⟩ := throws_of_ending hleft
  obtain ⟨t, v, ht, -⟩ := throws_of_ending hright
  refine ⟨s, u, t, v, hs, ht, ?_⟩
  apply (drainedAlike_iff (settled_of_memories _ (by decide +kernel)) hs ht hstraight).mpr
  intro i hi w hw hmeets
  have hall := hissues i hi
  rw [hw] at hall
  simpa [hmeets] using hall

end Rv64Emu.Processor
