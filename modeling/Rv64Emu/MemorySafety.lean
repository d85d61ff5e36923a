import Rv64Emu.BusRuns
import Rv64Emu.Machine.Image
import Rv64Emu.Pipelined.Thrown
import Mathlib.Data.List.Forall2

/-! What a guest can do to the memories of its image, in either mode and however
the run ends: it changes no read-only section, no byte that it does not write,
and it makes the emulator leave no array. -/
namespace Rv64Emu

/-- The address is one of the bytes written. -/
def BusWrite.Covers (write : BusWrite) (addr : MemAddress) : Prop :=
  (addr - write.addr).toNat < write.width.bytes

namespace Memory

/-- The section after the given writes. -/
structure Kept (writes : List BusWrite) (m m' : Memory) : Prop where
  mayWrite : m'.mayWrite = m.mayWrite
  base : m'.base = m.base
  size : m'.size = m.size
  readOnly : m.mayWrite = false → m'.data = m.data
  outside : ∀ i, (∀ write ∈ writes, ¬write.Covers (m.base + BitVec.ofNat 64 i)) →
    m'.data[i]? = m.data[i]?

variable {writes writes' : List BusWrite} {m m' m'' : Memory}

theorem Kept.refl (writes : List BusWrite) (m : Memory) : m.Kept writes m :=
  ⟨rfl, rfl, rfl, fun _ => rfl, fun _ _ => rfl⟩

theorem Kept.trans (h : m.Kept writes m') (h' : m'.Kept writes' m'') :
    m.Kept (writes ++ writes') m'' where
  mayWrite := h'.mayWrite.trans h.mayWrite
  base := h'.base.trans h.base
  size := h'.size.trans h.size
  readOnly hreadOnly :=
    (h'.readOnly (h.mayWrite.trans hreadOnly)).trans (h.readOnly hreadOnly)
  outside i hi := by
    have hlate : m''.data[i]? = m'.data[i]? := by
      apply h'.outside
      intro write hwrite
      rw [h.base]
      exact hi write (List.mem_append_right writes hwrite)
    have hearly : m'.data[i]? = m.data[i]? := by
      apply h.outside
      intro write hwrite
      exact hi write (List.mem_append_left writes' hwrite)
    exact hlate.trans hearly

/-- A byte within the access is one that the access covers. -/
theorem covers_of_index {write : BusWrite} {i : Nat} (hlow : m.offset write.addr ≤ i)
    (hhigh : i < m.offset write.addr + write.width.bytes) :
    write.Covers (m.base + BitVec.ofNat 64 i) := by
  have hbytes : write.width.bytes ≤ 8 := by cases write.width <;> decide
  unfold offset at hlow hhigh
  unfold BusWrite.Covers
  bv_omega

theorem kept_write {write : BusWrite}
    (h : m.writeData write.width write.addr write.data = .ok m') : m.Kept [write] m' := by
  obtain ⟨hcan, hin, rfl⟩ := writeData_ok_iff.mp h
  constructor
  · rfl
  · rfl
  · rfl
  · intro hreadOnly
    cases hreadOnly.symm.trans (mayWrite_of_canAccess hcan)
  · intro i hi
    have hlength : m.offset write.addr +
        (LittleEndian.toBytes write.width.bytes write.data).length ≤ m.data.length := by
      rw [LittleEndian.length_toBytes]
      exact hin
    have hmiss : ¬(m.offset write.addr ≤ i ∧ i < m.offset write.addr + write.width.bytes) := by
      rintro ⟨hlow, hhigh⟩
      exact hi write (List.mem_singleton_self write) (covers_of_index hlow hhigh)
    change (LittleEndian.splice m.data _ _)[i]? = _
    rw [LittleEndian.getElem?_splice hlength, LittleEndian.length_toBytes, if_neg hmiss]

end Memory

namespace SysStatus

/-- The system status module after the given writes. -/
structure Kept (writes : List BusWrite) (d d' : SysStatus) : Prop where
  base : d'.base = d.base
  sticky : d.shouldHaltFlag = true → d'.shouldHaltFlag = true
  asked : d'.shouldHaltFlag = true →
    d.shouldHaltFlag = true ∨ ∃ write ∈ writes, write.addr = d.base + 0x8

variable {writes writes' : List BusWrite} {d d' d'' : SysStatus}

theorem Kept.refl (writes : List BusWrite) (d : SysStatus) : d.Kept writes d :=
  ⟨rfl, id, .inl⟩

theorem Kept.trans (h : d.Kept writes d') (h' : d'.Kept writes' d'') :
    d.Kept (writes ++ writes') d'' where
  base := h'.base.trans h.base
  sticky hflag := h'.sticky (h.sticky hflag)
  asked hflag := by
    obtain hflag' | ⟨write, hmem, haddr⟩ := h'.asked hflag
    · obtain hflag'' | ⟨write, hmem, haddr⟩ := h.asked hflag'
      · exact .inl hflag''
      · exact .inr ⟨write, List.mem_append_left writes' hmem, haddr⟩
    · rw [h.base] at haddr
      exact .inr ⟨write, List.mem_append_right writes hmem, haddr⟩

theorem kept_write {write : BusWrite}
    (h : d.write write.width write.addr write.data = .ok d') : d.Kept [write] d' := by
  have haddr : write.addr = d.base + 0x8 ∧ d' = { d with shouldHaltFlag := true } := by
    unfold SysStatus.write requestHalt at h
    split at h
    · split at h
      · cases h
      · rename_i haddr
        cases h
        exact ⟨not_not.mp haddr, rfl⟩
    · split at h
      · cases h
      · rename_i haddr
        cases h
        exact ⟨not_not.mp haddr, rfl⟩
    · cases h
  obtain ⟨haddr, rfl⟩ := haddr
  exact ⟨rfl, fun _ => rfl, fun _ => .inr ⟨write, List.mem_singleton_self write, haddr⟩⟩

end SysStatus

/-- A client after the given writes to the bus. -/
inductive Client.Kept (writes : List BusWrite) : Client → Client → Prop where
  | memory {m m' : Memory} (h : m.Kept writes m') : Kept writes (.memory m) (.memory m')
  | serial (d : Serial) : Kept writes (.serial d) (.serial d)
  | sysStatus {d d' : SysStatus} (h : d.Kept writes d') : Kept writes (.sysStatus d) (.sysStatus d')

namespace Client

variable {writes writes' : List BusWrite}

theorem Kept.refl (writes : List BusWrite) (c : Client) : Kept writes c c := by
  cases c with
  | memory m => exact .memory (.refl writes m)
  | serial d => exact .serial d
  | sysStatus d => exact .sysStatus (.refl writes d)

theorem Kept.trans {c c' c'' : Client} (h : Kept writes c c') (h' : Kept writes' c' c'') :
    Kept (writes ++ writes') c c'' := by
  cases h with
  | memory h =>
    cases h' with
    | memory h' => exact .memory (h.trans h')
  | serial d =>
    cases h' with
    | serial d => exact .serial d
  | sysStatus h =>
    cases h' with
    | sysStatus h' => exact .sysStatus (h.trans h')

theorem kept_write {c c' : Client} {write : BusWrite}
    (h : c.write write.width write.addr write.data = .ok c') : Kept [write] c c' := by
  obtain ⟨m, m', rfl, rfl, hwrite⟩ | ⟨d, rfl, rfl⟩ | ⟨d, rfl, rfl⟩ := write_ok_cases h
  · exact .memory (Memory.kept_write hwrite)
  · exact .serial d
  · change Client.sysStatus <$> d.write write.width write.addr write.data = _ at h
    cases hwrite : d.write write.width write.addr write.data with
    | error e =>
      rw [hwrite] at h
      cases h
    | ok d' =>
      rw [hwrite] at h
      obtain rfl : d' = { d with shouldHaltFlag := true } := by
        simpa using h
      exact .sysStatus (SysStatus.kept_write hwrite)

end Client

namespace Clients

/-- The bus after the given writes, client by client. -/
def Kept (writes : List BusWrite) (clients clients' : Clients) : Prop :=
  List.Forall₂ (Client.Kept writes) clients clients'

variable {writes writes' : List BusWrite} {clients clients' clients'' : Clients}

theorem Kept.refl (writes : List BusWrite) (clients : Clients) : clients.Kept writes clients :=
  List.forall₂_same.mpr fun c _ => .refl writes c

theorem Kept.trans (h : clients.Kept writes clients') (h' : clients'.Kept writes' clients'') :
    clients.Kept (writes ++ writes') clients'' := by
  induction h generalizing clients'' with
  | nil =>
    cases h'
    exact .nil
  | cons hhead _ ih =>
    cases h' with
    | cons hhead' htail' => exact .cons (hhead.trans hhead') (ih htail')

/-- The client that serves an access is the only one that it changes. -/
theorem kept_replaceClient {addr : MemAddress} {c c' : Client}
    (hfind : clients.findClient addr = some c) (h : Client.Kept writes c c') :
    clients.Kept writes (clients.replaceClient addr c') := by
  induction clients with
  | nil => cases hfind
  | cons d ds ih =>
    rw [findClient_cons] at hfind
    unfold replaceClient
    by_cases hd : d.contains addr = true
    · rw [if_pos hd] at hfind ⊢
      cases hfind
      exact .cons h (Kept.refl writes ds)
    · rw [if_neg hd] at hfind ⊢
      exact .cons (.refl writes d) (ih hfind)

theorem kept_write {write : BusWrite}
    (h : clients.write write.width write.addr write.data = .ok clients') :
    clients.Kept [write] clients' := by
  obtain ⟨c, c', hfind, hwrite, rfl⟩ := write_ok_iff.mp h
  exact kept_replaceClient hfind (Client.kept_write hwrite)

theorem kept_replay (h : clients.replay writes = .ok clients') : clients.Kept writes clients' := by
  induction writes generalizing clients with
  | nil =>
    cases h
    exact Kept.refl [] _
  | cons write writes ih =>
    unfold replay at h
    split at h
    · rename_i next hnext
      exact (kept_write hnext).trans (ih h)
    · cases h

/-- Every memory on the bus leaves room behind it. -/
def Fits (clients : Clients) : Prop := ∀ m, Client.memory m ∈ clients → m.Fits

theorem Kept.fits (h : clients.Kept writes clients') (hfits : clients.Fits) : clients'.Fits := by
  induction h with
  | nil => exact hfits
  | cons hhead _ ih =>
    intro m hm
    obtain rfl | htail := List.mem_cons.mp hm
    · cases hhead with
      | memory h =>
        have hroom := hfits _ List.mem_cons_self
        unfold Memory.Fits at hroom ⊢
        rw [h.base, h.size]
        exact hroom
    · exact ih (fun m hm => hfits m (List.mem_cons_of_mem _ hm)) m htail

end Clients

namespace Memory

variable {m : Memory} {width : Width} {addr : MemAddress}

/-- What passes the checks of a memory with room behind it is in the array. -/
theorem inBounds_of_canAccess (hfits : m.Fits) (haddr : m.contains addr = true) {write : Bool}
    (h : m.canAccess addr width.bytes write = true) : m.inBounds addr width := by
  have hcovers := (contains_iff hfits).mp haddr
  have hbytes : width.bytes ≤ 8 := by cases width <;> decide
  obtain ⟨hrange, -⟩ := (canAccess_iff hfits hcovers hbytes write).mp h
  unfold inBounds
  rw [offset_eq hcovers, m.data_length]
  unfold CoversRange at hrange
  omega

theorem readData_catchable (hfits : m.Fits) (haddr : m.contains addr = true) {e : Exception}
    (h : m.readData width addr = .error e) : e.isCatchable = true := by
  unfold readData at h
  split at h
  · cases h
    rfl
  · rename_i hcan
    rw [if_pos (inBounds_of_canAccess hfits haddr (by simpa using hcan))] at h
    cases h

theorem writeData_catchable (hfits : m.Fits) (haddr : m.contains addr = true)
    {value : width.Value} {e : Exception} (h : m.writeData width addr value = .error e) :
    e.isCatchable = true := by
  unfold writeData at h
  split at h
  · cases h
    rfl
  · rename_i hcan
    rw [dif_pos (inBounds_of_canAccess hfits haddr (by simpa using hcan))] at h
    cases h

end Memory

/-- Every client throws what C++ can catch, a memory if it has room behind it. -/
theorem Client.write_catchable {c : Client} {width : Width} {addr : MemAddress}
    (hfits : ∀ m, c = .memory m → m.Fits) (haddr : c.contains addr = true) {value : width.Value}
    {e : Exception} (h : c.write width addr value = .error e) : e.isCatchable = true := by
  cases c with
  | memory m =>
    change Client.memory <$> m.writeData width addr value = .error e at h
    cases hwrite : m.writeData width addr value with
    | ok m' =>
      rw [hwrite] at h
      cases h
    | error e' =>
      rw [hwrite] at h
      cases h
      exact Memory.writeData_catchable (hfits m rfl) haddr hwrite
  | serial d =>
    cases width with
    | byte =>
      simp only [Client.write, Serial.write] at h
      split at h <;> cases h
      rfl
    | _ =>
      cases h
      rfl
  | sysStatus d =>
    cases width with
    | byte | word =>
      simp only [Client.write, SysStatus.write, SysStatus.requestHalt] at h
      split at h <;> cases h
      rfl
    | _ =>
      cases h
      rfl

namespace Clients

variable {clients : Clients} (hfits : clients.Fits) {width : Width} {addr : MemAddress}
  {e : Exception}

include hfits

theorem read_catchable (h : clients.read width addr = .error e) : e.isCatchable = true := by
  unfold read getClient at h
  cases hfind : clients.findClient addr with
  | none =>
    rw [hfind] at h
    cases h
    rfl
  | some c =>
    rw [hfind] at h
    change c.read width addr = .error e at h
    cases c with
    | memory m =>
      exact Memory.readData_catchable (hfits m (List.mem_of_find?_eq_some hfind))
        (List.find?_some (p := fun c : Client => c.contains addr) hfind) h
    | serial d =>
      cases h
      rfl
    | sysStatus d =>
      cases h
      rfl

theorem write_catchable {value : width.Value} (h : clients.write width addr value = .error e) :
    e.isCatchable = true := by
  unfold write getClient at h
  cases hfind : clients.findClient addr with
  | none =>
    rw [hfind] at h
    cases h
    rfl
  | some c =>
    have haddr : c.contains addr = true :=
      List.find?_some (p := fun c : Client => c.contains addr) hfind
    rw [hfind] at h
    cases hwrite : c.write width addr value with
    | ok c' =>
      simp only [bind, Except.bind, hwrite] at h
      cases h
    | error e' =>
      simp only [bind, Except.bind, hwrite] at h
      cases h
      exact Client.write_catchable
        (fun m hm => hfits m (hm ▸ List.mem_of_find?_eq_some hfind)) haddr hwrite

theorem loadData_catchable {size : BitVec 8} {signExtend : Bool}
    (h : clients.loadData size signExtend addr = .error e) : e.isCatchable = true := by
  unfold loadData at h
  split at h
  · rename_i width hwidth
    cases hread : clients.read width addr with
    | error e' =>
      rw [hread] at h
      cases h
      exact read_catchable hfits hread
    | ok value =>
      rw [hread] at h
      cases h
  · cases h
    rfl

theorem storeData_catchable {size : BitVec 8} {value : RegValue}
    (h : clients.storeData size addr value = .error e) : e.isCatchable = true := by
  unfold storeData at h
  split at h
  · exact write_catchable hfits h
  · cases h
    rfl

end Clients

namespace Exception

/-- The exceptions that the processor's classes declare. -/
def isDeclared (e : Exception) : Prop :=
  e.isFault = true ∨ ∃ addr, e = .testEndMarkerEncountered addr

theorem isFault_of_access {e : Exception} (haccess : e.isAccessError = true)
    (hcatch : e.isCatchable = true) : e.isFault = true := by
  cases e with
  | illegalAccess fault => rfl
  | outOfBounds addr => cases hcatch
  | _ => cases haccess

theorem isFault_fetchError {pc : MemAddress} {e : Exception} (hcatch : e.isCatchable = true) :
    (InstructionFetchStage.fetchError pc e).isFault = true := by
  unfold InstructionFetchStage.fetchError
  rw [if_pos hcatch]
  rfl

end Exception

theorem EXMRegisters.load_catchable {exM : EXMRegisters} {clients : Clients} {e : Exception}
    (hfits : clients.Fits) (h : exM.load clients = .error e) : e.isCatchable = true := by
  unfold load at h
  split at h
  · split at h
    · cases h
      rfl
    · split at h
      · exact Clients.loadData_catchable hfits h
      · cases h
  · cases h

theorem EXMRegisters.store_catchable {exM : EXMRegisters} {clients : Clients} {e : Exception}
    (hfits : clients.Fits) (h : exM.store clients = .error e) : e.isCatchable = true := by
  unfold store at h
  split at h
  · exact Clients.storeData_catchable hfits h
  · cases h

theorem ArchState.accessFails_fault {clients : Clients} {exM : EXMRegisters} {e : Exception}
    (hfits : clients.Fits) (h : accessFails clients exM e) : e.isFault = true := by
  apply Exception.isFault_of_access (accessFails_error h)
  obtain hload | ⟨memData, -, hstore⟩ := h
  · exact EXMRegisters.load_catchable hfits hload
  · exact EXMRegisters.store_catchable hfits hstore

theorem ArchState.fetch_declared {σ : ArchState} {e : Exception} (hfits : σ.clients.Fits)
    (h : σ.fetch = .error e) : e.isDeclared := by
  unfold fetch at h
  cases hword : σ.clients.fetchWord σ.pc with
  | ok word =>
    rw [hword] at h
    change (if word = testEndMarker then _ else _) = _ at h
    split at h
    · cases h
      exact .inr ⟨σ.pc, rfl⟩
    · cases h
  | error e' =>
    rw [hword] at h
    cases h
    exact .inl (Exception.isFault_fetchError (Clients.read_catchable hfits hword))

namespace Processor

/-- The state in which the loop has left the processor. -/
def Outcome.processor : Outcome → Processor
  | .running s => s
  | .halted s => s
  | .terminated _ s => s

/-- A cycle that throws has written nothing. -/
theorem driven_error {s u : Processor} {e : Exception} (hs : Driven s)
    (h : cycle s = .error e u) : u.bus.clients = s.bus.clients := by
  obtain hp | ⟨i, hstage⟩ := hs
  · exact (cycle_throws hp h).2.clients
  · exact (atStage_throws hstage h).1

/-- Whatever a run comes to, the sections are those of the image up to the
writes that it has made. -/
theorem sections_kept (program : Program) (pipelining : Bool) (registers : Registers)
    (fuel : Nat) :
    ∃ n ≤ fuel, (boot program pipelining registers).bus.clients.Kept
      (Runs.trace next busWrites n (boot program pipelining registers))
      (runLoop fuel (boot program pipelining registers)).processor.bus.clients := by
  obtain ⟨n, hn, s, hs, hend⟩ := runLoop_cases fuel (boot program pipelining registers)
  obtain ⟨hdriven, hreplay⟩ := replay_run (driven_boot program pipelining registers) hs
  refine ⟨n, hn, ?_⟩
  have hkept := Clients.kept_replay hreplay
  obtain ⟨-, hloop⟩ | ⟨e, u, -, hcycle, hloop⟩ | hloop := hend
  · rw [hloop]
    exact hkept
  · rw [hloop]
    change Clients.Kept _ _ u.bus.clients
    rw [driven_error hdriven hcycle]
    exact hkept
  · rw [hloop]
    exact hkept

/-- Between two cycles of a run, an image with room behind its sections lets no
access leave them. -/
theorem driven_declared {s u : Processor} {e : Exception} (hs : Driven s)
    (hfits : s.bus.clients.Fits) (h : cycle s = .error e u) : e.isDeclared := by
  obtain hp | ⟨i, hstage⟩ := hs
  · cases (cycle_throws hp h).1 with
    | fetch fault seen word thrown =>
      rw [thrown]
      exact .inl (Exception.isFault_fetchError (Clients.read_catchable hfits word))
    | load fails => exact .inl (ArchState.accessFails_fault hfits (.inl fails))
    | drained seen countdown thrown => exact .inr ⟨_, thrown⟩
    | decode redirect stalls immediate =>
      obtain ⟨what, rfl⟩ := InstructionDecoder.getImmediate_error immediate
      exact .inl rfl
    | store memData loads fails =>
      exact .inl (ArchState.accessFails_fault hfits (.inr ⟨memData, loads, fails⟩))
  · obtain ⟨-, hfetch | hat | haccess⟩ := atStage_throws hstage h
    · exact ArchState.fetch_declared hfits hfetch
    · obtain ⟨what, rfl⟩ := decodeAt_error hat
      exact .inl rfl
    · exact .inl (ArchState.accessFails_fault hfits haccess)

theorem fits_boot {program : Program} (hfits : ∀ m ∈ program.memories, m.Fits)
    (pipelining : Bool) (registers : Registers) :
    (boot program pipelining registers).bus.clients.Fits :=
  fun m hm => hfits m (memory_mem_boot.mp hm)

/-- A run ends on the halt flag or on one of the exceptions that the emulator
declares; no access leaves an array, and no register number its range. -/
theorem memory_safe {program : Program} (hfits : ∀ m ∈ program.memories, m.Fits)
    (pipelining : Bool) (registers : Registers) (fuel : Nat) :
    (∀ e u, runLoop fuel (boot program pipelining registers) = .terminated e u → e.isDeclared) ∧
      ∀ testMode, run testMode fuel (boot program pipelining registers) = none ↔
        ∃ s, runLoop fuel (boot program pipelining registers) = .running s := by
  have hdeclared : ∀ e u,
      runLoop fuel (boot program pipelining registers) = .terminated e u → e.isDeclared := by
    intro e u h
    obtain ⟨n, s, hthrows⟩ := runLoop_terminated_iff.mp ⟨fuel, h⟩
    obtain ⟨hdriven, hreplay⟩ := replay_run (driven_boot program pipelining registers)
      hthrows.steps
    exact driven_declared hdriven
      ((Clients.kept_replay hreplay).fits (fits_boot hfits pipelining registers)) hthrows.thrown
  refine ⟨hdeclared, fun testMode => ?_⟩
  unfold run
  cases hloop : runLoop fuel (boot program pipelining registers) with
  | running s => simp
  | halted s => simp
  | terminated e u =>
    obtain hfault | ⟨addr, rfl⟩ := hdeclared e u hloop
    · cases e with
      | instructionFetchFailure addr => simp
      | illegalInstruction what => simp
      | illegalAccess fault => simp
      | _ => cases hfault
    · simp

/-- `sd x0, 4(x0)`, in a read-only section of eight bytes. -/
def storeAcross : Program :=
  { memories := [Memory.ofWords false 0 [0x00003223, testEndMarker]], entrypoint := 0 }

theorem memory_safe_storeAcross :
    (∀ e u, runLoop 4 (boot storeAcross true (Vector.replicate 31 0)) = .terminated e u →
        e.isDeclared) ∧
      ∀ testMode, run testMode 4 (boot storeAcross true (Vector.replicate 31 0)) = none ↔
        ∃ s, runLoop 4 (boot storeAcross true (Vector.replicate 31 0)) = .running s :=
  memory_safe (by decide +kernel) true (Vector.replicate 31 0) 4

end Processor

end Rv64Emu
