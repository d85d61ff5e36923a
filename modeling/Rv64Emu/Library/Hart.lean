import Rv64Emu.Library.Rv64i
import Rv64Emu.Library.ByteMemory

/-! A hart that executes the RV64I base set on a platform of byte-addressed
memory and write-only devices. -/
namespace Rv64i

inductive Instruction where
  | computational (i : Computational)
  | upper (i : Upper)
  | transfer (i : Transfer)
  | load (l : Load)
  | store (st : Store)
  | fence
  | environment
  deriving DecidableEq, Repr

/-- The tables have different opcodes, so that their order does not matter. -/
def decodeInstruction (w : BitVec 32) : Option Instruction :=
  ((decodeStore w).map .store).or <| ((decode w).map .computational).or <|
    ((decodeUpper w).map .upper).or <| ((decodeTransfer w).map .transfer).or <|
    ((decodeLoad w).map .load).or <|
    if w.extractLsb' 0 7 = 0b0001111 ∧ w.extractLsb' 12 3 = 0b000 then some .fence
    else if w = 0x00000073 ∨ w = 0x00100073 then some .environment
    else none

/-- The table that lists an instruction, and none lists a store as well. -/
theorem decodeInstruction_cases {w : BitVec 32} {i : Instruction}
    (h : decodeInstruction w = some i) :
    (∃ st, decodeStore w = some st ∧ i = .store st) ∨ decodeStore w = none ∧
      ((∃ c, decode w = some c ∧ i = .computational c) ∨
        (∃ u, decodeUpper w = some u ∧ i = .upper u) ∨
        (∃ t, decodeTransfer w = some t ∧ i = .transfer t) ∨
        (∃ l, decodeLoad w = some l ∧ i = .load l) ∨ i = .fence ∨ i = .environment) := by
  unfold decodeInstruction at h
  cases hstore : decodeStore w with
  | some st =>
    rw [hstore] at h
    exact .inl ⟨st, rfl, (Option.some.inj h).symm⟩
  | none =>
    refine .inr ⟨rfl, ?_⟩
    rw [hstore] at h
    cases hdecode : decode w with
    | some c =>
      rw [hdecode] at h
      exact .inl ⟨c, rfl, (Option.some.inj h).symm⟩
    | none =>
      rw [hdecode] at h
      refine .inr ?_
      cases hupper : decodeUpper w with
      | some u =>
        rw [hupper] at h
        exact .inl ⟨u, rfl, (Option.some.inj h).symm⟩
      | none =>
        rw [hupper] at h
        refine .inr ?_
        cases htransfer : decodeTransfer w with
        | some t =>
          rw [htransfer] at h
          exact .inl ⟨t, rfl, (Option.some.inj h).symm⟩
        | none =>
          rw [htransfer] at h
          refine .inr ?_
          cases hload : decodeLoad w with
          | some l =>
            rw [hload] at h
            exact .inl ⟨l, rfl, (Option.some.inj h).symm⟩
          | none =>
            rw [hload] at h
            refine .inr ?_
            simp only [Option.map_none, Option.none_or] at h
            split at h
            · exact .inl (Option.some.inj h).symm
            · split at h
              · exact .inr (Option.some.inj h).symm
              · cases h

/-- The integer registers. -/
structure Registers where
  read : BitVec 5 → BitVec 64
  read_zero : read 0 = 0

def Registers.write (registers : Registers) (rd : BitVec 5) (value : BitVec 64) : Registers where
  read regnum := if rd = regnum ∧ rd ≠ 0 then value else registers.read regnum
  read_zero := by
    split
    · rename_i h
      exact absurd h.1 h.2
    · exact registers.read_zero

@[ext] theorem Registers.ext {r r' : Registers} (h : ∀ regnum, r.read regnum = r'.read regnum) :
    r = r' := by
  cases r
  cases r'
  cases funext h
  rfl

/-- The ranges that fetches and loads, and those that stores may access, and what
a store elsewhere signals. -/
@[ext] structure Platform (ε : Type*) where
  readable : BitVec 64 → Nat → Bool
  writable : BitVec 64 → Nat → Bool
  device : BitVec 64 → List (BitVec 8) → Option ε
  /-- The signals that end the execution. -/
  stops : ε → Bool

@[ext] structure Hart (ε : Type*) where
  registers : Registers
  pc : BitVec 64
  memory : BitVec 64 → BitVec 8
  /-- What the devices have been signalled, in order. -/
  signals : List ε := []

inductive Trap where
  | fetchAccess | misaligned | illegal | environment | loadAccess | storeAccess
  deriving DecidableEq, Repr

namespace Hart

variable {ε : Type*} (p : Platform ε) (h : Hart ε)

/-- The 32 bits at the program counter. -/
def word : BitVec 32 := BitVec.ofNat 32 (LittleEndian.ofBytes (ByteMemory.loaded h.memory h.pc 4))

def stopped : Bool := h.signals.any p.stops

/-- On to the next word, with a result. -/
def advance (rd : BitVec 5) (value : BitVec 64) : Hart ε :=
  { h with registers := h.registers.write rd value, pc := h.pc + 4 }

/-- The bytes that a store puts to its address. -/
def stored (st : Store) : ByteMemory.Store 64 :=
  { addr := h.registers.read st.rs1 + st.offset
    bytes := LittleEndian.toBytes st.bytes (h.registers.read st.rs2) }

/-- A taken branch or a jump traps unless its target is aligned to words. -/
def transferTo (i : Transfer) : Except Trap (Hart ε) :=
  let target := i.target h.pc h.registers.read
  if target ≠ h.pc + 4 ∧ target.toNat % 4 ≠ 0 then .error .misaligned
  else .ok { h with registers := h.registers.write i.link (h.pc + 4), pc := target }

def loadFrom (l : Load) : Except Trap (Hart ε) :=
  let addr := h.registers.read l.rs1 + l.offset
  if p.readable addr l.bytes then
    .ok (h.advance l.rd (l.value (ByteMemory.loaded h.memory addr l.bytes)))
  else .error .loadAccess

def storeTo (st : ByteMemory.Store 64) : Except Trap (Hart ε) :=
  if p.writable st.addr st.bytes.length then
    .ok { h with pc := h.pc + 4, memory := st.apply h.memory }
  else match p.device st.addr st.bytes with
    | some signal => .ok { h with pc := h.pc + 4, signals := h.signals ++ [signal] }
    | none => .error .storeAccess

def execute : Instruction → Except Trap (Hart ε)
  | .computational i => .ok (h.advance i.rd (i.result h.registers.read))
  | .upper i => .ok (h.advance i.rd (i.result h.pc))
  | .transfer i => h.transferTo i
  | .load l => h.loadFrom p l
  | .store st => h.storeTo p (h.stored st)
  | .fence => .ok { h with pc := h.pc + 4 }
  | .environment => .error .environment

def step : Except Trap (Hart ε) :=
  if p.readable h.pc 4 then
    match decodeInstruction h.word with
    | some i => h.execute p i
    | none => .error .illegal
  else .error .fetchAccess

/-- What the next step signals. -/
def emitted : List ε :=
  match h.step p with
  | .ok g => g.signals.drop h.signals.length
  | .error _ => []

/-- A step, unless a signal has ended the execution. -/
def next : Option (Hart ε) := if h.stopped p then none else (h.step p).toOption

variable {p h}

theorem next_eq_some_iff {g : Hart ε} :
    h.next p = some g ↔ h.stopped p = false ∧ h.step p = .ok g := by
  unfold next
  cases h.stopped p with
  | true => simp
  | false =>
    cases h.step p with
    | error t => simp [Except.toOption]
    | ok g' => simp [Except.toOption]

theorem step_of_decode {i : Instruction} (hreadable : p.readable h.pc 4 = true)
    (hdecode : decodeInstruction h.word = some i) : h.step p = h.execute p i := by
  unfold step
  rw [if_pos hreadable, hdecode]

/-- A step signals at the end of what has been signalled. -/
theorem signals_of_step {g : Hart ε} (hstep : h.step p = .ok g) :
    ∃ emitted, g.signals = h.signals ++ emitted := by
  unfold step at hstep
  split at hstep
  case isFalse => cases hstep
  case isTrue =>
  split at hstep
  case h_2 => cases hstep
  case h_1 i _ =>
  have hkept : ∀ g' : Hart ε, g'.signals = h.signals → ∃ emitted, g'.signals = h.signals ++ emitted :=
    fun g' hg' => ⟨[], hg'.trans (List.append_nil _).symm⟩
  cases i with
  | computational i =>
    cases hstep
    exact hkept _ rfl
  | upper i =>
    cases hstep
    exact hkept _ rfl
  | transfer i =>
    change (if _ then Except.error _ else Except.ok _) = _ at hstep
    split at hstep
    · cases hstep
    · cases hstep
      exact hkept _ rfl
  | load l =>
    change (if _ then Except.ok _ else Except.error _) = _ at hstep
    split at hstep
    · cases hstep
      exact hkept _ rfl
    · cases hstep
  | store st =>
    change h.storeTo p (h.stored st) = _ at hstep
    unfold storeTo at hstep
    split at hstep
    · cases hstep
      exact hkept _ rfl
    · split at hstep
      · rename_i signal _
        cases hstep
        exact ⟨[signal], rfl⟩
      · cases hstep
  | fence =>
    cases hstep
    exact hkept _ rfl
  | environment => cases hstep

theorem signals_eq {g : Hart ε} (hstep : h.step p = .ok g) :
    g.signals = h.signals ++ h.emitted p := by
  obtain ⟨emitted, hsignals⟩ := signals_of_step hstep
  unfold Hart.emitted
  rw [hstep]
  change g.signals = h.signals ++ g.signals.drop h.signals.length
  rw [hsignals, List.drop_left]

end Hart

end Rv64i
