import Rv64Emu.Machine.BusRouting

/-! The bounds checks of a memory over the integers. The sum that delimits the
memory cannot wrap once the bus has found the memory by it; the sum that
delimits the access can. -/
namespace Rv64Emu.MemoryBounds

/-- The client refuses the access. -/
def Rejected (r : Except Exception α) : Prop := ∃ fault, r = .error (.illegalAccess fault)

/-- Only offsets in the range of the memory are touched. -/
def Within (m : Memory) (width : Width) (addr : MemAddress) : Prop :=
  0 ≤ (addr.toNat : Int) - m.base.toNat ∧
    (addr.toNat : Int) - m.base.toNat + width.bytes ≤ m.size.toNat

/-- A read that reaches the memory and is not refused is within its range. -/
def ReadSafe (clients : Clients) (m : Memory) (width : Width) (addr : MemAddress) : Prop :=
  clients.findClient addr = some (.memory m) → ¬Rejected (clients.read width addr) →
    Within m width addr

/-- The same for a write. -/
def WriteSafe (clients : Clients) (m : Memory) (width : Width) (addr : MemAddress)
    (value : width.Value) : Prop :=
  clients.findClient addr = some (.memory m) → ¬Rejected (clients.write width addr value) →
    Within m width addr

section

variable {m : Memory} {width : Width} {addr : MemAddress}

/-- A memory that contains an address ends below 2^64. -/
theorem toNat_of_contains (h : m.contains addr = true) :
    m.base.toNat ≤ addr.toNat ∧ addr.toNat < m.base.toNat + m.size.toNat ∧
      (m.base + m.size).toNat = m.base.toNat + m.size.toNat := by
  unfold Memory.contains at h
  rw [Bool.and_eq_true, decide_eq_true_eq, decide_eq_true_eq, BitVec.le_def, BitVec.lt_def,
    BitVec.toNat_add] at h
  obtain ⟨hlow, hhigh⟩ := h
  have hbase := m.base.isLt
  have hsize := m.size.isLt
  rw [BitVec.toNat_add]
  by_cases hwraps : m.base.toNat + m.size.toNat < 2 ^ 64
  · rw [Nat.mod_eq_of_lt hwraps] at hhigh ⊢
    exact ⟨hlow, hhigh, rfl⟩
  · -- The wrapped end lies below the base.
    rw [Nat.mod_eq_sub_mod (by omega), Nat.mod_eq_of_lt (by omega)] at hhigh
    omega

theorem bytes_le (width : Width) : 1 ≤ width.bytes ∧ width.bytes ≤ 8 := by
  cases width <;> decide

/-- Whether the access wraps decides whether it is within the range; a wrapped
one passes the check of its end. -/
theorem canAccess_iff (h : m.contains addr = true) (write : Bool) :
    m.canAccess addr width.bytes write = true ↔
      (Within m width addr ∨ 2 ^ 64 ≤ addr.toNat + width.bytes) ∧
        (write = true → m.mayWrite = true) := by
  obtain ⟨hlow, hhigh, hend⟩ := toNat_of_contains h
  obtain ⟨-, hbytes⟩ := bytes_le width
  rw [Memory.canAccess_iff_of_end hlow hhigh hend hbytes]
  refine and_congr_left fun _ => or_congr_left ?_
  unfold Within
  omega

/-- A memory refuses what fails its check. -/
theorem rejected_readData_iff :
    Rejected (m.readData width addr) ↔ m.canAccess addr width.bytes false = false := by
  unfold Memory.readData Rejected
  cases m.canAccess addr width.bytes false with
  | false => simp
  | true =>
    by_cases hin : m.inBounds addr width
    · simp [hin]
    · simp [hin]

theorem rejected_writeData_iff (value : width.Value) :
    Rejected (m.writeData width addr value) ↔ m.canAccess addr width.bytes true = false := by
  unfold Memory.writeData Rejected
  cases m.canAccess addr width.bytes true with
  | false => simp
  | true =>
    by_cases hin : m.inBounds addr width
    · simp [hin]
    · simp [hin]

/-- An access that wraps leaves the range. -/
theorem lt_of_within (h : m.contains addr = true) (hin : Within m width addr) :
    addr.toNat + width.bytes < 2 ^ 64 := by
  obtain ⟨hlow, hhigh, hend⟩ := toNat_of_contains h
  have hlimit := (m.base + m.size).isLt
  unfold Within at hin
  omega

end

section

variable {clients : Clients} {m : Memory} {width : Width} {addr : MemAddress}
  (hroute : clients.findClient addr = some (.memory m))

include hroute

theorem contains_of_route : m.contains addr = true :=
  List.find?_some (p := fun c : Client => c.contains addr) hroute

theorem rejected_read_iff :
    Rejected (clients.read width addr) ↔ m.canAccess addr width.bytes false = false := by
  rw [Clients.read_of_memory width hroute]
  exact rejected_readData_iff

theorem rejected_write_iff (value : width.Value) :
    Rejected (clients.write width addr value) ↔
      m.canAccess addr width.bytes true = false := by
  have hwrite : clients.write width addr value =
      (m.writeData width addr value).map fun m' => clients.replaceClient addr (.memory m') := by
    unfold Clients.write Clients.getClient
    rw [hroute]
    change (Client.memory <$> m.writeData width addr value) >>= _ = _
    cases m.writeData width addr value <;> rfl
  rw [hwrite, ← rejected_writeData_iff value]
  unfold Rejected
  cases m.writeData width addr value <;> simp [Except.map]

/-- The accesses that the wrapped end lets through. -/
theorem safe_iff (value : width.Value) :
    (ReadSafe clients m width addr ↔ addr.toNat + width.bytes < 2 ^ 64) ∧
      (WriteSafe clients m width addr value ↔
        addr.toNat + width.bytes < 2 ^ 64 ∨ m.mayWrite = false) := by
  have hcontains := contains_of_route hroute
  unfold ReadSafe WriteSafe
  rw [rejected_read_iff hroute, rejected_write_iff hroute, Bool.not_eq_false, Bool.not_eq_false,
    canAccess_iff hcontains, canAccess_iff hcontains]
  have hwraps : Within m width addr → addr.toNat + width.bytes < 2 ^ 64 :=
    lt_of_within hcontains
  constructor
  · constructor
    · intro hsafe
      by_contra hwrap
      exact hwrap (hwraps (hsafe hroute ⟨.inr (by omega), nofun⟩))
    · rintro hlt - ⟨hin | hwrap, -⟩
      · exact hin
      · omega
  · constructor
    · intro hsafe
      cases hmay : m.mayWrite with
      | false => exact .inr rfl
      | true =>
        refine .inl ?_
        by_contra hwrap
        exact hwrap (hwraps (hsafe hroute ⟨.inr (by omega), fun _ => hmay⟩))
    · rintro hcase - ⟨hin | hwrap, hgate⟩
      · exact hin
      · obtain hlt | hreadOnly := hcase
        · omega
        · rw [hreadOnly] at hgate
          exact absurd (hgate rfl) (by decide)

end

/-- Eight bytes that end four below 2^64. -/
def high : Memory :=
  { mayWrite := true
    base := 0xfffffffffffffff4
    size := 8
    data := List.replicate 8 0
    data_length := by decide }

/-- A double word that starts at offset 4 and wraps is read. -/
theorem high_leaks : ¬∀ (clients : Clients) (m : Memory) (width : Width) (addr : MemAddress),
    ReadSafe clients m width addr := by
  intro h
  obtain ⟨-, hend⟩ := h [.memory high] high .doubleWord 0xfffffffffffffff8 (by decide +kernel) (by
    rw [rejected_read_iff (show Clients.findClient [.memory high] _ = some (.memory high) by
      decide +kernel)]
    decide +kernel)
  revert hend
  decide +kernel

theorem safe_iff_high : (ReadSafe [.memory high] high .word 0xfffffffffffffff8 ↔
      (0xfffffffffffffff8 : MemAddress).toNat + Width.word.bytes < 2 ^ 64) ∧
    (WriteSafe [.memory high] high .word 0xfffffffffffffff8 0 ↔
      (0xfffffffffffffff8 : MemAddress).toNat + Width.word.bytes < 2 ^ 64 ∨
        high.mayWrite = false) :=
  safe_iff (by decide +kernel) 0

end Rv64Emu.MemoryBounds
