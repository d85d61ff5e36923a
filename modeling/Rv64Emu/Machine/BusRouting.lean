import Rv64Emu.Machine.StageSpecs

/-! What a store leaves of the bus: every client keeps its address range, and
the clients that do not contain the address keep their contents. -/
namespace Rv64Emu

/-- The only way for a store to go well. -/
theorem Memory.writeData_ok_iff {m m' : Memory} {width : Width} {addr : MemAddress}
    {value : width.Value} :
    m.writeData width addr value = .ok m' ↔ m.canAccess addr width.bytes true = true ∧
      ∃ h : m.inBounds addr width, m' = m.stored width addr value h := by
  unfold writeData
  cases hcan : m.canAccess addr width.bytes true with
  | false => simp
  | true =>
    simp only [Bool.not_true, Bool.false_eq_true, if_false, true_and]
    by_cases hin : m.inBounds addr width
    · rw [dif_pos hin]
      constructor
      · intro h
        exact ⟨hin, (Except.ok.inj h).symm⟩
      · rintro ⟨-, rfl⟩
        rfl
    · rw [dif_neg hin]
      simp [hin]

/-- What was stored is read back. -/
theorem Memory.readData_stored {m : Memory} {width : Width} {addr : MemAddress}
    (value : width.Value) (hin : m.inBounds addr width)
    (hcan : m.canAccess addr width.bytes false = true) :
    (m.stored width addr value hin).readData width addr = .ok value := by
  have hbytes : m.offset addr + (LittleEndian.toBytes width.bytes value).length ≤
      m.data.length := by
    rw [LittleEndian.length_toBytes]
    exact hin
  have hread := LittleEndian.slice_splice_self hbytes
  rw [LittleEndian.length_toBytes] at hread
  have hcan' : (m.stored width addr value hin).canAccess addr width.bytes false = true := hcan
  have hin' : (m.stored width addr value hin).inBounds addr width := by
    change m.offset addr + width.bytes ≤ (LittleEndian.splice _ _ _).length
    rw [LittleEndian.length_splice hbytes]
    exact hin
  unfold readData
  rw [hcan', if_neg (by decide), if_pos hin']
  change Except.ok (BitVec.ofNat (8 * width.bytes) (LittleEndian.ofBytes
    (LittleEndian.slice (LittleEndian.splice m.data (m.offset addr) _) (m.offset addr) _))) = _
  rw [hread, LittleEndian.ofNat_ofBytes_toBytes]

/-- What is apart from a store in the same memory is not changed by it. -/
theorem Memory.readData_stored_of_disjoint {m : Memory} {width width' : Width}
    {addr addr' : MemAddress} (value : width.Value) (hin : m.inBounds addr width)
    (hdisjoint : m.offset addr' + width'.bytes ≤ m.offset addr ∨
      m.offset addr + width.bytes ≤ m.offset addr') :
    (m.stored width addr value hin).readData width' addr' = m.readData width' addr' := by
  have hbytes : m.offset addr + (LittleEndian.toBytes width.bytes value).length ≤
      m.data.length := by
    rw [LittleEndian.length_toBytes]
    exact hin
  have hread : LittleEndian.slice (m.stored width addr value hin).data
      ((m.stored width addr value hin).offset addr') width'.bytes =
      LittleEndian.slice m.data (m.offset addr') width'.bytes := by
    refine LittleEndian.slice_splice_of_disjoint hbytes ?_
    rw [LittleEndian.length_toBytes]
    exact hdisjoint
  have hlength : (m.stored width addr value hin).data.length = m.data.length :=
    LittleEndian.length_splice hbytes
  have hin' : (m.stored width addr value hin).inBounds addr' width' ↔ m.inBounds addr' width' := by
    unfold inBounds
    rw [hlength]
    rfl
  unfold readData
  simp only [hin', hread]
  rfl

theorem Memory.mayWrite_of_canAccess {m : Memory} {addr : MemAddress} {size : Nat}
    (h : m.canAccess addr size true = true) : m.mayWrite = true := by
  unfold canAccess at h
  split at h
  · cases h
  · cases hwrite : m.mayWrite with
    | true => rfl
    | false => simp [hwrite] at h

/-- The checks over the integers, for an address in a memory that ends below
2^64. An access that wraps passes the check of its end. -/
theorem Memory.canAccess_iff_of_end {m : Memory} {addr : MemAddress} {n : Nat}
    (hlow : m.base.toNat ≤ addr.toNat) (hhigh : addr.toNat < m.base.toNat + m.size.toNat)
    (hend : (m.base + m.size).toNat = m.base.toNat + m.size.toNat) (hn : n ≤ 8) (write : Bool) :
    m.canAccess addr n write = true ↔
      (addr.toNat + n ≤ m.base.toNat + m.size.toNat ∨ 2 ^ 64 ≤ addr.toNat + n) ∧
        (write = true → m.mayWrite = true) := by
  have haddr := addr.isLt
  have hcheck : (addr < m.base ∨ addr + BitVec.ofNat 64 n > m.base + m.size) ↔
      ¬(addr.toNat + n ≤ m.base.toNat + m.size.toNat ∨ 2 ^ 64 ≤ addr.toNat + n) := by
    rw [gt_iff_lt, BitVec.lt_def, BitVec.lt_def, hend]
    by_cases hwraps : addr.toNat + n < 2 ^ 64
    · rw [toNat_add_ofNat hwraps]
      omega
    · rw [BitVec.toNat_add, BitVec.toNat_ofNat, Nat.mod_eq_of_lt (show n < 2 ^ 64 by omega),
        Nat.mod_eq_sub_mod (by omega), Nat.mod_eq_of_lt (by omega)]
      omega
  have hgate : ∀ write mayWrite : Bool,
      (if write && !mayWrite then false else true) = true ↔ (write = true → mayWrite = true) := by
    decide
  unfold canAccess
  by_cases hrange : addr.toNat + n ≤ m.base.toNat + m.size.toNat ∨ 2 ^ 64 ≤ addr.toNat + n
  · rw [if_neg fun hreject => hcheck.mp hreject hrange, hgate]
    exact ⟨fun hwrite => ⟨hrange, hwrite⟩, And.right⟩
  · rw [if_pos (hcheck.mpr hrange)]
    exact ⟨nofun, fun haccess => absurd haccess.1 hrange⟩

namespace Client

/-- The three kinds of clients after an accepted write. -/
theorem write_ok_cases {c c' : Client} {width : Width} {addr : MemAddress}
    {value : width.Value} (h : c.write width addr value = .ok c') :
    (∃ m m', c = .memory m ∧ c' = .memory m' ∧ m.writeData width addr value = .ok m') ∨
      (∃ d, c = .serial d ∧ c' = .serial d) ∨
      ∃ d, c = .sysStatus d ∧ c' = .sysStatus { d with shouldHaltFlag := true } := by
  cases c with
  | memory m =>
    refine .inl ?_
    change Client.memory <$> m.writeData width addr value = .ok c' at h
    cases hwrite : m.writeData width addr value with
    | error e =>
      rw [hwrite] at h
      cases h
    | ok m' =>
      rw [hwrite] at h
      cases h
      exact ⟨m, m', rfl, rfl, hwrite⟩
  | serial d =>
    refine .inr (.inl ⟨d, rfl, ?_⟩)
    change Client.serial <$> d.write width addr value = .ok c' at h
    unfold Serial.write at h
    cases width with
    | byte =>
      simp only at h
      split at h
      · cases h
      · cases h
        rfl
    | _ => cases h
  | sysStatus d =>
    refine .inr (.inr ⟨d, rfl, ?_⟩)
    change Client.sysStatus <$> d.write width addr value = .ok c' at h
    unfold SysStatus.write SysStatus.requestHalt at h
    cases width with
    | byte =>
      simp only at h
      split at h
      · cases h
      · cases h
        rfl
    | word =>
      simp only at h
      split at h
      · cases h
      · cases h
        rfl
    | _ => cases h

theorem contains_write {c c' : Client} {width : Width} {addr : MemAddress}
    {value : width.Value} (h : c.write width addr value = .ok c') : c'.contains = c.contains := by
  obtain ⟨m, m', rfl, rfl, hwrite⟩ | ⟨d, rfl, rfl⟩ | ⟨d, rfl, rfl⟩ := write_ok_cases h
  · obtain ⟨-, hin, rfl⟩ := Memory.writeData_ok_iff.mp hwrite
    rfl
  · rfl
  · rfl

end Client

namespace Clients

theorem write_ok_iff {clients clients' : Clients} {width : Width} {addr : MemAddress}
    {value : width.Value} :
    clients.write width addr value = .ok clients' ↔ ∃ c c', clients.findClient addr = some c ∧
      c.write width addr value = .ok c' ∧ clients' = clients.replaceClient addr c' := by
  unfold write getClient
  cases clients.findClient addr with
  | none => simp [bind, Except.bind]
  | some c =>
    cases hwrite : c.write width addr value with
    | error e => simp [bind, Except.bind, hwrite]
    | ok c' =>
      simp only [bind, Except.bind, hwrite, pure, Except.pure, Except.ok.injEq, Option.some.injEq]
      constructor
      · rintro rfl
        exact ⟨c, c', rfl, hwrite, rfl⟩
      · rintro ⟨c₀, c₀', rfl, hwrite', rfl⟩
        rw [hwrite] at hwrite'
        cases hwrite'
        rfl

theorem read_of_memory {clients : Clients} {m : Memory} {addr : MemAddress} (width : Width)
    (h : clients.findClient addr = some (.memory m)) :
    clients.read width addr = m.readData width addr := by
  unfold read getClient
  rw [h]
  rfl

theorem findClient_cons (c : Client) (cs : Clients) (addr : MemAddress) :
    findClient (c :: cs) addr = if c.contains addr then some c else findClient cs addr := by
  unfold findClient
  rw [List.find?_cons]
  cases c.contains addr <;> rfl

/-- A replacement with the same range changes no client's range. -/
theorem map_contains_replaceClient {clients : Clients} {addr : MemAddress} {c c' : Client}
    (hfind : clients.findClient addr = some c) (hc : c'.contains = c.contains) :
    (clients.replaceClient addr c').map Client.contains = clients.map Client.contains := by
  induction clients with
  | nil => cases hfind
  | cons d ds ih =>
    rw [findClient_cons] at hfind
    unfold replaceClient
    by_cases hd : d.contains addr = true
    · rw [if_pos hd] at hfind ⊢
      cases hfind
      rw [List.map_cons, List.map_cons, hc]
    · rw [if_neg hd] at hfind ⊢
      rw [List.map_cons, List.map_cons, ih hfind]

theorem map_contains_write {clients clients' : Clients} {width : Width} {addr : MemAddress}
    {value : width.Value} (h : clients.write width addr value = .ok clients') :
    clients'.map Client.contains = clients.map Client.contains := by
  obtain ⟨c, c', hfind, hwrite, rfl⟩ := write_ok_iff.mp h
  exact map_contains_replaceClient hfind (Client.contains_write hwrite)

/-- No client contains the address. -/
def Uncovered (clients : Clients) (addr : MemAddress) : Prop :=
  clients.findClient addr = none

theorem uncovered_iff {clients : Clients} {addr : MemAddress} :
    clients.Uncovered addr ↔ ∀ range ∈ clients.map Client.contains, range addr = false := by
  unfold Uncovered findClient
  simp [List.find?_eq_none]

theorem uncovered_write {clients clients' : Clients} {width : Width} {addr at' : MemAddress}
    {value : width.Value} (h : clients.write width addr value = .ok clients')
    (hnone : clients.Uncovered at') : clients'.Uncovered at' := by
  rw [uncovered_iff] at hnone ⊢
  rw [map_contains_write h]
  exact hnone

theorem read_of_uncovered {clients : Clients} {addr : MemAddress} (width : Width)
    (h : clients.Uncovered addr) :
    clients.read width addr = .error (.illegalAccess (.at addr)) := by
  unfold read getClient
  rw [show clients.findClient addr = none from h]
  rfl

theorem findClient_replaceClient_self {clients : Clients} {addr : MemAddress} {c c' : Client}
    (hfind : clients.findClient addr = some c) (hc : c'.contains = c.contains) :
    (clients.replaceClient addr c').findClient addr = some c' := by
  induction clients with
  | nil => cases hfind
  | cons d ds ih =>
    unfold replaceClient
    rw [findClient_cons] at hfind
    by_cases hd : d.contains addr = true
    · rw [if_pos hd] at hfind ⊢
      cases hfind
      rw [findClient_cons, hc, if_pos hd]
    · rw [if_neg hd] at hfind ⊢
      rw [findClient_cons, if_neg hd]
      exact ih hfind

theorem shouldHalt_replaceClient {clients : Clients} {addr : MemAddress} {c c' : Client}
    (hfind : clients.findClient addr = some c) (hhalt : c'.shouldHalt = c.shouldHalt) :
    (clients.replaceClient addr c').shouldHalt = clients.shouldHalt := by
  unfold shouldHalt
  induction clients with
  | nil => cases hfind
  | cons d ds ih =>
    unfold replaceClient
    rw [findClient_cons] at hfind
    by_cases hd : d.contains addr = true
    · rw [if_pos hd] at hfind ⊢
      cases hfind
      rw [List.any_cons, List.any_cons, hhalt]
    · rw [if_neg hd] at hfind ⊢
      rw [List.any_cons, List.any_cons, ih hfind]

/-- The client that serves an address is replaced only by the result of its own write. -/
theorem findClient_replaceClient {clients : Clients} {addr at' : MemAddress} {c c' : Client}
    (hfind : clients.findClient at' = some c) (hc : c'.contains = c.contains) :
    (clients.replaceClient at' c').findClient addr = clients.findClient addr ∨
      clients.findClient addr = some c ∧
        (clients.replaceClient at' c').findClient addr = some c' := by
  induction clients with
  | nil => cases hfind
  | cons d ds ih =>
    unfold replaceClient
    rw [findClient_cons] at hfind
    by_cases hd : d.contains at' = true
    · rw [if_pos hd] at hfind ⊢
      cases hfind
      rw [findClient_cons, findClient_cons, hc]
      by_cases haddr : c.contains addr = true
      · rw [if_pos haddr, if_pos haddr]
        exact .inr ⟨rfl, rfl⟩
      · rw [if_neg haddr, if_neg haddr]
        exact .inl rfl
    · rw [if_neg hd] at hfind ⊢
      rw [findClient_cons, findClient_cons]
      by_cases haddr : d.contains addr = true
      · rw [if_pos haddr, if_pos haddr]
        exact .inl rfl
      · rw [if_neg haddr, if_neg haddr]
        exact ih hfind

/-- The address is not served by a memory that accepts stores. -/
def ReadOnlyAt (clients : Clients) (addr : MemAddress) : Prop :=
  ∀ m, clients.findClient addr = some (.memory m) → m.mayWrite = false

section

variable {clients clients' : Clients} {width : Width} {at' : MemAddress} {value : width.Value}
  (h : clients.write width at' value = .ok clients') {addr : MemAddress}
  (hreadOnly : clients.ReadOnlyAt addr)

include h hreadOnly

/-- A store replaces what serves a read-only address by a device of the same kind at most. -/
theorem findClient_write_of_readOnly :
    clients'.findClient addr = clients.findClient addr ∨
      ∃ d, clients.findClient addr = some (.sysStatus d) ∧
        clients'.findClient addr = some (.sysStatus { d with shouldHaltFlag := true }) := by
  obtain ⟨c, c', hfind, hwrite, rfl⟩ := write_ok_iff.mp h
  obtain hsame | ⟨haddr, hnew⟩ := findClient_replaceClient hfind (Client.contains_write hwrite)
  · exact .inl hsame
  · obtain ⟨m, m', rfl, rfl, hmemory⟩ | ⟨d, rfl, rfl⟩ | ⟨d, rfl, rfl⟩ :=
      Client.write_ok_cases hwrite
    · obtain ⟨hcan, -⟩ := Memory.writeData_ok_iff.mp hmemory
      cases (hreadOnly m haddr).symm.trans (Memory.mayWrite_of_canAccess hcan)
    · exact .inl (hnew.trans haddr.symm)
    · exact .inr ⟨d, haddr, hnew⟩

theorem readOnlyAt_write : clients'.ReadOnlyAt addr := by
  intro m hm
  obtain hsame | ⟨d, -, hnew⟩ := findClient_write_of_readOnly h hreadOnly
  · exact hreadOnly m (hsame.symm.trans hm)
  · cases hm.symm.trans hnew

theorem read_write_of_readOnly (width' : Width) :
    clients'.read width' addr = clients.read width' addr := by
  unfold read getClient
  obtain hsame | ⟨d, hold, hnew⟩ := findClient_write_of_readOnly h hreadOnly
  · rw [hsame]
  · rw [hold, hnew]
    rfl

end

/-- A store goes through the bus or does nothing. -/
theorem storeData_ok_cases {clients clients' : Clients} {size : BitVec 8} {addr : MemAddress}
    {value : RegValue} (h : clients.storeData size addr value = .ok clients') :
    ∃ width, Width.ofSize size = some width ∧
      clients.write width addr (value.setWidth _) = .ok clients' := by
  unfold storeData at h
  cases hsize : Width.ofSize size with
  | none =>
    rw [hsize] at h
    cases h
  | some width =>
    rw [hsize] at h
    exact ⟨width, rfl, h⟩

end Clients

end Rv64Emu
