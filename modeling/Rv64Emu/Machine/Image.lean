import Rv64Emu.Machine.BusRouting
import Rv64Emu.Machine.Processor
import Rv64Emu.Library.ByteMemory
import Mathlib.Data.List.Find
import Mathlib.Data.List.Pairwise

/-! The bus of a program whose memories lie apart, as a function of the contents
of the addresses. Reads and writes on it are those of a byte-addressed memory,
within the range of one section. -/
namespace Rv64Emu

namespace Memory

/-- The address lies in the section, over the integers. -/
def Covers (m : Memory) (addr : MemAddress) : Prop :=
  m.base.toNat ≤ addr.toNat ∧ addr.toNat < m.base.toNat + m.size.toNat

/-- The `n` bytes from `addr` on lie in the section. -/
def CoversRange (m : Memory) (addr : MemAddress) (n : Nat) : Prop :=
  m.base.toNat ≤ addr.toNat ∧ addr.toNat + n ≤ m.base.toNat + m.size.toNat

instance (m : Memory) (addr : MemAddress) : Decidable (m.Covers addr) :=
  inferInstanceAs (Decidable (_ ∧ _))

instance (m : Memory) (addr : MemAddress) (n : Nat) : Decidable (m.CoversRange addr n) :=
  inferInstanceAs (Decidable (_ ∧ _))

/-- The section with the given contents. -/
def filled (m : Memory) (bytes : MemAddress → Byte) : Memory :=
  { m with
    data := (List.range m.size.toNat).map fun i => bytes (m.base + BitVec.ofNat 64 i)
    data_length := by simp }

theorem CoversRange.covers {m : Memory} {addr : MemAddress} {n : Nat} (h : m.CoversRange addr n)
    (hn : 0 < n) : m.Covers addr := by
  unfold CoversRange at h
  unfold Covers
  omega

theorem offset_eq {m : Memory} {addr : MemAddress} (hcovers : m.Covers addr) :
    m.offset addr = addr.toNat - m.base.toNat := by
  unfold Covers at hcovers
  unfold offset
  rw [BitVec.toNat_sub]
  omega

/-- The `i`-th byte from `addr` on, by its offset in the section. -/
theorem base_add_offset {m : Memory} {addr : MemAddress} (hcovers : m.Covers addr) (i : Nat) :
    m.base + BitVec.ofNat 64 (m.offset addr + i) = addr + BitVec.ofNat 64 i := by
  rw [offset_eq hcovers]
  unfold Covers at hcovers
  apply BitVec.eq_of_toNat_eq
  rw [BitVec.toNat_add, BitVec.toNat_add, BitVec.toNat_ofNat, BitVec.toNat_ofNat]
  omega

theorem getElem?_filled {m : Memory} (bytes : MemAddress → Byte) {i : Nat}
    (hi : i < m.size.toNat) :
    (m.filled bytes).data[i]? = some (bytes (m.base + BitVec.ofNat 64 i)) := by
  change ((List.range m.size.toNat).map _)[i]? = _
  rw [List.getElem?_map, List.getElem?_range hi, Option.map_some]

theorem inBounds_filled {m : Memory} {addr : MemAddress} (bytes : MemAddress → Byte)
    {width : Width} (hwidth : 0 < width.bytes) (hrange : m.CoversRange addr width.bytes) :
    (m.filled bytes).inBounds addr width := by
  have hoffset := offset_eq (hrange.covers hwidth)
  unfold CoversRange at hrange
  change m.offset addr + width.bytes ≤ (m.filled bytes).data.length
  rw [(m.filled bytes).data_length]
  change _ ≤ m.size.toNat
  omega

theorem eq_filled {m m' : Memory} {bytes : MemAddress → Byte} (hwrite : m'.mayWrite = m.mayWrite)
    (hbase : m'.base = m.base) (hsize : m'.size = m.size)
    (h : ∀ i < m.size.toNat, m'.data[i]? = some (bytes (m.base + BitVec.ofNat 64 i))) :
    m' = m.filled bytes := by
  have hdata : m'.data = (m.filled bytes).data := by
    apply List.ext_getElem?
    intro i
    by_cases hi : i < m.size.toNat
    · rw [h i hi, getElem?_filled bytes hi]
    · rw [List.getElem?_eq_none (by rw [m'.data_length, hsize]; omega),
        List.getElem?_eq_none (by rw [(m.filled bytes).data_length]; exact Nat.le_of_not_lt hi)]
  cases m'
  cases m
  cases hwrite
  cases hbase
  cases hsize
  cases hdata
  rfl

/-- Room for one more double word behind the section. -/
def Fits (m : Memory) : Prop := m.base.toNat + m.size.toNat + 8 ≤ 2 ^ 64

instance (m : Memory) : Decidable m.Fits := inferInstanceAs (Decidable (_ ≤ _))

section

variable {m : Memory} (hfits : m.Fits) {addr : MemAddress}

include hfits

theorem toNat_end : (m.base + m.size).toNat = m.base.toNat + m.size.toNat := by
  unfold Fits at hfits
  rw [BitVec.toNat_add, Nat.mod_eq_of_lt (by omega)]

theorem contains_iff : m.contains addr = true ↔ m.Covers addr := by
  unfold contains Covers
  rw [Bool.and_eq_true, decide_eq_true_eq, decide_eq_true_eq, BitVec.le_def, BitVec.lt_def,
    toNat_end hfits]

theorem covers_base_add {i : Nat} (hi : i < m.size.toNat) :
    m.Covers (m.base + BitVec.ofNat 64 i) := by
  unfold Fits at hfits
  unfold Covers
  rw [BitVec.toNat_add, BitVec.toNat_ofNat]
  omega

theorem canAccess_iff (hcovers : m.Covers addr) {n : Nat} (hn : n ≤ 8) (write : Bool) :
    m.canAccess addr n write = true ↔
      m.CoversRange addr n ∧ (write = true → m.mayWrite = true) := by
  have hend := toNat_end hfits
  obtain ⟨hlow, hhigh⟩ := hcovers
  rw [canAccess_iff_of_end hlow hhigh hend hn]
  refine and_congr_left fun _ => ?_
  unfold Fits at hfits
  unfold CoversRange
  omega

theorem readData_filled (bytes : MemAddress → Byte) {width : Width}
    (hrange : m.CoversRange addr width.bytes) :
    (m.filled bytes).readData width addr =
      .ok (BitVec.ofNat _ (LittleEndian.ofBytes (ByteMemory.loaded bytes addr width.bytes))) := by
  have hwidth : 0 < width.bytes ∧ width.bytes ≤ 8 := by cases width <;> decide
  have hcovers := hrange.covers hwidth.1
  have hcan : (m.filled bytes).canAccess addr width.bytes false = true :=
    (canAccess_iff (m := m.filled bytes) hfits hcovers hwidth.2 false).mpr
      ⟨hrange, fun h => absurd h (by decide)⟩
  have hin := inBounds_filled bytes hwidth.1 hrange
  have hslice : LittleEndian.slice (m.filled bytes).data (m.offset addr) width.bytes =
      ByteMemory.loaded bytes addr width.bytes :=
    LittleEndian.slice_eq_map _ fun i hi => by
      rw [← base_add_offset hcovers]
      refine getElem?_filled bytes ?_
      rw [offset_eq hcovers]
      unfold CoversRange at hrange
      omega
  unfold readData
  rw [hcan, if_pos hin]
  change Except.ok (BitVec.ofNat _ (LittleEndian.ofBytes (LittleEndian.slice
    (m.filled bytes).data (m.offset addr) width.bytes))) = _
  rw [hslice]

/-- The index in a store to `addr` of the `i`-th byte of the section. -/
theorem index_eq (hcovers : m.Covers addr) {i : Nat} (hi : i < m.size.toNat) {n : Nat}
    (hn : n ≤ 8) :
    (m.base + BitVec.ofNat 64 i - addr).toNat =
        (if m.offset addr ≤ i then i - m.offset addr else 2 ^ 64 - (m.offset addr - i)) ∧
      (i < m.offset addr → n ≤ 2 ^ 64 - (m.offset addr - i)) := by
  rw [offset_eq hcovers]
  unfold Fits at hfits
  unfold Covers at hcovers
  rw [BitVec.toNat_sub, BitVec.toNat_add, BitVec.toNat_ofNat]
  constructor
  · split <;> omega
  · omega

/-- A store within the section is a store on its contents. -/
theorem stored_filled (bytes : MemAddress → Byte) {width : Width}
    (hrange : m.CoversRange addr width.bytes) (value : width.Value)
    (hin : (m.filled bytes).inBounds addr width) :
    (m.filled bytes).stored width addr value hin =
      m.filled (ByteMemory.Store.apply ⟨addr, LittleEndian.toBytes width.bytes value⟩ bytes) := by
  have hwidth : 0 < width.bytes ∧ width.bytes ≤ 8 := by cases width <;> decide
  have hcovers := hrange.covers hwidth.1
  refine eq_filled rfl rfl rfl fun i hi => ?_
  have hlength : m.offset addr + (LittleEndian.toBytes width.bytes value).length ≤
      (m.filled bytes).data.length := by
    rw [LittleEndian.length_toBytes]
    exact hin
  obtain ⟨hindex, hbelow⟩ := index_eq hfits hcovers hi hwidth.2
  change (LittleEndian.splice (m.filled bytes).data (m.offset addr)
    (LittleEndian.toBytes width.bytes value))[i]? =
      some ((LittleEndian.toBytes width.bytes value)[(m.base + BitVec.ofNat 64 i - addr).toNat]?.getD
        (bytes (m.base + BitVec.ofNat 64 i)))
  rw [LittleEndian.getElem?_splice hlength, LittleEndian.length_toBytes, hindex]
  have hold := getElem?_filled bytes hi
  by_cases hlow : m.offset addr ≤ i
  · rw [if_pos hlow]
    by_cases hhigh : i < m.offset addr + width.bytes
    · rw [if_pos ⟨hlow, hhigh⟩, LittleEndian.getElem?_toBytes, if_pos (by omega)]
      rfl
    · rw [if_neg (fun h => hhigh h.2), hold, LittleEndian.getElem?_toBytes, if_neg (by omega)]
      rfl
  · rw [if_neg (fun h => hlow h.1), if_neg hlow, hold, LittleEndian.getElem?_toBytes,
      if_neg (by omega)]
    rfl

theorem writeData_filled (bytes : MemAddress → Byte) {width : Width}
    (hrange : m.CoversRange addr width.bytes) (hwrite : m.mayWrite = true)
    (value : width.Value) :
    (m.filled bytes).writeData width addr value =
      .ok (m.filled
        (ByteMemory.Store.apply ⟨addr, LittleEndian.toBytes width.bytes value⟩ bytes)) := by
  have hwidth : 0 < width.bytes ∧ width.bytes ≤ 8 := by cases width <;> decide
  have hcan : (m.filled bytes).canAccess addr width.bytes true = true :=
    (canAccess_iff (m := m.filled bytes) hfits (hrange.covers hwidth.1) hwidth.2 true).mpr
      ⟨hrange, fun _ => hwrite⟩
  have hin := inBounds_filled bytes hwidth.1 hrange
  exact writeData_ok_iff.mpr ⟨hcan, hin, (stored_filled hfits bytes hrange value hin).symm⟩

end

end Memory

/-- The sections of an image lie apart from each other and from the devices. -/
structure Program.Apart (program : Program) : Prop where
  fits : ∀ m ∈ program.memories, m.Fits
  disjoint : program.memories.Pairwise fun m m' => ∀ addr, ¬(m.Covers addr ∧ m'.Covers addr)
  serial : ∀ m ∈ program.memories, ¬m.Covers 0x200
  sysStatus : ∀ m ∈ program.memories, ∀ addr, m.Covers addr →
    ¬(0x270 ≤ addr.toNat ∧ addr.toNat < 0x280)

namespace Program

/-- The bytes that the sections hold at first; zero stands for no section. -/
def image (program : Program) (addr : MemAddress) : Byte :=
  match program.memories.find? fun m => m.Covers addr with
  | some m => m.data.getD (m.offset addr) 0
  | none => 0

def devices (halt : Bool) : Clients :=
  [.serial { base := 0x200 }, .sysStatus { base := 0x270, shouldHaltFlag := halt }]

/-- The bus clients when the sections hold the given bytes. -/
def clientsWith (program : Program) (bytes : MemAddress → Byte) (halt : Bool) : Clients :=
  program.memories.map (fun m => .memory (m.filled bytes)) ++ devices halt

variable {program : Program}

theorem shouldHalt_clientsWith (bytes : MemAddress → Byte) (halt : Bool) :
    (program.clientsWith bytes halt).shouldHalt = halt := by
  unfold clientsWith Clients.shouldHalt
  rw [List.any_append, List.any_map]
  simp [devices, Client.shouldHalt, Function.comp_def]

theorem Apart.eq_of_covers (hapart : program.Apart) {m m' : Memory} {addr : MemAddress}
    (hm : m ∈ program.memories) (hm' : m' ∈ program.memories) (h : m.Covers addr)
    (h' : m'.Covers addr) : m = m' := by
  by_contra hne
  have hsymm : Std.Symm fun m m' : Memory => ∀ addr, ¬(m.Covers addr ∧ m'.Covers addr) :=
    ⟨fun m m' h addr hboth => h addr ⟨hboth.2, hboth.1⟩⟩
  exact hapart.disjoint.forall hm hm' hne addr ⟨h, h'⟩

theorem find_covers (hapart : program.Apart) {m : Memory} {addr : MemAddress}
    (hm : m ∈ program.memories) (h : m.Covers addr) :
    program.memories.find? (fun m => m.Covers addr) = some m := by
  cases hfind : program.memories.find? fun m => m.Covers addr with
  | none => exact absurd (List.find?_eq_none.mp hfind m hm) (by simpa using h)
  | some m' =>
    have hm' := List.mem_of_find?_eq_some hfind
    have h' : m'.Covers addr := by simpa using List.find?_some hfind
    rw [hapart.eq_of_covers hm' hm h' h]

theorem clients_boot (hapart : program.Apart) (pipelining : Bool) (registers : Registers) :
    (Processor.boot program pipelining registers).bus.clients =
      program.clientsWith program.image false := by
  change (program.memories.map Client.memory ++ [_]) ++ [_] = _
  rw [List.append_assoc]
  refine congrArg (· ++ devices false) (List.map_congr_left fun m hm => ?_)
  refine congrArg Client.memory (Memory.eq_filled rfl rfl rfl fun i hi => ?_)
  have hcovers := Memory.covers_base_add (hapart.fits m hm) hi
  have hoffset : m.offset (m.base + BitVec.ofNat 64 i) = i := by
    unfold Memory.offset
    rw [BitVec.toNat_sub, BitVec.toNat_add, BitVec.toNat_ofNat]
    omega
  have hlength : i < m.data.length := by
    rw [m.data_length]
    exact hi
  unfold image
  rw [find_covers hapart hm hcovers]
  simp [hoffset, hlength]

/-- A store of at most eight bytes touches no section that its range avoids. -/
theorem filled_apply {m : Memory} (hfits : m.Fits) (bytes : MemAddress → Byte)
    {st : ByteMemory.Store 64} (h : ∀ addr, m.Covers addr →
      st.bytes.length ≤ (addr - st.addr).toNat) :
    m.filled bytes = m.filled (st.apply bytes) := by
  refine Memory.eq_filled rfl rfl rfl fun i hi => ?_
  rw [Memory.getElem?_filled bytes hi, ByteMemory.Store.apply_of_byteAt_eq_none
    (ByteMemory.Store.byteAt_eq_none (h _ (Memory.covers_base_add hfits hi)))]

/-- Within a range that does not wrap, the index of a byte is its distance. -/
theorem covers_of_index_lt {m : Memory} (hfits : m.Fits) {addr addr' : MemAddress} {n : Nat}
    (hrange : m.CoversRange addr n) (hn : (addr' - addr).toNat < n) : m.Covers addr' := by
  unfold Memory.Fits at hfits
  unfold Memory.CoversRange at hrange
  unfold Memory.Covers
  rw [BitVec.toNat_sub] at hn
  omega

theorem replaceClient_section {memories : List Memory} {bytes bytes' : MemAddress → Byte}
    {m : Memory} {addr : MemAddress} (devices : Clients)
    (hfits : ∀ m ∈ memories, m.Fits)
    (hdisjoint : memories.Pairwise fun m m' => ∀ addr, ¬(m.Covers addr ∧ m'.Covers addr))
    (hm : m ∈ memories) (hcovers : m.Covers addr)
    (hsame : ∀ m' ∈ memories, ¬m'.Covers addr → m'.filled bytes = m'.filled bytes') :
    Clients.replaceClient (memories.map (fun m => .memory (m.filled bytes)) ++ devices) addr
      (.memory (m.filled bytes')) =
        memories.map (fun m => .memory (m.filled bytes')) ++ devices := by
  induction memories with
  | nil => cases hm
  | cons m₀ memories ih =>
    rw [List.map_cons, List.map_cons, List.cons_append, List.cons_append]
    unfold Clients.replaceClient
    have hcontains : m₀.contains addr = true ↔ m₀.Covers addr :=
      Memory.contains_iff (hfits m₀ List.mem_cons_self)
    rw [List.pairwise_cons] at hdisjoint
    by_cases hcovers₀ : m₀.Covers addr
    · obtain rfl : m = m₀ := by
        cases hm with
        | head => rfl
        | tail _ hm => exact absurd ⟨hcovers₀, hcovers⟩ (hdisjoint.1 m hm addr)
      rw [if_pos (show Client.contains (.memory (m.filled bytes)) addr = true from
        hcontains.mpr hcovers₀)]
      refine congrArg (Client.memory (m.filled bytes') :: ·) (congrArg (· ++ devices) ?_)
      refine List.map_congr_left fun m' hm' => congrArg Client.memory ?_
      exact hsame m' (List.mem_cons_of_mem _ hm')
        fun hcovers' => hdisjoint.1 m' hm' addr ⟨hcovers, hcovers'⟩
    · have hm' : m ∈ memories := by
        cases hm with
        | head => exact absurd hcovers hcovers₀
        | tail _ hm => exact hm
      rw [if_neg (show ¬Client.contains (.memory (m₀.filled bytes)) addr = true from
        fun h => hcovers₀ (hcontains.mp h)), hsame m₀ List.mem_cons_self hcovers₀,
        ih (fun m hm => hfits m (List.mem_cons_of_mem _ hm)) hdisjoint.2 hm'
          fun m hm => hsame m (List.mem_cons_of_mem _ hm)]

theorem replaceClient_append {clients devices : Clients} {addr : MemAddress} (c : Client)
    (h : ∀ c ∈ clients, ¬c.contains addr = true) :
    Clients.replaceClient (clients ++ devices) addr c =
      clients ++ Clients.replaceClient devices addr c := by
  induction clients with
  | nil => rfl
  | cons c₀ clients ih =>
    rw [List.cons_append, Clients.replaceClient, if_neg (h c₀ List.mem_cons_self),
      ih fun c hc => h c (List.mem_cons_of_mem _ hc), List.cons_append]

/-- The only addresses at which a device accepts a write. -/
theorem write_devices {halt : Bool} {width : Width} {addr : MemAddress} {value : width.Value}
    {c c' : Client} (hfind : (devices halt).findClient addr = some c)
    (hwrite : c.write width addr value = .ok c') :
    (∃ halt', Clients.replaceClient (devices halt) addr c' = devices halt') ∧
      (addr = 0x200 ∧ width.bytes = 1 ∨ addr = 0x278 ∧ width.bytes ≤ 4) := by
  unfold devices at hfind ⊢
  rw [Clients.findClient_cons] at hfind
  unfold Clients.replaceClient
  by_cases hserial : Client.contains (.serial { base := 0x200 }) addr = true
  · rw [if_pos hserial] at hfind ⊢
    cases hfind
    change Client.serial <$> Serial.write { base := 0x200 } width addr value = .ok c' at hwrite
    unfold Serial.write at hwrite
    cases width with
    | byte =>
      simp only at hwrite
      split at hwrite
      · cases hwrite
      · rename_i haddr
        cases hwrite
        exact ⟨⟨halt, rfl⟩, .inl ⟨not_not.mp haddr, rfl⟩⟩
    | _ => cases hwrite
  · rw [if_neg hserial] at hfind ⊢
    rw [Clients.findClient_cons] at hfind
    unfold Clients.replaceClient
    by_cases hsys :
        Client.contains (.sysStatus { base := 0x270, shouldHaltFlag := halt }) addr = true
    · rw [if_pos hsys] at hfind ⊢
      cases hfind
      change Client.sysStatus <$> SysStatus.write _ width addr value = .ok c' at hwrite
      unfold SysStatus.write SysStatus.requestHalt at hwrite
      cases width with
      | byte | word =>
        simp only at hwrite
        split at hwrite
        · cases hwrite
        · rename_i haddr
          cases hwrite
          exact ⟨⟨true, rfl⟩, .inr ⟨not_not.mp haddr, by decide⟩⟩
      | _ => cases hwrite
    · rw [if_neg hsys] at hfind
      cases hfind

section

variable (hapart : program.Apart) (bytes : MemAddress → Byte) (halt : Bool) {addr : MemAddress}

include hapart

theorem findClient_covered {m : Memory} (hm : m ∈ program.memories) (hcovers : m.Covers addr) :
    (program.clientsWith bytes halt).findClient addr = some (.memory (m.filled bytes)) := by
  unfold clientsWith Clients.findClient
  rw [List.find?_append, List.find?_map]
  have hfind : program.memories.find?
      ((fun c : Client => c.contains addr) ∘ fun m => .memory (m.filled bytes)) = some m := by
    rw [← find_covers hapart hm hcovers]
    refine List.find?_congr fun m' hm' => ?_
    exact Bool.eq_iff_iff.mpr
      ((Memory.contains_iff (hapart.fits m' hm')).trans decide_eq_true_iff.symm)
  rw [hfind]
  rfl

theorem findClient_uncovered (h : ∀ m ∈ program.memories, ¬m.Covers addr) :
    (program.clientsWith bytes halt).findClient addr = (devices halt).findClient addr := by
  unfold clientsWith Clients.findClient
  rw [List.find?_append]
  have hfind : (program.memories.map fun m => Client.memory (m.filled bytes)).find?
      (fun c => c.contains addr) = none := by
    rw [List.find?_eq_none]
    intro c hc
    obtain ⟨m, hm, rfl⟩ := List.mem_map.mp hc
    exact fun hcontains => h m hm ((Memory.contains_iff (hapart.fits m hm)).mp hcontains)
  rw [hfind]
  rfl

/-- A read within a section delivers its bytes. -/
theorem read_inside {m : Memory} (hm : m ∈ program.memories) {width : Width}
    (hrange : m.CoversRange addr width.bytes) :
    (program.clientsWith bytes halt).read width addr =
      .ok (BitVec.ofNat _ (LittleEndian.ofBytes (ByteMemory.loaded bytes addr width.bytes))) := by
  have hwidth : 0 < width.bytes := by cases width <;> decide
  have hfind := findClient_covered hapart bytes halt hm (hrange.covers hwidth)
  unfold Clients.read Clients.getClient
  rw [hfind]
  exact Memory.readData_filled (hapart.fits m hm) bytes hrange

/-- Every other read is refused. -/
theorem read_outside {width : Width}
    (h : ∀ m ∈ program.memories, ¬m.CoversRange addr width.bytes) :
    ∃ fault, (program.clientsWith bytes halt).read width addr = .error (.illegalAccess fault) := by
  have hwidth : width.bytes ≤ 8 := by cases width <;> decide
  unfold Clients.read Clients.getClient
  by_cases hcovered : ∃ m ∈ program.memories, m.Covers addr
  · obtain ⟨m, hm, hcovers⟩ := hcovered
    have hcan : (m.filled bytes).canAccess addr width.bytes false = false := by
      rw [Bool.eq_false_iff]
      intro hcan
      exact h m hm ((Memory.canAccess_iff (m := m.filled bytes) (hapart.fits m hm) hcovers hwidth
        false).mp hcan).1
    rw [findClient_covered hapart bytes halt hm hcovers]
    refine ⟨.ofSize addr width.bytes, ?_⟩
    change (m.filled bytes).readData width addr = _
    unfold Memory.readData
    rw [hcan]
    rfl
  · rw [findClient_uncovered hapart bytes halt fun m hm hcovers => hcovered ⟨m, hm, hcovers⟩]
    unfold devices Clients.findClient
    rw [List.find?_cons, List.find?_cons]
    cases Client.contains (.serial { base := 0x200 }) addr with
    | true => exact ⟨_, rfl⟩
    | false =>
      cases Client.contains (.sysStatus { base := 0x270, shouldHaltFlag := halt }) addr with
      | true => exact ⟨_, rfl⟩
      | false => exact ⟨_, rfl⟩

/-- A write within a writable section stores its bytes. -/
theorem write_inside {m : Memory} (hm : m ∈ program.memories) {width : Width}
    (hrange : m.CoversRange addr width.bytes) (hwrite : m.mayWrite = true)
    (value : width.Value) :
    (program.clientsWith bytes halt).write width addr value =
      .ok (program.clientsWith
        (ByteMemory.Store.apply ⟨addr, LittleEndian.toBytes width.bytes value⟩ bytes) halt) := by
  have hwidth : 0 < width.bytes := by cases width <;> decide
  have hcovers := hrange.covers hwidth
  refine Clients.write_ok_iff.mpr ⟨_, .memory (m.filled (ByteMemory.Store.apply
    ⟨addr, LittleEndian.toBytes width.bytes value⟩ bytes)),
    findClient_covered hapart bytes halt hm hcovers, ?_, ?_⟩
  · change Client.memory <$> (m.filled bytes).writeData width addr value = _
    rw [Memory.writeData_filled (hapart.fits m hm) bytes hrange hwrite]
    rfl
  · refine (replaceClient_section (devices halt) hapart.fits hapart.disjoint hm hcovers
      fun m' hm' hcovers' => filled_apply (hapart.fits m' hm') bytes fun addr' haddr' => ?_).symm
    by_contra hlt
    rw [LittleEndian.length_toBytes] at hlt
    have haddr := covers_of_index_lt (hapart.fits m hm) hrange (Nat.lt_of_not_le hlt)
    obtain rfl := hapart.eq_of_covers hm hm' haddr haddr'
    exact hcovers' hcovers

/-- A write that starts in a section and leaves it, or may not write, is refused. -/
theorem write_refused {m : Memory} (hm : m ∈ program.memories) (hcovers : m.Covers addr)
    {width : Width} (h : ¬(m.CoversRange addr width.bytes ∧ m.mayWrite = true))
    (value : width.Value) :
    ∃ fault, (program.clientsWith bytes halt).write width addr value =
      .error (.illegalAccess fault) := by
  have hwidth : width.bytes ≤ 8 := by cases width <;> decide
  have hcan : (m.filled bytes).canAccess addr width.bytes true = false := by
    rw [Bool.eq_false_iff]
    intro hcan
    obtain ⟨hrange, hwrite⟩ := (Memory.canAccess_iff (m := m.filled bytes) (hapart.fits m hm)
      hcovers hwidth true).mp hcan
    exact h ⟨hrange, hwrite rfl⟩
  refine ⟨.ofSize addr width.bytes, ?_⟩
  unfold Clients.write Clients.getClient
  rw [findClient_covered hapart bytes halt hm hcovers]
  change (Client.memory <$> (m.filled bytes).writeData width addr value >>= fun _ => _) = _
  unfold Memory.writeData
  rw [hcan]
  rfl

/-- A write to a device changes no section. -/
theorem write_device (h : ∀ m ∈ program.memories, ¬m.Covers addr) {width : Width}
    {value : width.Value} {clients : Clients}
    (hwrite : (program.clientsWith bytes halt).write width addr value = .ok clients) :
    ∃ halt', clients = program.clientsWith
      (ByteMemory.Store.apply ⟨addr, LittleEndian.toBytes width.bytes value⟩ bytes) halt' := by
  obtain ⟨c, c', hfind, hclient, rfl⟩ := Clients.write_ok_iff.mp hwrite
  rw [findClient_uncovered hapart bytes halt h] at hfind
  obtain ⟨⟨halt', hdevices⟩, haddr⟩ := write_devices hfind hclient
  refine ⟨halt', ?_⟩
  have hsections : ∀ c ∈ program.memories.map fun m => Client.memory (m.filled bytes),
      ¬c.contains addr = true := by
    intro c hc
    obtain ⟨m, hm, rfl⟩ := List.mem_map.mp hc
    exact fun hcontains => h m hm ((Memory.contains_iff (hapart.fits m hm)).mp hcontains)
  unfold clientsWith
  rw [replaceClient_append c' hsections, hdevices]
  refine congrArg (· ++ devices halt') (List.map_congr_left fun m hm => congrArg Client.memory ?_)
  refine filled_apply (hapart.fits m hm) bytes fun addr' haddr' => ?_
  rw [LittleEndian.length_toBytes]
  by_contra hlt
  have hindex : (addr' - addr).toNat < width.bytes := Nat.lt_of_not_le hlt
  rw [BitVec.toNat_sub] at hindex
  obtain ⟨haddr, hbytes⟩ | ⟨haddr, hbytes⟩ := haddr
  · have haddr₀ : addr' = 0x200 := by
      apply BitVec.eq_of_toNat_eq
      rw [haddr, hbytes] at hindex
      change _ = 0x200
      change (2 ^ 64 - 0x200 + addr'.toNat) % 2 ^ 64 < 1 at hindex
      omega
    exact hapart.serial m hm (haddr₀ ▸ haddr')
  · refine hapart.sysStatus m hm addr' haddr' ?_
    rw [haddr] at hindex
    change (2 ^ 64 - 0x278 + addr'.toNat) % 2 ^ 64 < width.bytes at hindex
    omega

end

end Program

end Rv64Emu
