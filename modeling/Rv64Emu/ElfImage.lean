import Rv64Emu.Frontend.Sections
import Rv64Emu.Machine.Image
import Rv64Emu.MemoryBounds

/-! The image of an ELF file against the memories that the loader makes of it.
The contents of a section are copied only if its type is `SHT_PROGBITS`, though
every type but `SHT_NOBITS` has them. -/
namespace Rv64Emu

namespace Memory

variable {m : Memory} {addr : MemAddress}

/-- A byte access to a memory that contains the address is within its range. -/
theorem canAccess_byte (h : m.contains addr = true) (write : Bool) :
    m.canAccess addr Width.byte.bytes write = true ↔ (write = true → m.mayWrite = true) := by
  refine (MemoryBounds.canAccess_iff h write).trans (and_iff_right (.inl ?_))
  obtain ⟨hlow, hhigh, -⟩ := MemoryBounds.toNat_of_contains h
  change 0 ≤ (addr.toNat : Int) - m.base.toNat ∧
    (addr.toNat : Int) - m.base.toNat + (1 : Nat) ≤ m.size.toNat
  omega

theorem offset_lt_of_contains (h : m.contains addr = true) : m.offset addr < m.data.length := by
  obtain ⟨hlow, hhigh, -⟩ := MemoryBounds.toNat_of_contains h
  rw [offset_eq ⟨hlow, hhigh⟩, m.data_length]
  omega

theorem readData_byte (h : m.contains addr = true) :
    m.readData .byte addr = .ok (m.data.getD (m.offset addr) 0) := by
  have hcan : m.canAccess addr Width.byte.bytes false = true := (canAccess_byte h false).mpr nofun
  have hlt := offset_lt_of_contains h
  have hin : m.inBounds addr .byte := hlt
  have hslice : LittleEndian.slice m.data (m.offset addr) 1 = [m.data[m.offset addr]] := by
    unfold LittleEndian.slice
    rw [List.drop_eq_getElem_cons hlt, List.take_succ_cons, List.take_zero]
    rfl
  unfold readData
  rw [hcan, if_neg (by decide), if_pos hin]
  change Except.ok (BitVec.ofNat 8 (LittleEndian.ofBytes
    (LittleEndian.slice m.data (m.offset addr) 1))) = _
  rw [hslice, List.getD_eq_getElem?_getD, List.getElem?_eq_getElem hlt, Option.getD_some]
  change Except.ok (BitVec.ofNat 8 ((m.data[m.offset addr]).toNat + 256 * 0)) = _
  rw [Nat.mul_zero, Nat.add_zero, BitVec.ofNat_toNat, BitVec.setWidth_eq]
  rfl

theorem writeData_byte_iff (h : m.contains addr = true) (value : Width.byte.Value) :
    (∃ m', m.writeData .byte addr value = .ok m') ↔ m.mayWrite = true := by
  constructor
  · rintro ⟨m', hwrite⟩
    exact mayWrite_of_canAccess (writeData_ok_iff.mp hwrite).1
  · intro hmay
    exact ⟨_, writeData_ok_iff.mpr
      ⟨(canAccess_byte h true).mpr fun _ => hmay, offset_lt_of_contains h, rfl⟩⟩

end Memory

namespace Clients

theorem write_of_memory_iff {clients : Clients} {m : Memory} {width : Width} {addr : MemAddress}
    {value : width.Value} (h : clients.findClient addr = some (.memory m)) :
    (∃ clients', clients.write width addr value = .ok clients') ↔
      ∃ m', m.writeData width addr value = .ok m' := by
  constructor
  · rintro ⟨clients', hwrite⟩
    obtain ⟨c, c', hfind, hc, -⟩ := write_ok_iff.mp hwrite
    cases h.symm.trans hfind
    obtain ⟨m₀, m', hm, -, hdata⟩ | ⟨d, hd, -⟩ | ⟨d, hd, -⟩ := Client.write_ok_cases hc
    · cases hm
      exact ⟨m', hdata⟩
    · cases hd
    · cases hd
  · rintro ⟨m', hdata⟩
    refine ⟨_, write_ok_iff.mpr ⟨_, .memory m', h, ?_, rfl⟩⟩
    change Client.memory <$> m.writeData width addr value = _
    rw [hdata]
    rfl

end Clients

/-- The fields of a section header that say what is in memory. -/
structure SectionHeader where
  sh_type : BitVec 32
  sh_flags : BitVec 64
  sh_addr : BitVec 64
  sh_offset : BitVec 64
  sh_size : BitVec 64
  sh_addralign : BitVec 64
  deriving DecidableEq

namespace SectionHeader

def isAllocated (s : SectionHeader) : Bool := ELFFile.hasFlag s.sh_flags ELFFile.SHF_ALLOC

/-- The address ranges have no byte in common. -/
def Apart (s t : SectionHeader) : Prop :=
  s.sh_size = 0 ∨ t.sh_size = 0 ∨ s.sh_addr.toNat + s.sh_size.toNat ≤ t.sh_addr.toNat ∨
    t.sh_addr.toNat + t.sh_size.toNat ≤ s.sh_addr.toNat

instance (s t : SectionHeader) : Decidable (s.Apart t) := inferInstanceAs (Decidable (_ ∨ _))

theorem Apart.symm {s t : SectionHeader} (h : s.Apart t) : t.Apart s := by
  obtain h | h | h | h := h
  · exact .inr (.inl h)
  · exact .inl h
  · exact .inr (.inr (.inr h))
  · exact .inr (.inr (.inl h))

end SectionHeader

namespace ELFFile

variable (f : ELFFile)

def sectionAt (offset : BitVec 64) : SectionHeader :=
  { sh_type := f.fieldAt (offset + 4) 4
    sh_flags := f.fieldAt (offset + 8) 8
    sh_addr := f.fieldAt (offset + 16) 8
    sh_offset := f.fieldAt (offset + 24) 8
    sh_size := f.fieldAt (offset + 32) 8
    sh_addralign := f.fieldAt (offset + 48) 8 }

/-- The section header table of the file: `e_shnum` entries of `e_shentsize`
bytes at `e_shoff`. -/
def sections : List SectionHeader :=
  (List.range (f.fieldAt 60 2).toNat).map fun i =>
    f.sectionAt (BitVec.ofNat 64 ((f.fieldAt 40 8).toNat + i * (f.fieldAt 58 2).toNat))

/-- The byte of a section that the ELF format puts in memory. -/
def imageByte (s : SectionHeader) (i : Nat) : Byte :=
  if s.sh_type = SHT_NOBITS then 0 else f.contents.getD (s.sh_offset.toNat + i) 0

/-- An accepted file whose headers and contents lie in it, with sections apart. -/
structure WellFormed : Prop where
  accepted : f.load.value = .ok ()
  entrySize : f.fieldAt 58 2 = 64
  headers : (f.fieldAt 40 8).toNat + 64 * (f.fieldAt 60 2).toNat ≤ f.programSize
  contents : ∀ s ∈ f.sections, s.isAllocated = true → s.sh_type ≠ SHT_NOBITS →
    s.sh_offset.toNat + s.sh_size.toNat ≤ f.programSize
  ranges : ∀ s ∈ f.sections, s.isAllocated = true → s.sh_addr.toNat + s.sh_size.toNat ≤ 2 ^ 64
  apart : (f.sections.filter (·.isAllocated)).Pairwise SectionHeader.Apart

/-- The memories can be allocated. -/
def Allocates (allocate : Allocator) : Prop :=
  ∀ s ∈ f.sections, s.isAllocated = true → newSegment allocate s.sh_addralign s.sh_size = .ok ()

/-- What the bus shows of one byte of a section. -/
structure ByteLoaded (clients : Clients) (s : SectionHeader) (i : Nat) : Prop where
  read : clients.read .byte (s.sh_addr + BitVec.ofNat 64 i) = .ok (f.imageByte s i)
  write : ∀ value, (∃ clients',
    clients.write .byte (s.sh_addr + BitVec.ofNat 64 i) value = .ok clients') ↔
      hasFlag s.sh_flags SHF_WRITE = true

/-- Every byte of every section in memory, whatever devices follow the memories. -/
def ImageLoaded (allocate : Allocator) : Prop :=
  ∃ memories, (f.createMemories allocate).value = .ok memories ∧
    ∀ devices : Clients, ∀ s ∈ f.sections, s.isAllocated = true → ∀ i < s.sh_size.toNat,
      f.ByteLoaded (memories.map Client.memory ++ devices) s i

/-- The sections that the loader handles: they end below 2^64, and what it does
not copy is zero. -/
def Supported : Prop :=
  ∀ s ∈ f.sections, s.isAllocated = true → ∀ i < s.sh_size.toNat,
    s.sh_addr.toNat + s.sh_size.toNat < 2 ^ 64 ∧
      (s.sh_type = SHT_PROGBITS ∨ s.sh_type = SHT_NOBITS ∨
        f.contents.getD (s.sh_offset.toNat + i) 0 = 0)

/-- The memory that the loader makes of a section. -/
def memoryOf (s : SectionHeader) : Memory :=
  newMemory
    (if s.sh_type = SHT_PROGBITS then f.bytesAt s.sh_offset s.sh_size.toNat
      else List.replicate s.sh_size.toNat 0)
    s.sh_addr s.sh_size (hasFlag s.sh_flags SHF_WRITE)

section

variable {f}

/-- The loader takes the entries to be 64 bytes apart. -/
theorem sections_eq (hsize : f.fieldAt 58 2 = 64) : f.sections =
    ((List.range (f.fieldAt 60 2).toNat).map f.headerAt).map f.sectionAt := by
  have hentry : ∀ i, f.headerAt i =
      BitVec.ofNat 64 ((f.fieldAt 40 8).toNat + i * (f.fieldAt 58 2).toNat) := by
    intro i
    rw [hsize, BitVec.ofNat_add, BitVec.ofNat_toNat, BitVec.setWidth_eq, Nat.mul_comm]
    rfl
  unfold sections
  rw [List.map_map]
  exact List.map_congr_left fun i _ => congrArg f.sectionAt (hentry i).symm

theorem createMemories_eq {allocate : Allocator} (hsize : f.fieldAt 58 2 = 64)
    (halloc : f.Allocates allocate) :
    (f.createMemories allocate).value =
      .ok ((f.sections.filter (·.isAllocated)).map f.memoryOf) := by
  have hmap : ∀ headers : List (BitVec 64),
      ((headers.map f.sectionAt).filter (·.isAllocated)).map f.memoryOf =
        (headers.filter f.isAllocated).map f.memoryAt := by
    intro headers
    rw [List.filter_map, List.map_map]
    rfl
  rw [value_createMemories, sections_eq hsize, hmap]
  · intro i hi
    refine halloc (f.sectionAt (f.headerAt i)) ?_
    rw [sections_eq hsize]
    exact List.mem_map_of_mem (List.mem_map_of_mem (List.mem_range.mpr hi))

/-! ### One section -/

variable {s : SectionHeader} {i : Nat}

theorem toNat_address (hrange : s.sh_addr.toNat + s.sh_size.toNat ≤ 2 ^ 64)
    (hi : i < s.sh_size.toNat) :
    (s.sh_addr + BitVec.ofNat 64 i).toNat = s.sh_addr.toNat + i :=
  toNat_add_ofNat (by omega)

/-- The memory of a section that ends below 2^64 contains what the section covers. -/
theorem contains_memoryOf (hend : s.sh_addr.toNat + s.sh_size.toNat < 2 ^ 64)
    (hi : i < s.sh_size.toNat) :
    (f.memoryOf s).contains (s.sh_addr + BitVec.ofNat 64 i) = true := by
  change (decide (s.sh_addr ≤ s.sh_addr + BitVec.ofNat 64 i) &&
    decide (s.sh_addr + BitVec.ofNat 64 i < s.sh_addr + s.sh_size)) = true
  rw [Bool.and_eq_true, decide_eq_true_eq, decide_eq_true_eq, BitVec.le_def, BitVec.lt_def,
    toNat_address (Nat.le_of_lt hend) hi, BitVec.toNat_add s.sh_addr s.sh_size,
    Nat.mod_eq_of_lt hend]
  exact ⟨Nat.le_add_right _ i, Nat.add_lt_add_left hi _⟩

/-- No other section in memory covers an address of the section. -/
theorem eq_of_contains (hwell : f.WellFormed) {t : SectionHeader}
    (hs : s ∈ f.sections) (hsalloc : s.isAllocated = true) (ht : t ∈ f.sections)
    (htalloc : t.isAllocated = true) (hi : i < s.sh_size.toNat)
    (hcontains : (f.memoryOf t).contains (s.sh_addr + BitVec.ofNat 64 i) = true) : t = s := by
  obtain ⟨hlow, hhigh, -⟩ := MemoryBounds.toNat_of_contains hcontains
  change t.sh_addr.toNat ≤ _ at hlow
  change _ < t.sh_addr.toNat + t.sh_size.toNat at hhigh
  rw [toNat_address (hwell.ranges s hs hsalloc) hi] at hlow hhigh
  have hsymm : Std.Symm SectionHeader.Apart := ⟨fun _ _ h => h.symm⟩
  by_contra hne
  have hapart : t.Apart s := hwell.apart.forall
    (List.mem_filter.mpr ⟨ht, htalloc⟩) (List.mem_filter.mpr ⟨hs, hsalloc⟩) hne
  have hzero : ∀ v : BitVec 64, v = 0 → v.toNat = 0 := fun v hv => congrArg BitVec.toNat hv
  obtain h | h | h | h := hapart
  · have := hzero _ h
    omega
  · have := hzero _ h
    omega
  · omega
  · omega

/-- The bus leads to the memory of the section. -/
theorem findClient_section (hwell : f.WellFormed) (hs : s ∈ f.sections)
    (hsalloc : s.isAllocated = true) (hend : s.sh_addr.toNat + s.sh_size.toNat < 2 ^ 64)
    (hi : i < s.sh_size.toNat) (devices : Clients) :
    Clients.findClient ((((f.sections.filter (·.isAllocated)).map f.memoryOf).map Client.memory) ++
      devices) (s.sh_addr + BitVec.ofNat 64 i) = some (.memory (f.memoryOf s)) := by
  unfold Clients.findClient
  rw [List.map_map, List.find?_append]
  cases hfind : ((f.sections.filter (·.isAllocated)).map (Client.memory ∘ f.memoryOf)).find?
      fun c => c.contains (s.sh_addr + BitVec.ofNat 64 i) with
  | none =>
    have hmem : Client.memory (f.memoryOf s) ∈
        (f.sections.filter (·.isAllocated)).map (Client.memory ∘ f.memoryOf) :=
      List.mem_map.mpr ⟨s, List.mem_filter.mpr ⟨hs, hsalloc⟩, rfl⟩
    exact absurd (contains_memoryOf hend hi) (List.find?_eq_none.mp hfind _ hmem)
  | some c =>
    obtain ⟨t, ht, rfl⟩ := List.mem_map.mp (List.mem_of_find?_eq_some hfind)
    obtain ⟨ht, htalloc⟩ := List.mem_filter.mp ht
    have hcontains := List.find?_some
      (p := fun c : Client => c.contains (s.sh_addr + BitVec.ofNat 64 i)) hfind
    rw [eq_of_contains hwell hs hsalloc ht htalloc hi hcontains]
    rfl

/-- A byte that the memory of a section holds. -/
theorem getD_memoryOf (hcontents : s.sh_type ≠ SHT_NOBITS →
      s.sh_offset.toNat + s.sh_size.toNat ≤ f.programSize) (hi : i < s.sh_size.toNat) :
    (f.memoryOf s).data.getD i 0 =
      if s.sh_type = SHT_PROGBITS then f.contents.getD (s.sh_offset.toNat + i) 0 else 0 := by
  have hdata : ∀ data : List Byte, (newMemory data s.sh_addr s.sh_size
      (hasFlag s.sh_flags SHF_WRITE)).data.getD i 0 = data.getD i 0 := by
    intro data
    change ((List.range s.sh_size.toNat).map _).getD i 0 = _
    rw [List.getD_eq_getElem?_getD, List.getElem?_map, List.getElem?_range hi]
    rfl
  unfold memoryOf
  rw [hdata]
  by_cases htype : s.sh_type = SHT_PROGBITS
  · have hinside := hcontents (by rw [htype]; decide)
    have hsize : f.programSize < 2 ^ 63 := f.contents_lt
    rw [if_pos htype, if_pos htype]
    unfold bytesAt peek
    rw [List.getD_eq_getElem?_getD, List.getElem?_map, List.getElem?_range hi, Option.map_some,
      Option.getD_some, toNat_add_ofNat (by omega)]
  · rw [if_neg htype, if_neg htype, List.getD_eq_getElem?_getD, List.getElem?_replicate, if_pos hi]
    rfl

/-- The bus shows a byte if the section ends below 2^64 and the byte is copied or zero. -/
theorem byteLoaded_iff (hwell : f.WellFormed) (hs : s ∈ f.sections)
    (hsalloc : s.isAllocated = true) (hend : s.sh_addr.toNat + s.sh_size.toNat < 2 ^ 64)
    (hi : i < s.sh_size.toNat) (devices : Clients) :
    f.ByteLoaded ((((f.sections.filter (·.isAllocated)).map f.memoryOf).map Client.memory) ++
      devices) s i ↔
    s.sh_type = SHT_PROGBITS ∨ s.sh_type = SHT_NOBITS ∨
      f.contents.getD (s.sh_offset.toNat + i) 0 = 0 := by
  have hfind := findClient_section hwell hs hsalloc hend hi devices
  have hcontains := contains_memoryOf (f := f) hend hi
  have hoffset : (f.memoryOf s).offset (s.sh_addr + BitVec.ofNat 64 i) = i := by
    obtain ⟨hlow, hhigh, -⟩ := MemoryBounds.toNat_of_contains hcontains
    rw [Memory.offset_eq ⟨hlow, hhigh⟩, toNat_address (Nat.le_of_lt hend) hi]
    exact Nat.add_sub_cancel_left _ i
  have hread : Clients.read _ .byte _ = .ok _ :=
    (Clients.read_of_memory .byte hfind).trans (Memory.readData_byte hcontains)
  rw [hoffset, getD_memoryOf (hwell.contents s hs hsalloc) hi] at hread
  have hwrite : ∀ value, (∃ clients', Clients.write _ .byte _ value = .ok clients') ↔
      hasFlag s.sh_flags SHF_WRITE = true := fun value =>
    (Clients.write_of_memory_iff hfind).trans (Memory.writeData_byte_iff hcontains value)
  have himage : (if s.sh_type = SHT_PROGBITS then f.contents.getD (s.sh_offset.toNat + i) 0
        else 0) = f.imageByte s i ↔
      s.sh_type = SHT_PROGBITS ∨ s.sh_type = SHT_NOBITS ∨
        f.contents.getD (s.sh_offset.toNat + i) 0 = 0 := by
    unfold imageByte
    by_cases hprogbits : s.sh_type = SHT_PROGBITS
    · rw [if_pos hprogbits, if_neg (by rw [hprogbits]; decide)]
      exact iff_of_true rfl (.inl hprogbits)
    · rw [if_neg hprogbits, or_iff_right hprogbits]
      by_cases hnobits : s.sh_type = SHT_NOBITS
      · rw [if_pos hnobits]
        exact iff_of_true rfl (.inl hnobits)
      · rw [if_neg hnobits, or_iff_right hnobits]
        exact eq_comm
  rw [← himage]
  constructor
  · intro h
    exact Except.ok.inj (hread.symm.trans h.read)
  · intro h
    exact ⟨hread.trans (congrArg Except.ok h), hwrite⟩

end

/-- A section that ends at 2^64 is not served by its memory, nor by another one. -/
theorem lt_of_read {f : ELFFile} (hwell : f.WellFormed) {s : SectionHeader} {i : Nat}
    {value : Width.byte.Value} (hs : s ∈ f.sections) (hsalloc : s.isAllocated = true)
    (hi : i < s.sh_size.toNat)
    (hread : Clients.read (((f.sections.filter (·.isAllocated)).map f.memoryOf).map Client.memory)
      .byte (s.sh_addr + BitVec.ofNat 64 i) = .ok value) :
    s.sh_addr.toNat + s.sh_size.toNat < 2 ^ 64 := by
  cases hfind : Clients.findClient
      (((f.sections.filter (·.isAllocated)).map f.memoryOf).map Client.memory)
      (s.sh_addr + BitVec.ofNat 64 i) with
  | none =>
    rw [Clients.read_of_uncovered .byte hfind] at hread
    cases hread
  | some c =>
    have hcontains : c.contains (s.sh_addr + BitVec.ofNat 64 i) = true :=
      List.find?_some (p := fun c : Client => c.contains (s.sh_addr + BitVec.ofNat 64 i)) hfind
    obtain ⟨m, hm, rfl⟩ := List.mem_map.mp (List.mem_of_find?_eq_some hfind)
    obtain ⟨t, ht, rfl⟩ := List.mem_map.mp hm
    obtain ⟨ht, htalloc⟩ := List.mem_filter.mp ht
    obtain rfl := eq_of_contains hwell hs hsalloc ht htalloc hi hcontains
    obtain ⟨-, -, hend⟩ := MemoryBounds.toNat_of_contains hcontains
    exact hend ▸ ((f.memoryOf t).base + (f.memoryOf t).size).isLt

/-- The image that the bus shows is that of the file exactly if the loader
handles every section. -/
theorem imageLoaded_iff {f : ELFFile} {allocate : Allocator} (hwell : f.WellFormed)
    (halloc : f.Allocates allocate) : f.ImageLoaded allocate ↔ f.Supported := by
  have hmemories := createMemories_eq hwell.entrySize halloc
  constructor
  · rintro ⟨memories, hcreate, hloaded⟩ s hs hsalloc i hi
    cases hmemories.symm.trans hcreate
    have hbyte := hloaded [] s hs hsalloc i hi
    have hread := hbyte.read
    rw [List.append_nil] at hread
    have hend := lt_of_read hwell hs hsalloc hi hread
    exact ⟨hend, (byteLoaded_iff hwell hs hsalloc hend hi []).mp hbyte⟩
  · intro hsupported
    refine ⟨_, hmemories, fun devices s hs hsalloc i hi => ?_⟩
    obtain ⟨hend, hcontents⟩ := hsupported s hs hsalloc i hi
    exact (byteLoaded_iff hwell hs hsalloc hend hi devices).mpr hcontents

/-- A header, the null section, a section of the given type that holds the first
four bytes of the file, and one without contents. -/
def threeSections (type : Byte) : ELFFile :=
  { contents :=
      [0x7f, 0x45, 0x4c, 0x46, 2, 1, 1, 0, 0, 0, 0, 0, 0, 0, 0, 0,
        2, 0, 243, 0, 1, 0, 0, 0, 0, 0x10, 0, 0, 0, 0, 0, 0,
        64, 0, 0, 0, 0, 0, 0, 0, 64, 0, 0, 0, 0, 0, 0, 0,
        0, 0, 0, 0, 64, 0, 56, 0, 0, 0, 64, 0, 3, 0, 0, 0] ++
      List.replicate 64 0 ++
      [0, 0, 0, 0, type, 0, 0, 0, 6, 0, 0, 0, 0, 0, 0, 0,
        0, 0x10, 0, 0, 0, 0, 0, 0, 0, 0, 0, 0, 0, 0, 0, 0,
        4, 0, 0, 0, 0, 0, 0, 0, 0, 0, 0, 0, 0, 0, 0, 0,
        8, 0, 0, 0, 0, 0, 0, 0, 0, 0, 0, 0, 0, 0, 0, 0] ++
      [0, 0, 0, 0, 8, 0, 0, 0, 3, 0, 0, 0, 0, 0, 0, 0,
        0, 0x20, 0, 0, 0, 0, 0, 0, 192, 0, 0, 0, 0, 0, 0, 0,
        8, 0, 0, 0, 0, 0, 0, 0, 0, 0, 0, 0, 0, 0, 0, 0,
        8, 0, 0, 0, 0, 0, 0, 0, 0, 0, 0, 0, 0, 0, 0, 0]
    contents_lt := by
      simp only [List.length_append, List.length_replicate, List.length_cons, List.length_nil]
      decide }

def alignedHeap : Allocator := fun _ size => some (0x5000 + 16 * size)

/-- An initialisation array is in memory as zeros. -/
theorem initArray_lost : ¬∀ (f : ELFFile) (allocate : Allocator), f.WellFormed →
    f.Allocates allocate → f.ImageLoaded allocate := by
  intro h
  have hwell : (threeSections 14).WellFormed :=
    ⟨by decide +kernel, by decide +kernel, by decide +kernel, by decide +kernel,
      by decide +kernel, by decide +kernel⟩
  have halloc : (threeSections 14).Allocates alignedHeap := by
    unfold Allocates
    decide +kernel
  obtain ⟨memories, hcreate, hloaded⟩ := h _ _ hwell halloc
  cases (createMemories_eq hwell.entrySize halloc).symm.trans hcreate
  have hs : (threeSections 14).sectionAt 128 ∈ (threeSections 14).sections := by decide +kernel
  have hbyte := hloaded [] _ hs (by decide +kernel) 0 (by decide +kernel)
  have hzero := (byteLoaded_iff hwell hs (by decide +kernel) (by decide +kernel)
    (by decide +kernel) []).mp hbyte
  revert hzero
  decide +kernel

theorem imageLoaded_iff_progbits :
    (threeSections 1).ImageLoaded alignedHeap ↔ (threeSections 1).Supported :=
  imageLoaded_iff
    ⟨by decide +kernel, by decide +kernel, by decide +kernel, by decide +kernel,
      by decide +kernel, by decide +kernel⟩
    (by
      unfold Allocates
      decide +kernel)

end ELFFile

end Rv64Emu
