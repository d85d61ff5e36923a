import Rv64Emu.Frontend.ElfFile

/-! What the loader makes of a section header, as a function of its fields. -/
namespace Rv64Emu.ELFFile

variable (f : ELFFile)

/-- Where the code takes the header of section `i` to be. -/
def headerAt (i : Nat) : BitVec 64 := f.fieldAt 40 8 + BitVec.ofNat 64 (64 * i)

def isAllocated (header : BitVec 64) : Bool := hasFlag (f.fieldAt (header + 8) 8) SHF_ALLOC

def isExecutable (header : BitVec 64) : Bool := hasFlag (f.fieldAt (header + 8) 8) SHF_EXECINSTR

/-- The memory of a section can be allocated. -/
def Obtained (allocate : Allocator) (header : BitVec 64) : Prop :=
  newSegment allocate (f.fieldAt (header + 48) 8) (f.fieldAt (header + 32) 8) = .ok ()

def dataAt (header : BitVec 64) : List Byte :=
  if f.fieldAt (header + 4) 4 = SHT_PROGBITS then
    f.bytesAt (f.fieldAt (header + 24) 8) (f.fieldAt (header + 32) 8).toNat
  else List.replicate (f.fieldAt (header + 32) 8).toNat 0

/-- The memory that is made of a section. -/
def memoryAt (header : BitVec 64) : Memory :=
  newMemory (f.dataAt header) (f.fieldAt (header + 16) 8) (f.fieldAt (header + 32) 8)
    (hasFlag (f.fieldAt (header + 8) 8) SHF_WRITE)

/-- The text segment that is made of a section. -/
def textAt (header : BitVec 64) : TextSegment :=
  { found := true
    segmentData := f.bytesAt (f.fieldAt (header + 24) 8) (f.fieldAt (header + 32) 8).toNat
    segmentBase := f.fieldAt (header + 16) 8
    segmentSize := f.fieldAt (header + 32) 8 }

variable {f}

theorem value_field_bind (offset : BitVec 64) (n : Nat) (k : BitVec (8 * n) → Loader α) :
    (f.load_field offset n >>= k).value = (k (f.fieldAt offset n)).value :=
  Traced.value_bind_of_ok rfl

theorem value_copy_bind (offset : BitVec 64) (n : Nat) (k : List Byte → Loader α) :
    (f.copy_n offset n >>= k).value = (k (f.bytesAt offset n)).value :=
  Traced.value_bind_of_ok rfl

theorem value_visitSection (func : σ → BitVec 64 → Loader σ) (acc : σ) (i : Nat) :
    (f.visitSection func (f.fieldAt 40 8) acc i).value =
      if f.isAllocated (f.headerAt i) then (func acc (f.headerAt i)).value else .ok acc := by
  unfold visitSection sh_flags
  rw [value_field_bind]
  change (if f.isAllocated (f.headerAt i) then func acc (f.headerAt i) else pure acc).value = _
  cases f.isAllocated (f.headerAt i) <;> rfl

theorem value_segmentData (header : BitVec 64) :
    (f.segmentData header (f.fieldAt (header + 32) 8)).value = .ok (f.dataAt header) := by
  unfold segmentData dataAt sh_type sh_offset
  rw [value_field_bind]
  by_cases htype : f.fieldAt (header + 4) 4 = SHT_PROGBITS
  · rw [if_pos htype, if_pos htype, value_field_bind]
    rfl
  · rw [if_neg htype, if_neg htype]
    rfl

theorem value_createMemory {allocate : Allocator} {header : BitVec 64}
    (h : f.Obtained allocate header) (memories : List Memory) :
    (f.createMemory allocate memories header).value = .ok (memories ++ [f.memoryAt header]) := by
  unfold createMemory sh_addralign sh_size sh_addr sh_flags
  rw [value_field_bind, value_field_bind, show newSegment _ _ _ = _ from h]
  change (_ >>= _ : Loader _).value = _
  rw [Traced.value_bind_of_ok (value_segmentData header), value_field_bind, value_field_bind]
  rfl

theorem createMemory_ok_iff (allocate : Allocator) (memories : List Memory) (header : BitVec 64) :
    (∃ t, (f.createMemory allocate memories header).value = .ok t) ↔
      f.Obtained allocate header := by
  refine ⟨?_, fun h => ⟨_, value_createMemory h memories⟩⟩
  unfold createMemory sh_addralign sh_size Obtained
  rw [value_field_bind, value_field_bind]
  cases newSegment allocate (f.fieldAt (header + 48) 8) (f.fieldAt (header + 32) 8) with
  | error e => exact nofun
  | ok _ => exact fun _ => rfl

theorem value_copyText {resize : BitVec 64 → Bool} {header : BitVec 64}
    (h : f.isExecutable header = true → resize (f.fieldAt (header + 32) 8) = true)
    (segment : TextSegment) : (f.copyText resize segment header).value =
      .ok (if f.isExecutable header then f.textAt header else segment) := by
  unfold copyText sh_flags sh_size sh_offset sh_addr
  rw [value_field_bind]
  change (if f.isExecutable header then _ else _ : Loader _).value = _
  cases hexec : f.isExecutable header with
  | false => rfl
  | true =>
    rw [if_pos rfl, value_field_bind, if_pos (h hexec), value_field_bind, value_copy_bind,
      value_field_bind]
    rfl

theorem copyText_ok_iff (resize : BitVec 64 → Bool) (segment : TextSegment)
    (header : BitVec 64) :
    (∃ t, (f.copyText resize segment header).value = .ok t) ↔
      (f.isExecutable header = true → resize (f.fieldAt (header + 32) 8) = true) := by
  refine ⟨?_, fun h => ⟨_, value_copyText h segment⟩⟩
  unfold copyText sh_flags sh_size
  rw [value_field_bind]
  change (∃ t, (if f.isExecutable header then _ else _ : Loader _).value = _) → _
  cases f.isExecutable header with
  | false => exact fun _ => nofun
  | true =>
    rw [if_pos rfl, value_field_bind]
    cases resize (f.fieldAt (header + 32) 8) with
    | false => exact nofun
    | true => exact fun _ _ => rfl

/-- With an allocation for each section in memory, their memories in file order. -/
theorem value_createMemories {allocate : Allocator}
    (h : ∀ i < (f.fieldAt 60 2).toNat, f.isAllocated (f.headerAt i) = true →
      f.Obtained allocate (f.headerAt i)) :
    (f.createMemories allocate).value =
      .ok ((((List.range (f.fieldAt 60 2).toNat).map f.headerAt).filter f.isAllocated).map
        f.memoryAt) := by
  have hround : ∀ acc, ∀ i < (f.fieldAt 60 2).toNat,
      (f.visitSection (f.createMemory allocate) (f.fieldAt 40 8) acc i).value =
        .ok (acc ++ if f.isAllocated (f.headerAt i) then [f.memoryAt (f.headerAt i)] else []) := by
    intro acc i hi
    rw [value_visitSection]
    cases halloc : f.isAllocated (f.headerAt i) with
    | false =>
      rw [if_neg nofun, if_neg nofun, List.append_nil]
    | true =>
      rw [if_pos rfl, if_pos rfl]
      exact value_createMemory (h i hi halloc) acc
  unfold createMemories foreachSegment e_shoff e_shnum
  rw [value_field_bind, value_field_bind, Traced.value_foldlM_append hround []]
  refine congrArg Except.ok ?_
  induction List.range (f.fieldAt 60 2).toNat with
  | nil => rfl
  | cons i rest ih =>
    rw [List.map_cons, List.filter_cons, List.nil_append, List.flatMap_cons]
    rw [List.nil_append] at ih
    rw [ih]
    cases f.isAllocated (f.headerAt i) <;> rfl

end Rv64Emu.ELFFile
