import Rv64Emu.Frontend.Sections

/-! The offsets that the loader dereferences. The identification is checked when
the file is loaded; no offset or size that the headers give is ever compared
with the size of the file. -/
namespace Rv64Emu.ELFFile

variable (f : ELFFile)

/-- Every dereference of the mapping is inside the file. -/
def ReadsInside (x : Loader α) : Prop := Traced.Safe (fun offset => offset.toNat < f.programSize) x

/-- So is every dereference of loading, of creating the memories and of copying the text. -/
def StaysInside (allocate : Allocator) (resize : BitVec 64 → Bool) : Prop :=
  f.ReadsInside f.load ∧ f.ReadsInside (f.createMemories allocate) ∧
    f.ReadsInside (f.getTextSegment resize)

/-- The `n` bytes from an offset are in the file. -/
def Inside (offset : BitVec 64) (n : Nat) : Prop := n = 0 ∨ offset.toNat + n ≤ f.programSize

instance (offset : BitVec 64) (n : Nat) : Decidable (f.Inside offset n) :=
  inferInstanceAs (Decidable (_ ∨ _))

/-- The bytes that a section points to. -/
def ContentsInside (header : BitVec 64) : Prop :=
  f.Inside (header + 24) 8 ∧ f.Inside (f.fieldAt (header + 24) 8) (f.fieldAt (header + 32) 8).toNat

/-- What `createMemories` needs of the header of a section in memory. -/
structure MemoryInside (allocate : Allocator) (header : BitVec 64) : Prop where
  addralign : f.Inside (header + 48) 8
  size : f.Inside (header + 32) 8
  type : f.Obtained allocate header → f.Inside (header + 4) 4
  contents : f.Obtained allocate header → f.fieldAt (header + 4) 4 = SHT_PROGBITS →
    f.ContentsInside header
  addr : f.Obtained allocate header → f.Inside (header + 16) 8

/-- What `getTextSegment` needs of it. -/
structure TextInside (resize : BitVec 64 → Bool) (header : BitVec 64) : Prop where
  size : f.isExecutable header = true → f.Inside (header + 32) 8
  contents : f.isExecutable header = true → resize (f.fieldAt (header + 32) 8) = true →
    f.ContentsInside header
  addr : f.isExecutable header = true → resize (f.fieldAt (header + 32) 8) = true →
    f.Inside (header + 16) 8

/-- The header is complete, and so are the section headers that are reached,
together with the contents that are copied. -/
structure Bounded (allocate : Allocator) (resize : BitVec 64 → Bool) : Prop where
  elfHeader : 62 ≤ f.programSize
  memories : ∀ i < (f.fieldAt 60 2).toNat,
    (∀ j < i, f.isAllocated (f.headerAt j) = true → f.Obtained allocate (f.headerAt j)) →
      f.Inside (f.headerAt i + 8) 8 ∧
        (f.isAllocated (f.headerAt i) = true → f.MemoryInside allocate (f.headerAt i))
  text : ∀ i < (f.fieldAt 60 2).toNat,
    (∀ j < i, f.isAllocated (f.headerAt j) = true → f.isExecutable (f.headerAt j) = true →
      resize (f.fieldAt (f.headerAt j + 32) 8) = true) →
      f.Inside (f.headerAt i + 8) 8 ∧
        (f.isAllocated (f.headerAt i) = true → f.TextInside resize (f.headerAt i))

section

variable {f}

/-- An offset past the end would come before a wrapped one. -/
theorem forall_offsetsOf_iff (offset : BitVec 64) (n : Nat) :
    (∀ o ∈ offsetsOf offset n, o.toNat < f.programSize) ↔ f.Inside offset n := by
  have hsize : f.programSize < 2 ^ 63 := f.contents_lt
  unfold offsetsOf Inside
  rw [List.forall_mem_map]
  constructor
  · intro h
    obtain rfl | hpos := Nat.eq_zero_or_pos n
    · exact .inl rfl
    · refine .inr (Nat.le_of_not_lt fun hover => ?_)
      have hfirst := h 0 (List.mem_range.mpr hpos)
      rw [BitVec.add_zero] at hfirst
      have hlast := h (f.programSize - offset.toNat) (List.mem_range.mpr (by omega))
      rw [toNat_add_ofNat (by omega)] at hlast
      omega
  · intro h i hi
    have hi := List.mem_range.mp hi
    obtain rfl | hin := h
    · exact absurd hi (Nat.not_lt_zero i)
    · rw [toNat_add_ofNat (by omega)]
      omega

theorem readsInside_load_field (offset : BitVec 64) (n : Nat) :
    f.ReadsInside (f.load_field offset n) ↔ f.Inside offset n := forall_offsetsOf_iff offset n

theorem readsInside_copy_n (offset : BitVec 64) (n : Nat) :
    f.ReadsInside (f.copy_n offset n) ↔ f.Inside offset n := forall_offsetsOf_iff offset n

@[simp] theorem readsInside_pure (a : α) : f.ReadsInside (pure a : Loader α) := Traced.safe_pure a

@[simp] theorem readsInside_throw (e : LoadError) : f.ReadsInside (Traced.throw e : Loader α) :=
  Traced.safe_throw e

/-- Reading a field and going on with its value. -/
theorem readsInside_field_bind (offset : BitVec 64) (n : Nat) (k : BitVec (8 * n) → Loader α) :
    f.ReadsInside (f.load_field offset n >>= k) ↔
      f.Inside offset n ∧ f.ReadsInside (k (f.fieldAt offset n)) := by
  unfold ReadsInside
  rw [Traced.safe_bind_of_ok (show (f.load_field offset n).value = .ok (f.fieldAt offset n) from
    rfl)]
  exact and_congr_left' (readsInside_load_field offset n)

theorem readsInside_copy_bind (offset : BitVec 64) (n : Nat) (k : List Byte → Loader α) :
    f.ReadsInside (f.copy_n offset n >>= k) ↔
      f.Inside offset n ∧ f.ReadsInside (k (f.bytesAt offset n)) := by
  unfold ReadsInside
  rw [Traced.safe_bind_of_ok (show (f.copy_n offset n).value = .ok (f.bytesAt offset n) from rfl)]
  exact and_congr_left' (readsInside_copy_n offset n)

/-! ### The loop over the sections -/

section

variable {func : σ → BitVec 64 → Loader σ} {goes safe : BitVec 64 → Prop}

theorem readsInside_visitSection (acc : σ) (i : Nat) :
    f.ReadsInside (f.visitSection func (f.fieldAt 40 8) acc i) ↔
      f.Inside (f.headerAt i + 8) 8 ∧
        (f.isAllocated (f.headerAt i) = true → f.ReadsInside (func acc (f.headerAt i))) := by
  unfold visitSection sh_flags
  rw [readsInside_field_bind]
  refine and_congr_right fun _ => ?_
  change f.ReadsInside (if f.isAllocated (f.headerAt i) then _ else _) ↔ _
  cases f.isAllocated (f.headerAt i) with
  | false => exact ⟨fun _ => nofun, fun _ => readsInside_pure acc⟩
  | true => exact ⟨fun h _ => h, fun h => h rfl⟩

/-- Neither what a section needs nor whether the loop goes on after it depends
on the sections before it. -/
theorem readsInside_foreachSegment
    (hgoes : ∀ acc header, (∃ t, (func acc header).value = .ok t) ↔ goes header)
    (hsafe : ∀ acc header, f.Inside (header + 8) 8 →
      (f.ReadsInside (func acc header) ↔ safe header)) (init : σ) :
    f.ReadsInside (f.foreachSegment func init) ↔
      62 ≤ f.programSize ∧ ∀ i < (f.fieldAt 60 2).toNat,
        (∀ j < i, f.isAllocated (f.headerAt j) = true → goes (f.headerAt j)) →
          f.Inside (f.headerAt i + 8) 8 ∧
            (f.isAllocated (f.headerAt i) = true → safe (f.headerAt i)) := by
  have hnext : ∀ acc i, (∃ t, (f.visitSection func (f.fieldAt 40 8) acc i).value = .ok t) ↔
      (f.isAllocated (f.headerAt i) = true → goes (f.headerAt i)) := by
    intro acc i
    rw [value_visitSection]
    cases f.isAllocated (f.headerAt i) with
    | false => exact ⟨fun _ => nofun, fun _ => ⟨acc, rfl⟩⟩
    | true => exact (hgoes acc _).trans ⟨fun h _ => h, fun h => h rfl⟩
  have hround : ∀ acc i, f.ReadsInside (f.visitSection func (f.fieldAt 40 8) acc i) ↔
      f.Inside (f.headerAt i + 8) 8 ∧
        (f.isAllocated (f.headerAt i) = true → safe (f.headerAt i)) := fun acc i =>
    (readsInside_visitSection acc i).trans
      (and_congr_right fun hflags => imp_congr_right fun _ => hsafe acc _ hflags)
  have hloop := Traced.safe_foldlM_range hnext hround (f.fieldAt 60 2).toNat init
  unfold foreachSegment e_shoff e_shnum
  rw [readsInside_field_bind, readsInside_field_bind, ← and_assoc]
  refine and_congr ⟨?_, ?_⟩ hloop
  · rintro ⟨-, hcount⟩
    obtain hzero | hin := hcount
    · cases hzero
    · exact hin
  · intro hsize
    exact ⟨.inr (Nat.le_trans (by decide) hsize), .inr hsize⟩

end

/-! ### The two passes -/

theorem readsInside_segmentData (header : BitVec 64) :
    f.ReadsInside (f.segmentData header (f.fieldAt (header + 32) 8)) ↔
      f.Inside (header + 4) 4 ∧
        (f.fieldAt (header + 4) 4 = SHT_PROGBITS → f.ContentsInside header) := by
  unfold segmentData sh_type sh_offset
  rw [readsInside_field_bind]
  refine and_congr_right fun _ => ?_
  by_cases htype : f.fieldAt (header + 4) 4 = SHT_PROGBITS
  · rw [if_pos htype, readsInside_field_bind, readsInside_copy_n]
    exact ⟨fun h _ => h, fun h => h htype⟩
  · rw [if_neg htype]
    exact ⟨fun _ h => absurd h htype, fun _ => readsInside_pure _⟩

theorem readsInside_createMemory (allocate : Allocator) (memories : List Memory)
    (header : BitVec 64) (hflags : f.Inside (header + 8) 8) :
    f.ReadsInside (f.createMemory allocate memories header) ↔ f.MemoryInside allocate header := by
  unfold createMemory sh_addralign sh_size sh_addr sh_flags
  rw [readsInside_field_bind, readsInside_field_bind]
  cases hnew : newSegment allocate (f.fieldAt (header + 48) 8) (f.fieldAt (header + 32) 8) with
  | error e =>
    have hfails : ¬f.Obtained allocate header := fun h => nomatch hnew.symm.trans h
    constructor
    · rintro ⟨halign, hsize, -⟩
      exact ⟨halign, hsize, (absurd · hfails), (absurd · hfails), (absurd · hfails)⟩
    · intro h
      exact ⟨h.addralign, h.size, readsInside_throw e⟩
  | ok _ =>
    have hrest : f.ReadsInside (f.segmentData header (f.fieldAt (header + 32) 8) >>= fun data =>
        f.load_field (header + 16) 8 >>= fun base => f.load_field (header + 8) 8 >>= fun flags =>
          pure (memories ++ [newMemory data base (f.fieldAt (header + 32) 8)
            (hasFlag flags SHF_WRITE)])) ↔
        f.ReadsInside (f.segmentData header (f.fieldAt (header + 32) 8)) ∧
          f.Inside (header + 16) 8 := by
      unfold ReadsInside
      rw [Traced.safe_bind_of_ok (value_segmentData header)]
      refine and_congr_right fun _ => (readsInside_field_bind _ _ _).trans (and_iff_left ?_)
      exact (readsInside_field_bind _ _ _).mpr ⟨hflags, readsInside_pure _⟩
    constructor
    · rintro ⟨halign, hsize, h⟩
      obtain ⟨hdata, haddr⟩ := hrest.mp h
      obtain ⟨htype, hcontents⟩ := (readsInside_segmentData header).mp hdata
      exact ⟨halign, hsize, fun _ => htype, fun _ => hcontents, fun _ => haddr⟩
    · intro h
      have hobtained : f.Obtained allocate header := hnew
      exact ⟨h.addralign, h.size, hrest.mpr ⟨(readsInside_segmentData header).mpr
        ⟨h.type hobtained, h.contents hobtained⟩, h.addr hobtained⟩⟩

theorem readsInside_copyText (resize : BitVec 64 → Bool) (segment : TextSegment)
    (header : BitVec 64) (hflags : f.Inside (header + 8) 8) :
    f.ReadsInside (f.copyText resize segment header) ↔ f.TextInside resize header := by
  unfold copyText sh_flags sh_size sh_offset sh_addr
  rw [readsInside_field_bind, and_iff_right hflags]
  change f.ReadsInside (if f.isExecutable header then _ else _) ↔ _
  cases hexec : f.isExecutable header with
  | false =>
    rw [if_neg nofun]
    have hnot : ¬f.isExecutable header = true := Bool.eq_false_iff.mp hexec
    exact ⟨fun _ => ⟨(absurd · hnot), (absurd · hnot), (absurd · hnot)⟩,
      fun _ => readsInside_pure _⟩
  | true =>
    rw [if_pos rfl, readsInside_field_bind]
    cases hresize : resize (f.fieldAt (header + 32) 8) with
    | false =>
      rw [if_neg nofun]
      have hnot : ¬resize (f.fieldAt (header + 32) 8) = true := Bool.eq_false_iff.mp hresize
      exact ⟨fun h => ⟨fun _ => h.1, fun _ => (absurd · hnot), fun _ => (absurd · hnot)⟩,
        fun h => ⟨h.size hexec, readsInside_throw _⟩⟩
    | true =>
      rw [if_pos rfl, readsInside_field_bind, readsInside_copy_bind, readsInside_field_bind]
      constructor
      · rintro ⟨hsize, hoffset, hdata, haddr, -⟩
        exact ⟨fun _ => hsize, fun _ _ => ⟨hoffset, hdata⟩, fun _ _ => haddr⟩
      · intro h
        obtain ⟨hoffset, hdata⟩ := h.contents hexec hresize
        exact ⟨h.size hexec, hoffset, hdata, h.addr hexec hresize, readsInside_pure _⟩

/-! ### Loading -/

theorem readsInside_map {x : Loader α} (g : α → β) (h : f.ReadsInside x) :
    f.ReadsInside (g <$> x) := by
  rw [← bind_pure_comp]
  exact Traced.safe_bind.mpr ⟨h, fun a _ => readsInside_pure (g a)⟩

theorem readsInside_and {a b : Loader Bool} (ha : f.ReadsInside a) (hb : f.ReadsInside b) :
    f.ReadsInside (Loader.and a b) := by
  refine Traced.safe_bind.mpr ⟨ha, fun c _ => ?_⟩
  cases c with
  | false => exact readsInside_pure false
  | true => exact hb

/-- The identification and the program header offset come before the end of
the section count. -/
theorem readsInside_load (h : 62 ≤ f.programSize) : f.ReadsInside f.load := by
  have hfield : ∀ offset : BitVec 64, ∀ n, offset.toNat + n ≤ 62 →
      f.ReadsInside (f.load_field offset n) := fun offset n hn =>
    (readsInside_load_field offset n).mpr (.inr (Nat.le_trans hn h))
  have hident : ∀ offset : BitVec 64, ∀ value : Byte, offset.toNat + 1 ≤ 62 →
      f.ReadsInside ((· == value) <$> f.e_ident offset) := fun offset value hn =>
    readsInside_map _ (hfield offset 1 hn)
  have helf : f.ReadsInside f.isELF :=
    readsInside_and (hident 0 _ (by decide)) <| readsInside_and (hident 1 _ (by decide)) <|
    readsInside_and (hident 2 _ (by decide)) <| readsInside_and (hident 3 _ (by decide)) <|
    hident 6 _ (by decide)
  have hprogram : ∀ machine, f.ReadsInside (f.isProgramFor machine) := by
    intro machine
    have hchecks : ∀ isProgram : Bool, f.ReadsInside (if isProgram then
        Loader.and ((· == machine) <$> f.e_machine)
          ((· == BitVec.ofNat 32 EV_CURRENT) <$> f.e_version) else pure true) := by
      intro isProgram
      cases isProgram with
      | false => exact readsInside_pure true
      | true =>
        exact readsInside_and (readsInside_map _ (hfield 18 2 (by decide)))
          (readsInside_map _ (hfield 20 4 (by decide)))
    refine Traced.safe_bind.mpr ⟨hfield 16 2 (by decide), fun type _ => ?_⟩
    by_cases htype : type = ET_EXEC
    · rw [if_pos htype]
      exact Traced.safe_bind.mpr ⟨readsInside_pure true, fun isProgram _ => hchecks isProgram⟩
    · rw [if_neg htype]
      exact Traced.safe_bind.mpr ⟨readsInside_map _ (hfield 16 2 (by decide)),
        fun isProgram _ => hchecks isProgram⟩
  have htarget : ∀ elf_class endianness machine,
      f.ReadsInside (f.isTarget elf_class endianness machine) := fun _ _ machine =>
    readsInside_and (hident 4 _ (by decide)) <| readsInside_and (hident 5 _ (by decide)) <|
    readsInside_and (hprogram machine) <| readsInside_map _ (hfield 32 8 (by decide))
  unfold load
  split
  · exact readsInside_throw _
  · refine Traced.safe_bind.mpr ⟨readsInside_and helf (htarget _ _ _), fun accepted _ => ?_⟩
    cases accepted with
    | false => exact readsInside_throw _
    | true => exact readsInside_pure ()

end

/-- The headers decide whether the three passes stay inside the file. -/
theorem staysInside_iff (allocate : Allocator) (resize : BitVec 64 → Bool) :
    f.StaysInside allocate resize ↔ f.Bounded allocate resize := by
  unfold StaysInside createMemories getTextSegment
  rw [readsInside_foreachSegment (createMemory_ok_iff allocate) (readsInside_createMemory allocate),
    readsInside_foreachSegment (copyText_ok_iff resize) (readsInside_copyText resize)]
  constructor
  · rintro ⟨-, ⟨hsize, hmemories⟩, -, htext⟩
    exact ⟨hsize, hmemories, htext⟩
  · intro h
    exact ⟨readsInside_load h.elfHeader, ⟨h.elfHeader, h.memories⟩, h.elfHeader, h.text⟩

/-- A header of 64 bytes that announces one section header beyond the file. -/
def headerOnly : ELFFile :=
  { contents :=
      [0x7f, 0x45, 0x4c, 0x46, 2, 1, 1, 0, 0, 0, 0, 0, 0, 0, 0, 0,
        2, 0, 243, 0, 1, 0, 0, 0, 0, 0, 0, 0, 0, 0, 0, 0,
        64, 0, 0, 0, 0, 0, 0, 0, 0, 0x10, 0, 0, 0, 0, 0, 0,
        0, 0, 0, 0, 64, 0, 56, 0, 0, 0, 64, 0, 1, 0, 0, 0]
    contents_lt := by decide }

theorem headerOnly_leaks : ¬∀ (f : ELFFile) (allocate : Allocator) (resize : BitVec 64 → Bool),
    f.load.value = .ok () → f.StaysInside allocate resize := by
  intro h
  obtain ⟨-, -, htext⟩ := h headerOnly (fun _ _ => none) (fun _ => true) (by decide +kernel)
  have hread : (0x1008 : BitVec 64) ∈ (headerOnly.getTextSegment fun _ => true).trace := by
    decide +kernel
  have hinside : (0x1008 : BitVec 64).toNat < headerOnly.programSize := htext _ hread
  revert hinside
  decide +kernel

end Rv64Emu.ELFFile
