import Rv64Emu.ElfImage
import Rv64Emu.Frontend.Disassembler

/-! The listing of an ELF file against its code. Every executable section
overwrites the buffer of the one before, and the words are read eight bytes at
a time, so that the last one is read across the end of the buffer. -/
namespace Rv64Emu

def SectionHeader.isText (s : SectionHeader) : Bool :=
  s.isAllocated && ELFFile.hasFlag s.sh_flags ELFFile.SHF_EXECINSTR

namespace ELFFile

variable (f : ELFFile)

/-- The `Elf64_Shdr` entries of the section header table. -/
def sectionTable : List SectionHeader :=
  ((List.range (f.fieldAt 60 2).toNat).map f.headerAt).map f.sectionAt

def textSections : List SectionHeader := f.sectionTable.filter (·.isText)

/-- An accepted file with code, which lies in the file and consists of words. -/
structure CodePlaced : Prop where
  accepted : f.load.value = .ok ()
  headers : (f.fieldAt 40 8).toNat + 64 * (f.fieldAt 60 2).toNat ≤ f.programSize
  contents : ∀ s ∈ f.textSections, s.sh_offset.toNat + s.sh_size.toNat ≤ f.programSize
  words : ∀ s ∈ f.textSections, s.sh_size.toNat % 4 = 0
  nonempty : f.textSections ≠ []

/-- The buffer can be given the sizes of the sections. -/
def Resizes (resize : BitVec 64 → Bool) : Prop := ∀ s ∈ f.textSections, resize s.sh_size = true

/-- The word at an offset of the file. -/
def wordAt (offset : Nat) : InstructionWord :=
  BitVec.ofNat 32 (LittleEndian.ofBytes (LittleEndian.slice f.contents offset 4))

/-- The words of a section with their addresses. -/
def codeWords (s : SectionHeader) : List (MemAddress × InstructionWord) :=
  (List.range (s.sh_size.toNat / 4)).map fun k =>
    (s.sh_addr + BitVec.ofNat 64 (4 * k), f.wordAt (s.sh_offset.toNat + 4 * k))

/-- The line for a word and its address. -/
def lineOf (entry : MemAddress × InstructionWord) : String :=
  "0x" ++ hexadecimal entry.1.toNat ++ ":\t" ++ "0x" ++ paddedWord entry.2 ++ "\t" ++
    Formatter.print ⟨entry.2⟩

/-- All of the code is listed, without a read beyond the buffer. -/
structure CodeListed (listing : Listing) : Prop where
  covers : listing.value = .ok ((f.textSections.flatMap f.codeWords).map lineOf)
  inBuffer : Traced.Safe BufferRead.Inside listing

def Listed (resize : BitVec 64 → Bool) : Prop :=
  ∃ listing, (f.disasmELFFile resize).value = .ok (.success, listing) ∧ f.CodeListed listing

/-- The buffer after a section has been copied. -/
def textOf (s : SectionHeader) : TextSegment :=
  { found := true
    segmentData := f.bytesAt s.sh_offset s.sh_size.toNat
    segmentBase := s.sh_addr
    segmentSize := s.sh_size }

section

variable {f}

/-! ### The buffer -/

/-- The last section with code is what is left in the buffer. -/
theorem value_getTextSegment {resize : BitVec 64 → Bool} (h : f.Resizes resize) :
    (f.getTextSegment resize).value =
      .ok ((f.textSections.map f.textOf).getLast?.getD {}) := by
  have hround : ∀ acc, ∀ i < (f.fieldAt 60 2).toNat,
      (f.visitSection (f.copyText resize) (f.fieldAt 40 8) acc i).value =
        .ok (if (f.sectionAt (f.headerAt i)).isText then f.textOf (f.sectionAt (f.headerAt i))
          else acc) := by
    intro acc i hi
    rw [value_visitSection]
    unfold SectionHeader.isText
    change _ = Except.ok (if f.isAllocated (f.headerAt i) && f.isExecutable (f.headerAt i) then _
      else acc)
    cases halloc : f.isAllocated (f.headerAt i) with
    | false => rfl
    | true =>
      rw [if_pos rfl, Bool.true_and]
      refine value_copyText (fun hexec => h (f.sectionAt (f.headerAt i)) ?_) acc
      refine List.mem_filter.mpr ⟨?_, ?_⟩
      · exact List.mem_map_of_mem (List.mem_map_of_mem (List.mem_range.mpr hi))
      · exact Bool.and_eq_true_iff.mpr ⟨halloc, hexec⟩
  unfold getTextSegment foreachSegment e_shoff e_shnum
  rw [value_field_bind, value_field_bind, Traced.value_foldlM_overwrite hround {}]
  unfold textSections sectionTable
  rw [List.map_map, List.filter_map, List.map_map]
  rfl

/-- The listing is made from the last section with code. -/
theorem value_disasmELFFile {resize : BitVec 64 → Bool} (h : f.Resizes resize)
    {s : SectionHeader} (hlast : f.textSections.getLast? = some s) :
    (f.disasmELFFile resize).value = .ok (.success, disasmSegment (f.textOf s)) := by
  unfold disasmELFFile
  rw [Traced.value_bind_of_ok (value_getTextSegment h), List.getLast?_map, hlast]
  rfl

/-! ### The lines -/

theorem value_disasmSegment (segment : TextSegment) :
    (disasmSegment segment).value = .ok
      ((List.range ((segment.segmentSize.toNat + 3) / 4)).map fun k =>
        formatDisassembly ⟨instrAt segment (4 * k)⟩
          (segment.segmentBase + BitVec.ofNat 64 (4 * k))) := by
  have hround : ∀ lines, ∀ k < (segment.segmentSize.toNat + 3) / 4,
      (disasmRound segment lines k).value = .ok (lines ++
        [formatDisassembly ⟨instrAt segment (4 * k)⟩
          (segment.segmentBase + BitVec.ofNat 64 (4 * k))]) := fun _ _ _ => rfl
  unfold disasmSegment
  rw [Traced.value_foldlM_append hround [], List.nil_append, ← List.map_eq_flatMap]

/-- The bytes of a section in the buffer are those in the file. -/
theorem getD_bytesAt {offset : BitVec 64} {n i : Nat} (hfile : offset.toNat + n ≤ f.programSize)
    (hi : i < n) : (f.bytesAt offset n).getD i 0 = f.contents.getD (offset.toNat + i) 0 := by
  have hsize : f.programSize < 2 ^ 63 := f.contents_lt
  unfold bytesAt peek
  rw [List.getD_eq_getElem?_getD, List.getElem?_map, List.getElem?_range hi, Option.map_some,
    Option.getD_some, toNat_add_ofNat (by omega)]

/-- Only the first four bytes of a read reach the decoder. -/
theorem instrAt_textOf {s : SectionHeader}
    (hfile : s.sh_offset.toNat + s.sh_size.toNat ≤ f.programSize) {i : Nat}
    (hi : i + 4 ≤ s.sh_size.toNat) :
    instrAt (f.textOf s) i = f.wordAt (s.sh_offset.toNat + i) := by
  have hfirst : (List.range 4).map (fun j => (f.textOf s).segmentData.getD (i + j) 0) =
      LittleEndian.slice f.contents (s.sh_offset.toNat + i) 4 := by
    rw [LittleEndian.slice_eq_map fun j => f.contents.getD (s.sh_offset.toNat + i + j) 0]
    · refine List.map_congr_left fun j hj => ?_
      have hj := List.mem_range.mp hj
      rw [Nat.add_assoc]
      exact getD_bytesAt hfile (by omega)
    · intro j hj
      have hlt : s.sh_offset.toNat + i + j < f.contents.length := by
        change _ ≤ f.contents.length at hfile
        omega
      rw [List.getD_eq_getElem?_getD, List.getElem?_eq_getElem hlt, Option.getD_some]
  unfold instrAt wordAt
  apply BitVec.eq_of_toNat_eq
  dsimp only
  rw [show List.range 8 = List.range (4 + 4) from rfl, List.range_add, List.map_append, hfirst,
    LittleEndian.ofBytes_append, BitVec.setWidth_ofNat_of_le (by decide), BitVec.toNat_ofNat,
    BitVec.toNat_ofNat, ← hfirst, List.length_map, List.length_range,
    show 256 ^ 4 = 2 ^ 32 by decide, Nat.add_mul_mod_self_left]

/-- What is printed are the words of the last section with code, each with its
address, if this is not zero. -/
theorem listing_of_last {resize : BitVec 64 → Bool} (hplaced : f.CodePlaced)
    (hresize : f.Resizes resize) : ∃ s listing, f.textSections.getLast? = some s ∧
      (f.disasmELFFile resize).value = .ok (.success, listing) ∧
      listing.value = .ok ((f.codeWords s).map fun entry => formatDisassembly ⟨entry.2⟩ entry.1) := by
  cases hlast : f.textSections.getLast? with
  | none => exact absurd (List.getLast?_eq_none_iff.mp hlast) hplaced.nonempty
  | some s =>
    have hs : s ∈ f.textSections := List.mem_of_getLast? hlast
    have hwords := hplaced.words s hs
    refine ⟨s, _, rfl, value_disasmELFFile hresize hlast, ?_⟩
    rw [value_disasmSegment]
    unfold codeWords
    rw [List.map_map, show ((f.textOf s).segmentSize.toNat + 3) / 4 = s.sh_size.toNat / 4 by
      change (s.sh_size.toNat + 3) / 4 = _
      omega]
    refine congrArg Except.ok (List.map_congr_left fun k hk => ?_)
    have hk := List.mem_range.mp hk
    rw [instrAt_textOf (hplaced.contents s hs) (by omega)]
    rfl

/-! ### The reads -/

/-- The last read of a buffer that is not empty crosses its end. -/
theorem inBuffer_iff (s : SectionHeader) :
    Traced.Safe BufferRead.Inside (disasmSegment (f.textOf s)) ↔ s.sh_size = 0 := by
  have hlength : (f.textOf s).segmentData.length = s.sh_size.toNat := by
    change (f.bytesAt s.sh_offset s.sh_size.toNat).length = _
    unfold bytesAt
    rw [List.length_map, List.length_range]
  have hround : ∀ lines k, Traced.Safe BufferRead.Inside (disasmRound (f.textOf s) lines k) ↔
      4 * k + 8 ≤ s.sh_size.toNat := by
    intro lines k
    unfold disasmRound
    rw [Traced.safe_bind_of_ok (a := instrAt (f.textOf s) (4 * k)) rfl,
      and_iff_left (Traced.safe_pure _)]
    refine (List.forall_mem_singleton (p := BufferRead.Inside)).trans ?_
    unfold BufferRead.Inside
    rw [hlength]
  have hgoes : ∀ lines k, (∃ t, (disasmRound (f.textOf s) lines k).value = .ok t) ↔ True :=
    fun lines k => iff_of_true ⟨_, rfl⟩ trivial
  unfold disasmSegment
  rw [Traced.safe_foldlM_range hgoes hround]
  constructor
  · intro h
    by_contra hne
    have hpos : 0 < s.sh_size.toNat := Nat.pos_of_ne_zero fun hzero =>
      hne (BitVec.eq_of_toNat_eq hzero)
    have hlast := h ((s.sh_size.toNat - 1) / 4) (by
      change _ < (s.sh_size.toNat + 3) / 4
      omega) (fun _ _ => trivial)
    omega
  · intro hzero k hk
    change k < (s.sh_size.toNat + 3) / 4 at hk
    rw [hzero] at hk
    exact absurd hk (Nat.not_lt_zero k)

end

/-- The code is listed, and safely, exactly if there is nothing to list. -/
theorem listed_iff {f : ELFFile} {resize : BitVec 64 → Bool} (hplaced : f.CodePlaced)
    (hresize : f.Resizes resize) : f.Listed resize ↔ ∀ s ∈ f.textSections, s.sh_size = 0 := by
  obtain ⟨s, listing, hlast, hvalue, hlines⟩ := listing_of_last hplaced hresize
  have hs : s ∈ f.textSections := List.mem_of_getLast? hlast
  cases (value_disasmELFFile hresize hlast).symm.trans hvalue
  have hcode : ∀ t, f.codeWords t = [] ↔ t.sh_size.toNat / 4 = 0 := fun t =>
    List.map_eq_nil_iff.trans List.range_eq_nil
  constructor
  · rintro ⟨listing', hvalue', hlisted⟩ t ht
    cases hvalue.symm.trans hvalue'
    have hzero := (inBuffer_iff s).mp hlisted.inBuffer
    have hcovers := hlisted.covers
    rw [hlines, (hcode s).mpr (by rw [hzero]; rfl)] at hcovers
    have hnone := List.map_eq_nil_iff.mp (Except.ok.inj hcovers).symm
    have htzero := (hcode t).mp (List.flatMap_eq_nil_iff.mp hnone t ht)
    have htwords := hplaced.words t ht
    exact BitVec.eq_of_toNat_eq (show t.sh_size.toNat = 0 by omega)
  · intro hzero
    have hempty : ∀ t ∈ f.textSections, f.codeWords t = [] := by
      intro t ht
      rw [hcode, hzero t ht]
      rfl
    refine ⟨_, hvalue, ?_, (inBuffer_iff s).mpr (hzero s hs)⟩
    rw [hlines, hempty s hs, List.flatMap_eq_nil_iff.mpr hempty]
    rfl

/-- A header, the null section, and two executable sections with one word each,
at 0x1000 and 0x2000. -/
def twoTexts : ELFFile :=
  { contents :=
      [0x7f, 0x45, 0x4c, 0x46, 2, 1, 1, 0, 0, 0, 0, 0, 0, 0, 0, 0,
        2, 0, 243, 0, 1, 0, 0, 0, 0, 0x10, 0, 0, 0, 0, 0, 0,
        64, 0, 0, 0, 0, 0, 0, 0, 64, 0, 0, 0, 0, 0, 0, 0,
        0, 0, 0, 0, 64, 0, 56, 0, 0, 0, 64, 0, 3, 0, 0, 0] ++
      List.replicate 64 0 ++
      [0, 0, 0, 0, 1, 0, 0, 0, 6, 0, 0, 0, 0, 0, 0, 0,
        0, 0x10, 0, 0, 0, 0, 0, 0, 0, 0, 0, 0, 0, 0, 0, 0,
        4, 0, 0, 0, 0, 0, 0, 0, 0, 0, 0, 0, 0, 0, 0, 0,
        4, 0, 0, 0, 0, 0, 0, 0, 0, 0, 0, 0, 0, 0, 0, 0] ++
      [0, 0, 0, 0, 1, 0, 0, 0, 6, 0, 0, 0, 0, 0, 0, 0,
        0, 0x20, 0, 0, 0, 0, 0, 0, 4, 0, 0, 0, 0, 0, 0, 0,
        4, 0, 0, 0, 0, 0, 0, 0, 0, 0, 0, 0, 0, 0, 0, 0,
        4, 0, 0, 0, 0, 0, 0, 0, 0, 0, 0, 0, 0, 0, 0, 0]
    contents_lt := by
      simp only [List.length_append, List.length_replicate, List.length_cons, List.length_nil]
      decide }

theorem codePlaced_twoTexts : twoTexts.CodePlaced :=
  ⟨by decide +kernel, by decide +kernel, by decide +kernel, by decide +kernel, by decide +kernel⟩

/-- Of two words the first is not listed, and the second is read with four bytes
from behind the buffer. -/
theorem twoTexts_mislisted : ¬∀ (f : ELFFile) (resize : BitVec 64 → Bool), f.CodePlaced →
    f.Resizes resize → f.Listed resize := by
  intro h
  obtain ⟨listing, hvalue, hlisted⟩ :=
    h twoTexts (fun _ => true) codePlaced_twoTexts fun _ _ => rfl
  have hlast : twoTexts.textSections.getLast? = some (twoTexts.sectionAt 192) := by
    decide +kernel
  cases (value_disasmELFFile (fun _ _ => rfl) hlast).symm.trans hvalue
  have hzero := (inBuffer_iff _).mp hlisted.inBuffer
  revert hzero
  decide +kernel

theorem listed_iff_twoTexts : twoTexts.Listed (fun _ => true) ↔
    ∀ s ∈ twoTexts.textSections, s.sh_size = 0 :=
  listed_iff codePlaced_twoTexts fun _ _ => rfl

end ELFFile

end Rv64Emu
