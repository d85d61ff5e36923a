import Rv64Emu.Library.Traced
import Rv64Emu.Machine.Processor

/-! The ELF loader. The file is mapped and its headers are read in place, so
that every dereference has an offset in the mapping; the offsets are recorded.
Memory for the sections comes from outside: whether an allocation succeeds is
a parameter. -/
namespace Rv64Emu

inductive LoadError where
  | runtimeError (what : String)
  | invalidArgument (what : String)
  | lengthError
  deriving DecidableEq, Repr

/-- A computation on the mapping, with the offsets that it dereferences. -/
abbrev Loader := Traced LoadError (BitVec 64)

/-- `a && b`: the second operand is evaluated only if the first one holds. -/
def Loader.and (a b : Loader Bool) : Loader Bool := do
  if ← a then b else pure false

/-- A regular file that has been opened; its size is a nonnegative `off_t`. -/
structure ELFFile where
  contents : List Byte
  contents_lt : contents.length < 2 ^ 63

namespace ELFFile

def SHT_PROGBITS : BitVec 32 := 1
def SHT_NOBITS : BitVec 32 := 8
def SHF_WRITE : BitVec 64 := 0x1
def SHF_ALLOC : BitVec 64 := 0x2
def SHF_EXECINSTR : BitVec 64 := 0x4
def ELFCLASS64 : Byte := 2
def ELFDATA2LSB : Byte := 1
def EV_CURRENT : Nat := 1
def ET_EXEC : BitVec 16 := 2
def ET_DYN : BitVec 16 := 3
def EM_RISCV : BitVec 16 := 243

variable (f : ELFFile)

def programSize : Nat := f.contents.length

/-- The byte of the mapping at an offset. The rest of the last page is zero;
further out the process is killed, and what follows in the model stands for
nothing. -/
def peek (offset : BitVec 64) : Byte := f.contents.getD offset.toNat 0

def bytesAt (offset : BitVec 64) (n : Nat) : List Byte :=
  (List.range n).map fun i => f.peek (offset + BitVec.ofNat 64 i)

/-- The value of a field of `n` bytes. -/
def fieldAt (offset : BitVec 64) (n : Nat) : BitVec (8 * n) :=
  BitVec.ofNat (8 * n) (LittleEndian.ofBytes (f.bytesAt offset n))

def offsetsOf (offset : BitVec 64) (n : Nat) : List (BitVec 64) :=
  (List.range n).map fun i => offset + BitVec.ofNat 64 i

def load_field (offset : BitVec 64) (n : Nat) : Loader (BitVec (8 * n)) :=
  ⟨.ok (f.fieldAt offset n), offsetsOf offset n⟩

/-- `std::copy_n` from the mapping. -/
def copy_n (offset : BitVec 64) (n : Nat) : Loader (List Byte) :=
  ⟨.ok (f.bytesAt offset n), offsetsOf offset n⟩

/-! ### The ELF header -/

def e_ident (i : BitVec 64) : Loader (BitVec 8) := f.load_field i 1
def e_type : Loader (BitVec 16) := f.load_field 16 2
def e_machine : Loader (BitVec 16) := f.load_field 18 2
def e_version : Loader (BitVec 32) := f.load_field 20 4
def e_entry : Loader (BitVec 64) := f.load_field 24 8
def e_phoff : Loader (BitVec 64) := f.load_field 32 8
def e_shoff : Loader (BitVec 64) := f.load_field 40 8
def e_shnum : Loader (BitVec 16) := f.load_field 60 2

def isELF : Loader Bool :=
  Loader.and ((· == 0x7f) <$> f.e_ident 0) <|
  Loader.and ((· == 0x45) <$> f.e_ident 1) <|
  Loader.and ((· == 0x4c) <$> f.e_ident 2) <|
  Loader.and ((· == 0x46) <$> f.e_ident 3) <|
  ((· == BitVec.ofNat 8 EV_CURRENT) <$> f.e_ident 6)

/-- The machine and the version are checked of programs only. -/
def isProgramFor (machine : BitVec 16) : Loader Bool := do
  let isProgram ← do
    if (← f.e_type) = ET_EXEC then pure true else (· == ET_DYN) <$> f.e_type
  if isProgram then
    Loader.and ((· == machine) <$> f.e_machine) ((· == BitVec.ofNat 32 EV_CURRENT) <$> f.e_version)
  else pure true

/-- A proper ELF executable must have a program header. -/
def isTarget (elf_class endianness : Byte) (machine : BitVec 16) : Loader Bool :=
  Loader.and ((· == elf_class) <$> f.e_ident 4) <|
  Loader.and ((· == endianness) <$> f.e_ident 5) <|
  Loader.and (f.isProgramFor machine) <|
  ((· != 0) <$> f.e_phoff)

/-- `load`, once the file is open; an empty file cannot be mapped. -/
def load : Loader Unit := do
  if f.programSize = 0 then Traced.throw (.runtimeError "Failed to setup memory map.")
  else if ← Loader.and f.isELF (f.isTarget ELFCLASS64 ELFDATA2LSB EM_RISCV) then pure ()
  else Traced.throw (.invalidArgument "File is not a RISC-V ELF file.")

/-! ### The section headers -/

def sh_type (header : BitVec 64) : Loader (BitVec 32) := f.load_field (header + 4) 4
def sh_flags (header : BitVec 64) : Loader (BitVec 64) := f.load_field (header + 8) 8
def sh_addr (header : BitVec 64) : Loader (BitVec 64) := f.load_field (header + 16) 8
def sh_offset (header : BitVec 64) : Loader (BitVec 64) := f.load_field (header + 24) 8
def sh_size (header : BitVec 64) : Loader (BitVec 64) := f.load_field (header + 32) 8
def sh_addralign (header : BitVec 64) : Loader (BitVec 64) := f.load_field (header + 48) 8

def hasFlag (flags flag : BitVec 64) : Bool := flags &&& flag == flag

/-- The body of the loop in `foreachSegment`; headers are 64 bytes apart. -/
def visitSection (func : σ → BitVec 64 → Loader σ) (shoff : BitVec 64) (acc : σ) (i : Nat) :
    Loader σ := do
  let header := shoff + BitVec.ofNat 64 (64 * i)
  if hasFlag (← f.sh_flags header) SHF_ALLOC then func acc header else pure acc

/-- The loop condition reads `e_shnum` over and over; here it is read once. -/
def foreachSegment (func : σ → BitVec 64 → Loader σ) (init : σ) : Loader σ := do
  let shoff ← f.e_shoff
  let shnum ← f.e_shnum
  (List.range shnum.toNat).foldlM (f.visitSection func shoff) init

/-! ### Memories -/

/-- Aligned `operator new[]`: from the alignment and the size, the address or null. -/
abbrev Allocator := BitVec 64 → BitVec 64 → Option (BitVec 64)

/-- The alignment check masks the address with a truth value. -/
def newSegment (allocate : Allocator) (align size : BitVec 64) : Except LoadError Unit :=
  match allocate align size with
  | none => .error (.runtimeError "Could not allocate aligned memory.")
  | some segment =>
    if segment &&& (if align - 1 ≠ 0 then 1 else 0) ≠ 0 then
      .error (.runtimeError "Allocated pointer for segment is not aligned.")
    else .ok ()

/-- The section data, or as many zeros. -/
def segmentData (header : BitVec 64) (size : BitVec 64) : Loader (List Byte) := do
  if (← f.sh_type header) = SHT_PROGBITS then f.copy_n (← f.sh_offset header) size.toNat
  else pure (List.replicate size.toNat 0)

/-- A memory over an array with room for `size` bytes. -/
def newMemory (data : List Byte) (base size : BitVec 64) (mayWrite : Bool) : Memory :=
  { mayWrite := mayWrite
    base := base
    size := size
    data := (List.range size.toNat).map fun i => data.getD i 0
    data_length := by simp }

/-- The function that `createMemories` applies to every section. -/
def createMemory (allocate : Allocator) (memories : List Memory) (header : BitVec 64) :
    Loader (List Memory) := do
  let align ← f.sh_addralign header
  let size ← f.sh_size header
  match newSegment allocate align size with
  | .error e => Traced.throw e
  | .ok () => do
    let data ← f.segmentData header size
    let base ← f.sh_addr header
    let flags ← f.sh_flags header
    return memories ++ [newMemory data base size (hasFlag flags SHF_WRITE)]

def createMemories (allocate : Allocator) : Loader (List Memory) :=
  f.foreachSegment (f.createMemory allocate) []

/-! ### The text segment -/

structure TextSegment where
  found : Bool := false
  segmentData : List Byte := []
  segmentBase : BitVec 64 := 0
  segmentSize : BitVec 64 := 0
  deriving DecidableEq

/-- The function that `getTextSegment` applies to every section; `resize` tells
whether the vector can be given that size. -/
def copyText (resize : BitVec 64 → Bool) (segment : TextSegment) (header : BitVec 64) :
    Loader TextSegment := do
  if hasFlag (← f.sh_flags header) SHF_EXECINSTR then
    let size ← f.sh_size header
    if resize size then
      let data ← f.copy_n (← f.sh_offset header) size.toNat
      let base ← f.sh_addr header
      return { found := true, segmentData := data, segmentBase := base, segmentSize := size }
    else Traced.throw .lengthError
  else return segment

def getTextSegment (resize : BitVec 64 → Bool) : Loader TextSegment :=
  f.foreachSegment (f.copyText resize) {}

def getEntrypoint : Loader (BitVec 64) := f.e_entry

/-- What the constructor of `Processor` takes from the file. -/
def program (allocate : Allocator) : Loader Program := do
  let memories ← f.createMemories allocate
  let entrypoint ← f.getEntrypoint
  return { memories := memories, entrypoint := entrypoint }

end ELFFile

end Rv64Emu
