import Rv64Emu.Library.LittleEndian

/-! Byte-addressed memory as an image and the stores made since. The contents of
an address are the byte last stored there. -/
namespace ByteMemory

variable {w : Nat}

/-- Consecutive bytes written from an address on. -/
structure Store (w : Nat) where
  addr : BitVec w
  bytes : List (BitVec 8)
  deriving DecidableEq, Repr

def Store.byteAt (st : Store w) (addr : BitVec w) : Option (BitVec 8) :=
  st.bytes[(addr - st.addr).toNat]?

/-- The byte of the latest store that covers the address. -/
def lastStored (stores : List (Store w)) (addr : BitVec w) : Option (BitVec 8) :=
  stores.reverse.findSome? fun st => st.byteAt addr

def contents (image : BitVec w → BitVec 8) (stores : List (Store w)) (addr : BitVec w) :
    BitVec 8 :=
  (lastStored stores addr).getD (image addr)

/-- The `n` bytes from `addr` on. -/
def loaded (bytes : BitVec w → BitVec 8) (addr : BitVec w) (n : Nat) : List (BitVec 8) :=
  (List.range n).map fun i => bytes (addr + BitVec.ofNat w i)

/-- The memory after one store. -/
def Store.apply (st : Store w) (bytes : BitVec w → BitVec 8) (addr : BitVec w) : BitVec 8 :=
  (st.byteAt addr).getD (bytes addr)

theorem contents_concat (image : BitVec w → BitVec 8) (stores : List (Store w)) (st : Store w) :
    contents image (stores ++ [st]) = st.apply (contents image stores) := by
  funext addr
  unfold contents lastStored Store.apply
  rw [List.reverse_append, List.reverse_singleton, List.singleton_append, List.findSome?_cons]
  cases st.byteAt addr <;> rfl

/-- The contents after further stores, one at a time. -/
theorem contents_append (image : BitVec w → BitVec 8) (stores more : List (Store w)) :
    contents image (stores ++ more) =
      more.foldl (fun bytes st => st.apply bytes) (contents image stores) := by
  induction more generalizing stores with
  | nil => rw [List.append_nil]; rfl
  | cons st more ih =>
    rw [List.append_cons, ih, contents_concat]
    rfl

theorem Store.byteAt_eq_none {st : Store w} {addr : BitVec w}
    (h : st.bytes.length ≤ (addr - st.addr).toNat) : st.byteAt addr = none :=
  List.getElem?_eq_none h

theorem Store.apply_of_byteAt_eq_none {st : Store w} {bytes : BitVec w → BitVec 8}
    {addr : BitVec w} (h : st.byteAt addr = none) : st.apply bytes addr = bytes addr := by
  unfold Store.apply
  rw [h]
  rfl

end ByteMemory
