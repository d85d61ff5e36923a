import Mathlib.Data.BitVec
import Mathlib.Data.List.Basic

/-! Little-endian words over byte lists, and the in-place overwrite of a list
segment. Nothing here depends on the width of the words or on the machine. -/
namespace LittleEndian

/-- The number spelled by a byte list, least significant byte first. -/
def ofBytes : List (BitVec 8) → Nat
  | [] => 0
  | b :: bs => b.toNat + 256 * ofBytes bs

theorem ofBytes_append (xs ys : List (BitVec 8)) :
    ofBytes (xs ++ ys) = ofBytes xs + 256 ^ xs.length * ofBytes ys := by
  induction xs with
  | nil => simp [ofBytes]
  | cons x xs ih =>
    rw [List.cons_append, List.length_cons, Nat.pow_succ]
    change x.toNat + 256 * ofBytes (xs ++ ys) = x.toNat + 256 * ofBytes xs + _
    rw [ih, Nat.mul_add, Nat.mul_comm (256 ^ xs.length) 256, Nat.mul_assoc, Nat.add_assoc]

theorem ofBytes_lt (xs : List (BitVec 8)) : ofBytes xs < 2 ^ (8 * xs.length) := by
  induction xs with
  | nil => decide
  | cons x xs ih =>
    have hx := x.isLt
    rw [List.length_cons, Nat.mul_succ, Nat.pow_add]
    change x.toNat + 256 * ofBytes xs < _
    omega

/-- The `n` low bytes of a word, least significant first. -/
def toBytes (n : Nat) (value : BitVec w) : List (BitVec 8) :=
  (List.range n).map fun i => value.extractLsb' (8 * i) 8

@[simp] theorem length_toBytes (n : Nat) (value : BitVec w) :
    (toBytes n value).length = n := by
  simp [toBytes]

theorem getElem?_toBytes (n : Nat) (value : BitVec w) (i : Nat) :
    (toBytes n value)[i]? = if i < n then some (value.extractLsb' (8 * i) 8) else none := by
  by_cases h : i < n
  · simp [toBytes, h]
  · simp [toBytes, h]

/-- The bytes that a narrower word keeps. -/
theorem toBytes_setWidth (n : Nat) (value : BitVec w) :
    toBytes n (value.setWidth (8 * n)) = toBytes n value := by
  unfold toBytes
  refine List.map_congr_left fun i hi => ?_
  have hin : i < n := List.mem_range.mp hi
  apply BitVec.eq_of_getLsbD_eq
  intro j hj
  have hbit : 8 * i + j < 8 * n := by omega
  simp only [BitVec.getLsbD_extractLsb', BitVec.getLsbD_setWidth, hbit, decide_true, Bool.true_and]

theorem toBytes_succ (n : Nat) (value : BitVec w) :
    toBytes (n + 1) value = value.extractLsb' 0 8 :: toBytes n (value >>> 8) := by
  unfold toBytes
  rw [List.range_succ_eq_map, List.map_cons, List.map_map]
  refine congrArg (_ :: ·) (List.map_congr_left fun i _ => ?_)
  apply BitVec.eq_of_getLsbD_eq
  intro j hj
  simp only [Function.comp_apply, BitVec.getLsbD_extractLsb', BitVec.getLsbD_ushiftRight]
  congr 2
  omega

/-- Reading the bytes of a word gives back what they hold of it. -/
theorem ofBytes_toBytes (n : Nat) (value : BitVec w) :
    ofBytes (toBytes n value) = value.toNat % 2 ^ (8 * n) := by
  induction n generalizing value with
  | zero => simp [toBytes, ofBytes, Nat.mod_one]
  | succ n ih =>
    rw [toBytes_succ]
    change (value.extractLsb' 0 8).toNat + 256 * ofBytes (toBytes n (value >>> 8)) = _
    rw [ih, BitVec.extractLsb'_toNat, BitVec.toNat_ushiftRight, Nat.shiftRight_zero,
      Nat.shiftRight_eq_div_pow, Nat.mul_succ, Nat.add_comm (8 * n) 8, Nat.pow_add, Nat.mod_mul]

theorem ofNat_ofBytes_toBytes {n : Nat} (value : BitVec (8 * n)) :
    BitVec.ofNat (8 * n) (ofBytes (toBytes n value)) = value := by
  rw [ofBytes_toBytes, Nat.mod_eq_of_lt value.isLt, BitVec.ofNat_toNat, BitVec.setWidth_eq]

/-- Replace the segment of `xs` that starts at `off` by `ys`. -/
def splice (xs : List α) (off : Nat) (ys : List α) : List α :=
  xs.take off ++ ys ++ xs.drop (off + ys.length)

theorem length_splice {xs ys : List α} {off : Nat} (h : off + ys.length ≤ xs.length) :
    (splice xs off ys).length = xs.length := by
  simp only [splice, List.length_append, List.length_take, List.length_drop]
  omega

theorem getElem?_splice {xs ys : List α} {off : Nat} (h : off + ys.length ≤ xs.length)
    (i : Nat) :
    (splice xs off ys)[i]? =
      if off ≤ i ∧ i < off + ys.length then ys[i - off]? else xs[i]? := by
  have htake : (xs.take off).length = off := by
    rw [List.length_take]
    omega
  unfold splice
  rw [List.append_assoc]
  by_cases hlow : i < off
  · rw [List.getElem?_append_left (by omega), List.getElem?_take_of_lt hlow,
      if_neg (by omega)]
  · rw [List.getElem?_append_right (by omega), htake]
    by_cases hmid : i < off + ys.length
    · rw [List.getElem?_append_left (by omega), if_pos (by omega)]
    · rw [List.getElem?_append_right (by omega), List.getElem?_drop, if_neg (by omega)]
      congr 1
      omega

/-- The `n` bytes of `xs` from offset `off`. -/
def slice (xs : List α) (off n : Nat) : List α :=
  (xs.drop off).take n

theorem slice_eq_map {xs : List α} {off n : Nat} (f : Nat → α)
    (hf : ∀ i < n, xs[off + i]? = some (f i)) :
    slice xs off n = (List.range n).map f := by
  apply List.ext_getElem?
  intro i
  unfold slice
  by_cases hi : i < n
  · rw [List.getElem?_take_of_lt hi, List.getElem?_drop, hf i hi]
    simp [hi]
  · rw [List.getElem?_eq_none (by rw [List.length_take]; omega)]
    simp [hi]

theorem getElem?_slice (xs : List α) (off n i : Nat) :
    (slice xs off n)[i]? = if i < n then xs[off + i]? else none := by
  unfold slice
  rw [List.getElem?_take, List.getElem?_drop]

theorem slice_splice_self {xs ys : List α} {off : Nat} (h : off + ys.length ≤ xs.length) :
    slice (splice xs off ys) off ys.length = ys := by
  apply List.ext_getElem?
  intro i
  rw [getElem?_slice, getElem?_splice h]
  by_cases hi : i < ys.length
  · rw [if_pos hi, if_pos ⟨Nat.le_add_right off i, Nat.add_lt_add_left hi off⟩,
      Nat.add_sub_cancel_left]
  · rw [if_neg hi, List.getElem?_eq_none (by omega)]

/-- A segment apart from the overwritten one is what it was. -/
theorem slice_splice_of_disjoint {xs ys : List α} {off off' n : Nat}
    (h : off + ys.length ≤ xs.length) (hdisjoint : off' + n ≤ off ∨ off + ys.length ≤ off') :
    slice (splice xs off ys) off' n = slice xs off' n := by
  apply List.ext_getElem?
  intro i
  rw [getElem?_slice, getElem?_slice, getElem?_splice h]
  by_cases hi : i < n
  · rw [if_pos hi, if_pos hi, if_neg (by omega)]
  · rw [if_neg hi, if_neg hi]

end LittleEndian
