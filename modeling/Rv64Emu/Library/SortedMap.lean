import Mathlib.Data.List.Pairwise
import Mathlib.Order.Lattice

/-! Ordered maps with unique keys, as lists of entries. -/
structure SortedMap (κ ν : Type) [LinearOrder κ] where
  entries : List (κ × ν)
  sorted : entries.Pairwise fun e e' => e.1 < e'.1

namespace SortedMap

variable {κ ν : Type} [LinearOrder κ]

def empty : SortedMap κ ν := ⟨[], List.Pairwise.nil⟩

theorem nodup_keys (m : SortedMap κ ν) : (m.entries.map Prod.fst).Nodup :=
  List.pairwise_map.mpr (m.sorted.imp ne_of_lt)

/-- Insert an entry at its place, unless its key is there. -/
def insertEntry (entry : κ × ν) : List (κ × ν) → List (κ × ν)
  | [] => [entry]
  | e :: es =>
    if entry.1 < e.1 then entry :: e :: es
    else if e.1 < entry.1 then e :: insertEntry entry es
    else e :: es

theorem mem_of_mem_insertEntry {entry e : κ × ν} {es : List (κ × ν)}
    (h : e ∈ insertEntry entry es) : e = entry ∨ e ∈ es := by
  induction es with
  | nil => exact .inl (List.mem_singleton.mp h)
  | cons e' es ih =>
    unfold insertEntry at h
    split at h
    · exact List.mem_cons.mp h
    · split at h
      · obtain rfl | h := List.mem_cons.mp h
        · exact .inr List.mem_cons_self
        · exact (ih h).imp_right (List.mem_cons_of_mem e')
      · exact .inr h

theorem sorted_insertEntry (entry : κ × ν) {es : List (κ × ν)}
    (hsorted : es.Pairwise fun e e' => e.1 < e'.1) :
    (insertEntry entry es).Pairwise fun e e' => e.1 < e'.1 := by
  induction es with
  | nil => exact List.pairwise_singleton _ entry
  | cons e es ih =>
    obtain ⟨hhead, htail⟩ := List.pairwise_cons.mp hsorted
    unfold insertEntry
    split
    · next hlt =>
      refine List.pairwise_cons.mpr ⟨fun e' he' => ?_, hsorted⟩
      obtain rfl | he' := List.mem_cons.mp he'
      · exact hlt
      · exact lt_trans hlt (hhead e' he')
    · split
      · next hgt =>
        refine List.pairwise_cons.mpr ⟨fun e' he' => ?_, ih htail⟩
        obtain rfl | he' := mem_of_mem_insertEntry he'
        · exact hgt
        · exact hhead e' he'
      · exact hsorted

/-- A key that is there keeps its value. -/
def emplace (m : SortedMap κ ν) (key : κ) (value : ν) : SortedMap κ ν :=
  ⟨insertEntry (key, value) m.entries, sorted_insertEntry _ m.sorted⟩

/-- A new key comes in, and nothing is lost. -/
theorem perm_emplace {m : SortedMap κ ν} {key : κ} (value : ν)
    (h : key ∉ m.entries.map Prod.fst) :
    (m.emplace key value).entries.Perm ((key, value) :: m.entries) := by
  change (insertEntry (key, value) m.entries).Perm _
  generalize m.entries = es at h
  induction es with
  | nil => exact List.Perm.refl _
  | cons e es ih =>
    rw [List.map_cons, List.mem_cons, not_or] at h
    unfold insertEntry
    split
    · exact List.Perm.refl _
    · next hnot =>
      rw [if_pos (lt_of_le_of_ne (not_lt.mp hnot) (Ne.symm h.1))]
      exact ((ih h.2).cons e).trans (List.Perm.swap (key, value) e es)

end SortedMap
