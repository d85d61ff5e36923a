import Mathlib.Data.List.Basic

/-! Texts as sequences of lines. Every line ends with a newline, but for the last one,
which need not. -/
namespace TextLines

/-- The lines of a text, as `std::getline` reads them until it fails. -/
def split : List Char → List Char → List (List Char)
  | line, [] => if line = [] then [] else [line]
  | line, c :: cs => if c = '\n' then line :: split [] cs else split (line ++ [c]) cs

def getlines (text : List Char) : List (List Char) := split [] text

/-- A newline behind each line. -/
def join (lines : List (List Char)) : List Char := lines.flatMap (· ++ ['\n'])

theorem split_append {line cs : List Char} (h : '\n' ∉ cs) (rest : List Char) :
    split line (cs ++ rest) = split (line ++ cs) rest := by
  induction cs generalizing line with
  | nil => rw [List.nil_append, List.append_nil]
  | cons c cs ih =>
    obtain ⟨hc, hcs⟩ := not_or.mp (mt List.mem_cons.mpr h)
    rw [List.cons_append, split, if_neg (Ne.symm hc), ih hcs, List.append_assoc,
      List.singleton_append]

/-- Lines are read as they were written. -/
theorem getlines_join {lines : List (List Char)} (h : ∀ line ∈ lines, '\n' ∉ line) :
    getlines (join lines) = lines := by
  unfold getlines
  induction lines with
  | nil => rfl
  | cons line lines ih =>
    obtain ⟨hhead, htail⟩ := List.forall_mem_cons.mp h
    have hjoin : join (line :: lines) = line ++ '\n' :: join lines :=
      List.append_assoc line ['\n'] (join lines)
    rw [hjoin, split_append hhead, List.nil_append, split, if_pos rfl, ih htail]

end TextLines
