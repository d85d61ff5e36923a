import Mathlib.Data.List.Basic
import Mathlib.Logic.Basic

/-! Options on a command line. A word that begins with a dash holds letters; a letter
may take an argument, which is the rest of its word or the whole next one. -/
namespace Options

variable {α : Type*} (dash : α) (takes : α → Option Bool)

/-- A dash with something behind it. -/
def IsOption (word : List α) : Prop := ∃ c cs, word = dash :: c :: cs

/-- What the rest of a word and the words behind it spell: options, and then the
remaining words, or a letter that is unknown or lacks its argument. -/
inductive Spells : List α → List (List α) → List (α × Option (List α)) →
    Option (List (List α)) → Prop where
  | stop {words : List (List α)} (h : ∀ word ∈ words.head?, ¬IsOption dash word) :
      Spells [] words [] (some words)
  | dashes (words : List (List α)) : Spells [] ([dash, dash] :: words) [] (some words)
  | word {c : α} {cs : List α} {words : List (List α)} {os : List (α × Option (List α))}
      {rest : Option (List (List α))} (hne : c :: cs ≠ [dash]) (h : Spells (c :: cs) words os rest) :
      Spells [] ((dash :: c :: cs) :: words) os rest
  | unknown {c : α} (cs : List α) (words : List (List α)) (hc : takes c = none) :
      Spells (c :: cs) words [] none
  | missing {c : α} (hc : takes c = some true) : Spells [c] [] [] none
  | flag {c : α} {cs : List α} {words : List (List α)} {os : List (α × Option (List α))}
      {rest : Option (List (List α))} (hc : takes c = some false) (h : Spells cs words os rest) :
      Spells (c :: cs) words ((c, none) :: os) rest
  | attached {c x : α} {cs : List α} {words : List (List α)} {os : List (α × Option (List α))}
      {rest : Option (List (List α))} (hc : takes c = some true) (h : Spells [] words os rest) :
      Spells (c :: x :: cs) words ((c, some (x :: cs)) :: os) rest
  | detached {c : α} {argument : List α} {words : List (List α)} {os : List (α × Option (List α))}
      {rest : Option (List (List α))} (hc : takes c = some true) (h : Spells [] words os rest) :
      Spells [c] (argument :: words) ((c, some argument) :: os) rest

/-- The letters that are still to be read. -/
def remaining (tail : List α) (words : List (List α)) : Nat :=
  (tail ++ words.flatten).length

/-- What a letter has taken for its argument is no longer to be read. -/
theorem remaining_argument (c : α) (argument : List α) (words : List (List α)) :
    remaining [] words < remaining (c :: argument) words :=
  Nat.lt_succ_of_le (List.sublist_append_right argument words.flatten).length_le

/-- Every command line spells something. -/
theorem spells_total (tail : List α) (words : List (List α)) :
    ∃ os rest, Spells dash takes tail words os rest := by
  generalize hn : remaining tail words = n
  induction n using Nat.strongRecOn generalizing tail words with
  | ind n ih =>
    have hshorter : ∀ tail' words', remaining tail' words' < remaining tail words →
        ∃ os rest, Spells dash takes tail' words' os rest :=
      fun tail' words' hlt => ih _ (hn ▸ hlt) tail' words' rfl
    cases tail with
    | nil =>
      by_cases hword : ∀ word ∈ words.head?, ¬IsOption dash word
      · exact ⟨[], some words, .stop hword⟩
      · push Not at hword
        obtain ⟨word, hmem, c, cs, rfl⟩ := hword
        cases words with
        | nil => cases hmem
        | cons word words =>
          cases hmem
          by_cases hdash : c :: cs = [dash]
          · cases hdash
            exact ⟨[], some words, .dashes words⟩
          · obtain ⟨os, rest, h⟩ := hshorter (c :: cs) words (Nat.lt_succ_self _)
            exact ⟨os, rest, .word hdash h⟩
    | cons c cs =>
      cases hc : takes c with
      | none => exact ⟨[], none, .unknown cs words hc⟩
      | some argument =>
        cases argument with
        | false =>
          obtain ⟨os, rest, h⟩ := hshorter cs words (Nat.lt_succ_self _)
          exact ⟨_, rest, .flag hc h⟩
        | true =>
          cases cs with
          | cons x cs =>
            obtain ⟨os, rest, h⟩ := hshorter [] words (remaining_argument c (x :: cs) words)
            exact ⟨_, rest, .attached hc h⟩
          | nil =>
            cases words with
            | nil => exact ⟨[], none, .missing hc⟩
            | cons word words =>
              obtain ⟨os, rest, h⟩ := hshorter [] words (remaining_argument c word words)
              exact ⟨_, rest, .detached hc h⟩

variable {dash takes}

theorem length_le_remaining {tail : List α} {words : List (List α)}
    {os : List (α × Option (List α))} {rest : Option (List (List α))}
    (h : Spells dash takes tail words os rest) : os.length ≤ remaining tail words := by
  induction h with
  | stop => exact Nat.zero_le _
  | dashes => exact Nat.zero_le _
  | word _ _ ih => exact Nat.le_succ_of_le ih
  | unknown => exact Nat.zero_le _
  | missing => exact Nat.zero_le _
  | flag _ _ ih => exact Nat.succ_le_succ ih
  | attached _ _ ih => exact Nat.lt_of_le_of_lt ih (remaining_argument _ _ _)
  | @detached c argument words _ _ _ _ ih =>
    exact Nat.lt_of_le_of_lt ih (remaining_argument c argument words)

end Options
