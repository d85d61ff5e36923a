import Mathlib.Data.List.Basic

/-! Regular expressions with groups, and the backtracking matcher that tries
the alternatives in order and repeats as often as it can. Only single symbols
are repeated. -/
inductive Regex (α : Type) where
  | single (p : α → Bool)
  | repeated (p : α → Bool) (min : Nat) (max : Option Nat)
  | seq (r s : Regex α)
  | alt (r s : Regex α)
  | group (index : Nat) (r : Regex α)

namespace Regex

variable {α : Type}

/-- The text of every group that took part, by the index of the group. -/
abbrev Groups (α : Type) := List (Nat × List α)

/-- One way to match the beginning of a text. -/
structure Found (α : Type) where
  consumed : List α
  rest : List α
  groups : Groups α

namespace Found

def cons (a : α) (m : Found α) : Found α := { m with consumed := a :: m.consumed }

/-- What was found after another one. -/
def after (m n : Found α) : Found α :=
  { consumed := m.consumed ++ n.consumed
    rest := n.rest
    groups := m.groups ++ n.groups }

def close (index : Nat) (m : Found α) : Found α :=
  { m with groups := m.groups ++ [(index, m.consumed)] }

end Found

/-- One more symbol first, then no more. -/
def repeats (p : α → Bool) : Nat → Option Nat → List α → List (Found α)
  | min, _, [] => if min = 0 then [⟨[], [], []⟩] else []
  | min, max, a :: as =>
    (if p a = true ∧ max ≠ some 0 then
      (repeats p (min - 1) (max.map (· - 1)) as).map (Found.cons a) else []) ++
    if min = 0 then [⟨[], a :: as, []⟩] else []

/-- All ways to match the beginning of a text, in the order in which they are tried. -/
def run : Regex α → List α → List (Found α)
  | single _, [] => []
  | single p, a :: as => if p a then [⟨[a], as, []⟩] else []
  | repeated p min max, as => repeats p min max as
  | seq r s, as => (r.run as).flatMap fun m => (s.run m.rest).map m.after
  | alt r s, as => r.run as ++ s.run as
  | group index r, as => (r.run as).map (Found.close index)

/-- The groups of the first way to match the whole text. -/
def fullMatch (r : Regex α) (as : List α) : Option (Groups α) :=
  ((r.run as).find? (·.rest.isEmpty)).map (·.groups)

/-- The text of a group, empty if it took no part. -/
def Groups.capture (groups : Groups α) (index : Nat) : List α :=
  ((groups.find? (·.1 == index)).map (·.2)).getD []

/-- What a regular expression describes: texts, with their groups. -/
def Describes : Regex α → List α → Groups α → Prop
  | single p, as, groups => ∃ a, p a = true ∧ as = [a] ∧ groups = []
  | repeated p min max, as, groups =>
    (∀ a ∈ as, p a = true) ∧ min ≤ as.length ∧ (∀ n ∈ max, as.length ≤ n) ∧ groups = []
  | seq r s, as, groups => ∃ as₁ as₂ groups₁ groups₂, as = as₁ ++ as₂ ∧
      groups = groups₁ ++ groups₂ ∧ r.Describes as₁ groups₁ ∧ s.Describes as₂ groups₂
  | alt r s, as, groups => r.Describes as groups ∨ s.Describes as groups
  | group index r, as, groups =>
    ∃ inner, groups = inner ++ [(index, as)] ∧ r.Describes as inner

theorem mem_stop_iff {m : Found α} {min : Nat} {as : List α} :
    (m ∈ if min = 0 then [⟨[], as, []⟩] else []) ↔ min = 0 ∧ m = ⟨[], as, []⟩ := by
  by_cases hmin : min = 0
  · rw [if_pos hmin, List.mem_singleton, and_iff_right hmin]
  · rw [if_neg hmin]
    exact ⟨nofun, fun h => absurd h.1 hmin⟩

/-- Nothing is consumed. -/
theorem describes_nil_iff {p : α → Bool} {min : Nat} {max : Option Nat} {groups : Groups α} :
    (repeated p min max).Describes [] groups ↔ min = 0 ∧ groups = [] := by
  constructor
  · rintro ⟨-, hmin, -, hgroups⟩
    exact ⟨Nat.le_zero.mp hmin, hgroups⟩
  · rintro ⟨rfl, rfl⟩
    exact ⟨List.forall_mem_nil _, Nat.le_refl 0, fun n _ => Nat.zero_le n, rfl⟩

/-- One symbol more. -/
theorem describes_cons_iff {p : α → Bool} {min : Nat} {max : Option Nat} {a : α} {as : List α}
    {groups : Groups α} :
    (repeated p min max).Describes (a :: as) groups ↔ (p a = true ∧ max ≠ some 0) ∧
      (repeated p (min - 1) (max.map (· - 1))).Describes as groups := by
  unfold Describes
  rw [List.forall_mem_cons, List.length_cons]
  cases max with
  | none =>
    constructor
    · rintro ⟨⟨ha, has⟩, hmin, -, hgroups⟩
      exact ⟨⟨ha, nofun⟩, has, by omega, nofun, hgroups⟩
    · rintro ⟨⟨ha, -⟩, has, hmin, -, hgroups⟩
      exact ⟨⟨ha, has⟩, by omega, nofun, hgroups⟩
  | some n =>
    have hbound : ∀ l k : Nat, (∀ i ∈ some k, l ≤ i) ↔ l ≤ k := by
      intro l k
      constructor
      · exact fun h => h k rfl
      · rintro h i hi
        cases hi
        exact h
    rw [Option.map_some, hbound, hbound, ne_eq, Option.some.injEq]
    constructor
    · rintro ⟨⟨ha, has⟩, hmin, hmax, hgroups⟩
      exact ⟨⟨ha, by omega⟩, has, by omega, by omega, hgroups⟩
    · rintro ⟨⟨ha, hpos⟩, has, hmin, hmax, hgroups⟩
      exact ⟨⟨ha, has⟩, by omega, by omega, hgroups⟩

theorem mem_repeats_iff {p : α → Bool} {min : Nat} {max : Option Nat} {as : List α}
    {m : Found α} : m ∈ repeats p min max as ↔
      as = m.consumed ++ m.rest ∧ (repeated p min max).Describes m.consumed m.groups := by
  induction as generalizing min max m with
  | nil =>
    unfold repeats
    rw [mem_stop_iff]
    constructor
    · rintro ⟨hmin, rfl⟩
      exact ⟨rfl, describes_nil_iff.mpr ⟨hmin, rfl⟩⟩
    · rintro ⟨happend, h⟩
      obtain ⟨hconsumed, hrest⟩ := List.append_eq_nil_iff.mp happend.symm
      rw [hconsumed] at h
      obtain ⟨hmin, hgroups⟩ := describes_nil_iff.mp h
      cases m
      cases hconsumed
      cases hrest
      cases hgroups
      exact ⟨hmin, rfl⟩
  | cons a as ih =>
    unfold repeats
    rw [List.mem_append, mem_stop_iff]
    constructor
    · rintro (hmore | ⟨hmin, rfl⟩)
      · split at hmore
        · next hmay =>
          obtain ⟨m', hm', rfl⟩ := List.mem_map.mp hmore
          obtain ⟨rfl, h⟩ := ih.mp hm'
          exact ⟨rfl, describes_cons_iff.mpr ⟨hmay, h⟩⟩
        · cases hmore
      · exact ⟨rfl, describes_nil_iff.mpr ⟨hmin, rfl⟩⟩
    · obtain ⟨consumed, rest, groups⟩ := m
      rintro ⟨happend, h⟩
      cases consumed with
      | nil =>
        obtain ⟨hmin, hgroups⟩ := describes_nil_iff.mp h
        cases hgroups
        cases happend
        exact .inr ⟨hmin, rfl⟩
      | cons b consumed =>
        cases happend
        obtain ⟨hmay, h⟩ := describes_cons_iff.mp h
        refine .inl ?_
        rw [if_pos hmay]
        exact List.mem_map.mpr ⟨⟨consumed, rest, groups⟩, ih.mpr ⟨rfl, h⟩, rfl⟩

/-- The matcher finds what the expression describes, and nothing else. -/
theorem mem_run_iff {r : Regex α} {as : List α} {m : Found α} :
    m ∈ r.run as ↔ as = m.consumed ++ m.rest ∧ r.Describes m.consumed m.groups := by
  induction r generalizing as m with
  | single p =>
    cases as with
    | nil =>
      refine ⟨nofun, ?_⟩
      rintro ⟨happend, a, -, hconsumed, -⟩
      rw [hconsumed] at happend
      cases happend
    | cons b as =>
      unfold run
      constructor
      · intro hm
        split at hm
        · next hb =>
          cases List.mem_singleton.mp hm
          exact ⟨rfl, b, hb, rfl, rfl⟩
        · cases hm
      · obtain ⟨consumed, rest, groups⟩ := m
        rintro ⟨happend, a, ha, rfl, rfl⟩
        cases happend
        rw [if_pos ha]
        exact List.mem_singleton_self _
  | repeated p min max => exact mem_repeats_iff
  | seq r s ihr ihs =>
    unfold run
    rw [List.mem_flatMap]
    constructor
    · rintro ⟨m₁, hm₁, hm⟩
      obtain ⟨m₂, hm₂, rfl⟩ := List.mem_map.mp hm
      obtain ⟨rfl, h₁⟩ := ihr.mp hm₁
      obtain ⟨hrest, h₂⟩ := ihs.mp hm₂
      refine ⟨?_, m₁.consumed, m₂.consumed, m₁.groups, m₂.groups, rfl, rfl, h₁, h₂⟩
      change _ = (m₁.consumed ++ m₂.consumed) ++ m₂.rest
      rw [hrest, List.append_assoc]
    · rintro ⟨rfl, as₁, as₂, groups₁, groups₂, hconsumed, hgroups, h₁, h₂⟩
      refine ⟨⟨as₁, as₂ ++ m.rest, groups₁⟩, ihr.mpr ⟨?_, h₁⟩, List.mem_map.mpr
        ⟨⟨as₂, m.rest, groups₂⟩, ihs.mpr ⟨rfl, h₂⟩, ?_⟩⟩
      · rw [hconsumed, List.append_assoc]
      · change Found.mk (as₁ ++ as₂) m.rest (groups₁ ++ groups₂) = m
        rw [← hconsumed, ← hgroups]
  | alt r s ihr ihs =>
    unfold run
    rw [List.mem_append, ihr, ihs, ← and_or_left]
    rfl
  | group index r ih =>
    unfold run
    rw [List.mem_map]
    constructor
    · rintro ⟨m', hm', rfl⟩
      obtain ⟨happend, h⟩ := ih.mp hm'
      exact ⟨happend, m'.groups, rfl, h⟩
    · rintro ⟨happend, inner, hgroups, h⟩
      refine ⟨⟨m.consumed, m.rest, inner⟩, ih.mpr ⟨happend, h⟩, ?_⟩
      change Found.mk m.consumed m.rest (inner ++ [(index, m.consumed)]) = m
      rw [← hgroups]

section

variable {r : Regex α} {as : List α} {groups : Groups α}

theorem describes_of_fullMatch (h : r.fullMatch as = some groups) : r.Describes as groups := by
  unfold fullMatch at h
  obtain ⟨m, hm, rfl⟩ := Option.map_eq_some_iff.mp h
  obtain ⟨happend, hdescribes⟩ := mem_run_iff.mp (List.mem_of_find?_eq_some hm)
  have hrest : m.rest = [] :=
    List.isEmpty_iff.mp (List.find?_some (p := fun m : Found α => m.rest.isEmpty) hm)
  rw [happend, hrest, List.append_nil]
  exact hdescribes

theorem fullMatch_eq_none_iff : r.fullMatch as = none ↔ ∀ groups, ¬r.Describes as groups := by
  constructor
  · intro h groups hdescribes
    unfold fullMatch at h
    have hnone := List.find?_eq_none.mp (Option.map_eq_none_iff.mp h) ⟨as, [], groups⟩
      (mem_run_iff.mpr ⟨(List.append_nil as).symm, hdescribes⟩)
    exact hnone rfl
  · intro h
    cases hmatch : r.fullMatch as with
    | none => rfl
    | some groups => exact absurd (describes_of_fullMatch hmatch) (h groups)

/-- Where the groups are determined, the order of the attempts does not matter. -/
theorem fullMatch_eq_some (h : r.Describes as groups)
    (hunique : ∀ groups', r.Describes as groups' → groups' = groups) :
    r.fullMatch as = some groups := by
  cases hmatch : r.fullMatch as with
  | none => exact absurd h (fullMatch_eq_none_iff.mp hmatch groups)
  | some groups' => rw [hunique groups' (describes_of_fullMatch hmatch)]

/-- Where at most one value is described, it is what is found. -/
theorem fullMatch_eq_map {β : Type} {o : Option β} {f : β → Groups α}
    (h : ∀ groups, r.Describes as groups ↔ ∃ b ∈ o, groups = f b) : r.fullMatch as = o.map f := by
  cases o with
  | none =>
    refine fullMatch_eq_none_iff.mpr fun groups hdescribes => ?_
    obtain ⟨b, hb, -⟩ := (h groups).mp hdescribes
    cases hb
  | some b =>
    refine fullMatch_eq_some ((h _).mpr ⟨b, rfl, rfl⟩) fun groups' hdescribes => ?_
    obtain ⟨b', hb', rfl⟩ := (h groups').mp hdescribes
    cases hb'
    rfl

end

/-! ### The order of the attempts -/

/-- The first expression is given every way in turn, until the rest matches. -/
theorem fullMatch_seq (r s : Regex α) (as : List α) : (seq r s).fullMatch as =
    (r.run as).findSome? fun m => (s.fullMatch m.rest).map (m.groups ++ ·) := by
  unfold fullMatch
  rw [run, List.find?_flatMap, List.map_findSome?]
  congr 1
  funext m
  rw [Function.comp_apply, List.find?_map, Option.map_map, Option.map_map]
  rfl

/-- As many symbols as there are first, then ever fewer. -/
theorem run_repeated (p : α → Bool) (as : List α) : (repeated p 0 none).run as =
    (List.range ((as.takeWhile p).length + 1)).reverse.map fun n =>
      ⟨as.take n, as.drop n, []⟩ := by
  unfold run
  induction as with
  | nil => rfl
  | cons a as ih =>
    unfold repeats
    by_cases ha : p a = true
    · rw [if_pos ⟨ha, nofun⟩, if_pos rfl, List.takeWhile_cons_of_pos ha, List.length_cons,
        List.range_succ_eq_map, List.reverse_cons, List.map_append, ← List.map_reverse,
        List.map_map]
      change (repeats p 0 none as).map _ ++ _ = _
      rw [ih, List.map_map]
      rfl
    · rw [if_neg fun h => ha h.1, if_pos rfl, List.takeWhile_cons_of_neg ha]
      rfl

end Regex
