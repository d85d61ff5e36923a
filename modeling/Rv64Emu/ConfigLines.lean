import Rv64Emu.Frontend.ConfigFile

/-! The lines of a configuration file: headers, pairs, and lines that say nothing. The
matcher finds what is written on them. -/
namespace Rv64Emu.ConfigFile

/-- What a line is to the parser. -/
inductive LineKind where
  | header (name : Text)
  | keyValue (key value : Text)
  | other
  deriving DecidableEq, Repr

/-! ### What is written -/

/-- `\s` -/
def isWhite (c : Char) : Bool := [' ', '\t', '\n', '\x0b', '\x0c', '\r'].contains c

/-- Letters and digits in brackets; nothing but white space follows. -/
def bracketed : Text → Option Text
  | '[' :: text =>
    match text.dropWhile Char.isAlphanum with
    | ']' :: rest =>
      if text.takeWhile Char.isAlphanum ≠ [] ∧ rest.all isWhite = true then
        some (text.takeWhile Char.isAlphanum)
      else none
    | _ => none
  | _ => none

/-- A letter, and no white space behind it. -/
def isKey : Text → Bool
  | [] => false
  | c :: key => c.isAlpha && key.all (!isWhite ·)

/-- A word behind an equals sign, with white space around the sign. -/
def assigned (text : Text) : Option Text :=
  match text.dropWhile isWhite with
  | '=' :: rest =>
    if rest.dropWhile isWhite ≠ [] ∧ (rest.dropWhile isWhite).all (!isWhite ·) = true then
      some (rest.dropWhile isWhite)
    else none
  | _ => none

/-- The longest key behind which a value is assigned. -/
def pair (text : Text) : Option KeyValue :=
  (List.range (text.length + 1)).reverse.findSome? fun n =>
    if isKey (text.take n) then (assigned (text.drop n)).map (text.take n, ·) else none

/-- What a line says, its newlines and carriage returns left out. -/
def classify (line : Text) : LineKind :=
  let text := line.filter fun c => c ≠ '\n' ∧ c ≠ '\r'
  match bracketed text, pair text with
  | some name, _ => .header name
  | none, some (key, value) => .keyValue key value
  | none, none => .other

theorem bracketed_eq_some_iff {text name : Text} : bracketed text = some name ↔
    ∃ rest, text = '[' :: (name ++ ']' :: rest) ∧ name ≠ [] ∧ (∀ c ∈ name, c.isAlphanum = true) ∧
      ∀ c ∈ rest, isWhite c = true := by
  constructor
  · intro h
    unfold bracketed at h
    split at h
    · next text =>
      split at h
      · next rest hrest =>
        split_ifs at h with hname
        cases h
        refine ⟨rest, ?_, hname.1, fun c hc => List.mem_takeWhile_imp hc,
          List.all_eq_true.mp hname.2⟩
        rw [← hrest, List.takeWhile_append_dropWhile]
      · cases h
    · cases h
  · rintro ⟨rest, rfl, hne, hname, hrest⟩
    have hstop : ∀ c ∈ (']' :: rest).head?, c.isAlphanum = false := by
      rintro c ⟨⟩
      rfl
    rw [bracketed, CStrings.dropWhile_append_stop hname hstop,
      CStrings.takeWhile_append_stop hname hstop]
    exact if_pos ⟨hne, List.all_eq_true.mpr hrest⟩

theorem assigned_eq_some_iff {text value : Text} : assigned text = some value ↔
    ∃ before after, text = before ++ '=' :: (after ++ value) ∧ (∀ c ∈ before, isWhite c = true) ∧
      (∀ c ∈ after, isWhite c = true) ∧ value ≠ [] ∧ ∀ c ∈ value, (!isWhite c) = true := by
  constructor
  · intro h
    unfold assigned at h
    split at h
    · next rest hrest =>
      split_ifs at h with hvalue
      cases h
      refine ⟨text.takeWhile isWhite, rest.takeWhile isWhite, ?_,
        fun c hc => List.mem_takeWhile_imp hc, fun c hc => List.mem_takeWhile_imp hc, hvalue.1,
        List.all_eq_true.mp hvalue.2⟩
      rw [List.takeWhile_append_dropWhile, ← hrest, List.takeWhile_append_dropWhile]
    · cases h
  · rintro ⟨before, after, rfl, hbefore, hafter, hne, hvalue⟩
    have hsign : ∀ c ∈ ('=' :: (after ++ value)).head?, isWhite c = false := by
      rintro c ⟨⟩
      rfl
    have hword : ∀ c ∈ value.head?, isWhite c = false := fun c hc => by
      simpa using hvalue c (List.mem_of_mem_head? hc)
    have hrest : (after ++ value).dropWhile isWhite = value :=
      CStrings.dropWhile_append_stop hafter hword
    unfold assigned
    rw [CStrings.dropWhile_append_stop hbefore hsign]
    simp only [hrest]
    exact if_pos ⟨hne, List.all_eq_true.mpr hvalue⟩

theorem isKey_iff {key : Text} : isKey key = true ↔
    ∃ c cs, key = c :: cs ∧ c.isAlpha = true ∧ ∀ d ∈ cs, isWhite d = false := by
  cases key with
  | nil => simp [isKey]
  | cons c cs => simp [isKey]

/-- A pair has a key and a value. -/
theorem parts_of_pair_eq_some {text key value : Text} (h : pair text = some (key, value)) :
    ∃ rest, text = key ++ rest ∧ isKey key = true ∧ assigned rest = some value := by
  obtain ⟨n, -, hn⟩ := List.exists_of_findSome?_eq_some h
  split_ifs at hn with hkey
  obtain ⟨value', hvalue, hpair⟩ := Option.map_eq_some_iff.mp hn
  cases hpair
  exact ⟨text.drop n, (List.take_append_drop n text).symm, hkey, hvalue⟩

/-- A key and a value make a pair, but there may be a longer one. -/
theorem isSome_pair {key rest value : Text} (hkey : isKey key = true)
    (hvalue : assigned rest = some value) : (pair (key ++ rest)).isSome = true := by
  unfold pair
  rw [List.findSome?_isSome_iff]
  refine ⟨key.length, ?_, ?_⟩
  · rw [List.mem_reverse, List.mem_range, List.length_append]
    omega
  · rw [List.take_left, List.drop_left, if_pos hkey, hvalue]
    rfl

/-- Letters and digits make the name of a header. -/
theorem isAlphanum_of_header {line name : Text} (h : classify line = .header name) :
    ∀ c ∈ name, c.isAlphanum = true := by
  unfold classify at h
  dsimp only at h
  split at h
  · next hname =>
    cases h
    obtain ⟨-, -, -, halphanum, -⟩ := bracketed_eq_some_iff.mp hname
    exact halphanum
  · cases h
  · cases h

/-! ### What is matched -/

theorem eraseNewlines_eq_filter (line : Text) :
    eraseNewlines line = line.filter fun c => c ≠ '\n' ∧ c ≠ '\r' := by
  unfold eraseNewlines
  rw [List.filter_filter]
  apply List.filter_congr
  intro c _
  rw [Bool.eq_iff_iff, Bool.and_eq_true, bne_iff_ne, bne_iff_ne, decide_eq_true_eq, and_comm]

theorem isSpace_eq : CStrings.isSpace = isWhite := by
  funext c
  rw [Bool.eq_iff_iff]
  simp [CStrings.isSpace, isWhite, or_assoc]

theorem isLetter_eq : isLetter = Char.isAlpha := by
  funext c
  have hupper : (decide ('A' ≤ c) && decide (c ≤ 'Z')) = c.isUpper := (Bool.decide_and _ _).symm
  have hlower : (decide ('a' ≤ c) && decide (c ≤ 'z')) = c.isLower := rfl
  rw [isLetter, hupper, hlower]
  exact Bool.or_comm _ _

theorem isNumber_eq : isNumber = Char.isDigit := by
  funext c
  rw [Bool.eq_iff_iff]
  simp only [isNumber, Char.isDigit, Bool.and_eq_true, decide_eq_true_eq, Char.le_def, ge_iff_le]

theorem describes_section_iff {text : Text} {groups : Regex.Groups Char} :
    sectionRegex.Describes text groups ↔ ∃ name ∈ bracketed text, groups = [(1, name)] := by
  unfold sectionRegex
  rw [isSpace_eq, isLetter_eq, isNumber_eq]
  constructor
  · rintro ⟨_, _, _, _, rfl, rfl, ⟨b, hb, rfl, rfl⟩, name, _, _, _, rfl, rfl,
      ⟨_, rfl, hname, hlength, -, rfl⟩, _, rest, _, _, rfl, rfl, ⟨e, he, rfl, rfl⟩, hrest, -, -,
      rfl⟩
    cases eq_of_beq hb
    cases eq_of_beq he
    exact ⟨name, bracketed_eq_some_iff.mpr
      ⟨rest, rfl, List.ne_nil_of_length_pos hlength, hname, hrest⟩, rfl⟩
  · rintro ⟨name, hbracketed, rfl⟩
    obtain ⟨rest, rfl, hne, hname, hrest⟩ := bracketed_eq_some_iff.mp hbracketed
    exact ⟨['['], name ++ ']' :: rest, [], [(1, name)], rfl, rfl, ⟨'[', rfl, rfl, rfl⟩, name,
      ']' :: rest, [(1, name)], [], rfl, rfl,
      ⟨[], rfl, hname, List.length_pos_iff.mpr hne, nofun, rfl⟩, [']'], rest, [], [], rfl, rfl,
      ⟨']', rfl, rfl, rfl⟩, hrest, Nat.zero_le _, nofun, rfl⟩

/-- The part of the second expression behind the key. -/
theorem describes_assigned_iff {text : Text} {groups : Regex.Groups Char} :
    (Regex.seq (.repeated isWhite 0 none) <| .seq (.single (· == '=')) <|
      .seq (.repeated isWhite 0 none) (.group 2 (.repeated (!isWhite ·) 1 none))).Describes
        text groups ↔ ∃ value ∈ assigned text, groups = [(2, value)] := by
  constructor
  · rintro ⟨before, _, _, _, rfl, rfl, ⟨hbefore, -, -, rfl⟩, _, _, _, _, rfl, rfl,
      ⟨b, hb, rfl, rfl⟩, after, value, _, _, rfl, rfl, ⟨hafter, -, -, rfl⟩, _, rfl, hvalue, hlength,
      -, rfl⟩
    cases eq_of_beq hb
    exact ⟨value, assigned_eq_some_iff.mpr
      ⟨before, after, rfl, hbefore, hafter, List.ne_nil_of_length_pos hlength, hvalue⟩, rfl⟩
  · rintro ⟨value, hassigned, rfl⟩
    obtain ⟨before, after, rfl, hbefore, hafter, hne, hvalue⟩ := assigned_eq_some_iff.mp hassigned
    exact ⟨before, '=' :: (after ++ value), [], [(2, value)], rfl, rfl,
      ⟨hbefore, Nat.zero_le _, nofun, rfl⟩, ['='], after ++ value, [], [(2, value)], rfl, rfl,
      ⟨'=', rfl, rfl, rfl⟩, after, value, [], [(2, value)], rfl, rfl,
      ⟨hafter, Nat.zero_le _, nofun, rfl⟩, [], rfl, hvalue, List.length_pos_iff.mpr hne, nofun, rfl⟩

theorem fullMatch_section (text : Text) :
    sectionRegex.fullMatch text = (bracketed text).map fun name => [(1, name)] :=
  Regex.fullMatch_eq_map fun _ => describes_section_iff

/-! ### The longest key -/

theorem findSome?_congr {α β : Type} {f g : α → Option β} {l : List α} (h : ∀ a ∈ l, f a = g a) :
    l.findSome? f = l.findSome? g := by
  have hmap : ∀ f : α → Option β, l.findSome? f = (l.map f).findSome? id := fun f => by
    rw [List.findSome?_map, Function.id_comp]
  rw [hmap f, hmap g, List.map_congr_left h]

/-- Attempts that fail may be left out. -/
theorem findSome?_reverse_range {β : Type} {f g : Nat → Option β} {k m : Nat} (hkm : k ≤ m)
    (hle : ∀ n ≤ k, f n = g n) (hgt : ∀ n, k < n → n ≤ m → f n = none) :
    (List.range (m + 1)).reverse.findSome? f = (List.range (k + 1)).reverse.findSome? g := by
  induction m, hkm using Nat.le_induction with
  | base =>
    refine findSome?_congr fun n hn => hle n ?_
    rw [List.mem_reverse, List.mem_range] at hn
    omega
  | succ m hkm ih =>
    rw [List.range_succ, List.reverse_append, List.reverse_singleton, List.singleton_append,
      List.findSome?_cons, hgt (m + 1) (Nat.lt_succ_of_le hkm) (Nat.le_refl _)]
    exact ih fun n hlt hle => hgt n hlt (Nat.le_succ_of_le hle)

theorem all_take_iff {p : Char → Bool} {cs : Text} {n : Nat} (h : n ≤ cs.length) :
    (cs.take n).all p = true ↔ n ≤ (cs.takeWhile p).length := by
  induction cs generalizing n with
  | nil =>
    rw [Nat.le_zero.mp h]
    simp
  | cons c cs ih =>
    cases n with
    | zero => simp
    | succ n =>
      have ih := ih (Nat.le_of_succ_le_succ h)
      by_cases hc : p c = true
      · rw [List.take_succ_cons, List.all_cons, hc, Bool.true_and, List.takeWhile_cons_of_pos hc,
          List.length_cons, Nat.succ_le_succ_iff]
        exact ih
      · simp [hc]

/-- Keys are tried that are words from the beginning of the text. -/
theorem pair_cons (c : Char) (cs : Text) : pair (c :: cs) =
    if c.isAlpha = true then
      (List.range ((cs.takeWhile (!isWhite ·)).length + 1)).reverse.findSome? fun n =>
        (assigned (cs.drop n)).map (c :: cs.take n, ·)
    else none := by
  unfold pair
  rw [List.length_cons, List.range_succ_eq_map, List.reverse_cons, List.findSome?_append,
    ← List.map_reverse, List.findSome?_map]
  change (_ : Option KeyValue).or none = _
  rw [Option.or_none]
  by_cases hc : c.isAlpha = true
  · rw [if_pos hc]
    have hkey : ∀ n ≤ cs.length, isKey ((c :: cs).take (n + 1)) = true ↔
        n ≤ (cs.takeWhile (!isWhite ·)).length := by
      intro n hn
      rw [List.take_succ_cons, isKey, hc, Bool.true_and, all_take_iff hn]
    refine findSome?_reverse_range (List.takeWhile_sublist _).length_le ?_ ?_
    · intro n hn
      exact if_pos ((hkey n (hn.trans (List.takeWhile_sublist _).length_le)).mpr hn)
    · intro n hlt hn
      exact if_neg (mt (hkey n hn).mp (Nat.not_le_of_lt hlt))
  · rw [if_neg hc, List.findSome?_eq_none_iff]
    intro n _
    refine if_neg ?_
    rw [List.take_succ_cons, isKey, Bool.and_eq_true]
    exact fun h => hc h.1

theorem fullMatch_keyValue (text : Text) : keyValueRegex.fullMatch text =
    (pair text).map fun kv => [(1, kv.1), (2, kv.2)] := by
  unfold keyValueRegex
  rw [isSpace_eq, isLetter_eq, Regex.fullMatch_seq]
  cases text with
  | nil => rfl
  | cons c cs =>
    have hrun : (Regex.group 1 (.seq (.single Char.isAlpha)
        (.repeated (!isWhite ·) 0 none))).run (c :: cs) =
          if c.isAlpha = true then
            (List.range ((cs.takeWhile (!isWhite ·)).length + 1)).reverse.map fun n =>
              ⟨c :: cs.take n, cs.drop n, [(1, c :: cs.take n)]⟩
          else [] := by
      rw [Regex.run, Regex.run, Regex.run]
      by_cases hc : c.isAlpha = true
      · rw [if_pos hc, if_pos hc, List.flatMap_singleton, Regex.run_repeated, List.map_map,
          List.map_map]
        rfl
      · rw [if_neg hc, if_neg hc]
        rfl
    rw [hrun, pair_cons]
    by_cases hc : c.isAlpha = true
    · rw [if_pos hc, if_pos hc, List.findSome?_map, List.map_findSome?]
      congr 1
      funext n
      rw [Function.comp_apply, Function.comp_apply,
        Regex.fullMatch_eq_map fun _ => describes_assigned_iff, Option.map_map, Option.map_map]
      rfl
    · rw [if_neg hc, if_neg hc]
      rfl

/-- What the matcher finds on a line is what the line says. -/
theorem classify_eq (line : Text) : classify line =
    match sectionRegex.fullMatch (eraseNewlines line) with
    | some found => .header (found.capture 1)
    | none =>
      match keyValueRegex.fullMatch (eraseNewlines line) with
      | some found => .keyValue (found.capture 1) (found.capture 2)
      | none => .other := by
  rw [fullMatch_section, fullMatch_keyValue, eraseNewlines_eq_filter]
  unfold classify
  dsimp only
  cases bracketed _ with
  | some name => rfl
  | none =>
    cases pair _ with
    | some kv => rfl
    | none => rfl

example : classify "a=b = c\r".toList = .keyValue "a=b".toList "c".toList := by
  decide +kernel

end Rv64Emu.ConfigFile
