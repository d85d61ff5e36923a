import Rv64Emu.Frontend.Testing

/-! The register initialisers of the command line: what is accepted, and what it
is read as. A string of another form is not rejected, and a leading zero makes
a number octal. -/
namespace Rv64Emu.RegisterInit

open CStrings

/-- One or two decimal digits. -/
def IsName (name : Text) : Prop :=
  (∀ c ∈ name, isDigitOf 10 c = true) ∧ 1 ≤ name.length ∧ name.length ≤ 2

/-- An initialiser by its parts. -/
def Spells (s name literal : Text) : Prop :=
  IsName name ∧ ∃ r, (r = 'r' ∨ r = 'R') ∧ s = r :: (name ++ '=' :: literal)

/-- A decimal literal, or a hexadecimal one with the prefix. -/
inductive Denotes : Text → Nat → Prop where
  | decimal {cs : Text} : cs ≠ [] → (∀ c ∈ cs, isDigitOf 10 c = true) → Denotes cs (numeral 10 cs)
  | hexadecimal {cs : Text} : cs ≠ [] → (∀ c ∈ cs, isDigitOf 16 c = true) →
      Denotes ('0' :: 'x' :: cs) (numeral 16 cs)

def initialised (name : Text) (value : Nat) : RegisterInit :=
  { number := BitVec.ofNat 8 (numeral 10 name), value := BitVec.ofNat 64 value }

/-- An exception, or a well-formed string and what it denotes. -/
def Sound (s : Text) : Prop :=
  (∃ e, ofString s = .error e) ∨ ∃ name literal value, Spells s name literal ∧
    Denotes literal value ∧ value < 2 ^ 64 ∧ ofString s = .ok (initialised name value)

/-- The numeral of a register with that of a value in one of the two bases. -/
def Complete (s : Text) : Prop :=
  ∀ number < 32, ∀ value : RegValue, ∀ literal,
    literal = Nat.toDigits 10 value.toNat ∨
      (∃ cs, cs ≠ [] ∧ (∀ c ∈ cs, isDigitOf 16 c = true) ∧ numeral 16 cs = value.toNat ∧
        literal = '0' :: 'x' :: cs) →
    s = 'r' :: (Nat.toDigits 10 number ++ '=' :: literal) →
      ofString s = .ok { number := BitVec.ofNat 8 number, value := value }

/-- A literal that is read as what it denotes, or refused for its size. -/
inductive Readable : Text → Prop where
  | hexadecimal {cs : Text} : cs ≠ [] → (∀ c ∈ cs, isDigitOf 10 c = true) →
      Readable ('0' :: 'x' :: cs)
  | decimal {c : Char} {cs : Text} : (∀ d ∈ c :: cs, isDigitOf 10 d = true) →
      c ≠ '0' ∨ numeral 10 cs < 8 ∨ 2 ^ 64 ≤ numeral 8 (cs.takeWhile (isDigitOf 8)) →
      Readable (c :: cs)

/-- The literals that the regular expression lets through. -/
inductive Matched : Text → Prop where
  | hexadecimal {cs : Text} : cs ≠ [] → (∀ c ∈ cs, isDigitOf 10 c = true) →
      Matched ('0' :: 'x' :: cs)
  | decimal {cs : Text} : cs ≠ [] → (∀ c ∈ cs, isDigitOf 10 c = true) → Matched cs

/-! ### Numbers -/

theorem isNumber_eq (c : Char) : isNumber c = isDigitOf 10 c := by
  unfold isNumber isDigitOf digitValue
  by_cases hc : '0' ≤ c ∧ c ≤ '9'
  · have hle : c.toNat ≤ '9'.toNat := UInt32.le_iff_toNat_le.mp hc.2
    have hlt : c.toNat - '0'.toNat < 10 := by
      change c.toNat ≤ 57 at hle
      change c.toNat - 48 < 10
      omega
    rw [if_pos hc, decide_eq_true hlt, decide_eq_true hc.1, decide_eq_true hc.2]
    rfl
  · have hge : ∀ n : Nat, ¬n + 10 < 10 := fun n => by omega
    rw [if_neg hc, ← Bool.decide_and, decide_eq_false hc, eq_comm, decide_eq_false_iff_not]
    split
    · exact hge _
    · split
      · exact hge _
      · decide

/-- Read as octal up to the first other digit, a decimal number keeps its value
only if it has one digit that counts. -/
theorem numeral_octal_cases {cs : Text} (h : ∀ c ∈ cs, isDigitOf 10 c = true) :
    numeral 8 (cs.takeWhile (isDigitOf 8)) = numeral 10 cs ∧ numeral 10 cs < 8 ∨
      numeral 8 (cs.takeWhile (isDigitOf 8)) < numeral 10 cs ∧ 8 ≤ numeral 10 cs := by
  induction cs with
  | nil => exact .inl ⟨rfl, by decide⟩
  | cons c cs ih =>
    obtain ⟨hc, hcs⟩ := List.forall_mem_cons.mp h
    have hdigit : digitValue c < 10 := digitValue_lt hc
    by_cases hoctal : isDigitOf 8 c = true
    · have hlength : (cs.takeWhile (isDigitOf 8)).length ≤ cs.length :=
        (List.takeWhile_prefix _).length_le
      rw [List.takeWhile_cons_of_pos hoctal, numeral_cons, numeral_cons]
      obtain hzero | hpos := Nat.eq_zero_or_pos (digitValue c)
      · rw [hzero, Nat.mul_zero, Nat.mul_zero, Nat.add_zero, Nat.add_zero]
        exact ih hcs
      · cases cs with
        | nil =>
          refine .inl ⟨rfl, ?_⟩
          have := digitValue_lt hoctal
          simpa using this
        | cons d ds =>
          -- The digit counts for a power of ten that the power of eight does not reach.
          refine .inr ?_
          have hpowers : 8 ^ ((d :: ds).takeWhile (isDigitOf 8)).length < 10 ^ (d :: ds).length :=
            Nat.lt_of_le_of_lt (Nat.pow_le_pow_right (by decide) hlength)
              (Nat.pow_lt_pow_left (by decide) (by simp))
          have hten : 10 ≤ 10 ^ (d :: ds).length := by
            rw [List.length_cons, Nat.pow_succ]
            exact Nat.le_mul_of_pos_left 10 (Nat.pow_pos (by decide))
          have hlarge : 10 ^ (d :: ds).length ≤ 10 ^ (d :: ds).length * digitValue c :=
            Nat.le_mul_of_pos_right _ hpos
          have hsmaller := Nat.mul_lt_mul_of_pos_right hpowers hpos
          obtain ⟨hsame, -⟩ | ⟨hless, -⟩ := ih hcs
          all_goals omega
    · rw [List.takeWhile_cons_of_neg hoctal, numeral_nil, numeral_cons]
      have hlarge : 8 ≤ digitValue c := Nat.le_of_not_lt (mt decide_eq_true hoctal)
      have hpower : 0 < 10 ^ cs.length := Nat.pow_pos (by decide)
      have hmul := Nat.mul_le_mul hpower hlarge
      exact .inr (by omega)

/-- Where the separator is not in front of it, it is found. -/
theorem split_unique {a : Char} {u u' v v' : Text} (hu : a ∉ u) (hu' : a ∉ u')
    (h : u ++ a :: v = u' ++ a :: v') : u = u' ∧ v = v' := by
  induction u generalizing u' with
  | nil =>
    cases u' with
    | nil => exact ⟨rfl, (List.cons.inj h).2⟩
    | cons b u' => exact absurd ((List.cons.inj h).1 ▸ List.mem_cons_self) hu'
  | cons b u ih =>
    cases u' with
    | nil => exact absurd ((List.cons.inj h).1 ▸ List.mem_cons_self) hu
    | cons b' u' =>
      obtain ⟨rfl, htail⟩ := List.cons.inj h
      obtain ⟨rfl, rfl⟩ := ih (mt (List.mem_cons_of_mem b) hu) (mt (List.mem_cons_of_mem b) hu')
        htail
      exact ⟨rfl, rfl⟩

/-! ### The regular expression -/

theorem eq_of_spells {s name literal name' literal' : Text} (h : Spells s name literal)
    (h' : Spells s name' literal') : name = name' ∧ literal = literal' := by
  obtain ⟨⟨hname, -⟩, r, -, rfl⟩ := h
  obtain ⟨⟨hname', -⟩, r', -, heq⟩ := h'
  have hnot : ∀ n : Text, (∀ c ∈ n, isDigitOf 10 c = true) → '=' ∉ n := fun n hn hmem =>
    absurd (hn '=' hmem) (by decide)
  exact split_unique (hnot _ hname) (hnot _ hname') (List.cons.inj heq).2

theorem forall_isNumber_iff (cs : Text) :
    (∀ c ∈ cs, isNumber c = true) ↔ ∀ c ∈ cs, isDigitOf 10 c = true :=
  forall₂_congr fun c _ => by rw [isNumber_eq]

theorem ne_nil_iff_length (cs : Text) : cs ≠ [] ↔ 1 ≤ cs.length := List.length_pos_iff.symm

theorem describes_init_iff {s : Text} {groups : Regex.Groups Char} :
    init_regex.Describes s groups ↔ ∃ name literal, Spells s name literal ∧ Matched literal ∧
      groups = [(1, name), (2, literal)] := by
  constructor
  · rintro ⟨_, _, _, _, rfl, rfl, ⟨r, hr, rfl, rfl⟩, name, _, _, _, rfl, rfl,
      ⟨_, rfl, hname, hmin, hmax, rfl⟩, _, literal, _, _, rfl, rfl, ⟨e, he, rfl, rfl⟩, _, rfl,
      hliteral⟩
    cases eq_of_beq he
    rw [Bool.or_eq_true, beq_iff_eq, beq_iff_eq] at hr
    refine ⟨name, literal, ⟨⟨(forall_isNumber_iff name).mp hname, hmin, hmax 2 rfl⟩, r, hr, rfl⟩,
      ?_⟩
    obtain ⟨_, _, _, _, rfl, rfl, ⟨z, hz, rfl, rfl⟩, _, cs, _, _, rfl, rfl, ⟨x, hx, rfl, rfl⟩, hcs,
      hlength, -, rfl⟩ | ⟨hcs, hlength, -, rfl⟩ := hliteral
    · cases eq_of_beq hz
      cases eq_of_beq hx
      exact ⟨.hexadecimal ((ne_nil_iff_length cs).mpr hlength) ((forall_isNumber_iff cs).mp hcs),
        rfl⟩
    · exact ⟨.decimal ((ne_nil_iff_length literal).mpr hlength)
        ((forall_isNumber_iff literal).mp hcs), rfl⟩
  · rintro ⟨name, literal, ⟨⟨hname, hmin, hmax⟩, r, hr, rfl⟩, hmatched, rfl⟩
    refine ⟨[r], _, [], _, rfl, rfl, ⟨r, ?_, rfl, rfl⟩, name, _, [(1, name)], _, rfl, rfl,
      ⟨[], rfl, (forall_isNumber_iff name).mpr hname, hmin, ?_, rfl⟩, ['='], literal, [],
      [(2, literal)], rfl, rfl, ⟨'=', rfl, rfl, rfl⟩, [], rfl, ?_⟩
    · rw [Bool.or_eq_true, beq_iff_eq, beq_iff_eq]
      exact hr
    · rintro n hn
      cases hn
      exact hmax
    · cases hmatched with
      | @hexadecimal cs hne hcs =>
        exact .inl ⟨['0'], _, [], [], rfl, rfl, ⟨'0', rfl, rfl, rfl⟩, ['x'], cs, [], [], rfl, rfl,
          ⟨'x', rfl, rfl, rfl⟩, (forall_isNumber_iff cs).mpr hcs, (ne_nil_iff_length cs).mp hne,
          nofun, rfl⟩
      | decimal hne hcs =>
        exact .inr ⟨(forall_isNumber_iff literal).mpr hcs, (ne_nil_iff_length literal).mp hne,
          nofun, rfl⟩

theorem stoul_name {name : Text} (h : IsName name) :
    stoul name = .ok (BitVec.ofNat 64 (numeral 10 name)) ∧ numeral 10 name < 100 := by
  obtain ⟨hdigits, hmin, hmax⟩ := h
  have hlt : numeral 10 name < 100 := Nat.lt_of_lt_of_le (numeral_lt (by decide) hdigits)
    (Nat.pow_le_pow_right (by decide) hmax)
  exact ⟨stoull_of_lt (scan_ten ((ne_nil_iff_length name).mpr hmin) hdigits) (by omega), hlt⟩

section

variable {s name literal : Text}

/-- A string that matches holds its number, and its value unless that is too large. -/
theorem ofString_of_matched {n : Nat} (hspells : Spells s name literal)
    (hmatched : Matched literal) (hscan : scan 0 literal = some (false, n)) :
    ofString s =
      if 2 ^ 64 ≤ n then .error (.conversion .outOfRange) else .ok (initialised name n) := by
  have hfound : init_regex.fullMatch s = some [(1, name), (2, literal)] := by
    refine Regex.fullMatch_eq_some (describes_init_iff.mpr ⟨name, literal, hspells, hmatched, rfl⟩)
      fun groups' h => ?_
    obtain ⟨name', literal', hspells', -, rfl⟩ := describes_init_iff.mp h
    obtain ⟨rfl, rfl⟩ := eq_of_spells hspells hspells'
    rfl
  obtain ⟨hstoul, hlt⟩ := stoul_name hspells.1
  have hnumber : (BitVec.ofNat 64 (numeral 10 name)).toNat = numeral 10 name := by
    rw [BitVec.toNat_ofNat, Nat.mod_eq_of_lt (by omega)]
  have hbyte : (BitVec.ofNat 64 (numeral 10 name)).setWidth 8 = BitVec.ofNat 8 (numeral 10 name) :=
    BitVec.eq_of_toNat_eq (by rw [BitVec.toNat_setWidth, hnumber, BitVec.toNat_ofNat])
  unfold ofString
  rw [hfound]
  change (convert (stoul name) >>= fun regnum => _) = _
  rw [hstoul]
  change (if MaxRegs ≤ (BitVec.ofNat 64 (numeral 10 name)).toNat then (Except.error _) else
    convert (stoull 0 literal) >>= fun value =>
      pure (RegisterInit.mk ((BitVec.ofNat 64 (numeral 10 name)).setWidth 8) value)) = _
  rw [hnumber, hbyte, if_neg (by unfold MaxRegs; omega), stoull_of_scan hscan]
  by_cases hlarge : 2 ^ 64 ≤ n
  · rw [if_pos hlarge, if_pos hlarge]
    rfl
  · rw [if_neg hlarge, if_neg hlarge]
    rfl

/-- A string that does not match is no error. -/
theorem ofString_of_unmatched
    (h : ∀ name literal, Spells s name literal → ¬Matched literal) : ofString s = .ok {} := by
  have hnone : init_regex.fullMatch s = none := by
    refine Regex.fullMatch_eq_none_iff.mpr fun groups hdescribes => ?_
    obtain ⟨name, literal, hspells, hmatched, -⟩ := describes_init_iff.mp hdescribes
    exact h name literal hspells hmatched
  unfold ofString
  rw [hnone]

/-! ### Literals -/

theorem Denotes.unique {n n' : Nat} (h : Denotes literal n) (h' : Denotes literal n') :
    n = n' := by
  have hmark : ∀ cs : Text, ¬∀ c ∈ '0' :: 'x' :: cs, isDigitOf 10 c = true := fun cs h =>
    absurd (h 'x' (List.mem_cons_of_mem _ List.mem_cons_self)) (by decide)
  cases h with
  | decimal _ hdigits =>
    cases h' with
    | decimal => rfl
    | hexadecimal => exact absurd hdigits (hmark _)
  | hexadecimal =>
    cases h' with
    | decimal _ hdigits => exact absurd hdigits (hmark _)
    | hexadecimal => rfl

theorem Readable.matched (h : Readable literal) : Matched literal := by
  cases h with
  | hexadecimal hne hdigits => exact .hexadecimal hne hdigits
  | decimal hdigits _ => exact .decimal (List.cons_ne_nil _ _) hdigits

/-- What is read is not more than what is denoted, and the same if it fits. -/
theorem scan_of_readable (h : Readable literal) : ∃ n n', scan 0 literal = some (false, n) ∧
    Denotes literal n' ∧ n ≤ n' ∧ (2 ^ 64 ≤ n ∨ n = n') := by
  cases h with
  | @hexadecimal cs hne hdigits =>
    have hhex : ∀ c ∈ cs, isDigitOf 16 c = true := fun c hc =>
      isDigitOf_mono (by decide) (hdigits c hc)
    exact ⟨_, _, scan_zero_hexadecimal (.inl rfl) hne hhex, .hexadecimal hne hhex, Nat.le_refl _,
      .inr rfl⟩
  | @decimal c cs hdigits hcase =>
    by_cases hc : c = '0'
    · subst hc
      have hcs := (List.forall_mem_cons.mp hdigits).2
      refine ⟨_, _, scan_zero_octal (hasHexPrefix_of_digits hcs),
        .decimal (List.cons_ne_nil _ _) hdigits, ?_, ?_⟩
      · rw [numeral_zero_cons]
        obtain ⟨hsame, -⟩ | ⟨hless, -⟩ := numeral_octal_cases hcs
        · exact Nat.le_of_eq hsame
        · exact Nat.le_of_lt hless
      · rw [numeral_zero_cons]
        obtain hne | hsmall | hlarge := hcase
        · exact absurd rfl hne
        · obtain ⟨hsame, -⟩ | ⟨-, hge⟩ := numeral_octal_cases hcs
          · exact .inr hsame
          · omega
        · exact .inl hlarge
    · exact ⟨_, _, scan_zero_decimal hc hdigits, .decimal (List.cons_ne_nil _ _) hdigits,
        Nat.le_refl _, .inr rfl⟩

/-- Any other decimal literal is read as another number. -/
theorem scan_of_not_readable {cs : Text} (hne : cs ≠ []) (hdigits : ∀ c ∈ cs, isDigitOf 10 c = true)
    (h : ¬Readable cs) : ∃ n, scan 0 cs = some (false, n) ∧ n < 2 ^ 64 ∧ n < numeral 10 cs := by
  obtain ⟨c, cs, rfl⟩ := List.exists_cons_of_ne_nil hne
  obtain ⟨hc, hlarge, hfits⟩ : c = '0' ∧ 8 ≤ numeral 10 cs ∧
      numeral 8 (cs.takeWhile (isDigitOf 8)) < 2 ^ 64 := by
    have hcase := mt (Readable.decimal hdigits) h
    rw [not_or, not_or, not_not, Nat.not_lt, Nat.not_le] at hcase
    exact hcase
  subst hc
  have hcs := (List.forall_mem_cons.mp hdigits).2
  refine ⟨_, scan_zero_octal (hasHexPrefix_of_digits hcs), hfits, ?_⟩
  rw [numeral_zero_cons]
  obtain ⟨-, hsmall⟩ | ⟨hless, -⟩ := numeral_octal_cases hcs
  · omega
  · exact hless

end

/-! ### The two properties -/

theorem sound_of_readable {s name literal : Text} (hspells : Spells s name literal)
    (h : Readable literal) : Sound s := by
  obtain ⟨n, n', hscan, hdenotes, -, hcase⟩ := scan_of_readable h
  have hread := ofString_of_matched hspells h.matched hscan
  by_cases hlarge : 2 ^ 64 ≤ n
  · rw [if_pos hlarge] at hread
    exact .inl ⟨_, hread⟩
  · rw [if_neg hlarge] at hread
    cases hcase.resolve_left hlarge
    exact .inr ⟨name, literal, n, hspells, hdenotes, Nat.not_le.mp hlarge, hread⟩

theorem spells_numeral {number : Nat} (h : number < 32) (literal : Text) :
    Spells ('r' :: (Nat.toDigits 10 number ++ '=' :: literal)) (Nat.toDigits 10 number) literal :=
  ⟨⟨fun _ hc => isDigitOf_of_mem_toDigits (by decide) (by decide) hc, Nat.length_toDigits_pos,
    (Nat.length_toDigits_le_iff (by decide) (by decide)).mpr (by omega)⟩, 'r', .inl rfl, rfl⟩

theorem complete_of_readable {s name literal : Text} (hspells : Spells s name literal)
    (h : Readable literal) : Complete s := by
  rintro number hnumber value literal' hform rfl
  obtain ⟨rfl, rfl⟩ := eq_of_spells hspells (spells_numeral hnumber literal')
  have hvalue : Denotes literal value.toNat := by
    obtain rfl | ⟨cs, hne, hdigits, hvalue, rfl⟩ := hform
    · have hdenotes : Denotes (Nat.toDigits 10 value.toNat) _ :=
        .decimal Nat.toDigits_ne_nil fun _ hc =>
          isDigitOf_of_mem_toDigits (by decide) (by decide) hc
      rwa [numeral_toDigits (by decide) (by decide)] at hdenotes
    · exact hvalue ▸ .hexadecimal hne hdigits
  obtain ⟨n, n', hscan, hdenotes, hle, hcase⟩ := scan_of_readable h
  cases hdenotes.unique hvalue
  have hfits := value.isLt
  have hsame : n = value.toNat := hcase.resolve_left (by omega)
  rw [ofString_of_matched hspells h.matched hscan, if_neg (by omega), hsame]
  unfold initialised
  rw [numeral_toDigits (by decide) (by decide), BitVec.ofNat_toNat, BitVec.setWidth_eq]

theorem eq_of_value {n n' : Nat} (h : BitVec.ofNat 64 n = BitVec.ofNat 64 n')
    (hn : n < 2 ^ 64) (hn' : n' < 2 ^ 64) : n = n' := by
  have htoNat := congrArg BitVec.toNat h
  rwa [BitVec.toNat_ofNat, BitVec.toNat_ofNat, Nat.mod_eq_of_lt hn, Nat.mod_eq_of_lt hn'] at htoNat

/-- The digits of zero are zeros in either base. -/
theorem matched_of_denotes_zero {literal : Text} (h : Denotes literal 0) : Matched literal := by
  generalize hzero : 0 = n at h
  cases h with
  | decimal hne hdigits => exact .decimal hne hdigits
  | hexadecimal hne hdigits =>
    have hvalues := digitValue_eq_zero (by decide) hzero.symm
    refine .hexadecimal hne fun c hc => decide_eq_true ?_
    rw [hvalues c hc]
    decide

/-- A string is parsed rightly if it is an initialiser with a readable literal,
and only then. -/
theorem parsed_iff (s : Text) :
    Sound s ∧ Complete s ↔ ∃ name literal, Spells s name literal ∧ Readable literal := by
  constructor
  · rintro ⟨hsound, -⟩
    by_contra hnot
    have hunread : ∀ name literal, Spells s name literal → ¬Readable literal :=
      fun name literal hspells h => hnot ⟨name, literal, hspells, h⟩
    have hmatched : ∀ name literal, Spells s name literal → Matched literal →
        ∃ n, ofString s = .ok (initialised name n) ∧ n < 2 ^ 64 ∧ n < numeral 10 literal ∧
          ∀ c ∈ literal, isDigitOf 10 c = true := by
      intro name literal hspells hliteral
      have hnot := hunread name literal hspells
      cases hliteral with
      | hexadecimal hne hdigits => exact absurd (.hexadecimal hne hdigits) hnot
      | decimal hne hdigits =>
        obtain ⟨n, hscan, hfits, hless⟩ := scan_of_not_readable hne hdigits hnot
        have hread := ofString_of_matched hspells (.decimal hne hdigits) hscan
        rw [if_neg (Nat.not_le.mpr hfits)] at hread
        exact ⟨n, hread, hfits, hless, hdigits⟩
    obtain ⟨e, herror⟩ | ⟨name, literal, value, hspells, hdenotes, hfits, hread⟩ := hsound
    · by_cases hany : ∃ name literal, Spells s name literal ∧ Matched literal
      · obtain ⟨name, literal, hspells, hliteral⟩ := hany
        obtain ⟨n, hread, -⟩ := hmatched name literal hspells hliteral
        cases herror.symm.trans hread
      · cases herror.symm.trans (ofString_of_unmatched fun name literal hspells hliteral =>
          hany ⟨name, literal, hspells, hliteral⟩)
    · by_cases hliteral : Matched literal
      · obtain ⟨n, hread', hfits', hless, hdigits⟩ := hmatched name literal hspells hliteral
        have hsame := eq_of_value (congrArg RegisterInit.value
          (Except.ok.inj (hread.symm.trans hread'))) hfits hfits'
        have hne : literal ≠ [] := by
          rintro rfl
          exact absurd hless (Nat.not_lt_zero n)
        have hvalue := hdenotes.unique (.decimal hne hdigits)
        omega
      · have hdefault : ofString s = .ok {} := by
          refine ofString_of_unmatched fun name' literal' hspells' hliteral' => ?_
          obtain ⟨-, rfl⟩ := eq_of_spells hspells hspells'
          exact hliteral hliteral'
        have hzero := eq_of_value (show BitVec.ofNat 64 value = BitVec.ofNat 64 0 from
          congrArg RegisterInit.value (Except.ok.inj (hread.symm.trans hdefault))) hfits (by decide)
        subst hzero
        exact hliteral (matched_of_denotes_zero hdenotes)
  · rintro ⟨name, literal, hspells, h⟩
    exact ⟨sound_of_readable hspells h, complete_of_readable hspells h⟩

/-- A hexadecimal literal with letters is accepted as a zero for register 0. -/
theorem hexLetters_ignored : ¬∀ s : Text, Sound s ∧ Complete s := by
  intro h
  obtain ⟨-, hcomplete⟩ := h ['r', '5', '=', '0', 'x', 'f', 'f']
  have hread := hcomplete 5 (by decide) 255 ['0', 'x', 'f', 'f']
    (.inr ⟨['f', 'f'], nofun, List.all_eq_true.mp (by decide), by decide, rfl⟩) (by decide +kernel)
  revert hread
  decide +kernel

end Rv64Emu.RegisterInit
