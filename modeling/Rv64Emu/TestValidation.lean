import Rv64Emu.RegisterInitialisers
import Rv64Emu.Library.Outcomes

/-! The validation of test files. It throws for the register names that it
should accept, and never looks at the values. -/
namespace Rv64Emu.TestFile

open CStrings RegisterInit

/-- A register name with the given letter, and a literal below 2^64. -/
def Assigns (r : Char) (kv : KeyValue) (init : RegisterInit) : Prop :=
  ∃ name n, kv.1 = r :: name ∧ IsName name ∧ Literal kv.2 n ∧ n < 2 ^ 64 ∧
    init = initialised name n

/-- What a property is to be read as. -/
def ReadAs (kv : KeyValue) (init : RegisterInit) : Prop := Assigns 'r' kv init ∨ Assigns 'R' kv init

/-- A register name with a small letter. -/
def IsSmall (kv : KeyValue) : Prop := ∃ name, kv.1 = 'r' :: name ∧ IsName name

/-- The properties that initialise or check registers. -/
def properties (config : ConfigFile) : List KeyValue :=
  config.getProperties pre ++ config.getProperties post

/-- An accepted file has nothing but register assignments, which are read as what they say. -/
def Sound (filename : Text) (lines : Option (List Text)) : Prop :=
  ∀ t, load filename lines = .ok t →
    (∃ inits, t.getPreRegisters = .ok inits ∧
      List.Forall₂ ReadAs (t.config.getProperties pre) inits) ∧
    ∃ inits, t.getPostRegisters = .ok inits ∧
      List.Forall₂ ReadAs (t.config.getProperties post) inits

/-- A file with both sections and nothing but register assignments is accepted. -/
def Complete (filename : Text) (lines : Option (List Text)) : Prop :=
  ∀ s, ConfigFile.load filename lines = .ok s → s.config.hasSection pre = true →
    s.config.hasSection post = true → (∀ kv ∈ properties s.config, ∃ init, ReadAs kv init) →
      ∃ t, load filename lines = .ok t

/-- Every property is an assignment with a capital letter, or the file has both a
small letter to be refused for and a reason to be refused. -/
def Handled (config : ConfigFile) : Prop :=
  (∀ kv ∈ properties config, ∃ init, Assigns 'R' kv init) ∨
    (∃ kv ∈ properties config, IsSmall kv) ∧ ∃ kv ∈ properties config, ∀ init, ¬ReadAs kv init

/-! ### Validation -/

theorem isSome_regname_iff (kv : KeyValue) :
    (regnameRegex.fullMatch kv.1).isSome = true ↔ IsSmall kv := by
  have hdescribes : (∃ groups, regnameRegex.Describes kv.1 groups) ↔ IsSmall kv := by
    constructor
    · rintro ⟨_, _, name, _, _, happend, -, ⟨r, hr, rfl, -⟩, _, -, hname, hmin, hmax, -⟩
      cases eq_of_beq hr
      exact ⟨name, happend, (forall_isNumber_iff name).mp hname, hmin, hmax 2 rfl⟩
    · rintro ⟨name, happend, hname, hmin, hmax⟩
      refine ⟨_, ['r'], name, [], _, happend, rfl, ⟨'r', rfl, rfl, rfl⟩, [], rfl,
        (forall_isNumber_iff name).mpr hname, hmin, ?_, rfl⟩
      rintro n hn
      cases hn
      exact hmax
  rw [← hdescribes, Option.isSome_iff_ne_none, ne_eq, Regex.fullMatch_eq_none_iff, not_forall]
  exact exists_congr fun _ => not_not

/-- A pass that throws for certain elements. -/
theorem forM_ok_iff {α : Type} {refused : α → Bool} {error : α → ConfigError} (l : List α) :
    l.forM (fun a => if refused a then throw (error a) else pure ()) =
        (.ok () : Except ConfigError Unit) ↔ ∀ a ∈ l, refused a = false := by
  induction l with
  | nil => exact ⟨fun _ => List.forall_mem_nil _, fun _ => rfl⟩
  | cons a l ih =>
    rw [List.forall_mem_cons, ← ih]
    change ((if refused a = true then throw (error a) else pure ()) >>= fun _ => l.forM _) = _ ↔ _
    cases refused a with
    | false => exact ⟨fun h => ⟨rfl, h⟩, And.right⟩
    | true => exact ⟨nofun, fun h => nomatch h.1⟩

variable {t : TestFile}

theorem validateSection_ok_iff (sectionName : Text) :
    t.validateSection sectionName = .ok () ↔ t.config.hasSection sectionName = true ∧
      ∀ kv ∈ t.config.getProperties sectionName, ¬IsSmall kv := by
  unfold validateSection
  by_cases hsection : t.config.hasSection sectionName = true
  · rw [if_pos hsection, and_iff_right hsection]
    refine (forM_ok_iff _).trans (forall₂_congr fun kv _ => ?_)
    rw [← isSome_regname_iff, Bool.not_eq_true]
  · rw [if_neg hsection]
    exact ⟨nofun, fun h => absurd h.1 hsection⟩

theorem validate_ok_iff : t.validate = .ok () ↔
    (t.config.hasSection pre = true ∧ t.config.hasSection post = true) ∧
      ∀ kv ∈ properties t.config, ¬IsSmall kv := by
  have hbind : t.validate = .ok () ↔
      t.validateSection pre = .ok () ∧ t.validateSection post = .ok () := by
    change (t.validateSection pre >>= fun _ => t.validateSection post) = _ ↔ _
    cases t.validateSection pre with
    | ok _ => exact ⟨fun h => ⟨rfl, h⟩, And.right⟩
    | error e => exact ⟨nofun, fun h => nomatch h.1⟩
  unfold properties
  rw [hbind, validateSection_ok_iff, validateSection_ok_iff, List.forall_mem_append,
    and_and_and_comm]

theorem load_ok_iff {filename : Text} {lines : Option (List Text)} :
    load filename lines = .ok t ↔ ∃ s, ConfigFile.load filename lines = .ok s ∧
      t = { config := s.config, filename := filename } ∧ t.validate = .ok () := by
  unfold load
  cases ConfigFile.load filename lines with
  | error e => exact ⟨nofun, fun ⟨_, h, _⟩ => nomatch h⟩
  | ok s =>
    change (TestFile.validate ⟨s.config, filename⟩ >>= fun _ =>
      pure (TestFile.mk s.config filename)) = Except.ok t ↔ _
    cases hvalidate : TestFile.validate ⟨s.config, filename⟩ with
    | error e =>
      refine ⟨nofun, ?_⟩
      rintro ⟨s', hs', rfl, hvalid⟩
      cases hs'
      cases hvalidate.symm.trans hvalid
    | ok _ =>
      constructor
      · intro h
        cases h
        exact ⟨s, rfl, rfl, hvalidate⟩
      · rintro ⟨s', hs', rfl, -⟩
        cases hs'
        rfl

/-! ### Registers -/

theorem registerInit_of_assigns {r : Char} {kv : KeyValue} {init : RegisterInit}
    (h : Assigns r kv init) : registerInit kv = .ok init := by
  obtain ⟨name, n, hkey, hname, hliteral, hn, rfl⟩ := h
  have hlt := (stoul_name hname).2
  obtain ⟨hdigits, hmin, -⟩ := hname
  have hnumber : stoi kv.1.tail = .ok (numeral 10 name : Int) := by
    rw [hkey, List.tail_cons]
    unfold stoi
    rw [scan_ten ((ne_nil_iff_length name).mpr hmin) hdigits]
    change (if (numeral 10 name : Int) < -2 ^ 31 ∨ 2 ^ 31 ≤ (numeral 10 name : Int) then _ else
      Except.ok (numeral 10 name : Int)) = _
    rw [if_neg (by omega)]
  unfold registerInit
  rw [hnumber, stoull_of_lt (scan_of_literal hliteral) hn]
  change Except.ok (RegisterInit.mk (BitVec.ofInt 8 (numeral 10 name : Int)) _) = _
  rw [BitVec.ofInt_natCast]
  rfl

theorem registerInit_of_readAs (kv : KeyValue) (init : RegisterInit) (h : ReadAs kv init) :
    registerInit kv = .ok init := h.elim registerInit_of_assigns registerInit_of_assigns

/-- A small letter and a capital one exclude each other. -/
theorem not_isSmall_of_assigns {kv : KeyValue} {init : RegisterInit} (h : Assigns 'R' kv init) :
    ¬IsSmall kv := by
  rintro ⟨name, hkey, -⟩
  obtain ⟨name', -, hkey', -⟩ := h
  exact absurd (List.cons.inj (hkey.symm.trans hkey')).1 (by decide)

theorem assigns_of_readAs {kv : KeyValue} {init : RegisterInit} (h : ReadAs kv init)
    (hsmall : ¬IsSmall kv) : Assigns 'R' kv init := by
  obtain ⟨name, n, hkey, hname, -⟩ | h := h
  · exact absurd ⟨name, hkey, hname⟩ hsmall
  · exact h

theorem getRegisters_ok {sectionName : Text}
    (h : ∀ kv ∈ t.config.getProperties sectionName, ∃ init, ReadAs kv init) :
    ∃ inits, t.getRegisters sectionName = .ok inits ∧
      List.Forall₂ ReadAs (t.config.getProperties sectionName) inits :=
  Outcomes.mapM_ok registerInit_of_readAs h

theorem readAs_of_forall₂ {kvs : List KeyValue} {inits : List RegisterInit}
    (h : List.Forall₂ ReadAs kvs inits) : ∀ kv ∈ kvs, ∃ init, ReadAs kv init := by
  induction h with
  | nil => exact List.forall_mem_nil _
  | cons hread _ ih => exact List.forall_mem_cons.mpr ⟨⟨_, hread⟩, ih⟩

/-- For which files the validation accepts what it should and nothing else. -/
theorem validated_iff (filename : Text) (lines : Option (List Text)) :
    Sound filename lines ∧ Complete filename lines ↔
      ∀ s, ConfigFile.load filename lines = .ok s → s.config.hasSection pre = true →
        s.config.hasSection post = true → Handled s.config := by
  constructor
  · rintro ⟨hsound, hcomplete⟩ s hs hpre hpost
    by_cases hsmall : ∃ kv ∈ properties s.config, IsSmall kv
    · refine .inr ⟨hsmall, ?_⟩
      by_contra hall
      obtain ⟨t, ht⟩ := hcomplete s hs hpre hpost fun kv hkv => by
        by_contra hread
        exact hall ⟨kv, hkv, not_exists.mp hread⟩
      obtain ⟨s', hs', rfl, hvalid⟩ := load_ok_iff.mp ht
      cases hs.symm.trans hs'
      obtain ⟨kv, hkv, hkvSmall⟩ := hsmall
      exact (validate_ok_iff.mp hvalid).2 kv hkv hkvSmall
    · have hnone : ∀ kv ∈ properties s.config, ¬IsSmall kv := fun kv hkv h => hsmall ⟨kv, hkv, h⟩
      have hvalid : TestFile.validate ⟨s.config, filename⟩ = .ok () :=
        validate_ok_iff.mpr ⟨⟨hpre, hpost⟩, hnone⟩
      obtain ⟨⟨inits, -, hbefore⟩, inits', -, hafter⟩ := hsound _ (load_ok_iff.mpr
        ⟨s, hs, rfl, hvalid⟩)
      refine .inl fun kv hkv => ?_
      have hread : ∃ init, ReadAs kv init := (List.mem_append.mp hkv).elim
        (readAs_of_forall₂ hbefore kv) (readAs_of_forall₂ hafter kv)
      exact hread.imp fun init h => assigns_of_readAs h (hnone kv hkv)
  · intro h
    constructor
    · intro t ht
      obtain ⟨s, hs, rfl, hvalid⟩ := load_ok_iff.mp ht
      obtain ⟨⟨hpre, hpost⟩, hnone⟩ := validate_ok_iff.mp hvalid
      obtain hall | ⟨⟨kv, hkv, hsmall⟩, -⟩ := h s hs hpre hpost
      · have hread : ∀ kv ∈ properties s.config, ∃ init, ReadAs kv init := fun kv hkv =>
          (hall kv hkv).imp fun init h => .inr h
        obtain ⟨hbefore, hafter⟩ := List.forall_mem_append.mp hread
        exact ⟨getRegisters_ok hbefore, getRegisters_ok hafter⟩
      · exact absurd hsmall (hnone kv hkv)
    · intro s hs hpre hpost hread
      obtain hall | ⟨-, kv, hkv, hnot⟩ := h s hs hpre hpost
      · refine ⟨_, load_ok_iff.mpr ⟨s, hs, rfl, validate_ok_iff.mpr ⟨⟨hpre, hpost⟩, ?_⟩⟩⟩
        intro kv hkv
        obtain ⟨init, hinit⟩ := hall kv hkv
        exact not_isSmall_of_assigns hinit
      · obtain ⟨init, hinit⟩ := hread kv hkv
        exact absurd hinit (hnot init)

/-- A section `pre` with one small register, and an empty section `post`. -/
def smallRegister : List Text :=
  [['[', 'p', 'r', 'e', ']'], ['r', '1', '=', '0'], ['[', 'p', 'o', 's', 't', ']']]

/-- A register name as the comment in the source gives it is refused. -/
theorem smallRegister_refused : ¬∀ (filename : Text) (lines : Option (List Text)),
    Sound filename lines ∧ Complete filename lines := by
  intro h
  obtain ⟨-, hcomplete⟩ := h [] (some smallRegister)
  cases hload : ConfigFile.load [] (some smallRegister) with
  | error e =>
    have hok : (ConfigFile.load [] (some smallRegister)).isOk = true := by decide +kernel
    rw [hload] at hok
    cases hok
  | ok s =>
    have hconfig : (ConfigFile.load [] (some smallRegister)).map (fun s =>
        (s.config.hasSection pre, s.config.hasSection post, properties s.config)) =
        .ok (true, true, [(['r', '1'], ['0'])]) := by decide +kernel
    rw [hload] at hconfig
    have hfields := Except.ok.inj hconfig
    obtain ⟨hpre, hrest⟩ := Prod.mk.inj hfields
    obtain ⟨hpost, hproperties⟩ := Prod.mk.inj hrest
    have hread : ∀ kv ∈ properties s.config, ∃ init, ReadAs kv init := by
      rw [hproperties]
      intro kv hkv
      cases List.mem_singleton.mp hkv
      refine ⟨initialised ['1'] 0, .inl ⟨['1'], 0, rfl, ?_, ?_, by decide, rfl⟩⟩
      · exact ⟨List.all_eq_true.mp (by decide), by decide, by decide⟩
      · exact Literal.octal (List.forall_mem_nil _)
    obtain ⟨t, ht⟩ := hcomplete s hload hpre hpost hread
    have hrefused : (load [] (some smallRegister)).isOk = false := by decide +kernel
    rw [ht] at hrefused
    cases hrefused

end Rv64Emu.TestFile
