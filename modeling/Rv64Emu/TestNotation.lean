import Rv64Emu.ConfigParsing
import Rv64Emu.TestValidation

/-! Test files as they are written. What a file says of the registers is read back from
it, and a file is refused for a register that occurs twice in one section. -/
namespace Rv64Emu

/-! ### Pairs -/

namespace ConfigFile

/-- White space that can stand around the sign of a pair. -/
def isBlank (c : Char) : Bool := c == ' ' || c == '\t'

/-- What names and values consist of here. -/
def isPlain (c : Char) : Bool := !CStrings.isSpace c && c != '='

theorem isSpace_of_isBlank {c : Char} (h : isBlank c = true) : CStrings.isSpace c = true := by
  unfold isBlank at h
  rw [Bool.or_eq_true, beq_iff_eq, beq_iff_eq] at h
  obtain rfl | rfl := h <;> rfl

theorem isPlain_iff {c : Char} : isPlain c = true ↔ CStrings.isSpace c = false ∧ c ≠ '=' := by
  unfold isPlain
  simp

theorem isPlain_of_isDigitOf {c : Char} (h : CStrings.isDigitOf 36 c = true) :
    isPlain c = true := by
  refine isPlain_iff.mpr ⟨(CStrings.plain_of_isDigitOf h).1, ?_⟩
  rintro rfl
  exact absurd h (by decide)

/-- Neither a name nor a blank is a newline character. -/
theorem filter_newlines {line : Text}
    (h : ∀ c ∈ line, isPlain c = true ∨ isBlank c = true ∨ c = '=') :
    (line.filter fun c => c ≠ '\n' ∧ c ≠ '\r') = line := by
  refine List.filter_eq_self.mpr fun c hc => decide_eq_true ?_
  constructor
  · rintro rfl
    exact absurd (h _ hc) (by decide)
  · rintro rfl
    exact absurd (h _ hc) (by decide)

/-- Where the sign occurs once, it divides the text in one way. -/
theorem split_at_sign {u v u' v' : Text} (hu : '=' ∉ u) (hv : '=' ∉ v)
    (h : u ++ '=' :: v = u' ++ '=' :: v') : u = u' ∧ v = v' := by
  have hu' : '=' ∉ u' := by
    intro hmem
    have hcount := congrArg (List.count '=') h
    rw [List.count_append, List.count_append, List.count_cons_self, List.count_cons_self,
      List.count_eq_zero.mpr hu, List.count_eq_zero.mpr hv] at hcount
    have hpos := List.count_pos_iff.mpr hmem
    omega
  exact RegisterInit.split_unique hu hu' h

/-- White space and other characters: where the kind changes once, both parts are found. -/
theorem split_at_space {space : Bool} {u v u' v' : Text}
    (hu : ∀ c ∈ u, CStrings.isSpace c = space) (hv : ∀ c ∈ v, CStrings.isSpace c = !space)
    (hu' : ∀ c ∈ u', CStrings.isSpace c = space) (hv' : ∀ c ∈ v', CStrings.isSpace c = !space)
    (h : u ++ v = u' ++ v') : u = u' ∧ v = v' := by
  have htake : ∀ u v : Text, (∀ c ∈ u, CStrings.isSpace c = space) →
      (∀ c ∈ v, CStrings.isSpace c = !space) →
      (u ++ v).takeWhile (CStrings.isSpace · == space) = u := by
    intro u v hu hv
    apply CStrings.takeWhile_append_stop fun c hc => beq_iff_eq.mpr (hu c hc)
    intro c hc
    rw [hv c (List.mem_of_mem_head? hc)]
    cases space <;> rfl
  have hfirst : u = u' := by rw [← htake u v hu hv, h, htake u' v' hu' hv']
  subst hfirst
  exact ⟨rfl, List.append_cancel_left h⟩

section

variable {c : Char} {key before after value : Text}

/-- How a pair is written. -/
def pairLine (key before after value : Text) : Text := (key ++ before) ++ '=' :: (after ++ value)

theorem isSpace_of_isPlain {cs : Text} (h : ∀ d ∈ cs, isPlain d = true) :
    ∀ d ∈ cs, CStrings.isSpace d = false := fun d hd => (isPlain_iff.mp (h d hd)).1

theorem isSpace_of_isAlpha {d : Char} (h : d.isAlpha = true) : CStrings.isSpace d = false := by
  refine Bool.eq_false_iff.mpr fun hspace => ?_
  unfold CStrings.isSpace at hspace
  simp only [Bool.or_eq_true, beq_iff_eq] at hspace
  obtain ((((rfl | rfl) | rfl) | rfl) | rfl) | rfl := hspace
  all_goals exact absurd h (by decide)

section

variable (hkey : ∀ d ∈ c :: key, isPlain d = true) (hbefore : ∀ d ∈ before, isBlank d = true)
  (hafter : ∀ d ∈ after, isBlank d = true) (hvalue : ∀ d ∈ value, isPlain d = true)

include hkey hbefore hafter hvalue

/-- The sign occurs once, and the white space around it ends at the name and the value. -/
theorem parts_of_pair {name space space' value' : Text}
    (hname : ∀ d ∈ name, CStrings.isSpace d = false)
    (hspace : ∀ d ∈ space, CStrings.isSpace d = true)
    (hspace' : ∀ d ∈ space', CStrings.isSpace d = true)
    (hvalue' : ∀ d ∈ value', CStrings.isSpace d = false)
    (h : pairLine (c :: key) before after value = pairLine name space space' value') :
    name = c :: key ∧ value' = value := by
  have hsign : ∀ cs ds : Text, (∀ d ∈ cs, isPlain d = true) → (∀ d ∈ ds, isBlank d = true) →
      '=' ∉ cs ∧ '=' ∉ ds := by
    intro cs ds hcs hds
    exact ⟨fun hmem => absurd (hcs '=' hmem) (by decide),
      fun hmem => absurd (hds '=' hmem) (by decide)⟩
  obtain ⟨hkeySign, hbeforeSign⟩ := hsign _ _ hkey hbefore
  obtain ⟨hvalueSign, hafterSign⟩ := hsign _ _ hvalue hafter
  obtain ⟨hleft, hright⟩ := split_at_sign
    (mt List.mem_append.mp (not_or.mpr ⟨hkeySign, hbeforeSign⟩))
    (mt List.mem_append.mp (not_or.mpr ⟨hafterSign, hvalueSign⟩)) h
  obtain ⟨rfl, -⟩ := split_at_space hname hspace (isSpace_of_isPlain hkey)
    (fun d hd => isSpace_of_isBlank (hbefore d hd)) hleft.symm
  obtain ⟨-, rfl⟩ := split_at_space hspace' hvalue'
    (fun d hd => isSpace_of_isBlank (hafter d hd)) (isSpace_of_isPlain hvalue) hright.symm
  exact ⟨rfl, rfl⟩

/-- What is written is the only pair that is found. -/
theorem pair_pairLine (hletter : c.isAlpha = true) (hne : value ≠ []) :
    pair (pairLine (c :: key) before after value) = some (c :: key, value) := by
  have hword : ∀ cs : Text, (∀ d ∈ cs, isPlain d = true) → ∀ d ∈ cs, isWhite d = false :=
    fun cs hcs d hd => isSpace_eq ▸ isSpace_of_isPlain hcs d hd
  have hspace : ∀ cs : Text, (∀ d ∈ cs, isBlank d = true) → ∀ d ∈ cs, isWhite d = true :=
    fun cs hcs d hd => isSpace_eq ▸ isSpace_of_isBlank (hcs d hd)
  have hisKey : isKey (c :: key) = true := isKey_iff.mpr
    ⟨c, key, rfl, hletter, fun d hd => hword _ hkey d (List.mem_cons_of_mem c hd)⟩
  have hassigned : assigned (before ++ '=' :: (after ++ value)) = some value :=
    assigned_eq_some_iff.mpr ⟨before, after, rfl, hspace before hbefore, hspace after hafter, hne,
      fun d hd => by rw [hword value hvalue d hd, Bool.not_false]⟩
  have hsome := isSome_pair hisKey hassigned
  rw [← List.append_assoc] at hsome
  obtain ⟨⟨name, value'⟩, hpair⟩ := Option.isSome_iff_exists.mp hsome
  obtain ⟨_, hline, hname, hrest⟩ := parts_of_pair_eq_some hpair
  obtain ⟨d, cs, rfl, hd, hcs⟩ := isKey_iff.mp hname
  obtain ⟨space, space', rfl, hbefore', hafter', -, hvalue'⟩ := assigned_eq_some_iff.mp hrest
  rw [← isSpace_eq] at hcs hbefore' hafter' hvalue'
  obtain ⟨hsameKey, hsameValue⟩ := parts_of_pair hkey hbefore hafter hvalue
    (List.forall_mem_cons.mpr ⟨isSpace_of_isAlpha hd, hcs⟩) hbefore' hafter'
    (fun d' hd' => by simpa using hvalue' d' hd') (hline.trans (List.append_assoc _ _ _).symm)
  rw [hsameKey, hsameValue] at hpair
  exact hpair

/-- A pair is read as what it is written as. -/
theorem classify_pair (hletter : c.isAlpha = true) (hne : value ≠ []) :
    classify (pairLine (c :: key) before after value) = .keyValue (c :: key) value := by
  have hplain : ∀ d ∈ pairLine (c :: key) before after value,
      isPlain d = true ∨ isBlank d = true ∨ d = '=' := by
    unfold pairLine
    simp only [List.mem_append, List.mem_cons]
    grind
  have hbracketed : bracketed (pairLine (c :: key) before after value) = none := by
    refine Option.eq_none_iff_forall_ne_some.mpr fun name hname => ?_
    obtain ⟨rest, hline, -⟩ := bracketed_eq_some_iff.mp hname
    cases (List.cons.inj hline).1
    exact absurd hletter (by decide)
  unfold classify
  rw [filter_newlines hplain]
  dsimp only
  rw [hbracketed, pair_pairLine hkey hbefore hafter hvalue hletter hne]

end

end

/-! ### Sections -/

/-- What the parser ignores between the lines makes no difference. -/
theorem headers_filter (lines : List LineKind) :
    headers (lines.filter (· ≠ .other)) = headers lines := by
  induction lines with
  | nil => rfl
  | cons line lines ih => cases line <;> simpa [headers] using ih

theorem tagged_filter (current : Text) (lines : List LineKind) :
    tagged current (lines.filter (· ≠ .other)) = tagged current lines := by
  induction lines generalizing current with
  | nil => rfl
  | cons line lines ih => cases line <;> simp [tagged, ← ih]

theorem headers_append (lines lines' : List LineKind) :
    headers (lines ++ lines') = headers lines ++ headers lines' := by
  induction lines with
  | nil => rfl
  | cons line lines ih => cases line <;> simp [headers, ih]

/-- The lines of the pairs of one section. -/
def pairKinds (pairs : List KeyValue) : List LineKind := pairs.map fun kv => .keyValue kv.1 kv.2

theorem headers_pairKinds (pairs : List KeyValue) : headers (pairKinds pairs) = [] := by
  induction pairs with
  | nil => rfl
  | cons kv pairs ih => exact ih

theorem blockPairs_pairKinds (pairs : List KeyValue) (lines : List LineKind) :
    blockPairs (pairKinds pairs ++ lines) = pairs ++ blockPairs lines := by
  induction pairs with
  | nil => rfl
  | cons kv pairs ih => exact congrArg (kv :: ·) ih

end ConfigFile

/-! ### Tests -/

namespace TestFile

open ConfigFile CStrings

/-- A register with its value. The value is written as any unsigned literal of C, and
there may be blanks around the sign. -/
structure Assignment where
  init : RegisterInit
  before : Text := []
  after : Text := []
  literal : Text
  before_blank : ∀ c ∈ before, isBlank c = true
  after_blank : ∀ c ∈ after, isBlank c = true
  spells : Literal literal init.value.toNat

namespace Assignment

def key (a : Assignment) : Text := 'R' :: decimal a.init.number.toNat

def pair (a : Assignment) : KeyValue := (a.key, a.literal)

def line (a : Assignment) : Text := pairLine a.key a.before a.after a.literal

end Assignment

/-- The registers before the program runs, and those that are checked at its end. -/
structure UnitTest where
  pre : List Assignment
  post : List Assignment

def headerLine (name : Text) : Text := '[' :: (name ++ [']'])

namespace UnitTest

def lines (test : UnitTest) : List Text :=
  headerLine TestFile.pre :: (test.pre.map Assignment.line ++
    headerLine TestFile.post :: test.post.map Assignment.line)

/-- The lines of the test, between others that the parser ignores. -/
def Writes (test : UnitTest) (lines : List Text) : Prop :=
  lines.filter (classify · ≠ .other) = test.lines

/-- No register occurs twice in one section. -/
def Distinct (test : UnitTest) : Prop :=
  (test.pre.map (·.init.number)).Nodup ∧ (test.post.map (·.init.number)).Nodup

end UnitTest

theorem digits_of_literal {cs : Text} {n : Nat} (h : Literal cs n) :
    cs ≠ [] ∧ ∀ c ∈ cs, isDigitOf 36 c = true := by
  cases h with
  | decimal _ hdigits =>
    exact ⟨List.cons_ne_nil _ _, fun d hd => isDigitOf_mono (by decide) (hdigits d hd)⟩
  | octal hdigits =>
    exact ⟨List.cons_ne_nil _ _, List.forall_mem_cons.mpr ⟨by decide, fun d hd =>
      isDigitOf_mono (by decide) (hdigits d hd)⟩⟩
  | hexadecimal hx _ hdigits =>
    refine ⟨List.cons_ne_nil _ _, List.forall_mem_cons.mpr ⟨by decide,
      List.forall_mem_cons.mpr ⟨?_, fun d hd => isDigitOf_mono (by decide) (hdigits d hd)⟩⟩⟩
    obtain rfl | rfl := hx <;> decide

theorem digits_of_decimal (n : Nat) : ∀ c ∈ decimal n, isDigitOf 10 c = true :=
  fun _ hc => isDigitOf_of_mem_toDigits (by decide) (by decide) hc

theorem decimal_injective {m n : Nat} (h : decimal m = decimal n) : m = n := by
  rw [← numeral_toDigits (show 1 < 10 by decide) (by decide) m,
    ← numeral_toDigits (show 1 < 10 by decide) (by decide) n]
  exact congrArg (numeral 10) h

namespace Assignment

variable (a : Assignment)

theorem classify_line : classify a.line = .keyValue a.key a.literal := by
  obtain ⟨hne, hliteral⟩ := digits_of_literal a.spells
  refine classify_pair ?_ a.before_blank a.after_blank
    (fun c hc => isPlain_of_isDigitOf (hliteral c hc)) (by decide) hne
  refine List.forall_mem_cons.mpr ⟨by decide, fun c hc => isPlain_of_isDigitOf ?_⟩
  exact isDigitOf_mono (by decide) (digits_of_decimal _ c hc)

/-- The pair is read as the register and the value that it was written for. -/
theorem registerInit_pair : registerInit a.pair = .ok a.init := by
  have hne : decimal a.init.number.toNat ≠ [] := List.ne_nil_of_length_pos Nat.length_toDigits_pos
  have hlt : a.init.number.toNat < 2 ^ 8 := a.init.number.isLt
  have hnumber : stoi a.pair.1.tail = .ok (a.init.number.toNat : Int) := by
    change stoi (decimal a.init.number.toNat) = _
    unfold stoi
    rw [scan_ten hne (digits_of_decimal _)]
    change (if (numeral 10 (Nat.toDigits 10 a.init.number.toNat) : Int) < -2 ^ 31 ∨
      2 ^ 31 ≤ (numeral 10 (Nat.toDigits 10 a.init.number.toNat) : Int) then _ else
        Except.ok (numeral 10 (Nat.toDigits 10 a.init.number.toNat) : Int)) = _
    rw [numeral_toDigits (by decide) (by decide), if_neg (by omega)]
  have hvalue : stoull 0 a.pair.2 = .ok a.init.value := by
    change stoull 0 a.literal = _
    rw [stoull_of_lt (scan_of_literal a.spells) a.init.value.isLt, BitVec.ofNat_toNat,
      BitVec.setWidth_eq]
  unfold registerInit
  rw [hnumber, hvalue]
  change Except.ok (RegisterInit.mk (BitVec.ofInt 8 (a.init.number.toNat : Int)) _) = _
  rw [BitVec.ofInt_natCast, BitVec.ofNat_toNat, BitVec.setWidth_eq]

theorem not_isSmall : ¬IsSmall a.pair := by
  rintro ⟨name, hkey, -⟩
  exact absurd (List.cons.inj hkey).1 (by decide)

end Assignment

theorem nodup_keys_iff (assignments : List Assignment) :
    ((assignments.map Assignment.pair).map Prod.fst).Nodup ↔
      (assignments.map (·.init.number)).Nodup := by
  have hkeys : (assignments.map Assignment.pair).map Prod.fst =
      (assignments.map (·.init.number)).map (fun number => 'R' :: decimal number.toNat) := by
    rw [List.map_map, List.map_map]
    rfl
  rw [hkeys, List.nodup_map_iff]
  intro m n h
  exact BitVec.eq_of_toNat_eq (decimal_injective (List.cons.inj h).2)

/-! ### Loading -/

section

variable {test : UnitTest} {lines : List Text}

/-- The lines of a test, as the parser sees them. -/
def UnitTest.kinds (test : UnitTest) : List LineKind :=
  .header TestFile.pre :: (pairKinds (test.pre.map Assignment.pair) ++
    .header TestFile.post :: pairKinds (test.post.map Assignment.pair))

theorem kinds_of_writes (h : test.Writes lines) :
    (lines.map classify).filter (· ≠ .other) = test.kinds := by
  have hpairs : ∀ assignments : List Assignment,
      (assignments.map Assignment.line).map classify =
        pairKinds (assignments.map Assignment.pair) := by
    intro assignments
    unfold pairKinds
    rw [List.map_map, List.map_map]
    exact List.map_congr_left fun a _ => a.classify_line
  have hpre : classify (headerLine TestFile.pre) = .header TestFile.pre := by decide +kernel
  have hpost : classify (headerLine TestFile.post) = .header TestFile.post := by decide +kernel
  have hkinds : test.lines.map classify = test.kinds := by
    unfold UnitTest.lines UnitTest.kinds
    rw [List.map_cons, List.map_append, List.map_cons, hpre, hpost, hpairs, hpairs]
  rw [List.filter_map, ← hkinds, ← h]
  rfl

theorem headers_kinds (test : UnitTest) :
    headers test.kinds = [TestFile.pre, TestFile.post] := by
  change TestFile.pre :: headers (pairKinds _ ++ _ :: pairKinds _) = _
  rw [headers_append, headers_pairKinds]
  exact congrArg (TestFile.pre :: TestFile.post :: ·) (headers_pairKinds _)

/-- Each section of the test has its pairs. -/
theorem select_kinds (test : UnitTest) (name : Text) :
    select name (tagged globalSectionName test.kinds) =
      if name = TestFile.pre then test.pre.map Assignment.pair
      else if name = TestFile.post then test.post.map Assignment.pair else [] := by
  have hsections : (globalSectionName :: headers test.kinds).Nodup := by
    rw [headers_kinds]
    decide
  have hend : blockPairs (pairKinds (test.post.map Assignment.pair)) =
      test.post.map Assignment.pair := by
    rw [← List.append_nil (pairKinds _), blockPairs_pairKinds]
    exact List.append_nil _
  split_ifs with hpre hpost
  · subst hpre
    rw [select_of_block hsections (.headed (show test.kinds = [] ++ _ from rfl)),
      blockPairs_pairKinds]
    exact List.append_nil _
  · subst hpost
    exact (select_of_block hsections (.headed (List.cons_append ..).symm)).trans hend
  · by_cases hglobal : name = globalSectionName
    · subst hglobal
      exact select_of_block hsections (block_global _)
    · refine select_tagged_of_absent hglobal ?_
      rw [headers_kinds]
      simp [hpre, hpost]

theorem unique_iff (h : test.Writes lines) :
    ConfigFile.Unique start (lines.map classify) ↔ test.Distinct := by
  have hsections : (start.config.sections ++ [TestFile.pre, TestFile.post]).Nodup := by decide
  have hselect : ∀ name, select name (start.config.properties.entries ++
      tagged start.currentSection test.kinds) = _ := select_kinds test
  unfold ConfigFile.Unique UnitTest.Distinct
  rw [← headers_filter, ← tagged_filter, kinds_of_writes h, headers_kinds, and_iff_right hsections,
    nodup_iff_select, ← nodup_keys_iff, ← nodup_keys_iff]
  constructor
  · intro hnodup
    have hpre := hnodup TestFile.pre
    have hpost := hnodup TestFile.post
    rw [hselect, if_pos rfl] at hpre
    rw [hselect, if_neg (by decide), if_pos rfl] at hpost
    exact ⟨hpre, hpost⟩
  · rintro ⟨hpre, hpost⟩ name
    rw [hselect]
    split_ifs
    · exact hpre
    · exact hpost
    · exact List.nodup_nil

/-- The parser keeps the test, or refuses a register that occurs twice. -/
theorem load_cases (h : test.Writes lines) (filename : Text) :
    (test.Distinct ∧ ∃ s, ConfigFile.load filename (some lines) = .ok s ∧
      s.config.hasSection TestFile.pre = true ∧ s.config.hasSection TestFile.post = true ∧
      (s.config.getProperties TestFile.pre).Perm (test.pre.map Assignment.pair) ∧
      (s.config.getProperties TestFile.post).Perm (test.post.map Assignment.pair)) ∨
    ¬test.Distinct ∧
      ∃ what, ConfigFile.load filename (some lines) = .error (.runtimeError what) := by
  rw [← unique_iff h]
  obtain ⟨hunique, s, hload, hadded⟩ | hrefused :=
    loadLines_cases filename start lines (List.nodup_singleton globalSectionName)
  · have hsection : ∀ name ∈ [TestFile.pre, TestFile.post], s.config.hasSection name = true := by
      intro name hname
      rw [hasSection_iff, hadded.sections, ← headers_filter, kinds_of_writes h, headers_kinds]
      exact List.mem_append_right _ hname
    have hproperties : ∀ name, (s.config.getProperties name).Perm
        (select name (tagged globalSectionName test.kinds)) := by
      intro name
      rw [← kinds_of_writes h, tagged_filter]
      exact hadded.properties.filterMap _
    have hpre := hproperties TestFile.pre
    have hpost := hproperties TestFile.post
    rw [select_kinds, if_pos rfl] at hpre
    rw [select_kinds, if_neg (by decide), if_pos rfl] at hpost
    exact .inl ⟨hunique, s, hload, hsection _ (by simp), hsection _ (by simp), hpre, hpost⟩
  · exact .inr hrefused

/-- The registers of a section, in the order of their names. -/
theorem registers_of_perm {config : ConfigFile} (filename : Text) {sectionName : Text}
    {assignments : List Assignment}
    (h : (config.getProperties sectionName).Perm (assignments.map Assignment.pair)) :
    ∃ inits, getRegisters ⟨config, filename⟩ sectionName = .ok inits ∧
      inits.Perm (assignments.map (·.init)) := by
  have hwritten : (assignments.map Assignment.pair).mapM registerInit =
      .ok (assignments.map (·.init)) := by
    rw [List.mapM_map]
    exact Outcomes.mapM_eq_map fun a _ => a.registerInit_pair
  exact Outcomes.mapM_perm h hwritten

/-- The test file of a written test has the registers of the test. -/
theorem load_written (h : test.Writes lines) (filename : Text) :
    (test.Distinct ∧ ∃ t initial expected, load filename (some lines) = .ok t ∧
      t.filename = filename ∧ t.getPreRegisters = .ok initial ∧
      initial.Perm (test.pre.map (·.init)) ∧ t.getPostRegisters = .ok expected ∧
      expected.Perm (test.post.map (·.init))) ∨
    ¬test.Distinct ∧ ∃ e, load filename (some lines) = .error e := by
  obtain ⟨hdistinct, s, hload, hpre, hpost, hinitial, hexpected⟩ | ⟨hnot, what, hload⟩ :=
    load_cases h filename
  · have hsmall : ∀ kv ∈ properties s.config, ¬IsSmall kv := by
      intro kv hkv
      have hmem : kv ∈ (test.pre ++ test.post).map Assignment.pair := by
        rw [List.map_append]
        exact (hinitial.append hexpected).mem_iff.mp hkv
      obtain ⟨a, -, rfl⟩ := List.mem_map.mp hmem
      exact a.not_isSmall
    have hvalid : TestFile.validate ⟨s.config, filename⟩ = .ok () :=
      validate_ok_iff.mpr ⟨⟨hpre, hpost⟩, hsmall⟩
    obtain ⟨initial, hgetPre, hpermPre⟩ := registers_of_perm filename hinitial
    obtain ⟨expected, hgetPost, hpermPost⟩ := registers_of_perm filename hexpected
    exact .inl ⟨hdistinct, ⟨s.config, filename⟩, initial, expected,
      load_ok_iff.mpr ⟨s, hload, rfl, hvalid⟩, rfl, hgetPre, hpermPre, hgetPost, hpermPost⟩
  · refine .inr ⟨hnot, .runtimeError what, ?_⟩
    unfold load
    rw [hload]
    rfl

end

end TestFile

end Rv64Emu
