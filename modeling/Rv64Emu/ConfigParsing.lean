import Rv64Emu.ConfigLines
import Mathlib.Data.List.Nodup

/-! What the configuration parser keeps of a file: its sections in order, and of
each section the pairs of its block. -/
namespace Rv64Emu.ConfigFile

def headers : List LineKind → List Text
  | [] => []
  | .header name :: lines => name :: headers lines
  | _ :: lines => headers lines

/-- The pairs up to the next header. -/
def blockPairs : List LineKind → List KeyValue
  | [] => []
  | .header _ :: _ => []
  | .keyValue key value :: lines => (key, value) :: blockPairs lines
  | .other :: lines => blockPairs lines

/-- The block before the first header, and the one after each header. -/
inductive Block (lines : List LineKind) : Text → List KeyValue → Prop where
  | global : Block lines "__GLOBAL".toList (blockPairs lines)
  | headed {before after : List LineKind} {name : Text}
      (h : lines = before ++ .header name :: after) : Block lines name (blockPairs after)

/-- A header occurs twice, or a key does in one block. -/
def Duplicated (lines : List LineKind) : Prop :=
  ¬(headers lines).Nodup ∨ ∃ name pairs, Block lines name pairs ∧ ¬(pairs.map Prod.fst).Nodup

/-- The sections of the file in order, and in each section the pairs of its block, each once. -/
structure Keeps (lines : List LineKind) (config : ConfigFile) : Prop where
  sections : config.getSections = "__GLOBAL".toList :: headers lines
  properties : ∀ name pairs, Block lines name pairs → (config.getProperties name).Perm pairs

theorem globalSectionName_eq : globalSectionName = "__GLOBAL".toList := by
  decide

theorem block_global (lines : List LineKind) :
    Block lines globalSectionName (blockPairs lines) := by
  rw [globalSectionName_eq]
  exact .global

/-! ### Lines -/

section

variable {filename : Text} {s : LoadState} {line : Text}

theorem loadLine_of_header {name : Text} (h : classify line = .header name) :
    loadLine filename s line =
      if s.config.hasSection name then .error (duplicateSection filename (s.lineNumber + 1) name)
      else .ok { s with
        config := s.config.addSection name
        currentSection := name
        lineNumber := s.lineNumber + 1 } := by
  rw [classify_eq] at h
  unfold loadLine
  split at h
  · next found hfound =>
    cases h
    simp only [hfound]
  · split at h <;> cases h

theorem loadLine_of_keyValue {key value : Text} (h : classify line = .keyValue key value) :
    loadLine filename s line =
      if s.config.hasProperty s.currentSection key then
        .error (duplicateProperty filename (s.lineNumber + 1) key)
      else .ok { s with
        config := s.config.addProperty (toLex (s.currentSection, key)) value
        lineNumber := s.lineNumber + 1 } := by
  rw [classify_eq] at h
  unfold loadLine
  split at h
  · cases h
  · next hsection =>
    split at h
    · next found hfound =>
      cases h
      simp only [hsection, hfound]
    · cases h

/-- A line that is ignored leaves the configuration alone. -/
theorem loadLine_of_other (h : classify line = .other) :
    ∃ warnings, loadLine filename s line =
      .ok { s with lineNumber := s.lineNumber + 1, warnings := warnings } := by
  rw [classify_eq] at h
  unfold loadLine
  split at h
  · cases h
  · next hsection =>
    split at h
    · cases h
    · next hkeyValue =>
      simp only [hsection, hkeyValue]
      split
      · exact ⟨s.warnings, rfl⟩
      · exact ⟨_, rfl⟩

/-- The global name cannot be written in a header. -/
theorem name_ne_global {name : Text} (h : classify line = .header name) :
    name ≠ globalSectionName := by
  rintro rfl
  exact absurd (isAlphanum_of_header h '_' List.mem_cons_self) (by decide)

end

/-! ### Properties with their sections -/

/-- The pairs of the lines, each under the section that is current there. -/
def tagged : Text → List LineKind → List (PropertyName × Text)
  | _, [] => []
  | _, .header name :: lines => tagged name lines
  | current, .keyValue key value :: lines => (toLex (current, key), value) :: tagged current lines
  | current, .other :: lines => tagged current lines

/-- The pairs under one section. -/
def select (name : Text) (entries : List (PropertyName × Text)) : List KeyValue :=
  entries.filterMap fun kvp =>
    if (ofLex kvp.1).1 = name then some ((ofLex kvp.1).2, kvp.2) else none

theorem select_cons_self (name key value : Text) (entries : List (PropertyName × Text)) :
    select name ((toLex (name, key), value) :: entries) = (key, value) :: select name entries := by
  unfold select
  exact List.filterMap_cons_some (if_pos rfl)

theorem select_cons_of_ne {name section' key value : Text} (h : section' ≠ name)
    (entries : List (PropertyName × Text)) :
    select name ((toLex (section', key), value) :: entries) = select name entries := by
  unfold select
  exact List.filterMap_cons_none (if_neg h)

theorem select_tagged_of_absent {name current : Text} {lines : List LineKind}
    (hcurrent : name ≠ current) (h : name ∉ headers lines) :
    select name (tagged current lines) = [] := by
  induction lines generalizing current with
  | nil => rfl
  | cons line lines ih =>
    cases line with
    | header next =>
      obtain ⟨hnext, hrest⟩ := not_or.mp (mt List.mem_cons.mpr h)
      exact ih hnext hrest
    | keyValue key value => exact (select_cons_of_ne hcurrent.symm _).trans (ih hcurrent h)
    | other => exact ih hcurrent h

theorem select_tagged_current {current : Text} {lines : List LineKind}
    (h : current ∉ headers lines) : select current (tagged current lines) = blockPairs lines := by
  induction lines with
  | nil => rfl
  | cons line lines ih =>
    cases line with
    | header next =>
      obtain ⟨hnext, hrest⟩ := not_or.mp (mt List.mem_cons.mpr h)
      have habsent : select current (tagged next lines) = [] :=
        select_tagged_of_absent hnext hrest
      exact habsent
    | keyValue key value =>
      exact (select_cons_self current key value _).trans (congrArg _ (ih h))
    | other => exact ih h

theorem mem_headers (before after : List LineKind) (name : Text) :
    name ∈ headers (before ++ .header name :: after) := by
  induction before with
  | nil => exact List.mem_cons_self
  | cons line before ih =>
    cases line with
    | header next => exact List.mem_cons_of_mem next ih
    | keyValue key value => exact ih
    | other => exact ih

theorem select_tagged_headed {current name : Text} {before after : List LineKind}
    (h : (current :: headers (before ++ .header name :: after)).Nodup) :
    select name (tagged current (before ++ .header name :: after)) = blockPairs after := by
  induction before generalizing current with
  | nil =>
    obtain ⟨-, h⟩ := List.nodup_cons.mp h
    exact select_tagged_current (List.nodup_cons.mp h).1
  | cons line before ih =>
    obtain ⟨hcurrent, hlater⟩ := List.nodup_cons.mp h
    cases line with
    | header next => exact ih hlater
    | keyValue key value =>
      have hne : current ≠ name := fun heq => hcurrent (heq ▸ mem_headers before after name)
      exact (select_cons_of_ne hne _).trans (ih h)
    | other => exact ih h

theorem mem_select_iff {name key value : Text} {entries : List (PropertyName × Text)} :
    (key, value) ∈ select name entries ↔ (toLex (name, key), value) ∈ entries := by
  unfold select
  rw [List.mem_filterMap]
  constructor
  · rintro ⟨⟨property, value'⟩, hmem, hsome⟩
    split at hsome
    · next hname =>
      cases hsome
      cases hname
      exact hmem
    · cases hsome
  · intro hmem
    exact ⟨_, hmem, if_pos rfl⟩

/-- Names are unique if the keys are unique in each section. -/
theorem nodup_iff_select (entries : List (PropertyName × Text)) :
    (entries.map Prod.fst).Nodup ↔ ∀ name, ((select name entries).map Prod.fst).Nodup := by
  induction entries with
  | nil => exact ⟨fun _ _ => List.nodup_nil, fun _ => List.nodup_nil⟩
  | cons entry entries ih =>
    obtain ⟨property, value⟩ := entry
    obtain ⟨current, key, rfl⟩ : ∃ current key, property = toLex (current, key) :=
      ⟨(ofLex property).1, (ofLex property).2, rfl⟩
    have hmem : toLex (current, key) ∈ entries.map Prod.fst ↔
        key ∈ (select current entries).map Prod.fst := by
      rw [List.mem_map, List.mem_map]
      constructor
      · rintro ⟨⟨property, value'⟩, hentry, rfl⟩
        exact ⟨(key, value'), mem_select_iff.mpr hentry, rfl⟩
      · rintro ⟨⟨key', value'⟩, hentry, rfl⟩
        exact ⟨_, mem_select_iff.mp hentry, rfl⟩
    rw [List.map_cons, List.nodup_cons, hmem, ih]
    constructor
    · rintro ⟨hnew, hrest⟩ name
      by_cases hname : current = name
      · subst hname
        rw [select_cons_self, List.map_cons, List.nodup_cons]
        exact ⟨hnew, hrest current⟩
      · rw [select_cons_of_ne hname]
        exact hrest name
    · intro h
      have hcurrent := h current
      rw [select_cons_self, List.map_cons, List.nodup_cons] at hcurrent
      refine ⟨hcurrent.1, fun name => ?_⟩
      by_cases hname : current = name
      · subst hname
        exact hcurrent.2
      · have hother := h name
        rwa [select_cons_of_ne hname] at hother

/-! ### Files -/

/-- What is added to the sections and to the properties has no duplicates. -/
def Unique (s : LoadState) (lines : List LineKind) : Prop :=
  (s.config.sections ++ headers lines).Nodup ∧
    ((s.config.properties.entries ++ tagged s.currentSection lines).map Prod.fst).Nodup

/-- The sections and the properties of the lines are added. -/
structure Added (s s' : LoadState) (lines : List LineKind) : Prop where
  sections : s'.config.sections = s.config.sections ++ headers lines
  properties : s'.config.properties.entries.Perm
    (s.config.properties.entries ++ tagged s.currentSection lines)

theorem hasSection_iff (config : ConfigFile) (name : Text) :
    config.hasSection name = true ↔ name ∈ config.sections := List.contains_iff_mem

theorem hasProperty_iff (config : ConfigFile) (name key : Text) :
    config.hasProperty name key = true ↔
      toLex (name, key) ∈ config.properties.entries.map Prod.fst := by
  unfold hasProperty
  rw [List.any_eq_true, List.mem_map]
  constructor
  · rintro ⟨⟨property, value⟩, hmem, heq⟩
    rw [Bool.and_eq_true, beq_iff_eq, beq_iff_eq] at heq
    obtain ⟨rfl, rfl⟩ := heq
    exact ⟨_, hmem, rfl⟩
  · rintro ⟨⟨property, value⟩, hmem, rfl⟩
    refine ⟨_, hmem, ?_⟩
    rw [Bool.and_eq_true, beq_iff_eq, beq_iff_eq]
    exact ⟨rfl, rfl⟩

/-- A new pair is the first one of what is added. -/
theorem added_keyValue (s s₁ : LoadState) {key value : Text} (lines : List LineKind)
    (hentries : s₁.config.properties.entries.Perm
      ((toLex (s.currentSection, key), value) :: s.config.properties.entries))
    (hsections : s₁.config.sections = s.config.sections)
    (hcurrent : s₁.currentSection = s.currentSection) :
    (Unique s₁ lines ↔ Unique s (.keyValue key value :: lines)) ∧
      ∀ s', Added s₁ s' lines → Added s s' (.keyValue key value :: lines) := by
  have hperm : (s₁.config.properties.entries ++ tagged s₁.currentSection lines).Perm
      (s.config.properties.entries ++
        (toLex (s.currentSection, key), value) :: tagged s.currentSection lines) := by
    rw [hcurrent]
    exact (hentries.append_right _).trans List.perm_middle.symm
  constructor
  · unfold Unique
    rw [hsections, (hperm.map Prod.fst).nodup_iff]
    rfl
  · intro s' h
    exact ⟨h.sections.trans (by rw [hsections]; rfl), h.properties.trans hperm⟩

/-- The loop adds the lines if nothing in them is a duplicate, and throws otherwise. -/
theorem loadLines_cases (filename : Text) (s : LoadState) (lines : List Text)
    (hs : s.config.sections.Nodup) :
    Unique s (lines.map classify) ∧
        (∃ s', lines.foldlM (loadLine filename) s = .ok s' ∧ Added s s' (lines.map classify)) ∨
      ¬Unique s (lines.map classify) ∧
        ∃ what, lines.foldlM (loadLine filename) s = .error (.runtimeError what) := by
  induction lines generalizing s with
  | nil =>
    refine .inl ⟨⟨?_, ?_⟩, s, rfl, ?_, ?_⟩
    · rw [List.map_nil, headers, List.append_nil]
      exact hs
    · rw [List.map_nil, tagged, List.append_nil]
      exact s.config.properties.nodup_keys
    · rw [List.map_nil, headers, List.append_nil]
    · rw [List.map_nil, tagged, List.append_nil]
  | cons line lines ih =>
    rw [List.map_cons, List.foldlM_cons]
    cases hline : classify line with
    | header name =>
      rw [loadLine_of_header hline]
      by_cases hmem : name ∈ s.config.sections
      · rw [if_pos ((hasSection_iff _ _).mpr hmem)]
        refine .inr ⟨fun hunique => ?_, _, rfl⟩
        obtain ⟨-, -, hdisjoint⟩ := List.nodup_append.mp hunique.1
        exact hdisjoint name hmem name List.mem_cons_self rfl
      · rw [if_neg (mt (hasSection_iff _ _).mp hmem)]
        have happend : ∀ names, s.config.sections ++ name :: names =
            (s.config.sections ++ [name]) ++ names := fun names =>
          List.append_cons s.config.sections name names
        have hnew : (s.config.sections ++ [name]).Nodup :=
          List.nodup_append.mpr ⟨hs, List.nodup_singleton name, fun a ha b hb heq =>
            hmem (List.mem_singleton.mp hb ▸ heq ▸ ha)⟩
        obtain ⟨hunique, s', hload, hadded⟩ | ⟨hnot, what, hload⟩ := ih
          { s with
            config := s.config.addSection name
            currentSection := name
            lineNumber := s.lineNumber + 1 } hnew
        · refine .inl ⟨⟨?_, hunique.2⟩, s', hload, ?_, hadded.properties⟩
          · exact (happend _).symm ▸ hunique.1
          · exact hadded.sections.trans (happend _).symm
        · refine .inr ⟨fun hunique => hnot ⟨?_, hunique.2⟩, what, hload⟩
          exact (happend _) ▸ hunique.1
    | keyValue key value =>
      rw [loadLine_of_keyValue hline]
      by_cases hmem : toLex (s.currentSection, key) ∈ s.config.properties.entries.map Prod.fst
      · rw [if_pos ((hasProperty_iff _ _ _).mpr hmem)]
        refine .inr ⟨fun hunique => ?_, _, rfl⟩
        have hnodup := hunique.2
        rw [List.map_append] at hnodup
        obtain ⟨-, -, hdisjoint⟩ := List.nodup_append.mp hnodup
        exact hdisjoint _ hmem _ List.mem_cons_self rfl
      · rw [if_neg (mt (hasProperty_iff _ _ _).mp hmem)]
        have hkeyValue := added_keyValue s
          { s with
            config := s.config.addProperty (toLex (s.currentSection, key)) value
            lineNumber := s.lineNumber + 1 }
          (lines.map classify) (SortedMap.perm_emplace value hmem) rfl rfl
        obtain ⟨hunique, s', hload, hadded⟩ | ⟨hnot, what, hload⟩ := ih
          { s with
            config := s.config.addProperty (toLex (s.currentSection, key)) value
            lineNumber := s.lineNumber + 1 } hs
        · exact .inl ⟨hkeyValue.1.mp hunique, s', hload, hkeyValue.2 s' hadded⟩
        · exact .inr ⟨fun hunique => hnot (hkeyValue.1.mpr hunique), what, hload⟩
    | other =>
      obtain ⟨warnings, hwarned⟩ := loadLine_of_other (s := s) hline
      rw [hwarned]
      obtain ⟨hunique, s', hload, hadded⟩ | ⟨hnot, what, hload⟩ := ih
        { s with lineNumber := s.lineNumber + 1, warnings := warnings } hs
      · exact .inl ⟨hunique, s', hload, hadded.sections, hadded.properties⟩
      · exact .inr ⟨hnot, what, hload⟩

theorem global_notMem_headers (lines : List Text) :
    globalSectionName ∉ headers (lines.map classify) := by
  induction lines with
  | nil => exact List.not_mem_nil
  | cons line lines ih =>
    rw [List.map_cons]
    cases hline : classify line with
    | header name =>
      refine mt List.mem_cons.mp (not_or.mpr ⟨?_, ih⟩)
      exact (name_ne_global hline).symm
    | keyValue key value => exact ih
    | other => exact ih

/-- With distinct sections, what is under a section is the block of the section. -/
theorem select_of_block {lines : List LineKind} {name : Text} {pairs : List KeyValue}
    (hsections : (globalSectionName :: headers lines).Nodup) (h : Block lines name pairs) :
    select name (tagged globalSectionName lines) = pairs := by
  cases h with
  | global =>
    rw [← globalSectionName_eq]
    exact select_tagged_current (List.nodup_cons.mp hsections).1
  | headed h =>
    subst h
    exact select_tagged_headed hsections

theorem block_of_mem_headers {lines : List LineKind} {name : Text} (h : name ∈ headers lines) :
    ∃ pairs, Block lines name pairs := by
  suffices hsplit : ∃ before after, lines = before ++ .header name :: after by
    obtain ⟨before, after, hlines⟩ := hsplit
    exact ⟨_, .headed hlines⟩
  induction lines with
  | nil => cases h
  | cons line lines ih =>
    have hlater : name ∈ headers lines → ∃ before after,
        line :: lines = before ++ .header name :: after := by
      intro hrest
      obtain ⟨before, after, hlines⟩ := ih hrest
      exact ⟨line :: before, after, congrArg (line :: ·) hlines⟩
    cases line with
    | header next =>
      obtain rfl | hrest := List.mem_cons.mp h
      · exact ⟨[], lines, rfl⟩
      · exact hlater hrest
    | keyValue key value => exact hlater h
    | other => exact hlater h

theorem unique_start_iff {lines : List LineKind} (hglobal : globalSectionName ∉ headers lines) :
    Unique start lines ↔ ¬Duplicated lines := by
  have hstart : Unique start lines ↔ (globalSectionName :: headers lines).Nodup ∧
      ((tagged globalSectionName lines).map Prod.fst).Nodup := Iff.rfl
  unfold Duplicated
  rw [hstart, List.nodup_cons, and_iff_right hglobal, not_or, not_not]
  refine and_congr_right fun hheaders => ?_
  have hsections := List.nodup_cons.mpr ⟨hglobal, hheaders⟩
  rw [nodup_iff_select]
  constructor
  · rintro hnodup ⟨name, pairs, hblock, hkeys⟩
    exact hkeys (select_of_block hsections hblock ▸ hnodup name)
  · intro h name
    by_contra hkeys
    by_cases hname : name ∈ globalSectionName :: headers lines
    · obtain ⟨pairs, hblock⟩ : ∃ pairs, Block lines name pairs := by
        obtain rfl | hheader := List.mem_cons.mp hname
        · exact ⟨_, block_global lines⟩
        · exact block_of_mem_headers hheader
      exact h ⟨name, pairs, hblock, select_of_block hsections hblock ▸ hkeys⟩
    · obtain ⟨hne, hheader⟩ := not_or.mp (mt List.mem_cons.mpr hname)
      rw [select_tagged_of_absent hne hheader] at hkeys
      exact hkeys List.nodup_nil

/-- A readable file is refused exactly for a duplicate; otherwise all of it is kept. -/
theorem load_keeps (filename : Text) (lines : List Text) :
    ((∃ what, load filename (some lines) = .error (.runtimeError what)) ↔
        Duplicated (lines.map classify)) ∧
      (¬Duplicated (lines.map classify) → ∃ s, load filename (some lines) = .ok s ∧
        Keeps (lines.map classify) s.config) := by
  have hglobal := global_notMem_headers lines
  have hunique := unique_start_iff hglobal
  obtain ⟨hstart, s, hload, hadded⟩ | ⟨hstart, what, hload⟩ :=
    loadLines_cases filename start lines (List.nodup_singleton globalSectionName)
  · have hkept : Keeps (lines.map classify) s.config := by
      refine ⟨globalSectionName_eq ▸ hadded.sections, fun name pairs hblock => ?_⟩
      have hsections : (globalSectionName :: headers (lines.map classify)).Nodup := hstart.1
      rw [← select_of_block hsections hblock]
      exact hadded.properties.filterMap _
    refine ⟨⟨?_, fun hdup => absurd hdup (hunique.mp hstart)⟩, fun _ => ⟨s, hload, hkept⟩⟩
    rintro ⟨what, herror⟩
    cases herror.symm.trans hload
  · have hdup : Duplicated (lines.map classify) := not_not.mp (mt hunique.mpr hstart)
    exact ⟨⟨fun _ => hdup, fun _ => ⟨what, hload⟩⟩, fun hnot => absurd hdup hnot⟩

end Rv64Emu.ConfigFile
