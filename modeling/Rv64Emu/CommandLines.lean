import Rv64Emu.Frontend.CommandLine
import Rv64Emu.Library.Options
import Rv64Emu.Library.Outcomes

/-! What the words of a command line spell, and which command lines start the emulator
or disassemble. -/
namespace Rv64Emu.CommandLine

open Launcher Options

/-! ### The options of a command line -/

/-- A letter of `optstring` takes an argument if a colon is behind it. -/
def takes (optstring : Text) (c : Char) : Option Bool :=
  match strchr optstring c with
  | none => none
  | some cp => if c = ':' then none else some ((cp.drop 1).head? == some ':')

theorem takes_eq_some {optstring : Text} {c : Char} {argument : Bool}
    (h : takes optstring c = some argument) :
    ∃ cp, strchr optstring c = some cp ∧ c ≠ ':' ∧ ((cp.drop 1).head? = some ':' ↔ argument) := by
  unfold takes at h
  cases hfound : strchr optstring c with
  | none =>
    rw [hfound] at h
    cases h
  | some cp =>
    rw [hfound] at h
    by_cases hcolon : c = ':'
    · cases (if_pos hcolon).symm.trans h
    · have hargument := Option.some.inj ((if_neg hcolon).symm.trans h)
      exact ⟨cp, rfl, hcolon, by rw [← hargument, beq_iff_eq]⟩

namespace Getopt

/-- What is left of a word, and the words behind it. -/
def tail (g : Getopt) : Text := if g.optind = 0 then [] else g.next.getD []

def words (argv : List Text) (g : Getopt) : List Text :=
  argv.drop (if g.optind = 0 then 1 else g.optind)

/-- A call of `getopt` at the head of the options. -/
inductive Yields (argv : List Text) (optstring : Text) : List (Char × Option Text) →
    Option (List Text) → Option Char × Getopt → Prop where
  | stop (g : Getopt) : Yields argv optstring [] (some (argv.drop g.optind)) (none, g)
  | refused (g : Getopt) : Yields argv optstring [] none (some '?', g)
  | option {c : Char} {g : Getopt} {os : List (Char × Option Text)} {rest : Option (List Text)}
      (h : Spells '-' (takes optstring) g.tail (g.words argv) os rest) :
      Yields argv optstring ((c, g.optarg) :: os) rest (some c, g)

variable {argv : List Text} {optstring : Text} {g : Getopt} {os : List (Char × Option Text)}
  {rest : Option (List Text)}

theorem letter_of_unknown {c : Char} (h : takes optstring c = none) (next : Text) :
    letter argv optstring g c next = (some '?', { g with next := some next }) := by
  unfold takes at h
  unfold letter
  cases hfound : strchr optstring c with
  | none => rfl
  | some cp =>
    rw [hfound] at h
    by_cases hcolon : c = ':'
    · exact if_pos hcolon
    · cases (if_neg hcolon).symm.trans h

theorem letter_of_flag {c : Char} (h : takes optstring c = some false) (next : Text) :
    letter argv optstring g c next = (some c, { g with next := some next }) := by
  obtain ⟨cp, hfound, hcolon, hargument⟩ := takes_eq_some h
  unfold letter
  rw [hfound]
  dsimp only
  rw [if_neg hcolon, if_neg (mt hargument.mp Bool.false_ne_true)]

theorem letter_of_attached {c : Char} (h : takes optstring c = some true) {next : Text}
    (hnext : next ≠ []) : letter argv optstring g c next =
      (some c, { g with optarg := some next, next := none }) := by
  obtain ⟨cp, hfound, hcolon, hargument⟩ := takes_eq_some h
  unfold letter
  rw [hfound]
  dsimp only
  rw [if_neg hcolon, if_pos (hargument.mpr rfl), if_pos hnext]

theorem letter_of_detached {c : Char} (h : takes optstring c = some true) {arg : Text}
    (hat : argv[g.optind]? = some arg) : letter argv optstring g c [] =
      (some c, { optarg := some arg, optind := g.optind + 1, next := some [] }) := by
  obtain ⟨cp, hfound, hcolon, hargument⟩ := takes_eq_some h
  unfold letter
  rw [hfound]
  dsimp only
  rw [if_neg hcolon, if_pos (hargument.mpr rfl), if_neg (not_not.mpr rfl), hat]

theorem letter_of_missing {c : Char} (h : takes optstring c = some true)
    (hat : argv[g.optind]? = none) :
    letter argv optstring g c [] = (some '?', { g with next := some [] }) := by
  obtain ⟨cp, hfound, hcolon, hargument⟩ := takes_eq_some h
  unfold letter
  rw [hfound]
  dsimp only
  rw [if_neg hcolon, if_pos (hargument.mpr rfl), if_neg (not_not.mpr rfl), hat]

theorem yields_letter (hstarted : g.optind ≠ 0) (hnull : g.optarg = none) {c : Char} {next : Text}
    (h : Spells '-' (takes optstring) (c :: next) (argv.drop g.optind) os rest) :
    Yields argv optstring os rest (letter argv optstring g c next) := by
  generalize hwords : argv.drop g.optind = words at h
  have hat : argv[g.optind]? = words.head? := by
    rw [← hwords, List.head?_drop]
  cases h with
  | unknown _ _ hc =>
    rw [letter_of_unknown hc]
    exact .refused _
  | missing hc =>
    rw [letter_of_missing hc hat]
    exact .refused _
  | flag hc h =>
    rw [letter_of_flag hc, ← hnull]
    apply Yields.option (g := { g with next := some next })
    unfold tail Getopt.words
    dsimp only
    rw [if_neg hstarted, if_neg hstarted, hwords]
    exact h
  | attached hc h =>
    rw [letter_of_attached hc (List.cons_ne_nil _ _)]
    apply Yields.option (g := { g with optarg := some _, next := none })
    unfold tail Getopt.words
    dsimp only
    rw [if_neg hstarted, if_neg hstarted, hwords]
    exact h
  | @detached _ argument words _ _ hc h =>
    rw [letter_of_detached hc hat]
    apply Yields.option (g := { optarg := some argument, optind := g.optind + 1, next := some [] })
    have hrest : argv.drop (g.optind + 1) = words := by
      rw [← List.drop_drop, hwords]
      rfl
    unfold tail Getopt.words
    dsimp only
    rw [if_neg (Nat.succ_ne_zero _), if_neg (Nat.succ_ne_zero _), hrest]
    exact h

theorem yields_word (hnull : g.optarg = none)
    (h : Spells '-' (takes optstring) [] (argv.drop g.optind) os rest) :
    Yields argv optstring os rest (word argv optstring g) := by
  generalize hwords : argv.drop g.optind = words at h
  have hat : argv[g.optind]? = words.head? := by
    rw [← hwords, List.head?_drop]
  unfold word
  rw [hat]
  cases h with
  | stop hnone =>
    cases words with
    | nil =>
      have hstop : Yields argv optstring [] (some (argv.drop g.optind)) (none, g) := .stop g
      rw [hwords] at hstop
      exact hstop
    | cons arg words =>
      have hplain : ¬IsOption '-' arg := hnone arg rfl
      dsimp only [List.head?_cons]
      split
      · exact absurd ⟨_, _, rfl⟩ hplain
      · rw [← hwords]
        exact .stop { g with optarg := some arg }
  | dashes words =>
    have hrest : argv.drop (g.optind + 1) = words := by
      rw [← List.drop_drop, hwords]
      rfl
    rw [← hrest]
    exact .stop { g with optarg := argv[g.optind + 1]?, optind := g.optind + 1 }
  | @word c next words _ _ hne h =>
    have hrest : argv.drop (g.optind + 1) = words := by
      rw [← List.drop_drop, hwords]
      rfl
    have hnot : ¬(c = '-' ∧ next = []) := by
      rintro ⟨rfl, rfl⟩
      exact hne rfl
    change Yields argv optstring os rest (if c = '-' ∧ next = [] then _ else _)
    rw [if_neg hnot]
    rw [← hrest] at h
    exact yields_letter (g := { g with optind := g.optind + 1 }) (Nat.succ_ne_zero _) hnull h

/-- Each call reads off the next option. -/
theorem yields_getopt (h : Spells '-' (takes optstring) g.tail (g.words argv) os rest) :
    Yields argv optstring os rest (getopt argv optstring g) := by
  unfold tail words at h
  unfold getopt
  by_cases hstart : g.optind = 0
  · rw [if_pos hstart, if_pos hstart] at h
    rw [if_pos hstart, if_pos hstart]
    exact yields_word rfl h
  · rw [if_neg hstart, if_neg hstart] at h
    rw [if_neg hstart, if_neg hstart]
    cases hnext : g.next with
    | none =>
      rw [hnext] at h
      exact yields_word rfl h
    | some next =>
      rw [hnext] at h
      cases next with
      | nil => exact yields_word rfl h
      | cons c next => exact yields_letter (g := { g with optarg := none }) hstart rfl h

end Getopt

/-! ### The loop -/

/-- What `main` makes of options and of what follows them. -/
def settle (progName : Text) (os : List (Char × Option Text)) (rest : Option (List Text))
    (s : Settings) : Command :=
  match os.foldlM (fun s o => s.option progName o.1 (o.2.getD [])) s with
  | .error command => command
  | .ok s =>
    match rest with
    | none => help progName
    | some words => s.command progName words

theorem settle_of_error {progName : Text} {o : Char × Option Text} {os : List (Char × Option Text)}
    {rest : Option (List Text)} {s : Settings} {command : Command}
    (h : s.option progName o.1 (o.2.getD []) = .error command) :
    settle progName (o :: os) rest s = command := by
  unfold settle
  rw [List.foldlM_cons, h]
  rfl

theorem settle_of_ok {progName : Text} {o : Char × Option Text} {os : List (Char × Option Text)}
    {rest : Option (List Text)} {s t : Settings}
    (h : s.option progName o.1 (o.2.getD []) = .ok t) :
    settle progName (o :: os) rest s = settle progName os rest t := by
  unfold settle
  rw [List.foldlM_cons, h]
  rfl

theorem options_eq {argv : List Text} {progName : Text} {g : Getopt}
    {os : List (Char × Option Text)} {rest : Option (List Text)}
    (h : Spells '-' (takes optstring) g.tail (g.words argv) os rest) {s : Settings} {fuel : Nat}
    (hfuel : os.length < fuel) :
    (options argv progName fuel g s).map (conclude argv progName) =
      some (settle progName os rest s) := by
  induction os generalizing g s fuel with
  | nil =>
    obtain ⟨fuel, rfl⟩ := Nat.exists_eq_add_of_lt hfuel
    unfold options
    have hyields := Getopt.yields_getopt h
    generalize getopt argv optstring g = r at hyields ⊢
    cases hyields with
    | stop g => rfl
    | refused g => rfl
  | cons o os ih =>
    obtain ⟨fuel, rfl⟩ := Nat.exists_eq_add_of_lt hfuel
    unfold options
    have hyields := Getopt.yields_getopt h
    generalize getopt argv optstring g = r at hyields ⊢
    cases hyields with
    | @option c g _ _ h =>
      cases hoption : s.option progName c (g.optarg.getD []) with
      | error command =>
        rw [settle_of_error hoption]
        dsimp only
        rw [hoption]
        rfl
      | ok t =>
        rw [settle_of_ok hoption]
        dsimp only
        rw [hoption]
        exact ih h (by rw [List.length_cons]; omega)

/-- The command line is read as its words spell it. -/
theorem main_eq {progName : Text} {args : List Text} {os : List (Char × Option Text)}
    {rest : Option (List Text)} (h : Spells '-' (takes optstring) [] args os rest) {fuel : Nat}
    (hfuel : os.length < fuel) :
    main (progName :: args) fuel = some (settle progName os rest {}) := by
  have hstart : Spells '-' (takes optstring) (Getopt.tail {})
      (Getopt.words (progName :: args) {}) os rest := h
  exact options_eq hstart hfuel

/-! ### The settings -/

/-- The arguments of a letter. -/
def arguments (c : Char) (os : List (Char × Option Text)) : List Text :=
  (os.filter (·.1 == c)).map fun o => o.2.getD []

/-- Whether a letter is among the options. -/
def given (c : Char) (os : List (Char × Option Text)) : Bool := os.any (·.1 == c)

/-- What is to be disassembled, as a file or as an instruction. -/
def disassembled (os : List (Char × Option Text)) : List (Bool × Text) :=
  (os.filter fun o => o.1 == 'x' || o.1 == 'X').map fun o => (o.1 == 'X', o.2.getD [])

def Settings.disassembly (s : Settings) : List (Bool × Text) :=
  s.disasmArg.toList.map fun disasmArg => (s.disasmAsFile, disasmArg)

/-- Options that ask for no help, and what they set: the initialisers in their order,
none of them behind a test, and one test and one disassembly at most. -/
@[mk_iff] structure Sets (os : List (Char × Option Text)) (s t : Settings) : Prop where
  letters : os.map Prod.fst ⊆ ['d', 'p', 'r', 't', 'x', 'X']
  debugMode : t.debugMode = (s.debugMode || given 'd' os)
  pipelining : t.pipelining = (s.pipelining || given 'p' os)
  initializers : ∃ inits, (arguments 'r' os).mapM RegisterInit.ofString = .ok inits ∧
    t.initializers = s.initializers ++ inits
  test : t.testFilename.toList = s.testFilename.toList ++ arguments 't' os
  ordered : os.Pairwise fun o o' => o.1 = 't' → o'.1 ≠ 'r'
  notBehind : s.testFilename.isSome = true → given 'r' os = false
  disassembly : t.disassembly = s.disassembly ++ disassembled os
  disasmAsFile : t.disasmArg = none → t.disasmAsFile = s.disasmAsFile

/-- One option that asks for no help. -/
inductive Chosen (o : Char × Option Text) (s : Settings) : Settings → Prop where
  | debugMode (hc : o.1 = 'd') : Chosen o s { s with debugMode := true }
  | pipelining (hc : o.1 = 'p') : Chosen o s { s with pipelining := true }
  | initializer {init : RegisterInit} (hc : o.1 = 'r') (hnone : s.testFilename = none)
      (hinit : RegisterInit.ofString (o.2.getD []) = .ok init) :
      Chosen o s { s with initializers := s.initializers ++ [init] }
  | test (hc : o.1 = 't') (hnone : s.testFilename = none) :
      Chosen o s { s with testFilename := some (o.2.getD []) }
  | disassemble (asFile : Bool) (hc : o.1 = if asFile then 'X' else 'x')
      (hnone : s.disasmArg = none) :
      Chosen o s { s with disasmArg := some (o.2.getD []), disasmAsFile := asFile }

/-- The cases of the switch. -/
theorem chosen_of_option {progName : Text} {o : Char × Option Text} {s t : Settings}
    (h : s.option progName o.1 (o.2.getD []) = .ok t) : Chosen o s t := by
  have hdisassemble : ∀ asFile : Bool, o.1 = (if asFile then 'X' else 'x') →
      s.disassemble asFile (o.2.getD []) = .ok t → Chosen o s t := by
    intro asFile hc h
    unfold Settings.disassemble at h
    split at h
    · cases h
    · rename_i hnone
      cases h
      exact .disassemble asFile hc (by simpa using hnone)
  unfold Settings.option at h
  split at h
  · rename_i hc
    cases h
    exact .debugMode hc
  split at h
  · rename_i hc
    cases h
    exact .pipelining hc
  split at h
  · rename_i hc
    split at h
    · cases h
    · rename_i hnone
      split at h
      · rename_i init hinit
        cases h
        exact .initializer hc (by simpa using hnone) hinit
      · cases h
  split at h
  · rename_i hc
    split at h
    · cases h
    · rename_i hnone
      cases h
      exact .test hc (by simpa using hnone)
  split at h
  · rename_i hc
    exact hdisassemble false hc h
  split at h
  · rename_i hc
    exact hdisassemble true hc h
  · cases h

theorem option_of_chosen (progName : Text) {o : Char × Option Text} {s t : Settings}
    (h : Chosen o s t) : s.option progName o.1 (o.2.getD []) = .ok t := by
  unfold Settings.option
  cases h with
  | debugMode hc => rw [hc, if_pos rfl]
  | pipelining hc => rw [hc, if_neg (by decide), if_pos rfl]
  | initializer hc hnone hinit =>
    rw [hc, if_neg (by decide), if_neg (by decide), if_pos rfl, hnone, if_neg (by decide), hinit]
  | test hc hnone =>
    rw [hc, if_neg (by decide), if_neg (by decide), if_neg (by decide), if_pos rfl, hnone,
      if_neg (by decide)]
  | disassemble asFile hc hnone =>
    unfold Settings.disassemble
    rw [hnone]
    cases asFile with
    | false =>
      have hx : o.1 = 'x' := hc
      rw [hx, if_neg (by decide), if_neg (by decide), if_neg (by decide), if_neg (by decide),
        if_pos rfl]
      rfl
    | true =>
      have hX : o.1 = 'X' := hc
      rw [hX, if_neg (by decide), if_neg (by decide), if_neg (by decide), if_neg (by decide),
        if_neg (by decide), if_pos rfl]
      rfl

@[simp] theorem arguments_cons (c : Char) (o : Char × Option Text) (os : List (Char × Option Text)) :
    arguments c (o :: os) = if o.1 = c then o.2.getD [] :: arguments c os else arguments c os := by
  unfold arguments
  by_cases h : o.1 = c
  · rw [if_pos h, List.filter_cons_of_pos (by simpa using h), List.map_cons]
  · rw [if_neg h, List.filter_cons_of_neg (by simpa using h)]

@[simp] theorem given_cons (c : Char) (o : Char × Option Text) (os : List (Char × Option Text)) :
    given c (o :: os) = (o.1 == c || given c os) := List.any_cons

@[simp] theorem disassembled_cons (o : Char × Option Text) (os : List (Char × Option Text)) :
    disassembled (o :: os) =
      if o.1 = 'x' ∨ o.1 = 'X' then (o.1 == 'X', o.2.getD []) :: disassembled os
      else disassembled os := by
  unfold disassembled
  by_cases h : o.1 = 'x' ∨ o.1 = 'X'
  · rw [if_pos h, List.filter_cons_of_pos (by simpa using h), List.map_cons]
  · rw [if_neg h, List.filter_cons_of_neg (by simpa using h)]

theorem given_eq_false_iff {c : Char} {os : List (Char × Option Text)} :
    given c os = false ↔ ∀ o ∈ os, o.1 ≠ c := by
  unfold given
  rw [List.any_eq_false]
  simp only [beq_iff_eq, ne_eq]

section

variable {o : Char × Option Text} {os : List (Char × Option Text)} {s t u : Settings}

theorem Settings.disassembly_eq_nil_iff : s.disassembly = [] ↔ s.disasmArg = none := by
  unfold Settings.disassembly
  rw [List.map_eq_nil_iff, Option.toList_eq_nil_iff]

theorem Settings.length_disassembly_le (s : Settings) : s.disassembly.length ≤ 1 := by
  unfold Settings.disassembly
  rw [List.length_map]
  exact Option.length_toList_le

theorem Settings.disassembly_inj (h : t.disassembly = s.disassembly)
    (hfile : t.disasmArg = none → t.disasmAsFile = s.disasmAsFile) :
    t.disasmArg = s.disasmArg ∧ t.disasmAsFile = s.disasmAsFile := by
  unfold Settings.disassembly at h
  cases ht : t.disasmArg with
  | none =>
    have hs : s.disasmArg = none := by
      rw [ht] at h
      exact Option.toList_eq_nil_iff.mp (List.map_eq_nil_iff.mp h.symm)
    exact ⟨hs.symm, hfile ht⟩
  | some disasmArg =>
    cases hs : s.disasmArg with
    | none =>
      rw [ht, hs] at h
      cases h
    | some disasmArg' =>
      rw [ht, hs] at h
      obtain ⟨hasFile, harg⟩ := Prod.mk.inj (List.cons.inj h).1
      exact ⟨congrArg some harg, hasFile⟩

theorem initializers_cons (hc : o.1 = 'r') {init : RegisterInit}
    (hinit : RegisterInit.ofString (o.2.getD []) = .ok init) :
    (∃ inits, (arguments 'r' (o :: os)).mapM RegisterInit.ofString = .ok inits ∧
        t.initializers = s.initializers ++ inits) ↔
      ∃ inits, (arguments 'r' os).mapM RegisterInit.ofString = .ok inits ∧
        t.initializers = s.initializers ++ [init] ++ inits := by
  rw [arguments_cons, if_pos hc]
  constructor
  · rintro ⟨inits, h, hset⟩
    obtain ⟨init', inits, hinit', hinits, rfl⟩ := Outcomes.mapM_cons_eq_ok_iff.mp h
    cases hinit.symm.trans hinit'
    exact ⟨inits, hinits, by rw [hset, List.append_assoc, List.singleton_append]⟩
  · rintro ⟨inits, h, hset⟩
    refine ⟨init :: inits, Outcomes.mapM_cons_eq_ok_iff.mpr ⟨init, inits, hinit, h, rfl⟩, ?_⟩
    rw [hset, List.append_assoc, List.singleton_append]

theorem disassembly_cons {asFile : Bool} (hc : o.1 = if asFile then 'X' else 'x')
    (hnone : s.disasmArg = none) :
    (t.disassembly = s.disassembly ++ disassembled (o :: os) ∧
        (t.disasmArg = none → t.disasmAsFile = s.disasmAsFile)) ↔
      (t.disassembly = (asFile, o.2.getD []) :: disassembled os ∧
        (t.disasmArg = none → t.disasmAsFile = asFile)) := by
  have hdisassembled : disassembled (o :: os) = (asFile, o.2.getD []) :: disassembled os := by
    cases asFile <;> simp [hc]
  have hsome : t.disassembly = (asFile, o.2.getD []) :: disassembled os → t.disasmArg ≠ none := by
    intro h hnone
    rw [Settings.disassembly_eq_nil_iff.mpr hnone] at h
    cases h
  rw [Settings.disassembly_eq_nil_iff.mpr hnone, hdisassembled, List.nil_append]
  constructor
  · rintro ⟨h, -⟩
    exact ⟨h, fun hnone => absurd hnone (hsome h)⟩
  · rintro ⟨h, -⟩
    exact ⟨h, fun hnone => absurd hnone (hsome h)⟩

theorem sets_cons (h : Chosen o s u) : Sets (o :: os) s t ↔ Sets os u t := by
  cases h with
  | debugMode hc =>
    simp [sets_iff, Settings.disassembly, hc]
  | pipelining hc =>
    simp [sets_iff, Settings.disassembly, hc]
  | initializer hc hnone hinit =>
    simp only [sets_iff, initializers_cons hc hinit]
    simp [Settings.disassembly, hc, hnone]
  | test hc hnone =>
    simp [sets_iff, Settings.disassembly, hc, hnone, given_eq_false_iff]
    tauto
  | disassemble asFile hc hnone =>
    simp only [sets_iff, disassembly_cons hc hnone]
    cases asFile <;> simp [Settings.disassembly, hc]

theorem chosen_of_sets (h : Sets (o :: os) s t) : ∃ u, Chosen o s u := by
  have hletter : o.1 ∈ ['d', 'p', 'r', 't', 'x', 'X'] := h.letters List.mem_cons_self
  have hdisasm : o.1 = 'x' ∨ o.1 = 'X' → s.disasmArg = none := by
    intro hc
    have hlength := congrArg List.length h.disassembly
    rw [disassembled_cons, if_pos hc, List.length_append, List.length_cons] at hlength
    have hle := t.length_disassembly_le
    exact Settings.disassembly_eq_nil_iff.mp (List.eq_nil_of_length_eq_zero (by omega))
  simp only [List.mem_cons, List.not_mem_nil, or_false] at hletter
  obtain hc | hc | hc | hc | hc | hc := hletter
  · exact ⟨_, .debugMode hc⟩
  · exact ⟨_, .pipelining hc⟩
  · have hnone : s.testFilename = none := by
      cases htest : s.testFilename with
      | none => rfl
      | some testFilename =>
        have hbehind := h.notBehind (by rw [htest]; rfl)
        rw [given_cons, hc] at hbehind
        cases hbehind
    obtain ⟨inits, hinits, -⟩ := h.initializers
    rw [arguments_cons, if_pos hc] at hinits
    obtain ⟨init, -, hinit, -⟩ := Outcomes.mapM_cons_eq_ok_iff.mp hinits
    exact ⟨_, .initializer hc hnone hinit⟩
  · have hnone : s.testFilename = none := by
      have htest := congrArg List.length h.test
      rw [arguments_cons, if_pos hc, List.length_append, List.length_cons] at htest
      have hle : t.testFilename.toList.length ≤ 1 := Option.length_toList_le
      exact Option.toList_eq_nil_iff.mp (List.eq_nil_of_length_eq_zero (by omega))
    exact ⟨_, .test hc hnone⟩
  · exact ⟨_, .disassemble false hc (hdisasm (.inl hc))⟩
  · exact ⟨_, .disassemble true hc (hdisasm (.inr hc))⟩

theorem sets_nil : Sets [] s t ↔ s = t := by
  constructor
  · rintro ⟨-, hdebugMode, hpipelining, ⟨inits, hinits, hset⟩, htest, -, -, hdisasm, hfile⟩
    cases hinits
    have hfirst := congrArg List.head? (htest.trans (List.append_nil _))
    rw [Option.head?_toList, Option.head?_toList] at hfirst
    obtain ⟨harg, hasFile⟩ := Settings.disassembly_inj (hdisasm.trans (List.append_nil _)) hfile
    ext1
    · exact (hpipelining.trans (Bool.or_false _)).symm
    · exact (hdebugMode.trans (Bool.or_false _)).symm
    · exact (hset.trans (List.append_nil _)).symm
    · exact hfirst.symm
    · exact harg.symm
    · exact hasFile.symm
  · rintro rfl
    simp [sets_iff, arguments, given, disassembled, pure, Except.pure]

/-- The loop accepts such options and no others. -/
theorem foldlM_iff (progName : Text) :
    os.foldlM (fun s o => s.option progName o.1 (o.2.getD [])) s = .ok t ↔ Sets os s t := by
  induction os generalizing s with
  | nil =>
    rw [sets_nil]
    constructor
    · intro h
      cases h
      rfl
    · rintro rfl
      rfl
  | cons o os ih =>
    rw [List.foldlM_cons]
    constructor
    · intro h
      cases hoption : s.option progName o.1 (o.2.getD []) with
      | error command =>
        rw [hoption] at h
        cases h
      | ok u =>
        rw [hoption] at h
        exact (sets_cons (chosen_of_option hoption)).mpr (ih.mp h)
    · intro h
      obtain ⟨u, hchosen⟩ := chosen_of_sets h
      rw [option_of_chosen progName hchosen]
      exact ih.mpr ((sets_cons hchosen).mp h)

end

/-! ### What a command line does -/

theorem option_error {progName : Text} {c : Char} {optarg : Text} {s : Settings}
    {command : Command} (h : s.option progName c optarg = .error command) :
    ∃ message code, command = .exit message code := by
  unfold Settings.option Settings.disassemble at h
  repeat' split at h
  all_goals cases h
  all_goals exact ⟨_, _, rfl⟩

theorem foldlM_error {progName : Text} {os : List (Char × Option Text)} {s : Settings}
    {command : Command}
    (h : os.foldlM (fun s o => s.option progName o.1 (o.2.getD [])) s = .error command) :
    ∃ message code, command = .exit message code := by
  induction os generalizing s with
  | nil => cases h
  | cons o os ih =>
    rw [List.foldlM_cons] at h
    cases hoption : s.option progName o.1 (o.2.getD []) with
    | error command' =>
      rw [hoption] at h
      cases h
      exact option_error hoption
    | ok u =>
      rw [hoption] at h
      exact ih h

theorem command_eq_launcher_iff {progName : Text} {words : List Text} {s : Settings}
    {testFilename execFilename : Option Text} {pipelining debugMode : Bool}
    {initializers : List RegisterInit} :
    s.command progName words =
        .launcher testFilename execFilename pipelining debugMode initializers ↔
      s.disasmArg = none ∧ (s.testFilename ≠ none ∨ words ≠ []) ∧ s.testFilename = testFilename ∧
        words.head? = execFilename ∧ s.pipelining = pipelining ∧ s.debugMode = debugMode ∧
        s.initializers = initializers := by
  unfold Settings.command
  cases s.disasmArg with
  | some disasmArg => cases s.disasmAsFile <;> simp
  | none =>
    cases s.testFilename with
    | none => cases words <;> simp
    | some testFilename => simp

theorem command_eq_disasm_iff {progName : Text} {words : List Text} {s : Settings} {asFile : Bool}
    {disasmArg : Text} :
    s.command progName words = (if asFile then .disasmFile disasmArg else .disasmSingle disasmArg) ↔
      s.disassembly = [(asFile, disasmArg)] := by
  unfold Settings.command Settings.disassembly
  cases s.disasmArg with
  | some disasmArg' => cases s.disasmAsFile <;> cases asFile <;> simp
  | none =>
    cases s.testFilename with
    | none => cases words <;> cases asFile <;> simp
    | some testFilename => cases asFile <;> simp

theorem letters_iff {os : List (Char × Option Text)} :
    os.map Prod.fst ⊆ ['d', 'p', 'r', 't'] ↔
      os.map Prod.fst ⊆ ['d', 'p', 'r', 't', 'x', 'X'] ∧ disassembled os = [] := by
  induction os with
  | nil => simp [disassembled]
  | cons o os ih =>
    rw [List.map_cons, List.cons_subset, List.cons_subset, ih, disassembled_cons]
    by_cases hc : o.1 = 'x' ∨ o.1 = 'X'
    · obtain hc | hc := hc <;> simp [hc]
    · obtain ⟨hx, hX⟩ := not_or.mp hc
      simp [hx, hX, and_assoc]

/-- What `main` comes to is an exit, or what it makes of the accepted options. -/
theorem main_cases {progName : Text} {args : List Text} {fuel : Nat}
    (hfuel : remaining [] args < fuel) {command : Command}
    (h : main (progName :: args) fuel = some command) :
    (∃ message code, command = .exit message code) ∨
      ∃ os words t, Spells '-' (takes optstring) [] args os (some words) ∧ Sets os {} t ∧
        t.command progName words = command := by
  obtain ⟨os, rest, hspells⟩ := spells_total '-' (takes optstring) [] args
  rw [main_eq hspells (Nat.lt_of_le_of_lt (length_le_remaining hspells) hfuel)] at h
  have hsettle := Option.some.inj h
  unfold settle at hsettle
  cases hfold : os.foldlM (fun s o => Settings.option progName o.1 (o.2.getD []) s) {} with
  | error command' =>
    rw [hfold] at hsettle
    cases hsettle
    exact .inl (foldlM_error hfold)
  | ok t =>
    rw [hfold] at hsettle
    cases rest with
    | none => exact .inl ⟨_, _, hsettle.symm⟩
    | some words => exact .inr ⟨os, words, t, hspells, (foldlM_iff progName).mp hfold, hsettle⟩

theorem main_of_sets {progName : Text} {args : List Text} {fuel : Nat}
    (hfuel : remaining [] args < fuel) {os : List (Char × Option Text)} {words : List Text}
    (hspells : Spells '-' (takes optstring) [] args os (some words)) {t : Settings}
    (h : Sets os {} t) : main (progName :: args) fuel = some (t.command progName words) := by
  rw [main_eq hspells (Nat.lt_of_le_of_lt (length_le_remaining hspells) hfuel)]
  unfold settle
  rw [(foldlM_iff progName).mpr h]

/-- A command line that starts the emulator: the options, which ask for no help and
disassemble nothing, and the words behind them, of which the first is the program. -/
structure Launches (os : List (Char × Option Text)) (words : List Text)
    (testFilename execFilename : Option Text) (pipelining debugMode : Bool)
    (initializers : List RegisterInit) : Prop where
  letters : os.map Prod.fst ⊆ ['d', 'p', 'r', 't']
  debugMode : debugMode = given 'd' os
  pipelining : pipelining = given 'p' os
  initializers : (arguments 'r' os).mapM RegisterInit.ofString = .ok initializers
  test : arguments 't' os = testFilename.toList
  ordered : os.Pairwise fun o o' => o.1 = 't' → o'.1 ≠ 'r'
  program : execFilename = words.head?
  present : testFilename ≠ none ∨ words ≠ []

theorem main_of_launches {progName : Text} {args : List Text} {fuel : Nat}
    (hfuel : remaining [] args < fuel) {os : List (Char × Option Text)} {words : List Text}
    (hspells : Spells '-' (takes optstring) [] args os (some words))
    {testFilename execFilename : Option Text} {pipelining debugMode : Bool}
    {initializers : List RegisterInit}
    (h : Launches os words testFilename execFilename pipelining debugMode initializers) :
    main (progName :: args) fuel =
      some (.launcher testFilename execFilename pipelining debugMode initializers) := by
  obtain ⟨hletters, hdisassembled⟩ := letters_iff.mp h.letters
  have hsets : Sets os {} { pipelining, debugMode, initializers, testFilename } :=
    { letters := hletters
      debugMode := h.debugMode
      pipelining := h.pipelining
      initializers := ⟨initializers, h.initializers, rfl⟩
      test := h.test.symm
      ordered := h.ordered
      notBehind := nofun
      disassembly := hdisassembled.symm
      disasmAsFile := fun _ => rfl }
  rw [main_of_sets hfuel hspells hsets]
  exact congrArg some (command_eq_launcher_iff.mpr
    ⟨rfl, h.present, rfl, h.program.symm, rfl, rfl, rfl⟩)

/-- The emulator is started by such command lines and by no others. -/
theorem launches_iff {progName : Text} {args : List Text} {fuel : Nat}
    (hfuel : remaining [] args < fuel) {testFilename execFilename : Option Text}
    {pipelining debugMode : Bool} {initializers : List RegisterInit} :
    main (progName :: args) fuel =
        some (.launcher testFilename execFilename pipelining debugMode initializers) ↔
      ∃ os words, Spells '-' (takes optstring) [] args os (some words) ∧
        Launches os words testFilename execFilename pipelining debugMode initializers := by
  constructor
  · intro h
    obtain ⟨message, code, hexit⟩ | ⟨os, words, t, hspells, hsets, hcommand⟩ := main_cases hfuel h
    · cases hexit
    · obtain ⟨hnone, hpresent, rfl, rfl, rfl, rfl, rfl⟩ := command_eq_launcher_iff.mp hcommand
      obtain ⟨inits, hinits, hset⟩ := hsets.initializers
      have hdisassembled : disassembled os = [] :=
        hsets.disassembly.symm.trans (Settings.disassembly_eq_nil_iff.mpr hnone)
      exact ⟨os, words, hspells, {
        letters := letters_iff.mpr ⟨hsets.letters, hdisassembled⟩
        debugMode := hsets.debugMode
        pipelining := hsets.pipelining
        initializers := by rw [hinits, hset]; rfl
        test := hsets.test.symm
        ordered := hsets.ordered
        program := rfl
        present := hpresent }⟩
  · rintro ⟨os, words, hspells, h⟩
    exact main_of_launches hfuel hspells h

/-- `-dpr R2=7 greeting.bin` -/
theorem launches_iff_together : ∃ os words,
    Spells '-' (takes optstring) [] ["-dpr".toList, "R2=7".toList, "greeting.bin".toList] os
        (some words) ∧
      Launches os words none (some "greeting.bin".toList) true true [⟨2, 7⟩] :=
  (launches_iff (show _ < 30 by decide)).mp (show main ["rv64-emu".toList, "-dpr".toList,
    "R2=7".toList, "greeting.bin".toList] 30 = _ by decide +kernel)

/-- A command line that disassembles, a file or an instruction: whatever the other
options set, they are accepted, and the words behind them are left alone. -/
structure Disassembles (os : List (Char × Option Text)) (asFile : Bool) (disasmArg : Text) :
    Prop where
  letters : os.map Prod.fst ⊆ ['d', 'p', 'r', 't', 'x', 'X']
  initializers : ∃ inits, (arguments 'r' os).mapM RegisterInit.ofString = .ok inits
  tests : (arguments 't' os).length ≤ 1
  ordered : os.Pairwise fun o o' => o.1 = 't' → o'.1 ≠ 'r'
  single : disassembled os = [(asFile, disasmArg)]

theorem main_of_disassembles {progName : Text} {args : List Text} {fuel : Nat}
    (hfuel : remaining [] args < fuel) {os : List (Char × Option Text)} {words : List Text}
    (hspells : Spells '-' (takes optstring) [] args os (some words)) {asFile : Bool}
    {disasmArg : Text} (h : Disassembles os asFile disasmArg) :
    main (progName :: args) fuel =
      some (if asFile then .disasmFile disasmArg else .disasmSingle disasmArg) := by
  obtain ⟨inits, hinits⟩ := h.initializers
  have htest : (arguments 't' os).head?.toList = arguments 't' os := by
    have htests := h.tests
    match arguments 't' os, htests with
    | [], _ => rfl
    | [_], _ => rfl
  have hsets : Sets os {} {
      pipelining := given 'p' os, debugMode := given 'd' os, initializers := inits,
      testFilename := (arguments 't' os).head?, disasmArg := some disasmArg,
      disasmAsFile := asFile } :=
    { letters := h.letters
      debugMode := rfl
      pipelining := rfl
      initializers := ⟨inits, hinits, rfl⟩
      test := htest
      ordered := h.ordered
      notBehind := nofun
      disassembly := h.single.symm
      disasmAsFile := nofun }
  rw [main_of_sets hfuel hspells hsets, command_eq_disasm_iff.mpr rfl]

theorem disassembles_iff {progName : Text} {args : List Text} {fuel : Nat}
    (hfuel : remaining [] args < fuel) {asFile : Bool} {disasmArg : Text} :
    main (progName :: args) fuel =
        some (if asFile then .disasmFile disasmArg else .disasmSingle disasmArg) ↔
      ∃ os words, Spells '-' (takes optstring) [] args os (some words) ∧
        Disassembles os asFile disasmArg := by
  constructor
  · intro h
    obtain ⟨message, code, hexit⟩ | ⟨os, words, t, hspells, hsets, hcommand⟩ := main_cases hfuel h
    · cases asFile <;> cases hexit
    · obtain ⟨inits, hinits, -⟩ := hsets.initializers
      have htests : arguments 't' os = t.testFilename.toList := hsets.test.symm
      exact ⟨os, words, hspells, {
        letters := hsets.letters
        initializers := ⟨inits, hinits⟩
        tests := by rw [htests]; exact Option.length_toList_le
        ordered := hsets.ordered
        single := hsets.disassembly.symm.trans (command_eq_disasm_iff.mp hcommand) }⟩
  · rintro ⟨os, words, hspells, h⟩
    exact main_of_disassembles hfuel hspells h

/-- `-d -Xfile file` -/
theorem disassembles_iff_attached : ∃ os words,
    Spells '-' (takes optstring) [] ["-d".toList, "-Xfile".toList, "file".toList] os (some words) ∧
      Disassembles os true "file".toList :=
  (disassembles_iff (show _ < 30 by decide)).mp (show main ["rv64-emu".toList, "-d".toList,
    "-Xfile".toList, "file".toList] 30 = _ by decide +kernel)

end Rv64Emu.CommandLine
