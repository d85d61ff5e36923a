import Rv64Emu.CommandLines
import Rv64Emu.Frontend.Process
import Rv64Emu.ListingFiles
import Rv64Emu.Transcripts

/-! The process of a command line that starts the emulator or disassembles. -/
namespace Rv64Emu.CommandLine

open Launcher Conformance Options

/-- A command line without `-p`: whatever way its options are spelled, the process writes
the text of the instructions that a hart executes from the initial registers, then what
is left to say about their end, and returns the verdict. -/
theorem run_of_hart {progName : Text} {args : List Text} {os : List (Char × Option Text)}
    {words : List Text} (hspells : Spells '-' (takes optstring) [] args os (some words))
    {testFilename execFilename : Option Text} {debugMode : Bool} {initializers : List RegisterInit}
    (hlaunches : Launches os words testFilename execFilename false debugMode initializers)
    {files : Files} {allocate : ELFFile.Allocator} {j : Job} {f : ELFFile}
    (hready : Ready files allocate testFilename (execFilename.getD []) initializers j f)
    {k : Nat} {h : Rv64i.Hart Signal} (hrun : f.hartRun (initial j.initializers) k = some h)
    (hexecutes : ∀ i < k, ∀ g, f.hartRun (initial j.initializers) i = some g →
      executes g.word = true)
    (hends : h.stopped f.platform = true ∨ f.platform.readable h.pc 4 = false ∨
      h.word = testEndMarker) (resize : BitVec 64 → Bool) {fuel : Nat}
    (hfuel : remaining [] args < fuel) (hcycles : 5 * k < fuel) :
    run files allocate resize (progName :: args) fuel =
      some { cerr := written testFilename debugMode f j k h,
             ending := verdict h.registers.read j.postRegisters } := by
  have hemulate := hready.emulate_eq hrun hexecutes hends debugMode hcycles
  unfold run
  rw [main_of_launches hfuel hspells hlaunches, Option.bind_some]
  exact congrArg (Option.map fun r => ({ cerr := r.1, ending := r.2 } : Outcome)) hemulate

/-- `-dr R2=7 greeting.bin` -/
theorem run_of_hart_greeting :
    ∃ h, ELFFile.greetingFile.hartRun (initial [⟨2, 7⟩]) 3 = some h ∧
      run greetingFiles ELFFile.alignedHeap (fun _ => true)
        ["rv64-emu".toList, "-dr".toList, "R2=7".toList, "greeting.bin".toList] 40 =
          some { cerr := written none true ELFFile.greetingFile
                   { programFilename := "greeting.bin".toList, initializers := [⟨2, 7⟩] } 3 h,
                 ending := .exit .success } := by
  have hplain : ∀ word ∈ ["greeting.bin".toList].head?, ¬IsOption '-' word := by
    rintro word hword ⟨c, cs, rfl⟩
    cases congrArg (Option.map List.head?) hword
  have hspells : Spells '-' (takes optstring) []
      ["-dr".toList, "R2=7".toList, "greeting.bin".toList]
      [('d', none), ('r', some "R2=7".toList)] (some ["greeting.bin".toList]) :=
    .word (by decide) (.flag rfl (.detached rfl (.stop hplain)))
  have hlaunches : Launches [('d', none), ('r', some "R2=7".toList)] ["greeting.bin".toList] none
      (some "greeting.bin".toList) false true [⟨2, 7⟩] :=
    { letters := by simp
      debugMode := rfl
      pipelining := rfl
      initializers := by decide +kernel
      test := rfl
      ordered := by decide
      program := rfl
      present := .inr (List.cons_ne_nil _ _) }
  obtain ⟨h, hh, hstopped, -⟩ := greeting_halts
  exact ⟨h, hh, run_of_hart hspells hlaunches greeting_ready_program hh greeting_executes
    (.inl hstopped) (fun _ => true) (by decide) (by decide)⟩

/-- A command line that runs a spaced test without `-d`: with `-p` or without it the
process writes the same bytes and returns the same verdict. -/
theorem run_of_spaced {progName : Text} {args : List Text} {os : List (Char × Option Text)}
    {words : List Text} (hspells : Spells '-' (takes optstring) [] args os (some words))
    {testFilename : Text} {execFilename : Option Text} {pipelining : Bool}
    {initializers : List RegisterInit}
    (hlaunches : Launches os words (some testFilename) execFilename pipelining false initializers)
    {files : Files} {allocate : ELFFile.Allocator} {j : Job} {f : ELFFile}
    (hready :
      Ready files allocate (some testFilename) (execFilename.getD []) initializers j f)
    {k : Nat} {h : Rv64i.Hart Signal} (hrun : f.hartRun (initial j.initializers) k = some h)
    (hexecutes : ∀ i < k, ∀ g, f.hartRun (initial j.initializers) i = some g →
      executes g.word = true)
    (hcode : ∀ i ≤ k, ∀ g, f.hartRun (initial j.initializers) i = some g →
      g.stopped f.platform = false → f.platform.writable g.pc 1 = false)
    (hspaced : ∀ i < k, ∀ g g', f.hartRun (initial j.initializers) i = some g →
      f.hartRun (initial j.initializers) (i + 1) = some g' → spaced f.loaded g g' = true)
    (hends : h.stopped f.platform = true ∨
      f.platform.readable h.pc 4 = true ∧ h.word = testEndMarker)
    (resize : BitVec 64 → Bool) {fuel : Nat} (hfuel : remaining [] args < fuel)
    (hcycles : 5 * k + 9 < fuel) :
    run files allocate resize (progName :: args) fuel =
      some { cerr := written (some testFilename) false f j k h,
             ending := verdict h.registers.read j.postRegisters } := by
  have hemulate : emulate files allocate (some testFilename) (execFilename.getD []) pipelining false
      initializers fuel = some (written (some testFilename) false f j k h,
        verdict h.registers.read j.postRegisters) := by
    cases pipelining with
    | false =>
      exact hready.emulate_eq hrun hexecutes (hends.imp_right fun h => .inr h.2) false (by omega)
    | true =>
      obtain ⟨s, -, hs⟩ := hready.emulate_spaced hrun hexecutes hcode hspaced hends
        (show 3 * k + 9 < fuel by omega)
      -- A test has no statistics, which would tell the two modes apart.
      rw [hs]
      simp [written, writtenPipelined]
  unfold run
  rw [main_of_launches hfuel hspells hlaunches, Option.bind_some]
  exact congrArg (Option.map fun r => ({ cerr := r.1, ending := r.2 } : Outcome)) hemulate

/-- `-pt skipping.conf` -/
theorem run_of_spaced_skipping :
    ∃ h, skippingFile.hartRun (initial skippingJob.initializers) 2 = some h ∧
      run skippingFiles ELFFile.alignedHeap (fun _ => true)
        ["rv64-emu".toList, "-pt".toList, "skipping.conf".toList] 30 =
          some { cerr := written (some "skipping.conf".toList) false skippingFile skippingJob 2 h,
                 ending := .exit .success } := by
  have hspells : Spells '-' (takes optstring) [] ["-pt".toList, "skipping.conf".toList]
      [('p', none), ('t', some "skipping.conf".toList)] (some []) :=
    .word (by decide) (.flag rfl (.detached rfl (.stop nofun)))
  have hlaunches : Launches [('p', none), ('t', some "skipping.conf".toList)] []
      (some "skipping.conf".toList) none true false [] :=
    { letters := by simp
      debugMode := rfl
      pipelining := rfl
      initializers := rfl
      test := rfl
      ordered := by decide
      program := rfl
      present := .inl (Option.some_ne_none _) }
  obtain ⟨h, hh, hends, hverdict⟩ := skipping_ends
  rw [← hverdict]
  exact ⟨h, hh, run_of_spaced hspells hlaunches skipping_ready hh skipping_executes
    skipping_code skipping_spaced (.inr hends) (fun _ => true) (by decide) (by decide)⟩

/-- Every process that disassembles the argument prints these lines and succeeds. -/
def Prints (files : Files) (allocate : ELFFile.Allocator) (resize : BitVec 64 → Bool)
    (asFile : Bool) (disasmArg : Text) (cout : List String) : Prop :=
  ∀ progName args os words, Spells '-' (takes optstring) [] args os (some words) →
    Disassembles os asFile disasmArg → ∀ fuel, remaining [] args < fuel →
      run files allocate resize (progName :: args) fuel = some { cout, ending := .exit .success }

theorem prints_file {files : Files} {filename : Text} {g : ELFFile}
    (hfile : files.contents filename = some g) (allocate : ELFFile.Allocator)
    {resize : BitVec 64 → Bool} {cout : List String} (h : g.disasmFile resize = ⟨cout, .success⟩) :
    Prints files allocate resize true filename cout := by
  intro progName args os words hspells hdisassembles fuel hfuel
  unfold run
  rw [main_of_disassembles hfuel hspells hdisassembles, Option.bind_some, if_pos rfl]
  unfold Command.perform
  dsimp only
  rw [hfile]
  dsimp only
  rw [h]
  rfl

theorem prints_single (files : Files) (allocate : ELFFile.Allocator) (resize : BitVec 64 → Bool)
    {disasmArg : Text} {cout : List String} (h : Rv64Emu.disasmSingle disasmArg = ⟨cout, .success⟩) :
    Prints files allocate resize false disasmArg cout := by
  intro progName args os words hspells hdisassembles fuel hfuel
  unfold run
  rw [main_of_disassembles hfuel hspells hdisassembles, Option.bind_some,
    if_neg Bool.false_ne_true]
  unfold Command.perform
  dsimp only
  rw [h]
  rfl

/-- A listing may be handed to the disassembler as a file or line by line: the lines
that it prints are the same. -/
theorem run_of_listing {files : Files} {filename : Text} {g : ELFFile}
    (hfile : files.contents filename = some g) {entries : List Entry} (hne : entries ≠ [])
    (hg : g.text = TextLines.join ((entries.map Entry.line).map String.toList))
    (allocate : ELFFile.Allocator) (resize : BitVec 64 → Bool) :
    Prints files allocate resize true filename
        (entries.map fun e => Entry.line (0, e.number.setWidth 32)) ∧
      ∀ e ∈ entries, Prints files allocate resize false e.line.toList
        [Entry.line (0, e.number.setWidth 32)] :=
  ⟨prints_file hfile allocate (ELFFile.disasmFile_of_listing hne hg resize),
    fun e _ => prints_single files allocate resize (disasmSingle_line e)⟩

def listingFiles : Files where
  lines _ := none
  contents name := if name = "listing.txt".toList then some ELFFile.numbersListing else none

/-- `-X listing.txt` and `-x` with its line. -/
theorem run_of_listing_numbers :
    run listingFiles ELFFile.alignedHeap (fun _ => true)
        ["rv64-emu".toList, "-X".toList, "listing.txt".toList] 30 =
      some { cout := ["0x00000013\taddi r0, r0, $0"], ending := .exit .success } ∧
    run listingFiles ELFFile.alignedHeap (fun _ => true)
        ["rv64-emu".toList, "-x".toList, "0x00000013\taddi r0, r0, $0".toList] 60 =
      some { cout := ["0x00000013\taddi r0, r0, $0"], ending := .exit .success } := by
  have hline : Entry.line (0, 0x13) = "0x00000013\taddi r0, r0, $0" := by decide +kernel
  have hnumber : (Entry.number (0, 0x13)).setWidth 32 = (0x13 : InstructionWord) := by decide
  have hcontents : listingFiles.contents "listing.txt".toList = some ELFFile.numbersListing := rfl
  have hg : ELFFile.numbersListing.text =
      TextLines.join (([((0 : MemAddress), (0x13 : InstructionWord))].map Entry.line).map
        String.toList) := by
    rw [List.map_singleton, hline]
    decide +kernel
  obtain ⟨hfile, hsingle⟩ := run_of_listing hcontents (List.cons_ne_nil _ _) hg
    ELFFile.alignedHeap (fun _ => true)
  have hagain := hsingle _ List.mem_cons_self
  rw [List.map_singleton, hnumber, hline] at hfile
  rw [hnumber, hline] at hagain
  have hspells : ∀ c : Char, takes optstring c = some true → [c] ≠ ['-'] → ∀ argument : Text,
      Spells '-' (takes optstring) [] [['-', c], argument] [(c, some argument)] (some []) :=
    fun c hc hne argument => .word hne (.detached hc (.stop nofun))
  exact ⟨hfile _ _ _ _ (hspells 'X' rfl (by decide) _)
      ⟨by simp, ⟨[], rfl⟩, by decide, by decide, by decide⟩ _ (by decide),
    hagain _ _ _ _ (hspells 'x' rfl (by decide) _)
      ⟨by simp, ⟨[], rfl⟩, by decide, by decide, by decide⟩ _ (by decide)⟩

end Rv64Emu.CommandLine
