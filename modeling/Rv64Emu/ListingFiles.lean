import Rv64Emu.CodeListing
import Rv64Emu.Disassembly.Lines
import Rv64Emu.Frontend.DisasmFile

/-! Listings as input of the disassembler. Without addresses a listing is its own listing;
with addresses, these are taken for the instructions. -/
namespace Rv64Emu

/-! ### Printed lines -/

namespace Formatter

/-- The text stays on one line. -/
def OneLine (text : String) : Prop := '\n' ∉ text.toList

instance (text : String) : Decidable (OneLine text) := inferInstanceAs (Decidable (¬_))

theorem oneLine_append_iff {text text' : String} :
    OneLine (text ++ text') ↔ OneLine text ∧ OneLine text' := by
  unfold OneLine
  rw [String.toList_append, List.mem_append, not_or]

theorem oneLine_formatRegister (reg : RegNumber) : OneLine (formatRegister reg) := by
  refine oneLine_append_iff.mpr ⟨by decide, fun hmem => ?_⟩
  exact absurd (Numerals.isDigit_of_mem_repr hmem) (by decide)

theorem oneLine_formatImmediate (value : BitVec 64) : OneLine (formatImmediate value) := by
  refine oneLine_append_iff.mpr ⟨by decide, fun hmem => ?_⟩
  obtain hminus | hdigit := Numerals.mem_repr_int hmem
  · exact absurd hminus (by decide)
  · exact absurd hdigit (by decide)

open Disassembly

/-- What does not separate tokens is part of one. -/
theorem mem_splitOnP {p : Char → Bool} {c : Char} (hp : p c = false) {cs : List Char}
    (hc : c ∈ cs) : ∃ token ∈ cs.splitOnP p, c ∈ token := by
  induction cs with
  | nil => cases hc
  | cons d cs ih =>
    obtain ⟨token, tokens, htokens⟩ := List.exists_cons_of_ne_nil (List.splitOnP_ne_nil p cs)
    rw [List.splitOnP_cons_eq_if_modifyHead, htokens]
    rw [htokens] at ih
    obtain rfl | hmem := List.mem_cons.mp hc
    · rw [if_neg (by simp [hp])]
      exact ⟨c :: token, List.mem_cons_self, List.mem_cons_self⟩
    · obtain ⟨found, hfound, hin⟩ := ih hmem
      by_cases hd : p d = true
      · rw [if_pos hd]
        exact ⟨found, List.mem_cons_of_mem _ hfound, hin⟩
      · rw [if_neg hd]
        obtain rfl | hlater := List.mem_cons.mp hfound
        · exact ⟨d :: found, List.mem_cons_self, List.mem_cons_of_mem d hin⟩
        · exact ⟨found, List.mem_cons_of_mem _ hlater, hin⟩

theorem oneLine_of_tokens {text : String} (h : ∀ token ∈ tokens text, '\n' ∉ token) :
    OneLine text := by
  intro hnewline
  obtain ⟨token, htoken, hin⟩ := mem_splitOnP (p := isSeparator) (by decide) hnewline
  exact h token htoken hin

theorem oneLine_operands (d : InstructionDecoder) : ∀ token ∈ operands d, '\n' ∉ token := by
  have hregister := oneLine_formatRegister
  have himmediate := oneLine_formatImmediate
  unfold OneLine at hregister himmediate
  unfold operands ofRegisters ofImmediate ofAddress ofTarget
  cases d.getOpcode <;> simp [hregister, himmediate]

theorem oneLine_of_named {d : InstructionDecoder} {mnemonic : String} (h : Named d mnemonic) :
    OneLine mnemonic := by
  obtain ⟨e, hlookup, -⟩ := h
  have hall : (encodings.all fun entry => decide (OneLine entry.1)) = true := by decide +kernel
  obtain ⟨before, after, htable, -⟩ := List.lookup_eq_some_iff.mp hlookup
  exact of_decide_eq_true (List.all_eq_true.mp hall (mnemonic, e) (by rw [htable]; simp))

theorem oneLine_emitUnaryOp {mnemonic : String} (h : OneLine mnemonic) (rd rs1 : RegNumber)
    (imm : BitVec 64) : OneLine (emitUnaryOp mnemonic rd rs1 imm) := by
  unfold emitUnaryOp
  simp only [oneLine_append_iff]
  exact ⟨⟨⟨⟨⟨⟨h, by decide⟩, oneLine_formatRegister rd⟩, by decide⟩, oneLine_formatRegister rs1⟩,
    by decide⟩, oneLine_formatImmediate imm⟩

theorem oneLine_compressed {inst : BitVec 16} {text : String}
    (h : formatCompressedInstruction inst = .ok text) : OneLine text := by
  have hmark : OneLine "  \t(compressed)" := by decide
  unfold formatCompressedInstruction illegal at h
  dsimp only at h
  split_ifs at h
  · cases h
    exact oneLine_append_iff.mpr ⟨oneLine_emitUnaryOp (by decide) _ _ _, hmark⟩
  · cases h
    exact oneLine_append_iff.mpr ⟨oneLine_emitUnaryOp (by decide) _ _ _, hmark⟩
  · cases h
    exact oneLine_append_iff.mpr ⟨oneLine_emitUnaryOp (by decide) _ _ _, hmark⟩
  · cases h

theorem oneLine_print (d : InstructionDecoder) : OneLine (print d) := by
  unfold print
  cases hformat : format d with
  | error e => exact (by decide : OneLine "illegal instruction")
  | ok text =>
    by_cases hlow : d.instructionWord &&& 0x3 = 0x3
    · obtain ⟨mnemonic, hnamed, htokens⟩ := tokens_of_format hlow hformat
      refine oneLine_of_tokens ?_
      rw [htokens]
      exact List.forall_mem_cons.mpr ⟨oneLine_of_named hnamed, oneLine_operands d⟩
    · unfold format at hformat
      rw [if_pos hlow] at hformat
      exact oneLine_compressed hformat

end Formatter

open CStrings

/-- A word with its address. -/
abbrev Entry := MemAddress × InstructionWord

def Entry.line (e : Entry) : String := formatDisassembly ⟨e.2⟩ e.1

/-- What a line of the listing is read as: an address that is not zero comes first. -/
def Entry.number (e : Entry) : BitVec 64 := if e.1 ≠ 0 then e.1 else e.2.setWidth 64

theorem oneLine_of_digits {cs : Text} (h : ∀ c ∈ cs, isDigitOf 16 c = true) :
    Formatter.OneLine (String.ofList cs) := by
  unfold Formatter.OneLine
  rw [String.toList_ofList]
  exact fun hmem => absurd (h _ hmem) (by decide)

theorem digits_of_hexadecimal (n : Nat) : ∀ c ∈ Nat.toDigits 16 n, isDigitOf 16 c = true :=
  fun _ hc => isDigitOf_of_mem_toDigits (by decide) (by decide) hc

theorem digits_of_paddedWord (word : InstructionWord) :
    ∀ c ∈ (Nat.toDigits 16 word.toNat).leftpad 8 '0', isDigitOf 16 c = true := by
  unfold List.leftpad
  intro c hc
  obtain hzero | hdigit := List.mem_append.mp hc
  · rw [List.eq_of_mem_replicate hzero]
    decide
  · exact digits_of_hexadecimal _ c hdigit

theorem oneLine_line (e : Entry) : Formatter.OneLine e.line := by
  have hmark : Formatter.OneLine "0x" := by decide
  have hcolon : Formatter.OneLine ":\t" := by decide
  have htab : Formatter.OneLine "\t" := by decide
  have hempty : Formatter.OneLine "" := by decide
  have haddress : Formatter.OneLine (hexadecimal e.1.toNat) :=
    oneLine_of_digits (digits_of_hexadecimal _)
  have hword : Formatter.OneLine (paddedWord e.2) := oneLine_of_digits (digits_of_paddedWord e.2)
  unfold Entry.line formatDisassembly
  simp only [Formatter.oneLine_append_iff]
  refine ⟨⟨⟨⟨?_, hmark⟩, hword⟩, htab⟩, Formatter.oneLine_print _⟩
  split
  · simp only [Formatter.oneLine_append_iff]
    exact ⟨⟨hmark, haddress⟩, hcolon⟩
  · exact hempty

/-- A line starts with a hexadecimal number, which ends at a colon or a tabulator. -/
theorem parts_of_line (e : Entry) : ∃ cs rest, e.line.toList = '0' :: 'x' :: (cs ++ rest) ∧
    cs ≠ [] ∧ (∀ c ∈ cs, isDigitOf 16 c = true) ∧ (∀ c ∈ rest.head?, isDigitOf 16 c = false) ∧
    numeral 16 cs = e.number.toNat := by
  have hword : ("0x" ++ paddedWord e.2 ++ "\t" ++ Formatter.print ⟨e.2⟩).toList =
      '0' :: 'x' :: ((Nat.toDigits 16 e.2.toNat).leftpad 8 '0' ++
        '\t' :: (Formatter.print ⟨e.2⟩).toList) := by
    simp [paddedWord]
  by_cases haddress : e.1 = 0
  · refine ⟨_, '\t' :: (Formatter.print ⟨e.2⟩).toList, ?_, ?_, digits_of_paddedWord e.2, ?_, ?_⟩
    · refine Eq.trans ?_ hword
      unfold Entry.line formatDisassembly
      rw [if_neg (not_not.mpr haddress), String.empty_append]
    · intro hnil
      have hlength := congrArg List.length hnil
      rw [List.length_leftpad, List.length_nil] at hlength
      omega
    · rintro c hc
      cases hc
      decide
    · unfold Entry.number
      rw [numeral_leftpad, numeral_toDigits (by decide) (by decide), if_neg (not_not.mpr haddress),
        BitVec.toNat_setWidth, Nat.mod_eq_of_lt (by have := e.2.isLt; omega)]
  · refine ⟨Nat.toDigits 16 e.1.toNat, ':' :: '\t' ::
      ("0x" ++ paddedWord e.2 ++ "\t" ++ Formatter.print ⟨e.2⟩).toList, ?_,
      List.ne_nil_of_length_pos Nat.length_toDigits_pos, digits_of_hexadecimal _, ?_, ?_⟩
    · unfold Entry.line formatDisassembly
      rw [if_pos haddress]
      simp [hexadecimal]
    · rintro c hc
      cases hc
      decide
    · unfold Entry.number
      rw [numeral_toDigits (by decide) (by decide), if_pos haddress]

theorem parseInstruction_line (e : Entry) :
    parseInstruction e.line.toList = .ok (e.number.setWidth 32) := by
  obtain ⟨cs, rest, hline, hne, hdigits, hrest, hnumber⟩ := parts_of_line e
  unfold parseInstruction
  rw [hline, stoull_of_lt (scan_sixteen hne hdigits hrest) (hnumber ▸ e.number.isLt), hnumber,
    BitVec.ofNat_toNat, BitVec.setWidth_eq]
  rfl

namespace ELFFile

/-- Text that starts with a zero is no ELF file. -/
theorem load_of_zero {f : ELFFile} {rest : Text} (h : f.text = '0' :: rest) :
    ∃ what, f.load.value = .error (.invalidArgument what) := by
  obtain ⟨b, bs, hcontents, hzero, -⟩ := List.map_eq_cons_iff.mp h
  have hsize : f.programSize ≠ 0 := by
    unfold programSize
    rw [hcontents]
    exact Nat.succ_ne_zero _
  have hfield : f.fieldAt 0 1 = b := by
    have hbytes : f.bytesAt 0 1 = [b] := by
      change [f.contents.getD 0 0] = [b]
      rw [hcontents]
      rfl
    unfold fieldAt
    rw [hbytes]
    exact BitVec.eq_of_toNat_eq (Nat.mod_eq_of_lt b.isLt)
  have hbyte : f.fieldAt 0 1 ≠ (0x7f : BitVec 8) := by
    rw [hfield]
    rintro rfl
    exact absurd hzero (by decide)
  have hident : ((· == 0x7f) <$> f.e_ident 0).value = .ok false :=
    congrArg Except.ok (beq_eq_false_iff_ne.mpr hbyte)
  have hand : ∀ {a : Loader Bool} (b : Loader Bool), a.value = .ok false →
      (Loader.and a b).value = .ok false := fun b ha => Traced.value_bind_of_ok ha
  have helf : f.isELF.value = .ok false := hand _ hident
  unfold load
  rw [if_neg hsize, Traced.value_bind_of_ok (hand _ helf)]
  exact ⟨_, rfl⟩

end ELFFile

/-! ### Text files -/

/-- The words of the lines up to the first that is no number. -/
def words (lines : List Text) : List InstructionWord :=
  ((lines.map parseInstruction).takeWhile (·.isOk)).filterMap (·.toOption)

theorem disasmASCIIFile_eq (lines : List Text) :
    disasmASCIIFile lines = ⟨(words lines).map fun word => Entry.line (0, word),
      if ∀ line ∈ lines, (parseInstruction line).isOk = true then .success
      else .invalidArgument⟩ := by
  induction lines with
  | nil => rfl
  | cons line lines ih =>
    unfold disasmASCIIFile words
    rw [List.map_cons]
    cases hline : parseInstruction line with
    | error e =>
      rw [List.takeWhile_cons_of_neg Bool.false_ne_true, if_neg]
      · rfl
      · intro h
        have hok := h line List.mem_cons_self
        rw [hline] at hok
        cases hok
    | ok word =>
      have hall : (∀ l ∈ line :: lines, (parseInstruction l).isOk = true) ↔
          ∀ l ∈ lines, (parseInstruction l).isOk = true := by
        rw [List.forall_mem_cons, hline]
        exact and_iff_right rfl
      rw [List.takeWhile_cons_of_pos rfl]
      simp only [ih, hall]
      rfl

/-- Every line of a listing is a number. -/
theorem disasmASCIIFile_lines (entries : List Entry) :
    disasmASCIIFile (entries.map fun e => e.line.toList) =
      ⟨entries.map fun e => Entry.line (0, e.number.setWidth 32), .success⟩ := by
  induction entries with
  | nil => rfl
  | cons e entries ih =>
    rw [List.map_cons]
    unfold disasmASCIIFile
    rw [parseInstruction_line, ih]
    rfl

/-- A line of a listing as the argument. -/
theorem disasmSingle_line (e : Entry) :
    disasmSingle e.line.toList = ⟨[Entry.line (0, e.number.setWidth 32)], .success⟩ := by
  unfold disasmSingle
  rw [parseInstruction_line]
  rfl

namespace ELFFile

section

variable {f g : ELFFile} {resize : BitVec 64 → Bool}

theorem disasmFile_of_text {what : String} (h : f.load.value = .error (.invalidArgument what))
    (resize : BitVec 64 → Bool) :
    f.disasmFile resize = disasmASCIIFile (TextLines.getlines f.text) := by
  unfold disasmFile
  rw [Traced.bind_of_error h]

/-- Nothing is no text either: an empty file cannot be mapped. -/
theorem disasmFile_of_empty (h : f.text = []) (resize : BitVec 64 → Bool) :
    f.disasmFile resize = ⟨[], .initializationError⟩ := by
  have hsize : f.programSize = 0 := List.length_eq_zero_iff.mpr (List.map_eq_nil_iff.mp h)
  have hload : f.load.value = .error (.runtimeError "Failed to setup memory map.") := by
    unfold load
    rw [if_pos hsize]
    rfl
  unfold disasmFile
  rw [Traced.bind_of_error hload]

/-- A listing is text, and its lines are those that were printed. -/
theorem disasmFile_of_listing {entries : List Entry} (hne : entries ≠ [])
    (hg : g.text = TextLines.join ((entries.map Entry.line).map String.toList))
    (resize : BitVec 64 → Bool) : g.disasmFile resize =
      ⟨entries.map fun e => Entry.line (0, e.number.setWidth 32), .success⟩ := by
  have hlines : TextLines.getlines g.text = entries.map fun e => e.line.toList := by
    rw [hg, List.map_map, TextLines.getlines_join]
    · rfl
    · intro line hline
      obtain ⟨e, -, rfl⟩ := List.mem_map.mp hline
      exact oneLine_line e
  obtain ⟨what, hload⟩ : ∃ what, g.load.value = .error (.invalidArgument what) := by
    obtain ⟨e, entries, rfl⟩ := List.exists_cons_of_ne_nil hne
    obtain ⟨cs, rest, hline, -⟩ := parts_of_line e
    have htext : g.text = '0' :: ('x' :: (cs ++ rest) ++ '\n' :: TextLines.join
        ((entries.map Entry.line).map String.toList)) := by
      rw [hg]
      simp [TextLines.join, hline]
    exact load_of_zero htext
  rw [disasmFile_of_text hload, hlines, disasmASCIIFile_lines]

/-- What is printed for a text file is the listing of its words, and disassembling it
again prints it again. What is printed for an ELF file has addresses, and disassembling
it lists these as if they were words. -/
theorem disasmFile_again (hg : g.text =
      TextLines.join ((f.disasmFile resize).lines.map String.toList))
    (resize' : BitVec 64 → Bool) :
    ((∃ what, f.load.value = .error (.invalidArgument what)) →
      (f.disasmFile resize).lines =
          (words (TextLines.getlines f.text)).map (fun word => Entry.line (0, word)) ∧
        ((f.disasmFile resize).lines ≠ [] →
          g.disasmFile resize' = ⟨(f.disasmFile resize).lines, .success⟩)) ∧
    (f.CodePlaced → f.Resizes resize → ∃ s ∈ f.textSections,
      (f.disasmFile resize).lines = (f.codeWords s).map Entry.line ∧
        ((f.disasmFile resize).lines ≠ [] → g.disasmFile resize' =
          ⟨(f.codeWords s).map fun e => Entry.line (0, (Entry.number e).setWidth 32), .success⟩)) ∧
    ((f.disasmFile resize).lines = [] → g.disasmFile resize' = ⟨[], .initializationError⟩) := by
  have hagain : ∀ entries : List Entry, (f.disasmFile resize).lines = entries.map Entry.line →
      (f.disasmFile resize).lines ≠ [] → g.disasmFile resize' =
        ⟨entries.map fun e => Entry.line (0, e.number.setWidth 32), .success⟩ := by
    intro entries hlines hne
    refine disasmFile_of_listing (fun hnil => hne ?_) (hlines ▸ hg) resize'
    rw [hlines, hnil, List.map_nil]
  refine ⟨?_, fun hplaced hresize => ?_, fun hnil => ?_⟩
  · rintro ⟨what, hload⟩
    have hlines : (f.disasmFile resize).lines =
        (words (TextLines.getlines f.text)).map (fun word => Entry.line (0, word)) := by
      rw [disasmFile_of_text hload, disasmASCIIFile_eq]
    let entries : List Entry := (words (TextLines.getlines f.text)).map fun word => (0, word)
    have hentries : (f.disasmFile resize).lines = entries.map Entry.line := by
      rw [hlines, List.map_map]
      rfl
    have hnumber : ∀ word : InstructionWord, (Entry.number (0, word)).setWidth 32 = word := by
      intro word
      unfold Entry.number
      rw [if_neg (not_not.mpr rfl), BitVec.setWidth_setWidth_of_le word (by decide),
        BitVec.setWidth_eq]
    refine ⟨hlines, fun hne => ?_⟩
    rw [hagain _ hentries hne, hlines, List.map_map]
    simp only [Function.comp_def, hnumber]
  · obtain ⟨s, listing, hlast, hvalue, hlisting⟩ := listing_of_last hplaced hresize
    have hlines : (f.disasmFile resize).lines = (f.codeWords s).map Entry.line := by
      unfold disasmFile Listing.lines
      rw [Traced.value_bind_of_ok hplaced.accepted, hvalue]
      dsimp only
      rw [hlisting]
      rfl
    exact ⟨s, List.mem_of_getLast? hlast, hlines, hagain _ hlines⟩
  · refine disasmFile_of_empty ?_ resize'
    rw [hg, hnil]
    rfl

end

def ofText (text : Text) (h : text.length < 2 ^ 63) : ELFFile where
  contents := text.map fun c => BitVec.ofNat 8 c.toNat
  contents_lt := (List.length_map _).symm ▸ h

/-- An instruction, something else, and another instruction, which is not reached. -/
def numbersFile : ELFFile := ofText "13\n\n13\n".toList (by decide)

def numbersListing : ELFFile := ofText "0x00000013\taddi r0, r0, $0\n".toList (by decide)

theorem disasmFile_again_numbers : numbersListing.disasmFile (fun _ => true) =
    ⟨["0x00000013\taddi r0, r0, $0"], .success⟩ := by
  have hlines : (numbersFile.disasmFile fun _ => true).lines =
      ["0x00000013\taddi r0, r0, $0"] := by decide +kernel
  have hload : numbersFile.load.value =
      .error (.invalidArgument "File is not a RISC-V ELF file.") := by decide +kernel
  have hg : numbersListing.text = TextLines.join
      ((numbersFile.disasmFile fun _ => true).lines.map String.toList) := by
    rw [hlines]
    decide +kernel
  rw [← hlines]
  refine ((disasmFile_again hg fun _ => true).1 ⟨_, hload⟩).2 ?_
  rw [hlines]
  exact List.cons_ne_nil _ _

end ELFFile

end Rv64Emu
