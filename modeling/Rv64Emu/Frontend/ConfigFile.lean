import Rv64Emu.Library.Regex
import Rv64Emu.Library.SortedMap
import Rv64Emu.Library.CStrings
import Mathlib.Data.Char
import Mathlib.Data.List.Lex
import Mathlib.Data.Prod.Lex

/-! The configuration file parser. A file is the sequence of its lines; a string
is a list of characters. -/
namespace Rv64Emu

/-- `std::string`, a character for each byte. -/
abbrev Text := List Char

/-- What the parser and its clients throw. -/
inductive ConfigError where
  | runtimeError (what : Text)
  | outOfRange (what : Text)
  | conversion (error : CStrings.ConversionError)
  deriving DecidableEq, Repr

/-- `[a-zA-Z]` -/
def isLetter (c : Char) : Bool := ('a' ≤ c && c ≤ 'z') || ('A' ≤ c && c ≤ 'Z')

/-- `[0-9]` -/
def isNumber (c : Char) : Bool := '0' ≤ c && c ≤ '9'

abbrev KeyValue := Text × Text

/-- A section name and a key, ordered like `std::pair`. -/
abbrev PropertyName := Text ×ₗ Text

abbrev PropertyMap := SortedMap PropertyName Text

structure ConfigFile where
  properties : PropertyMap := .empty
  sections : List Text := []

namespace ConfigFile

/-- All key-value pairs not designated to a section are placed in this one. -/
def globalSectionName : Text := ['_', '_', 'G', 'L', 'O', 'B', 'A', 'L']

/-- `\[([a-zA-Z0-9]+)\]\s*` -/
def sectionRegex : Regex Char :=
  .seq (.single (· == '[')) <|
  .seq (.group 1 (.repeated (fun c => isLetter c || isNumber c) 1 none)) <|
  .seq (.single (· == ']')) (.repeated CStrings.isSpace 0 none)

/-- `([a-zA-Z]\S*)\s*=\s*(\S+)` -/
def keyValueRegex : Regex Char :=
  .seq (.group 1 (.seq (.single isLetter) (.repeated (!CStrings.isSpace ·) 0 none))) <|
  .seq (.repeated CStrings.isSpace 0 none) <|
  .seq (.single (· == '=')) <|
  .seq (.repeated CStrings.isSpace 0 none)
    (.group 2 (.repeated (!CStrings.isSpace ·) 1 none))

/-- `^\s*$`; in a match of the whole line the anchors hold anyway. -/
def emptyLineRegex : Regex Char := .repeated CStrings.isSpace 0 none

variable (config : ConfigFile)

def hasSection (sectionName : Text) : Bool := config.sections.contains sectionName

def getSections : List Text := config.sections

def hasProperty (sectionName keyName : Text) : Bool :=
  config.properties.entries.any fun kvp =>
    (ofLex kvp.1).1 == sectionName && (ofLex kvp.1).2 == keyName

def getProperties (sectionName : Text) : List KeyValue :=
  config.properties.entries.filterMap fun kvp =>
    if (ofLex kvp.1).1 = sectionName then some ((ofLex kvp.1).2, kvp.2) else none

def addSection (sectionName : Text) : ConfigFile :=
  { config with sections := config.sections ++ [sectionName] }

def addProperty (propertyName : PropertyName) (value : Text) : ConfigFile :=
  { config with properties := config.properties.emplace propertyName value }

end ConfigFile

/-- The variables of `load` between two lines, and what was written to `cerr`. -/
structure LoadState where
  config : ConfigFile
  currentSection : Text
  lineNumber : Nat := 0
  warnings : List Text := []

namespace ConfigFile

/-- `std::to_string` -/
def decimal (n : Nat) : Text := Nat.toDigits 10 n

def lineMessage (filename : Text) (lineNumber : Nat) (what : Text) : Text :=
  filename ++ ": line ".toList ++ decimal lineNumber ++ ": duplicate definition of ".toList ++ what

def duplicateSection (filename : Text) (lineNumber : Nat) (name : Text) : ConfigError :=
  .runtimeError (lineMessage filename lineNumber ("section '".toList ++ name ++ ['\'']))

def duplicateProperty (filename : Text) (lineNumber : Nat) (key : Text) : ConfigError :=
  .runtimeError (lineMessage filename lineNumber (['\''] ++ key ++ ['\'']))

def warning (filename : Text) (lineNumber : Nat) : Text :=
  "warning: ".toList ++ filename ++ ": cannot parse line ".toList ++ decimal lineNumber ++
    ", ignoring.".toList

/-- Remove newline characters from the line. -/
def eraseNewlines (line : Text) : Text := (line.filter (· != '\n')).filter (· != '\r')

/-- The body of the loop in `load`. -/
def loadLine (filename : Text) (s : LoadState) (line : Text) : Except ConfigError LoadState :=
  let lineNumber := s.lineNumber + 1
  let line := eraseNewlines line
  match sectionRegex.fullMatch line with
  | some found =>
    if s.config.hasSection (found.capture 1) then
      .error (duplicateSection filename lineNumber (found.capture 1))
    else
      .ok { s with
        config := s.config.addSection (found.capture 1)
        currentSection := found.capture 1
        lineNumber := lineNumber }
  | none =>
    match keyValueRegex.fullMatch line with
    | some found =>
      if s.config.hasProperty s.currentSection (found.capture 1) then
        .error (duplicateProperty filename lineNumber (found.capture 1))
      else
        .ok { s with
          config := s.config.addProperty (toLex (s.currentSection, found.capture 1))
            (found.capture 2)
          lineNumber := lineNumber }
    | none =>
      if (emptyLineRegex.fullMatch line).isSome then .ok { s with lineNumber := lineNumber }
      else
        .ok { s with
          lineNumber := lineNumber
          warnings := s.warnings ++ [warning filename lineNumber] }

/-- The global section comes first. -/
def start : LoadState :=
  { config := { sections := [globalSectionName] }
    currentSection := globalSectionName }

/-- `load`; there are no lines if the file cannot be opened. -/
def load (filename : Text) (lines : Option (List Text)) : Except ConfigError LoadState :=
  match lines with
  | none => .error (.runtimeError ("cannot open file ".toList ++ filename))
  | some lines => lines.foldlM (loadLine filename) start

end ConfigFile

end Rv64Emu
