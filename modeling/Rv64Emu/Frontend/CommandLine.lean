import Rv64Emu.Frontend.Launcher

/-! The command line, as the Windows port reads it: elsewhere `getopt` is that of the
C library. Numbers are those of an `unsigned long` of 64 bits, which that port does
not have. -/
namespace Rv64Emu.CommandLine

open Launcher

/-- The variables of `getopt`; `next` is what is left of a word, or null. -/
structure Getopt where
  optarg : Option Text := none
  optind : Nat := 0
  next : Option Text := none

/-- The first occurrence of a character, and what is behind it. -/
def strchr (string : Text) (c : Char) : Option Text :=
  match string with
  | [] => none
  | d :: string => if d = c then some (d :: string) else strchr string c

namespace Getopt

/-- The letter `c` has been taken off `next`. -/
def letter (argv : List Text) (optstring : Text) (g : Getopt) (c : Char) (next : Text) :
    Option Char × Getopt :=
  match strchr optstring c with
  | none => (some '?', { g with next := some next })
  | some cp =>
    if c = ':' then (some '?', { g with next := some next })
    else if (cp.drop 1).head? = some ':' then
      if next ≠ [] then (some c, { g with optarg := some next, next := none })
      else match argv[g.optind]? with
        | some arg => (some c, { optarg := some arg, optind := g.optind + 1, next := some next })
        | none => (some '?', { g with next := some next })
    else (some c, { g with next := some next })

/-- Nothing is left of a word. -/
def word (argv : List Text) (optstring : Text) (g : Getopt) : Option Char × Getopt :=
  match argv[g.optind]? with
  | none => (none, g)
  | some arg =>
    match arg with
    | '-' :: c :: next =>
      if c = '-' ∧ next = [] then
        (none, { g with optarg := argv[g.optind + 1]?, optind := g.optind + 1 })
      else letter argv optstring { g with optind := g.optind + 1 } c next
    | arg => (none, { g with optarg := some arg })

end Getopt

/-- The next option letter, or none at the end of the options. -/
def getopt (argv : List Text) (optstring : Text) (g : Getopt) : Option Char × Getopt :=
  let next := if g.optind = 0 then none else g.next
  match next with
  | some (c :: next) => Getopt.letter argv optstring { g with optarg := none } c next
  | _ => Getopt.word argv optstring
    { optarg := none, optind := if g.optind = 0 then 1 else g.optind, next := next }

def optstring : Text := "dpr:t:x:X:h".toList

/-- The variables of `main`. -/
@[ext] structure Settings where
  pipelining : Bool := false
  debugMode : Bool := false
  initializers : List RegisterInit := []
  testFilename : Option Text := none
  disasmArg : Option Text := none
  disasmAsFile : Bool := false

/-- What `main` comes to: an exit code, with the messages before it, or a call. -/
inductive Command where
  | exit (message : Text) (code : Launcher.ExitCodes)
  | disasmFile (disasmArg : Text)
  | disasmSingle (disasmArg : Text)
  | launcher (testFilename execFilename : Option Text) (pipelining debugMode : Bool)
      (initializers : List RegisterInit)
  deriving DecidableEq

def showHelp (progName : Text) : Text :=
  "Usage:\n".toList ++ progName ++ " [-d] [-p] [-r REGINIT] <programFilename>\n".toList ++
    "    or\n".toList ++ progName ++ " [-d] [-p] -t <testFilename>\n".toList ++
    "    or\n".toList ++ progName ++ " -x <instruction>\n".toList ++
    "    or\n".toList ++ progName ++ " -X <filename>\n".toList ++
    ("\n    -d, enables debug mode in which every decoded instruction is printed\n" ++
      "        to the terminal.\n" ++
      "    -p, enables pipelining. When omitted, the emulator runs in non-pipelined\n" ++
      "        mode.\n" ++
      "    -r, specifies a register initializer REGINIT, in the form\n" ++
      "        rX=Y with X a register number and Y the initializer value.\n" ++
      "    -t, enables unit test mode, with testFilename a unit test\n" ++
      "        configuration file.\n" ++
      "    -x, disassembles (decodes) a single instruction specified as\n" ++
      "        hexadecimal argument.\n" ++
      "    -X, disassembles 'filename' which is either an ELF file (in which case\n" ++
      "        the text segment is disassembled) or an ASCII file with hexadecimal\n" ++
      "        numbers.\n").toList

def help (progName : Text) : Command := .exit (showHelp progName) .helpDisplayed

namespace Settings

/-- The two cases of `-x` and `-X`. -/
def disassemble (asFile : Bool) (optarg : Text) (s : Settings) : Except Command Settings :=
  if s.disasmArg.isSome then
    .error (.exit "Error: cannot specify -x or -X more than once.\n".toList .initializationError)
  else .ok { s with disasmArg := some optarg, disasmAsFile := asFile }

/-- The switch in `main`. Where it reads `optarg` the letter takes an argument. -/
def option (progName : Text) (c : Char) (optarg : Text) (s : Settings) : Except Command Settings :=
  if c = 'd' then .ok { s with debugMode := true }
  else if c = 'p' then .ok { s with pipelining := true }
  else if c = 'r' then
    if s.testFilename.isSome then
      .error (.exit ("Error: Cannot set unit test and individual " ++
        "registers at the same time.\n").toList .invalidArgument)
    else match RegisterInit.ofString optarg with
      | .ok init => .ok { s with initializers := s.initializers ++ [init] }
      | .error _ => .error (.exit ("Error: Malformed register initialization specifier ".toList ++
          optarg ++ ['\n']) .invalidArgument)
  else if c = 't' then
    if s.testFilename.isSome then
      .error (.exit "Error: Cannot specify testfile more than once.\n".toList .invalidArgument)
    else .ok { s with testFilename := some optarg }
  else if c = 'x' then s.disassemble false optarg
  else if c = 'X' then s.disassemble true optarg
  else .error (help progName)

/-- What follows the options; `argv` is what they have left. -/
def command (progName : Text) (argv : List Text) (s : Settings) : Command :=
  match s.disasmArg with
  | some disasmArg => if s.disasmAsFile then .disasmFile disasmArg else .disasmSingle disasmArg
  | none =>
    if s.testFilename.isNone ∧ argv.length < 1 then
      .exit ("Error: No executable specified.\n\n".toList ++ showHelp progName) .invalidArgument
    else .launcher s.testFilename argv.head? s.pipelining s.debugMode s.initializers

end Settings

/-- The loop over the options, for at most `fuel` of them. -/
def options (argv : List Text) (progName : Text) :
    Nat → Getopt → Settings → Option (Except Command (Getopt × Settings))
  | 0, _, _ => none
  | fuel + 1, g, s =>
    match getopt argv optstring g with
    | (none, g) => some (.ok (g, s))
    | (some c, g) =>
      match s.option progName c (g.optarg.getD []) with
      | .error command => some (.error command)
      | .ok s => options argv progName fuel g s

/-- What follows the loop. -/
def conclude (argv : List Text) (progName : Text) : Except Command (Getopt × Settings) → Command
  | .error command => command
  | .ok (g, s) => s.command progName (argv.drop g.optind)

def main (argv : List Text) (fuel : Nat) : Option Command :=
  let progName := argv.headD []
  (options argv progName fuel {} {}).map (conclude argv progName)

end Rv64Emu.CommandLine
