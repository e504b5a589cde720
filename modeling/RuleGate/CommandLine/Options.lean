import RuleGate.Text.Split

/-!
# Command lines

Options with long and short names, which are flags or take a value, and operands. A value follows its
option as the next word or in the same word. Short flags may share a word, two dashes end the options,
and no option is given twice. A request for help or for the version counts as soon as it is read.
-/

namespace RuleGate.CommandLine

structure OptionSpec where
  long : String
  short : Option Char
  takesValue : Bool
deriving DecidableEq, Repr

/-- What is wrong with a command line. -/
inductive Misuse where
  | unexpected (word : String)
  | missingValue (option : String)
  | unneededValue (option : String)
  | repeated (option : String)
  | conflict (option operand : String)
  | missingOperand (name : String)
deriving DecidableEq, Repr

namespace Misuse

def message : Misuse → String
  | unexpected word => "error: unexpected argument '" ++ word ++ "' found\n"
  | missingValue option => "error: a value is required for '" ++ option ++ "' but none was supplied\n"
  | unneededValue option => "error: unexpected value for '" ++ option ++ "' found; no more were expected\n"
  | repeated option => "error: the argument '" ++ option ++ "' cannot be used multiple times\n"
  | conflict option operand =>
    "error: the argument '" ++ option ++ "' cannot be used with '" ++ operand ++ "'\n"
  | missingOperand name =>
    "error: the following required arguments were not provided:\n  " ++ name ++ "\n"

end Misuse

/-- Why reading a command line ends before the program runs. -/
inductive Stop where
  | help
  | version
  | misuse (m : Misuse)
deriving DecidableEq, Repr

/-- What a command line gives: the options by long name, flags with an empty value, and operands. -/
structure Given where
  options : List (String × String)
  operands : List String
deriving DecidableEq, Repr

namespace Given

def empty : Given := ⟨[], []⟩

def value? (name : String) (g : Given) : Option String := g.options.lookup name

def has (name : String) (g : Given) : Bool := (g.value? name).isSome

/-- Notes an option, unless it is there already. -/
def addOption (o : OptionSpec) (value : String) (g : Given) : Except Stop Given :=
  if g.has o.long then .error (.misuse (.repeated ("--" ++ o.long)))
  else .ok { g with options := g.options ++ [(o.long, value)] }

def addOperand (limit : Nat) (word : String) (g : Given) : Except Stop Given :=
  if g.operands.length < limit then .ok { g with operands := g.operands ++ [word] }
  else .error (.misuse (.unexpected word))

end Given

/-- The options a program knows, and how many operands it takes at most. -/
structure Grammar where
  options : List OptionSpec
  operands : Nat

/-- The options read so far, and an option that still wants its value. -/
abbrev Reading := Given × Option OptionSpec

namespace Grammar

def ofLong? (g : Grammar) (name : String) : Option OptionSpec := g.options.find? fun o => o.long == name

def ofShort? (g : Grammar) (c : Char) : Option OptionSpec := g.options.find? fun o => o.short == some c

/-- A word that starts with two dashes. -/
def readLong (g : Grammar) (given : Given) (word : List Char) : Except Stop Reading :=
  let (name, value) := match Text.cut? '=' word with
    | some (name, value) => (String.ofList name, some (String.ofList value))
    | none => (String.ofList word, none)
  if name = "help" ∧ value.isNone then .error .help
  else if name = "version" ∧ value.isNone then .error .version
  else
    match g.ofLong? name, value with
    | none, _ => .error (.misuse (.unexpected ("--" ++ name)))
    | some o, some v =>
      if o.takesValue then do return (← given.addOption o v, none)
      else .error (.misuse (.unneededValue ("--" ++ name)))
    | some o, none =>
      if o.takesValue then .ok (given, some o) else do return (← given.addOption o "", none)

/-- The letters of a word that starts with one dash. -/
def readShort (g : Grammar) (given : Given) : List Char → Except Stop Reading
  | [] => .ok (given, none)
  | c :: r =>
    match g.ofShort? c with
    | some o =>
      if o.takesValue then
        match r with
        | [] => .ok (given, some o)
        | '=' :: value => do return (← given.addOption o (String.ofList value), none)
        | value => do return (← given.addOption o (String.ofList value), none)
      else do readShort g (← given.addOption o "") r
    | none =>
      if c = 'h' then .error .help
      else if c = 'V' then .error .version
      else .error (.misuse (.unexpected ("-" ++ String.ofList [c])))

/-- The error if an option still wants its value. -/
def settle : Option OptionSpec → Except Stop Unit
  | some o => .error (.misuse (.missingValue ("--" ++ o.long)))
  | none => .ok ()

/-- Reads words behind those read so far. -/
def readFrom (g : Grammar) (given : Given) (pending : Option OptionSpec) :
    List String → Except Stop Given
  | [] => do
    settle pending
    return given
  | word :: r =>
    match word.toList with
    | ['-', '-'] => do
      settle pending
      r.foldlM (fun given word => given.addOperand g.operands word) given
    | '-' :: '-' :: name => do
      settle pending
      let (given, pending) ← g.readLong given name
      readFrom g given pending r
    | '-' :: c :: letters => do
      settle pending
      let (given, pending) ← g.readShort given (c :: letters)
      readFrom g given pending r
    | _ =>
      match pending with
      | some o => do readFrom g (← given.addOption o word) none r
      | none => do readFrom g (← given.addOperand g.operands word) none r

def read (g : Grammar) (words : List String) : Except Stop Given := g.readFrom .empty none words

end Grammar

/-- How a program ended: its exit code, and what it wrote to its two streams. -/
structure ExitReport where
  code : Nat
  out : String
  err : String
deriving DecidableEq, Repr

namespace ExitReport

def success (out : String) : ExitReport := ⟨0, out, ""⟩

/-- The end of a program that did not get to run. -/
def ofStop (help version : String) : Stop → ExitReport
  | .help => success help
  | .version => success version
  | .misuse m => ⟨2, "", m.message⟩

end ExitReport

end RuleGate.CommandLine
