import RuleGate.Error
import RuleGate.Text.Blank
import RuleGate.Text.Split

/-!
# Directive lines

One line of the rule language is a subject and its arguments, separated by blanks. Three quote
characters open a quoted word outside of other quotes and of round brackets. Escapes are decoded
everywhere, unknown ones stay as they are, `$$` is a dollar, and a reference such as `$` followed by a
name in braces inserts the value of an environment variable without reading it again.

The scanner reads one character at a time; `step` is its transition and `finish` what the end of the
line does.
-/

namespace RuleGate

/-- The values of environment variables. -/
abbrev Environment := String → Option String

namespace Environment

/-- The prefix under which the gateway's own variables are found by their short names. -/
def ownPrefix : String := "WAYPOINT_"

/-- The variable of the name, or the gateway's own variable of the short name. -/
def resolve (env : Environment) (name : String) : Option String :=
  (env name).or (env (ownPrefix ++ name))

end Environment

/-- A line split into its first word and the others. -/
structure Directive where
  subject : String
  args : List String
deriving DecidableEq, Repr

namespace Directive

def isQuote (c : Char) : Bool := c == '"' || c == '\'' || c == '\x60'

/-- What the character after a backslash stands for; an unknown escape keeps its backslash. -/
def unescape (c : Char) : List Char :=
  if c = 'n' then ['\n']
  else if c = 't' then ['\t']
  else if c = 'r' then ['\r']
  else if c = '\'' ∨ c = '"' ∨ c = '\\' ∨ c = ' ' then [c]
  else ['\\', c]

/-- The scanner between two characters. Words, names and the current word are kept in reverse. -/
structure Scanner where
  /-- The last character was a backslash. -/
  escaped : Bool
  /-- The last character was a dollar that has not been written yet. -/
  dollar : Bool
  /-- The quote that closes the current quoted word. -/
  quote : Option Char
  /-- Open round brackets. -/
  depth : Nat
  /-- The name read so far of a reference that is open. -/
  name : Option (List Char)
  word : List Char
  words : List String
  missing : List String

namespace Scanner

def start : Scanner := ⟨false, false, none, 0, none, [], [], []⟩

def push (s : Scanner) (c : Char) : Scanner := { s with word := c :: s.word }

/-- Appends a text to the current word. -/
def append (s : Scanner) (t : List Char) : Scanner := { s with word := t.reverse ++ s.word }

/-- Ends a bare word: leading blanks are dropped, and so is a word of blanks only. -/
def endWord (s : Scanner) : Scanner :=
  let w := Text.trimStart s.word.reverse
  { s with word := [], words := if w.isEmpty then s.words else String.ofList w :: s.words }

/-- Ends a quoted word, which is kept as it is. -/
def endQuoted (s : Scanner) : Scanner :=
  { s with word := [], words := String.ofList s.word.reverse :: s.words }

/-- A quote character outside of an escape. -/
def stepQuote (s : Scanner) (c : Char) : Scanner :=
  match s.quote with
  | none => if s.depth = 0 then { s.endWord with quote := some c } else s.push c
  | some q => if q = c then { s.endQuoted with quote := none } else s.push c

/-- A closing brace while a reference is open. -/
def endReference (env : Environment) (s : Scanner) (name : List Char) : Scanner :=
  let name := String.ofList name.reverse
  match env.resolve name with
  | some value => { s.append value.toList with name := none }
  | none => { s with name := none, missing := name :: s.missing }

/-- A character that is neither escaped nor a quote. -/
def stepPlain (env : Environment) (s : Scanner) (c : Char) : Compiled Scanner :=
  if c = '\\' then .ok { s with escaped := true }
  else if c = '$' then
    .ok (if s.dollar then { s.push '$' with dollar := false } else { s with dollar := true })
  else if c = '{' ∧ s.dollar then .ok { s with name := some [], dollar := false }
  else if c = '(' then .ok { s.push c with depth := s.depth + 1 }
  else if c = ')' then
    if s.depth = 0 then .error .unterminatedBrackets
    else .ok { s.push c with depth := s.depth - 1 }
  else
    match s.name with
    | some name =>
      if c = '}' then .ok (endReference env s name)
      else if (c = ' ' ∨ c = '\t') ∧ s.quote = none then .ok s.endWord
      else .ok { s with name := some (c :: name) }
    | none =>
      if (c = ' ' ∨ c = '\t') ∧ s.quote = none then .ok s.endWord else .ok (s.push c)

/-- Reads one character. -/
def step (env : Environment) (s : Scanner) (c : Char) : Compiled Scanner :=
  if s.escaped then .ok { s.append (unescape c) with escaped := false }
  else
    let s := if s.dollar ∧ c ≠ '{' ∧ c ≠ '$' then { s.push '$' with dollar := false } else s
    if isQuote c then .ok (s.stepQuote c) else s.stepPlain env c

/-- The error of a line that ends here, if what is open has to be closed. -/
def openError? (s : Scanner) : Option RuleError :=
  if s.quote.isSome then some .unterminatedQuotes
  else if s.depth ≠ 0 then some .unterminatedBrackets
  else if s.name.isSome then some .unterminatedVariable
  else none

/-- The names of references that resolved to nothing, as an error. -/
def missingError? (s : Scanner) : Option RuleError :=
  if s.missing.isEmpty then none else some (.variablesNotFound s.missing.reverse)

/-- The end of the line. -/
def finish (s : Scanner) : Compiled Directive :=
  let s := if s.dollar then s.push '$' else s
  match RuleError.join (s.openError?.toList ++ s.missingError?.toList) with
  | some e => .error e
  | none =>
    match s.endWord.words.reverse with
    | [] => .ok ⟨"", []⟩
    | subject :: args => .ok ⟨subject, args⟩

end Scanner

/-- Splits a line into its subject and arguments. -/
def parse (env : Environment) (line : String) : Compiled Directive := do
  (← line.toList.foldlM (Scanner.step env) Scanner.start).finish

/-- The lines of a block that are not blank, trimmed, each with its index. -/
def blockLines (block : String) : List (Nat × String) :=
  ((Text.lines block.toList).zipIdx.map fun (line, i) => (i, Text.trim line)).filterMap
    fun (i, line) => if line.isEmpty then none else some (i, String.ofList line)

end Directive

end RuleGate
