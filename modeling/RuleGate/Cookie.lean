import RuleGate.Text.Blank
import RuleGate.Text.Split

/-!
# Cookies

The name and value pairs of `Cookie` request headers. Reading skips pairs without `=` or without a
name, trims both parts and drops one pair of double quotes around a value.
-/

namespace RuleGate

structure Cookie where
  name : String
  value : String
deriving DecidableEq, Repr

namespace Cookie

/-- Drops the quotes of a value that starts and ends with one. -/
def unquote (s : List Char) : List Char :=
  match s with
  | '"' :: r => if r.getLast? = some '"' then r.dropLast else s
  | _ => s

def parsePair? (s : List Char) : Option Cookie := do
  let (name, value) ← Text.cut? '=' (Text.trim s)
  let name := Text.trim name
  if name.isEmpty then none
  else some ⟨String.ofList name, String.ofList (unquote (Text.trim value))⟩

/-- The cookies of one header line. -/
def parseLine (line : String) : List Cookie := (Text.splitOn ';' line.toList).filterMap parsePair?

/-- The cookies of all header lines, in order. -/
def parseAll (lines : List String) : List Cookie := lines.flatMap parseLine

def encodeAll (cookies : List Cookie) : String :=
  String.ofList (Text.join [';', ' '] (cookies.map fun c => c.name.toList ++ '=' :: c.value.toList))

/-- Writes the value into the first cookie with the name, or appends a cookie. -/
def set (name value : String) : List Cookie → List Cookie
  | [] => [⟨name, value⟩]
  | c :: r => if c.name = name then ⟨c.name, value⟩ :: r else c :: set name value r

/-- Drops the first cookie with the name. -/
def eraseFirst (name : String) : List Cookie → List Cookie
  | [] => []
  | c :: r => if c.name = name then r else c :: eraseFirst name r

end Cookie

end RuleGate
