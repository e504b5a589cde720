import RuleGate.Directive
import RuleGate.Pattern.Glob
import RuleGate.Pattern.Regex

/-!
# Matchers

Predicates on texts as conditions write them: `string(…)`, `glob(…)` and `regex(…)`, a bare text whose
type the context decides, and a leading `!` that negates.
-/

namespace RuleGate

inductive MatcherType where
  | string
  | glob
  | regex
deriving DecidableEq, Repr

namespace MatcherType

def name : MatcherType → String
  | string => "string"
  | glob => "glob"
  | regex => "regex"

/-- Reads a type's name in any letter case. -/
def parse (s : List Char) : Compiled MatcherType :=
  let lower := Text.toAsciiLower s
  if lower = "string".toList then .ok string
  else if lower = "glob".toList then .ok glob
  else if lower = "regex".toList then .ok regex
  else .error (.invalidArguments ("invalid matcher type: " ++ String.ofList lower))

end MatcherType

/-- What a matcher compares with. -/
inductive MatcherKind where
  | exact (text : String)
  | glob (pattern : Pattern UInt8)
  | regex (pattern : Pattern Char)

structure Matcher where
  kind : MatcherKind
  negated : Bool

namespace Matcher

/-- Drops the quotes around an expression that starts with one. -/
def unquote (s : List Char) : Compiled (List Char) :=
  match s with
  | [] => .ok []
  | q :: r =>
    if Directive.isQuote q then
      if r.getLast? = some q then .ok r.dropLast else .error .unterminatedQuotes
    else .ok s

/-- Splits `type(body)` at the first opening and the last closing bracket. A text without an opening
bracket has no type. -/
def splitTyped (s : List Char) : Compiled (Option MatcherType × List Char) :=
  match Text.cut? '(' s with
  | none => .ok (none, s)
  | some (name, rest) =>
    match Text.cutLast? ')' rest with
    | none => .error .unterminatedBrackets
    | some (body, _) => do
      let body ← unquote body
      return (some (← MatcherType.parse name), body)

/-- What is said of an expression that `regex` does not accept. -/
def regexMessage (s : String) : String := "regex parse error:\n    " ++ s ++ "\nerror: malformed"

def compileKind (type : MatcherType) (s : String) : Compiled MatcherKind :=
  match type with
  | .string => .ok (.exact s)
  | .glob =>
    match Glob.compile s with
    | .ok p => .ok (.glob p)
    | .error e => .error (.invalidArguments (e.message s))
  | .regex =>
    match Regex.compile? s with
    | some p => .ok (.regex p)
    | none => .error (.invalidArguments (regexMessage s))

def compile (type : MatcherType) (s : String) (negated : Bool) : Compiled Matcher := do
  return ⟨← compileKind type s, negated⟩

/-- Compiles an expression; a bare text has the given type. -/
def parseWithDefault (type : MatcherType) (s : List Char) : Compiled Matcher := do
  let (negated, s) := match s with
    | '!' :: r => (true, r)
    | _ => (false, s)
  let (typed, body) ← splitTyped s
  compile (typed.getD type) (String.ofList body) negated

/-- Compiles an expression; a bare text is compared exactly. -/
def parse (s : String) : Compiled Matcher := parseWithDefault .string s.toList

def type (m : Matcher) : MatcherType :=
  match m.kind with
  | .exact _ => .string
  | .glob _ => .glob
  | .regex _ => .regex

/-- Whether the text matches, negation aside. -/
def MatcherKind.accepts : MatcherKind → String → Bool
  | .exact t, s => t == s
  | .glob p, s => Glob.isMatch p s
  | .regex p, s => Regex.isMatch p s

def test (m : Matcher) (s : String) : Bool := MatcherKind.accepts m.kind s != m.negated

end Matcher

end RuleGate
