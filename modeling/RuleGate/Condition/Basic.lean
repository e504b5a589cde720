import RuleGate.Condition.Check
import RuleGate.Directive

/-!
# Conditions

A condition is a conjunction of clauses, one a line or separated by `&`; a clause is a disjunction of
checks separated by `|`; a `!` in front of a check negates it. The text is cut at the separators before
quotes are looked at.
-/

namespace RuleGate

/-- A boolean formula over checks. -/
inductive Formula where
  | check (c : Check)
  | negated (f : Formula)
  | anyOf (fs : List Formula)
  | allOf (fs : List Formula)

namespace Formula

mutual

def holds (x : Exchange) : Formula → Bool
  | check c => c.test x
  | negated f => !holds x f
  | anyOf fs => holdsAny x fs
  | allOf fs => holdsAll x fs

def holdsAny (x : Exchange) : List Formula → Bool
  | [] => false
  | f :: fs => holds x f || holdsAny x fs

def holdsAll (x : Exchange) : List Formula → Bool
  | [] => true
  | f :: fs => holds x f && holdsAll x fs

end

end Formula

/-- A condition with its text, and whether its answer depends on the response. -/
structure Condition where
  text : String
  clauses : List Formula
  readsResponse : Bool

namespace Condition

/-- The condition that always holds. -/
def always : Condition := ⟨"", [], false⟩

/-- The clauses of a text, without blanks around them and without the empty ones. -/
def splitClauses (s : List Char) : List (List Char) :=
  ((Text.splitWhere (fun c => c == '&' || c == '\n') s).map (Text.dropBothWhile Text.isAsciiBlank)).filter
    fun w => !w.isEmpty

/-- A check, possibly negated, and whether it reads the response. -/
def parseCheck (env : Environment) (s : List Char) : Compiled (Formula × Bool) := do
  let d ← Directive.parse env (String.ofList s)
  let (negate, name) := match d.subject.toList with
    | '!' :: name => (true, String.ofList name)
    | _ => (false, d.subject)
  match Check.Kind.ofName? name with
  | none => throw (.subject name .unknownCheck)
  | some kind =>
    match Check.compile d.args kind with
    | .error e => throw (.withHelp (.subject name e) kind.help.text)
    | .ok c =>
      let f := Formula.check c
      return (if negate then .negated f else f, kind.readsResponse)

/-- A clause without alternatives is a check; one with alternatives holds if any of them does. -/
def parseClause (env : Environment) (s : List Char) : Compiled (Formula × Bool) :=
  if s.contains '|' then do
    let alternatives ←
      allOrErrors ((Text.splitOn '|' s).map fun w => parseCheck env (Text.trim w))
    return (.anyOf (alternatives.map (·.1)), alternatives.any (·.2))
  else parseCheck env s

/-- Adds the number of its clause to an error. -/
def atLine {α : Type} (i : Nat) : Compiled α → Compiled α
  | .ok a => .ok a
  | .error e => .error (.subject ("line " ++ toString (i + 1)) e)

def parse (env : Environment) (text : String) : Compiled Condition := do
  let clauses ← allOrErrors
    ((splitClauses text.toList).zipIdx.map fun (s, i) => atLine i (parseClause env s))
  return ⟨text, clauses.map (·.1), clauses.any (·.2)⟩

def formula (c : Condition) : Formula := .allOf c.clauses

def holds (c : Condition) (x : Exchange) : Bool := c.formula.holds x

def isEmpty (c : Condition) : Bool := c.clauses.isEmpty

/-- The usages of all checks, by name in alphabetic order. -/
def helps : List Help := Check.Kind.all.map Check.Kind.help

end Condition

end RuleGate
