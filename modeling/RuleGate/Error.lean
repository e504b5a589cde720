import RuleGate.Http.Status

/-!
# Errors

What can be wrong with a rule when it is compiled, and why a command fails while it runs. Compile
errors carry their context as wrappers around a cause, and their message reads from the outermost
wrapper inwards.
-/

namespace RuleGate

/-- How many arguments a directive expects. -/
inductive Arity where
  | none
  | one
  | oneOrTwo
  | two
  | three
  | four
  | keyOptionalValue
deriving DecidableEq, Repr

namespace Arity

def message : Arity → String
  | none => "expect no arg"
  | one => "expect 1 arg"
  | oneOrTwo => "expect 1 or 2 args"
  | two => "expect 2 args"
  | three => "expect 3 args"
  | four => "expect 4 args"
  | keyOptionalValue => "expect 'key' or 'key value'"

end Arity

inductive RuleError where
  | unterminatedQuotes
  | unterminatedBrackets
  | unterminatedParenthesis
  | unterminatedVariable
  | variablesNotFound (names : List String)
  | unknownDirective
  | unknownField
  | unknownCheck
  | invalidArguments (text : String)
  | arity (expected : Arity)
  | invalidSequence
  | unexpectedVariable
  | noArgument
  | undecodable (text : String)
  | subject (text : String) (cause : RuleError)
  | withHelp (cause : RuleError) (help : String)
  | inRule (name : String) (cause : RuleError)
  | multiple (causes : List RuleError)
deriving Repr

namespace RuleError

mutual

def message : RuleError → String
  | unterminatedQuotes => "unterminated quotes"
  | unterminatedBrackets => "unterminated brackets"
  | unterminatedParenthesis => "unterminated parenthesis"
  | unterminatedVariable => "unterminated env var"
  | variablesNotFound names => "env variable not found: " ++ ", ".intercalate names
  | unknownDirective => "unknown directive"
  | unknownField => "unknown field"
  | unknownCheck => "invalid \x60rule.on\x60 target"
  | invalidArguments text => "invalid arguments: " ++ text
  | arity expected => "invalid arguments: " ++ expected.message
  | invalidSequence =>
    "invalid command sequence: a returning / bypass command must be the last command"
  | unexpectedVariable => "unexpected variable"
  | noArgument => "no argument provided"
  | undecodable text => "invalid rules document: " ++ text
  | subject text cause => text ++ ": " ++ message cause
  | withHelp cause help => message cause ++ "\n" ++ help
  | inRule name cause => "rule \"" ++ name ++ "\": " ++ message cause
  | multiple causes => "\n".intercalate (messages causes)

def messages : List RuleError → List String
  | [] => []
  | e :: r => message e :: messages r

end

/-- The error inside the wrappers. -/
def root : RuleError → RuleError
  | subject _ cause => root cause
  | withHelp cause _ => root cause
  | inRule _ cause => root cause
  | e => e

def isArgumentError (e : RuleError) : Bool :=
  match e.root with
  | invalidArguments _ => true
  | arity _ => true
  | _ => false

/-- One error for a list of them; none for the empty list. -/
def join : List RuleError → Option RuleError
  | [] => none
  | [e] => some e
  | es => some (multiple es)

end RuleError

/-- The result of compiling a part of a rule. -/
abbrev Compiled (α : Type) := Except RuleError α

/-- The results if all succeeded, or the errors of those that failed. -/
def collect {α : Type} : List (Compiled α) → List α × List RuleError
  | [] => ([], [])
  | .ok a :: r => ((a :: (collect r).1), (collect r).2)
  | .error e :: r => ((collect r).1, e :: (collect r).2)

/-- All results, or all errors joined. -/
def allOrErrors {α : Type} (results : List (Compiled α)) : Compiled (List α) :=
  match RuleError.join (collect results).2 with
  | some e => .error e
  | none => .ok (collect results).1

/-- Why a command fails while it handles a request. -/
inductive CommandError where
  | io (text : String)
  | upstream (text : String)
  | invalidRequest (text : String)
  | notify (text : String)
deriving DecidableEq, Repr

namespace CommandError

def message : CommandError → String
  | io text => "io error: " ++ text
  | upstream text => "upstream error: " ++ text
  | invalidRequest text => "invalid request: " ++ text
  | notify text => "notification failed: " ++ text

/-- The status a client gets when a command fails before the upstream is called. -/
def status : CommandError → Status
  | upstream _ => .badGateway
  | invalidRequest _ => .badRequest
  | io _ => .internalServerError
  | notify _ => .internalServerError

end CommandError

end RuleGate
