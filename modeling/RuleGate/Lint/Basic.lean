import RuleGate.Rule.Basic

/-!
# Linting rules

What a lint run finds in a list of rules: rules that do not compile, names that are taken, and rules that
are never reached because one before them hands every request to the upstream.
-/

namespace RuleGate

inductive Severity where
  | error
  | warning
deriving DecidableEq, Repr

namespace Severity

def label : Severity → String
  | error => "error"
  | warning => "warning"

end Severity

/-- The kinds of issues. -/
inductive IssueCode where
  /-- A file or a directory cannot be read. -/
  | unreadable
  /-- A file holds no rules. -/
  | undecodable
  /-- A rule does not compile. -/
  | broken
  /-- The name of a rule is taken. -/
  | duplicateName
  /-- A rule is never reached. -/
  | unreachable
deriving DecidableEq, Repr

namespace IssueCode

def text : IssueCode → String
  | unreadable => "E001"
  | undecodable => "E002"
  | broken => "E003"
  | duplicateName => "W001"
  | unreachable => "W002"

def all : List IssueCode := [unreadable, undecodable, broken, duplicateName, unreachable]

def severity : IssueCode → Severity
  | unreadable => .error
  | undecodable => .error
  | broken => .error
  | duplicateName => .warning
  | unreachable => .warning

end IssueCode

/-- Something found: what, in which file, about which rule, and what to do about it. -/
structure LintIssue where
  code : IssueCode
  message : String
  file : String
  rule : Option String
  suggestion : Option String
deriving DecidableEq, Repr

namespace LintIssue

def severity (i : LintIssue) : Severity := i.code.severity

/-- The rule called `name` has the name of the rule with the number `first`. -/
def duplicateName (file name : String) (first : Nat) : LintIssue :=
  ⟨.duplicateName, "Rule name is already used by rule #" ++ toString first, file, some name,
    some "Give every rule a unique name"⟩

/-- The rule called `name` comes after `bypass`. -/
def unreachable (file name bypass : String) : LintIssue :=
  ⟨.unreachable, "Rule is never reached: \"" ++ bypass ++ "\" bypasses every request", file, some name,
    some ("Move this rule above \"" ++ bypass ++ "\"")⟩

/-- The error of a rule, which is named beside it. -/
def broken (file name : String) (e : RuleError) : LintIssue :=
  let message := match e with
    | .inRule _ cause => cause.message
    | e => e.message
  ⟨.broken, message, file, some name, none⟩

end LintIssue

/-- The issues found in a number of files and rules. -/
structure LintResult where
  issues : List LintIssue
  files : Nat
  rules : Nat
deriving DecidableEq, Repr

namespace LintResult

def empty : LintResult := ⟨[], 0, 0⟩

def count (s : Severity) (r : LintResult) : Nat := r.issues.countP fun i => i.severity == s

def errors (r : LintResult) : Nat := r.count .error

def warnings (r : LintResult) : Nat := r.count .warning

def hasErrors (r : LintResult) : Bool := 0 < r.errors

def withCode (c : IssueCode) (r : LintResult) : List LintIssue := r.issues.filter fun i => i.code == c

def append (r s : LintResult) : LintResult :=
  ⟨r.issues ++ s.issues, r.files + s.files, r.rules + s.rules⟩

end LintResult

/-- What is known of the rules before one: the number of the first rule with each name, and the name of
the first that hands every request to the upstream. -/
structure LintState where
  names : List (String × Nat)
  bypass : Option String
deriving DecidableEq, Repr

namespace LintState

def start : LintState := ⟨[], none⟩

/-- Notes the name of a rule, unless it is taken. -/
def noteName (i : Nat) (name : String) (s : LintState) : LintState :=
  if (s.names.lookup name).isSome then s else { s with names := s.names ++ [(name, i)] }

/-- Whether no rule after this one is reached. The default rule runs apart from the others. -/
def hidesOthers (rule : Rule) : Bool :=
  !rule.isDefault && rule.condition.isEmpty && rule.block.isBypass

/-- Notes a rule that compiles. -/
def noteRule (rule : Rule) (s : LintState) : LintState :=
  if s.bypass.isNone && hidesOthers rule then { s with bypass := some rule.name } else s

end LintState

namespace RuleSpec

/-- The warnings about the `i`-th rule, whose name is `name`, by the rules before it. -/
def warnings (file name : String) (s : LintState) : List LintIssue :=
  let duplicate := (s.names.lookup name).map fun first => LintIssue.duplicateName file name first
  let unreachable :=
    if name = Rule.defaultName then none else s.bypass.map (LintIssue.unreachable file name)
  duplicate.toList ++ unreachable.toList

/-- The issues of numbered rules, by the rules before them. Rules are compiled for checking only, each
on the same files. -/
def lintFrom (env : Environment) (files : FileSystem) (file : String) (s : LintState) :
    List (RuleSpec × Nat) → List LintIssue
  | [] => []
  | (spec, i) :: r =>
    let spec := spec.named i
    let found := warnings file spec.name s
    let s := s.noteName i spec.name
    match (Rule.compile env .check (.ofFiles files) spec).1 with
    | .ok rule => found ++ lintFrom env files file (s.noteRule rule) r
    | .error e => found ++ LintIssue.broken file spec.name e :: lintFrom env files file s r

/-- Lints a list of rules; `file` is only named in the issues. -/
def lint (env : Environment) (files : FileSystem) (file : String) (specs : List RuleSpec) :
    LintResult :=
  ⟨lintFrom env files file .start specs.zipIdx, 0, specs.length⟩

end RuleSpec

end RuleGate
