import RuleGate.Lint.Basic
import RuleGate.Rule.Document

/-!
# Linting files

Rule files, one or all in a directory. A file that cannot be read or holds no rules is an issue like
others.
-/

namespace RuleGate.LintResult

/-- The result of a file that has a single issue about the file itself. -/
def ofIssue (files : Nat) (code : IssueCode) (message file : String) (suggestion : Option String) :
    LintResult :=
  ⟨[⟨code, message, file, none, suggestion⟩], files, 0⟩

/-- Lints the text of a rule file. -/
def ofText (env : Environment) (files : FileSystem) (format : DocumentFormat) (file text : String) :
    LintResult :=
  match format.ruleFile text with
  | .ok specs => { RuleSpec.lint env files file specs with files := 1 }
  | .error e =>
    ofIssue 1 .undecodable ("Invalid rule file: " ++ e.message) file
      (some "Expected a list of rules or a mapping with a \x60rules\x60 key")

/-- Lints a rule file. -/
def ofFile (env : Environment) (files : FileSystem) (path : String) : LintResult :=
  match files.readText path with
  | .ok text => ofText env files (.ofPath path) path text
  | .error e => ofIssue 1 .unreadable ("Failed to read file: " ++ e.message) path none

/-- The extensions of rule files. -/
def extensions : List String := ["yaml", "yml", "json"]

def isRuleFile (path : String) : Bool := (FilePath.extension? path).any extensions.contains

/-- The rule files in a directory, by name. Subdirectories are left alone. -/
def ruleFiles (files : FileSystem) (path : String) (names : List String) : List String :=
  ((names.mergeSort fun a b => a ≤ b).map (FilePath.join path)).filter fun p =>
    files.isFile p && isRuleFile p

/-- Lints all rule files in a directory. -/
def ofDirectory (env : Environment) (files : FileSystem) (path : String) : LintResult :=
  match files.list path with
  | .ok names => ((ruleFiles files path names).map (ofFile env files)).foldl append empty
  | .error e => ofIssue 0 .unreadable ("Failed to read directory: " ++ e.message) path none

/-- Lints a file or a directory. -/
def ofPath (env : Environment) (files : FileSystem) (path : String) : LintResult :=
  if files.isDirectory path then ofDirectory env files path else ofFile env files path

end RuleGate.LintResult
