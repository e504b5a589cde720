import RuleGate.Files.Path
import RuleGate.Json.Printer
import RuleGate.Lint.Basic

/-!
# Lint reports

The result of a lint run as a coloured text for terminals, grouped by file, and as a JSON value.
-/

namespace RuleGate

/-! ## Terminal colours -/

inductive Style where
  | green
  | red
  | yellow
  | cyan
  | bold
  | dim
  | reset

namespace Style

def code : Style → String
  | green => "32"
  | red => "31"
  | yellow => "33"
  | cyan => "36"
  | bold => "1"
  | dim => "2"
  | reset => "0"

/-- The control sequence that switches to a style. -/
def switch (s : Style) : String := "\x1b[" ++ s.code ++ "m"

/-- The styles one after the other, the text, and back to the usual style. -/
def paint (styles : List Style) (text : String) : String :=
  String.join (styles.map switch) ++ text ++ reset.switch

end Style

namespace Severity

def colour : Severity → Style
  | error => .red
  | warning => .yellow

end Severity

namespace LintResult

/-- A line across the report. -/
def rule : String := Style.paint [.dim] (String.ofList (List.replicate 52 '━'))

/-! ## Issues -/

/-- The first line of a text, and the others. -/
def messageLines (s : String) : String × List String :=
  match (Text.lines s.toList).map String.ofList with
  | [] => ("", [])
  | first :: others => (first, others)

/-- The name of a rule in brackets. -/
def locationText (rule : Option String) : String :=
  match rule with
  | some name =>
    Style.paint [.dim] "[" ++ Style.paint [.cyan] name ++ Style.paint [.dim] "]" ++ " "
  | none => ""

/-- The lines about one issue. -/
def issueLines (i : LintIssue) : List String :=
  let colour := i.severity.colour
  let marker := "  " ++ Style.paint [colour] "|"
  let (first, others) := messageLines i.message
  let code := Style.dim.switch ++ "(" ++ colour.switch ++ i.code.text ++ Style.dim.switch ++ ")" ++
    Style.reset.switch
  let head := marker ++ " " ++ locationText i.rule ++
    Style.paint [.bold, colour] i.severity.label ++ ": " ++ first ++ " " ++ code
  let suggestion := i.suggestion.map fun s => marker ++ "   " ++ Style.paint [.green] ("-> " ++ s)
  head :: others.map (fun line => marker ++ "   " ++ line) ++ suggestion.toList

/-- How many issues of a severity there are. -/
def countText (n : Nat) (s : Severity) : String :=
  Style.paint [s.colour] (toString n ++ " " ++ s.label ++ "(s)")

/-- The issues of a file by severity, in brackets. -/
def countsText (errors warnings : Nat) : String :=
  let parts :=
    if errors = 0 then [countText warnings .warning]
    else if warnings = 0 then [countText errors .error]
    else [countText errors .error, countText warnings .warning]
  " " ++ Style.dim.switch ++ "(" ++ (Style.dim.switch ++ ", ").intercalate parts ++
    Style.paint [.dim] ")"

/-- The lines about one file with issues. -/
def fileLines (file : String) (issues : List LintIssue) : List String :=
  let errors := issues.countP fun i => i.severity == .error
  let status := if errors = 0 then Style.paint [.yellow] "WARN" else Style.paint [.red] "FAIL"
  let name := Style.paint [.bold, .cyan] ((FilePath.fileName? file).getD "")
  (status ++ " " ++ name ++ countsText errors (issues.length - errors)) ::
    issues.flatMap issueLines ++ [""]

/-- The issues to show, by file; the order of files is that of their paths. -/
def groups (errorsOnly : Bool) (r : LintResult) : List (String × List LintIssue) :=
  let shown := r.issues.filter fun i => !errorsOnly || i.severity == .error
  let files := (shown.map (·.file)).eraseDups.mergeSort fun a b =>
    !FilePath.precedes b a
  files.map fun f => (f, shown.filter fun i => i.file == f)

def issuesText (errorsOnly : Bool) (r : LintResult) : List String :=
  if r.issues.isEmpty then [Style.paint [.green, .bold] "No issues found!"]
  else (r.groups errorsOnly).flatMap fun (file, issues) => fileLines file issues

/-! ## Summary -/

/-- A line of the summary: a label, and a number in bold. -/
def summaryLine (styles : List Style) (label padding : String) (number : List Style) (n : Nat) :
    String :=
  "  " ++ Style.paint styles label ++ padding ++ Style.paint (.bold :: number) (toString n)

def verdict (r : LintResult) : String :=
  if 0 < r.errors then Style.paint [.red, .bold] "Linting failed with errors"
  else if 0 < r.warnings then Style.paint [.yellow, .bold] "Passed with warnings"
  else Style.paint [.green, .bold] "All checks passed!"

def summary (r : LintResult) : List String := [
  rule, Style.paint [.bold, .cyan] "Summary", rule,
  summaryLine [.dim] "Files checked:" " " [] r.files,
  summaryLine [.dim] "Rules checked:" " " [] r.rules,
  if 0 < r.errors then summaryLine [.red] "Errors:" "    " [.red] r.errors
  else summaryLine [.green] "Errors:" "    " [.green] 0,
  if 0 < r.warnings then summaryLine [.yellow] "Warnings:" "  " [.yellow] r.warnings
  else summaryLine [.dim] "Warnings:" "  " [] 0,
  "", r.verdict]

/-- The report on a path. -/
def report (path : String) (errorsOnly : Bool) (r : LintResult) : String :=
  let head := [Style.paint [.bold, .cyan] "Waypoint Rule Linter", rule,
    Style.paint [.dim] "Scanning:" ++ " " ++ Style.paint [.cyan] path, ""]
  String.join ((head ++ r.issuesText errorsOnly ++ r.summary).map fun line => line ++ "\n")

/-! ## JSON -/

def optionValue : Option String → Value
  | some s => .text s
  | none => .null

def issueValue (i : LintIssue) : Value := .ofFields [
  ("severity", .text i.severity.label), ("code", .text i.code.text), ("message", .text i.message),
  ("file", .text i.file), ("location", optionValue i.rule), ("suggestion", optionValue i.suggestion)]

def toValue (r : LintResult) : Value := .ofFields [
  ("issues", .list (r.issues.map issueValue)), ("files_checked", .natural r.files),
  ("rules_checked", .natural r.rules), ("errors", .natural r.errors),
  ("warnings", .natural r.warnings)]

end LintResult

end RuleGate
