import RuleGate.Command.Directives
import RuleGate.CommandLine.Options
import RuleGate.Condition.Basic
import RuleGate.Lint.Files
import RuleGate.Lint.Report
import RuleGate.Template.Basic

/-!
# The linter as a program

Lints a rule file or a directory of them and prints the report, checks a single template, or lists the
usages of all checks, commands and fields.
-/

namespace RuleGate.CommandLine.LintProgram

def grammar : Grammar where
  options := [⟨"template", some 't', true⟩, ⟨"list", some 'l', false⟩, ⟨"output", some 'o', true⟩,
    ⟨"errors-only", some 'e', false⟩, ⟨"strict", some 's', false⟩]
  operands := 1

def helpText : String := "\n".intercalate [
  "Validate waypoint rule files and templates",
  "",
  "Usage: waypoint-lint [OPTIONS] [PATH]",
  "",
  "Arguments:",
  "  [PATH]  Rule file or directory containing rule files",
  "",
  "Options:",
  "  -t, --template <TEMPLATE>  Validate a single template instead of rule files",
  "  -l, --list                 Print the usage of every checker, directive and field",
  "  -o, --output <OUTPUT>      Output format: text (default), json [default: text]",
  "  -e, --errors-only          Only show errors (hide warnings)",
  "  -s, --strict               Strict mode - treat warnings as errors",
  "  -h, --help                 Print help",
  "  -V, --version              Print version",
  ""]

def versionText : String := "waypoint-lint 0.1.0\n"

/-- The usages under a heading. -/
def usages (title : String) (helps : List Help) : String :=
  Style.paint [.bold, .cyan] title ++ "\n" ++ LintResult.rule ++ "\n" ++
    String.join (helps.map fun h => h.text ++ "\n\n")

/-- The usages of everything that rules can use. -/
def listing : String :=
  usages "Checkers (on)" Condition.helps ++ usages "Directives (do)" Command.helps ++
    usages "Fields (set / add / remove)" (FieldKind.all.map FieldKind.help)

/-- Checks a template. -/
def checkTemplate (template : String) : ExitReport :=
  match Template.parse template with
  | .ok _ => .success (Style.paint [.green, .bold] "Template is valid" ++ "\n")
  | .error e => ⟨1, Style.paint [.red, .bold] "error" ++ ": " ++ e.message ++ "\n", ""⟩

/-- Lints a path. In strict mode warnings fail as well. -/
def lint (env : Environment) (files : FileSystem) (given : Given) (path : String) : ExitReport :=
  let result := LintResult.ofPath env files path
  let out :=
    if given.value? "output" = some "json" then Json.pretty 0 result.toValue ++ "\n"
    else result.report path (given.has "errors-only")
  let failed := 0 < result.errors || (given.has "strict" && 0 < result.warnings)
  ⟨if failed then 1 else 0, out, ""⟩

/-- A path has to be given, unless a template is or the usages are asked for; a template excludes one. -/
def checkOperands (given : Given) : Except Stop Unit :=
  match given.operands with
  | [] =>
    if given.has "template" || given.has "list" then .ok ()
    else .error (.misuse (.missingOperand "<PATH>"))
  | path :: _ =>
    if path.isEmpty then .error (.misuse (.missingValue "[PATH]"))
    else if given.has "template" then .error (.misuse (.conflict "--template <TEMPLATE>" "[PATH]"))
    else .ok ()

def run (env : Environment) (files : FileSystem) (words : List String) : ExitReport :=
  let read := do
    let given ← grammar.read words
    checkOperands given
    return given
  match read with
  | .error stop => .ofStop helpText versionText stop
  | .ok given =>
    if given.has "list" then .success listing
    else
      match given.value? "template", given.operands with
      | some template, _ => checkTemplate template
      | none, path :: _ => lint env files given path
      | none, [] => ⟨1, "", ""⟩

end RuleGate.CommandLine.LintProgram
