import RuleGate.Command.Directives
import RuleGate.Condition.Basic

/-!
# Command blocks

The commands of one rule, one directive a line. A command that ends the rule has to be the last.
-/

namespace RuleGate

structure CommandBlock where
  text : String
  commands : List Command

namespace CommandBlock

/-- The block that hands every request straight to the upstream. -/
def pass : CommandBlock := ⟨"pass", [.bypass]⟩

/-- Compiles numbered lines one after the other. -/
def compileLines (env : Environment) (mode : CompileMode) (disk : Disk) :
    List (Nat × String) → List (Compiled Command) × Disk
  | [] => ([], disk)
  | (i, line) :: r =>
    let (result, disk) := Command.compileLine env mode disk line
    let (results, disk) := compileLines env mode disk r
    (Condition.atLine i result :: results, disk)

def endsRule (c : Command) : Bool := c.kind == .terminating || c.kind == .bypass

/-- Whether some command other than the last one ends the rule. -/
def isMisplaced (commands : List Command) : Bool := commands.dropLast.any endsRule

def ofCommands (text : String) (commands : List Command) : Compiled CommandBlock :=
  if isMisplaced commands then .error .invalidSequence else .ok ⟨text, commands⟩

/-- Compiles a block; the errors of all lines are reported. -/
def compile (env : Environment) (mode : CompileMode) (disk : Disk) (text : String) :
    Compiled CommandBlock × Disk :=
  let (results, disk) := compileLines env mode disk (Directive.blockLines text)
  ((allOrErrors results).bind (ofCommands text), disk)

/-- Whether some command needs the response of the upstream. -/
def readsResponse (b : CommandBlock) : Bool := b.commands.any fun c => c.kind == .onResponse

def isBypass (b : CommandBlock) : Bool :=
  match b.commands.getLast? with
  | some c => c.kind == .bypass
  | none => false

def isTerminating (b : CommandBlock) : Bool :=
  match b.commands.getLast? with
  | some c => c.kind == .terminating
  | none => false

def run (b : CommandBlock) (s : Scene) : Except CommandError Outcome × Scene :=
  Command.runAll s b.commands

end CommandBlock

end RuleGate
