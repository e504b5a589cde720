import RuleGate.Command.Block

/-!
# Rules

A rule is a named condition with a block of commands. It runs after the upstream has answered if its
condition or its commands need the response, and before otherwise.
-/

namespace RuleGate

/-- A rule as written. -/
structure RuleSpec where
  name : String
  condition : String
  commands : String
deriving DecidableEq, Repr

structure Rule where
  name : String
  condition : Condition
  block : CommandBlock

namespace Rule

/-- The name of the rule that applies to every request. -/
def defaultName : String := "default"

/-- What the default rule is when there is none. -/
def defaultPass : Rule := ⟨defaultName, .always, .pass⟩

/-- Adds the part of the rule that an error comes from. -/
def atPart {α : Type} (part : String) : Compiled α → Compiled α
  | .ok a => .ok a
  | .error e => .error (.subject part e)

/-- Puts the parts of a rule together, or the errors of both parts. -/
def assemble (name : String) (condition : Compiled Condition) (block : Compiled CommandBlock) :
    Compiled Rule :=
  match condition, block with
  | .ok c, .ok b => .ok ⟨name, c, b⟩
  | .error e, .ok _ => .error (.inRule name e)
  | .ok _, .error e => .error (.inRule name e)
  | .error e, .error f => .error (.inRule name (.multiple [e, f]))

/-- Compiles one rule. -/
def compile (env : Environment) (mode : CompileMode) (disk : Disk) (spec : RuleSpec) :
    Compiled Rule × Disk :=
  let condition := atPart "on" (Condition.parse env spec.condition)
  let (block, disk) := CommandBlock.compile env mode disk spec.commands
  (assemble spec.name condition (atPart "do" block), disk)

/-- Whether the rule runs after the upstream has answered. -/
def isResponseRule (r : Rule) : Bool := r.condition.readsResponse || r.block.readsResponse

def isDefault (r : Rule) : Bool := r.name == defaultName

/-- Whether the rule does nothing but hand the request to the upstream. -/
def isPurePass (r : Rule) : Bool := r.block.isBypass && r.block.commands.length == 1

def applies (r : Rule) (x : Exchange) : Bool := r.condition.holds x

end Rule

namespace RuleSpec

/-- The name of the `i`-th rule, which is made from its number if it has none. -/
def nameAt (i : Nat) (name : String) : String :=
  if name.isEmpty then "rule[" ++ toString i ++ "]" else name

def named (i : Nat) (s : RuleSpec) : RuleSpec := { s with name := nameAt i s.name }

/-- Compiles numbered rules one after the other. -/
def compileEach (env : Environment) (mode : CompileMode) (disk : Disk) :
    List (RuleSpec × Nat) → List (Compiled Rule) × Disk
  | [] => ([], disk)
  | (s, i) :: r =>
    let (result, disk) := Rule.compile env mode disk (s.named i)
    let (results, disk) := compileEach env mode disk r
    (result :: results, disk)

/-- Compiles all rules; the errors of all of them are reported. -/
def compileAll (env : Environment) (disk : Disk) (specs : List RuleSpec) :
    Compiled (List Rule) × Disk :=
  let (results, disk) := compileEach env .serve disk specs.zipIdx
  (allOrErrors results, disk)

end RuleSpec

end RuleGate
