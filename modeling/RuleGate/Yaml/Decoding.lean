import RuleGate.Decoding
import RuleGate.Yaml.Document
import RuleGate.Yaml.Schema

/-!
# Decoding YAML nodes

Records, lists and scalars of a known type. Where a text is expected any scalar will do, and nothing at
all counts as an empty list or record.
-/

namespace RuleGate.Yaml

/-- The node of a document; an empty one counts as blank. -/
def decodeDocument (text : String) : Decoded Node :=
  match parse? text.toList with
  | none => .error .malformed
  | some none => .ok .absent
  | some (some n) => .ok n

namespace Node

def asText (n : Node) : Decoded String :=
  match n.text? with
  | some s => .ok s
  | none => .error (.unexpectedType "a string")

def asBool (n : Node) : Decoded Bool :=
  match n.bool? with
  | some b => .ok b
  | none => .error (.unexpectedType "a boolean")

def asNatural (bound : Nat) (n : Node) : Decoded Nat :=
  match n.natural? bound with
  | some k => .ok k
  | none => .error (.unexpectedType "an integer")

def asList {α : Type} (read : Node → Decoded α) (n : Node) : Decoded (List α) :=
  match n.items? with
  | some items => items.mapM read
  | none => .error (.unexpectedType "a sequence")

def asOption {α : Type} (read : Node → Decoded α) (n : Node) : Decoded (Option α) :=
  if n.isNull then .ok none else (read n).map some

/-- The known fields of a mapping, all of whose keys are scalars. -/
def asRecord (known : List String) (n : Node) : Decoded (Fields Node) :=
  match n.entries? with
  | some entries => do
    let named ← entries.mapM fun (k, v) => do return (← k.asText, v)
    Fields.ofEntries known named
  | none => .error (.unexpectedType "a mapping")

end Node

end RuleGate.Yaml
