import RuleGate.Json.Parser
import RuleGate.Rule.Basic
import RuleGate.Yaml.Decoding

/-!
# Rule documents

Rules written as YAML or JSON. A list of rules takes each field by name; JSON also takes the fields of a
rule by position. A rule file is such a list, or a mapping with one under `rules`, and there both
formats are read alike.
-/

namespace RuleGate

namespace RuleSpec

/-- The fields of a rule in their order. -/
def fieldNames : List String := ["name", "on", "do"]

def ofFields {α : Type} (read : α → Decoded String) (f : Fields α) : Decoded RuleSpec := do
  let name ← f.withDefault "name" "" read
  let condition ← f.withDefault "on" "" read
  let commands ← f.withDefault "do" "" read
  return ⟨name, condition, commands⟩

def ofNode (n : Yaml.Node) : Decoded RuleSpec := do
  ofFields Yaml.Node.asText (← n.asRecord fieldNames)

end RuleSpec

namespace Value

def asText : Value → Decoded String
  | text s => .ok s
  | _ => .error (.unexpectedType "a string")

/-- The field that a key names, by its name or by its position among the known ones. -/
def asKey (known : List String) : Value → Decoded String
  | text s => .ok s
  | natural n => .ok (known[n]?.getD "")
  | _ => .error (.unexpectedType "a field name")

/-- The known fields of a mapping. -/
def asRecord (known : List String) (entries : List (Value × Value)) : Decoded (Fields Value) := do
  let named ← entries.mapM fun (k, v) => do return (← k.asKey known, v)
  Fields.ofEntries known named

/-- A rule, with its fields by name or by position. -/
def asRule : Value → Decoded RuleSpec
  | map entries => do RuleSpec.ofFields asText (← asRecord RuleSpec.fieldNames entries)
  | list items => do
    if RuleSpec.fieldNames.length < items.length then throw (.unexpectedType "three fields")
    RuleSpec.ofFields asText ⟨RuleSpec.fieldNames.zip items⟩
  | _ => .error (.unexpectedType "a rule")

def asRules : Value → Decoded (List RuleSpec)
  | list items => items.mapM asRule
  | _ => .error (.unexpectedType "a sequence")

/-- The rules of a rule file. -/
def asRuleFile (v : Value) : Decoded (List RuleSpec) :=
  let result := match v with
    | map entries => do (← asRecord ["rules"] entries).required "rules" asRules
    | v => v.asRules
  match result with
  | .ok specs => .ok specs
  | .error _ => .error .noVariant

end Value

/-- The formats of rule files. -/
inductive DocumentFormat where
  | yaml
  | json
deriving DecidableEq, Repr

namespace DocumentFormat

/-- The format by the extension of a file name, which is YAML unless it is `json`. -/
def ofPath (path : String) : DocumentFormat :=
  if FilePath.extension? path = some "json" then json else yaml

/-- The value of a document. -/
def value (format : DocumentFormat) (text : String) : Decoded Value :=
  let value? := match format with
    | yaml =>
      match Yaml.parse? text.toList with
      | none => none
      | some none => some Value.null
      | some (some n) => n.value?
    | json => Json.parse? text.toList
  match value? with
  | some v => .ok v
  | none => .error .malformed

/-- The rules of a document that is a list of them. -/
def rules (format : DocumentFormat) (text : String) : Decoded (List RuleSpec) :=
  match format with
  | yaml => do (← Yaml.decodeDocument text).asList RuleSpec.ofNode
  | json => do (← json.value text).asRules

/-- The rules of a rule file. -/
def ruleFile (format : DocumentFormat) (text : String) : Decoded (List RuleSpec) := do
  (← format.value text).asRuleFile

end DocumentFormat

end RuleGate
