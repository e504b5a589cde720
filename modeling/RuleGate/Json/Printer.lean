import RuleGate.Text.Quoted
import RuleGate.Value

/-!
# Writing JSON

The indented form: one item or entry a line, two columns a level, and empty lists and objects without
a break.
-/

namespace RuleGate.Json

/-- The short escapes. -/
def shortEscapes : List (Char × Char) := [
  ('"', '"'), ('\\', '\\'), ('\x08', 'b'), ('\x0c', 'f'), ('\n', 'n'), ('\r', 'r'), ('\t', 't')]

def escapeChar (c : Char) : List Char :=
  match shortEscapes.lookup c with
  | some e => ['\\', e]
  | none =>
    if c.toNat < 32 then
      ['\\', 'u', '0', '0', Text.hexDigit (c.toNat / 16), Text.hexDigit (c.toNat % 16)]
    else [c]

def quote (s : String) : String := String.ofList ('"' :: s.toList.flatMap escapeChar ++ ['"'])

/-- A new line, indented by a level. -/
def newline (level : Nat) : String := String.ofList ('\n' :: List.replicate (2 * level) ' ')

/-- Items between brackets. -/
def bracket (opening closing : String) (level : Nat) (items : List String) : String :=
  if items.isEmpty then opening ++ closing
  else
    opening ++ newline (level + 1) ++ (("," ++ newline (level + 1)).intercalate items) ++
      newline level ++ closing

/-- The text of a key. Only texts are keys. -/
def keyText : Value → String
  | .text s => quote s
  | _ => quote ""

mutual

/-- A value whose first line stands at an indentation level. -/
def pretty (level : Nat) : Value → String
  | .null => "null"
  | .bool b => if b then "true" else "false"
  | .natural n => toString n
  | .integer n => toString n
  | .decimal written => written
  | .text s => quote s
  | .list items => bracket "[" "]" level (prettyItems (level + 1) items)
  | .map entries => bracket "\x7b" "\x7d" level (prettyEntries (level + 1) entries)

def prettyItems (level : Nat) : List Value → List String
  | [] => []
  | v :: r => pretty level v :: prettyItems level r

def prettyEntries (level : Nat) : List (Value × Value) → List String
  | [] => []
  | (k, v) :: r => (keyText k ++ ": " ++ pretty level v) :: prettyEntries level r

end

end RuleGate.Json
