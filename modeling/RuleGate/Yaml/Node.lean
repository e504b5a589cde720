import RuleGate.Text.Split

/-!
# YAML nodes

The node graph of a document with its aliases resolved. A scalar keeps its tag and whether it was
written plain, for that decides what its text may stand for.
-/

namespace RuleGate.Yaml

inductive Node where
  | scalar (tag : Option String) (plain : Bool) (text : String)
  | sequence (tag : Option String) (items : List Node)
  | mapping (tag : Option String) (entries : List (Node × Node))
  /-- An alias for a node that contains it. -/
  | cyclic
deriving Repr

namespace Node

/-- The node that stands where nothing is written. -/
def absent : Node := scalar none true ""

/-- Whether nothing is written, or only a plain scalar without text. -/
def isBlank : Node → Bool
  | scalar _ plain text => plain && text.isEmpty
  | _ => false

/-- Gives a node a tag. -/
def withTag (tag : Option String) : Node → Node
  | scalar _ plain text => scalar tag plain text
  | sequence _ items => sequence tag items
  | mapping _ entries => mapping tag entries
  | cyclic => cyclic

/-- The text of a scalar of any kind. -/
def text? : Node → Option String
  | scalar _ _ text => some text
  | _ => none

/-- The items of a sequence; what is blank has none. -/
def items? : Node → Option (List Node)
  | sequence _ items => some items
  | n => if n.isBlank then some [] else none

/-- The entries of a mapping; what is blank has none. -/
def entries? : Node → Option (List (Node × Node))
  | mapping _ entries => some entries
  | n => if n.isBlank then some [] else none

end Node

end RuleGate.Yaml
