import RuleGate.Percent
import RuleGate.Text.Split

/-!
# Form parameters

An ordered list of decoded keys and values, as a query string or an urlencoded body holds them. Keys
may repeat and are compared exactly. Reading skips empty pairs, takes a plus sign for a space and
keeps what is not UTF-8 undecoded; writing escapes everything but the unreserved characters.
-/

namespace RuleGate

structure Params where
  pairs : List (String × String)
deriving DecidableEq, Repr

namespace Params

def empty : Params := ⟨[]⟩

/-- One key or value: plus signs are spaces, then escapes are decoded. -/
def decodeComponent (s : List Char) : String :=
  Percent.decodeOrSelf (String.ofList (s.map fun c => if c = '+' then ' ' else c))

/-- Reads one pair; a pair without `=` has an empty value. -/
def parsePair (s : List Char) : String × String :=
  match Text.cut? '=' s with
  | some (key, value) => (decodeComponent key, decodeComponent value)
  | none => (decodeComponent s, decodeComponent [])

def parse (s : String) : Params :=
  ⟨((Text.splitOn '&' s.toList).filter (fun w => !w.isEmpty)).map parsePair⟩

def encodePair (pair : String × String) : List Char :=
  (Percent.encode pair.1).toList ++ '=' :: (Percent.encode pair.2).toList

def encode (p : Params) : String := String.ofList (Text.join ['&'] (p.pairs.map encodePair))

/-- The values of a key, in order. -/
def getAll (p : Params) (key : String) : List String :=
  p.pairs.filterMap fun (k, v) => if k = key then some v else none

def get? (p : Params) (key : String) : Option String := (p.getAll key).head?

def contains (p : Params) (key : String) : Bool := p.pairs.any fun (k, _) => k == key

/-- Drops every pair with the key. -/
def erase (p : Params) (key : String) : Params := ⟨p.pairs.filter fun (k, _) => k != key⟩

def add (p : Params) (key value : String) : Params := ⟨p.pairs ++ [(key, value)]⟩

/-- Drops the pairs with a key that stand behind an index. The pairs in front of the list have been counted
already. -/
def dropBehind (key : String) (first : Nat) (counted : Nat) : List (String × String) → List (String × String)
  | [] => []
  | pair :: r =>
    if counted ≤ first ∨ pair.1 ≠ key then pair :: dropBehind key first (counted + 1) r
    else dropBehind key first (counted + 1) r

/-- Leaves the key with a single value: writes it into the first pair with the key and drops the other pairs
with it, or adds a pair if there is none. -/
def set (p : Params) (key value : String) : Params :=
  match p.pairs.findIdx? fun (k, _) => k == key with
  | some first => ⟨dropBehind key first 0 (p.pairs.modify first fun (k, _) => (k, value))⟩
  | none => p.add key value

def append (p q : Params) : Params := ⟨p.pairs ++ q.pairs⟩

end Params

end RuleGate
