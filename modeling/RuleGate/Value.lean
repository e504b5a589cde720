/-!
# Untyped values

What a document says once its notation no longer matters. Non-negative integers are told apart from
other numbers, for they can stand for names by position.
-/

namespace RuleGate

inductive Value where
  | null
  | bool (b : Bool)
  | natural (n : Nat)
  | integer (n : Int)
  /-- A number with a fraction or an exponent, or one that is too large, as it was written. -/
  | decimal (written : String)
  | text (s : String)
  | list (items : List Value)
  | map (entries : List (Value × Value))
deriving Repr

namespace Value

/-- The largest non-negative integer: 64 bits. -/
def maxNatural : Nat := 18446744073709551615

/-- The least negative integer: 64 bits with a sign. -/
def minInteger : Int := -9223372036854775808

/-- The entries whose keys are texts. -/
def ofFields (fields : List (String × Value)) : Value := map (fields.map fun (k, v) => (text k, v))

end Value

end RuleGate
