import RuleGate.Text.Decimal
import RuleGate.Value
import RuleGate.Yaml.Node

/-!
# What YAML scalars stand for

Plain scalars stand for null, truth values and numbers where they are written like them, and for their
text otherwise. Integers may be hexadecimal, octal or binary; one with a leading zero is a text.
-/

namespace RuleGate.Yaml

def isNull (s : String) : Bool := s == "null" || s == "Null" || s == "NULL" || s == "~"

def bool? (s : String) : Option Bool :=
  if s = "true" ∨ s = "True" ∨ s = "TRUE" then some true
  else if s = "false" ∨ s = "False" ∨ s = "FALSE" then some false
  else none

/-- The value of a digit in a base up to 16. -/
def digitIn? (base : Nat) (c : Char) : Option Nat :=
  let v := if c.isDigit then some (c.toNat - 48)
    else if 'a' ≤ c ∧ c ≤ 'f' then some (c.toNat - 87)
    else if 'A' ≤ c ∧ c ≤ 'F' then some (c.toNat - 55)
    else none
  v.bind fun v => if v < base then some v else none

/-- The value of one digit or more. -/
def digits? (base : Nat) (s : List Char) : Option Nat :=
  if s.isEmpty then none
  else s.foldlM (fun n c => (digitIn? base c).map fun d => n * base + d) 0

/-- Whether digits start with a zero that does not stand alone. -/
def isPadded (s : List Char) : Bool :=
  match s with
  | '0' :: r => !r.isEmpty && r.all Char.isDigit
  | _ => false

/-- The magnitude of an integer without a sign. -/
def magnitude? (s : List Char) : Option Nat :=
  let radix := match s with
    | '0' :: 'x' :: r => digits? 16 r
    | '0' :: 'o' :: r => digits? 8 r
    | '0' :: 'b' :: r => digits? 2 r
    | _ => none
  radix.or (if isPadded s then none else digits? 10 s)

/-- Whether an integer is written with a minus sign, and its magnitude. -/
def integer? (s : List Char) : Option (Bool × Nat) :=
  match s with
  | '+' :: r => (magnitude? r).map fun n => (false, n)
  | '-' :: r => (magnitude? r).map fun n => (true, n)
  | _ => (magnitude? s).map fun n => (false, n)

/-- A non-negative integer of 64 bits. -/
def natural? (s : String) : Option Nat :=
  match integer? s.toList with
  | some (false, n) => if n ≤ Value.maxNatural then some n else none
  | _ => none

/-- The names of numbers that are not finite. -/
def specialNumbers : List String := [
  ".inf", ".Inf", ".INF", "+.inf", "+.Inf", "+.INF", "-.inf", "-.Inf", "-.INF", ".nan", ".NaN", ".NAN"]

def isPaddedNumber (s : List Char) : Bool :=
  match s with
  | '+' :: r => isPadded r
  | '-' :: r => isPadded r
  | _ => isPadded s

/-- Whether a text is written like a number with a fraction or an exponent. -/
def isDecimal (s : String) : Bool :=
  !isPaddedNumber s.toList &&
    (specialNumbers.contains s || (Text.Decimal.read? s.toList).any Text.Decimal.isFinite)

/-- What a number or another plain scalar stands for. Integers of more than 64 bits but no more than 128
stand for nothing. -/
def numberOrText (s : String) : Option Value :=
  match integer? s.toList with
  | some (false, n) =>
    if n ≤ Value.maxNatural then some (.natural n)
    else if n < Nat.pow 2 128 then none
    else some (if isDecimal s then .decimal s else .text s)
  | some (true, n) =>
    if Value.minInteger ≤ -(n : Int) then some (.integer (-(n : Int)))
    else if n ≤ Nat.pow 2 127 then none
    else some (if isDecimal s then .decimal s else .text s)
  | none => some (if isDecimal s then .decimal s else .text s)

/-- What a plain scalar without a tag stands for. -/
def plainValue? (s : String) : Option Value :=
  if s.isEmpty || isNull s then some .null
  else
    match bool? s with
    | some b => some (.bool b)
    | none => numberOrText s

/-- Whether a tag is one of the application's own. -/
def isOwnTag (tag : String) : Bool := tag.startsWith "!" && 1 < tag.length

def typePrefix : String := "tag:yaml.org,2002:"

/-- What a scalar with a tag stands for, if it fits the tag. -/
def taggedValue? (tag s : String) : Option Value :=
  if isOwnTag tag then none
  else if tag = typePrefix ++ "bool" then (bool? s).map .bool
  else if tag = typePrefix ++ "null" then if isNull s then some .null else none
  else if tag = typePrefix ++ "int" then
    match numberOrText s with
    | some (.natural n) => some (.natural n)
    | some (.integer n) => some (.integer n)
    | _ => none
  else if tag = typePrefix ++ "float" then
    if specialNumbers.contains s || (Text.Decimal.read? s.toList).any Text.Decimal.isFinite then
      some (.decimal s)
    else none
  else some (.text s)

def scalarValue? (tag : Option String) (plain : Bool) (s : String) : Option Value :=
  match tag with
  | some t => taggedValue? t s
  | none => if plain then plainValue? s else some (.text s)

def isPlainCollection (tag : Option String) : Bool := !tag.any isOwnTag

namespace Node

mutual

/-- The value of a node, if it has one. -/
def value? : Node → Option Value
  | scalar tag plain text => scalarValue? tag plain text
  | sequence tag items => if isPlainCollection tag then (values? items).map .list else none
  | mapping tag entries => if isPlainCollection tag then (entryValues? entries).map .map else none
  | cyclic => none

def values? : List Node → Option (List Value)
  | [] => some []
  | n :: r => do return (← value? n) :: (← values? r)

def entryValues? : List (Node × Node) → Option (List (Value × Value))
  | [] => some []
  | (k, v) :: r => do return (← value? k, ← value? v) :: (← entryValues? r)

end

/-- The truth value that a plain scalar is written as. -/
def bool? : Node → Option Bool
  | scalar _ true text => Yaml.bool? text
  | _ => none

/-- The number of at most `bound` that a plain scalar is written as. -/
def natural? (bound : Nat) : Node → Option Nat
  | scalar _ true text => (Yaml.natural? text).bind fun n => if n ≤ bound then some n else none
  | _ => none

/-- Whether a node says that there is no value: nothing, or a plain null. -/
def isNull : Node → Bool
  | scalar none true text => text.isEmpty || Yaml.isNull text
  | scalar (some tag) true text => tag == typePrefix ++ "null" && Yaml.isNull text
  | _ => false

end Node

end RuleGate.Yaml
