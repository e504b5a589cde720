/-!
# Decimal numbers in text

The written form of a decimal number with a fraction and an exponent, both optional, and whether its
value rounds to a finite number of double precision.
-/

namespace RuleGate.Text

/-- A decimal number: an integer times a power of ten. -/
structure Decimal where
  negative : Bool
  mantissa : Nat
  exponent : Int
deriving DecidableEq, Repr

namespace Decimal

def ofDigits (ds : List Char) : Nat := ds.foldl (fun n d => n * 10 + (d.toNat - 48)) 0

/-- An exponent, behind its letter. -/
def readExponent? : List Char → Option Int
  | '-' :: ds => if !ds.isEmpty && ds.all Char.isDigit then some (-(ofDigits ds : Int)) else none
  | '+' :: ds => if !ds.isEmpty && ds.all Char.isDigit then some (ofDigits ds : Int) else none
  | ds => if !ds.isEmpty && ds.all Char.isDigit then some (ofDigits ds : Int) else none

/-- Reads a number: digits with at most one point among them, and an exponent. -/
def read? (s : List Char) : Option Decimal :=
  let (negative, s) := match s with
    | '-' :: r => (true, r)
    | '+' :: r => (false, r)
    | _ => (false, s)
  let whole := s.takeWhile Char.isDigit
  let s := s.dropWhile Char.isDigit
  let (fraction, s) := match s with
    | '.' :: r => (r.takeWhile Char.isDigit, r.dropWhile Char.isDigit)
    | _ => ([], s)
  let exponent := match s with
    | [] => some 0
    | c :: r => if c = 'e' ∨ c = 'E' then readExponent? r else none
  if whole.isEmpty && fraction.isEmpty then none
  else exponent.map fun e => ⟨negative, ofDigits (whole ++ fraction), e - fraction.length⟩

/-- The least magnitude that rounds to infinity: half a unit past the largest finite double. -/
def overflow : Nat := Nat.pow 2 1024 - Nat.pow 2 970

/-- Whether the number rounds to a finite double. -/
def isFinite (d : Decimal) : Bool :=
  let digits := (Nat.toDigits 10 d.mantissa).length
  if d.mantissa = 0 then true
  else if 310 < digits + d.exponent then false
  else if digits + d.exponent < 300 then true
  else
    match d.exponent with
    | .ofNat e => d.mantissa * Nat.pow 10 e < overflow
    | .negSucc e => d.mantissa < overflow * Nat.pow 10 (e + 1)

end Decimal

end RuleGate.Text
