/-!
# Decimal integers in text

Reading decimal numbers of a bounded type: the digits are read left to right, and the first digit
that is no digit, or that takes the value past the bound, decides which error it is.
-/

namespace RuleGate.Text

inductive IntegerError where
  | empty
  | invalidDigit
  | tooLarge
  | tooSmall
deriving DecidableEq, Repr

namespace IntegerError

def message : IntegerError → String
  | empty => "cannot parse integer from empty string"
  | invalidDigit => "invalid digit found in string"
  | tooLarge => "number too large to fit in target type"
  | tooSmall => "number too small to fit in target type"

end IntegerError

/-- The value after the digits, starting from `acc`, if it never passes `bound`. -/
def readDigits (bound : Nat) (onOverflow : IntegerError) :
    Nat → List Char → Except IntegerError Nat
  | acc, [] => .ok acc
  | acc, c :: r =>
    if c.isDigit then
      let value := acc * 10 + (c.toNat - '0'.toNat)
      if value ≤ bound then readDigits bound onOverflow value r else .error onOverflow
    else .error .invalidDigit

/-- A number from 0 to `bound`, with an optional plus sign. -/
def readNat (bound : Nat) : List Char → Except IntegerError Nat
  | [] => .error .empty
  | ['+'] => .error .invalidDigit
  | '+' :: r => readDigits bound .tooLarge 0 r
  | s => readDigits bound .tooLarge 0 s

/-- A number from `-(bound + 1)` to `bound`, with an optional sign. -/
def readInt (bound : Nat) : List Char → Except IntegerError Int
  | '-' :: r =>
    if r.isEmpty then .error .invalidDigit
    else (readDigits (bound + 1) .tooSmall 0 r).map fun n => -(n : Int)
  | s => (readNat bound s).map Int.ofNat

def readUInt16 (s : List Char) : Except IntegerError Nat := readNat 65535 s

def readUInt64 (s : List Char) : Except IntegerError Nat := readNat 18446744073709551615 s

def readInt64 (s : List Char) : Except IntegerError Int := readInt 9223372036854775807 s

end RuleGate.Text
