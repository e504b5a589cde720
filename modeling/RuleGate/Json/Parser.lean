import RuleGate.Text.Decimal
import RuleGate.Text.Split
import RuleGate.Value

/-!
# Reading JSON

A text is one value with nothing but blanks around it. Texts in it are well-formed Unicode, numbers
are finite, and values nest at most 127 deep.
-/

namespace RuleGate.Json

def isBlank (c : Char) : Bool := c == ' ' || c == '\t' || c == '\n' || c == '\r'

def skip (s : List Char) : List Char := s.dropWhile isBlank

def hexValue? (c : Char) : Option Nat :=
  if c.isDigit then some (c.toNat - 48)
  else if 'a' ≤ c ∧ c ≤ 'f' then some (c.toNat - 87)
  else if 'A' ≤ c ∧ c ≤ 'F' then some (c.toNat - 55)
  else none

/-- A unit of 16 bits from its four digits. -/
def unit? (a b c d : Char) : Option Nat := do
  return (((← hexValue? a) * 16 + (← hexValue? b)) * 16 + (← hexValue? c)) * 16 + (← hexValue? d)

def isHighSurrogate (n : Nat) : Bool := 0xD800 ≤ n && n ≤ 0xDBFF

def isLowSurrogate (n : Nat) : Bool := 0xDC00 ≤ n && n ≤ 0xDFFF

/-- What a backslash and this character stand for. -/
def escapes : List (Char × Char) := [
  ('"', '"'), ('\\', '\\'), ('/', '/'), ('b', '\x08'), ('f', '\x0c'), ('n', '\n'), ('r', '\r'),
  ('t', '\t')]

/-- A text up to its closing quote, and what follows it. `high` is a surrogate that waits for the other
half of its pair, and `text` what was read before, in reverse. -/
def readText? (text : List Char) (high : Option Nat) : List Char → Option (List Char × List Char)
  | [] => none
  | '\\' :: 'u' :: a :: b :: c :: d :: r =>
    match high, unit? a b c d with
    | _, none => none
    | none, some n =>
      if isHighSurrogate n then readText? text (some n) r
      else if isLowSurrogate n then none
      else readText? (Char.ofNat n :: text) none r
    | some h, some n =>
      if isLowSurrogate n then
        readText? (Char.ofNat (0x10000 + (h - 0xD800) * 0x400 + (n - 0xDC00)) :: text) none r
      else none
  | '\\' :: e :: r =>
    match high, escapes.lookup e with
    | none, some c => readText? (c :: text) none r
    | _, _ => none
  | c :: r =>
    if high.isSome ∨ c.toNat < 32 ∨ c = '\\' then none
    else if c = '"' then some (text.reverse, r)
    else readText? (c :: text) none r

/-- The characters a number is written with. -/
def isNumberChar (c : Char) : Bool :=
  c.isDigit || c == '-' || c == '+' || c == '.' || c == 'e' || c == 'E'

/-- Whether the digits in front of a number are as JSON wants them: no zero leads, and a point has digits
on both sides. -/
def isWellWritten (s : List Char) : Bool :=
  let s := match s with
    | '-' :: r => r
    | _ => s
  let whole := s.takeWhile Char.isDigit
  let rest := s.dropWhile Char.isDigit
  !whole.isEmpty && (whole.length == 1 || whole.head? != some '0') &&
    match rest with
    | '.' :: r => r.head?.any Char.isDigit
    | _ => true

/-- The value of a number. Integers that need more than 64 bits count as decimals. -/
def number? (s : List Char) : Option Value :=
  if !isWellWritten s then none
  else
    match Text.Decimal.read? s with
    | none => none
    | some d =>
      if s.all fun c => c.isDigit || c == '-' then
        if !d.negative && d.mantissa ≤ Value.maxNatural then some (.natural d.mantissa)
        else if d.negative && d.mantissa != 0 && Value.minInteger ≤ -(d.mantissa : Int) then
          some (.integer (-(d.mantissa : Int)))
        else if d.isFinite then some (.decimal (String.ofList s)) else none
      else if d.isFinite then some (.decimal (String.ofList s)) else none

/-- A word or a number, and what follows it. -/
def readAtom? (s : List Char) : Option (Value × List Char) :=
  match Text.dropPrefix? "null".toList s, Text.dropPrefix? "true".toList s,
      Text.dropPrefix? "false".toList s with
  | some r, _, _ => some (.null, r)
  | _, some r, _ => some (.bool true, r)
  | _, _, some r => some (.bool false, r)
  | none, none, none =>
    (number? (s.takeWhile isNumberChar)).map fun v => (v, s.dropWhile isNumberChar)

/-- How deep lists and objects may nest. -/
def maxDepth : Nat := 127

mutual

/-- A value and what follows it, with lists and objects nested at most `depth` deep. -/
def readValue? (depth : Nat) : Nat → List Char → Option (Value × List Char)
  | 0, _ => none
  | fuel + 1, s =>
    match skip s, depth with
    | '"' :: r, _ => (readText? [] none r).map fun (t, r) => (.text (String.ofList t), r)
    | '[' :: r, depth + 1 =>
      match skip r with
      | ']' :: r => some (.list [], r)
      | r => (readItems? depth fuel r).map fun (l, r) => (.list l, r)
    | '{' :: r, depth + 1 =>
      match skip r with
      | '}' :: r => some (.map [], r)
      | r => (readEntries? depth fuel r).map fun (l, r) => (.map l, r)
    | s, _ => readAtom? s
termination_by structural fuel => fuel

/-- One item or more up to the closing bracket. -/
def readItems? (depth : Nat) : Nat → List Char → Option (List Value × List Char)
  | 0, _ => none
  | fuel + 1, s => do
    let (v, r) ← readValue? depth fuel s
    match skip r with
    | ',' :: r =>
      let (l, r) ← readItems? depth fuel r
      return (v :: l, r)
    | ']' :: r => return ([v], r)
    | _ => none
termination_by structural fuel => fuel

/-- One entry or more up to the closing brace. -/
def readEntries? (depth : Nat) : Nat → List Char → Option (List (Value × Value) × List Char)
  | 0, _ => none
  | fuel + 1, s => do
    let '"' :: r := skip s | none
    let (key, r) ← readText? [] none r
    let ':' :: r := skip r | none
    let (v, r) ← readValue? depth fuel r
    let entry := (Value.text (String.ofList key), v)
    match skip r with
    | ',' :: r =>
      let (l, r) ← readEntries? depth fuel r
      return (entry :: l, r)
    | '}' :: r => return ([entry], r)
    | _ => none
termination_by structural fuel => fuel

end

/-- Reads a text as one value. -/
def parse? (s : List Char) : Option Value :=
  match readValue? maxDepth (2 * s.length + 2) s with
  | some (v, r) => if (skip r).isEmpty then some v else none
  | none => none

end RuleGate.Json
