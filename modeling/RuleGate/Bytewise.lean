import RuleGate.Matcher
import RuleGate.Template.Basic
import RuleGate.Text.Utf8

/-!
# Reading a text byte by byte

A scanner that walks the bytes of a text keeps its positions by hand and cuts the text at them. It is at fault if it
cuts inside a character, outside of the text or backwards, and if one of its loops does not end in time. Templates,
argument lists and typed expressions are read this way, in place.
-/

namespace RuleGate

/-- What a scanner of bytes gives: a result or an error of the rule language, and `none` if it is at fault. -/
abbrev Bytewise (α : Type) := ExceptT RuleError Option α

namespace Bytewise

variable {σ α : Type}

def fault : Bytewise α := ExceptT.mk none

/-- The outcome of a scanner that is not at fault. -/
def ofCompiled (x : Compiled α) : Bytewise α := ExceptT.mk (some x)

/-- Repeats a round until it gives a result. To need more rounds than the given number is a fault. -/
def loop (round : σ → Bytewise (σ ⊕ α)) : Nat → σ → Bytewise α
  | 0, _ => fault
  | n + 1, x => do
    match ← round x with
    | .inl x => loop round n x
    | .inr result => return result

/-- A round for each byte of the text, and one for its end. -/
def rounds (s : String) : Nat := s.utf8ByteSize + 1

def byte? (s : String) (i : Nat) : Option UInt8 := (Bytes.ofString s)[i]?

/-- The byte is a character of the class on its own. -/
def isAscii (p : Char → Bool) (b : UInt8) : Bool := b.toNat < 0x80 && p (Char.ofNat b.toNat)

/-- The text between two byte positions. Both have to be bounds of characters in the text, in this order. -/
def slice (s : String) (start stop : Nat) : Bytewise String :=
  if start ≤ stop ∧ String.Pos.Raw.IsValid s ⟨start⟩ ∧ String.Pos.Raw.IsValid s ⟨stop⟩ then
    return String.Pos.Raw.extract s ⟨start⟩ ⟨stop⟩
  else fault

end Bytewise

/-!
## Templates

The loops look at one byte at a time, jump over names and argument lists by positions, and cut literal text and names
out of the template.
-/

namespace Template

open Bytewise

/-- A scanner of arguments between two bytes: its position, the open quote, the bytes of the current argument, and the
arguments before it. -/
structure ArgumentCursor where
  pos : Nat
  quote : Option UInt8
  arg : Bytes
  args : List String

namespace ArgumentCursor

/-- Ends an argument that was written without quotes; an empty one does not count. -/
def endArgument (x : ArgumentCursor) : List String :=
  if x.arg.isEmpty then x.args else x.args ++ [Bytes.toStringLossy x.arg]

/-- Reads one byte. The result is the arguments and the position of the closing bracket. -/
def round (s func : String) (x : ArgumentCursor) : Bytewise (ArgumentCursor ⊕ List String × Nat) :=
  match byte? s x.pos, x.quote with
  | none, some _ => throw (.subject ("func " ++ Text.quoted func) .unterminatedQuotes)
  | none, none => throw (.subject ("func " ++ Text.quoted func) .unterminatedParenthesis)
  | some b, some q =>
    if b = q then return .inl ⟨x.pos + 1, none, [], x.args ++ [Bytes.toStringLossy x.arg]⟩
    else return .inl ⟨x.pos + 1, some q, x.arg ++ [b], x.args⟩
  | some b, none =>
    if isAscii Directive.isQuote b then return .inl ⟨x.pos + 1, some b, x.arg, x.args⟩
    else if b = ')'.toUInt8 then return .inr (x.endArgument, x.pos)
    else if b = ','.toUInt8 then return .inl ⟨x.pos + 1, none, [], x.endArgument⟩
    else if isAscii isArgumentBlank b then return .inl ⟨x.pos + 1, none, x.arg, x.args⟩
    else return .inl ⟨x.pos + 1, none, x.arg ++ [b], x.args⟩

end ArgumentCursor

/-- Reads the arguments of a function whose opening bracket is at a position. -/
def argumentsAt (s : String) (start : Nat) (func : String) : Bytewise (List String × Nat) :=
  loop (ArgumentCursor.round s func) (rounds s) ⟨start + 1, none, [], []⟩

/-- Moves on over a byte of a name. -/
def nameRound (s : String) (pos : Nat) : Bytewise (Nat ⊕ Nat) :=
  match byte? s pos with
  | none => return .inr pos
  | some b => if isAscii isNameChar b then return .inl (pos + 1) else return .inr pos

/-- Reads the reference whose name is between two positions. Gives the position behind the reference. -/
def referenceAt (s : String) (start stop : Nat) : Bytewise (Segment × Nat) := do
  let name ← slice s start stop
  if DynamicVariable.names.contains name then
    if byte? s stop = some '('.toUInt8 then
      let (args, close) ← argumentsAt s stop name
      match DynamicVariable.compile name args with
      | .ok v => return (.dynamic v, close + 1)
      | .error e => throw (.subject name e)
    else
      throw (.subject ("func " ++ Text.quoted name ++ " at position " ++ toString start)
        .unterminatedParenthesis)
  else
    match StaticVariable.ofName? name with
    | some v => return (.static v, stop)
    | none => throw (.subject name .unexpectedVariable)

/-- A scanner of templates: its position, where the piece begins that has not been copied yet, the literal text copied
so far, and the segments before it. -/
structure Cursor where
  pos : Nat
  start : Nat
  literal : String
  segments : List Segment

namespace Cursor

/-- The segments with the literal text behind them, unless there is none. -/
def endLiteral (x : Cursor) : List Segment :=
  if x.literal.isEmpty then x.segments else x.segments ++ [.literal x.literal]

/-- Goes on at a position behind a dollar and what belongs to it. -/
def skipTo (x : Cursor) (pos : Nat) : Cursor := { x with pos := pos, start := pos }

/-- Copies the text between the start of the current piece and a position. -/
def copyTo (s : String) (x : Cursor) (stop : Nat) : Bytewise Cursor :=
  return { x with literal := x.literal ++ (← slice s x.start stop) }

/-- Reads what stands behind a dollar. -/
def afterDollar (s : String) (x : Cursor) : Bytewise Cursor :=
  match byte? s (x.pos + 1) with
  | none => throw .unterminatedVariable
  | some b =>
    if b = '$'.toUInt8 then return { x with literal := x.literal ++ "$" }.skipTo (x.pos + 2)
    else if b = '\x7b'.toUInt8 then return { x with literal := x.literal ++ "$\x7b" }.skipTo (x.pos + 2)
    else if isAscii isNameChar b then do
      let stop ← loop (nameRound s) (rounds s) (x.pos + 1)
      let (segment, behind) ← referenceAt s (x.pos + 1) stop
      return ⟨behind, behind, "", x.endLiteral ++ [segment]⟩
    else throw (.subject ("around $ at position " ++ toString (x.pos + 1)) .unterminatedVariable)

/-- Reads one byte, or a dollar and what belongs to it. -/
def round (s : String) (x : Cursor) : Bytewise (Cursor ⊕ List Segment) :=
  match byte? s x.pos with
  | none => return .inr (← x.copyTo s s.utf8ByteSize).endLiteral
  | some b =>
    if b = '$'.toUInt8 then return .inl (← (← x.copyTo s x.pos).afterDollar s)
    else return .inl { x with pos := x.pos + 1 }

end Cursor

/-- Reads a template by its bytes. -/
def parseBytes (s : String) : Bytewise Template :=
  return ⟨← loop (Cursor.round s) (rounds s) ⟨0, 0, "", []⟩⟩

end Template

/-!
## Typed expressions

The brackets are found by their byte positions, and type, body and the text inside of quotes are cut out of the
expression between them.
-/

namespace Matcher

open Bytewise

/-- The byte position of the first of a character. -/
def find? (c : Char) (s : String) : Option Nat :=
  (Text.cut? c s.toList).map fun (front, _) => (Text.utf8Encode front).length

/-- The byte position of the last of a character. -/
def findLast? (c : Char) (s : String) : Option Nat :=
  (Text.cutLast? c s.toList).map fun (front, _) => (Text.utf8Encode front).length

/-- Drops the quotes around an expression that starts with one. -/
def unquoteBytes (s : String) : Bytewise String :=
  match s.toList.head? with
  | none => return s
  | some q =>
    if Directive.isQuote q then
      if s.utf8ByteSize < 2 ∨ s.toList.getLast? ≠ some q then throw .unterminatedQuotes
      else slice s 1 (s.utf8ByteSize - 1)
    else return s

/-- Splits `type(body)` at the first opening and the last closing bracket. -/
def splitTypedBytes (s : String) : Bytewise (Option MatcherType × String) :=
  match find? '(' s with
  | none => return (none, s)
  | some start =>
    match findLast? ')' s with
    | none => throw .unterminatedBrackets
    | some stop =>
      if stop < start then throw .unterminatedBrackets
      else do
        let body ← unquoteBytes (← slice s (start + 1) stop)
        let name ← slice s 0 start
        return (some (← ofCompiled (MatcherType.parse name.toList)), body)

end Matcher

end RuleGate
