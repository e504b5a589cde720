import RuleGate.Text.Split

/-!
# Positions in a YAML text

The characters of the format, and a position in a text from which tokens are read. Line breaks are
brought to one form before reading, but for the two Unicode separators, which keep theirs.
-/

namespace RuleGate.Yaml

/-- The characters a stream may hold. -/
def isAllowed (c : Char) : Bool :=
  let n := c.toNat
  n == 0x9 || n == 0xA || n == 0xD || (0x20 ≤ n && n ≤ 0x7E) || n == 0x85 ||
    (0xA0 ≤ n && n ≤ 0xFFFD && n != 0xFEFF) || 0x10000 ≤ n

/-- Line breaks in one form: a carriage return with or without a line feed, and the next-line
control, become line feeds. -/
def normalizeBreaks : List Char → List Char
  | [] => []
  | '\r' :: '\n' :: r => '\n' :: normalizeBreaks r
  | c :: r => (if c = '\r' ∨ c = '\x85' then '\n' else c) :: normalizeBreaks r

def isBreak (c : Char) : Bool := c == '\n' || c == '\u2028' || c == '\u2029'

def isBlank (c : Char) : Bool := c == ' ' || c == '\t'

/-- Whether a word ends before these characters. -/
def endsWord : List Char → Bool
  | [] => true
  | c :: _ => isBlank c || isBreak c

/-- A line of three dashes or dots that begins or ends a document. -/
def isDocumentMarker : List Char → Bool
  | '-' :: '-' :: '-' :: r => endsWord r
  | '.' :: '.' :: '.' :: r => endsWord r
  | _ => false

/-- A position in a text. -/
structure Cursor where
  rest : List Char
  line : Nat
  column : Nat
  index : Nat
  /-- Only blanks stand before it on its line, which does not belong to a flow collection. -/
  fresh : Bool

namespace Cursor

def start (text : List Char) : Cursor := ⟨text, 0, 0, 0, true⟩

/-- Behind `n` characters of the line. -/
def advance (n : Nat) (c : Cursor) : Cursor :=
  { c with rest := c.rest.drop n, column := c.column + n, index := c.index + n, fresh := false }

/-- Whether a document ends here. -/
def atEnd (c : Cursor) : Bool := c.rest.isEmpty || (c.column == 0 && isDocumentMarker c.rest)

/-- Whether an indicator stands here, which a blank or a break has to follow. -/
def atIndicator (mark : Char) (c : Cursor) : Bool :=
  match c.rest with
  | x :: r => x == mark && endsWord r
  | [] => false

/-- The characters of the line that satisfy `p`, and the position behind them. -/
def takeWhile (p : Char → Bool) (c : Cursor) : List Char × Cursor :=
  let word := c.rest.takeWhile fun x => p x && !isBreak x
  (word, c.advance word.length)

/-- Reads on between tokens, over blanks, comments and line breaks. Outside of flow collections a tab
may not indent a line. -/
def skipFrom (inFlow : Bool) (line column index : Nat) (fresh comment : Bool) : List Char → Cursor
  | [] => ⟨[], line, column, index, fresh⟩
  | x :: r =>
    if isBreak x then skipFrom inFlow (line + 1) 0 (index + 1) (fresh || !inFlow) false r
    else if comment ∨ x = '#' then skipFrom inFlow line (column + 1) (index + 1) fresh true r
    else if x = ' ' ∨ (x = '\t' ∧ (inFlow ∨ !fresh)) then
      skipFrom inFlow line (column + 1) (index + 1) fresh false r
    else ⟨x :: r, line, column, index, fresh⟩

/-- The start of the next token. -/
def skip (inFlow : Bool) (c : Cursor) : Cursor :=
  skipFrom inFlow c.line c.column c.index c.fresh false c.rest

end Cursor

end RuleGate.Yaml
