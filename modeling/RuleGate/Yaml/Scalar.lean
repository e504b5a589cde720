import RuleGate.Yaml.Cursor

/-!
# YAML scalars

The four ways to write a text. Plain and quoted scalars may go on over several lines, which are folded:
one line break counts as a space, of several the first is dropped. Block scalars keep their lines or
fold them.
-/

namespace RuleGate.Yaml

/-- What stands between two words of a scalar: blanks, or line breaks with the blanks around them
dropped. -/
inductive Gap where
  | blanks (cs : List Char)
  | breaks (first others : List Char)

namespace Gap

def none : Gap := blanks []

def isNone : Gap → Bool
  | blanks [] => true
  | _ => false

def isBroken : Gap → Bool
  | blanks _ => false
  | breaks _ _ => true

def addBlank (c : Char) : Gap → Gap
  | blanks cs => blanks (cs ++ [c])
  | g => g

def addBreak (c : Char) : Gap → Gap
  | blanks _ => breaks [c] []
  | breaks first others => breaks first (others ++ [c])

/-- The gap as it counts for the text. -/
def text : Gap → List Char
  | blanks cs => cs
  | breaks ['\n'] [] => [' ']
  | breaks ['\n'] others => others
  | breaks first others => first ++ others

end Gap

/-- A scalar while it is read, its text in reverse. -/
structure Scalar where
  text : List Char
  gap : Gap
  line : Nat
  column : Nat
  index : Nat

namespace Scalar

def start (c : Cursor) : Scalar := ⟨[], .none, c.line, c.column, c.index⟩

/-- One character further on the line. -/
def step (s : Scalar) : Scalar := { s with column := s.column + 1, index := s.index + 1 }

/-- Over a line break, which goes into the gap. -/
def breakLine (s : Scalar) (c : Char) : Scalar :=
  { s with gap := s.gap.addBreak c, line := s.line + 1, column := 0, index := s.index + 1 }

def blank (s : Scalar) (c : Char) : Scalar := { s.step with gap := s.gap.addBlank c }

/-- Closes the gap. -/
def join (s : Scalar) : Scalar := { s with text := s.gap.text.reverse ++ s.text, gap := .none }

def push (s : Scalar) (c : Char) : Scalar := { s with text := c :: s.text }

/-- The text, and the position where the scalar ends. -/
def finish (s : Scalar) (fresh : Bool) (rest : List Char) : List Char × Cursor :=
  (s.text.reverse, ⟨rest, s.line, s.column, s.index, fresh⟩)

end Scalar

/-! ## Plain scalars -/

/-- The characters that end a plain scalar in a flow collection. -/
def isFlowIndicator (c : Char) : Bool := c == ',' || c == '[' || c == ']' || c == '{' || c == '}'

/-- Whether a plain scalar can start here. -/
def startsPlain (inFlow : Bool) : List Char → Bool
  | [] => false
  | c :: r =>
    if isBlank c || isBreak c then false
    else if c = '-' then !(endsWord r)
    else if c = '?' ∨ c = ':' then !inFlow && !(endsWord r)
    else !("#&*!|>'\"%@,[]\x7b\x7d".toList.contains c) && c != '\x60'

/-- Whether a plain scalar ends before a word that starts here. -/
def endsPlainBefore (inFlow : Bool) (floor : Nat) (s : Scalar) (here : List Char) : Bool :=
  (s.gap.isBroken && !inFlow && s.column < floor) ||
    (s.column == 0 && isDocumentMarker here) ||
    (!s.gap.isNone && here.head? == some '#')

/-- Whether a plain scalar ends before this character. -/
def endsPlainAt (inFlow : Bool) (c : Char) (r : List Char) : Bool :=
  (c == ':' && endsWord r) || (inFlow && isFlowIndicator c)

/-- Whether a colon stands where a flow collection has no place for it. -/
def isStrayColon (inFlow : Bool) (c : Char) (r : List Char) : Bool :=
  inFlow && c == ':' && r.head?.any fun x => isFlowIndicator x || x == '?'

/-- Reads on a plain scalar whose lines start at the column `floor` or further right. -/
def plainFrom (inFlow : Bool) (floor : Nat) (s : Scalar) : List Char → Option (List Char × Cursor)
  | [] => some (s.finish (s.gap.isBroken && !inFlow) [])
  | c :: r =>
    if isBreak c then plainFrom inFlow floor (s.breakLine c) r
    else if isBlank c then
      if c = '\t' ∧ s.gap.isBroken ∧ s.column < floor then none
      else plainFrom inFlow floor (s.blank c) r
    else if endsPlainBefore inFlow floor s (c :: r) then
      some (s.finish (s.gap.isBroken && !inFlow) (c :: r))
    else if isStrayColon inFlow c r then none
    else if endsPlainAt inFlow c r then some (s.finish (s.gap.isBroken && !inFlow) (c :: r))
    else plainFrom inFlow floor (s.join.push c).step r

def plain (inFlow : Bool) (floor : Nat) (c : Cursor) : Option (List Char × Cursor) :=
  plainFrom inFlow floor (.start c) c.rest

/-! ## Quoted scalars -/

/-- What the next character of a quoted scalar is part of. -/
inductive QuotedMode where
  | text
  /-- A second quote that stands for one. -/
  | secondQuote
  | escape
  /-- A code point of which some hexadecimal digits are still to come. -/
  | code (digits value : Nat)

/-- What a character stands for after a backslash. -/
def escapes : List (Char × Char) := [
  ('0', '\x00'), ('a', '\x07'), ('b', '\x08'), ('t', '\t'), ('\t', '\t'), ('n', '\n'),
  ('v', '\x0b'), ('f', '\x0c'), ('r', '\r'), ('e', '\x1b'), (' ', ' '), ('"', '"'), ('/', '/'),
  ('\\', '\\'), ('N', '\x85'), ('_', '\xa0'), ('L', '\u2028'), ('P', '\u2029')]

/-- How many digits a code point has after a backslash and this letter. -/
def codeDigits (c : Char) : Option Nat :=
  if c = 'x' then some 2 else if c = 'u' then some 4 else if c = 'U' then some 8 else none

def hexValue? (c : Char) : Option Nat :=
  if c.isDigit then some (c.toNat - 48)
  else if 'a' ≤ c ∧ c ≤ 'f' then some (c.toNat - 87)
  else if 'A' ≤ c ∧ c ≤ 'F' then some (c.toNat - 55)
  else none

/-- Reads on a quoted scalar up to its closing quote. -/
def quotedFrom (quote : Char) (s : Scalar) : QuotedMode → List Char → Option (List Char × Cursor)
  | _, [] => none
  | .secondQuote, c :: r => quotedFrom quote (s.push c).step .text r
  | .escape, c :: r =>
    if isBreak c then
      quotedFrom quote { s with gap := .breaks [] [], line := s.line + 1, column := 0 } .text r
    else
      match codeDigits c, escapes.lookup c with
      | some n, _ => quotedFrom quote s.step (.code n 0) r
      | none, some x => quotedFrom quote (s.push x).step .text r
      | none, none => none
  | .code digits value, c :: r =>
    match hexValue? c with
    | none => none
    | some v =>
      let value := value * 16 + v
      if 1 < digits then quotedFrom quote s.step (.code (digits - 1) value) r
      else if value.isValidChar then quotedFrom quote (s.push (Char.ofNat value)).step .text r
      else none
  | .text, c :: r =>
    if isBreak c then quotedFrom quote (s.breakLine c) .text r
    else if isBlank c then quotedFrom quote (s.blank c) .text r
    else if s.column == 0 && isDocumentMarker (c :: r) then none
    else if c = quote then
      if quote = '\'' ∧ r.head? = some '\'' then quotedFrom quote s.join.step .secondQuote r
      else some (s.join.step.finish false r)
    else if quote = '"' ∧ c = '\\' then quotedFrom quote s.join.step .escape r
    else quotedFrom quote (s.join.push c).step .text r

/-- A quoted scalar from its opening quote on. -/
def quoted (c : Cursor) : Option (List Char × Cursor) :=
  match c.rest with
  | quote :: r => quotedFrom quote (Scalar.start c).step .text r
  | [] => none

/-! ## Block scalars -/

/-- What becomes of the line breaks at the end of a block scalar. -/
inductive Chomping where
  | strip
  | clip
  | keep
deriving DecidableEq

/-- The line that opens a block scalar: whether lines are folded, the indentation if it is given, and
what becomes of the last line breaks. -/
structure BlockHeader where
  folded : Bool
  indentation : Option Nat
  chomping : Chomping

def chomping? (c : Char) : Option Chomping :=
  if c = '-' then some .strip else if c = '+' then some .keep else none

def indentation? (c : Char) : Option Nat :=
  if '1' ≤ c ∧ c ≤ '9' then some (c.toNat - 48) else none

/-- The indicators of a header in either order; a zero is refused. -/
def blockHeader (folded : Bool) : List Char → BlockHeader × List Char
  | a :: b :: r =>
    match chomping? a, indentation? a, chomping? b, indentation? b with
    | some k, _, _, some n => (⟨folded, some n, k⟩, r)
    | _, some n, some k, _ => (⟨folded, some n, k⟩, r)
    | some k, _, _, _ => (⟨folded, none, k⟩, b :: r)
    | _, some n, _, _ => (⟨folded, some n, .clip⟩, b :: r)
    | none, none, _, _ => (⟨folded, none, .clip⟩, a :: b :: r)
  | [a] =>
    match chomping? a, indentation? a with
    | some k, _ => (⟨folded, none, k⟩, [])
    | _, some n => (⟨folded, some n, .clip⟩, [])
    | none, none => (⟨folded, none, .clip⟩, [a])
  | [] => (⟨folded, none, .clip⟩, [])

/-- Lines without text: their breaks, the widest of them, and where they end. -/
structure EmptyLines where
  breaks : List Char
  widest : Nat
  column : Nat
  rest : List Char

/-- Reads lines without text. Of `indent` columns at most are taken for indentation; zero means that
the indentation is not known yet. Tabs do not indent. -/
def emptyLines (indent : Nat) (breaks : List Char) (widest column : Nat) :
    List Char → Option EmptyLines
  | [] => some ⟨breaks, max widest column, column, []⟩
  | c :: r =>
    if (indent = 0 ∨ column < indent) ∧ c = ' ' then emptyLines indent breaks widest (column + 1) r
    else if (indent = 0 ∨ column < indent) ∧ c = '\t' then none
    else if isBreak c then emptyLines indent (breaks ++ [c]) (max widest column) 0 r
    else some ⟨breaks, max widest column, column, c :: r⟩

/-- A block scalar between two of its lines. -/
structure BlockText where
  text : List Char
  /-- The break of the last line. -/
  lineBreak : List Char
  /-- The breaks of empty lines after it. -/
  emptyBreaks : List Char
  /-- The last line starts with a blank. -/
  indented : Bool

namespace BlockText

/-- The breaks before a line as they count for the text. -/
def gap (folded : Bool) (b : BlockText) (indented : Bool) : List Char :=
  if folded && b.lineBreak == ['\n'] && !b.indented && !indented then
    if b.emptyBreaks.isEmpty then [' '] else b.emptyBreaks
  else b.lineBreak ++ b.emptyBreaks

/-- Adds a line. -/
def addLine (folded : Bool) (b : BlockText) (line lineBreak emptyBreaks : List Char) : BlockText :=
  let indented := line.head?.any isBlank
  ⟨b.text ++ b.gap folded indented ++ line, lineBreak, emptyBreaks, indented⟩

/-- The text with as many line breaks at its end as are wanted. -/
def finish (chomping : Chomping) (b : BlockText) : List Char :=
  match chomping with
  | .strip => b.text
  | .clip => b.text ++ b.lineBreak
  | .keep => b.text ++ b.lineBreak ++ b.emptyBreaks

end BlockText

/-- Reads the lines of a block scalar, at most `fuel` of them. -/
def blockLines (folded : Bool) (indent : Nat) :
    Nat → BlockText → EmptyLines → Option (BlockText × EmptyLines)
  | 0, _, _ => none
  | fuel + 1, b, e =>
    if e.column = indent ∧ !e.rest.isEmpty then do
      let line := e.rest.takeWhile fun c => !isBreak c
      let rest := e.rest.dropWhile fun c => !isBreak c
      let next ← emptyLines indent [] 0 0 (rest.drop 1)
      blockLines folded indent fuel (b.addLine folded line (rest.take 1) next.breaks) next
    else some (b, e)

/-- The position behind a block scalar. The line number is only compared with those of positions
before it. -/
def afterBlock (c : Cursor) (e : EmptyLines) : Cursor :=
  ⟨e.rest, c.line + 1, e.column, c.index + (c.rest.length - e.rest.length), true⟩

/-- The rest of a header: a comment may follow blanks, or nothing. -/
def afterHeader? (s : List Char) : Option (List Char) :=
  let s := s.dropWhile isBlank
  let s := if s.head? = some '#' then s.dropWhile fun c => !isBreak c else s
  match s with
  | [] => some []
  | c :: r => if isBreak c then some r else none

/-- A block scalar from its indicator on. Its lines start at the column `floor` or further right; the
first line with text decides unless the header does. -/
def block (floor : Nat) (c : Cursor) : Option (List Char × Cursor) := do
  let (header, rest) := blockHeader (c.rest.head? == some '>') (c.rest.drop 1)
  let rest ← afterHeader? rest
  let given := match header.indentation with
    | some n => floor - 1 + n
    | none => 0
  let first ← emptyLines given [] 0 0 rest
  let indent := if given = 0 then max (max first.widest floor) 1 else given
  let (b, e) ← blockLines header.folded indent (rest.length + 1) ⟨[], [], first.breaks, false⟩ first
  return (b.finish header.chomping, afterBlock c e)

end RuleGate.Yaml
