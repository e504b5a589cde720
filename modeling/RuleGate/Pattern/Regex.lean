import RuleGate.Pattern.Basic
import RuleGate.Text.Blank
import RuleGate.Text.Case
import RuleGate.Text.WordChar

/-!
# Regular expressions

The expression language of `regex(…)` matchers: literals, classes with ranges, nesting and set
operations, Unicode character classes, anchors and word boundaries, groups with flags, alternation
and greedy or lazy repetition. There is no look-around and there are no back-references. Since only
the question whether a text contains a match is ever asked, laziness and captures have no effect.

The reader goes through the expression once with a stack of open groups, and gives no more than the
fact that an expression is malformed.
-/

namespace RuleGate.Regex

/-- The flags in force. -/
structure Flags where
  ignoreCase : Bool
  multiLine : Bool
  dotAll : Bool
  verbose : Bool
  crlf : Bool
  unicode : Bool

def Flags.initial : Flags := ⟨false, false, false, false, false, true⟩

abbrev CharClass := Char → Bool

def isAsciiWord (c : Char) : Bool := c.isAlphanum || c == '_'

def isAsciiSpace (c : Char) : Bool := Text.isAsciiBlank c || c == '\x0b'

def wordClass (f : Flags) : CharClass := if f.unicode then Text.isWordChar else isAsciiWord

def digitClass (f : Flags) : CharClass := if f.unicode then Text.isDecimalDigit else Char.isDigit

def spaceClass (f : Flags) : CharClass := if f.unicode then Text.isBlank else isAsciiSpace

/-- Adds the case variants of the members. -/
def foldClass (f : Flags) (p : CharClass) : CharClass :=
  if f.ignoreCase then fun c => (Text.caseVariants c).any p else p

def literalClass (f : Flags) (c : Char) : CharClass := foldClass f (· == c)

/-- What one escape, or one plain character, stands for. -/
inductive Atom where
  | literal (c : Char)
  | set (p : CharClass)
  | edge (p : Option Char → Option Char → Bool)

def isWordAt (f : Flags) (c : Option Char) : Bool :=
  match c with
  | some c => wordClass f c
  | none => false

/-- Hexadecimal digits up to a closing brace. -/
def readBraced (s : List Char) : Option (Char × List Char) :=
  let body := s.takeWhile (· ≠ '\x7d')
  let rest := s.drop body.length
  let digits := body.filter fun c => !Text.isBlank c
  let value := digits.foldl (fun acc c => acc * 16 + (c.toLower.toNat - (if c.isDigit then 48 else 87))) 0
  if rest.isEmpty ∨ digits.isEmpty ∨ 8 < digits.length ∨
      !(digits.all fun c => c.isDigit || ('a' ≤ c.toLower && c.toLower ≤ 'f')) then none
  else if h : value.isValidChar then some (Char.ofNatAux value h, rest.drop 1) else none

/-- Exactly `n` hexadecimal digits. -/
def readHex (n : Nat) (s : List Char) : Option (Char × List Char) :=
  if s.length < n then none
  else (readBraced (s.take n ++ ['\x7d'])).bind fun (c, r) =>
    if (s.take n).any Text.isBlank then none else if r.isEmpty then some (c, s.drop n) else none

/-- Characters that may be escaped to stand for themselves: ASCII that is no letter, digit, `<` or
`>`. -/
def isMeta (c : Char) : Bool := c.toNat < 0x80 && !c.isAlphanum && c != '<' && c != '>'

/-- What follows a backslash. -/
def readEscape (f : Flags) : List Char → Option (Atom × List Char)
  | [] => none
  | c :: r =>
    let word := wordClass f
    let digit := digitClass f
    let space := spaceClass f
    match c with
    | 'd' => some (.set digit, r)
    | 'D' => some (.set fun c => !digit c, r)
    | 'w' => some (.set word, r)
    | 'W' => some (.set fun c => !word c, r)
    | 's' => some (.set space, r)
    | 'S' => some (.set fun c => !space c, r)
    | 'b' => some (.edge fun x y => isWordAt f x != isWordAt f y, r)
    | 'B' => some (.edge fun x y => isWordAt f x == isWordAt f y, r)
    | '<' => some (.edge fun x y => !isWordAt f x && isWordAt f y, r)
    | '>' => some (.edge fun x y => isWordAt f x && !isWordAt f y, r)
    | 'A' => some (.edge fun x _ => x.isNone, r)
    | 'z' => some (.edge fun _ y => y.isNone, r)
    | 'n' => some (.literal '\n', r)
    | 't' => some (.literal '\t', r)
    | 'r' => some (.literal '\r', r)
    | 'f' => some (.literal '\x0c', r)
    | 'v' => some (.literal '\x0b', r)
    | 'a' => some (.literal '\x07', r)
    | 'x' =>
      match r with
      | '\x7b' :: r => (readBraced r).map fun (c, r) => (.literal c, r)
      | _ => (readHex 2 r).map fun (c, r) => (.literal c, r)
    | 'u' =>
      match r with
      | '\x7b' :: r => (readBraced r).map fun (c, r) => (.literal c, r)
      | _ => (readHex 4 r).map fun (c, r) => (.literal c, r)
    | 'U' =>
      match r with
      | '\x7b' :: r => (readBraced r).map fun (c, r) => (.literal c, r)
      | _ => (readHex 8 r).map fun (c, r) => (.literal c, r)
    | c => if isMeta c then some (.literal c, r) else none

/-- The named classes between `[:` and `:]`. -/
def asciiClass? : String → Option CharClass
  | "alnum" => some Char.isAlphanum
  | "alpha" => some Char.isAlpha
  | "ascii" => some fun c => c.toNat < 128
  | "blank" => some fun c => c == ' ' || c == '\t'
  | "cntrl" => some fun c => c.toNat < 32 || c.toNat == 127
  | "digit" => some Char.isDigit
  | "graph" => some fun c => 33 ≤ c.toNat && c.toNat ≤ 126
  | "lower" => some Char.isLower
  | "print" => some fun c => 32 ≤ c.toNat && c.toNat ≤ 126
  | "punct" => some fun c => 33 ≤ c.toNat && c.toNat ≤ 126 && !c.isAlphanum
  | "space" => some isAsciiSpace
  | "upper" => some Char.isUpper
  | "word" => some isAsciiWord
  | "xdigit" => some fun c => c.isDigit || ('a' ≤ c.toLower && c.toLower ≤ 'f')
  | _ => none

/-- Reads a named class whose `[` has been read. -/
def readNamed (s : List Char) : Option (CharClass × List Char) :=
  match s with
  | ':' :: r =>
    let negated := r.head? = some '^'
    let r := if negated then r.drop 1 else r
    let name := r.takeWhile (· ≠ ':')
    match r.drop name.length with
    | ':' :: ']' :: rest =>
      (asciiClass? (String.ofList name)).map fun p => ((fun c => p c != negated), rest)
    | _ => none
  | _ => none

/-- A set operation inside brackets. -/
inductive SetOp where
  | intersection
  | difference
  | symmetric

def SetOp.apply : SetOp → CharClass → CharClass → CharClass
  | intersection, p, q => fun c => p c && q c
  | difference, p, q => fun c => p c && !q c
  | symmetric, p, q => fun c => p c != q c

/-- An open bracket: its negation, the left side of a pending operation, and the items so far. -/
structure Bracket where
  negated : Bool
  left : Option (CharClass × SetOp)
  items : List CharClass

namespace Bracket

def union (b : Bracket) : CharClass := fun c => b.items.any fun p => p c

/-- The left side combined with the items read since. -/
def value (b : Bracket) : CharClass :=
  match b.left with
  | some (p, op) => op.apply p b.union
  | none => b.union

def add (b : Bracket) (p : CharClass) : Bracket := { b with items := p :: b.items }

def operate (b : Bracket) (op : SetOp) : Bracket :=
  { b with left := some (b.value, op), items := [] }

/-- The class once the bracket closes. -/
def close (f : Flags) (b : Bracket) : CharClass :=
  let p := foldClass f b.value
  fun c => p c != b.negated

end Bracket

/-- Blanks and comments are skipped where the verbose flag is on. -/
def skipVerbose (f : Flags) : List Char → List Char
  | [] => []
  | c :: r =>
    if !f.verbose then c :: r
    else if Text.isBlank c then skipVerbose f r
    else if c = '#' then skipVerbose f (r.dropWhile (· ≠ '\n'))
    else c :: r
termination_by s => s.length
decreasing_by
  · simp
  · have := List.dropWhile_suffix (l := r) (· ≠ '\n')
    have := this.length_le
    simp only [List.length_cons]
    omega

/-- The opening of a bracket: negation, leading hyphens, and a leading closing bracket as a
literal. -/
def openBracket (f : Flags) (s : List Char) : Bracket × List Char :=
  let s := skipVerbose f s
  let negated := s.head? = some '^'
  let s := if negated then skipVerbose f (s.drop 1) else s
  let hyphens := s.takeWhile (· = '-')
  let r := s.drop hyphens.length
  let b : Bracket := ⟨negated, none, hyphens.map fun _ => (· == '-')⟩
  if hyphens.isEmpty ∧ r.head? = some ']' then (b.add (· == ']'), r.drop 1) else (b, r)

/-- One item of a bracket that is no operator: a literal or a class. -/
def readItem (f : Flags) : List Char → Option (Atom × List Char)
  | [] => none
  | '\\' :: r => readEscape f r
  | c :: r => some (.literal c, r)

/-- A literal, a class or a range. -/
def readRange (f : Flags) (s : List Char) : Option (CharClass × List Char) := do
  let (first, r) ← readItem f s
  let r := skipVerbose f r
  let single : Option (CharClass × List Char) :=
    match first with
    | .literal c => some ((· == c), r)
    | .set p => some (p, r)
    | .edge _ => none
  match r with
  | '-' :: r' =>
    let r' := skipVerbose f r'
    if r'.head? = some ']' ∨ r'.head? = some '-' then single
    else
      let (second, rest) ← readItem f r'
      match first, second with
      | .literal a, .literal b => if b < a then none else some ((fun c => a ≤ c && c ≤ b), rest)
      | _, _ => none
  | _ => single

/-- Reads brackets to the end of the outermost one; every turn takes a character. -/
def readBrackets (f : Flags) : Nat → List Bracket → List Char → Option (CharClass × List Char)
  | 0, _, _ => none
  | _, [], _ => none
  | fuel + 1, b :: outer, s =>
    match skipVerbose f s with
    | [] => none
    | '[' :: r =>
      match readNamed r with
      | some (p, rest) => readBrackets f fuel (b.add p :: outer) rest
      | none =>
        let (inner, rest) := openBracket f r
        readBrackets f fuel (inner :: b :: outer) rest
    | ']' :: r =>
      let p := b.close f
      match outer with
      | [] => some (p, r)
      | o :: os => readBrackets f fuel (o.add p :: os) r
    | '&' :: '&' :: r => readBrackets f fuel (b.operate .intersection :: outer) r
    | '-' :: '-' :: r => readBrackets f fuel (b.operate .difference :: outer) r
    | '~' :: '~' :: r => readBrackets f fuel (b.operate .symmetric :: outer) r
    | s =>
      match readRange f s with
      | none => none
      | some (p, r) => readBrackets f fuel (b.add p :: outer) r

/-- Reads a class whose opening bracket has been read. -/
def readClass (f : Flags) (s : List Char) : Option (CharClass × List Char) :=
  let (b, r) := openBracket f s
  readBrackets f (s.length + 1) [b] r

/-- A decimal number with blanks around it. -/
def readCount (s : List Char) : Option Nat × List Char :=
  let s := Text.trimStart s
  let ds := s.takeWhile Char.isDigit
  let r := Text.trimStart (s.drop ds.length)
  if ds.isEmpty ∨ 10 < ds.length then (none, r)
  else (some (ds.foldl (fun acc c => acc * 10 + (c.toNat - 48)) 0), r)

/-- The counts of a repetition whose opening brace has been read. -/
def readCounts (s : List Char) : Option ((Nat × Option Nat) × List Char) :=
  match readCount s with
  | (some low, '\x7d' :: r) => some ((low, some low), r)
  | (some low, ',' :: r) =>
    match Text.trimStart r with
    | '\x7d' :: r => some ((low, none), r)
    | r =>
      match readCount r with
      | (some high, '\x7d' :: r) => if high < low then none else some ((low, some high), r)
      | _ => none
  | _ => none

/-- The flags with one of them switched. -/
def Flags.switch? (f : Flags) (on : Bool) : Char → Option Flags
  | 'i' => some { f with ignoreCase := on }
  | 'm' => some { f with multiLine := on }
  | 's' => some { f with dotAll := on }
  | 'x' => some { f with verbose := on }
  | 'R' => some { f with crlf := on }
  | 'u' => some { f with unicode := on }
  | 'U' => some f
  | _ => none

/-- Reads flags up to a colon or a closing bracket, each at most once; the result tells whether a
group opens. `fresh` is true where no flag has been read since the opening or the hyphen. -/
def readFlags (f : Flags) (seen : List Char) (fresh : Bool) :
    List Char → Option (Flags × Bool × List Char)
  | [] => none
  | c :: r =>
    let on := !seen.contains '-'
    if c = ')' then if fresh then none else some (f, false, r)
    else if c = ':' then if fresh && !on then none else some (f, true, r)
    else if seen.contains c then none
    else if c = '-' then readFlags f (c :: seen) true r
    else
      match f.switch? on c with
      | some f => readFlags f (c :: seen) false r
      | none => none

/-- An open group: the flags outside of it, its finished alternatives, and the current one, both in
reverse. `repeatable` tells whether a repetition may follow. -/
structure Group where
  outside : Flags
  alternatives : List (Pattern Char)
  items : List (Pattern Char)
  repeatable : Bool

namespace Group

def start (f : Flags) : Group := ⟨f, [], [], false⟩

def add (g : Group) (p : Pattern Char) : Group := { g with items := p :: g.items, repeatable := true }

def nextAlternative (g : Group) : Group :=
  { g with alternatives := .sequence g.items.reverse :: g.alternatives, items := [],
           repeatable := false }

def close (g : Group) : Pattern Char := .choice g.nextAlternative.alternatives.reverse

/-- Replaces the last item by a repetition of it. -/
def repeatLast (g : Group) (low : Nat) (high : Option Nat) : Option Group :=
  match g.items with
  | p :: ps => if g.repeatable then some { g with items := p.repeated low high :: ps } else none
  | [] => none

end Group

def isLineBreak (f : Flags) (c : Option Char) : Bool :=
  match c with
  | some c => c == '\n' || (f.crlf && c == '\r')
  | none => true

/-- The start of the text, or of a line. -/
def startEdge (f : Flags) (before after : Option Char) : Bool :=
  if f.multiLine then
    isLineBreak f before && !(f.crlf && before == some '\r' && after == some '\n')
  else before.isNone

/-- The end of the text, or of a line. -/
def endEdge (f : Flags) (before after : Option Char) : Bool :=
  if f.multiLine then
    isLineBreak f after && !(f.crlf && before == some '\r' && after == some '\n')
  else after.isNone

def dotClass (f : Flags) : CharClass :=
  if f.dotAll then fun _ => true
  else if f.crlf then fun c => c != '\n' && c != '\r'
  else fun c => c != '\n'

/-- The name of a group and what follows its closing angle bracket. -/
def readGroupName (s : List Char) : Option (List Char) :=
  let name := s.takeWhile (· ≠ '>')
  let isStart := fun (c : Char) => Text.isWordChar c && !Text.isDecimalDigit c
  let ok := match name with
    | c :: r => isStart c && r.all fun c => Text.isWordChar c || c == '.' || c == '[' || c == ']'
    | [] => false
  match s.drop name.length with
  | '>' :: rest => if ok then some rest else none
  | _ => none

/-- Skips the mark of a lazy repetition. -/
def dropLazy (f : Flags) (s : List Char) : List Char :=
  match skipVerbose f s with
  | '?' :: r => r
  | _ => s

/-- Reads an expression to its end; every turn takes a character. -/
def readExpression : Nat → Flags → Group → List Group → List Char → Option (Pattern Char)
  | 0, _, _, _, _ => none
  | fuel + 1, f, g, outer, s =>
    match skipVerbose f s with
    | [] => if outer.isEmpty then some g.close else none
    | '(' :: '?' :: 'P' :: '<' :: r => do
      readExpression fuel f (.start f) (g :: outer) (← readGroupName r)
    | '(' :: '?' :: '<' :: r => do
      readExpression fuel f (.start f) (g :: outer) (← readGroupName r)
    | '(' :: '?' :: r => do
      let (f', opens, rest) ← readFlags f [] true r
      if opens then readExpression fuel f' (.start f) (g :: outer) rest
      else readExpression fuel f' { g with repeatable := false } outer rest
    | '(' :: r => readExpression fuel f (.start f) (g :: outer) r
    | ')' :: r =>
      match outer with
      | [] => none
      | o :: os => readExpression fuel g.outside (o.add g.close) os r
    | '|' :: r => readExpression fuel f g.nextAlternative outer r
    | '[' :: r => do
      let (p, rest) ← readClass f r
      readExpression fuel f (g.add (.one p)) outer rest
    | '*' :: r => do readExpression fuel f (← g.repeatLast 0 none) outer (dropLazy f r)
    | '+' :: r => do readExpression fuel f (← g.repeatLast 1 none) outer (dropLazy f r)
    | '?' :: r => do readExpression fuel f (← g.repeatLast 0 (some 1)) outer (dropLazy f r)
    | '\x7b' :: r => do
      let ((low, high), rest) ← readCounts r
      readExpression fuel f (← g.repeatLast low high) outer (dropLazy f rest)
    | '.' :: r => readExpression fuel f (g.add (.one (dotClass f))) outer r
    | '^' :: r => readExpression fuel f (g.add (.edge (startEdge f))) outer r
    | '$' :: r => readExpression fuel f (g.add (.edge (endEdge f))) outer r
    | '\\' :: r => do
      let (u, rest) ← readEscape f r
      let p := match u with
        | .literal c => Pattern.one (literalClass f c)
        | .set p => .one (foldClass f p)
        | .edge p => .edge p
      readExpression fuel f (g.add p) outer rest
    | c :: r => readExpression fuel f (g.add (.one (literalClass f c))) outer r

/-- Compiles an expression; `none` if it is malformed. -/
def compile? (s : String) : Option (Pattern Char) :=
  readExpression (s.length + 1) .initial (.start .initial) [] s.toList

def isMatch (p : Pattern Char) (s : String) : Bool := p.matchesSome s.toList

end RuleGate.Regex
