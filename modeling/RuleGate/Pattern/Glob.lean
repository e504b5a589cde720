import RuleGate.Pattern.Basic
import RuleGate.Text.Utf8

/-!
# Glob patterns

`?` is one byte, `*` any bytes, `**` between slashes any number of path segments, `[…]` a class with
ranges and negation, braces hold alternatives, which may nest, and a backslash takes the next
character as it is. A glob is matched against the UTF-8 bytes of the whole text, and a character
outside of ASCII in a class stands for each of its bytes.
-/

namespace RuleGate.Glob

inductive GlobError where
  | unclosedClass
  | invalidRange (low high : Char)
  | unopenedAlternates
  | unclosedAlternates
  | danglingEscape
deriving DecidableEq, Repr

namespace GlobError

def reason : GlobError → String
  | unclosedClass => "unclosed character class; missing ']'"
  | invalidRange low high =>
    "invalid range; '" ++ low.toString ++ "' > '" ++ high.toString ++ "'"
  | unopenedAlternates => "unopened alternate group; missing '\x7b' (maybe escape '\x7d' with '[\x7d]'?)"
  | unclosedAlternates => "unclosed alternate group; missing '\x7d' (maybe escape '\x7b' with '[\x7b]'?)"
  | danglingEscape => "dangling '\\'"

/-- The error together with the glob it is about. -/
def message (glob : String) (e : GlobError) : String :=
  "error parsing glob '" ++ glob ++ "': " ++ e.reason

end GlobError

inductive Token where
  | literal (c : Char)
  | any
  | zeroOrMore
  | recursivePrefix
  | recursiveSuffix
  | recursiveMiddle
  | oneOf (negated : Bool) (ranges : List (Char × Char))
  | alternates (branches : List (List Token))

/-- The tokens of one branch, in reverse. -/
abbrev Branch := List Token

/-- The parser between two tokens: the branches of the open groups, innermost first, each group with
its branches in reverse; then the branch outside of all groups; and the last character read. -/
structure Parser where
  groups : List (Branch × List Branch)
  outer : Branch
  previous : Option Char

namespace Parser

/-- The branch that is being read. -/
def branch (p : Parser) : Branch :=
  match p.groups with
  | (b, _) :: _ => b
  | [] => p.outer

def setBranch (p : Parser) (b : Branch) : Parser :=
  match p.groups with
  | (_, bs) :: r => { p with groups := (b, bs) :: r }
  | [] => { p with outer := b }

def push (p : Parser) (t : Token) : Parser := p.setBranch (t :: p.branch)

def openGroup (p : Parser) : Parser := { p with groups := ([], []) :: p.groups }

def closeGroup (p : Parser) : Except GlobError Parser :=
  match p.groups with
  | [] => .error .unopenedAlternates
  | (b, bs) :: r =>
    let p' : Parser := { p with groups := r }
    .ok (p'.push (.alternates ((b :: bs).reverse.map List.reverse)))

/-- A comma starts the next branch inside a group and is itself outside. -/
def comma (p : Parser) : Parser :=
  match p.groups with
  | [] => p.push (.literal ',')
  | (b, bs) :: r => { p with groups := ([], b :: bs) :: r }

/-- Two stars in a row, where `rest` is what follows them; the slash after them may be consumed. -/
def doubleStar (p : Parser) (before : Option Char) (rest : List Char) : Parser × List Char :=
  let plain := (((p.push .zeroOrMore).push .zeroOrMore), rest)
  let atSlash := rest.head? = some '/'
  if p.branch.isEmpty then
    if rest.isEmpty ∨ atSlash then
      ({ p.push .recursivePrefix with previous := some '/' }, rest.drop 1)
    else plain
  else
    let opensBranch := !p.groups.isEmpty && (before = some ',' || before = some '{')
    if before ≠ some '/' ∧ !opensBranch then plain
    else
      let closesBranch := !p.groups.isEmpty &&
        (rest.head? = some ',' || rest.head? = some '}')
      if rest.isEmpty ∨ closesBranch ∨ atSlash then
        let isSuffix := rest.isEmpty || closesBranch
        let rest' := if isSuffix then rest else rest.drop 1
        let previous := if isSuffix then some '*' else some '/'
        match p.branch with
        | .recursivePrefix :: b => ({ p.setBranch (.recursivePrefix :: b) with previous }, rest')
        | .recursiveSuffix :: b => ({ p.setBranch (.recursiveSuffix :: b) with previous }, rest')
        | b =>
          let t := if isSuffix then Token.recursiveSuffix else Token.recursiveMiddle
          ({ p.setBranch (t :: b.drop 1) with previous }, rest')
      else plain

end Parser

/-- Reads the inside of a class after its first character; ranges are kept in reverse. -/
def readClass : Bool → Bool → List (Char × Char) → List Char →
    Except GlobError (List (Char × Char) × List Char)
  | _, _, _, [] => .error .unclosedClass
  | first, inRange, ranges, c :: r =>
    if c = ']' ∧ !first then
      .ok ((if inRange then ('-', '-') :: ranges else ranges).reverse, r)
    else if c = '-' ∧ !first ∧ !inRange then readClass false true ranges r
    else if inRange then
      match ranges with
      | (low, _) :: rs =>
        if c < low then .error (.invalidRange low c) else readClass false false ((low, c) :: rs) r
      | [] => readClass false false [(c, c)] r
    else readClass false false ((c, c) :: ranges) r

/-- Reads the next token off the front of the text. -/
def step (p : Parser) (c : Char) (rest : List Char) : Except GlobError (Parser × List Char) :=
  let q : Parser := { p with previous := some c }
  if c = '?' then .ok (q.push .any, rest)
  else if c = '*' then
    match rest with
    | '*' :: rest' => .ok (q.doubleStar p.previous rest')
    | _ => .ok (q.push .zeroOrMore, rest)
  else if c = '[' then do
    let negated := rest.head? = some '!' || rest.head? = some '^'
    let (ranges, rest') ← readClass true false [] (if negated then rest.drop 1 else rest)
    .ok ({ q.push (.oneOf negated ranges) with previous := some ']' }, rest')
  else if c = '{' then .ok (q.openGroup, rest)
  else if c = '}' then do return (← q.closeGroup, rest)
  else if c = ',' then .ok (q.comma, rest)
  else if c = '\\' then
    match rest with
    | [] => .error .danglingEscape
    | d :: rest' => .ok ({ q.push (.literal d) with previous := some d }, rest')
  else .ok (q.push (.literal c), rest)

/-- Reads tokens to the end of the text; every token takes at least one character. -/
def readTokens : Nat → Parser → List Char → Except GlobError Parser
  | _, p, [] => .ok p
  | 0, p, _ :: _ => .ok p
  | fuel + 1, p, c :: r => do
    let (p, r) ← step p c r
    readTokens fuel p r

def tokens (s : List Char) : Except GlobError (List Token) := do
  let p ← readTokens s.length ⟨[], [], none⟩ s
  if p.groups.isEmpty then .ok p.outer.reverse else .error .unclosedAlternates

def anyByte : UInt8 → Bool := fun _ => true

def isSlash : UInt8 → Bool := fun b => b == 47

def byteLiteral (c : Char) : Pattern UInt8 :=
  .sequence ((String.utf8EncodeChar c).map fun b => .one (· == b))

/-- The bytes that a class item admits: those between the last byte of its low end and the first byte
of its high end, and the other bytes of both. -/
def classRange (low high : Char) : UInt8 → Bool :=
  let ls := String.utf8EncodeChar low
  let hs := String.utf8EncodeChar high
  if low = high then fun b => ls.contains b
  else fun b =>
    ls.contains b || hs.contains b || (ls.getLastD 0 ≤ b && b ≤ hs.headD 0)

def classBytes (negated : Bool) (ranges : List (Char × Char)) : UInt8 → Bool := fun b =>
  (ranges.any fun (low, high) => classRange low high b) != negated

mutual

def tokenPattern : Token → Pattern UInt8
  | .literal c => byteLiteral c
  | .any => .one anyByte
  | .zeroOrMore => .run anyByte
  | .recursivePrefix =>
    .alt (.optional (.one isSlash)) (.seq (.run anyByte) (.one isSlash))
  | .recursiveSuffix => .seq (.one isSlash) (.run anyByte)
  | .recursiveMiddle =>
    .alt (.one isSlash) (.seq (.one isSlash) (.seq (.run anyByte) (.one isSlash)))
  | .oneOf negated ranges => .one (classBytes negated ranges)
  | .alternates branches =>
    match branchPatterns branches with
    | [] => .empty
    | ps => .choice ps

def tokensPattern : List Token → Pattern UInt8
  | [] => .empty
  | t :: r => .seq (tokenPattern t) (tokensPattern r)

/-- The alternatives that hold a token which is written out. -/
def branchPatterns : List (List Token) → List (Pattern UInt8)
  | [] => []
  | ts :: r => if writesNothing ts then branchPatterns r else tokensPattern ts :: branchPatterns r

/-- Whether the tokens are all groups without a written alternative. -/
def writesNothing : List Token → Bool
  | [] => true
  | t :: r => tokenWritesNothing t && writesNothing r

def tokenWritesNothing : Token → Bool
  | .alternates branches => allWriteNothing branches
  | _ => false

def allWriteNothing : List (List Token) → Bool
  | [] => true
  | ts :: r => writesNothing ts && allWriteNothing r

end

/-- The pattern of a glob; a lone `**` matches everything. -/
def pattern : List Token → Pattern UInt8
  | [.recursivePrefix] => .run anyByte
  | ts => tokensPattern ts

/-- Compiles a glob. -/
def compile (s : String) : Except GlobError (Pattern UInt8) := (tokens s.toList).map pattern

def isMatch (p : Pattern UInt8) (s : String) : Bool := p.matchesAll (Bytes.ofString s)

end RuleGate.Glob
