import RuleGate.Directive
import RuleGate.Template.Variable
import RuleGate.Text.WordChar

/-!
# Templates

Text with references to variables. A static variable is a dollar and its name; a dynamic one adds its
arguments in round brackets; `$$` is a dollar, and a dollar before an opening brace stays as it is. A
template is read once, so nothing can be wrong with it when it is expanded.
-/

namespace RuleGate

inductive Segment where
  | literal (text : String)
  | static (v : StaticVariable)
  | dynamic (v : DynamicVariable)
deriving DecidableEq, Repr

structure Template where
  segments : List Segment
deriving DecidableEq, Repr

namespace Template

/-- The characters of variable names. -/
def isNameChar (c : Char) : Bool := c.isAlpha || c == '_'

/-- Blanks that arguments lose outside of quotes. -/
def isArgumentBlank (c : Char) : Bool := c == ' ' || c == '\t' || c == '\n' || c == '\r'

/-- Ends an argument that was written without quotes; an empty one does not count. -/
def endArgument (arg : List Char) (args : List String) : List String :=
  if arg.isEmpty then args else String.ofList arg.reverse :: args

/-- Reads arguments up to the closing bracket, with the open quote, the current argument and the
arguments before it, both in reverse. Gives the arguments and what follows the bracket. -/
def scanArgs : Option Char → List Char → List String → List Char →
    Compiled (List String × List Char)
  | some _, _, _, [] => .error .unterminatedQuotes
  | none, _, _, [] => .error .unterminatedParenthesis
  | some q, arg, args, c :: r =>
    if c = q then scanArgs none [] (String.ofList arg.reverse :: args) r
    else scanArgs (some q) (c :: arg) args r
  | none, arg, args, c :: r =>
    if Directive.isQuote c then scanArgs (some c) arg args r
    else if c = ')' then .ok ((endArgument arg args).reverse, r)
    else if c = ',' then scanArgs none [] (endArgument arg args) r
    else if isArgumentBlank c then scanArgs none arg args r
    else scanArgs none (c :: arg) args r

theorem scanArgs_length {q : Option Char} {arg : List Char} {args : List String} {s : List Char}
    {out : List String × List Char} (h : scanArgs q arg args s = .ok out) :
    out.2.length < s.length := by
  induction s generalizing q arg args with
  | nil => cases q <;> simp [scanArgs] at h
  | cons c r ih =>
    cases q with
    | some q =>
      simp only [scanArgs] at h
      split at h <;> exact Nat.lt_succ_of_lt (ih h)
    | none =>
      simp only [scanArgs] at h
      split at h
      · exact Nat.lt_succ_of_lt (ih h)
      · split at h
        · cases h; simp
        · split at h
          · exact Nat.lt_succ_of_lt (ih h)
          · split at h <;> exact Nat.lt_succ_of_lt (ih h)

/-- A reference to a variable of the given name, with what follows the name. `position` is where the
name starts. -/
def parseReference (position : Nat) (name : String) (rest : List Char) :
    Compiled (Segment × List Char) :=
  if DynamicVariable.names.contains name then
    match rest with
    | '(' :: r =>
      match scanArgs none [] [] r with
      | .error e => .error (.subject ("func " ++ Text.quoted name) e)
      | .ok (args, r) =>
        match DynamicVariable.compile name args with
        | .ok v => .ok (.dynamic v, r)
        | .error e => .error (.subject name e)
    | _ =>
      .error (.subject ("func " ++ Text.quoted name ++ " at position " ++ toString position)
        .unterminatedParenthesis)
  else
    match StaticVariable.ofName? name with
    | some v => .ok (.static v, rest)
    | none => .error (.subject name .unexpectedVariable)

theorem parseReference_length {position : Nat} {name : String} {rest : List Char}
    {out : Segment × List Char} (h : parseReference position name rest = .ok out) :
    out.2.length ≤ rest.length := by
  unfold parseReference at h
  split at h
  · split at h
    · split at h
      · cases h
      · rename_i hs
        split at h
        · cases h
          exact Nat.le_of_lt (Nat.lt_succ_of_lt (scanArgs_length hs))
        · cases h
    · cases h
  · split at h
    · cases h; exact Nat.le_refl _
    · cases h

/-- A segment for the literal text read so far, unless there is none. -/
def literalSegment (literal : List Char) : List Segment :=
  if literal.isEmpty then [] else [.literal (String.ofList literal.reverse)]

/-- Reads on after the literal text so far, which is in reverse. `size` is the length of the whole
template in bytes, from which positions are counted. -/
def parseFrom (size : Nat) (literal : List Char) (s : List Char) : Compiled (List Segment) :=
  match s with
  | [] => .ok (literalSegment literal)
  | '$' :: r =>
    let position := size - (Text.utf8Encode r).length
    match r with
    | [] => .error .unterminatedVariable
    | '$' :: r => parseFrom size ('$' :: literal) r
    | '\x7b' :: r => parseFrom size ('\x7b' :: '$' :: literal) r
    | c :: r =>
      if isNameChar c then
        let name := c :: r.takeWhile isNameChar
        match _h : parseReference position (String.ofList name) (r.dropWhile isNameChar) with
        | .error e => .error e
        | .ok (segment, rest) =>
          match parseFrom size [] rest with
          | .error e => .error e
          | .ok segments => .ok (literalSegment literal ++ segment :: segments)
      else
        .error (.subject ("around $ at position " ++ toString position) .unterminatedVariable)
  | c :: r => parseFrom size (c :: literal) r
termination_by s.length
decreasing_by
  · decreasing_tactic
  · decreasing_tactic
  · have h1 : rest.length ≤ (r.dropWhile isNameChar).length := parseReference_length _h
    have h2 := (List.dropWhile_sublist (l := r) isNameChar).length_le
    exact Nat.lt_succ_of_lt (Nat.lt_succ_of_le (Nat.le_trans h1 h2))
  · decreasing_tactic

def parse (s : String) : Compiled Template := do
  return ⟨← parseFrom s.utf8ByteSize [] s.toList⟩

/-- The template that expands to a text as it is. -/
def ofText (s : String) : Template := if s.isEmpty then ⟨[]⟩ else ⟨[.literal s]⟩

def empty : Template := ⟨[]⟩

def Segment.isLiteral : Segment → Bool
  | .literal _ => true
  | _ => false

/-- Whether the expansion is the same for every exchange. -/
def isLiteral (t : Template) : Bool := t.segments.all Segment.isLiteral

def Segment.readsResponse : Segment → Bool
  | .literal _ => false
  | .static v => v.readsResponse
  | .dynamic v => v.readsResponse

/-- Whether some variable reads the response. -/
def readsResponse (t : Template) : Bool := t.segments.any Segment.readsResponse

def Segment.expand (x : Exchange) : Segment → String
  | .literal s => s
  | .static v => v.value x
  | .dynamic v => v.value x

def expand (t : Template) (x : Exchange) : String := String.join (t.segments.map (Segment.expand x))

/-- Whether a text looks as if it refers to a variable: a dollar before a word character. -/
def looksExpandable : List Char → Bool
  | '$' :: c :: r => Text.isWordChar c || looksExpandable (c :: r)
  | _ :: r => looksExpandable r
  | [] => false

end Template

end RuleGate
