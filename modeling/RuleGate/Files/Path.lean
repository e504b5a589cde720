import RuleGate.Text.Split

/-!
# File paths

Paths of files as texts: their components, joining, parents and extensions. Empty components and `.`
components say nothing, except for a `.` at the front of a relative path.
-/

namespace RuleGate.FilePath

/-- The components of a path that is not split any further; the slash in front is none. -/
def rawComponents (s : List Char) : List (List Char) := Text.splitOn '/' s

def isAbsolute (s : List Char) : Bool := s.head? == some '/'

/-- The components with a meaning. -/
def components (s : List Char) : List (List Char) :=
  let cs := (rawComponents s).filter fun c => !c.isEmpty && c != ['.']
  if (rawComponents s).head? == some ['.'] then ['.'] :: cs else cs

/-- The order of paths: by their components, from the first on. -/
def precedes (a b : String) : Bool :=
  List.lex (components a.toList) (components b.toList) fun c d => List.lex c d fun x y => x < y

/-- The path that names the same file, where a leading `.`, doubled slashes and inner dots count for
nothing; nothing left is `.`. -/
def tidy (s : String) : String :=
  let cs := (components s.toList).filter (· != ['.'])
  let body := Text.join ['/'] cs
  if isAbsolute s.toList then String.ofList ('/' :: body)
  else if body.isEmpty then "."
  else String.ofList body

/-- Two paths with the same key are opened once. -/
structure Key where
  absolute : Bool
  components : List (List Char)
deriving DecidableEq, Repr

def key (s : String) : Key := ⟨isAbsolute s.toList, components s.toList⟩

/-- Appends a relative path; joining nothing leaves a trailing slash. -/
def join (base name : String) : String :=
  if base.isEmpty ∨ base.endsWith "/" then base ++ name else base ++ "/" ++ name

/-- Drops trailing slashes and `/.` endings, as long as a component in front of them remains. -/
def dropTail (s : List Char) : List Char :=
  go s.reverse
where
  /-- Works on the reversed path. -/
  go : List Char → List Char
    | '/' :: r => if r.isEmpty then ['/'] else go r
    | '.' :: '/' :: r => if r.isEmpty then ['/'] else go r
    | s => s.reverse

/-- The path without its last component; none if there is no component to drop. -/
def parent? (s : String) : Option String :=
  match (components s.toList) with
  | [] => none
  | _ =>
    match Text.cutLast? '/' (dropTail s.toList) with
    | none => some ""
    | some (front, _) =>
      if front.all (· == '/') ∧ isAbsolute s.toList then some "/"
      else some (String.ofList (dropTail front))

/-- The last component, unless it is `..`. -/
def fileName? (s : String) : Option String :=
  match (components s.toList).getLast? with
  | none => none
  | some c => if c = ['.', '.'] ∨ c = ['.'] then none else some (String.ofList c)

/-- What follows the last dot of the file name, unless that dot starts the name. -/
def extension? (s : String) : Option String :=
  match fileName? s with
  | none => none
  | some name =>
    match Text.cutLast? '.' name.toList with
    | some (stem, ext) => if stem.isEmpty then none else some (String.ofList ext)
    | none => none

end RuleGate.FilePath
