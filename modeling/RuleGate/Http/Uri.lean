import RuleGate.Text.Case
import RuleGate.Text.Integer
import RuleGate.Text.Split
import RuleGate.Text.Utf8

/-!
# Request targets

The four forms of a request target: origin form (`/path?query`), absolute form
(`scheme://authority/path?query`), authority form (`host:port`) and the asterisk. A fragment is
dropped when a target is read. The path of an absolute target may be empty in writing, in which case
it counts as `/`.
-/

namespace RuleGate

inductive UriError where
  | invalidChar
  | invalidScheme
  | invalidAuthority
  | invalidFormat
  | missingSlash
  | tooLong
  | empty
  | schemeTooLong
deriving DecidableEq, Repr

namespace UriError

def message : UriError → String
  | invalidChar => "invalid uri character"
  | invalidScheme => "invalid scheme"
  | invalidAuthority => "invalid authority"
  | invalidFormat => "invalid format"
  | missingSlash => "path does not start with slash"
  | tooLong => "uri too long"
  | empty => "empty string"
  | schemeTooLong => "scheme too long"

end UriError

/-- A path as written, possibly empty, and the query after the question mark, if there is one. -/
structure PathQuery where
  path : String
  query : Option String
deriving DecidableEq, Repr

namespace PathQuery

/-- The longest text of a target, in bytes. -/
def maxLength : Nat := 65534

/-- Characters allowed in a path besides those that end it. -/
def isPathChar (c : Char) : Bool :=
  let n := c.toNat
  n == 0x21 || n == 0x22 || (0x24 ≤ n && n ≤ 0x3B) || n == 0x3D || (0x40 ≤ n && n ≤ 0x5F) ||
    (0x61 ≤ n && n ≤ 0x7E) || 0x7F ≤ n

/-- Characters allowed in a query. -/
def isQueryChar (c : Char) : Bool :=
  let n := c.toNat
  n == 0x21 || (0x24 ≤ n && n ≤ 0x3B) || n == 0x3D || 0x3F ≤ n

/-- Reads a path and a query; the fragment has already been cut off. -/
def ofChars (s : List Char) : Except UriError PathQuery :=
  let path := Text.before '?' s
  let query := (Text.cut? '?' s).map (·.2)
  if path.all isPathChar && (query.getD []).all isQueryChar then
    .ok ⟨String.ofList path, query.map String.ofList⟩
  else .error .invalidChar

/-- Reads the part of a target that follows its authority. -/
def parseTail (s : List Char) : Except UriError PathQuery := ofChars (Text.before '#' s)

/-- Reads a path and query that stand alone: the text is `*`, or starts with `/` or `?`, or is
empty. -/
def parse (s : List Char) : Except UriError PathQuery :=
  if maxLength < (Text.utf8Encode s).length then .error .tooLong
  else
    match parseTail s with
    | .error e => .error e
    | .ok pq =>
      if pq.path.isEmpty ∨ pq.path.startsWith "/" ∨ (pq.path = "*" ∧ pq.query = none) then .ok pq
      else .error .missingSlash

/-- The text as written; an empty one shows as `/`. -/
def text (pq : PathQuery) : String :=
  match pq.query with
  | some q => pq.path ++ "?" ++ q
  | none => if pq.path.isEmpty then "/" else pq.path

end PathQuery

/-- A request target. The scheme and the authority are absent where the form has none. -/
structure Uri where
  scheme : Option String
  authority : Option String
  pathQuery : PathQuery
deriving DecidableEq, Repr

namespace Uri

/-- Letters, digits, `+`, `-`, `.` and `~`. -/
def isSchemeChar (c : Char) : Bool := c.isAlphanum || "+-.~".toList.contains c

/-- Characters that an authority may hold, besides the percent sign. -/
def isAuthorityChar (c : Char) : Bool := c.isAlphanum || "!$&'()*+,-.:;=@[]_~".toList.contains c

/-- Where the reading of an authority stands: colons and percent signs since the last `@` or `]`,
the brackets met, and whether the last character was `@`. -/
structure AuthorityScan where
  colons : Nat := 0
  opened : Bool := false
  closed : Bool := false
  percent : Bool := false
  endsInAt : Bool := false

/-- One character of an authority. -/
def AuthorityScan.step (a : AuthorityScan) (c : Char) : Except UriError AuthorityScan :=
  let b := { a with endsInAt := false }
  if c = ':' then
    if a.colons ≥ 8 then .error .invalidAuthority else .ok { b with colons := a.colons + 1 }
  else if c = '[' then
    if a.percent || a.opened then .error .invalidAuthority else .ok { b with opened := true }
  else if c = ']' then
    if !a.opened || a.closed then .error .invalidAuthority
    else .ok { b with closed := true, colons := 0, percent := false }
  else if c = '@' then .ok { a with colons := 0, percent := false, endsInAt := true }
  else if c = '%' then .ok { b with percent := true }
  else if isAuthorityChar c then .ok b
  else .error .invalidChar

/-- Whether the reading may stop here. -/
def AuthorityScan.accepts (a : AuthorityScan) : Bool :=
  a.opened == a.closed && a.colons ≤ 1 && !a.endsInAt && !a.percent

def endsAuthority (c : Char) : Bool := c == '/' || c == '?' || c == '#'

/-- Splits the authority off the front of a text. -/
def parseAuthority (s : List Char) : Except UriError (List Char × List Char) := do
  let front := s.takeWhile (fun c => !endsAuthority c)
  let scan ← front.foldlM AuthorityScan.step {}
  if scan.accepts then .ok (front, s.drop front.length) else .error .invalidAuthority

/-- Splits `scheme://` off the front of a text, if it is there. `http` and `https` are read in any
letter case and kept in lower case. -/
def parseScheme (s : List Char) : Except UriError (Option (String × List Char)) :=
  let lower := Text.toAsciiLower s
  match Text.dropPrefix? "http://".toList lower, Text.dropPrefix? "https://".toList lower with
  | some _, _ => .ok (some ("http", s.drop 7))
  | _, some _ => .ok (some ("https", s.drop 8))
  | none, none =>
    let name := s.takeWhile isSchemeChar
    match Text.dropPrefix? "://".toList (s.drop name.length) with
    | none => .ok none
    | some rest =>
      if 3 < s.length then
        if 64 < name.length then .error .schemeTooLong
        else .ok (some (String.ofList name, rest))
      else .ok none

/-- Reads a target. -/
def parse (s : List Char) : Except UriError Uri :=
  if PathQuery.maxLength < (Text.utf8Encode s).length then .error .tooLong
  else
    match s with
    | [] => .error .empty
    | ['*'] => .ok ⟨none, none, ⟨"*", none⟩⟩
    | '/' :: _ => do return ⟨none, none, ← PathQuery.parseTail s⟩
    | _ => do
      match ← parseScheme s with
      | none =>
        let (authority, rest) ← parseAuthority s
        if rest.isEmpty then .ok ⟨none, some (String.ofList authority), ⟨"", none⟩⟩
        else if s.length = 1 then .error .invalidChar
        else .error .invalidFormat
      | some (scheme, afterScheme) =>
        let (authority, rest) ← parseAuthority afterScheme
        if afterScheme.isEmpty then .error .empty
        else if authority.isEmpty then .error .invalidFormat
        else .ok ⟨some scheme, some (String.ofList authority), ← PathQuery.parseTail rest⟩

def ofString (s : String) : Except UriError Uri := parse s.toList

/-- Whether the target has a path, possibly one that is empty in writing. -/
def hasPath (u : Uri) : Bool :=
  u.scheme.isSome || !(u.pathQuery.path.isEmpty && u.pathQuery.query.isNone)

/-- The path; empty in authority form only. -/
def path (u : Uri) : String :=
  if u.hasPath then (if u.pathQuery.path.isEmpty then "/" else u.pathQuery.path) else ""

def query? (u : Uri) : Option String := u.pathQuery.query

/-- The path and query as written, unless the target is in authority form. -/
def pathQuery? (u : Uri) : Option String :=
  if u.scheme.isSome || u.authority.isNone then some u.pathQuery.text else none

/-- The target as text. -/
def text (u : Uri) : String :=
  let scheme := match u.scheme with | some s => s ++ "://" | none => ""
  let query := match u.query? with | some q => "?" ++ q | none => ""
  scheme ++ u.authority.getD "" ++ u.path ++ query

/-- The authority after its user information. -/
def hostPort (authority : List Char) : List Char :=
  match Text.cutLast? '@' authority with
  | some (_, rest) => rest
  | none => authority

/-- The host of an authority; the brackets of an IPv6 literal stay. -/
def hostOf (authority : String) : String :=
  let s := hostPort authority.toList
  if s.head? = some '[' then String.ofList (Text.before ']' s ++ [']'])
  else String.ofList (Text.before ':' s)

/-- The port after the last colon of an authority, if it is a number. -/
def portOf? (authority : String) : Option Nat := do
  let (_, digits) ← Text.cutLast? ':' authority.toList
  (Text.readUInt16 digits).toOption

def host? (u : Uri) : Option String := u.authority.map hostOf

def port? (u : Uri) : Option Nat := u.authority.bind portOf?

/-- The target with another path and query, if its form allows one: a target with an authority and
no scheme takes none. -/
def withPathQuery? (u : Uri) (pq : PathQuery) : Option Uri :=
  if u.scheme.isNone && u.authority.isSome then none else some { u with pathQuery := pq }

end Uri

end RuleGate
