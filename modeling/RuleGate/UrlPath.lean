import RuleGate.Error
import RuleGate.Text.Split

/-!
# Slash-separated paths

Lexical cleaning of paths: empty and `.` segments disappear, `..` takes the segment before it away, and
a rooted path never climbs above its root. Paths of URLs also lose their fragment and keep a trailing
slash.
-/

namespace RuleGate.UrlPath

/-- What one segment does to the segments kept so far, which are in reverse. -/
def step (rooted : Bool) (kept : List (List Char)) (segment : List Char) : List (List Char) :=
  if segment = [] ∨ segment = ['.'] then kept
  else if segment = ['.', '.'] then
    match kept with
    | last :: rest => if last = ['.', '.'] then (if rooted then kept else segment :: kept) else rest
    | [] => if rooted then [] else [segment]
  else segment :: kept

/-- The segments that remain of a list of segments, in order. -/
def resolve (rooted : Bool) (segments : List (List Char)) : List (List Char) :=
  (segments.foldl (step rooted) []).reverse

def isRooted (s : List Char) : Bool := s.head? == some '/'

def segments (s : List Char) : List (List Char) := Text.splitOn '/' s

/-- Cleans a path. Nothing is left as `/` if the path is rooted and as `.` otherwise. -/
def cleanChars (s : List Char) : List Char :=
  let joined := Text.join ['/'] (resolve (isRooted s) (segments s))
  if isRooted s then '/' :: joined
  else if joined.isEmpty then ['.']
  else joined

def clean (s : String) : String := String.ofList (cleanChars s.toList)

def endsInSlash (s : List Char) : Bool := s.getLast? == some '/'

/-- Cleans the path of a URL: the fragment is dropped and a trailing slash stays. -/
def cleanUrlChars (s : List Char) : Compiled (List Char) :=
  let path := Text.before '#' s
  if path.isEmpty then .error (.invalidArguments "empty path")
  else
    let cleaned := cleanChars path
    if 1 < s.length ∧ endsInSlash s ∧ !endsInSlash cleaned then .ok (cleaned ++ ['/']) else .ok cleaned

def cleanUrl (s : String) : Compiled String := (cleanUrlChars s.toList).map String.ofList

end RuleGate.UrlPath
