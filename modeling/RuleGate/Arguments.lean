import RuleGate.Files.FileSystem
import RuleGate.Http.Uri
import RuleGate.LogLevel
import RuleGate.Matcher
import RuleGate.Net.Network
import RuleGate.Text.Quoted
import RuleGate.UrlPath

/-!
# Argument readers

Readers of the positional arguments of a check or a command. Each gives a typed value, or the error
that says what was expected.
-/

namespace RuleGate

/-- A range of status codes, both ends included. -/
structure StatusRange where
  first : Nat
  last : Nat
deriving DecidableEq, Repr

def StatusRange.contains (r : StatusRange) (s : Status) : Bool := r.first ≤ s.code && s.code ≤ r.last

namespace Arguments

def one : List String → Compiled String
  | [a] => .ok a
  | _ => .error (.arity .one)

def two : List String → Compiled (String × String)
  | [a, b] => .ok (a, b)
  | _ => .error (.arity .two)

/-- A key, and possibly a matcher for its value. -/
def keyOptionalMatcher : List String → Compiled (String × Option Matcher)
  | [key] => .ok (key, none)
  | [key, value] => do return (key, some (← Matcher.parse value))
  | _ => .error (.arity .keyOptionalValue)

/-- One matcher; a bare text is compared exactly. -/
def matcher (args : List String) : Compiled Matcher := do Matcher.parse (← one args)

/-- The path of a URL, cleaned. -/
def urlPath (args : List String) : Compiled String := do UrlPath.cleanUrl (← one args)

/-- A matcher for paths. The expression is cleaned as the path of a URL; a bare one is a glob. -/
def pathMatcher (args : List String) : Compiled Matcher := do
  Matcher.parseWithDefault .glob (← urlPath args).toList

def readUri (s : String) : Compiled Uri :=
  match Uri.ofString s with
  | .ok u => .ok u
  | .error e => .error (.invalidArguments e.message)

/-- A URL with a host; `http` is added where there is no scheme. -/
def absoluteUrl (args : List String) : Compiled Uri := do
  let raw ← one args
  let u ← readUri (if Text.hasPiece "://".toList raw.toList then raw else "http://" ++ raw)
  if (u.host?.getD "").isEmpty then throw (.invalidArguments "missing host")
  return u

/-- A URL in any form. -/
def url (args : List String) : Compiled Uri := do readUri (← one args)

/-- The path of an existing file or directory. -/
def existingPath (files : FileSystem) (args : List String) : Compiled String := do
  let path := FilePath.tidy (← one args)
  match files.stat path with
  | .ok _ => return path
  | .error e => throw (.invalidArguments (path ++ ": " ++ e.message))

def knownMethods : List String :=
  ["GET", "HEAD", "POST", "PUT", "PATCH", "DELETE", "CONNECT", "OPTIONS", "TRACE"]

/-- A standard request method in any letter case. -/
def method (args : List String) : Compiled String := do
  let upper := String.ofList (Text.toAsciiUpper (← one args).toList)
  if knownMethods.contains upper then return upper
  throw (.subject upper (.invalidArguments "unknown http method"))

def level (raw : String) : Compiled LogLevel :=
  match LogLevel.parse? raw with
  | some l => .ok l
  | none => .error (.invalidArguments ("invalid log level " ++ Text.quoted raw))

/-- A network; an address alone is the network of one host. -/
def network (args : List String) : Compiled Network := do
  let raw ← one args
  let invalid := RuleError.invalidArguments (raw ++ ": " ++ IpAddress.syntaxMessage)
  if raw.contains '/' then
    match Network.parse? raw.toList with
    | some n => return n.truncate
    | none => throw invalid
  else
    match IpAddress.parse? raw.toList with
    | some a => return .ofAddress a
    | none => throw invalid

/-- The least and the greatest status code that rules may name. -/
def statusBounds : StatusRange := ⟨100, 599⟩

def outOfBounds (code : Int) : RuleError :=
  .invalidArguments ("status code must be between 100 and 599, got " ++ toString code)

/-- One end of a range of status codes. -/
def statusBound (s : List Char) : Compiled Nat :=
  match Text.readUInt16 s with
  | .error e => .error (.invalidArguments (Text.quoted (String.ofList s) ++ ": " ++ e.message))
  | .ok code => if statusBounds.contains ⟨code⟩ then .ok code else .error (outOfBounds code)

def statusClass? (s : String) : Option StatusRange :=
  ["1xx", "2xx", "3xx", "4xx", "5xx"].idxOf? s |>.map fun i => ⟨(i + 1) * 100, (i + 1) * 100 + 99⟩

/-- A status code, a range `first-last`, or a class such as `4xx`. -/
def statusRange (args : List String) : Compiled StatusRange := do
  let raw ← one args
  match statusClass? raw with
  | some r => return r
  | none =>
    let (first, last) := (Text.cut? '-' raw.toList).getD (raw.toList, raw.toList)
    let first ← statusBound first
    let last ← statusBound last
    if last < first then
      throw (.invalidArguments (raw ++ ": range start is greater than its end"))
    return ⟨first, last⟩

/-- A single status code. -/
def statusCode (args : List String) : Compiled Status := do
  let raw ← one args
  match Text.readInt64 raw.toList with
  | .error _ => throw (.invalidArguments ("status code must be an integer, got " ++ raw))
  | .ok code =>
    if 100 ≤ code ∧ code ≤ 599 then return ⟨code.toNat⟩
    throw (outOfBounds code)

end Arguments

end RuleGate
