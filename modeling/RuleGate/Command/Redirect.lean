import RuleGate.Scene
import RuleGate.UrlPath

/-!
# Redirects

The location of a redirect, which is relative to the directory of the request path unless it is a URL
or a rooted path, and the response that carries it.
-/

namespace RuleGate.Redirect

/-- The path up to its last slash, without it; the root itself is `/`. -/
def directory (path : List Char) : List Char :=
  match Text.cutLast? '/' path with
  | some (front, _) => if front.isEmpty then ['/'] else front
  | none => ['/']

/-- The cleaned path of a target in a directory. -/
def resolve (directory target : List Char) : List Char :=
  let joined := Text.dropEndWhile (· == '/') directory ++ '/' :: target
  match UrlPath.cleanUrlChars joined with
  | .ok p => p
  | .error _ => ['/']

def isAbsolute (target : List Char) : Bool :=
  Text.hasPiece "://".toList target || target.head? == some '/'

/-- Where a target leads from a request path. The query of the target stays as it is. -/
def locationChars (path target : List Char) : List Char :=
  if isAbsolute target then target
  else
    let resolved := resolve (directory path) (Text.before '?' target)
    match Text.cut? '?' target with
    | some (_, query) => resolved ++ '?' :: query
    | none => resolved

def location (path target : String) : String :=
  String.ofList (locationChars path.toList target.toList)

/-- A character in the text of a page. -/
def escapeChar (c : Char) : List Char :=
  if c = '&' then "&amp;".toList
  else if c = '<' then "&lt;".toList
  else if c = '>' then "&gt;".toList
  else if c = '"' then "&#34;".toList
  else if c = '\'' then "&#39;".toList
  else [c]

def escape (s : String) : String := String.ofList (s.toList.flatMap escapeChar)

/-- The page for those who do not follow the redirect. -/
def page (location : String) : String :=
  "<a href=\"" ++ escape location ++ "\">Temporary Redirect</a>.\n\n"

def setLocation (location : String) (d : ResponseDraft) : ResponseDraft :=
  match HeaderValue.ofString? location with
  | some v => d.withHeaders (·.insert .location v)
  | none => d

/-- What is said of a location that no header can hold. -/
def warnings (location : String) : List LogEvent :=
  match HeaderValue.ofString? location with
  | some _ => []
  | none =>
    [.warn ("invalid redirect location " ++ Text.quoted location ++ ": " ++
      HeaderValue.invalidMessage)]

/-- The response; only methods that read pages get a content type, and only `GET` gets a page. -/
def respond (method location : String) (d : ResponseDraft) : ResponseDraft :=
  let d := (setLocation location d.resetBody).setStatus .temporaryRedirect
  let d :=
    if method = "GET" ∨ method = "HEAD" then
      d.withHeaders (·.insert .contentType (Bytes.ofString "text/html; charset=utf-8"))
    else d
  if method = "GET" then d.write (Bytes.ofString (page location)) else d

def run (target : String) (s : Scene) : Scene :=
  let request := s.exchange.request
  let location := location request.uri.path target
  (s.withDraft (respond request.method location)).withWorld (·.noteEvents (warnings location))

end RuleGate.Redirect
