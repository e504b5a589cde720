import RuleGate.Arguments
import RuleGate.Exchange.Memo
import RuleGate.Help
import RuleGate.Password.Hash
import RuleGate.Template.Variable

/-!
# Checks

The single questions that conditions ask about an exchange, each with the name and the usage under
which rules find it.
-/

namespace RuleGate

/-- What a request came over. -/
inductive Protocol where
  | http
  | https
  | h3
deriving DecidableEq, Repr

namespace Protocol

def compile (s : String) : Compiled Protocol :=
  if s = "http" then .ok http
  else if s = "https" then .ok https
  else if s = "h3" then .ok h3
  else .error (.invalidArguments ("invalid proto " ++ Text.quoted s ++ ", expect http, https or h3"))

end Protocol

/-- A question about an exchange. Where a matcher is optional, its absence asks for presence. -/
inductive Check where
  | header (name : HeaderName) (value : Option Matcher)
  | responseHeader (name : HeaderName) (value : Option Matcher)
  | query (key : String) (value : Option Matcher)
  | cookie (key : String) (value : Option Matcher)
  | form (key : String) (value : Option Matcher)
  | bodyForm (key : String) (value : Option Matcher)
  | method (name : String)
  | host (m : Matcher)
  | path (m : Matcher)
  | remote (n : Network)
  | credentials (user : String) (hash : PasswordHash)
  | route (m : Matcher)
  | protocol (p : Protocol)
  | status (r : StatusRange)

namespace Check

/-- Some value matches, or there is one if nothing is asked of it. -/
def anyValue (value : Option Matcher) (values : List String) : Bool :=
  match value with
  | none => !values.isEmpty
  | some m => values.any m.test

/-- The value matches, or is not empty if nothing is asked of it. -/
def oneValue (value : Option Matcher) (v : String) : Bool :=
  match value with
  | none => !v.isEmpty
  | some m => m.test v

/-- A path with a slash in front, unless it is empty. -/
def rooted (path : String) : String :=
  if path.isEmpty ∨ path.startsWith "/" then path else "/" ++ path

/-- Whether the network holds the address of the peer. -/
def holdsPeer (n : Network) (peer : Option IpAddress) : Bool :=
  match peer with
  | none => false
  | some ip => if n.isHost then n.address == ip else n.contains ip

def isSecure (r : Request) : Bool := r.scheme == "https"

def overProtocol (r : Request) : Protocol → Bool
  | .http => !isSecure r
  | .https => isSecure r
  | .h3 => isSecure r && r.version == .http3

def test (x : Exchange) : Check → Bool
  | header name value => anyValue value ((x.request.headers.getAll name).map Bytes.toStringLossy)
  | responseHeader name value => anyValue value ((x.draft.headers.getAll name).map Bytes.toStringLossy)
  | query key value => anyValue value (x.query.getAll key)
  | cookie key value =>
    anyValue value ((x.cookies.filter fun c => c.name == key).map (·.value))
  | form key value => oneValue value ((x.form.get? key).getD "")
  | bodyForm key value => oneValue value ((x.bodyForm.get? key).getD "")
  | method name => x.request.method == name
  | host m => m.test x.request.host
  | path m => m.test (rooted x.path)
  | remote n => holdsPeer n x.peerIp?
  | credentials user hash =>
    match x.credentials? with
    | some c => user == c.user && hash.accepts c.password
    | none => false
  | route m => m.test ((x.request.route.map (·.name)).getD "")
  | protocol p => overProtocol x.request p
  | status r => r.contains x.draft.status

/-- The names of the checks. -/
inductive Kind where
  | header
  | responseHeader
  | query
  | cookie
  | form
  | bodyForm
  | method
  | host
  | path
  | remote
  | credentials
  | route
  | protocol
  | status
deriving DecidableEq, Repr

namespace Kind

def name : Kind → String
  | header => "header"
  | responseHeader => "resp_header"
  | query => "query"
  | cookie => "cookie"
  | form => "form"
  | bodyForm => "postform"
  | method => "method"
  | host => "host"
  | path => "path"
  | remote => "remote"
  | credentials => "basic_auth"
  | route => "route"
  | protocol => "proto"
  | status => "status"

/-- All kinds, by name in alphabetic order. -/
def all : List Kind := [
  credentials, cookie, form, header, host, method, path, bodyForm, protocol, query, remote,
  responseHeader, route, status]

def ofName? (s : String) : Option Kind := all.find? fun k => k.name == s

/-- Whether the answer depends on the response. -/
def readsResponse : Kind → Bool
  | responseHeader => true
  | status => true
  | _ => false

def matcherNote : List String := [
  "value supports string, glob pattern, or regex pattern, e.g.:",
  "  \"user\"",
  "  glob(\"user*\")",
  "  regex(\"user.*\")"]

/-- The usage of a check that takes a key and possibly a value. -/
def keyHelp (command what : String) : Help :=
  ⟨command, matcherNote, [("key", "the " ++ what ++ " key"), ("[value]", "the " ++ what ++ " value")]⟩

def help : Kind → Help
  | header => keyHelp "header" "header"
  | responseHeader => keyHelp "resp_header" "response header"
  | query => keyHelp "query" "query"
  | cookie => keyHelp "cookie" "cookie"
  | form => keyHelp "form" "form"
  | bodyForm => keyHelp "postform" "form"
  | method => ⟨"method", [], [("method", "the http method")]⟩
  | host =>
    ⟨"host",
      ["supports string, glob pattern, or regex pattern, e.g.:",
        "  host example.com",
        "  host glob(example*.com)",
        "  host regex(example\\w+\\.com)"],
      [("host", "the host name without port")]⟩
  | path =>
    ⟨"path",
      ["a bare pattern is a glob; string and regex are also supported, e.g.:",
        "  path /path/to/*",
        "  path string(/path/to)",
        "  path regex(^/path/to/.*$)"],
      [("path", "the request path")]⟩
  | remote => ⟨"remote", [], [("ip|cidr", "the remote ip or cidr")]⟩
  | credentials =>
    ⟨"basic_auth", [],
      [("username", "the username"), ("password", "the password encrypted with bcrypt")]⟩
  | route =>
    ⟨"route",
      ["supports string, glob pattern, or regex pattern, e.g.:",
        "  route example",
        "  route glob(example*)"],
      [("route", "the route name")]⟩
  | protocol => ⟨"proto", ["h3 also requires TLS"], [("proto", "one of http, https, h3")]⟩
  | status =>
    ⟨"status",
      ["supported formats are:",
        "  - <status>",
        "  - <status>-<status>",
        "  - 1xx, 2xx, 3xx, 4xx, 5xx"],
      [("status", "the status code range")]⟩

end Kind

/-- A key that names a header, and possibly a matcher. -/
def headerArguments (args : List String) : Compiled (HeaderName × Option Matcher) := do
  let (key, value) ← Arguments.keyOptionalMatcher args
  return (← HeaderName.compile key, value)

def compileCredentials (args : List String) : Compiled Check := do
  let (user, hash) ← Arguments.two args
  match PasswordHash.parse hash with
  | .ok h => return credentials user h
  | .error e => throw (.invalidArguments ("invalid bcrypt hash: " ++ e.message))

/-- Compiles the arguments of a check. -/
def compile (args : List String) : Kind → Compiled Check
  | .header => do let (n, v) ← headerArguments args; return header n v
  | .responseHeader => do let (n, v) ← headerArguments args; return responseHeader n v
  | .query => do let (k, v) ← Arguments.keyOptionalMatcher args; return query k v
  | .cookie => do let (k, v) ← Arguments.keyOptionalMatcher args; return cookie k v
  | .form => do let (k, v) ← Arguments.keyOptionalMatcher args; return form k v
  | .bodyForm => do let (k, v) ← Arguments.keyOptionalMatcher args; return bodyForm k v
  | .method => do return method (← Arguments.method args)
  | .host => do return host (← Arguments.matcher args)
  | .path => do return path (← Arguments.pathMatcher args)
  | .remote => do return remote (← Arguments.network args)
  | .credentials => compileCredentials args
  | .route => do return route (← Arguments.matcher args)
  | .protocol => do return protocol (← Protocol.compile (← Arguments.one args))
  | .status => do return status (← Arguments.statusRange args)

end Check

end RuleGate
