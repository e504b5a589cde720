import RuleGate.Cookie
import RuleGate.Credentials
import RuleGate.Http.Message
import RuleGate.Params

/-!
# Values derived from a request

What rules read from a request that is not written in it literally: the decoded path, the host, the
query and form parameters, cookies, credentials, and the address of the peer.
-/

namespace RuleGate

/-- Splits `host:port`, where an IPv6 literal in brackets loses them. None without a port. -/
def splitHostPort? (address : String) : Option (String × String) :=
  match address.toList with
  | '[' :: rest => do
    let (host, tail) ← Text.cut? ']' rest
    let port ← Text.dropPrefix? [':'] tail
    some (String.ofList host, String.ofList port)
  | s => do
    let (host, port) ← Text.cutLast? ':' s
    if host.contains ':' then none else some (String.ofList host, String.ofList port)

namespace Request

/-- The decoded path, or the path as it is if it does not decode to text. -/
def decodedPath (r : Request) : String := Percent.decodeOrSelf r.uri.path

/-- The authority of the target, or else the `Host` header if it is visible ASCII. -/
def hostWithPort (r : Request) : String :=
  match r.uri.authority with
  | some a => a
  | none => (r.headers.getVisible? .host).getD ""

def host (r : Request) : String :=
  match splitHostPort? r.hostWithPort with
  | some (host, _) => host
  | none => r.hostWithPort

def hostPort (r : Request) : String :=
  match splitHostPort? r.hostWithPort with
  | some (_, port) => port
  | none => ""

/-- The scheme of the target, or else that of the connection. -/
def scheme (r : Request) : String := r.uri.scheme.getD (if r.tls then "https" else "http")

/-- Path and query as in the request line. -/
def pathQuery (r : Request) : String := r.uri.pathQuery?.getD "/"

/-- The full URL if the host is known, or else path and query. -/
def url (r : Request) : String :=
  if r.uri.scheme.isSome && r.uri.authority.isSome then r.uri.text
  else if r.hostWithPort.isEmpty then r.pathQuery
  else r.scheme ++ "://" ++ r.hostWithPort ++ r.pathQuery

def contentType (r : Request) : String := (r.headers.getVisible? .contentType).getD ""

/-- The declared length, or else that of the body. -/
def contentLength (r : Request) : Nat :=
  match (r.headers.getVisible? .contentLength).map fun s => Text.readUInt64 s.toList with
  | some (.ok n) => n
  | _ => r.body.length

def queryParams (r : Request) : Params := Params.parse (r.uri.query?.getD "")

/-- The lines of the `Cookie` headers that are visible ASCII. -/
def cookieLines (r : Request) : List String :=
  (r.headers.getAll .cookie).filterMap HeaderValue.toVisible?

def cookies (r : Request) : List Cookie := Cookie.parseAll r.cookieLines

def credentials? (r : Request) : Option BasicCredentials :=
  (r.headers.getVisible? .authorization).bind BasicCredentials.parse?

/-- The address of the peer; an IPv4 address mapped into IPv6 counts as the IPv4 address. -/
def peerIp? (r : Request) : Option IpAddress := r.peer.map fun a => a.ip.unmapped

/-- Methods whose body may be a form. -/
def hasFormMethod (r : Request) : Bool := ["POST", "PUT", "PATCH"].contains r.method

def hasFormType (r : Request) : Bool :=
  Text.eqIgnoreAsciiCase (Text.trim (Text.before ';' r.contentType.toList))
    "application/x-www-form-urlencoded".toList

/-- The parameters of an urlencoded body. -/
def bodyParams (r : Request) : Params :=
  if r.hasFormMethod && r.hasFormType then Params.parse r.body.toStringLossy else .empty

end Request

end RuleGate
