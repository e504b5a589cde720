import RuleGate.Error
import RuleGate.Exchange.Memo

/-!
# Variables

What a template can refer to: static variables, which are plain names, and dynamic ones, which take a
key and possibly an index. A value that is missing reads as the empty text.
-/

namespace RuleGate

inductive StaticVariable where
  | requestMethod
  | requestScheme
  | requestHost
  | requestPort
  | requestPath
  | requestAddress
  | requestQuery
  | requestUrl
  | requestUri
  | requestContentType
  | requestContentLength
  | remoteHost
  | remotePort
  | remoteAddress
  | upstreamName
  | upstreamScheme
  | upstreamHost
  | upstreamPort
  | upstreamAddress
  | upstreamUrl
  | responseContentType
  | responseContentLength
  | statusCode
deriving DecidableEq, Repr

namespace StaticVariable

def all : List StaticVariable := [
  requestMethod, requestScheme, requestHost, requestPort, requestPath, requestAddress, requestQuery,
  requestUrl, requestUri, requestContentType, requestContentLength, remoteHost, remotePort,
  remoteAddress, upstreamName, upstreamScheme, upstreamHost, upstreamPort, upstreamAddress,
  upstreamUrl, responseContentType, responseContentLength, statusCode]

def name : StaticVariable → String
  | requestMethod => "req_method"
  | requestScheme => "req_scheme"
  | requestHost => "req_host"
  | requestPort => "req_port"
  | requestPath => "req_path"
  | requestAddress => "req_addr"
  | requestQuery => "req_query"
  | requestUrl => "req_url"
  | requestUri => "req_uri"
  | requestContentType => "req_content_type"
  | requestContentLength => "req_content_length"
  | remoteHost => "remote_host"
  | remotePort => "remote_port"
  | remoteAddress => "remote_addr"
  | upstreamName => "upstream_name"
  | upstreamScheme => "upstream_scheme"
  | upstreamHost => "upstream_host"
  | upstreamPort => "upstream_port"
  | upstreamAddress => "upstream_addr"
  | upstreamUrl => "upstream_url"
  | responseContentType => "resp_content_type"
  | responseContentLength => "resp_content_length"
  | statusCode => "status_code"

def ofName? (s : String) : Option StaticVariable := all.find? fun v => v.name == s

/-- Whether the value comes from the response. -/
def readsResponse : StaticVariable → Bool
  | responseContentType => true
  | responseContentLength => true
  | statusCode => true
  | _ => false

def withoutFragment (s : String) : String := String.ofList (Text.before '#' s.toList)

/-- The port of a target, or the usual one of its scheme. -/
def portOrDefault? (u : Uri) : Option Nat :=
  u.port?.or (if u.scheme = some "https" then some 443 else if u.scheme = some "http" then some 80 else none)

def hostAndPort? (u : Uri) : Option String := do
  let host ← u.host?
  match portOrDefault? u with
  | some port => some (host ++ ":" ++ toString port)
  | none => some host

/-- A value of the target that the route leads to. -/
def ofUpstream (r : Request) (f : Uri → Option String) : String :=
  ((r.route.bind (·.upstream)).bind f).getD ""

def ofPeer (r : Request) (f : SocketAddress → String) : String := (r.peer.map f).getD ""

/-- The value of a variable that does not read the response. -/
def requestValue (x : Exchange) : StaticVariable → String
  | requestMethod => x.request.method
  | requestScheme => x.request.scheme
  | requestHost => x.request.host
  | requestPort => x.request.hostPort
  | requestPath => x.path
  | requestAddress => x.request.hostWithPort
  | requestQuery => withoutFragment (x.request.uri.query?.getD "")
  | requestUrl => x.request.url
  | requestUri => withoutFragment x.request.pathQuery
  | requestContentType => x.request.contentType
  | requestContentLength => toString x.request.contentLength
  | remoteHost => ofPeer x.request fun a => a.ip.text
  | remotePort => ofPeer x.request fun a => toString a.port
  | remoteAddress => ofPeer x.request SocketAddress.text
  | upstreamName => (x.request.route.map (·.name)).getD ""
  | upstreamScheme => ofUpstream x.request (·.scheme)
  | upstreamHost => ofUpstream x.request Uri.host?
  | upstreamPort => ofUpstream x.request fun u => (portOrDefault? u).map toString
  | upstreamAddress => ofUpstream x.request hostAndPort?
  | upstreamUrl => ofUpstream x.request fun u => some u.text
  | responseContentType => ""
  | responseContentLength => ""
  | statusCode => ""

def value (x : Exchange) : StaticVariable → String
  | responseContentType => ((x.draft.headers.get? .contentType).map Bytes.toStringLossy).getD ""
  | responseContentLength => toString x.draft.body.length
  | statusCode => toString x.draft.status.code
  | v => requestValue x v

end StaticVariable

/-- Where a dynamic variable looks its key up. -/
inductive DynamicSource where
  | header (name : HeaderName)
  | responseHeader (name : HeaderName)
  | query
  | form
  | bodyForm
deriving DecidableEq, Repr

/-- A variable with the key it looks up and the index of the value among those of the key. -/
structure DynamicVariable where
  source : DynamicSource
  key : String
  index : Nat
deriving DecidableEq, Repr

/-- Reads the name of a header in the argument of a check, a field or a variable. -/
def HeaderName.compile (key : String) : Compiled HeaderName :=
  match HeaderName.parse? key with
  | some n => .ok n
  | none => .error (.invalidArguments ("invalid header name " ++ Text.quoted key))

namespace DynamicVariable

def names : List String := ["header", "resp_header", "arg", "form", "postform"]

def compileSource (name key : String) : Compiled DynamicSource :=
  if name = "header" then (HeaderName.compile key).map .header
  else if name = "resp_header" then (HeaderName.compile key).map .responseHeader
  else if name = "arg" then .ok .query
  else if name = "form" then .ok .form
  else if name = "postform" then .ok .bodyForm
  else .error (.subject name .unexpectedVariable)

def compileKey : List String → Compiled (String × Nat)
  | [] => .error .noArgument
  | [key] => .ok (key, 0)
  | [key, index] =>
    match Text.readUInt64 index.toList with
    | .ok n => .ok (key, n)
    | .error _ => .error (.invalidArguments ("invalid index " ++ Text.quoted index))
  | _ => .error (.arity .oneOrTwo)

def compile (name : String) (args : List String) : Compiled DynamicVariable := do
  let (key, index) ← compileKey args
  return ⟨← compileSource name key, key, index⟩

def readsResponse (v : DynamicVariable) : Bool :=
  match v.source with
  | .responseHeader _ => true
  | _ => false

/-- All values of the key, in order. -/
def values (x : Exchange) (v : DynamicVariable) : List String :=
  match v.source with
  | .header name => (x.request.headers.getAll name).map Bytes.toStringLossy
  | .responseHeader name => (x.draft.headers.getAll name).map Bytes.toStringLossy
  | .query => x.query.getAll v.key
  | .form => x.form.getAll v.key
  | .bodyForm => x.bodyForm.getAll v.key

def value (x : Exchange) (v : DynamicVariable) : String := (v.values x)[v.index]?.getD ""

end DynamicVariable

end RuleGate
