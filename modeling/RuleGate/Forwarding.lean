import RuleGate.Error
import RuleGate.Exchange.Derived
import RuleGate.World

/-!
# Forwarding

Sending a request on to an upstream: the target it gets there, the headers that end at a hop, and the
headers that tell the upstream where the request came from.
-/

namespace RuleGate.Forwarding

/-- Joins two paths with exactly one slash between them. -/
def joinPath (base path : String) : String :=
  match base.endsWith "/", path.startsWith "/" with
  | true, true => base ++ String.ofList (path.toList.drop 1)
  | false, false => base ++ "/" ++ path
  | _, _ => base ++ path

/-- The text of the target for a request target on an upstream that has an authority. The path of the
upstream comes before that of the request; the query is that of the request if it has one. -/
def targetText (upstream : Uri) (authority : String) (request : Uri) : String :=
  let base := if upstream.path = "/" then "" else upstream.path
  let query := match request.query?.or upstream.query? with
    | some q => "?" ++ q
    | none => ""
  upstream.scheme.getD "http" ++ "://" ++ authority ++ joinPath base request.path ++ query

/-- The target for a request target on an upstream. -/
def target (upstream request : Uri) : Except CommandError Uri :=
  match upstream.authority with
  | none => .error (.upstream (upstream.text ++ ": missing host"))
  | some authority =>
    let text := targetText upstream authority request
    match Uri.ofString text with
    | .ok u => .ok u
    | .error e => .error (.upstream (text ++ ": " ++ e.message))

/-- The headers that always end at a hop. -/
def hopByHop : List HeaderName := [
  ⟨"connection"⟩, ⟨"proxy-connection"⟩, ⟨"keep-alive"⟩, ⟨"proxy-authenticate"⟩,
  ⟨"proxy-authorization"⟩, ⟨"te"⟩, ⟨"trailer"⟩, ⟨"transfer-encoding"⟩, ⟨"upgrade"⟩]

/-- The names in the `Connection` headers that are visible ASCII, in lower case. -/
def listed (h : Headers) : List HeaderName :=
  ((h.getAll .connection).filterMap HeaderValue.toVisible?).flatMap fun line =>
    ((Text.splitOn ',' line.toList).map fun name =>
      String.ofList (Text.toAsciiLower (Text.trim name))).filterMap fun name =>
        if name.isEmpty then none else some ⟨name⟩

/-- Drops the headers that end at this hop. -/
def stripHopByHop (h : Headers) : Headers := (hopByHop ++ listed h).foldl Headers.erase h

/-- The chain of addresses with that of the peer at its end. -/
def forwardedFor (h : Headers) (peer : SocketAddress) : String :=
  match h.getVisible? .forwardedFor with
  | some prior => prior ++ ", " ++ peer.ip.text
  | none => peer.ip.text

def addPeer (r : Request) (h : Headers) : Headers :=
  match r.peer with
  | none => h
  | some peer =>
    match HeaderValue.ofString? (forwardedFor h peer) with
    | some v => h.insert .forwardedFor v
    | none => h

def addHost (r : Request) (h : Headers) : Headers :=
  match r.headers.get? .host with
  | some v => h.insert .forwardedHost v
  | none => h

/-- The scheme of the request's target decides. -/
def addScheme (r : Request) (h : Headers) : Headers :=
  h.insert .forwardedProto (Bytes.ofString (if r.uri.scheme = some "https" then "https" else "http"))

/-- Adds the peer, the host and the scheme that the request came with. -/
def addForwarded (r : Request) (h : Headers) : Headers := addScheme r (addHost r (addPeer r h))

/-- The request as the upstream gets it, in HTTP/1.1 whatever the version it came in. -/
def outgoing (r : Request) (target : Uri) : Request :=
  { r with
    uri := target
    version := .http11
    headers := addForwarded r (stripHopByHop (r.headers.erase .host)) }

/-- Sends a request to an upstream and takes its response. -/
def forward (r : Request) (upstream : Uri) (w : World) : Except CommandError Response × World :=
  match target upstream r.uri with
  | .error e => (.error e, w)
  | .ok u =>
    let w := w.noteEvent (.debug ("Forwarding to: " ++ u.text))
    match w.network (outgoing r u) with
    | .error text => (.error (.upstream text), w)
    | .ok response => (.ok { response with headers := stripHopByHop response.headers }, w)

end RuleGate.Forwarding
