import RuleGate.Exchange.Memo

/-!
# Changes to an exchange

Setters that keep the request and the remembered values together. A change that the request cannot
take is dropped with a warning, which the setters return.
-/

namespace RuleGate.Exchange

/-- An exchange, and the warnings that a change to it caused. -/
abbrev Updated := Exchange × List LogEvent

def withRequest (x : Exchange) (f : Request → Request) : Exchange := { x with request := f x.request }

def withDraft (x : Exchange) (f : ResponseDraft → ResponseDraft) : Exchange :=
  { x with draft := f x.draft }

def withMemo (x : Exchange) (f : Memo → Memo) : Exchange := { x with memo := f x.memo }

/-- Notes that a rule applies. -/
def recordRule (x : Exchange) (rule : String) : Exchange := { x with applied := x.applied ++ [rule] }

/-- The path as it is and the encoded parameters. -/
def pathWithParams (path : String) (p : Params) : String :=
  if p.encode.isEmpty then path else path ++ "?" ++ p.encode

/-- Changes the query parameters, and with them the target of the request. -/
def updateQuery (x : Exchange) (f : Params → Params) : Updated :=
  let params := f x.query
  match PathQuery.parse (pathWithParams x.request.uri.path params).toList with
  | .error e =>
    (x.remember .query, [.warn ("dropping unencodable query update: " ++ e.message)])
  | .ok pq =>
    let uri := (x.request.uri.withPathQuery? pq).getD x.request.uri
    let x := x.withRequest fun r => { r with uri := uri }
    (x.withMemo fun m => { m.dropQuery with query := some params }, [])

/-- Encodes a decoded path and keeps the query of the target. -/
def encodedPath (u : Uri) (path : String) : String :=
  match u.query? with
  | some q => Percent.encodePath path ++ "?" ++ q
  | none => Percent.encodePath path

/-- Replaces the path by a decoded one. A target that was an authority alone becomes an `http` one. -/
def setPath (x : Exchange) (path : String) : Updated :=
  let uri := x.request.uri
  match PathQuery.parse (encodedPath uri path).toList with
  | .error _ => (x, [.warn ("dropping invalid rewritten path " ++ Text.quoted path)])
  | .ok pq =>
    let scheme := if uri.authority.isSome then some (uri.scheme.getD "http") else uri.scheme
    let x := x.withRequest fun r => { r with uri := { uri with scheme := scheme, pathQuery := pq } }
    (x.withMemo .dropPath, [])

/-- Changes the cookies, and with them the `Cookie` header. -/
def updateCookies (x : Exchange) (f : List Cookie → List Cookie) : Updated :=
  let cookies := f x.cookies
  let set (h : Headers) : Exchange :=
    (x.withRequest fun r => { r with headers := h }).withMemo fun m =>
      { m with cookies := some cookies }
  let without := x.request.headers.erase .cookie
  if cookies.isEmpty then (set without, [])
  else
    match HeaderValue.ofString? (Cookie.encodeAll cookies) with
    | some v => (set (without.insert .cookie v), [])
    | none =>
      (set without, [.warn ("dropping invalid cookie header: " ++ HeaderValue.invalidMessage)])

/-- Replaces the body and the declared length. -/
def setBody (x : Exchange) (body : Bytes) : Exchange :=
  let x := x.withRequest fun r =>
    { r with
      headers := r.headers.insert .contentLength (ResponseDraft.lengthValue body.length)
      body := body }
  x.withMemo .dropBody

/-- Replaces the header fields. -/
def setHeaders (x : Exchange) (h : Headers) : Exchange :=
  (x.withRequest fun r => { r with headers := h }).withMemo .dropHeaders

end RuleGate.Exchange
