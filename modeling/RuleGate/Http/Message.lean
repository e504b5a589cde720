import RuleGate.Http.Header
import RuleGate.Http.Status
import RuleGate.Http.Uri
import RuleGate.Net.Address

/-!
# Requests and responses

Buffered messages. Besides what it carried on the wire a request knows the peer it came from, the
route it was dispatched to, and whether it came over TLS.
-/

namespace RuleGate

/-- The route a request was dispatched to. -/
structure Route where
  name : String
  upstream : Option Uri
deriving DecidableEq, Repr

inductive HttpVersion where
  | http10
  | http11
  | http2
  | http3
deriving DecidableEq, Repr

/-- Whether a text can be a request method. -/
def isMethod (s : String) : Bool := !s.isEmpty && s.toList.all HeaderName.isTokenChar

structure Request where
  method : String
  uri : Uri
  version : HttpVersion
  headers : Headers
  body : Bytes
  peer : Option SocketAddress
  route : Option Route
  tls : Bool
deriving DecidableEq, Repr

/-- A response. `rules` names the rules that a rule set applied to the request, if one handled it. -/
structure Response where
  status : Status
  headers : Headers
  body : Bytes
  rules : Option (List String)
deriving DecidableEq, Repr

namespace Response

/-- A response without headers of its own. -/
def ofStatus (s : Status) : Response := ⟨s, Headers.empty, [], none⟩

end Response

end RuleGate
