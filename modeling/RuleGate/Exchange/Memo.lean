import RuleGate.Effect
import RuleGate.Exchange.Derived
import RuleGate.Response.Draft

/-!
# Exchanges

The state that rules work on while one request is handled: the request, the draft of its response, the
rules applied so far, and a memo of derived values that have been read. A reader gives the remembered
value if there is one; `remember` is the note it leaves. Whatever changes the request drops the notes
that the change makes stale.
-/

namespace RuleGate

/-- Derived values that have been read. -/
structure Memo where
  path : Option String
  query : Option Params
  cookies : Option (List Cookie)
  credentials : Option (Option BasicCredentials)
  peerIp : Option (Option IpAddress)
  bodyForm : Option Params
  form : Option Params
deriving DecidableEq, Repr

namespace Memo

def empty : Memo := ⟨none, none, none, none, none, none, none⟩

def dropPath (m : Memo) : Memo := { m with path := none }

def dropQuery (m : Memo) : Memo := { m with query := none, form := none }

def dropBody (m : Memo) : Memo := { m with bodyForm := none, form := none }

/-- Drops all that depends on header fields. -/
def dropHeaders (m : Memo) : Memo :=
  { m with cookies := none, credentials := none, bodyForm := none, form := none }

end Memo

structure Exchange where
  request : Request
  draft : ResponseDraft
  memo : Memo
  /-- The rules applied, the first one first. -/
  applied : List String
deriving Repr

namespace Exchange

def start (r : Request) : Exchange := ⟨r, .empty, .empty, []⟩

def path (x : Exchange) : String := x.memo.path.getD x.request.decodedPath

def query (x : Exchange) : Params := x.memo.query.getD x.request.queryParams

def cookies (x : Exchange) : List Cookie := x.memo.cookies.getD x.request.cookies

def credentials? (x : Exchange) : Option BasicCredentials :=
  x.memo.credentials.getD x.request.credentials?

def peerIp? (x : Exchange) : Option IpAddress := x.memo.peerIp.getD x.request.peerIp?

def bodyForm (x : Exchange) : Params := x.memo.bodyForm.getD x.request.bodyParams

/-- The parameters of the body, then those of the query. -/
def form (x : Exchange) : Params := x.memo.form.getD (x.bodyForm.append x.query)

/-- The derived values that are remembered once read. -/
inductive Derived where
  | path
  | query
  | cookies
  | credentials
  | peerIp
  | bodyForm
  | form
deriving DecidableEq, Repr

/-- Notes the value that a reader gives. -/
def remember (x : Exchange) : Derived → Exchange
  | .path => { x with memo := { x.memo with path := some x.path } }
  | .query => { x with memo := { x.memo with query := some x.query } }
  | .cookies => { x with memo := { x.memo with cookies := some x.cookies } }
  | .credentials => { x with memo := { x.memo with credentials := some x.credentials? } }
  | .peerIp => { x with memo := { x.memo with peerIp := some x.peerIp? } }
  | .bodyForm => { x with memo := { x.memo with bodyForm := some x.bodyForm } }
  | .form =>
    match x.memo.form with
    | some _ => x
    | none =>
      { x with memo :=
        { x.memo with
          bodyForm := some x.bodyForm
          query := some x.query
          form := some x.form } }

end Exchange

end RuleGate
