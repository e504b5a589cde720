import RuleGate.Arguments
import RuleGate.Help
import RuleGate.Scene
import RuleGate.Template.Basic

/-!
# Fields

The parts of a request or a response that `set`, `add` and `remove` change. Keys are used as written;
values are templates.
-/

namespace RuleGate

inductive FieldOp where
  | set
  | add
  | remove
deriving DecidableEq, Repr

namespace FieldOp

def name : FieldOp → String
  | set => "set"
  | add => "add"
  | remove => "remove"

end FieldOp

/-- The fields there are. -/
inductive FieldKind where
  | header
  | responseHeader
  | query
  | cookie
  | body
  | responseBody
  | statusCode
deriving DecidableEq, Repr

namespace FieldKind

def name : FieldKind → String
  | header => "header"
  | responseHeader => "resp_header"
  | query => "query"
  | cookie => "cookie"
  | body => "body"
  | responseBody => "resp_body"
  | statusCode => "status_code"

def all : List FieldKind := [header, responseHeader, query, cookie, body, responseBody, statusCode]

def ofName? (s : String) : Option FieldKind := all.find? fun k => k.name == s

def help : FieldKind → Help
  | header => ⟨"header", [], [("key", "the header key"), ("value", "the header template")]⟩
  | responseHeader =>
    ⟨"resp_header", [],
      [("key", "the response header key"), ("value", "the response header template")]⟩
  | query => ⟨"query", [], [("key", "the query key"), ("value", "the query template")]⟩
  | cookie =>
    ⟨"cookie", ["set updates the first cookie with the key, add always appends"],
      [("key", "the cookie key"), ("value", "the cookie template")]⟩
  | body =>
    ⟨"body",
      ["override the request body sent to the upstream, e.g.:",
        "  set body \"method: $req_method path: $req_path\""],
      [("template", "the body template")]⟩
  | responseBody =>
    ⟨"resp_body",
      ["override the response body sent to the client, e.g.:",
        "  set resp_body \"status: $status_code\""],
      [("template", "the response body template")]⟩
  | statusCode =>
    ⟨"status_code",
      ["override the status code sent to the client, e.g.:", "  set status_code 200"],
      [("code", "the status code, 100 to 599")]⟩

end FieldKind

/-- A field with what picks one of its values, or with the status to set. -/
inductive FieldTarget where
  | header (name : HeaderName)
  | responseHeader (name : HeaderName)
  | query (key : String)
  | cookie (key : String)
  | body
  | responseBody
  | statusCode (s : Status)
deriving DecidableEq, Repr

structure FieldCommand where
  op : FieldOp
  target : FieldTarget
  value : Template
deriving DecidableEq, Repr

namespace FieldCommand

/-- The key, and the value unless it is removed. -/
def keyAndValue (op : FieldOp) (args : List String) : Compiled (String × Template) :=
  match op, args with
  | .remove, [key] => .ok (key, .empty)
  | .remove, _ => .error (.arity .one)
  | _, [key, value] => do return (key, ← Template.parse value)
  | _, _ => .error (.arity .two)

/-- Fields without a key can only be set. -/
def requireSet (op : FieldOp) (kind : FieldKind) : Compiled Unit :=
  if op = .set then .ok ()
  else .error (.invalidArguments (op.name ++ " is not supported for " ++ kind.name))

def compileKind (op : FieldOp) (args : List String) : FieldKind → Compiled FieldCommand
  | .header => do
    let (key, value) ← keyAndValue op args
    return ⟨op, .header (← HeaderName.compile key), value⟩
  | .responseHeader => do
    let (key, value) ← keyAndValue op args
    return ⟨op, .responseHeader (← HeaderName.compile key), value⟩
  | .query => do
    let (key, value) ← keyAndValue op args
    return ⟨op, .query key, value⟩
  | .cookie => do
    let (key, value) ← keyAndValue op args
    return ⟨op, .cookie key, value⟩
  | .body => do
    requireSet op .body
    return ⟨op, .body, ← Template.parse (← Arguments.one args)⟩
  | .responseBody => do
    requireSet op .responseBody
    return ⟨op, .responseBody, ← Template.parse (← Arguments.one args)⟩
  | .statusCode => do
    requireSet op .statusCode
    return ⟨op, .statusCode (← Arguments.statusCode args), .empty⟩

/-- Compiles a field and its arguments. -/
def compile (op : FieldOp) : List String → Compiled FieldCommand
  | [] => .error .noArgument
  | field :: args =>
    match FieldKind.ofName? field with
    | none => .error (.subject field .unknownField)
    | some kind =>
      match compileKind op args kind with
      | .ok c => .ok c
      | .error e => .error (.withHelp e kind.help.text)

/-- Whether the command has to wait for the response. -/
def readsResponse (c : FieldCommand) : Bool :=
  match c.target with
  | .responseBody => true
  | .statusCode _ => true
  | _ => c.value.readsResponse

/-- Changes the values of one header. -/
def editHeaders (op : FieldOp) (name : HeaderName) (value : String) (h : Headers) :
    Except CommandError Headers :=
  match op with
  | .remove => .ok (h.erase name)
  | _ =>
    match HeaderValue.ofString? value with
    | none =>
      .error (.invalidRequest
        ("invalid value for header " ++ name.text ++ ": " ++ HeaderValue.invalidMessage))
    | some v => .ok (if op = .set then h.insert name v else h.append name v)

def editQuery (op : FieldOp) (key value : String) (p : Params) : Params :=
  match op with
  | .set => p.set key value
  | .add => p.add key value
  | .remove => p.erase key

def editCookies (op : FieldOp) (key value : String) (cs : List Cookie) : List Cookie :=
  match op with
  | .set => Cookie.set key value cs
  | .add => cs ++ [⟨key, value⟩]
  | .remove => Cookie.eraseFirst key cs

def run (c : FieldCommand) (s : Scene) : Scene.Result :=
  let value := c.value.expand s.exchange
  match c.target with
  | .header name =>
    match editHeaders c.op name value s.exchange.request.headers with
    | .ok h => (.ok (), s.withExchange (·.setHeaders h))
    | .error e => (.error e, s)
  | .responseHeader name =>
    match editHeaders c.op name value s.exchange.draft.headers with
    | .ok h => (.ok (), s.withDraft (·.withHeaders fun _ => h))
    | .error e => (.error e, s)
  | .query key => (.ok (), s.update (·.updateQuery (editQuery c.op key value)))
  | .cookie key => (.ok (), s.update (·.updateCookies (editCookies c.op key value)))
  | .body => (.ok (), s.withExchange (·.setBody (Bytes.ofString value)))
  | .responseBody => (.ok (), s.withDraft fun d => d.resetBody.write (Bytes.ofString value))
  | .statusCode code => (.ok (), s.withDraft (·.setStatus code))

end FieldCommand

end RuleGate
