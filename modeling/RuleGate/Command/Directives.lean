import RuleGate.Command.Basic
import RuleGate.Directive

/-!
# Directives of commands

The names and usages of the commands, and their compilation from directive lines. Compiling a `log`
directive may open a file, so the disk is handed from one line to the next.
-/

namespace RuleGate.Command

/-- The names of the commands; `bypass` is another name of `pass`. -/
inductive Name where
  | rewrite
  | serve
  | proxy
  | redirect
  | error
  | requireCredentials
  | set
  | add
  | remove
  | log
  | notify
  | pass
deriving DecidableEq, Repr

namespace Name

def text : Name → String
  | rewrite => "rewrite"
  | serve => "serve"
  | proxy => "proxy"
  | redirect => "redirect"
  | error => "error"
  | requireCredentials => "require_basic_auth"
  | set => "set"
  | add => "add"
  | remove => "remove"
  | log => "log"
  | notify => "notify"
  | pass => "pass"

/-- All names in alphabetic order. -/
def all : List Name := [
  add, error, log, notify, pass, proxy, redirect, remove, requireCredentials, rewrite, serve, set]

def ofText? (s : String) : Option Name :=
  if s = "bypass" then some pass else all.find? fun n => n.text == s

def fieldsNote : String := "one of header, resp_header, query, cookie, body, resp_body, status_code"

def help : Name → Help
  | rewrite =>
    ⟨"rewrite",
      ["Rewrite a request path from one prefix to another, e.g.:", "  rewrite /api/ /v1/"],
      [("from", "the path prefix to rewrite, must start with /"),
        ("to", "the replacement prefix, must start with /")]⟩
  | serve =>
    ⟨"serve", ["Serve static files from a local directory, e.g.:", "  serve /var/www"],
      [("root", "the directory to serve, must exist")]⟩
  | proxy =>
    ⟨"proxy", ["Proxy the request to another upstream, e.g.:", "  proxy http://upstream:8080"],
      [("to", "the absolute url to proxy to")]⟩
  | redirect =>
    ⟨"redirect",
      ["Redirect the request with 307 Temporary Redirect, e.g.:", "  redirect https://example.com"],
      [("to", "the relative or absolute url to redirect to")]⟩
  | error =>
    ⟨"error", ["Send a plain-text error response and stop, e.g.:", "  error 403 \"Forbidden\""],
      [("code", "the http status code"), ("text", "the response body")]⟩
  | requireCredentials =>
    ⟨"require_basic_auth",
      ["Reply 401 with a basic auth challenge, e.g.:", "  require_basic_auth \"Restricted Area\""],
      [("realm", "the authentication realm")]⟩
  | set =>
    ⟨"set", ["Set a field of the request or response, e.g.:", "  set header User-Agent waypoint"],
      [("field", fieldsNote), ("key", "the key to set"), ("value", "the value template")]⟩
  | add =>
    ⟨"add", ["Add a value to a field of the request or response, e.g.:", "  add header X-Foo bar"],
      [("field", fieldsNote), ("key", "the key to add"), ("value", "the value template")]⟩
  | remove =>
    ⟨"remove",
      ["Remove a field from the request or response, e.g.:", "  remove header User-Agent"],
      [("field", fieldsNote), ("key", "the key to remove")]⟩
  | log =>
    ⟨"log",
      ["Write a line once the response is ready, e.g.:",
        "  log info /dev/stdout \"$req_method $req_url $status_code\""],
      [("level", "trace, debug, info, warn or error"),
        ("path", "a file path, /dev/stdout or /dev/stderr"), ("template", "the line template")]⟩
  | notify =>
    ⟨"notify",
      ["Send a notification once the response is ready, e.g.:",
        "  notify info ntfy \"request to $req_path\" \"$req_method $status_code\""],
      [("level", "trace, debug, info, warn or error"), ("provider", "the notification provider"),
        ("title", "the title template"), ("body", "the body template")]⟩
  | pass =>
    ⟨"pass",
      ["Skip all remaining rules and forward the request to the upstream.", "Alias: bypass"], []⟩

/-- Whether the arguments start with a field, which has a usage of its own. -/
def takesField : Name → Bool
  | set => true
  | add => true
  | remove => true
  | _ => false

end Name

/-- The two prefixes of a rewrite; both are looked at before either is refused. -/
def compileRewrite : List String → Compiled Command
  | [source, replacement] =>
    let clean (what path : String) : Compiled String :=
      match UrlPath.cleanUrl path with
      | .ok p => .ok p
      | .error e => .error (.subject what e)
    match allOrErrors [clean "from" source, clean "to" replacement] with
    | .ok [source, replacement] => .ok (rewrite source replacement)
    | .ok _ => .error .noArgument
    | .error e => .error e
  | _ => .error (.arity .two)

def compileError : List String → Compiled Command
  | [code, text] =>
    let status := match Text.readUInt16 code.toList with
      | .ok n => if Arguments.statusBounds.contains ⟨n⟩ then some (Status.mk n) else none
      | .error _ => none
    match status with
    | some s => .ok (error s text)
    | none => .error (.subject code (.invalidArguments "invalid status code"))
  | _ => .error (.arity .two)

def compileChallenge (args : List String) : Compiled Command := do
  let realm ← Arguments.one args
  match HeaderValue.ofString? ("Basic realm=\"" ++ realm ++ "\"") with
  | some v => return requireCredentials v
  | none => throw (.invalidArguments ("invalid realm: " ++ HeaderValue.invalidMessage))

/-- Compiles the arguments of a command. -/
def compileArguments (mode : CompileMode) (disk : Disk) (args : List String) :
    Name → Compiled Command × Disk
  | .rewrite => (compileRewrite args, disk)
  | .serve => ((ServeCommand.compile disk.files args).map serve, disk)
  | .proxy => ((Arguments.absoluteUrl args).map proxy, disk)
  | .redirect => ((Arguments.url args).map fun u => redirect u.text, disk)
  | .error => (compileError args, disk)
  | .requireCredentials => (compileChallenge args, disk)
  | .set => ((FieldCommand.compile .set args).map field, disk)
  | .add => ((FieldCommand.compile .add args).map field, disk)
  | .remove => ((FieldCommand.compile .remove args).map field, disk)
  | .log =>
    let (result, disk) := LogCommand.compile mode disk args
    (result.map log, disk)
  | .notify => ((NotifyCommand.compile args).map notify, disk)
  | .pass => (if args.isEmpty then .ok bypass else .error (.arity .none), disk)

/-- Whether the usage of a command helps with an error in its arguments. Where the field has added its
own usage that is enough. -/
def needsHelp (name : Name) (e : RuleError) : Bool :=
  match name with
  | .pass => false
  | _ =>
    !name.takesField ||
      match e.root with
      | .unknownField => true
      | .noArgument => true
      | _ => false

/-- Adds the name of the command to an error, and its usage where that helps. -/
def explain (name : Name) (directive : String) (e : RuleError) : RuleError :=
  if needsHelp name e then .withHelp (.subject directive e) name.help.text else .subject directive e

/-- Compiles one line. -/
def compileLine (env : Environment) (mode : CompileMode) (disk : Disk) (line : String) :
    Compiled Command × Disk :=
  match Directive.parse env line with
  | .error e => (.error e, disk)
  | .ok d =>
    match Name.ofText? d.subject with
    | none => (.error (.subject d.subject .unknownDirective), disk)
    | some name =>
      match compileArguments mode disk d.args name with
      | (.ok c, disk) => (.ok c, disk)
      | (.error e, disk) => (.error (explain name d.subject e), disk)

/-- The usages of all commands in alphabetic order. -/
def helps : List Help := Name.all.map Name.help

end RuleGate.Command
