import RuleGate.Command.Field
import RuleGate.Command.Redirect
import RuleGate.Command.Report
import RuleGate.Command.Serve
import RuleGate.Condition.Check
import RuleGate.Forwarding

/-!
# Commands

The compiled commands of rules, what each does to the commands after it, and what running it does to a
scene.
-/

namespace RuleGate

/-- How a command bears on what follows it. -/
inductive CommandKind where
  /-- The next command runs after it. -/
  | nonTerminating
  /-- It makes the response; the upstream is not called. -/
  | terminating
  /-- It needs the response of the upstream. -/
  | onResponse
  /-- It hands the request straight to the upstream. -/
  | bypass
deriving DecidableEq, Repr

/-- How running the commands of a rule ends. -/
inductive Outcome where
  | proceed
  | terminated
  | bypassed
deriving DecidableEq, Repr

inductive Command where
  | rewrite (source replacement : String)
  | serve (c : ServeCommand)
  | proxy (upstream : Uri)
  | redirect (target : String)
  | error (status : Status) (text : String)
  | requireCredentials (challenge : Bytes)
  | field (c : FieldCommand)
  | log (c : LogCommand)
  | notify (c : NotifyCommand)
  | bypass
deriving DecidableEq, Repr

namespace Command

def kind : Command → CommandKind
  | rewrite _ _ => .nonTerminating
  | serve _ => .terminating
  | proxy _ => .terminating
  | redirect _ => .terminating
  | error _ _ => .terminating
  | requireCredentials _ => .terminating
  | field c => if c.readsResponse then .onResponse else .nonTerminating
  | log _ => .onResponse
  | notify _ => .onResponse
  | bypass => .bypass

/-- Replaces the front of the path by another one, if the path starts with it. -/
def rewritePath (source replacement : String) (x : Exchange) : Exchange.Updated :=
  match Text.dropPrefix? source.toList (Check.rooted x.path).toList with
  | some rest => (x.remember .path).setPath (replacement ++ String.ofList rest)
  | none => (x.remember .path, [])

/-- Sends the request to another upstream and takes its response in place of the body so far. -/
def runProxy (upstream : Uri) (s : Scene) : Scene.Result :=
  match s.world.faults.client with
  | some text => (.error (.io text), s)
  | none =>
    match Forwarding.forward s.exchange.request upstream s.world with
    | (.error e, w) => (.error e, { s with world := w })
    | (.ok response, w) =>
      (.ok (), { s with world := w }.withDraft fun d => d.resetBody.absorb response)

/-- Answers with a challenge for credentials. -/
def challenge (value : Bytes) (d : ResponseDraft) : ResponseDraft :=
  ErrorPage.write (d.withHeaders (·.insert .wwwAuthenticate value)) .unauthorized "Unauthorized"

def run (s : Scene) : Command → Scene.Result
  | rewrite source replacement => (.ok (), s.update (rewritePath source replacement))
  | serve c => c.run s
  | proxy upstream => runProxy upstream s
  | redirect target => (.ok (), Redirect.run target s)
  | error status text => (.ok (), s.withDraft (ErrorPage.write · status text))
  | requireCredentials value => (.ok (), s.withDraft (challenge value))
  | field c => c.run s
  | log c => c.run s
  | notify c => c.run s
  | bypass => (.ok (), s)

/-- Runs commands in order until one ends the rule or fails. -/
def runAll (s : Scene) : List Command → Except CommandError Outcome × Scene
  | [] => (.ok .proceed, s)
  | c :: r =>
    match c.kind with
    | .bypass => (.ok .bypassed, s)
    | .terminating =>
      match c.run s with
      | (.ok (), s) => (.ok .terminated, s)
      | (.error e, s) => (.error e, s)
    | .nonTerminating | .onResponse =>
      match c.run s with
      | (.ok (), s) => runAll s r
      | (.error e, s) => (.error e, s)

end Command

end RuleGate
