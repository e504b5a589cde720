import RuleGate.Rule.Basic

/-!
# Handlers

What turns a request into a response. A rule set makes a handler out of an upstream handler: request
rules run in order before the upstream is called, response rules in order after it, and the default
rule last in whichever phase it belongs to. A handler may break down, which ends the handling of its
request only.
-/

namespace RuleGate

/-- What a handler says when it breaks down. -/
structure Breakdown where
  message : String
deriving DecidableEq, Repr

abbrev Handler := Request → World → Except Breakdown Response × World

/-- Before or after the upstream has answered. -/
inductive Phase where
  | request
  | response
deriving DecidableEq, Repr

namespace Phase

def name : Phase → String
  | request => "request"
  | response => "response"

end Phase

/-- The rules of a handler by the phase they run in. -/
structure RuleSet where
  /-- Rules that run before the upstream is called. -/
  before : List Rule
  /-- Rules that run once the upstream has answered. -/
  after : List Rule
  /-- The rule that applies to every request. -/
  default : Rule

namespace RuleSet

/-- Sorts rules by phase. Of several default rules the last one counts. -/
def ofRules (rules : List Rule) : RuleSet :=
  let others := rules.filter fun r => !r.isDefault
  { before := others.filter fun r => !r.isResponseRule
    after := others.filter Rule.isResponseRule
    default := ((rules.filter Rule.isDefault).getLast?).getD .defaultPass }

/-- Whether the rules leave every request to the upstream as it is. -/
def isTrivial (s : RuleSet) : Bool := s.before.isEmpty && s.after.isEmpty && s.default.isPurePass

/-- Runs a step after which the handling may go on, unless it broke down. -/
abbrev Step := Except Breakdown Unit × Scene

/-- Hands the request to the upstream and takes its response. -/
def callUpstream (upstream : Handler) (s : Scene) : Step :=
  let request := s.exchange.request
  match upstream request s.world with
  | (.error b, w) => (.error b, { s with world := w })
  | (.ok response, w) =>
    let w := w.count (.upstreamDuration request.method response.status.code)
    (.ok (), { s with world := w }.withDraft (·.absorb response))

/-- Notes that a command of a rule failed. In the request phase the response becomes an error page. -/
def noteFailure (rule : Rule) (phase : Phase) (e : CommandError) (s : Scene) : Scene :=
  let event : LogEvent :=
    ⟨.error, "command failed: " ++ e.message, [("rule", rule.name), ("phase", phase.name)]⟩
  let s := s.withWorld fun w => (w.noteEvent event).count (.commandError rule.name e.status.code)
  let s := s.withDraft (·.appendError rule.name e.message)
  match phase with
  | .request => s.withDraft (ErrorPage.write · e.status ((e.status.reason?).getD "Error"))
  | .response => s

/-- Runs the commands of a rule that applies. A failure ends the rule and what comes after it. -/
def execute (rule : Rule) (phase : Phase) (s : Scene) : Outcome × Scene :=
  match rule.block.run s with
  | (.ok outcome, s) => (outcome, s)
  | (.error e, s) => (.terminated, noteFailure rule phase e s)

/-- Notes that a rule applies, in the exchange and in the metrics. -/
def noteMatch (rule : Rule) (phase : String) (s : Scene) : Scene :=
  (s.withExchange (·.recordRule rule.name)).withWorld (·.count (.ruleMatch rule.name phase))

/-- The event that a rule matched. -/
def matchEvent (rule : Rule) (message : String) : LogEvent := ⟨.debug, message, [("rule", rule.name)]⟩

/-- Notes a match and runs the rule. -/
def apply (rule : Rule) (phase : Phase) (message : String) (s : Scene) : Outcome × Scene :=
  let s := s.withWorld (·.noteEvent (matchEvent rule message))
  execute rule phase (noteMatch rule phase.name s)

/-- Runs the rules of a phase in order up to the first that does not let the next one run. Each
condition is judged on the scene that the rules before have left. -/
def runRules (phase : Phase) (message : String) (s : Scene) : List Rule → Outcome × Scene
  | [] => (.proceed, s)
  | rule :: r =>
    if rule.applies s.exchange then
      match apply rule phase message s with
      | (.proceed, s) => runRules phase message s r
      | stopped => stopped
    else runRules phase message s r

/-- Runs the default rule, which is not noted if it does nothing. -/
def applyDefault (rule : Rule) (phase : Phase) (s : Scene) : Outcome × Scene :=
  execute rule phase (if rule.isPurePass then s else noteMatch rule "default" s)

/-- What comes after the upstream: the response rules, and the default rule if it needs the
response. -/
def finish (set : RuleSet) (s : Scene) : Scene :=
  let s := (runRules .response "response rule matched" s set.after).2
  if set.default.isResponseRule then (applyDefault set.default .response s).2 else s

/-- Goes on after the upstream, if it did not break down. -/
def andFinish (set : RuleSet) : Step → Step
  | (.ok (), s) => (.ok (), finish set s)
  | broken => broken

/-- Calls the upstream unless the request is blocked, and then goes on. -/
def proceed (set : RuleSet) (upstream : Handler) (blocked : Bool) (s : Scene) : Step :=
  if blocked then (.ok (), finish set s) else andFinish set (callUpstream upstream s)

/-- Handles a request when there are request or response rules. -/
def handleRules (set : RuleSet) (upstream : Handler) (s : Scene) : Step :=
  match runRules .request "rule matched" s set.before with
  | (.bypassed, s) => callUpstream upstream s
  | (.terminated, s) => proceed set upstream true s
  | (.proceed, s) =>
    if set.default.isResponseRule then proceed set upstream false s
    else
      let (outcome, s) := applyDefault set.default .request s
      proceed set upstream (outcome == .terminated) s

/-- Handles a request when there is a default rule only. -/
def handleDefault (set : RuleSet) (upstream : Handler) (s : Scene) : Step :=
  if set.default.isResponseRule then
    match callUpstream upstream s with
    | (.ok (), s) => (.ok (), (applyDefault set.default .response s).2)
    | broken => broken
  else
    match applyDefault set.default .request s with
    | (.terminated, s) => (.ok (), s)
    | (_, s) => callUpstream upstream s

/-- Flushes the response, with the names of the rules that were applied. -/
def respond (s : Scene) : Response × World :=
  let draft := s.exchange.draft
  let world := match draft.errorText? with
    | some text => s.world.noteEvent (.debug ("rule errors for request:\n" ++ text))
    | none => s.world
  ({ draft.flush with rules := some s.exchange.applied }, world)

/-- The handler that runs the rules around an upstream. -/
def handler (set : RuleSet) (upstream : Handler) : Handler := fun request world =>
  let s : Scene := ⟨.start request, world⟩
  let step :=
    if set.before.isEmpty && set.after.isEmpty then handleDefault set upstream s
    else handleRules set upstream s
  match step with
  | (.error b, s) => (.error b, s.world)
  | (.ok (), s) =>
    let (response, world) := respond s
    (.ok response, world)

/-- The handler of a list of rules. Rules that leave all requests alone leave the upstream as it is. -/
def build (rules : List Rule) (upstream : Handler) : Handler :=
  let set := ofRules rules
  if set.isTrivial then upstream else set.handler upstream

end RuleSet

namespace Handler

/-- Notes each request before the handler gets it. -/
def recording (h : Handler) : Handler := fun request world =>
  h request (world.note (.received request))

/-- Runs a handler; if it breaks down the client gets an error page. -/
def run (h : Handler) (request : Request) (world : World) : Response × World :=
  match h request world with
  | (.ok response, w) => (response, w)
  | (.error b, w) =>
    let message := "panic while handling " ++ request.method ++ " " ++ request.uri.text ++ ": " ++
      b.message
    (ErrorPage.ofStatus .internalServerError, w.noteEvent ⟨.error, message, []⟩)

/-- The handler that sends every request to one upstream. -/
def ofUpstream (upstream : Uri) : Handler := fun request world =>
  match world.faults.client with
  | some text =>
    (.ok (ErrorPage.ofStatus .badGateway), world.noteEvent (.warn ("failed to create upstream client: " ++ text)))
  | none =>
    match Forwarding.forward request upstream world with
    | (.ok response, w) => (.ok response, w)
    | (.error e, w) =>
      let event : LogEvent :=
        ⟨.warn, "upstream request failed: " ++ e.message, [("upstream", upstream.text)]⟩
      (.ok (ErrorPage.ofStatus e.status), w.noteEvent event)

end Handler

end RuleGate
