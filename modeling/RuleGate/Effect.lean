import RuleGate.Http.Message
import RuleGate.LogLevel
import RuleGate.Text.Quoted

/-!
# Effects

What handling a request leaves behind besides the response: events of the gateway's own log, written
log lines, notifications, metric counts, and the requests that upstreams were given.
-/

namespace RuleGate

/-- An event of the gateway's own log, with its named fields. -/
structure LogEvent where
  level : LogLevel
  message : String
  fields : List (String × String)
deriving DecidableEq, Repr

namespace LogEvent

def warn (message : String) : LogEvent := ⟨.warn, message, []⟩

def debug (message : String) : LogEvent := ⟨.debug, message, []⟩

end LogEvent

/-- A notification and the providers it is meant for. -/
structure Notification where
  level : LogLevel
  title : String
  body : String
  targets : List String
deriving DecidableEq, Repr

/-- One count of a metric. -/
inductive MetricCount where
  | request (method : String) (status : Nat)
  | requestDuration (method : String)
  | ruleMatch (rule phase : String)
  | commandError (rule : String) (status : Nat)
  | upstreamDuration (method : String) (status : Nat)
deriving DecidableEq, Repr

namespace MetricCount

/-- Escapes a label value. -/
def escape (s : String) : String :=
  String.ofList (s.toList.flatMap fun c =>
    if c = '\\' then ['\\', '\\'] else if c = '\n' then ['\\', 'n']
    else if c = '"' then ['\\', '"'] else [c])

def series (name : String) (labels : List (String × String)) : String :=
  name ++ "\x7b" ++ ",".intercalate (labels.map fun (k, v) => k ++ "=\"" ++ escape v ++ "\"") ++ "\x7d"

/-- The name of the counter or of the histogram's count, with its labels in alphabetic order. -/
def name : MetricCount → String
  | request method status =>
    series "waypoint_requests_total" [("method", method), ("status", toString status)]
  | requestDuration method => series "waypoint_request_duration_ms_count" [("method", method)]
  | ruleMatch rule phase =>
    series "waypoint_rules_matched_total" [("phase", phase), ("rule", rule)]
  | commandError rule status =>
    series "waypoint_command_errors_total" [("rule", rule), ("status", toString status)]
  | upstreamDuration method status =>
    series "waypoint_upstream_request_duration_ms_count"
      [("method", method), ("status", toString status)]

end MetricCount

/-- The streams of the process that lines can go to. -/
inductive StandardStream where
  | out
  | err
deriving DecidableEq, Repr

inductive Effect where
  | event (e : LogEvent)
  | streamText (stream : StandardStream) (text : String)
  | fileText (place : List (List Char)) (text : String)
  | notification (n : Notification)
  | count (c : MetricCount)
  /-- An upstream was given a request. -/
  | received (r : Request)
deriving DecidableEq, Repr

namespace Effect

/-- The texts written to a stream, in order. -/
def written (stream : StandardStream) (es : List Effect) : List String :=
  es.filterMap fun
    | streamText s t => if s = stream then some t else none
    | _ => none

/-- What was appended to each file, in the order of first writes. -/
def fileTexts (es : List Effect) : List (List (List Char) × String) :=
  let writes := es.filterMap fun | fileText p t => some (p, t) | _ => none
  (writes.map (·.1)).eraseDups.map fun p =>
    (p, String.join ((writes.filter fun w => w.1 == p).map (·.2)))

/-- How much each metric grew, in the order of first counts. -/
def metrics (es : List Effect) : List (String × Nat) :=
  let names := es.filterMap fun | count c => some c.name | _ => none
  names.eraseDups.map fun n => (n, names.count n)

end Effect

end RuleGate
