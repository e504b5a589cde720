import RuleGate.Text.Case
import RuleGate.Text.Integer

/-!
# Log levels

The five levels, read by name in any letter case or by number, 1 being an error and 5 a trace.
-/

namespace RuleGate

inductive LogLevel where
  | error
  | warn
  | info
  | debug
  | trace
deriving DecidableEq, Repr

namespace LogLevel

def name : LogLevel → String
  | error => "ERROR"
  | warn => "WARN"
  | info => "INFO"
  | debug => "DEBUG"
  | trace => "TRACE"

def all : List LogLevel := [error, warn, info, debug, trace]

/-- The level of a number, which may have a plus sign and leading zeros. -/
def ofNumber? (s : List Char) : Option LogLevel :=
  match Text.readUInt64 s with
  | .ok (n + 1) => all[n]?
  | _ => none

def ofName? (s : List Char) : Option LogLevel :=
  all.find? fun l => Text.eqIgnoreAsciiCase l.name.toList s

def parse? (s : String) : Option LogLevel := (ofNumber? s.toList).or (ofName? s.toList)

end LogLevel

end RuleGate
