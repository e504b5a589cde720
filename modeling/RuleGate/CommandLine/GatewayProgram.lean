import RuleGate.CommandLine.Options
import RuleGate.Gateway

/-!
# The gateway as a program

Loads settings and makes the gateway they describe, or reports why it cannot start. Settings and the
address to listen on can also be given by environment variables.
-/

namespace RuleGate.CommandLine.GatewayProgram

def grammar : Grammar where
  options := [⟨"config", some 'c', true⟩, ⟨"listen", some 'l', true⟩, ⟨"log-json", none, false⟩]
  operands := 0

def helpText : String := "\n".intercalate [
  "Reverse-proxy gateway with a per-route rule engine",
  "",
  "Usage: waypoint [OPTIONS] --config <CONFIG>",
  "",
  "Options:",
  "  -c, --config <CONFIG>  Path to the gateway configuration file (YAML) [env: WAYPOINT_CONFIG=]",
  "  -l, --listen <LISTEN>  Override \x60listen.address\x60 from the configuration [env: WAYPOINT_LISTEN=]",
  "      --log-json         Emit logs as JSON",
  "  -h, --help             Print help",
  "  -V, --version          Print version",
  ""]

def versionText : String := "waypoint 0.1.0\n"

/-- An option, or else the variable that stands for it. -/
def setting (env : Environment) (given : Given) (option name : String) : Option String :=
  (given.value? option).or (env name)

/-- The settings in a file, on another address if one is given. -/
def load (files : FileSystem) (path : String) (address : Option String) : Configured Config := do
  let config ← Config.ofFile files path
  match address with
  | none => return config
  | some a =>
    let config := config.withAddress a
    match config.check with
    | .ok () => return config
    | .error e => throw (.invalidOverride e)

/-- The gateway to run, or how the program ends. -/
def start (env : Environment) (disk : Disk) (words : List String) :
    Except ExitReport Gateway × Disk :=
  match grammar.read words with
  | .error stop => (.error (.ofStop helpText versionText stop), disk)
  | .ok given =>
    match setting env given "config" "WAYPOINT_CONFIG" with
    | none =>
      (.error (.ofStop helpText versionText (.misuse (.missingOperand "--config <CONFIG>"))), disk)
    | some path =>
      let failure (e : ConfigError) : Except ExitReport Gateway := .error ⟨1, "", e.report⟩
      match load disk.files path (setting env given "listen" "WAYPOINT_LISTEN") with
      | .error e => (failure e, disk)
      | .ok config =>
        match Gateway.ofConfig env disk config with
        | (.error e, disk) => (failure e, disk)
        | (.ok g, disk) => (.ok g, disk)

end RuleGate.CommandLine.GatewayProgram
