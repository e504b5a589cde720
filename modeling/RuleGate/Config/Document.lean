import RuleGate.Config.Basic
import RuleGate.Rule.Document

/-!
# Settings as YAML

Reading settings from a YAML text or file. Only the route has to be given.
-/

namespace RuleGate

/-- The largest number of 16 bits. -/
def maxPort : Nat := 65535

namespace TlsFiles

def ofNode (n : Yaml.Node) : Decoded TlsFiles := do
  let f ← n.asRecord ["cert_path", "key_path"]
  return ⟨← f.required "cert_path" Yaml.Node.asText, ← f.required "key_path" Yaml.Node.asText⟩

end TlsFiles

namespace ListenConfig

def ofNode (n : Yaml.Node) : Decoded ListenConfig := do
  let f ← n.asRecord ["address", "tls"]
  let address ← f.withDefault "address" default.address Yaml.Node.asText
  let tls ← f.withDefault "tls" default.tls (Yaml.Node.asOption TlsFiles.ofNode)
  return ⟨address, tls⟩

end ListenConfig

namespace MetricsConfig

def ofNode (n : Yaml.Node) : Decoded MetricsConfig := do
  let f ← n.asRecord ["enabled", "port"]
  let enabled ← f.withDefault "enabled" default.enabled Yaml.Node.asBool
  let port ← f.withDefault "port" default.port (Yaml.Node.asNatural maxPort)
  return ⟨enabled, port⟩

end MetricsConfig

namespace RouteConfig

def ofNode (n : Yaml.Node) : Decoded RouteConfig := do
  let f ← n.asRecord ["name", "upstream"]
  return ⟨← f.required "name" Yaml.Node.asText, ← f.required "upstream" Yaml.Node.asText⟩

end RouteConfig

namespace PoolConfig

def ofNode (n : Yaml.Node) : Decoded PoolConfig := do
  let f ← n.asRecord
    ["max_idle_per_host", "idle_timeout_secs", "keepalive_timeout_secs", "connect_timeout_secs"]
  let number (name : String) (default : Nat) : Decoded Nat :=
    f.withDefault name default (Yaml.Node.asNatural Value.maxNatural)
  let idle ← number "max_idle_per_host" default.maxIdlePerHost
  let idleTimeout ← number "idle_timeout_secs" default.idleTimeout
  let keepalive ← number "keepalive_timeout_secs" default.keepaliveTimeout
  let connect ← number "connect_timeout_secs" default.connectTimeout
  return ⟨idle, idleTimeout, keepalive, connect⟩

end PoolConfig

namespace Config

def ofNode (n : Yaml.Node) : Decoded Config := do
  let f ← n.asRecord ["listen", "metrics", "route", "connection_pool", "rules"]
  let listen ← f.withDefault "listen" .default ListenConfig.ofNode
  let metrics ← f.withDefault "metrics" .default MetricsConfig.ofNode
  let route ← f.required "route" RouteConfig.ofNode
  let pool ← f.withDefault "connection_pool" .default PoolConfig.ofNode
  let rules ← f.withDefault "rules" [] (Yaml.Node.asList RuleSpec.ofNode)
  return ⟨listen, metrics, route, pool, rules⟩

/-- Reads settings and checks them. -/
def ofText (text : String) : Configured Config :=
  match (Yaml.decodeDocument text).bind ofNode with
  | .error e => .error (.undecodable e)
  | .ok c =>
    match c.check with
    | .ok () => .ok c
    | .error e => .error e

/-- Reads the settings in a file. -/
def ofFile (files : FileSystem) (path : String) : Configured Config :=
  match files.readText path with
  | .error e => .error (.unreadableFile path e)
  | .ok text =>
    match ofText text with
    | .ok c => .ok c
    | .error e => .error (.invalidFile path e)

end Config

end RuleGate
