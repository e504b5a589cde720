import RuleGate.Config.Error
import RuleGate.Net.Address
import RuleGate.Rule.Basic

/-!
# Settings of a gateway

Where it listens, where its metrics are, the one route it serves, its connection pool and its rules,
with what each setting is when it is left out, and what makes settings unusable.
-/

namespace RuleGate

/-- The files that make a listener speak TLS. -/
structure TlsFiles where
  certificate : String
  key : String
deriving DecidableEq, Repr

structure ListenConfig where
  address : String
  tls : Option TlsFiles
deriving DecidableEq, Repr

structure MetricsConfig where
  enabled : Bool
  port : Nat
deriving DecidableEq, Repr

structure RouteConfig where
  name : String
  upstream : String
deriving DecidableEq, Repr

/-- Limits of the pool of upstream connections; times are in seconds. -/
structure PoolConfig where
  maxIdlePerHost : Nat
  idleTimeout : Nat
  keepaliveTimeout : Nat
  connectTimeout : Nat
deriving DecidableEq, Repr

structure Config where
  listen : ListenConfig
  metrics : MetricsConfig
  route : RouteConfig
  pool : PoolConfig
  rules : List RuleSpec
deriving DecidableEq, Repr

namespace ListenConfig

def default : ListenConfig := ⟨"0.0.0.0:8080", none⟩

end ListenConfig

namespace MetricsConfig

def default : MetricsConfig := ⟨true, 9090⟩

end MetricsConfig

namespace PoolConfig

def default : PoolConfig := ⟨100, 90, 60, 5⟩

end PoolConfig

/-- A result of loading settings. -/
abbrev Configured (α : Type) := Except ConfigError α

namespace Config

/-- The address to listen on. -/
def listenAddress (c : Config) : Configured SocketAddress :=
  match SocketAddress.parse? c.listen.address.toList with
  | some a => .ok a
  | none => .error (.invalidAddress c.listen.address)

/-- The upstream of the route, an absolute URL of `http` or `https`. -/
def upstream (c : Config) : Configured Uri :=
  let url := c.route.upstream
  match Uri.ofString url with
  | .error e => .error (.invalidUpstream url e)
  | .ok u =>
    match u.scheme with
    | none => .error (.relativeUpstream url)
    | some scheme =>
      if scheme = "http" ∨ scheme = "https" then
        if u.authority.isNone then .error (.hostlessUpstream url) else .ok u
      else .error (.unsupportedScheme scheme)

/-- Checks settings; the first fault counts. -/
def check (c : Config) : Configured Unit := do
  let address ← c.listenAddress
  let _ ← c.upstream
  if c.route.name.isEmpty then throw .emptyRouteName
  if c.metrics.enabled && address.port == c.metrics.port then
    throw (.portConflict c.metrics.port c.listen.address)
  match c.listen.tls with
  | none => return
  | some tls => if tls.certificate.isEmpty || tls.key.isEmpty then throw .incompleteTls

/-- The same settings on another address. -/
def withAddress (address : String) (c : Config) : Config :=
  { c with listen := { c.listen with address := address } }

/-- Compiles the rules; their errors are one fault. -/
def compileRules (env : Environment) (disk : Disk) (c : Config) : Configured (List Rule) × Disk :=
  match RuleSpec.compileAll env disk c.rules with
  | (.ok rules, disk) => (.ok rules, disk)
  | (.error e, disk) => (.error (.rules e), disk)

end Config

end RuleGate
