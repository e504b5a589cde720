import RuleGate.Config.Document
import RuleGate.Rule.Handler

/-!
# Gateways

A gateway as settings describe it: the address it listens on, the one route it serves, its rules, and
whether it speaks TLS. It hands each request to the rules with the route and the peer attached, and
counts it.
-/

namespace RuleGate

structure Gateway where
  address : SocketAddress
  route : Route
  upstream : Uri
  rules : List Rule
  tls : Bool

namespace Gateway

/-- What a certificate or key file holds; a directory can be opened, but not read. -/
def pemFile (files : FileSystem) (path : String) : Except FileError PemFile :=
  match files.stat path with
  | .error e => .error e
  | .ok .directory => .ok ⟨[], some (.unreadable FileError.isDirectory.message)⟩
  | .ok (.file content _) => .ok (.ofBytes content)

/-- The first certificate of a file. -/
def certificate (files : FileSystem) (path : String) : Configured Bytes :=
  match (pemFile files path).map PemFile.certificates with
  | .error e => .error (.certificateNotOpened path e)
  | .ok (.error e) => .error (.certificateMalformed e)
  | .ok (.ok []) => .error (.noCertificate path)
  | .ok (.ok (first :: _)) => .ok first

/-- The first private key of a file. -/
def privateKey (files : FileSystem) (path : String) : Configured PemSection :=
  match (pemFile files path).map PemFile.privateKey with
  | .error e => .error (.keyNotOpened path e)
  | .ok (.error e) => .error (.keyMalformed e)
  | .ok (.ok none) => .error (.noKey path)
  | .ok (.ok (some key)) => .ok key

/-- Checks that there are a certificate and a key, and that they belong together. -/
def checkTls (files : FileSystem) (tls : TlsFiles) : Configured Unit := do
  let leaf ← certificate files tls.certificate
  let key ← privateKey files tls.key
  match PrivateKey.check key leaf with
  | .error e => throw (.tls e)
  | .ok () => return ()

/-- Puts a gateway together from checked parts. -/
def assemble (files : FileSystem) (config : Config) (rules : List Rule) : Configured Gateway := do
  let address ← config.listenAddress
  let upstream ← config.upstream
  if let some tls := config.listen.tls then checkTls files tls
  return ⟨address, ⟨config.route.name, some upstream⟩, upstream, rules, config.listen.tls.isSome⟩

/-- The gateway that settings describe. Log files are opened before certificates are looked at. -/
def ofConfig (env : Environment) (disk : Disk) (config : Config) : Configured Gateway × Disk :=
  match config.listenAddress, config.upstream with
  | .error e, _ => (.error e, disk)
  | _, .error e => (.error e, disk)
  | .ok _, .ok _ =>
    match config.compileRules env disk with
    | (.error e, disk) => (.error e, disk)
    | (.ok rules, disk) => (assemble disk.files config rules, disk)

/-- The handler of the gateway's rules around its upstream. -/
def handler (g : Gateway) : Handler := RuleSet.build g.rules (.ofUpstream g.upstream)

/-- The request as the rules get it. -/
def attach (g : Gateway) (peer : SocketAddress) (r : Request) : Request :=
  { r with route := some g.route, peer := some peer, tls := g.tls }

/-- Handles one request of a peer and counts it. -/
def handle (g : Gateway) (peer : SocketAddress) (r : Request) (w : World) : Response × World :=
  let (response, w) := g.handler.run (g.attach peer r) w
  (response, (w.count (.request r.method response.status.code)).count (.requestDuration r.method))

end Gateway

end RuleGate
