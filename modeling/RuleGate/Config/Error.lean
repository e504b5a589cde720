import RuleGate.Decoding
import RuleGate.Error
import RuleGate.Files.FileSystem
import RuleGate.Http.Uri
import RuleGate.Tls.Key

/-!
# Faults of settings

Why a gateway does not start: settings that cannot be read or used, rules that do not compile, and
certificate or key files that are no good. A fault may come with the causes behind it.
-/

namespace RuleGate

inductive ConfigError where
  | undecodable (e : DecodeError)
  | invalidAddress (address : String)
  | invalidUpstream (url : String) (e : UriError)
  | relativeUpstream (url : String)
  | unsupportedScheme (scheme : String)
  | hostlessUpstream (url : String)
  | emptyRouteName
  | portConflict (port : Nat) (address : String)
  | incompleteTls
  | rules (e : RuleError)
  | unreadableFile (path : String) (e : FileError)
  | invalidFile (path : String) (cause : ConfigError)
  | invalidOverride (cause : ConfigError)
  | certificateNotOpened (path : String) (e : FileError)
  | certificateMalformed (e : PemError)
  | noCertificate (path : String)
  | keyNotOpened (path : String) (e : FileError)
  | keyMalformed (e : PemError)
  | noKey (path : String)
  | tls (e : TlsError)
deriving Repr

namespace ConfigError

/-- What is said of a fault, followed by its causes from the nearest to the last. -/
def chain : ConfigError → List String
  | undecodable e => [e.message]
  | invalidAddress address =>
    ["invalid listen address '" ++ address ++ "': invalid socket address syntax"]
  | invalidUpstream url e => ["invalid upstream URL '" ++ url ++ "': " ++ e.message]
  | relativeUpstream url => ["upstream URL '" ++ url ++ "' must be absolute"]
  | unsupportedScheme scheme =>
    ["unsupported upstream scheme '" ++ scheme ++ "'. Currently supported: http, https"]
  | hostlessUpstream url => ["upstream URL '" ++ url ++ "' must have a host"]
  | emptyRouteName => ["'route.name' must not be empty"]
  | portConflict port address =>
    ["metrics port " ++ toString port ++ " conflicts with the listen address '" ++ address ++ "'"]
  | incompleteTls =>
    ["TLS configuration requires both 'listen.tls.cert_path' and 'listen.tls.key_path'"]
  | rules e => [e.message]
  | unreadableFile path e => ["failed to read config file '" ++ path ++ "'", e.message]
  | invalidFile path cause => ("invalid config file '" ++ path ++ "'") :: chain cause
  | invalidOverride cause => "invalid --listen override" :: chain cause
  | certificateNotOpened path e => ["failed to open certificate file '" ++ path ++ "'", e.message]
  | certificateMalformed e => ["failed to parse certificate file", e.message]
  | noCertificate path => ["no certificates found in certificate file: " ++ path]
  | keyNotOpened path e => ["failed to open private key file '" ++ path ++ "'", e.message]
  | keyMalformed e => ["failed to parse private key file", e.message]
  | noKey path => ["no private key found in key file: " ++ path]
  | tls e => ["failed to build TLS configuration", e.message]

/-- The fault and its causes in one line. -/
def message (e : ConfigError) : String := ": ".intercalate e.chain

/-- Whether the last cause is that the settings could not be decoded. -/
def isUndecodable : ConfigError → Bool
  | undecodable _ => true
  | invalidFile _ cause => isUndecodable cause
  | invalidOverride cause => isUndecodable cause
  | _ => false

/-- Indents a cause, all of its lines alike. -/
def indent (first others : String) (cause : String) : String :=
  first ++ (("\n" ++ others).intercalate (cause.splitOn "\n"))

/-- Causes are numbered if there are several. -/
def causeLines (causes : List String) : List String :=
  match causes with
  | [cause] => [indent "    " "    " cause]
  | causes => causes.zipIdx.map fun (cause, i) => indent ("    " ++ toString i ++ ": ") "       " cause

/-- The report on a fault that ends the program. -/
def report (e : ConfigError) : String :=
  match e.chain with
  | [] => "Error: \n"
  | [text] => "Error: " ++ text ++ "\n"
  | text :: causes =>
    "Error: " ++ text ++ "\n\nCaused by:\n" ++ "\n".intercalate (causeLines causes) ++ "\n"

end ConfigError

end RuleGate
