import RuleGate.Text.Case
import RuleGate.Text.Utf8

/-!
# Header fields

Names are tokens in lower case. Values are bytes: any but the controls, with the tab allowed. A header
map is a list of fields in which a name may repeat; the order of the values of one name counts, the
order between names does not.
-/

namespace RuleGate

/-- A header name in lower case. -/
structure HeaderName where
  text : String
deriving DecidableEq, Repr

namespace HeaderName

/-- The characters of a token. -/
def isTokenChar (c : Char) : Bool :=
  c.isAlphanum || "!#$%&'*+-.^_|~".toList.contains c || c == '\x60'

/-- Reads a name of 1 to 65535 token characters in any letter case. -/
def parse? (s : String) : Option HeaderName :=
  if s.isEmpty ∨ 65535 < s.length then none
  else if s.toList.all isTokenChar then some ⟨String.ofList (Text.toAsciiLower s.toList)⟩
  else none

def authorization : HeaderName := ⟨"authorization"⟩
def connection : HeaderName := ⟨"connection"⟩
def contentLength : HeaderName := ⟨"content-length"⟩
def contentType : HeaderName := ⟨"content-type"⟩
def contentTypeOptions : HeaderName := ⟨"x-content-type-options"⟩
def cookie : HeaderName := ⟨"cookie"⟩
def forwardedFor : HeaderName := ⟨"x-forwarded-for"⟩
def forwardedHost : HeaderName := ⟨"x-forwarded-host"⟩
def forwardedProto : HeaderName := ⟨"x-forwarded-proto"⟩
def host : HeaderName := ⟨"host"⟩
def lastModified : HeaderName := ⟨"last-modified"⟩
def location : HeaderName := ⟨"location"⟩
def trailer : HeaderName := ⟨"trailer"⟩
def transferEncoding : HeaderName := ⟨"transfer-encoding"⟩
def wwwAuthenticate : HeaderName := ⟨"www-authenticate"⟩

end HeaderName

namespace HeaderValue

/-- Tab, or any byte that is no control. -/
def isValueByte (b : UInt8) : Bool := (32 ≤ b && b != 127) || b == 9

/-- Tab, space or a visible ASCII character. -/
def isVisibleAscii (b : UInt8) : Bool := (32 ≤ b && b < 127) || b == 9

def ofBytes? (s : Bytes) : Option Bytes := if s.all isValueByte then some s else none

def ofString? (s : String) : Option Bytes := ofBytes? (Bytes.ofString s)

/-- What is said of a text that no header value can hold. -/
def invalidMessage : String := "failed to parse header value"

/-- The text of a value that is visible ASCII throughout. -/
def toVisible? (v : Bytes) : Option String :=
  if v.all isVisibleAscii then some (String.ofList (v.map fun b => Char.ofNat b.toNat)) else none

end HeaderValue

/-- Header fields in the order they were added. -/
structure Headers where
  fields : List (HeaderName × Bytes)
deriving DecidableEq, Repr

namespace Headers

def empty : Headers := ⟨[]⟩

/-- The values of a name, in order. -/
def getAll (h : Headers) (name : HeaderName) : List Bytes :=
  h.fields.filterMap fun (n, v) => if n = name then some v else none

def get? (h : Headers) (name : HeaderName) : Option Bytes := (h.getAll name).head?

/-- The first value of a name as text, if it is visible ASCII. -/
def getVisible? (h : Headers) (name : HeaderName) : Option String :=
  (h.get? name).bind HeaderValue.toVisible?

def append (h : Headers) (name : HeaderName) (value : Bytes) : Headers :=
  ⟨h.fields ++ [(name, value)]⟩

/-- Drops every field with the name. -/
def erase (h : Headers) (name : HeaderName) : Headers := ⟨h.fields.filter fun (n, _) => n != name⟩

/-- Leaves the name with a single value. -/
def insert (h : Headers) (name : HeaderName) (value : Bytes) : Headers :=
  (h.erase name).append name value

def appendAll (h k : Headers) : Headers := ⟨h.fields ++ k.fields⟩

/-- The names present, each once. -/
def names (h : Headers) : List HeaderName := (h.fields.map (·.1)).eraseDups

/-- Takes the values of every name of `k` from `k`. -/
def override (h k : Headers) : Headers :=
  ⟨h.fields.filter (fun (n, _) => !(k.names.contains n)) ++ k.fields⟩

end Headers

end RuleGate
