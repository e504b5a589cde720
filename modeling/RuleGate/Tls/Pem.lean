import RuleGate.Text.Quoted
import RuleGate.Text.Split
import RuleGate.Text.Utf8

/-!
# PEM files

The sections of a PEM file: a line that begins a section and names its kind, lines of Base64, and a line
that ends it. Whatever stands outside of sections counts for nothing, and so do sections of kinds that
nobody asks for. A file is read up to its first fault, so what stands before the fault can be used.
-/

namespace RuleGate

inductive PemError where
  | missingEnd (label : Bytes)
  | illegalStart (line : Bytes)
  | invalidDigit (byte : UInt8)
  /-- A digit after padding. -/
  | prematurePadding
  /-- A last group that is not filled up. -/
  | invalidPadding
  /-- The file could not be read. -/
  | unreadable (text : String)
deriving DecidableEq, Repr

namespace PemError

def message : PemError → String
  | missingEnd label => "section end " ++ Text.quoted label.toStringLossy ++ " missing"
  | illegalStart line => "illegal section start: " ++ Text.quoted line.toStringLossy
  | invalidDigit byte => "InvalidCharacter(" ++ toString byte.toNat ++ ")"
  | prematurePadding => "PrematurePadding"
  | invalidPadding => "InvalidTrailingPadding"
  | unreadable text => text

end PemError

inductive PemKind where
  | certificate
  | rsaKey
  | pkcs8Key
  | ecKey
  | publicKey
  | revocationList
  | request
deriving DecidableEq, Repr

namespace PemKind

def label : PemKind → String
  | certificate => "CERTIFICATE"
  | rsaKey => "RSA PRIVATE KEY"
  | pkcs8Key => "PRIVATE KEY"
  | ecKey => "EC PRIVATE KEY"
  | publicKey => "PUBLIC KEY"
  | revocationList => "X509 CRL"
  | request => "CERTIFICATE REQUEST"

def all : List PemKind :=
  [certificate, rsaKey, pkcs8Key, ecKey, publicKey, revocationList, request]

def ofLabel? (label : Bytes) : Option PemKind :=
  all.find? fun k => Bytes.ofString k.label == label

/-- Keys in any of the three encodings. -/
def isPrivateKey (k : PemKind) : Bool := k == rsaKey || k == pkcs8Key || k == ecKey

end PemKind

/-- A section of a PEM file. -/
structure PemSection where
  kind : PemKind
  data : Bytes
deriving DecidableEq, Repr

/-- The sections before the first fault of a file, and the fault. -/
structure PemFile where
  sections : List PemSection
  fault : Option PemError
deriving DecidableEq, Repr

namespace PemFile

/-! ### Digits -/

/-- The value of a Base64 digit. -/
def digit? (b : UInt8) : Option Nat :=
  let n := b.toNat
  if 65 ≤ n ∧ n ≤ 90 then some (n - 65)
  else if 97 ≤ n ∧ n ≤ 122 then some (n - 71)
  else if 48 ≤ n ∧ n ≤ 57 then some (n + 4)
  else if n = 43 then some 62
  else if n = 47 then some 63
  else none

def isSpace (b : UInt8) : Bool := b == 9 || b == 10 || b == 13 || b == 32

def isPadding (b : UInt8) : Bool := b == 61

/-- The bytes of a row of digits; bits that fill no byte are dropped. -/
def pack : List Nat → Bytes
  | a :: b :: c :: d :: r =>
    UInt8.ofNat (a * 4 + b / 16) :: UInt8.ofNat (b % 16 * 16 + c / 4) ::
      UInt8.ofNat (c % 4 * 64 + d) :: pack r
  | [a, b, c] => [UInt8.ofNat (a * 4 + b / 16), UInt8.ofNat (b % 16 * 16 + c / 4)]
  | [a, b] => [UInt8.ofNat (a * 4 + b / 16)]
  | _ => []

/-- The bytes that the text of a section stands for; white space counts for nothing. -/
def decode (text : Bytes) : Except PemError Bytes :=
  let text := text.filter fun b => !isSpace b
  match text.find? fun b => !isPadding b && (digit? b).isNone with
  | some b => .error (.invalidDigit b)
  | none =>
    let digits := text.takeWhile fun b => !isPadding b
    let padding := text.dropWhile fun b => !isPadding b
    if !padding.all isPadding then .error .prematurePadding
    else if text.length % 4 ≠ 0 || padding.length > 2 then .error .invalidPadding
    else .ok (pack (digits.filterMap digit?))

/-! ### Lines -/

def isLineEnd (b : UInt8) : Bool := b == 10 || b == 13

/-- The lines of a file, each with the byte that ends it. -/
def lines : Bytes → List Bytes
  | [] => []
  | b :: r =>
    if isLineEnd b then [b] :: lines r
    else
      match lines r with
      | [] => [[b]]
      | w :: ws => (b :: w) :: ws

def isDash (b : UInt8) : Bool := b == 45

/-- The label of a line that begins a section, or that the line is malformed; nothing for other lines.
Five dashes end such a line. Blanks among and after them count for nothing. -/
def beginning? (line : Bytes) : Option (Except PemError Bytes) :=
  match Text.dropPrefix? (Bytes.ofString "-----BEGIN ") line with
  | none => none
  | some rest =>
    let last := (rest.reverse.takeWhile fun b => isDash b || isLineEnd b || b == 32).reverse
    let blanks := last.takeWhile fun b => !isDash b
    if (last.filter isDash).length = 5 then
      some (.ok (rest.take (rest.length - last.length + blanks.length)))
    else some (.error (.illegalStart line))

def isEnd (label line : Bytes) : Bool :=
  (Bytes.ofString "-----END " ++ label ++ Bytes.ofString "-----").isPrefixOf line

/-! ### Files -/

/-- Puts a section before the others. -/
def cons (s : PemSection) (f : PemFile) : PemFile := { f with sections := s :: f.sections }

/-- Reads lines; `label` is that of the section that is open, and `text` the text found for it. A
section that begins inside of another takes its text over. -/
def readFrom (label : Option Bytes) (text : Bytes) : List Bytes → PemFile
  | [] => ⟨[], label.map .missingEnd⟩
  | line :: r =>
    match beginning? line, label with
    | some (.error e), _ => ⟨[], some e⟩
    | some (.ok label), _ => readFrom (some label) text r
    | none, none => readFrom none text r
    | none, some label =>
      if isEnd label line then
        match PemKind.ofLabel? label with
        | none => readFrom none [] r
        | some kind =>
          match decode text with
          | .ok data => (readFrom none [] r).cons ⟨kind, data⟩
          | .error e => ⟨[], some e⟩
      else readFrom (some label) (text ++ line) r

def ofBytes (content : Bytes) : PemFile := readFrom none [] (lines content)

/-- The certificates of a file without faults. -/
def certificates (f : PemFile) : Except PemError (List Bytes) :=
  match f.fault with
  | some e => .error e
  | none => .ok ((f.sections.filter fun s => s.kind == .certificate).map PemSection.data)

/-- The first private key; a fault after it does no harm. -/
def privateKey (f : PemFile) : Except PemError (Option PemSection) :=
  match f.sections.find? fun s => s.kind.isPrivateKey, f.fault with
  | some s, _ => .ok (some s)
  | none, some e => .error e
  | none, none => .ok none

end PemFile

end RuleGate
