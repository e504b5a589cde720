import RuleGate.Tls.Der
import RuleGate.Tls.Pem

/-!
# Keys and certificates

Whether a certificate and a private key can serve together. A private key is RSA, ECDSA on one of two
curves, or Ed25519, in an encoding that the label of its section tells. Where the file of the key states
the public key, it has to be the one in the certificate.
-/

namespace RuleGate

/-- A public key: the content of its algorithm identifier and of its bit string. -/
structure PublicKey where
  algorithm : Bytes
  bits : Bytes
deriving DecidableEq, Repr

inductive TlsError where
  | unusableKey
  | malformedCertificate
  | keyMismatch
deriving DecidableEq, Repr

namespace TlsError

def message : TlsError → String
  | unusableKey => "unexpected error: failed to parse private key as RSA, ECDSA, or EdDSA"
  | malformedCertificate => "invalid peer certificate: BadEncoding"
  | keyMismatch => "keys may not be consistent: KeyMismatch"

end TlsError

/-- A curve that ECDSA works on: the identifier of the curve, and the bytes of a coordinate. -/
structure Curve where
  object : Bytes
  size : Nat

namespace Curve

def p256 : Curve := ⟨[0x2A, 0x86, 0x48, 0xCE, 0x3D, 0x03, 0x01, 0x07], 32⟩

def p384 : Curve := ⟨[0x2B, 0x81, 0x04, 0x00, 0x22], 48⟩

def all : List Curve := [p256, p384]

def name (c : Curve) : DerElement := ⟨DerElement.objectTag, c.object⟩

def algorithm (c : Curve) : Bytes :=
  (DerElement.mk DerElement.objectTag [0x2A, 0x86, 0x48, 0xCE, 0x3D, 0x02, 0x01]).toBytes ++
    c.name.toBytes

end Curve

/-- A private key that can be used, with the public key if it is stated. -/
structure PrivateKey where
  publicKey : Option PublicKey
deriving DecidableEq, Repr

namespace PrivateKey

open DerElement

def rsaAlgorithm : Bytes :=
  [0x06, 0x09, 0x2A, 0x86, 0x48, 0x86, 0xF7, 0x0D, 0x01, 0x01, 0x01, 0x05, 0x00]

def ed25519Algorithm : Bytes := [0x06, 0x03, 0x2B, 0x65, 0x70]

/-- An uncompressed point in a bit string without unused bits. -/
def point? (c : Curve) (e : DerElement) : Option Bytes :=
  match e.parts? (fieldTag 1) with
  | some [⟨tag, 0 :: 4 :: coordinates⟩] =>
    if tag = bitStringTag ∧ coordinates.length = 2 * c.size then some (0 :: 4 :: coordinates)
    else none
  | _ => none

/-- An ECDSA key: a secret, the name of the curve if it is there, and the point. -/
def ofEc? (c : Curve) (der : Bytes) : Option PrivateKey :=
  match sequence? der with
  | some (version :: secret :: rest) =>
    if isInteger 1 version ∧ secret.tag = octetStringTag ∧ secret.content.length = c.size then
      match rest with
      | [p] => (point? c p).map fun bits => ⟨some ⟨c.algorithm, bits⟩⟩
      | [n, p] =>
        if n = ⟨fieldTag 0, c.name.toBytes⟩ then
          (point? c p).map fun bits => ⟨some ⟨c.algorithm, bits⟩⟩
        else none
      | _ => none
    else none
  | _ => none

/-- The sizes of modulus that are used, in bytes. -/
def isModulus (e : DerElement) : Bool :=
  let n := e.content.dropWhile (· == 0)
  e.tag == integerTag && decide (256 ≤ n.length) && decide (n.length ≤ 512)

/-- An RSA key: version, modulus, public exponent, and six numbers that are secret. -/
def ofRsa? (der : Bytes) : Option PrivateKey :=
  match sequence? der with
  | some (version :: modulus :: exponent :: secrets) =>
    if isInteger 0 version ∧ isModulus modulus ∧ secrets.length = 6 ∧
        (exponent :: secrets).all (fun e => e.tag == integerTag) then
      let key : DerElement := ⟨sequenceTag, modulus.toBytes ++ exponent.toBytes⟩
      some ⟨some ⟨rsaAlgorithm, 0 :: key.toBytes⟩⟩
    else none
  | _ => none

/-- An Ed25519 key: 32 secret bytes. -/
def ofEd25519? (der : Bytes) : Option PrivateKey :=
  match ofBytes? der with
  | some [⟨tag, secret⟩] =>
    if tag = octetStringTag ∧ secret.length = 32 then some ⟨none⟩ else none
  | _ => none

/-- A key of an algorithm, without the wrapping that tells the algorithm. -/
def ofAlgorithm? (algorithm der : Bytes) : Option PrivateKey :=
  if algorithm = rsaAlgorithm then ofRsa? der
  else if algorithm = ed25519Algorithm then ofEd25519? der
  else (Curve.all.find? fun c => c.algorithm == algorithm).bind fun c => ofEc? c der

/-- A key in the wrapping for every algorithm; attributes count for nothing. -/
def ofPkcs8? (der : Bytes) : Option PrivateKey :=
  match sequence? der with
  | some (version :: algorithm :: key :: rest) =>
    if algorithm.tag = sequenceTag ∧ key.tag = octetStringTag ∧
        (isInteger 0 version ∧ rest.all (fun e => e.tag == fieldTag 0) ∨
          isInteger 1 version ∧ algorithm.content = ed25519Algorithm) then
      ofAlgorithm? algorithm.content key.content
    else none
  | _ => none

def ofSection? (s : PemSection) : Option PrivateKey :=
  match s.kind with
  | .rsaKey => ofRsa? s.data
  | .ecKey => Curve.all.findSome? fun c => ofEc? c s.data
  | .pkcs8Key => ofPkcs8? s.data
  | _ => none

end PrivateKey

namespace PublicKey

open DerElement

/-- The key among the fields of a certificate, whose first may be its version. -/
def ofFields? (fields : List DerElement) : Option PublicKey :=
  match fields.dropWhile fun e => e.tag == fieldTag 0 with
  | _serial :: _signature :: _issuer :: _validity :: _subject :: key :: _ =>
    match key.parts? sequenceTag with
    | some [algorithm, bits] =>
      if algorithm.tag = sequenceTag ∧ bits.tag = bitStringTag then
        some ⟨algorithm.content, bits.content⟩
      else none
    | _ => none
  | _ => none

/-- The key that a certificate speaks for. -/
def ofCertificate? (der : Bytes) : Option PublicKey :=
  match sequence? der with
  | some [fields, _algorithm, _signature] => (fields.parts? sequenceTag).bind ofFields?
  | _ => none

end PublicKey

/-- Whether a key can be used together with a certificate. -/
def PrivateKey.check (s : PemSection) (certificate : Bytes) : Except TlsError Unit :=
  match PrivateKey.ofSection? s, PublicKey.ofCertificate? certificate with
  | none, _ => .error .unusableKey
  | some _, none => .error .malformedCertificate
  | some key, some stated =>
    if key.publicKey.any fun k => k ≠ stated then .error .keyMismatch else .ok ()

end RuleGate
