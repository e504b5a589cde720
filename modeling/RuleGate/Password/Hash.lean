import RuleGate.Base64
import RuleGate.Password.Blowfish
import RuleGate.Text.Integer
import RuleGate.Text.Split

/-!
# Password hashes

Hashes in the form `$2b$cost$salt-and-digest`: reading them, and testing a password. A hash that can be
read may still hold digits that do not decode; no password passes against such a hash.
-/

namespace RuleGate

/-- What is wrong with the text of a hash. -/
inductive HashError where
  | malformed (text : String)
  | unknownVersion (text : String)
  | badCost (text : String)
deriving DecidableEq, Repr

namespace HashError

def message : HashError → String
  | malformed text => "Invalid hash: " ++ text
  | unknownVersion text => "Invalid Prefix: " ++ text
  | badCost text => "Invalid Cost: " ++ text

end HashError

/-- A hash: the logarithm of its number of rounds, and the digits of its salt and of its digest. -/
structure PasswordHash where
  cost : Nat
  salt : List Char
  digest : List Char
deriving DecidableEq, Repr

namespace PasswordHash

/-- The Base64 variant in which salts and digests are written. -/
def encoding : Base64 :=
  ⟨"./ABCDEFGHIJKLMNOPQRSTUVWXYZabcdefghijklmnopqrstuvwxyz0123456789".toList, false⟩

def versions : List String := ["2y", "2b", "2a", "2x"]

/-- Splits off the first 22 bytes of 53, unless that would cut a character in two. -/
def splitSalt? (s : List Char) : Option (List Char × List Char) :=
  let cut := (List.range (s.length + 1)).find? fun n => (Text.utf8Encode (s.take n)).length == 22
  match cut with
  | some n => if (Text.utf8Encode s).length = 53 then some (s.take n, s.drop n) else none
  | none => none

def parse (text : String) : Except HashError PasswordHash :=
  match (Text.splitOn '$' text.toList).filter fun w => !w.isEmpty with
  | [version, cost, rest] =>
    if !versions.contains (String.ofList version) then .error (.unknownVersion (String.ofList version))
    else
      match Text.readNat 4294967295 cost with
      | .error _ => .error (.badCost (String.ofList cost))
      | .ok cost =>
        match splitSalt? rest with
        | some (salt, digest) => .ok ⟨cost, salt, digest⟩
        | none => .error (.malformed text)
  | _ => .error (.malformed text)

/-- The cipher after `2 ^ cost` rounds of stirring in key and salt. -/
def prepare (cost : Nat) (salt key : Array UInt8) : Blowfish :=
  (List.range (Nat.pow 2 cost)).foldl (fun b _ => (b.expand #[0] key).expand #[0] salt)
    (Blowfish.initial.expand salt key)

/-- The text that is encrypted, as three blocks. -/
def plaintext : List (UInt32 × UInt32) :=
  let bytes := "OrpheanBeholderScryDoubt".toUTF8.data
  [0, 2, 4].map fun i => (Blowfish.keyWord bytes i, Blowfish.keyWord bytes (i + 1))

def wordBytes (w : UInt32) : Bytes := [0, 1, 2, 3].map fun i => UInt8.ofNat (Blowfish.byteOf w i)

/-- The 23 bytes of a digest. -/
def compute (cost : Nat) (salt key : Array UInt8) : Bytes :=
  let cipher := prepare cost salt key
  let blocks := plaintext.map fun block => (List.range 64).foldl (fun b _ => cipher.encrypt b) block
  (blocks.flatMap fun (l, r) => wordBytes l ++ wordBytes r).take 23

/-- The key of a password: its bytes and a zero, but no more than 72 bytes. -/
def keyOf (password : String) : Array UInt8 := ((Bytes.ofString password ++ [0]).take 72).toArray

/-- Whether the password has this hash. -/
def accepts (h : PasswordHash) (password : String) : Bool :=
  if h.cost < 4 ∨ 31 < h.cost then false
  else
    match encoding.decode? h.salt, encoding.decode? h.digest with
    | some salt, some digest => compute h.cost salt.toArray (keyOf password) == digest
    | _, _ => false

end PasswordHash

end RuleGate
