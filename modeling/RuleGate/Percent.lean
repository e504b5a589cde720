import RuleGate.Text.Quoted
import RuleGate.Text.Utf8

/-!
# Percent coding

Decoding of `%XX` escapes over bytes, where an escape that is not two hexadecimal digits stays as it
is, and two encoders that differ in the characters they keep: one for query keys and values, one for
paths.
-/

namespace RuleGate.Percent

/-- The value of a hexadecimal digit of either case. -/
def hexValue? (b : UInt8) : Option UInt8 :=
  if 48 ≤ b ∧ b ≤ 57 then some (b - 48)
  else if 65 ≤ b ∧ b ≤ 70 then some (b - 55)
  else if 97 ≤ b ∧ b ≤ 102 then some (b - 87)
  else none

/-- The byte that two hexadecimal digits write. -/
def escapeValue? (high low : UInt8) : Option UInt8 :=
  match hexValue? high, hexValue? low with
  | some h, some l => some (h * 16 + l)
  | _, _ => none

def decodeBytes : Bytes → Bytes
  | [] => []
  | [b] => [b]
  | [b, c] => [b, c]
  | b :: c :: d :: r =>
    if b = 37 then
      match escapeValue? c d with
      | some v => v :: decodeBytes r
      | none => b :: decodeBytes (c :: d :: r)
    else b :: decodeBytes (c :: d :: r)

/-- The text that the decoded bytes spell, if they are UTF-8. -/
def decode? (s : String) : Option String := (decodeBytes (Bytes.ofString s)).toString?

/-- Decoding that falls back to the text itself. -/
def decodeOrSelf (s : String) : String := (decode? s).getD s

/-- Three bytes: a percent sign and two upper-case hexadecimal digits. -/
def escapeByte (b : UInt8) : List Char :=
  ['%', Text.hexDigitUpper (b.toNat / 16), Text.hexDigitUpper (b.toNat % 16)]

/-- Writes the kept bytes as they are and escapes the others. -/
def encodeBytes (keep : UInt8 → Bool) (s : Bytes) : List Char :=
  s.flatMap fun b => if keep b then [Char.ofNat b.toNat] else escapeByte b

def isAlphanumeric (b : UInt8) : Bool :=
  (48 ≤ b && b ≤ 57) || (65 ≤ b && b ≤ 90) || (97 ≤ b && b ≤ 122)

/-- Letters, digits, `-`, `.`, `_` and `~`. -/
def isUnreserved (b : UInt8) : Bool :=
  isAlphanumeric b || b == 45 || b == 46 || b == 95 || b == 126

/-- What a path keeps: the unreserved characters, `/`, and `:@!$&'()*+,;=`. -/
def isPathByte (b : UInt8) : Bool :=
  isUnreserved b || b == 47 || b == 58 || b == 64 || b == 33 || b == 36 || b == 38 || b == 39 ||
    b == 40 || b == 41 || b == 42 || b == 43 || b == 44 || b == 59 || b == 61

/-- Encodes a query key or value. -/
def encode (s : String) : String := String.ofList (encodeBytes isUnreserved (Bytes.ofString s))

/-- Encodes a decoded path for use in a URI; slashes stay. -/
def encodePath (s : String) : String := String.ofList (encodeBytes isPathByte (Bytes.ofString s))

end RuleGate.Percent
