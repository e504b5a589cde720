/-!
# UTF-8

Encoding of character lists, strict decoding, and lossy decoding, in which each longest piece that
starts a character but does not finish it becomes one replacement character. Both decoders are one
machine that reads a byte at a time; its state is what the character begun so far still owes.
-/

namespace RuleGate

/-- The bytes of a body, a header value or a file. -/
abbrev Bytes := List UInt8

namespace Text

def utf8Encode (s : List Char) : Bytes := s.flatMap String.utf8EncodeChar

/-- A character begun: the bits read so far, the bytes still owed, and the range of the next. -/
structure PartialChar where
  bits : Nat
  owed : Nat
  low : Nat
  high : Nat

/-- What one byte does to the machine. -/
inductive Utf8Step where
  | scalar (c : Char)
  | more (q : PartialChar)
  | refuse

/-- The first byte of a character. -/
def utf8Lead (byte : UInt8) : Utf8Step :=
  let b := byte.toNat
  if b ≤ 0x7F then .scalar (Char.ofNat b)
  else if 0xC2 ≤ b ∧ b ≤ 0xDF then .more ⟨b - 0xC0, 1, 0x80, 0xBF⟩
  else if 0xE0 ≤ b ∧ b ≤ 0xEF then
    .more ⟨b - 0xE0, 2, if b = 0xE0 then 0xA0 else 0x80, if b = 0xED then 0x9F else 0xBF⟩
  else if 0xF0 ≤ b ∧ b ≤ 0xF4 then
    .more ⟨b - 0xF0, 3, if b = 0xF0 then 0x90 else 0x80, if b = 0xF4 then 0x8F else 0xBF⟩
  else .refuse

/-- A later byte of a character. -/
def utf8Tail (q : PartialChar) (byte : UInt8) : Utf8Step :=
  let b := byte.toNat
  if q.low ≤ b ∧ b ≤ q.high then
    let bits := q.bits * 64 + (b - 0x80)
    if q.owed ≤ 1 then .scalar (Char.ofNat bits) else .more ⟨bits, q.owed - 1, 0x80, 0xBF⟩
  else .refuse

def utf8Step : Option PartialChar → UInt8 → Utf8Step
  | none, b => utf8Lead b
  | some q, b => utf8Tail q b

/-- Reads on from a state; `none` as soon as the bytes cannot be UTF-8. -/
def utf8DecodeFrom? : Option PartialChar → Bytes → Option (List Char)
  | none, [] => some []
  | some _, [] => none
  | q, b :: r =>
    match utf8Step q b with
    | .scalar c => (utf8DecodeFrom? none r).map (c :: ·)
    | .more q' => utf8DecodeFrom? (some q') r
    | .refuse => none

def utf8Decode? (s : Bytes) : Option (List Char) := utf8DecodeFrom? none s

/-- Reads on from a state. A byte that the begun character refuses is read again as a first byte. -/
def utf8DecodeLossyFrom : Option PartialChar → Bytes → List Char
  | none, [] => []
  | some _, [] => ['\uFFFD']
  | q, b :: r =>
    match utf8Step q b with
    | .scalar c => c :: utf8DecodeLossyFrom none r
    | .more q' => utf8DecodeLossyFrom (some q') r
    | .refuse =>
      match q with
      | none => '\uFFFD' :: utf8DecodeLossyFrom none r
      | some _ =>
        '\uFFFD' ::
          match utf8Lead b with
          | .scalar c => c :: utf8DecodeLossyFrom none r
          | .more q' => utf8DecodeLossyFrom (some q') r
          | .refuse => '\uFFFD' :: utf8DecodeLossyFrom none r

def utf8DecodeLossy (s : Bytes) : List Char := utf8DecodeLossyFrom none s

end Text

namespace Bytes

def ofString (s : String) : Bytes := Text.utf8Encode s.toList

def toString? (s : Bytes) : Option String := (Text.utf8Decode? s).map String.ofList

def toStringLossy (s : Bytes) : String := String.ofList (Text.utf8DecodeLossy s)

end Bytes

end RuleGate
