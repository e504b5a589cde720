import RuleGate.Text.Utf8

/-!
# Base64

Strict decoding and encoding for an alphabet of 64 characters, with or without padding. Decoding
refuses characters outside the alphabet, missing or misplaced padding, and unused bits that are not
zero.
-/

namespace RuleGate

/-- A Base64 variant: its digits in order of value, and whether groups are padded with `=`. -/
structure Base64 where
  digits : List Char
  padded : Bool

namespace Base64

def standard : Base64 :=
  ⟨"ABCDEFGHIJKLMNOPQRSTUVWXYZabcdefghijklmnopqrstuvwxyz0123456789+/".toList, true⟩

def value? (v : Base64) (c : Char) : Option Nat :=
  let i := v.digits.idxOf c
  if i < v.digits.length then some i else none

def digit (v : Base64) (n : Nat) : Char := v.digits.getD n 'A'

/-- The last group, of two or three digits, without its padding. -/
def decodeLast? (v : Base64) : List Char → Option Bytes
  | [a, b] => do
    let a ← v.value? a
    let b ← v.value? b
    if b % 16 = 0 then some [UInt8.ofNat (a * 4 + b / 16)] else none
  | [a, b, c] => do
    let a ← v.value? a
    let b ← v.value? b
    let c ← v.value? c
    if c % 4 = 0 then
      some [UInt8.ofNat (a * 4 + b / 16), UInt8.ofNat (b % 16 * 16 + c / 4)]
    else none
  | _ => none

def decodeGroup? (v : Base64) (a b c d : Char) : Option Bytes := do
  let a ← v.value? a
  let b ← v.value? b
  let c ← v.value? c
  let d ← v.value? d
  some [UInt8.ofNat (a * 4 + b / 16), UInt8.ofNat (b % 16 * 16 + c / 4),
    UInt8.ofNat (c % 4 * 64 + d)]

def decode? (v : Base64) : List Char → Option Bytes
  | [] => some []
  | [a, b, '=', '='] => if v.padded then v.decodeLast? [a, b] else none
  | [a, b, c, '='] => if v.padded then v.decodeLast? [a, b, c] else none
  | a :: b :: c :: d :: r => do return (← v.decodeGroup? a b c d) ++ (← v.decode? r)
  | s => if v.padded then none else v.decodeLast? s

def encode (v : Base64) : Bytes → List Char
  | [] => []
  | [a] =>
    let a := a.toNat
    [v.digit (a / 4), v.digit (a % 4 * 16)] ++ if v.padded then ['=', '='] else []
  | [a, b] =>
    let a := a.toNat
    let b := b.toNat
    [v.digit (a / 4), v.digit (a % 4 * 16 + b / 16), v.digit (b % 16 * 4)] ++
      if v.padded then ['='] else []
  | a :: b :: c :: r =>
    let a := a.toNat
    let b := b.toNat
    let c := c.toNat
    v.digit (a / 4) :: v.digit (a % 4 * 16 + b / 16) :: v.digit (b % 16 * 4 + c / 64) ::
      v.digit (c % 64) :: v.encode r

end Base64

end RuleGate
