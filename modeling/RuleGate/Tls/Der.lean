import RuleGate.Text.Utf8

/-!
# DER

The tagged elements that keys and certificates are written in: a tag of one byte, a length in its
shortest form, and the content. Elements with tags or contents too long for this form are refused.
-/

namespace RuleGate

structure DerElement where
  tag : UInt8
  content : Bytes
deriving DecidableEq, Repr

namespace DerElement

def integerTag : UInt8 := 0x02

def bitStringTag : UInt8 := 0x03

def octetStringTag : UInt8 := 0x04

def objectTag : UInt8 := 0x06

def sequenceTag : UInt8 := 0x30

/-- The tag of the field of a sequence that has a number instead of a type. -/
def fieldTag (number : Nat) : UInt8 := UInt8.ofNat (0xA0 + number)

/-- Reads a length and returns the rest. -/
def readLength? : Bytes → Option (Nat × Bytes)
  | [] => none
  | b :: r =>
    if b.toNat < 0x80 then some (b.toNat, r)
    else
      match b.toNat - 0x80, r with
      | 1, c :: r => if c.toNat < 0x80 then none else some (c.toNat, r)
      | 2, c :: d :: r => if c.toNat = 0 then none else some (c.toNat * 256 + d.toNat, r)
      | _, _ => none

/-- Reads an element and returns the rest. -/
def read? : Bytes → Option (DerElement × Bytes)
  | [] => none
  | tag :: r =>
    if tag.toNat % 32 = 31 then none
    else
      match readLength? r with
      | none => none
      | some (n, r) => if r.length < n then none else some (⟨tag, r.take n⟩, r.drop n)

/-- The elements of a text, at most as many as there is fuel. -/
def readMany? : Nat → Bytes → Option (List DerElement)
  | _, [] => some []
  | 0, _ :: _ => none
  | fuel + 1, b :: r => do
    let (e, rest) ← read? (b :: r)
    return e :: (← readMany? fuel rest)

/-- The elements that a text consists of; each takes at least two bytes. -/
def ofBytes? (s : Bytes) : Option (List DerElement) := readMany? s.length s

def lengthBytes (n : Nat) : Bytes :=
  if n < 0x80 then [UInt8.ofNat n]
  else if n < 0x100 then [0x81, UInt8.ofNat n]
  else [0x82, UInt8.ofNat (n / 256), UInt8.ofNat (n % 256)]

def toBytes (e : DerElement) : Bytes := e.tag :: lengthBytes e.content.length ++ e.content

/-- The parts of an element that has the given tag. -/
def parts? (tag : UInt8) (e : DerElement) : Option (List DerElement) :=
  if e.tag = tag then ofBytes? e.content else none

/-- The parts of a text that is one sequence. -/
def sequence? (s : Bytes) : Option (List DerElement) :=
  match ofBytes? s with
  | some [e] => e.parts? sequenceTag
  | _ => none

def isInteger (n : UInt8) (e : DerElement) : Bool := e == ⟨integerTag, [n]⟩

end DerElement

end RuleGate
