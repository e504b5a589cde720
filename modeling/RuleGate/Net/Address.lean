import RuleGate.Text.Integer
import RuleGate.Text.Split

/-!
# Internet addresses

IPv4 and IPv6 addresses and socket addresses, their texts, and the reading of those texts. Readers
take what they need from the front of a character list and return the rest. Two details of the
grammar are parameters: whether decimal octets may have leading zeros, and whether `::` may stand for
no group at all.
-/

namespace RuleGate

inductive IpAddress where
  | v4 (bits : BitVec 32)
  | v6 (bits : BitVec 128)
deriving DecidableEq, Repr

/-- A socket address; only an IPv6 address has a scope other than 0. -/
structure SocketAddress where
  ip : IpAddress
  port : Nat
  scope : Nat
deriving DecidableEq, Repr

/-- What an address grammar tolerates. -/
structure AddressGrammar where
  leadingZeros : Bool
  emptyGap : Bool

namespace AddressGrammar

/-- The grammar of plain addresses and socket addresses. -/
def plain : AddressGrammar := ⟨false, false⟩

/-- The grammar of the address in front of a prefix length. -/
def network : AddressGrammar := ⟨true, true⟩

end AddressGrammar

namespace IpAddress

abbrev Reader (α : Type) := List Char → Option (α × List Char)

def digitValue? (radix : Nat) (c : Char) : Option Nat :=
  let n := c.toNat
  let v := if 48 ≤ n ∧ n ≤ 57 then n - 48 else if 97 ≤ n ∧ n ≤ 102 then n - 87
    else if 65 ≤ n ∧ n ≤ 70 then n - 55 else radix
  if v < radix then some v else none

/-- The value of digits, most significant first. -/
def digitsValue (radix : Nat) (ds : List Char) : Nat :=
  ds.foldl (fun acc c => acc * radix + (digitValue? radix c).getD 0) 0

/-- Reads all digits in front; there must be between one and `most` of them. -/
def readNumber (radix most : Nat) : Reader Nat := fun s =>
  let ds := s.takeWhile fun c => (digitValue? radix c).isSome
  if ds.isEmpty ∨ most < ds.length then none
  else some (digitsValue radix ds, s.drop ds.length)

/-- Reads a number below `bound`. -/
def readBelow (bound radix most : Nat) : Reader Nat := fun s => do
  let (n, r) ← readNumber radix most s
  if n < bound then some (n, r) else none

def readChar (c : Char) : Reader Unit := fun s =>
  match s with
  | d :: r => if d = c then some ((), r) else none
  | [] => none

def readOctet (g : AddressGrammar) : Reader Nat := fun s => do
  let (n, r) ← readBelow 256 10 3 s
  if !g.leadingZeros ∧ s.head? = some '0' ∧ r.length + 1 < s.length then none else some (n, r)

def readV4 (g : AddressGrammar) : Reader (BitVec 32) := fun s => do
  let (a, s) ← readOctet g s
  let (_, s) ← readChar '.' s
  let (b, s) ← readOctet g s
  let (_, s) ← readChar '.' s
  let (c, s) ← readOctet g s
  let (_, s) ← readChar '.' s
  let (d, s) ← readOctet g s
  some (BitVec.ofNat 32 (((a * 256 + b) * 256 + c) * 256 + d), s)

/-- Reads a separator unless this is the first group. -/
def readSeparated {α : Type} (first : Bool) (read : Reader α) : Reader α := fun s =>
  if first then read s else do
    let (_, r) ← readChar ':' s
    read r

/-- Reads up to `limit` groups of 16 bits; an IPv4 address may stand for the last two. The flag tells
whether one did. -/
def readGroups (g : AddressGrammar) (first : Bool) :
    Nat → List Char → List Nat × Bool × List Char
  | 0, s => ([], false, s)
  | limit + 1, s =>
    let embedded := if limit = 0 then none else readSeparated first (readV4 g) s
    match embedded with
    | some (v, r) => ([v.toNat / 65536, v.toNat % 65536], true, r)
    | none =>
      match readSeparated first (readNumber 16 4) s with
      | none => ([], false, s)
      | some (n, r) =>
        let (ns, embeds, r) := readGroups g false limit r
        (n :: ns, embeds, r)

def ofGroups (ns : List Nat) : BitVec 128 :=
  BitVec.ofNat 128 (ns.foldl (fun acc n => acc * 65536 + n) 0)

def readV6 (g : AddressGrammar) : Reader (BitVec 128) := fun s =>
  let (head, embeds, r) := readGroups g true 8 s
  if head.length = 8 then some (ofGroups head, r)
  else if embeds then none
  else do
    let (_, r) ← readChar ':' r
    let (_, r) ← readChar ':' r
    let limit := 8 - head.length - (if g.emptyGap then 0 else 1)
    let (tail, _, r) := readGroups g true limit r
    some (ofGroups (head ++ List.replicate (8 - head.length - tail.length) 0 ++ tail), r)

def read (g : AddressGrammar) : Reader IpAddress := fun s =>
  match readV4 g s with
  | some (a, r) => some (v4 a, r)
  | none => (readV6 g s).map fun (a, r) => (v6 a, r)

/-- The result of a reader that takes the whole text. -/
def whole {α : Type} (read : Reader α) (s : List Char) : Option α :=
  match read s with
  | some (a, []) => some a
  | _ => none

def syntaxMessage : String := "invalid IP address syntax"

/-- Reads an address that is the whole text: IPv4 first, then IPv6. -/
def parse? (s : List Char) : Option IpAddress :=
  match whole (readV4 .plain) s with
  | some a => some (v4 a)
  | none => (whole (readV6 .plain) s).map v6

/-- The four octets, highest first. -/
def octets (a : BitVec 32) : List Nat :=
  [a.toNat / 16777216, a.toNat / 65536 % 256, a.toNat / 256 % 256, a.toNat % 256]

/-- The eight groups of 16 bits, highest first. -/
def groups (a : BitVec 128) : List Nat :=
  [7, 6, 5, 4, 3, 2, 1, 0].map fun i => (a >>> (16 * i)).toNat % 65536

def textV4 (a : BitVec 32) : List Char :=
  Text.join ['.'] ((octets a).map (Nat.toDigits 10))

/-- The IPv4 address mapped into an IPv6 address, if there is one. -/
def mapped? (a : BitVec 128) : Option (BitVec 32) :=
  if (a >>> 32).toNat = 0xFFFF then some (a.truncate 32) else none

/-- The start and the length of the first longest run of zeros. -/
def longestZeros : Nat → List Nat → Nat × Nat
  | _, [] => (0, 0)
  | i, n :: r =>
    let here := ((n :: r).takeWhile (· == 0)).length
    let best := longestZeros (i + 1) r
    if best.2 ≤ here then (i, here) else best

def textGroups (ns : List Nat) : List Char := Text.join [':'] (ns.map (Nat.toDigits 16))

def textV6 (a : BitVec 128) : List Char :=
  match mapped? a with
  | some b => "::ffff:".toList ++ textV4 b
  | none =>
    let ns := groups a
    let (start, length) := longestZeros 0 ns
    if 1 < length then
      textGroups (ns.take start) ++ ':' :: ':' :: textGroups (ns.drop (start + length))
    else textGroups ns

def text : IpAddress → String
  | v4 a => String.ofList (textV4 a)
  | v6 a => String.ofList (textV6 a)

/-- An IPv4 address in place of the IPv6 address it is mapped into. -/
def unmapped : IpAddress → IpAddress
  | v4 a => v4 a
  | v6 a =>
    match mapped? a with
    | some b => v4 b
    | none => v6 a

/-- The number of bits of the address family. -/
def width : IpAddress → Nat
  | v4 _ => 32
  | v6 _ => 128

end IpAddress

namespace SocketAddress

open IpAddress

def syntaxMessage : String := "invalid socket address syntax"

/-- Reads a number below `bound` with any number of digits. -/
def readWide (bound : Nat) : Reader Nat := fun s => readBelow bound 10 s.length s

def readPort : Reader Nat := fun s => do
  let (_, s) ← readChar ':' s
  readWide 65536 s

def readV4 : Reader SocketAddress := fun s => do
  let (a, s) ← IpAddress.readV4 .plain s
  let (port, s) ← readPort s
  some (⟨v4 a, port, 0⟩, s)

/-- Reads a scope such as `%3`, or nothing. -/
def readScope : Reader Nat := fun s =>
  match readChar '%' s with
  | none => some (0, s)
  | some (_, r) => (readWide 4294967296 r).or (some (0, s))

def readV6 : Reader SocketAddress := fun s => do
  let (_, s) ← readChar '[' s
  let (a, s) ← IpAddress.readV6 .plain s
  let (scope, s) ← readScope s
  let (_, s) ← readChar ']' s
  let (port, s) ← readPort s
  some (⟨v6 a, port, scope⟩, s)

def parse? (s : List Char) : Option SocketAddress :=
  (whole readV4 s).or (whole readV6 s)

def text (a : SocketAddress) : String :=
  match a.ip with
  | v4 b => String.ofList (textV4 b) ++ ":" ++ toString a.port
  | v6 b =>
    let scope := if a.scope = 0 then "" else "%" ++ toString a.scope
    "[" ++ String.ofList (textV6 b) ++ scope ++ "]:" ++ toString a.port

end SocketAddress

end RuleGate
