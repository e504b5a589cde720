import RuleGate.Net.Address

/-!
# Networks

An address with a prefix length. A network contains the addresses of its family that agree with it on
the bits of the prefix.
-/

namespace RuleGate

structure Network where
  address : IpAddress
  length : Nat
deriving DecidableEq, Repr

namespace Network

/-- The network of one host. -/
def ofAddress (a : IpAddress) : Network := ⟨a, a.width⟩

/-- Clears the bits after the prefix. -/
def truncate (n : Network) : Network :=
  match n.address with
  | .v4 a => ⟨.v4 ((a >>> (32 - n.length)) <<< (32 - n.length)), n.length⟩
  | .v6 a => ⟨.v6 ((a >>> (128 - n.length)) <<< (128 - n.length)), n.length⟩

/-- Same family and same prefix bits. -/
def contains (n : Network) : IpAddress → Bool
  | .v4 b =>
    match n.address with
    | .v4 a => a >>> (32 - n.length) == b >>> (32 - n.length)
    | .v6 _ => false
  | .v6 b =>
    match n.address with
    | .v4 _ => false
    | .v6 a => a >>> (128 - n.length) == b >>> (128 - n.length)

/-- Whether the prefix covers the whole address. -/
def isHost (n : Network) : Bool := n.length == n.address.width

def text (n : Network) : String := n.address.text ++ "/" ++ toString n.length

open IpAddress

/-- Reads an address, a slash and a prefix length of at most three digits. -/
def parse? (s : List Char) : Option Network :=
  let v4Net : Reader Network := fun s => do
    let (a, s) ← readV4 .network s
    let (_, s) ← readChar '/' s
    let (n, s) ← readBelow 33 10 3 s
    some (⟨.v4 a, n⟩, s)
  let v6Net : Reader Network := fun s => do
    let (a, s) ← readV6 .network s
    let (_, s) ← readChar '/' s
    let (n, s) ← readBelow 129 10 3 s
    some (⟨.v6 a, n⟩, s)
  match v4Net s with
  | some (n, r) => if r.isEmpty then some n else none
  | none => whole v6Net s

end Network

end RuleGate
