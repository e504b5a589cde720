/-!
# Blowfish

The block cipher as password hashing uses it: its tables start out as the binary digits of π, and
expanding a key stirs the key, and possibly a salt, into them.
-/

namespace RuleGate

/-- The tables of the cipher: 18 subkeys, and four boxes of 256 words, one after the other. -/
structure Blowfish where
  subkeys : Array UInt32
  boxes : Array UInt32

namespace Blowfish

/-- The sum of the first terms of the series of `arctan (1 / x)`, times `unit` and rounded down at
every step. -/
def arctanInverse (unit x terms : Nat) : Int :=
  let step := fun (power, sum) (i : Nat) =>
    let term : Int := power / (2 * i + 1 : Nat)
    (power / (x * x : Nat), if i % 2 = 0 then sum + term else sum - term)
  ((List.range terms).foldl step (((unit / x : Nat) : Int), (0 : Int))).2

/-- The number of 32-bit words in the tables. -/
def tableWords : Nat := 18 + 4 * 256

/-- The fraction of π in binary, as many digits as the tables have, from
`π = 16 arctan (1 / 5) - 4 arctan (1 / 239)`. The terms and the 64 digits to spare keep the error of
rounding below the last digit. -/
def piFraction : Nat :=
  let digits := 32 * tableWords
  let unit := Nat.pow 2 (digits + 64)
  let pi := 16 * arctanInverse unit 5 (digits / 4 + 32) - 4 * arctanInverse unit 239 (digits / 15 + 32)
  ((pi - 3 * unit) / Nat.pow 2 64).toNat

/-- The last `count` words of a number, the highest first. -/
def wordsOf (count n : Nat) : List UInt32 :=
  (List.range count).map fun i => UInt32.ofNat ((n >>> (32 * (count - 1 - i))) % 4294967296)

def initial : Blowfish :=
  let words := (wordsOf tableWords piFraction).toArray
  ⟨words.extract 0 18, words.extract 18 tableWords⟩

/-- A byte of a word, the highest one being number 0. -/
def byteOf (w : UInt32) (i : UInt32) : Nat := ((w >>> (24 - 8 * i)) &&& 255).toNat

/-- The round function: one word of each box, picked by the bytes of the argument. -/
def mix (b : Blowfish) (w : UInt32) : UInt32 :=
  let pick (box : Nat) (i : UInt32) := b.boxes.getD (256 * box + byteOf w i) 0
  ((pick 0 0 + pick 1 1) ^^^ pick 2 2) + pick 3 3

def round (b : Blowfish) (block : UInt32 × UInt32) (i : Nat) : UInt32 × UInt32 :=
  let left := block.1 ^^^ b.subkeys.getD i 0
  (block.2 ^^^ b.mix left, left)

def encrypt (b : Blowfish) (block : UInt32 × UInt32) : UInt32 × UInt32 :=
  let (right, left) := (List.range 16).foldl b.round block
  (left ^^^ b.subkeys.getD 17 0, right ^^^ b.subkeys.getD 16 0)

/-- Writes two words of the tables, the subkeys counting as the first ones. -/
def store (b : Blowfish) (i : Nat) (block : UInt32 × UInt32) : Blowfish :=
  if i < 18 then
    { b with subkeys := (b.subkeys.setIfInBounds i block.1).setIfInBounds (i + 1) block.2 }
  else
    { b with boxes := (b.boxes.setIfInBounds (i - 18) block.1).setIfInBounds (i - 17) block.2 }

/-- The `i`-th word of a key that is repeated for ever. -/
def keyWord (key : Array UInt8) (i : Nat) : UInt32 :=
  (List.range 4).foldl (fun w k => (w <<< 8) ||| (key.getD ((4 * i + k) % key.size) 0).toUInt32) 0

/-- Expands a key, after adding the words of the salt to the blocks in turn. -/
def expand (b : Blowfish) (salt key : Array UInt8) : Blowfish :=
  let b := { b with subkeys := b.subkeys.mapIdx fun i w => w ^^^ keyWord key i }
  let step := fun (b, block) (i : Nat) =>
    let salted := (block.1 ^^^ keyWord salt (2 * i), block.2 ^^^ keyWord salt (2 * i + 1))
    let block := Blowfish.encrypt b salted
    (b.store (2 * i) block, block)
  ((List.range (tableWords / 2)).foldl step (b, ((0 : UInt32), (0 : UInt32)))).1

end Blowfish

end RuleGate
