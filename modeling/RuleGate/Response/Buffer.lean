import RuleGate.Text.Utf8

/-!
# Buffers and their pool

Growable buffers for response bodies, and a bounded pool that hands out used ones. A buffer goes back
to the pool empty, and one that has grown too large does not go back at all.
-/

namespace RuleGate

/-- Bytes with the capacity that has been reserved for them. -/
structure Buffer where
  content : Bytes
  capacity : Nat
deriving DecidableEq, Repr

namespace Buffer

/-- The capacity of a buffer made because the pool was empty. -/
def initialCapacity : Nat := 4096

def withCapacity (n : Nat) : Buffer := ⟨[], n⟩

def fresh : Buffer := withCapacity initialCapacity

/-- The capacity after making room for `n` more bytes: at least doubled if there is not enough. -/
def grown (b : Buffer) (n : Nat) : Nat :=
  let needed := b.content.length + n
  if needed ≤ b.capacity then b.capacity else max 8 (max (2 * b.capacity) needed)

def append (b : Buffer) (data : Bytes) : Buffer := ⟨b.content ++ data, b.grown data.length⟩

def clear (b : Buffer) : Buffer := ⟨[], b.capacity⟩

end Buffer

/-- Buffers waiting to be used again, the one that has waited longest first. -/
structure BufferPool where
  limit : Nat
  buffers : List Buffer
deriving Repr

namespace BufferPool

/-- The largest capacity of a buffer that is kept, in bytes. -/
def maxCapacity : Nat := 1048576

/-- An empty pool; there is no pool without room for a buffer. -/
def empty? (limit : Nat) : Option BufferPool := if limit = 0 then none else some ⟨limit, []⟩

/-- Takes a buffer out of the pool, or makes one. -/
def acquire (p : BufferPool) : Buffer × BufferPool :=
  match p.buffers with
  | [] => (.fresh, p)
  | b :: r => (b, { p with buffers := r })

/-- Takes a buffer back. It is dropped if it is too large or the pool is full. -/
def release (p : BufferPool) (b : Buffer) : BufferPool :=
  if maxCapacity < b.capacity ∨ p.limit ≤ p.buffers.length then p
  else { p with buffers := p.buffers ++ [b.clear] }

end BufferPool

end RuleGate
