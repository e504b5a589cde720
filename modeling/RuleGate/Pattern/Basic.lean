/-!
# Regular patterns

Regular expressions over any alphabet, with zero-width tests of the two neighbours of a position.
A pattern is run on all positions of a text at once: `reach` takes the positions where it may start,
as a list of flags with one more entry than the text, to the positions where it may end.
-/

namespace RuleGate

inductive Pattern (α : Type) where
  /-- Matches nothing. -/
  | never
  /-- The empty text. -/
  | empty
  /-- One symbol of a class. -/
  | one (p : α → Bool)
  /-- Any number of symbols of a class. -/
  | run (p : α → Bool)
  /-- A position, judged by the symbols before and after it. -/
  | edge (p : Option α → Option α → Bool)
  | seq (a b : Pattern α)
  | alt (a b : Pattern α)
  | star (a : Pattern α)

namespace Pattern

variable {α : Type}

/-- The symbols before and after each position. -/
def neighbours (before : Option α) : List α → List (Option α × Option α)
  | [] => [(before, none)]
  | c :: r => (before, some c) :: neighbours (some c) r

/-- Positions reached by any number of symbols of a class. -/
def spread (p : α → Bool) (carried : Bool) : List α → List Bool → List Bool
  | _, [] => []
  | [], m :: _ => [m || carried]
  | c :: r, m :: ms =>
    let here := m || carried
    here :: spread p (here && p c) r ms

def union (a b : List Bool) : List Bool := a.zipWith (· || ·) b

/-- Adds what `f` reaches until nothing new is reached, at most `fuel` times. -/
def saturate (f : List Bool → List Bool) : Nat → List Bool → List Bool
  | 0, m => m
  | fuel + 1, m =>
    let m' := union m (f m)
    if m' == m then m else saturate f fuel m'

/-- The positions where the pattern ends when it starts at one of the given positions. -/
def reach : Pattern α → List α → List Bool → List Bool
  | never, _, m => m.map fun _ => false
  | empty, _, m => m
  | one p, s, m => false :: s.zipWith (fun c b => b && p c) m
  | run p, s, m => spread p false s m
  | edge p, s, m => m.zipWith (fun b (x, y) => b && p x y) (neighbours none s)
  | seq a b, s, m => reach b s (reach a s m)
  | alt a b, s, m => union (reach a s m) (reach b s m)
  | star a, s, m => saturate (reach a s) (s.length + 1) m

/-- Whether the pattern matches the whole text. -/
def matchesAll (p : Pattern α) (s : List α) : Bool :=
  (p.reach s (true :: s.map fun _ => false)).getLastD false

/-- Whether the pattern matches some piece of the text. -/
def matchesSome (p : Pattern α) (s : List α) : Bool :=
  (p.reach s (true :: s.map fun _ => true)).any id

/-- The patterns one after another. -/
def sequence : List (Pattern α) → Pattern α
  | [] => empty
  | [p] => p
  | p :: r => seq p (sequence r)

/-- Any one of the patterns. -/
def choice : List (Pattern α) → Pattern α
  | [] => never
  | [p] => p
  | p :: r => alt p (choice r)

def optional (p : Pattern α) : Pattern α := alt p empty

/-- Any number of times the pattern. -/
def many : Pattern α → Pattern α
  | one p => run p
  | p => star p

/-- `n` times the pattern. -/
def times (p : Pattern α) : Nat → Pattern α
  | 0 => empty
  | n + 1 => seq p (times p n)

/-- At most `n` times the pattern. -/
def upTo (p : Pattern α) : Nat → Pattern α
  | 0 => empty
  | n + 1 => optional (seq p (upTo p n))

/-- At least `low` times, and at most `high` times if there is a bound. -/
def repeated (p : Pattern α) (low : Nat) : Option Nat → Pattern α
  | none => seq (p.times low) p.many
  | some high => seq (p.times low) (p.upTo (high - low))

end Pattern

end RuleGate
