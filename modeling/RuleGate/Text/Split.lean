/-!
# Cutting lists at separators

Splitting at every separator, at the first and at the last one, joining, and searching for a
contiguous piece. All of it works on lists over any alphabet, so texts and byte strings share it.
-/

namespace RuleGate.Text

variable {α : Type}

/-- The pieces between separators; there is one more piece than there are separators. -/
def splitWhere (p : α → Bool) : List α → List (List α)
  | [] => [[]]
  | c :: r =>
    if p c then [] :: splitWhere p r
    else
      match splitWhere p r with
      | [] => [[c]]
      | w :: ws => (c :: w) :: ws

def splitOn [BEq α] (sep : α) (s : List α) : List (List α) := splitWhere (· == sep) s

/-- The parts before and after the first separator. -/
def cut? [BEq α] (sep : α) : List α → Option (List α × List α)
  | [] => none
  | c :: r => if c == sep then some ([], r) else (cut? sep r).map fun (a, b) => (c :: a, b)

/-- The parts before and after the last separator. -/
def cutLast? [BEq α] (sep : α) : List α → Option (List α × List α)
  | [] => none
  | c :: r =>
    match cutLast? sep r with
    | some (a, b) => some (c :: a, b)
    | none => if c == sep then some ([], r) else none

/-- The part before the first separator, or everything. -/
def before [BEq α] (sep : α) (s : List α) : List α := s.takeWhile (fun c => !(c == sep))

def dropPrefix? [BEq α] : List α → List α → Option (List α)
  | [], s => some s
  | _ :: _, [] => none
  | p :: ps, c :: s => if p == c then dropPrefix? ps s else none

/-- Whether `pat` occurs in the list as a contiguous piece. -/
def hasPiece [BEq α] (pat : List α) : List α → Bool
  | [] => pat.isEmpty
  | c :: r => pat.isPrefixOf (c :: r) || hasPiece pat r

/-- The pieces with the separator text between them. -/
def join (sep : List α) : List (List α) → List α
  | [] => []
  | [w] => w
  | w :: ws => w ++ sep ++ join sep ws

/-- Lines end at a line feed, which takes a carriage return before it along; the text after the
last line feed is a line unless it is empty. -/
def lines : List Char → List (List Char)
  | [] => []
  | '\n' :: r => [] :: lines r
  | '\r' :: '\n' :: r => [] :: lines r
  | c :: r =>
    match lines r with
    | [] => [[c]]
    | w :: ws => (c :: w) :: ws

end RuleGate.Text
