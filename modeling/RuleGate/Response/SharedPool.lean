import RuleGate.Response.Draft

/-!
# Drafts over a shared pool

Any number of response drafts that take their buffers from one pool, step by step and in any order. A
draft borrows a buffer when it first writes and gives it back when it is flushed or dropped. The pool keeps
books of the buffers it lends. No step goes to the pool more than once, so steps of different drafts that
overlap in time do what they would do one after the other.
-/

namespace RuleGate

/-- What one draft is told to do. -/
inductive DraftStep where
  | write (data : Bytes)
  | resetBody
  | absorb (response : Response)
  | flush
  | drop

/-- A pool with its books: the buffers lent so far, each as it was handed out, and the loans that were
returned. A loan is known by its number among all of them. -/
structure LendingPool where
  pool : BufferPool
  lent : List Buffer
  returned : List Nat

namespace LendingPool

def start (pool : BufferPool) : LendingPool := ⟨pool, [], []⟩

def lend (l : LendingPool) : Buffer × LendingPool :=
  let (b, pool) := l.pool.acquire
  (b, { l with pool := pool, lent := l.lent ++ [b] })

/-- Takes back the buffer of a loan. -/
def takeBack (l : LendingPool) (loan : Nat) (b : Buffer) : LendingPool :=
  { l with pool := l.pool.release b, returned := l.returned ++ [loan] }

end LendingPool

/-- A draft with the number of the loan that its buffer is; the number means nothing while there is no
buffer. -/
structure Borrower where
  draft : ResponseDraft
  loan : Nat

namespace Borrower

def fresh : Borrower := ⟨.empty, 0⟩

def withDraft (d : Borrower) (f : ResponseDraft → ResponseDraft) : Borrower :=
  { d with draft := f d.draft }

/-- The buffer to write into: the one that is held, or one that is borrowed now. -/
def supply (l : LendingPool) (d : Borrower) : Buffer × Borrower × LendingPool :=
  match d.draft.buffer? with
  | some b => (b, d, l)
  | none =>
    let (b, l') := l.lend
    (b, { d with loan := l.lent.length }, l')

/-- Takes the buffer out of the draft, if it holds one, and gives it back. -/
def handBack (l : LendingPool) (d : Borrower) : Borrower × LendingPool :=
  match d.draft.buffer? with
  | some b => (d.withDraft fun r => { r with buffer? := none }, l.takeBack d.loan b)
  | none => (d, l)

/-- A draft that ends gives back what it still holds. -/
def drop (l : LendingPool) (d : Borrower) : LendingPool := (d.handBack l).2

/-- A flushed draft hands its buffer back once the response is made, and then it ends. -/
def flush (l : LendingPool) (d : Borrower) : Response × LendingPool :=
  let (rest, l) := d.handBack l
  (d.draft.flush, rest.drop l)

/-- One step of one draft. A flushed or dropped draft starts again empty. -/
def step (l : LendingPool) (d : Borrower) : DraftStep → Borrower × LendingPool × Option Response
  | .write data =>
    let (b, d, l) := d.supply l
    (d.withDraft (·.writeInto b data), l, none)
  | .resetBody => (d.withDraft (·.resetBody), l, none)
  | .absorb r =>
    if r.body.isEmpty then (d.withDraft (·.absorbHead r), l, none)
    else
      let (b, d, l) := d.supply l
      (d.withDraft (·.absorbInto b r), l, none)
  | .flush =>
    let (response, l) := d.flush l
    (.fresh, l, some response)
  | .drop => (.fresh, d.drop l, none)

end Borrower

/-- A pool, the drafts that use it, and the responses flushed so far, each with the number of its
draft. -/
structure SharedPool where
  lending : LendingPool
  drafts : List Borrower
  flushed : List (Nat × Response)

namespace SharedPool

def start (pool : BufferPool) (drafts : Nat) : SharedPool :=
  ⟨.start pool, List.replicate drafts .fresh, []⟩

/-- One step of the draft with the given number. -/
def step (s : SharedPool) (i : Nat) (what : DraftStep) : SharedPool :=
  match s.drafts[i]? with
  | none => s
  | some d =>
    let (d', lending, response) := d.step s.lending what
    ⟨lending, s.drafts.set i d', s.flushed ++ (response.map fun r => (i, r)).toList⟩

def run (s : SharedPool) (steps : List (Nat × DraftStep)) : SharedPool :=
  steps.foldl (fun s (i, what) => s.step i what) s

end SharedPool

end RuleGate
