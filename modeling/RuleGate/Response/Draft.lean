import RuleGate.Http.Message
import RuleGate.Response.Buffer
import RuleGate.Text.Quoted

/-!
# Response drafts

The response to one request while rules still work on it: a status, headers, a body and the errors of
commands that failed. Nothing of it reaches the client before it is flushed. The body is written into
a buffer that is taken at the first write; where the buffer comes from is up to the caller.
-/

namespace RuleGate

structure ResponseDraft where
  /-- The status recorded last. -/
  status? : Option Status
  headers : Headers
  buffer? : Option Buffer
  errors : List String
deriving Repr

namespace ResponseDraft

def empty : ResponseDraft := ⟨none, .empty, none, []⟩

/-- The status recorded last, or 200. -/
def status (d : ResponseDraft) : Status := d.status?.getD .ok

def setStatus (d : ResponseDraft) (s : Status) : ResponseDraft := { d with status? := some s }

def body (d : ResponseDraft) : Bytes :=
  match d.buffer? with
  | some b => b.content
  | none => []

/-- Appends to the body. `spare` is the buffer to take if there is none yet. -/
def writeInto (d : ResponseDraft) (spare : Buffer) (data : Bytes) : ResponseDraft :=
  { d with buffer? := some ((d.buffer?.getD spare).append data) }

/-- Appends to the body, in a buffer of its own. -/
def write (d : ResponseDraft) (data : Bytes) : ResponseDraft := d.writeInto .fresh data

/-- Forgets the body but keeps its buffer. -/
def resetBody (d : ResponseDraft) : ResponseDraft := { d with buffer? := d.buffer?.map Buffer.clear }

def withHeaders (d : ResponseDraft) (f : Headers → Headers) : ResponseDraft :=
  { d with headers := f d.headers }

/-- Records that a command of a rule failed. -/
def appendError (d : ResponseDraft) (rule text : String) : ResponseDraft :=
  { d with errors := d.errors ++ ["rule " ++ Text.quoted rule ++ " error: " ++ text] }

/-- Takes over the head of a response: its status replaces the recorded one, its headers follow those
recorded already. -/
def absorbHead (d : ResponseDraft) (r : Response) : ResponseDraft :=
  { d with status? := some r.status, headers := d.headers.appendAll r.headers }

/-- Takes over a response; an empty body takes no buffer. -/
def absorbInto (d : ResponseDraft) (spare : Buffer) (r : Response) : ResponseDraft :=
  if r.body.isEmpty then d.absorbHead r else (d.absorbHead r).writeInto spare r.body

def absorb (d : ResponseDraft) (r : Response) : ResponseDraft := d.absorbInto .fresh r

/-- The decimal digits of a length, as a header value. -/
def lengthValue (n : Nat) : Bytes := Bytes.ofString (toString n)

/-- The headers of the final response: those that frame a body differently go, and the length is that
of the body. -/
def finalHeaders (d : ResponseDraft) : Headers :=
  ((d.headers.erase .transferEncoding).erase .trailer).insert .contentLength (lengthValue d.body.length)

/-- The final response. -/
def flush (d : ResponseDraft) : Response := ⟨d.status, d.finalHeaders, d.body, none⟩

/-- The recorded errors as one text, if there are any. -/
def errorText? (d : ResponseDraft) : Option String :=
  if d.errors.isEmpty then none else some ("\n".intercalate d.errors)

end ResponseDraft

end RuleGate
