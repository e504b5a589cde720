/-!
# Decoding documents

What can be wrong with a document that should hold rules or settings, and the fields of a record in it.
Fields that a record does not know are passed over.
-/

namespace RuleGate

inductive DecodeError where
  /-- The text is not well-formed, or has more than one document. -/
  | malformed
  | missingField (name : String)
  | duplicateField (name : String)
  | unexpectedType (expected : String)
  /-- A rule file is neither of the two things it can be. -/
  | noVariant
deriving DecidableEq, Repr

namespace DecodeError

def message : DecodeError → String
  | malformed => "malformed document"
  | missingField name => "missing field \x60" ++ name ++ "\x60"
  | duplicateField name => "duplicate field \x60" ++ name ++ "\x60"
  | unexpectedType expected => "invalid type, expected " ++ expected
  | noVariant => "data did not match any variant of untagged enum RuleFile"

end DecodeError

abbrev Decoded (α : Type) := Except DecodeError α

/-- The known fields of a record, each at most once. -/
structure Fields (α : Type) where
  entries : List (String × α)

namespace Fields

variable {α β : Type}

/-- Picks the known fields out of the entries of a record. -/
def ofEntries (known : List String) : List (String × α) → Decoded (Fields α)
  | [] => .ok ⟨[]⟩
  | (k, v) :: r => do
    let rest ← ofEntries known r
    if !known.contains k then return rest
    if (rest.entries.lookup k).isSome then throw (.duplicateField k)
    return ⟨(k, v) :: rest.entries⟩

/-- A field that has to be there. -/
def required (f : Fields α) (name : String) (read : α → Decoded β) : Decoded β :=
  match f.entries.lookup name with
  | some v => read v
  | none => .error (.missingField name)

/-- A field that may be absent. -/
def withDefault (f : Fields α) (name : String) (default : β) (read : α → Decoded β) : Decoded β :=
  match f.entries.lookup name with
  | some v => read v
  | none => .ok default

end Fields

end RuleGate
