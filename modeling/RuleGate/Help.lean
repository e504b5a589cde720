/-!
# Usage texts

The description of a check, a directive or a field, and how it is laid out: the usage line, the
description indented by two, and the arguments with their names padded to one width.
-/

namespace RuleGate

structure Help where
  command : String
  description : List String
  args : List (String × String)
deriving DecidableEq, Repr

namespace Help

/-- The command and its arguments in angle brackets. -/
def usage (h : Help) : String :=
  h.command ++ String.join (h.args.map fun (arg, _) => " <" ++ arg ++ ">")

/-- The longest argument name, in bytes. -/
def width (h : Help) : Nat := h.args.foldl (fun w (arg, _) => max w arg.utf8ByteSize) 0

/-- Fills a name up with spaces. -/
def pad (width : Nat) (s : String) : String :=
  s ++ String.ofList (List.replicate (width - s.length) ' ')

def text (h : Help) : String :=
  let description := h.description.map fun line => "\n  " ++ line
  let args := h.args.map fun (arg, about) => "\n    " ++ pad h.width arg ++ ": " ++ about
  h.usage ++ String.join description ++
    if h.args.isEmpty then "" else "\n  args:" ++ String.join args

end Help

end RuleGate
