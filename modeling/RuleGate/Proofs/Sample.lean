import RuleGate.World

/-!
# A plain request and a quiet world

What statements about single runs start from.
-/

namespace RuleGate

/-- A request for a path, with neither headers nor a body. -/
def Request.plain (path : String) : Request :=
  ⟨"GET", ⟨none, none, ⟨path, none⟩⟩, .http11, .empty, [], none, none, false⟩

/-- A request for a path of a host, in absolute form. -/
def Request.absolute (host path : String) : Request :=
  { plain path with uri := ⟨some "http", some host, ⟨path, none⟩⟩ }

/-- A world without files and without faults, in which no other host can be reached. -/
def World.quiet : World := ⟨.ofFiles ⟨[], []⟩, "", .asEvents, fun _ ↦ .error "unreachable", .none, []⟩

end RuleGate
