import RuleGate.Exchange.Update
import RuleGate.World

/-!
# Scenes

Where commands act: an exchange, and the world around it.
-/

namespace RuleGate

structure Scene where
  exchange : Exchange
  world : World

namespace Scene

def withExchange (s : Scene) (f : Exchange → Exchange) : Scene := { s with exchange := f s.exchange }

def withDraft (s : Scene) (f : ResponseDraft → ResponseDraft) : Scene :=
  s.withExchange (·.withDraft f)

def withWorld (s : Scene) (f : World → World) : Scene := { s with world := f s.world }

/-- Makes a change to the exchange and notes its warnings. -/
def update (s : Scene) (f : Exchange → Exchange.Updated) : Scene :=
  ⟨(f s.exchange).1, s.world.noteEvents (f s.exchange).2⟩

/-- The scene after a command, and whether the command failed. -/
abbrev Result := Except CommandError Unit × Scene

end Scene

end RuleGate
