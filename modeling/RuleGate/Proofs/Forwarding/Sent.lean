import RuleGate.Forwarding
import RuleGate.Proofs.Http.Header
import RuleGate.Proofs.Sample

/-!
# The request that an upstream gets

Forwarding asks the network for one answer. The request it asks with is found by varying the network: it is the
one on whose answer alone the result depends, in every world.
-/

namespace RuleGate.Forwarding

variable {upstream : Uri} {r sent : Request}

/-- What forwarding makes of an answer of the network. -/
def received : Except String Response → Except CommandError Response
  | .error text => .error (.upstream text)
  | .ok response => .ok { response with headers := stripHopByHop response.headers }

/-- Forwarding a request sends another one: its result is the answer of the network to that one, whatever the
network answers. -/
def Sends (upstream : Uri) (r sent : Request) : Prop :=
  ∀ w : World, (forward r upstream w).1 = received (w.network sent)

theorem sends_outgoing {u : Uri} (htarget : target upstream r.uri = .ok u) :
    Sends upstream r (outgoing r u) := by
  intro w
  have hnetwork (e : LogEvent) : (w.noteEvent e).network = w.network := rfl
  unfold forward
  rw [htarget]
  dsimp only
  rw [hnetwork]
  cases w.network (outgoing r u) <;> rfl

/-- Nothing else is sent: a network that answers this request alone tells it from all others. -/
theorem sends_iff : Sends upstream r sent ↔ ∃ u, target upstream r.uri = .ok u ∧ sent = outgoing r u := by
  constructor
  · intro h
    let w : World := { World.quiet with
      network := fun q ↦ if q = sent then .ok (.ofStatus .ok) else .error "unreachable" }
    have hanswer : (forward r upstream w).1 = received (.ok (.ofStatus .ok)) := by
      rw [h w]
      exact congrArg received (if_pos rfl)
    cases htarget : target upstream r.uri with
    | error e =>
      unfold forward at hanswer
      rw [htarget] at hanswer
      cases hanswer
    | ok u =>
      refine ⟨u, rfl, ?_⟩
      by_contra hother
      have hnone : w.network (outgoing r u) = .error "unreachable" := if_neg (Ne.symm hother)
      rw [sends_outgoing htarget w, hnone] at hanswer
      cases hanswer
  · intro ⟨u, htarget, hsent⟩
    rw [hsent]
    exact sends_outgoing htarget

/-! ## The headers that tell where it came from -/

theorem getAll_forwardedFor_outgoing (r : Request) (u : Uri) :
    (outgoing r u).headers.getAll .forwardedFor =
      (addPeer r (stripHopByHop (r.headers.erase .host))).getAll .forwardedFor := by
  have hhost (h : Headers) : (addHost r h).getAll .forwardedFor = h.getAll .forwardedFor := by
    unfold addHost
    split
    · exact Headers.getAll_insert_of_ne h (by decide) _
    · rfl
  rw [outgoing, addForwarded, addScheme, Headers.getAll_insert_of_ne _ (by decide), hhost]

theorem getAll_forwardedProto_outgoing (r : Request) (u : Uri) :
    (outgoing r u).headers.getAll .forwardedProto =
      [Bytes.ofString (if r.uri.scheme = some "https" then "https" else "http")] := by
  rw [outgoing, addForwarded, addScheme, Headers.getAll_insert_self]

end RuleGate.Forwarding
