import RuleGate.Proofs.Exchange.Coherence

/-!
# The path of every request

For a target of any form, an authority alone included, what is noted of the path is the path that the target
has. Notes of parameters are left out: of an authority alone they need not be those of the target.
-/

namespace RuleGate

namespace Uri

variable {u : Uri}

theorem Sound.withParams (h : u.Sound) (hform : ¬ u.IsAuthority) (p : Params) : (u.withParams p).Sound where
  formed := h.formed.withParams p
  settled := fun _ ↦ (h.settled hform).withParams p
  authority := fun hauthority ↦ absurd hauthority hform

theorem Sound.withDecodedPath (h : u.Sound) {path : String} (hpath : path ≠ "") :
    (u.withDecodedPath path).Sound where
  formed := h.formed.withDecodedPath path
  settled := fun _ ↦ settled_withDecodedPath h.formed.hasChars.not_mem_query hpath
  authority := fun hauthority ↦ absurd hauthority (not_isAuthority_withDecodedPath u path)

end Uri

namespace Exchange

/-- The target is sound, and the path is noted as the target has it. -/
structure Grounded (x : Exchange) : Prop where
  target : x.request.uri.Sound
  path : Agrees x.memo.path x.request.decodedPath

theorem start_grounded {text : String} {r : Request} (h : Uri.ofString text = .ok r.uri) :
    (start r).Grounded := ⟨Uri.sound_of_ofString h, agrees_none⟩

namespace Grounded

variable {x : Exchange}

theorem path_eq (h : x.Grounded) : x.path = x.request.decodedPath := h.path.getD_eq

theorem remember (h : x.Grounded) (d : Derived) : (x.remember d).Grounded := by
  cases d with
  | path => exact ⟨h.target, agrees_some h.path_eq⟩
  | form =>
    unfold Exchange.remember
    dsimp only
    split
    · exact h
    · exact ⟨h.target, h.path⟩
  | _ => exact ⟨h.target, h.path⟩

theorem updateCookies (h : x.Grounded) (f : List Cookie → List Cookie) : (x.updateCookies f).1.Grounded := by
  rw [updateCookies_eq]
  exact ⟨h.target, h.path⟩

theorem updateQuery (h : x.Grounded) (f : Params → Params) : (x.updateQuery f).1.Grounded := by
  by_cases hform : x.request.uri.IsAuthority
  · rw [updateQuery_of_authority h.target hform]
    split
    · exact ⟨h.target, h.path⟩
    · exact h.remember .query
  · have hsettled := h.target.settled hform
    rcases updateQuery_cases hsettled f with hupdate | hupdate
    · rw [hupdate]
      exact h.remember .query
    · rw [hupdate]
      have hpath := Uri.path_withParams hsettled (f x.query)
      exact ⟨h.target.withParams hform _, fun v hv ↦
        (h.path v hv).trans (congrArg Percent.decodeOrSelf hpath.symm)⟩

theorem setPath (h : x.Grounded) {path : String} (hpath : path ≠ "") : (x.setPath path).1.Grounded := by
  rcases setPath_cases h.target.formed.hasChars.not_mem_query path with hset | hset
  · rw [hset]
    exact h
  · rw [hset]
    exact ⟨h.target.withDecodedPath hpath, agrees_none⟩

end Grounded

end Exchange

end RuleGate
