import RuleGate.Proofs.Rule.Orchestration

/-!
# Denied requests

A rule whose commands end in a terminating one does not let the request through, whether they succeed or
fail. If it is the first request rule and applies, the upstream is not called.
-/

namespace RuleGate

/-- The last command of the block terminates, and no other one ends the rule. -/
structure CommandBlock.Denies (b : CommandBlock) : Prop where
  last : b.isTerminating = true
  placed : isMisplaced b.commands = false

theorem CommandBlock.Denies.outcome_eq {b : CommandBlock} (h : b.Denies) (s : Scene) :
    (b.runFrom s).outcome = .terminated := by
  have hlast : ∃ c, b.commands.getLast? = some c ∧ c.kind = .terminating := by
    have hend := h.last
    unfold isTerminating at hend
    split at hend
    · next c hc => exact ⟨c, hc, by simpa using hend⟩
    · cases hend
  rw [BlockRun.outcome, runFrom, run]
  rcases Command.runAll_of_terminating s hlast h.placed with hrun | ⟨e, hrun⟩
  · rw [hrun]
  · rw [hrun]

namespace RuleSet

/-- The upstream is not called for a request that the first rule denies. -/
theorem Course.IsOf.call_eq_none {rules rest : List Rule} {deny : Rule} {upstream : Handler}
    {request : Request} {world : World} {c : Course} {last : Scene}
    (h : c.IsOf rules upstream request world last) (hfirst : (ofRules rules).before = deny :: rest)
    (hdenies : deny.block.Denies) (happlies : deny.applies (.start request) = true) : c.call = none := by
  obtain ⟨before, ended, early, call, after, late⟩ := c
  have hrun := h.run
  have htried := h.obeys.before_tried
  dsimp only at htried
  rw [hfirst] at htried
  have hended : ended = .terminated := by
    cases htried with
    | passedOver _ =>
      obtain ⟨s₁, hmove, -⟩ := hrun.of_cons
      cases hmove with
      | passedOver _ fails => exact absurd happlies (Bool.eq_false_iff.mp fails)
    | proceeded hproceeds _ =>
      obtain ⟨s₁, hmove, -⟩ := hrun.of_cons
      cases hmove
      rw [hdenies.outcome_eq] at hproceeds
      cases hproceeds
    | stopped _ =>
      obtain ⟨s₁, hmove, -⟩ := hrun.of_cons
      cases hmove
      exact hdenies.outcome_eq _
  subst hended
  have hearly : early = none := by
    have hiff := h.obeys.early_iff
    simpa using hiff
  have hcall := h.obeys.call_iff
  subst hearly
  simpa [requestEnd] using hcall

end RuleSet

end RuleGate
