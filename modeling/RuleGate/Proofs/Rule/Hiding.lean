import RuleGate.Proofs.Rule.Phase

/-!
# Rules that hide others

A rule that applies to every request and never lets the next one run hides the rules behind it that run in its
phase. A request rule of that kind hides all response rules as well, unless a request rule blocks the request.
-/

namespace RuleGate

/-- A rule that applies to every request and never lets the next one run. -/
structure Rule.AlwaysStops (r : Rule) : Prop where
  applies : ∀ x, r.applies x = true
  stops : ∀ s, (r.block.runFrom s).outcome ≠ .proceed

namespace RuleSet

/-! ## Rules by phase -/

/-- The phase that a rule runs in. -/
def phaseOf (r : Rule) : Phase := if r.isResponseRule then .response else .request

/-- Whether a rule is one of those that are tried in a phase. -/
def isTriedIn (phase : Phase) (r : Rule) : Bool := !r.isDefault && phaseOf r == phase

theorem isTriedIn_phaseOf {r : Rule} (h : r.isDefault = false) : isTriedIn (phaseOf r) r = true := by
  rw [isTriedIn, h, beq_self_eq_true]
  rfl

theorem ofRules_before_eq (rules : List Rule) :
    (ofRules rules).before = rules.filter (isTriedIn .request) := by
  rw [ofRules_before]
  refine List.filter_congr fun r _ ↦ ?_
  rw [isRequestRule, isTriedIn, phaseOf]
  cases r.isResponseRule <;> rfl

theorem ofRules_after_eq (rules : List Rule) :
    (ofRules rules).after = rules.filter (isTriedIn .response) := by
  have hafter : (ofRules rules).after = (rules.filter fun r ↦ !r.isDefault).filter Rule.isResponseRule := rfl
  rw [hafter, List.filter_filter]
  refine List.filter_congr fun r _ ↦ ?_
  rw [isTriedIn, phaseOf, Bool.and_comm]
  cases r.isResponseRule <;> rfl

theorem not_isTrivial {rules : List Rule} {rule : Rule} (hmem : rule ∈ rules)
    (hdefault : rule.isDefault = false) : (ofRules rules).isTrivial = false := by
  have htried : rule ∈ rules.filter (isTriedIn (phaseOf rule)) :=
    List.mem_filter.mpr ⟨hmem, isTriedIn_phaseOf hdefault⟩
  rw [isTrivial, Bool.and_eq_false_iff, Bool.and_eq_false_iff]
  refine .inl ?_
  cases hphase : phaseOf rule with
  | request =>
    rw [hphase, ← ofRules_before_eq] at htried
    exact .inl (List.isEmpty_eq_false_iff.mpr (List.ne_nil_of_mem htried))
  | response =>
    rw [hphase, ← ofRules_after_eq] at htried
    exact .inr (List.isEmpty_eq_false_iff.mpr (List.ne_nil_of_mem htried))

/-- The rules that a course tries in a phase, in order. -/
def Course.tried (c : Course) : Phase → List Rule
  | .request => c.before.filterMap Event.rule?
  | .response => c.after.filterMap Event.rule?

variable {upstream : Handler} {phase : Phase} {rules front rest : List Rule} {stopper : Rule}

/-- No rule is tried after one that always stops the others. -/
theorem Tried.tried_within {es tail : List Event} {o : Outcome} {s last : Scene}
    (h : Tried phase (front ++ stopper :: rest) es o) (hrun : Run upstream s (es ++ tail) last)
    (hstops : stopper.AlwaysStops) : es.filterMap Event.rule? <+: front ++ [stopper] ∧ o ≠ .proceed := by
  induction front generalizing s es with
  | nil =>
    cases h with
    | passedOver _ =>
      obtain ⟨s', hmove, -⟩ := hrun.of_cons
      cases hmove with
      | passedOver _ fails => cases (hstops.applies _).symm.trans fails
    | proceeded hproceeds _ =>
      obtain ⟨s', hmove, -⟩ := hrun.of_cons
      cases hmove
      exact absurd hproceeds (hstops.stops _)
    | stopped hends => exact ⟨List.prefix_refl _, hends⟩
  | cons r front ih =>
    cases h with
    | passedOver htried =>
      obtain ⟨s', -, hrest⟩ := hrun.of_cons
      obtain ⟨hwithin, hends⟩ := ih htried hrest
      exact ⟨List.cons_prefix_cons.mpr ⟨rfl, hwithin⟩, hends⟩
    | proceeded _ htried =>
      obtain ⟨s', -, hrest⟩ := hrun.of_cons
      obtain ⟨hwithin, hends⟩ := ih htried hrest
      exact ⟨List.cons_prefix_cons.mpr ⟨rfl, hwithin⟩, hends⟩
    | stopped hends => exact ⟨List.cons_prefix_cons.mpr ⟨rfl, List.nil_prefix⟩, hends⟩

/-- No rule of the phase is tried that stands behind one that always stops the others. -/
theorem Tried.tried_in_front {es tail : List Event} {o : Outcome} {s last : Scene} {p : Rule → Bool}
    (h : Tried phase ((front ++ rest).filter p) es o) (hrun : Run upstream s (es ++ tail) last)
    (hmem : stopper ∈ front) (hp : p stopper = true) (hstops : stopper.AlwaysStops) :
    es.filterMap Event.rule? <+: front.filter p ∧ o ≠ .proceed := by
  obtain ⟨before, after, hfront⟩ := List.append_of_mem (List.mem_filter.mpr ⟨hmem, hp⟩)
  rw [List.filter_append, hfront, List.append_assoc, List.cons_append] at h
  obtain ⟨hwithin, hends⟩ := h.tried_within hrun hstops
  have hstopper : before ++ [stopper] <+: front.filter p := ⟨after, by rw [hfront]; simp⟩
  exact ⟨hwithin.trans hstopper, hends⟩

namespace Course

variable {request : Request} {world : World} {c : Course} {last : Scene}

/-- A request rule that always stops the others ends the request phase, and hides request rules. -/
theorem IsOf.hides_request (h : c.IsOf (front ++ rest) upstream request world last)
    (hmem : stopper ∈ front) (hphase : isTriedIn .request stopper = true) (hstops : stopper.AlwaysStops) :
    c.tried .request <+: front.filter (isTriedIn .request) ∧ c.ended ≠ .proceed := by
  have htried := h.obeys.before_tried
  rw [ofRules_before_eq] at htried
  have hrun := h.run
  rw [events, requestEvents, List.append_assoc] at hrun
  exact htried.tried_in_front hrun hmem hphase hstops

/-- A response rule that always stops the others hides response rules. -/
theorem IsOf.hides_response (h : c.IsOf (front ++ rest) upstream request world last)
    (hmem : stopper ∈ front) (hphase : isTriedIn .response stopper = true) (hstops : stopper.AlwaysStops) :
    c.tried .response <+: front.filter (isTriedIn .response) := by
  obtain hnil | ⟨o, htried⟩ := h.obeys.after_nil_or_tried
  · rw [tried, hnil]
    exact List.nil_prefix
  · rw [ofRules_after_eq] at htried
    have hrun := h.run
    rw [events, responseEvents] at hrun
    obtain ⟨s, -, hrun⟩ := hrun.of_append
    obtain ⟨s', -, hrun⟩ := hrun.of_append
    exact (htried.tried_in_front hrun hmem hphase hstops).1

/-- What a rule that always stops the others keeps from being tried: the rules behind it in its own phase,
and all response rules if it is a request rule and no request rule has blocked the request. -/
structure Hides (c : Course) (front : List Rule) (stopper late : Rule) : Prop where
  same_phase : phaseOf stopper = phaseOf late →
    c.tried (phaseOf late) <+: front.filter (isTriedIn (phaseOf late))
  no_block : phaseOf stopper = .request → c.ended ≠ .terminated → c.tried .response = []

theorem IsOf.hides (h : c.IsOf (front ++ rest) upstream request world last) (hmem : stopper ∈ front)
    (hdefault : stopper.isDefault = false) (hstops : stopper.AlwaysStops) (late : Rule) :
    c.Hides front stopper late where
  same_phase hphase := by
    have htried := isTriedIn_phaseOf hdefault
    rw [hphase] at htried
    cases hlate : phaseOf late with
    | request => exact (h.hides_request hmem (hlate ▸ htried) hstops).1
    | response => exact h.hides_response hmem (hlate ▸ htried) hstops
  no_block hphase hended := by
    have htried := isTriedIn_phaseOf hdefault
    rw [hphase] at htried
    have hproceed := (h.hides_request hmem htried hstops).2
    have hbypassed : c.ended = .bypassed := by
      cases hend : c.ended with
      | proceed => exact absurd hend hproceed
      | terminated => exact absurd hend hended
      | bypassed => rfl
    rw [tried, h.obeys.after_nil (.inl hbypassed)]
    rfl

end Course

end RuleSet

end RuleGate
