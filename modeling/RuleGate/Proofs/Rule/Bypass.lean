import RuleGate.Proofs.Rule.Phase

/-!
# Bypassing requests

A request rule that ends in `pass` hands the request to the upstream at once. The rules after it, those
for the response and the default rule are then of no effect, whatever they are: the upstream gets the
same request in the same world, and what it answers goes to the client as it is.
-/

namespace RuleGate.RuleSet

/-! ## The first rule that stops the others -/

section Stops

variable {phase : Phase} {s s' last : Scene} {o : Outcome} {rule : Rule}
  {front front' rest rules : List Rule}

theorem runRules_cons (phase : Phase) (s : Scene) (rule : Rule) (rules : List Rule) :
    runRules phase (matchMessage phase) s (rule :: rules) =
      if rule.applies s.exchange = true then
        if (apply rule phase (matchMessage phase) s).1 = .proceed then
          runRules phase (matchMessage phase) (apply rule phase (matchMessage phase) s).2 rules
        else apply rule phase (matchMessage phase) s
      else runRules phase (matchMessage phase) s rules := by
  rw [runRules]
  generalize apply rule phase (matchMessage phase) s = applied
  obtain ⟨outcome, s'⟩ := applied
  cases outcome <;> rfl

theorem runRules_append_of_proceed (rest : List Rule)
    (h : (runRules phase (matchMessage phase) s front).1 = .proceed) :
    runRules phase (matchMessage phase) s (front ++ rest) =
      runRules phase (matchMessage phase) (runRules phase (matchMessage phase) s front).2 rest := by
  induction front generalizing s with
  | nil => rfl
  | cons rule front ih =>
    rw [runRules_cons] at h ⊢
    rw [List.cons_append, runRules_cons]
    split at h
    · next holds =>
      split at h
      · next proceeds => rw [if_pos holds, if_pos proceeds, if_pos holds, if_pos proceeds, ih h]
      · next stops => exact absurd h stops
    · next fails => rw [if_neg fails, if_neg fails, ih h]

/-- Of the rules that are tried from a scene, the given one is the first that does not let the next one
run. It ends with the given outcome, in the given scene. -/
structure StopsAt (phase : Phase) (front : List Rule) (rule : Rule) (s : Scene) (o : Outcome)
    (last : Scene) : Prop where
  front_proceeds : (runRules phase (matchMessage phase) s front).1 = .proceed
  applies : rule.applies (runRules phase (matchMessage phase) s front).2.exchange = true
  ends : apply rule phase (matchMessage phase) (runRules phase (matchMessage phase) s front).2 = (o, last)

/-- What is tried before the rule counts only for what it leaves. -/
theorem StopsAt.of_runRules_eq (h : StopsAt phase front rule s o last)
    (hsame : runRules phase (matchMessage phase) s' front' =
      runRules phase (matchMessage phase) s front) :
    StopsAt phase front' rule s' o last := by
  obtain ⟨hproceeds, happlies, hends⟩ := h
  rw [← hsame] at hproceeds happlies hends
  exact ⟨hproceeds, happlies, hends⟩

/-- What comes after the rule is not looked at. -/
theorem StopsAt.runRules_eq (h : StopsAt phase front rule s o last) (ho : o ≠ .proceed)
    (rest : List Rule) :
    runRules phase (matchMessage phase) s (front ++ rule :: rest) = (o, last) := by
  have hends := h.ends
  rw [runRules_append_of_proceed _ h.front_proceeds, runRules_cons, if_pos h.applies, hends, if_neg ho]

theorem exists_stopsAt (h : runRules phase (matchMessage phase) s rules = (o, last))
    (ho : o ≠ .proceed) :
    ∃ (front rest : List Rule) (rule : Rule), rules = front ++ rule :: rest ∧
      StopsAt phase front rule s o last := by
  induction rules generalizing s with
  | nil =>
    cases h
    exact absurd rfl ho
  | cons first rules ih =>
    have hcons := runRules_cons phase s first
    rw [hcons] at h
    split at h
    · next holds =>
      split at h
      · next proceeds =>
        obtain ⟨front, rest, rule, rfl, hstops⟩ := ih h
        refine ⟨first :: front, rest, rule, rfl, hstops.of_runRules_eq ?_⟩
        rw [hcons, if_pos holds, if_pos proceeds]
      · exact ⟨[], rules, first, rfl, rfl, holds, h⟩
    · next fails =>
      obtain ⟨front, rest, rule, rfl, hstops⟩ := ih h
      refine ⟨first :: front, rest, rule, rfl, hstops.of_runRules_eq ?_⟩
      rw [hcons, if_neg fails]

end Stops

/-! ## The request rules of a list -/

variable {rules earlier later front rest : List Rule} {rule : Rule} {request : Request} {world : World}
  {seen : Scene}

theorem ofRules_before_append_cons (h : isRequestRule rule = true) (earlier later : List Rule) :
    (ofRules (earlier ++ rule :: later)).before =
      (ofRules earlier).before ++ rule :: (ofRules later).before := by
  rw [ofRules_before, ofRules_before, ofRules_before, List.filter_append, List.filter_cons_of_pos h]

theorem exists_split_of_before (h : (ofRules rules).before = front ++ rule :: rest) :
    ∃ earlier later : List Rule, rules = earlier ++ rule :: later ∧ (ofRules earlier).before = front := by
  rw [ofRules_before, List.filter_eq_append_iff] at h
  obtain ⟨earlier, others, rfl, hfront, hothers⟩ := h
  obtain ⟨skipped, later, rfl, hskipped, -, -⟩ := List.filter_eq_cons_iff.mp hothers
  refine ⟨earlier ++ skipped, later, by rw [List.append_assoc], ?_⟩
  rw [ofRules_before, List.filter_append, hfront, List.filter_eq_nil_iff.mpr hskipped, List.append_nil]

/-! ## Requests that are handed on -/

/-- How the request rules end for a request, and the scene that they leave. -/
def requestPhase (rules : List Rule) (request : Request) (world : World) : Outcome × Scene :=
  runRules .request (matchMessage .request) ⟨.start request, world⟩ (ofRules rules).before

/-- Gives the request of a scene to the upstream, and the client what the draft is once it has taken the
answer. -/
def handOn (upstream : Handler) (s : Scene) : Except Breakdown Response × World :=
  match callUpstream upstream s with
  | (.error b, s) => (.error b, s.world)
  | (.ok (), s) => (.ok (respond s).1, (respond s).2)

theorem build_of_bypassed (h : requestPhase rules request world = (.bypassed, seen))
    (upstream : Handler) : build rules upstream request world = handOn upstream seen := by
  have hbefore : (ofRules rules).before ≠ [] := by
    intro hnil
    rw [requestPhase, hnil] at h
    cases h
  have htrivial : (ofRules rules).isTrivial = false := by
    rw [isTrivial, List.isEmpty_eq_false_iff.mpr hbefore, Bool.false_and, Bool.false_and]
  have hstep : handleRules (ofRules rules) upstream ⟨.start request, world⟩ =
      callUpstream upstream seen := by
    rw [requestPhase] at h
    rw [handleRules_eq, h, afterRules]
  rw [build_of_not_isTrivial htrivial, handler, List.isEmpty_eq_false_iff.mpr hbefore, Bool.false_and,
    if_neg Bool.false_ne_true, hstep]
  rfl

/-- Where the first request rule that does not let the next one run hands the request on, the request
rules up to that one settle what happens. With any other rules after it, for the response and as the
default, each upstream gets the same request in the same world, the client gets the same response with
the same names of rules, and the same effects are noted. -/
theorem bypass_isolates (h : (requestPhase rules request world).1 = .bypassed) :
    ∃ (earlier later : List Rule) (rule : Rule) (seen : Scene), rules = earlier ++ rule :: later ∧
      StopsAt .request (ofRules earlier).before rule ⟨.start request, world⟩ .bypassed seen ∧
      ∀ (earlier' later' : List Rule), (ofRules earlier').before = (ofRules earlier).before →
        ∀ upstream : Handler,
          build (earlier' ++ rule :: later') upstream request world =
            build rules upstream request world ∧
          build rules upstream request world = handOn upstream seen := by
  have hphase : requestPhase rules request world = (.bypassed, (requestPhase rules request world).2) :=
    Prod.ext h rfl
  obtain ⟨front, rest, rule, hbefore, hstops⟩ := exists_stopsAt hphase (by simp)
  have hrule : isRequestRule rule = true := isRequestRule_of_mem_before (by rw [hbefore]; simp)
  obtain ⟨earlier, later, hrules, hearlier⟩ := exists_split_of_before hbefore
  subst hearlier
  refine ⟨earlier, later, rule, _, hrules, hstops, ?_⟩
  intro earlier' later' hsame upstream
  have hphase' : requestPhase (earlier' ++ rule :: later') request world =
      (.bypassed, (requestPhase rules request world).2) := by
    rw [requestPhase, ofRules_before_append_cons hrule, hsame]
    exact hstops.runRules_eq (by simp) _
  rw [build_of_bypassed hphase, build_of_bypassed hphase']
  exact ⟨rfl, rfl⟩

/-- A rule that hands every request on. -/
def skipRule : Rule := ⟨"skip", .always, .pass⟩

/-- A rule that refuses every request. -/
def refuseRule : Rule := ⟨"refuse", .always, ⟨"error 404 gone", [.error .notFound "gone"]⟩⟩

/-- After a rule that hands every request on, a refusal is of no effect. -/
theorem refusal_after_skip :
    build [skipRule, refuseRule] (fun _ w ↦ (.ok (.ofStatus .ok), w)) (.plain "/") .quiet =
      build [skipRule] (fun _ w ↦ (.ok (.ofStatus .ok), w)) (.plain "/") .quiet := by
  have hphase : (requestPhase [skipRule] (.plain "/") .quiet).1 = .bypassed := rfl
  obtain ⟨earlier, later, rule, seen, hrules, -, hsame⟩ := bypass_isolates hphase
  obtain ⟨rfl, hrule⟩ | ⟨-, hnil⟩ := List.append_eq_singleton_iff.mp hrules.symm
  · obtain ⟨rfl, -⟩ := List.cons.inj hrule
    exact (hsame [] [refuseRule] rfl _).1
  · cases hnil

end RuleGate.RuleSet
