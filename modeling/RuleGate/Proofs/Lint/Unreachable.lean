import RuleGate.Proofs.Lint.Issues
import RuleGate.Proofs.Rule.Compilation
import RuleGate.Proofs.Rule.Hiding

/-!
# Rules that are never reached

A rule without a condition that ends in `pass` hands on every request that gets to it, or stops the rules
behind it by failing. So it hides the rules behind it that run in its phase. A lint run calls all rules behind
it unreachable, also those of the other phase. A response rule runs all the same where a rule blocks a
request, and request rules run before any response rule, wherever they stand.
-/

namespace RuleGate

theorem Rule.alwaysStops_of_hidesOthers {r : Rule} (h : LintState.hidesOthers r = true) :
    r.AlwaysStops := by
  rw [LintState.hidesOthers, Bool.and_eq_true, Bool.and_eq_true] at h
  obtain ⟨⟨-, hempty⟩, hbypass⟩ := h
  rw [Condition.isEmpty, List.isEmpty_iff] at hempty
  have hlast : ∃ c, r.block.commands.getLast? = some c ∧ CommandBlock.endsRule c = true := by
    unfold CommandBlock.isBypass at hbypass
    split at hbypass
    · next c hc => exact ⟨c, hc, by rw [CommandBlock.endsRule, hbypass, Bool.or_true]⟩
    · cases hbypass
  refine ⟨fun x ↦ ?_, fun s hproceeds ↦ Command.runAll_ne_proceed s hlast ?_⟩
  · rw [Rule.applies, Condition.holds, Condition.formula, hempty, Formula.holds, Formula.holdsAll]
  · unfold BlockRun.outcome at hproceeds
    split at hproceeds
    · next hresult => rwa [hproceeds] at hresult
    · cases hproceeds

theorem Rule.Alike.hidesOthers_eq {r r' : Rule} (h : r.Alike r') :
    LintState.hidesOthers r = LintState.hidesOthers r' := by
  rw [LintState.hidesOthers, LintState.hidesOthers, h.isDefault_eq, h.condition,
    CommandBlock.isBypass_congr h.kinds]

/-! ## What a lint run says of rules that compile -/

namespace RuleSpec

open RuleSet

variable {env : Environment} {files : FileSystem} {file : String} {specs : List RuleSpec} {disk : Disk}
  {rules : List Rule} {issue : LintIssue}

/-- The rule that an issue calls unreachable stands behind one that always stops the others. -/
theorem exists_stopper (hrules : (compileAll env disk specs).1 = .ok rules)
    (hissue : issue ∈ (lint env files file specs).issues) (hcode : issue.code = .unreachable) :
    ∃ (front : List Rule) (late : Rule) (rest : List Rule) (stopper : Rule),
      rules = front ++ late :: rest ∧ late.isDefault = false ∧ stopper ∈ front ∧
      stopper.isDefault = false ∧ stopper.AlwaysStops ∧
      issue = .unreachable file late.name stopper.name := by
  obtain ⟨sfront, srest, spec, i, bypass, hspecs, hname, rfl, hbypass⟩ := exists_bypass hissue hcode
  obtain hnone | ⟨s, k, checked, hmem, hchecked, hhides, rfl⟩ := hbypass
  · cases hnone
  obtain ⟨front, late, rest, disk', rfl, hfront, hlate⟩ := compileAll_split hrules hspecs
  obtain ⟨disk₁, hcompiled⟩ := exists_disk_of_mem env .serve disk hmem
  rw [hfront] at hcompiled
  obtain ⟨stopper, hstopper, hserved⟩ := List.mem_map.mp hcompiled
  have halike : stopper.Alike checked := Rule.alike_of_compile hserved.symm hchecked
  have hhides' : LintState.hidesOthers stopper = true := halike.hidesOthers_eq.trans hhides
  have hdefault : stopper.isDefault = false := by
    rw [LintState.hidesOthers, Bool.and_eq_true, Bool.and_eq_true, Bool.not_eq_true'] at hhides'
    exact hhides'.1.1
  have hlatename : late.name = (spec.named i).name := (Rule.compile_eq_ok_iff.mp hlate).1
  refine ⟨front, late, rest, stopper, rfl, ?_, hstopper, hdefault,
    Rule.alwaysStops_of_hidesOthers hhides', by rw [hlatename, halike.name]⟩
  rw [Rule.isDefault, hlatename]
  exact beq_eq_false_iff_ne.mpr hname

/-- Where the rules compile, a rule that a lint run calls unreachable stands behind one that keeps it from
being tried, as long as both run in the same phase. Behind a request rule it is not tried after the response
either, unless a request rule has blocked the request. -/
theorem unreachable_rule_is_hidden (hrules : (compileAll env disk specs).1 = .ok rules)
    (hissue : issue ∈ (lint env files file specs).issues) (hcode : issue.code = .unreachable) :
    ∃ (front : List Rule) (late : Rule) (rest : List Rule) (stopper : Rule),
      rules = front ++ late :: rest ∧ late.isDefault = false ∧ stopper ∈ front ∧
      issue = .unreachable file late.name stopper.name ∧
      ∀ (upstream : Handler) (request : Request) (world : World), ∃ (c : Course) (last : Scene),
        c.IsOf rules upstream request world last ∧ c.Hides front stopper late := by
  obtain ⟨front, late, rest, stopper, rfl, hlate, hstopper, hdefault, hstops, hissue⟩ :=
    exists_stopper hrules hissue hcode
  refine ⟨front, late, rest, stopper, rfl, hlate, hstopper, hissue, fun upstream request world ↦ ?_⟩
  obtain ⟨c, last, hobeys, hrun, -⟩ := handler_course (ofRules (front ++ late :: rest)) upstream request world
  have hcourse : c.IsOf (front ++ late :: rest) upstream request world last :=
    hobeys.isOf hrun (not_isTrivial (List.mem_append_left _ hstopper) hdefault)
  exact ⟨c, last, hcourse, hcourse.hides hstopper hdefault hstops late⟩

/-- A rule that hands every request on, and one behind it that would take a header from it. -/
def shadowedSpecs : List RuleSpec := [⟨"everything", "", "pass"⟩, ⟨"late", "", "remove header X-Late"⟩]

/-- The second rule is called unreachable, and no request gets to it. -/
theorem shadowed_rule_is_hidden :
    ∃ rules : List Rule, (compileAll (fun _ ↦ none) (.ofFiles ⟨[], []⟩) shadowedSpecs).1 = .ok rules ∧
      ∀ (upstream : Handler) (request : Request) (world : World), ∃ (c : Course) (last : Scene),
        c.IsOf rules upstream request world last ∧ ∀ rule ∈ c.tried .request, rule.name = "everything" := by
  let everything : Rule := ⟨"everything", .always, .pass⟩
  let late : Rule :=
    ⟨"late", .always, ⟨"remove header X-Late", [.field ⟨.remove, .header ⟨"x-late"⟩, .empty⟩]⟩⟩
  have hrules : (compileAll (fun _ ↦ none) (.ofFiles ⟨[], []⟩) shadowedSpecs).1 = .ok [everything, late] := rfl
  have hissue : LintIssue.unreachable "rules.yaml" "late" "everything" ∈
      (lint (fun _ ↦ none) ⟨[], []⟩ "rules.yaml" shadowedSpecs).issues := List.mem_cons_self
  obtain ⟨front, late', rest, stopper, hsplit, -, hstopper, -, hhides⟩ :=
    unreachable_rule_is_hidden hrules hissue rfl
  obtain ⟨rfl, rfl⟩ : front = [everything] ∧ late' = late := by
    match front with
    | [] => cases hstopper
    | [_] =>
      obtain ⟨rfl, hrest⟩ := List.cons.inj hsplit
      exact ⟨rfl, (List.cons.inj hrest).1.symm⟩
    | _ :: _ :: _ => simp at hsplit
  obtain rfl := List.mem_singleton.mp hstopper
  refine ⟨_, hrules, fun upstream request world ↦ ?_⟩
  obtain ⟨c, last, hcourse, hhidden⟩ := hhides upstream request world
  refine ⟨c, last, hcourse, fun rule hrule ↦ ?_⟩
  have htried : rule ∈ [everything] := (hhidden.same_phase rfl).subset hrule
  rw [List.mem_singleton.mp htried]

/-- The names of the rules that run for a request, where the rules compile. -/
def namesRun (specs : List RuleSpec) (request : Request) : Option (List String) := do
  let rules ← (compileAll (fun _ ↦ none) (.ofFiles ⟨[], []⟩) specs).1.toOption
  let response ← (build rules (fun _ w ↦ (.ok (.ofStatus .ok), w)) request .quiet).1.toOption
  response.rules

/-- A rule that denies some requests in front of one that hands on all others, and behind them a rule for
denied requests. -/
def deniedSpecs : List RuleSpec :=
  [⟨"deny", "path /admin", "error 403 no"⟩, ⟨"all", "", "pass"⟩,
    ⟨"late", "status 4xx", "set resp_header X-Late 1"⟩]

/-- A rule that logs every response and hands every request on, and a request rule behind it. -/
def loggedSpecs : List RuleSpec :=
  [⟨"all", "", "log info /dev/stdout x\npass"⟩, ⟨"late", "", "set header X-Late 1"⟩]

/-- Rules that a lint run calls unreachable do run: a response rule after a denial, and a request rule before
the response rule that it stands behind. -/
theorem unreachable_rules_run :
    ((lint (fun _ ↦ none) ⟨[], []⟩ "rules.yaml" deniedSpecs).issues =
        [.unreachable "rules.yaml" "late" "all"] ∧
      namesRun deniedSpecs (.plain "/admin") = some ["deny", "late"]) ∧
    (lint (fun _ ↦ none) ⟨[], []⟩ "rules.yaml" loggedSpecs).issues =
        [.unreachable "rules.yaml" "late" "all"] ∧
      namesRun loggedSpecs (.plain "/") = some ["late", "all"] := by
  decide +kernel

end RuleSpec

end RuleGate
