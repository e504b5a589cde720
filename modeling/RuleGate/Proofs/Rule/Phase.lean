import RuleGate.Proofs.Command.Phase
import RuleGate.Proofs.Rule.Compilation
import RuleGate.Proofs.Rule.Orchestration

/-!
# The phases of rules

A rule that was compiled and does not wait for the response does the same whatever the response is, and
only such rules are tried before the upstream is called.
-/

namespace RuleGate

/-! ## Rules that do not wait for the response -/

namespace Rule

/-- A rule that is compiled from what someone wrote. -/
def IsCompiled (r : Rule) : Prop :=
  ∃ (env : Environment) (mode : CompileMode) (disk : Disk) (spec : RuleSpec),
    (compile env mode disk spec).1 = .ok r

/-- In scenes with the same request the rule applies alike, its commands end alike, and they leave the
same request. -/
structure IgnoresResponse (r : Rule) : Prop where
  applies_eq : ∀ s t : Scene, s.SameRequest t → r.applies s.exchange = r.applies t.exchange
  run_alike : ∀ s t : Scene, s.SameRequest t → Scene.EndAlike (r.block.run s) (r.block.run t)

variable {r : Rule}

theorem IsCompiled.condition_fits (h : r.IsCompiled) :
    r.condition.formula.readsResponse = r.condition.readsResponse := by
  obtain ⟨env, mode, disk, spec, h⟩ := h
  exact Condition.parse_fits (compile_eq_ok_iff.mp h).2.1

theorem kind_ne_onResponse (h : r.isResponseRule = false) :
    ∀ c ∈ r.block.commands, c.kind ≠ .onResponse := by
  rw [isResponseRule, Bool.or_eq_false_iff, CommandBlock.readsResponse, List.any_eq_false] at h
  intro c hc hkind
  exact h.2 c hc (by rw [hkind, beq_self_eq_true])

theorem ignoresResponse (hfits : r.condition.formula.readsResponse = r.condition.readsResponse)
    (h : r.isResponseRule = false) : r.IgnoresResponse := by
  have hkinds := kind_ne_onResponse h
  have hcondition : r.condition.readsResponse = false := by
    rw [isResponseRule, Bool.or_eq_false_iff] at h
    exact h.1
  constructor
  · intro s t hst
    obtain ⟨d, hd⟩ := hst.exchange.exists_withDraft
    rw [hd]
    exact (Formula.holds_withDraft (hfits.trans hcondition) s.exchange _).symm
  · intro s t hst
    exact Command.runAll_endAlike hst hkinds

end Rule

namespace RuleSet

/-! ## The rules of the request phase -/

variable {rules : List Rule} {rule : Rule}

/-- Whether a rule is tried before the upstream is called. -/
def isRequestRule (r : Rule) : Bool := !r.isDefault && !r.isResponseRule

theorem ofRules_before (rules : List Rule) : (ofRules rules).before = rules.filter isRequestRule := by
  rw [ofRules, List.filter_filter]
  exact List.filter_congr fun r _ ↦ Bool.and_comm _ _

theorem isRequestRule_of_mem_before (h : rule ∈ (ofRules rules).before) : isRequestRule rule = true := by
  rw [ofRules_before] at h
  exact (List.mem_filter.mp h).2

/-- The default rule is one of the rules, or the one that is there if none is given. -/
theorem default_mem_or_eq (rules : List Rule) :
    (ofRules rules).default ∈ rules ∨ (ofRules rules).default = .defaultPass := by
  unfold ofRules
  cases hlast : (rules.filter Rule.isDefault).getLast? with
  | none => exact .inr rfl
  | some r => exact .inl (List.mem_filter.mp (List.mem_of_getLast? hlast)).1

/-- The rule that an event is about. -/
def Event.rule? : Event → Option Rule
  | passedOver _ rule => some rule
  | ran _ rule _ => some rule
  | ranDefault _ rule _ => some rule
  | called _ => none

/-- The rules that are tried are the first ones, in order. -/
theorem Tried.rules_prefix {phase : Phase} {es : List Event} {o : Outcome} (h : Tried phase rules es o) :
    es.filterMap Event.rule? <+: rules := by
  induction h with
  | done => exact List.nil_prefix
  | passedOver _ ih => exact List.cons_prefix_cons.mpr ⟨rfl, ih⟩
  | proceeded _ _ ih => exact List.cons_prefix_cons.mpr ⟨rfl, ih⟩
  | stopped _ => exact List.cons_prefix_cons.mpr ⟨rfl, List.nil_prefix⟩

namespace Course

variable {set : RuleSet} {c : Course} {e : Event}

theorem Obeys.rule_of_requestEvents (h : c.Obeys set) (he : e ∈ c.requestEvents set)
    (hrule : e.rule? = some rule) :
    rule ∈ set.before ∨ (rule = set.default ∧ set.default.isResponseRule = false) := by
  rcases List.mem_append.mp he with he | he
  · have htried : rule ∈ c.before.filterMap Event.rule? := List.mem_filterMap.mpr ⟨e, he, hrule⟩
    exact .inl (h.before_tried.rules_prefix.subset htried)
  · obtain ⟨block, hblock, rfl⟩ := List.mem_map.mp he
    have hearly : c.early.isSome = true := by
      rw [Option.isSome_iff_exists]
      exact ⟨block, Option.mem_toList.mp hblock⟩
    cases hrule
    exact .inr ⟨rfl, (h.early_iff.mp hearly).2⟩

/-- No rule that waits for the response is tried in the request phase. -/
theorem Obeys.isResponseRule_of_requestEvents (h : c.Obeys (ofRules rules))
    (he : e ∈ c.requestEvents (ofRules rules)) (hrule : e.rule? = some rule) :
    rule.isResponseRule = false := by
  rcases h.rule_of_requestEvents he hrule with hmem | ⟨rfl, hdefault⟩
  · have hrequest := isRequestRule_of_mem_before hmem
    rw [isRequestRule, Bool.and_eq_true, Bool.not_eq_true', Bool.not_eq_true'] at hrequest
    exact hrequest.2
  · exact hdefault

/-- The rules that are tried in the request phase are those of the list, and the default rule. -/
theorem Obeys.mem_of_requestEvents (h : c.Obeys (ofRules rules))
    (he : e ∈ c.requestEvents (ofRules rules)) (hrule : e.rule? = some rule) :
    rule ∈ rules ∨ rule = .defaultPass := by
  rcases h.rule_of_requestEvents he hrule with hmem | ⟨rfl, -⟩
  · rw [ofRules_before] at hmem
    exact .inl (List.mem_filter.mp hmem).1
  · exact default_mem_or_eq rules

end Course

/-- Compiled rules that do not wait for the response ignore it, and so does every rule that is tried in
the course of a request before the upstream is called. -/
theorem response_is_not_read_early :
    (∀ rule : Rule, rule.IsCompiled → rule.isResponseRule = false → rule.IgnoresResponse) ∧
    ∀ (rules : List Rule) (upstream : Handler) (request : Request) (world : World) (c : Course)
      (last : Scene), (∀ rule ∈ rules, rule.IsCompiled) → c.IsOf rules upstream request world last →
      ∀ e ∈ c.requestEvents (ofRules rules), ∀ rule, e.rule? = some rule → rule.IgnoresResponse := by
  have hcompiled (rule : Rule) (h : rule.IsCompiled) (hphase : rule.isResponseRule = false) :
      rule.IgnoresResponse := Rule.ignoresResponse h.condition_fits hphase
  refine ⟨hcompiled, ?_⟩
  intro rules upstream request world c last hrules hcourse e he rule hrule
  have hphase := hcourse.obeys.isResponseRule_of_requestEvents he hrule
  rcases hcourse.obeys.mem_of_requestEvents he hrule with hmem | rfl
  · exact hcompiled rule (hrules rule hmem) hphase
  · exact Rule.ignoresResponse rfl hphase

/-- A rule that takes a query parameter away from every request by `GET`. -/
def untagRule : Rule :=
  ⟨"untag", ⟨"method GET", [.check (.method "GET")], false⟩,
    ⟨"remove query tag", [.field ⟨.remove, .query "tag", .empty⟩]⟩⟩

theorem untagRule_isCompiled : untagRule.IsCompiled :=
  ⟨fun _ ↦ none, .serve, .ofFiles ⟨[], []⟩, ⟨"untag", "method GET", "remove query tag"⟩, rfl⟩

/-- The rule ignores the response, also where it is tried before the upstream is called. -/
theorem untagRule_ignoresResponse :
    (untagRule.IsCompiled ∧ untagRule.isResponseRule = false ∧ untagRule.IgnoresResponse) ∧
    ∀ upstream : Handler, ∃ (c : Course) (last : Scene),
      c.IsOf [untagRule] upstream (.plain "/") .quiet last ∧
      ∀ e ∈ c.requestEvents (ofRules [untagRule]), ∀ rule, e.rule? = some rule → rule.IgnoresResponse := by
  have hcompiled := untagRule_isCompiled
  refine ⟨⟨hcompiled, rfl, response_is_not_read_early.1 untagRule hcompiled rfl⟩, ?_⟩
  intro upstream
  obtain ⟨c, last, hobeys, hrun, -⟩ :=
    handler_course (ofRules [untagRule]) upstream (.plain "/") .quiet
  have hcourse : c.IsOf [untagRule] upstream (.plain "/") .quiet last := hobeys.isOf hrun rfl
  have hrules : ∀ rule ∈ [untagRule], rule.IsCompiled := List.forall_mem_singleton.mpr hcompiled
  exact ⟨c, last, hcourse, response_is_not_read_early.2 _ upstream _ _ c last hrules hcourse⟩

end RuleSet

end RuleGate
