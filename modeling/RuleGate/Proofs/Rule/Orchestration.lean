import RuleGate.Proofs.Rule.Handling
import RuleGate.Proofs.Sample

/-!
# The handler of a rule list

The course of a request is settled by the rule set, the upstream and the scene it starts in. A handler
built from rules follows its one course, whatever the rules, the request and the upstream are, unless
the rules leave every request alone. Then the built handler is the upstream, which no course describes.
-/

namespace RuleGate.RuleSet

/-! ## There is at most one course -/

/-- The same event takes a scene to the same scene. -/
theorem Moves.next_unique {upstream : Handler} {s s₁ s₂ : Scene} {e : Event}
    (h₁ : Moves upstream s e s₁) (h₂ : Moves upstream s e s₂) : s₁ = s₂ := by
  cases h₁ <;> cases h₂ <;> rfl

/-- An event that may take place, and whose content the scene settles. -/
theorem Run.optional_unique {α : Type} {upstream : Handler} {s last last' : Scene} {f : α → Event}
    {d d' : Option α} {tail tail' : List Event}
    (hf : ∀ a a' s₁ s₂, Moves upstream s (f a) s₁ → Moves upstream s (f a') s₂ → a = a')
    (hsome : d.isSome = true ↔ d'.isSome = true)
    (h : Run upstream s (d.toList.map f ++ tail) last)
    (h' : Run upstream s (d'.toList.map f ++ tail') last') :
    d = d' ∧ ∃ s₁, Run upstream s₁ tail last ∧ Run upstream s₁ tail' last' := by
  cases d with
  | none =>
    cases d' with
    | none => exact ⟨rfl, s, h, h'⟩
    | some a' => simp at hsome
  | some a =>
    cases d' with
    | none => simp at hsome
    | some a' =>
      obtain ⟨s₁, hmove, hrest⟩ := Run.of_cons h
      obtain ⟨s₂, hmove', hrest'⟩ := Run.of_cons h'
      have ha : a = a' := hf a a' s₁ s₂ hmove hmove'
      subst ha
      have hs : s₁ = s₂ := hmove.next_unique hmove'
      subst hs
      exact ⟨rfl, s₁, hrest, hrest'⟩

theorem Moves.ranDefault_unique {upstream : Handler} {s s₁ s₂ : Scene} {phase : Phase} {rule : Rule}
    (b b' : BlockRun) (h : Moves upstream s (.ranDefault phase rule b) s₁)
    (h' : Moves upstream s (.ranDefault phase rule b') s₂) : b = b' := by
  cases h
  cases h'
  rfl

theorem Moves.called_unique {upstream : Handler} {s s₁ s₂ : Scene} (a a' : Except Breakdown Response)
    (h : Moves upstream s (.called a) s₁) (h' : Moves upstream s (.called a') s₂) : a = a' := by
  cases h
  cases h'
  rfl

/-- The scene settles what becomes of a rule. -/
theorem Moves.tries_unique {upstream : Handler} {s s₁ s₂ : Scene} {e e' : Event} {phase : Phase}
    {rule : Rule} (h : Moves upstream s e s₁) (h' : Moves upstream s e' s₂) (he : e.Tries phase rule)
    (he' : e'.Tries phase rule) : e = e' := by
  obtain rfl | ⟨block, rfl⟩ := he
  · obtain rfl | ⟨block', rfl⟩ := he'
    · rfl
    · cases h with
      | passedOver _ fails =>
        cases h' with
        | ran _ holds => exact absurd holds (Bool.eq_false_iff.mp fails)
  · cases h with
    | ran _ holds =>
      obtain rfl | ⟨block', rfl⟩ := he'
      · cases h' with
        | passedOver _ fails => exact absurd holds (Bool.eq_false_iff.mp fails)
      · cases h'
        rfl

/-- Rules that are tried from one scene are tried in one way. -/
theorem Tried.unique {upstream : Handler} {phase : Phase} {rules : List Rule} {es es' : List Event}
    {o o' : Outcome} {s last last' : Scene} {tail tail' : List Event}
    (h : Tried phase rules es o) (h' : Tried phase rules es' o')
    (hrun : Run upstream s (es ++ tail) last) (hrun' : Run upstream s (es' ++ tail') last') :
    es = es' ∧ o = o' ∧ ∃ s₁, Run upstream s₁ tail last ∧ Run upstream s₁ tail' last' := by
  -- Where the two ways disagree on what becomes of the first rule, `tries_unique` refutes it.
  induction h generalizing s es' with
  | done =>
    cases h'
    exact ⟨rfl, rfl, s, hrun, hrun'⟩
  | passedOver rest ih =>
    obtain ⟨s₁, hmove, hrest⟩ := hrun.of_cons
    cases h' with
    | passedOver rest' =>
      obtain ⟨s₂, hmove', hrest'⟩ := hrun'.of_cons
      obtain rfl := hmove.next_unique hmove'
      obtain ⟨hes, ho, hscene⟩ := ih rest' hrest hrest'
      exact ⟨by rw [hes], ho, hscene⟩
    | proceeded _ _ =>
      obtain ⟨s₂, hmove', -⟩ := hrun'.of_cons
      cases hmove.tries_unique hmove' (.inl rfl) (.inr ⟨_, rfl⟩)
    | stopped _ =>
      obtain ⟨s₂, hmove', -⟩ := hrun'.of_cons
      cases hmove.tries_unique hmove' (.inl rfl) (.inr ⟨_, rfl⟩)
  | proceeded hproceeds rest ih =>
    obtain ⟨s₁, hmove, hrest⟩ := hrun.of_cons
    cases h' with
    | passedOver _ =>
      obtain ⟨s₂, hmove', -⟩ := hrun'.of_cons
      cases hmove.tries_unique hmove' (.inr ⟨_, rfl⟩) (.inl rfl)
    | proceeded _ rest' =>
      obtain ⟨s₂, hmove', hrest'⟩ := hrun'.of_cons
      cases hmove.tries_unique hmove' (.inr ⟨_, rfl⟩) (.inr ⟨_, rfl⟩)
      obtain rfl := hmove.next_unique hmove'
      obtain ⟨hes, ho, hscene⟩ := ih rest' hrest hrest'
      exact ⟨by rw [hes], ho, hscene⟩
    | stopped hstops =>
      obtain ⟨s₂, hmove', -⟩ := hrun'.of_cons
      cases hmove.tries_unique hmove' (.inr ⟨_, rfl⟩) (.inr ⟨_, rfl⟩)
      exact absurd hproceeds hstops
  | stopped hstops =>
    obtain ⟨s₁, hmove, hrest⟩ := hrun.of_cons
    cases h' with
    | passedOver _ =>
      obtain ⟨s₂, hmove', -⟩ := hrun'.of_cons
      cases hmove.tries_unique hmove' (.inr ⟨_, rfl⟩) (.inl rfl)
    | proceeded hproceeds' _ =>
      obtain ⟨s₂, hmove', -⟩ := hrun'.of_cons
      cases hmove.tries_unique hmove' (.inr ⟨_, rfl⟩) (.inr ⟨_, rfl⟩)
      exact absurd hproceeds' hstops
    | stopped _ =>
      obtain ⟨s₂, hmove', hrest'⟩ := hrun'.of_cons
      cases hmove.tries_unique hmove' (.inr ⟨_, rfl⟩) (.inr ⟨_, rfl⟩)
      obtain rfl := hmove.next_unique hmove'
      exact ⟨rfl, rfl, s₁, hrest, hrest'⟩

/-- Two courses that obey one rule set from one scene are the same. -/
theorem Course.unique {set : RuleSet} {upstream : Handler} {c c' : Course} {s last last' : Scene}
    (h : c.Obeys set) (h' : c'.Obeys set) (hrun : Run upstream s (c.events set) last)
    (hrun' : Run upstream s (c'.events set) last') : c = c' ∧ last = last' := by
  obtain ⟨before, ended, early, call, after, late⟩ := c
  obtain ⟨before', ended', early', call', after', late'⟩ := c'
  rw [events, requestEvents, List.append_assoc] at hrun hrun'
  -- Part by part: each is the same in both courses and leads them to the same scene.
  obtain ⟨rfl, rfl, s₁, hrun₁, hrun₁'⟩ := h.before_tried.unique h'.before_tried hrun hrun'
  obtain ⟨rfl, s₂, hrun₂, hrun₂'⟩ := Run.optional_unique
    (fun b b' _ _ ↦ Moves.ranDefault_unique b b') (h.early_iff.trans h'.early_iff.symm) hrun₁ hrun₁'
  obtain ⟨rfl, s₃, hrun₃, hrun₃'⟩ := Run.optional_unique
    (fun a a' _ _ ↦ Moves.called_unique a a') (h.call_iff.trans h'.call_iff.symm) hrun₂ hrun₂'
  have hafter : after = after' ∧ ∃ s₄,
      Run upstream s₄ (defaultEvents set .response late) last ∧
      Run upstream s₄ (defaultEvents set .response late') last' := by
    by_cases hskip : ended = .bypassed ∨ brokeDown call = true
    · obtain rfl : after = [] := h.after_nil hskip
      obtain rfl : after' = [] := h'.after_nil hskip
      exact ⟨rfl, s₃, hrun₃, hrun₃'⟩
    · rw [not_or, Bool.not_eq_true] at hskip
      obtain ⟨o, htried⟩ := h.after_tried hskip.1 hskip.2
      obtain ⟨o', htried'⟩ := h'.after_tried hskip.1 hskip.2
      obtain ⟨hes, -, hscene⟩ := htried.unique htried' hrun₃ hrun₃'
      exact ⟨hes, hscene⟩
  obtain ⟨rfl, s₄, hrun₄, hrun₄'⟩ := hafter
  rw [← List.append_nil (defaultEvents set .response _)] at hrun₄ hrun₄'
  obtain ⟨rfl, s₅, hrun₅, hrun₅'⟩ := Run.optional_unique
    (fun b b' _ _ ↦ Moves.ranDefault_unique b b') (h.late_iff.trans h'.late_iff.symm) hrun₄ hrun₄'
  cases hrun₅
  cases hrun₅'
  exact ⟨rfl, rfl⟩

/-! ## The built handler -/

/-- The built handler takes a request through the course and answers with its result. -/
structure Course.IsOf (rules : List Rule) (upstream : Handler) (request : Request) (world : World)
    (c : Course) (last : Scene) : Prop where
  obeys : c.Obeys (ofRules rules)
  run : Run upstream ⟨.start request, world⟩ (c.events (ofRules rules)) last
  result : build rules upstream request world = c.result (ofRules rules) last

theorem build_of_isTrivial {rules : List Rule} (h : (ofRules rules).isTrivial = true)
    (upstream : Handler) : build rules upstream = upstream := by
  unfold build
  dsimp only
  rw [if_pos h]

theorem build_of_not_isTrivial {rules : List Rule} (h : (ofRules rules).isTrivial = false)
    (upstream : Handler) : build rules upstream = (ofRules rules).handler upstream := by
  unfold build
  dsimp only
  rw [if_neg (Bool.eq_false_iff.mp h)]

/-- A course that obeys the rules and runs from a fresh scene is that of the built handler. -/
theorem Course.Obeys.isOf {rules : List Rule} {upstream : Handler} {request : Request} {world : World}
    {c : Course} {last : Scene} (h : c.Obeys (ofRules rules))
    (hrun : Run upstream ⟨.start request, world⟩ (c.events (ofRules rules)) last)
    (hrules : (ofRules rules).isTrivial = false) : c.IsOf rules upstream request world last := by
  obtain ⟨c', last', hobeys', hrun', hresult⟩ := handler_course (ofRules rules) upstream request world
  obtain ⟨rfl, rfl⟩ := Course.unique h hobeys' hrun hrun'
  exact ⟨h, hrun, by rw [build_of_not_isTrivial hrules, hresult]⟩

/-- A handler built from rules takes each request through the one course that obeys the rules, and its
response names the rules that ran in it. Where there is no rule but a default that does nothing, the
built handler is the upstream itself. -/
theorem build_follows_course (rules : List Rule) (upstream : Handler) :
    ((ofRules rules).isTrivial = true ∧ build rules upstream = upstream) ∨
      ((ofRules rules).isTrivial = false ∧ ∀ (request : Request) (world : World),
        ∃ (c : Course) (last : Scene), c.IsOf rules upstream request world last ∧
          ∀ (c' : Course) (last' : Scene), c'.Obeys (ofRules rules) →
            Run upstream ⟨.start request, world⟩ (c'.events (ofRules rules)) last' →
              c' = c ∧ last' = last) := by
  cases htrivial : (ofRules rules).isTrivial with
  | true => exact .inl ⟨rfl, build_of_isTrivial htrivial upstream⟩
  | false =>
    refine .inr ⟨rfl, fun request world ↦ ?_⟩
    obtain ⟨c, last, hobeys, hrun, -⟩ := handler_course (ofRules rules) upstream request world
    refine ⟨c, last, hobeys.isOf hrun htrivial, ?_⟩
    intro c' last' hobeys' hrun'
    exact Course.unique hobeys' hobeys hrun' hrun

theorem Tried.events_of_nil {phase : Phase} {es : List Event} {o : Outcome} (h : Tried phase [] es o) :
    es = [] := by
  cases h
  rfl

theorem Course.ruleNames_of_isTrivial {set : RuleSet} {c : Course} (h : c.Obeys set)
    (htrivial : set.isTrivial = true) : c.ruleNames set = [] := by
  rw [isTrivial, Bool.and_eq_true, Bool.and_eq_true, List.isEmpty_iff, List.isEmpty_iff] at htrivial
  obtain ⟨⟨hnobefore, hnoafter⟩, hpass⟩ := htrivial
  have hbefore : c.before = [] := by
    have htried := h.before_tried
    rw [hnobefore] at htried
    exact htried.events_of_nil
  have hafter : c.after = [] := by
    rcases h.after_nil_or_tried with hnil | ⟨o, htried⟩
    · exact hnil
    · rw [hnoafter] at htried
      exact htried.events_of_nil
  have hdefault (phase : Phase) (d : Option BlockRun) :
      (defaultEvents set phase d).filterMap Event.ruleName? = [] := by
    cases d <;> simp [defaultEvents, Event.ruleName?, hpass]
  have hcall : (c.call.toList.map Event.called).filterMap Event.ruleName? = [] := by
    cases c.call <;> simp [Event.ruleName?]
  simp only [ruleNames, events, requestEvents, responseEvents, List.filterMap_append, hbefore, hafter,
    hdefault, hcall, List.filterMap_nil, List.append_nil]

/-- On a course of rules that leave every request alone the response would name no rule, in a list that
is there. -/
theorem Course.IsOf.rules_of_isTrivial {rules : List Rule} {upstream : Handler} {request : Request}
    {world : World} {c : Course} {last : Scene} {response : Response}
    (h : c.IsOf rules upstream request world last) (htrivial : (ofRules rules).isTrivial = true)
    (hresponse : (build rules upstream request world).1 = .ok response) :
    response.rules = some [] := by
  have hnames := Course.ruleNames_of_isTrivial h.obeys htrivial
  have hresult := congrArg Prod.fst h.result
  rw [hresponse, Course.result] at hresult
  split at hresult
  · cases hresult
  · rw [hnames] at hresult
    rw [Except.ok.inj hresult]

/-- Without rules the built handler follows no course: its response may have no list of rules at all, or
the list that the upstream gave. -/
theorem no_course_without_rules :
    (¬ ∃ (c : Course) (last : Scene),
      c.IsOf [] (fun _ w ↦ (.ok (.ofStatus .ok), w)) (.plain "/") .quiet last) ∧
    ¬ ∃ (c : Course) (last : Scene),
      c.IsOf [] (fun _ w ↦ (.ok { Response.ofStatus .ok with rules := some ["inner"] }, w))
        (.plain "/") .quiet last := by
  constructor
  · rintro ⟨c, last, h⟩
    cases h.rules_of_isTrivial rfl rfl
  · rintro ⟨c, last, h⟩
    have hrules := h.rules_of_isTrivial rfl rfl
    simp at hrules

end RuleGate.RuleSet
