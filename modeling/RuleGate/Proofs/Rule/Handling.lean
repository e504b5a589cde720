import RuleGate.Proofs.Rule.Course

/-!
# Every handler follows a course

The functions of the handler, one after the other: what each does is a run of events, in the order that
`Course.Obeys` asks for.
-/

namespace RuleGate.RuleSet

theorem execute_fst (rule : Rule) (phase : Phase) (s : Scene) :
    (execute rule phase s).1 = (rule.block.runFrom s).outcome := by
  unfold execute
  split <;> simp_all [BlockRun.outcome, CommandBlock.runFrom]

theorem apply_eq (rule : Rule) (phase : Phase) (s : Scene) :
    apply rule phase (matchMessage phase) s = execute rule phase (noted phase rule s) := rfl

theorem applyDefault_eq (rule : Rule) (phase : Phase) (s : Scene) :
    applyDefault rule phase s = execute rule phase (notedDefault rule s) := rfl

theorem apply_fst (rule : Rule) (phase : Phase) (s : Scene) :
    (apply rule phase (matchMessage phase) s).1 =
      (rule.block.runFrom (noted phase rule s)).outcome := by
  rw [apply_eq, execute_fst]

theorem applyDefault_fst (rule : Rule) (phase : Phase) (s : Scene) :
    (applyDefault rule phase s).1 = (rule.block.runFrom (notedDefault rule s)).outcome := by
  rw [applyDefault_eq, execute_fst]

/-! ## What the events do to the list of applied rules -/

theorem noteFailure_applied (rule : Rule) (phase : Phase) (e : CommandError) (s : Scene) :
    (noteFailure rule phase e s).exchange.applied = s.exchange.applied := by
  cases phase <;> rfl

theorem execute_applied (rule : Rule) (phase : Phase) (s : Scene) :
    (execute rule phase s).2.exchange.applied = s.exchange.applied := by
  have hblock : (rule.block.run s).2.exchange.applied = s.exchange.applied :=
    Command.runAll_applied rule.block.commands s
  unfold execute
  split
  · next h => simpa [h] using hblock
  · next h => simpa [h, noteFailure_applied] using hblock

theorem callUpstream_applied (upstream : Handler) (s : Scene) :
    (callUpstream upstream s).2.exchange.applied = s.exchange.applied := by
  unfold callUpstream
  dsimp only
  split <;> rfl

theorem Moves.applied {upstream : Handler} {s s' : Scene} {e : Event} (h : Moves upstream s e s') :
    s'.exchange.applied = s.exchange.applied ++ e.ruleName?.toList := by
  cases h with
  | passedOver => simp [Event.ruleName?]
  | ran => exact execute_applied ..
  | ranDefault phase rule s =>
    rw [applyDefault, execute_applied]
    by_cases hpass : rule.isPurePass = true
    · simp [Event.ruleName?, hpass]
    · simp [Event.ruleName?, hpass, noteMatch, Exchange.recordRule]
  | called => simp [callUpstream_applied, Event.ruleName?]

/-- A run adds the names of the rules that ran to those noted before. -/
theorem Run.applied {upstream : Handler} {s s' : Scene} {es : List Event} (h : Run upstream s es s') :
    s'.exchange.applied = s.exchange.applied ++ es.filterMap Event.ruleName? := by
  induction h with
  | nil => simp
  | @cons s s' s'' e es hmove _ ih =>
    have hnames : (e :: es).filterMap Event.ruleName? =
        e.ruleName?.toList ++ es.filterMap Event.ruleName? := by
      cases he : e.ruleName? <;> simp [he]
    calc s''.exchange.applied
        = s'.exchange.applied ++ es.filterMap Event.ruleName? := ih
      _ = s.exchange.applied ++ e.ruleName?.toList ++ es.filterMap Event.ruleName? := by
        rw [hmove.applied]
      _ = s.exchange.applied ++ (e :: es).filterMap Event.ruleName? := by
        rw [hnames, List.append_assoc]

/-! ## The functions of the handler -/

theorem runRules_tried (upstream : Handler) (phase : Phase) (rules : List Rule) (s : Scene) :
    ∃ es, Run upstream s es (runRules phase (matchMessage phase) s rules).2 ∧
      Tried phase rules es (runRules phase (matchMessage phase) s rules).1 := by
  induction rules generalizing s with
  | nil => exact ⟨[], .nil, .done⟩
  | cons rule rules ih =>
    unfold runRules
    split
    · next holds =>
      have hmove : Moves upstream s _ _ := .ran phase holds
      have hfst := apply_fst rule phase s
      split
      · next s₁ happly =>
        rw [happly] at hmove hfst
        obtain ⟨es, hrun, htried⟩ := ih s₁
        exact ⟨_, .cons hmove hrun, .proceeded hfst.symm htried⟩
      · next stopped =>
        refine ⟨_, .single hmove, ?_⟩
        rw [hfst]
        refine .stopped fun hproceed => stopped _ (Prod.ext ?_ rfl)
        exact hfst.trans hproceed
    · next fails =>
      obtain ⟨es, hrun, htried⟩ := ih s
      exact ⟨_, .cons (.passedOver phase (Bool.eq_false_iff.mpr fails)) hrun, .passedOver htried⟩

/-- The upstream breaks down when it is called or the handling goes on. -/
theorem callUpstream_fst (upstream : Handler) (s : Scene) :
    (callUpstream upstream s).1 = (upstream s.exchange.request s.world).1.map fun _ ↦ () := by
  unfold callUpstream
  dsimp only
  split <;> simp_all [Except.map]

/-- How the handling stands after a call, if there was one. -/
def stepOf (call : Option (Except Breakdown Response)) (last : Scene) : Step :=
  match call with
  | some (.error b) => (.error b, last)
  | _ => (.ok (), last)

theorem callUpstream_eq (upstream : Handler) (s : Scene) :
    callUpstream upstream s =
      stepOf (some (upstream s.exchange.request s.world).1) (callUpstream upstream s).2 := by
  have hfst := callUpstream_fst upstream s
  cases hanswer : (upstream s.exchange.request s.world).1 with
  | ok response =>
    rw [hanswer] at hfst
    exact Prod.ext hfst rfl
  | error b =>
    rw [hanswer] at hfst
    exact Prod.ext hfst rfl

theorem finish_eq (set : RuleSet) (s : Scene) :
    finish set s =
      if set.default.isResponseRule then
        (applyDefault set.default .response
          (runRules .response (matchMessage .response) s set.after).2).2
      else (runRules .response (matchMessage .response) s set.after).2 := rfl

theorem finish_run (set : RuleSet) (upstream : Handler) (s : Scene) :
    ∃ after o late, Tried .response set.after after o ∧
      (Option.isSome late = true ↔ set.default.isResponseRule = true) ∧
      Run upstream s (after ++ Course.defaultEvents set .response late) (finish set s) := by
  obtain ⟨after, hrun, htried⟩ := runRules_tried upstream .response set.after s
  rw [finish_eq]
  generalize runRules .response (matchMessage .response) s set.after = tried at hrun htried ⊢
  by_cases hdefault : set.default.isResponseRule = true
  · rw [if_pos hdefault]
    have hlate : Moves upstream tried.2 _ _ := .ranDefault .response set.default tried.2
    exact ⟨after, tried.1, some (set.default.block.runFrom (notedDefault set.default tried.2)), htried,
      by simp [hdefault], hrun.append (.single hlate)⟩
  · rw [if_neg hdefault]
    exact ⟨after, tried.1, none, htried, by simp [hdefault], hrun.append .nil⟩

/-- What follows the request rules when none of them handed the request on. -/
theorem proceed_run (set : RuleSet) (upstream : Handler) (blocked : Bool) (s : Scene) :
    ∃ call after late last, (Option.isSome call = true ↔ blocked = false) ∧
      (brokeDown call = false → ∃ o, Tried .response set.after after o) ∧
      (brokeDown call = true → after = []) ∧
      (Option.isSome late = true ↔ set.default.isResponseRule = true ∧ brokeDown call = false) ∧
      Run upstream s (call.toList.map .called ++ (after ++ Course.defaultEvents set .response late))
        last ∧
      proceed set upstream blocked s = stepOf call last := by
  cases blocked with
  | true =>
    obtain ⟨after, o, late, htried, hlate, hrun⟩ := finish_run set upstream s
    exact ⟨none, after, late, _, by simp, fun _ ↦ ⟨o, htried⟩, by simp [brokeDown],
      by simp [hlate, brokeDown], hrun, rfl⟩
  | false =>
    have hstep := callUpstream_eq upstream s
    have hmove : Moves upstream s _ _ := .called s
    rw [proceed, if_neg Bool.false_ne_true, hstep]
    cases hanswer : (upstream s.exchange.request s.world).1 with
    | ok response =>
      rw [hanswer] at hmove
      obtain ⟨after, o, late, htried, hlate, hrun⟩ := finish_run set upstream (callUpstream upstream s).2
      exact ⟨some (.ok response), after, late, _, by simp, fun _ ↦ ⟨o, htried⟩, by simp [brokeDown],
        by simp [hlate, brokeDown], .cons hmove hrun, rfl⟩
    | error b =>
      rw [hanswer] at hmove
      exact ⟨some (.error b), [], none, _, by simp, by simp [brokeDown], fun _ ↦ rfl,
        by simp [brokeDown], .single hmove, rfl⟩

/-- What the handler does once the request rules have been tried. -/
def afterRules (set : RuleSet) (upstream : Handler) : Outcome × Scene → Step
  | (.bypassed, s) => callUpstream upstream s
  | (.terminated, s) => proceed set upstream true s
  | (.proceed, s) =>
    if set.default.isResponseRule then proceed set upstream false s
    else proceed set upstream ((applyDefault set.default .request s).1 == .terminated)
      (applyDefault set.default .request s).2

theorem handleRules_eq (set : RuleSet) (upstream : Handler) (s : Scene) :
    handleRules set upstream s =
      afterRules set upstream (runRules .request (matchMessage .request) s set.before) := by
  unfold handleRules afterRules
  rfl

/-- Without request and response rules the handling is the same as with them. -/
theorem handleDefault_eq (set : RuleSet) (upstream : Handler) (s : Scene) (hbefore : set.before = [])
    (hafter : set.after = []) : handleDefault set upstream s = handleRules set upstream s := by
  have hfinish (s : Scene) : finish set s =
      if set.default.isResponseRule then (applyDefault set.default .response s).2 else s := by
    rw [finish_eq, hafter]
    rfl
  have hrules : handleRules set upstream s = afterRules set upstream (.proceed, s) := by
    rw [handleRules_eq, hbefore]
    rfl
  rw [hrules, afterRules]
  unfold handleDefault
  by_cases hdefault : set.default.isResponseRule = true
  · rw [if_pos hdefault, if_pos hdefault, proceed, if_neg Bool.false_ne_true]
    obtain ⟨answer, s'⟩ := callUpstream upstream s
    cases answer with
    | ok _ => simp [andFinish, hfinish, hdefault]
    | error b => rfl
  · rw [if_neg hdefault, if_neg hdefault]
    obtain ⟨outcome, s'⟩ := applyDefault set.default .request s
    have hcall : andFinish set (callUpstream upstream s') = callUpstream upstream s' := by
      obtain ⟨answer, s''⟩ := callUpstream upstream s'
      cases answer with
      | ok _ => simp [andFinish, hfinish, hdefault]
      | error b => rfl
    cases outcome <;> simp [proceed, hfinish, hdefault, hcall]

/-- A request phase that no rule bypassed is the beginning of a course. -/
theorem proceed_course {set : RuleSet} {upstream : Handler} {s s₁ : Scene} {before : List Event}
    {ended : Outcome} {early : Option BlockRun} {blocked : Bool}
    (htried : Tried .request set.before before ended) (hended : ended ≠ .bypassed)
    (hearly : early.isSome = true ↔ ended = .proceed ∧ set.default.isResponseRule = false)
    (hblocked : blocked = true ↔ Course.requestEnd ⟨before, ended, early, none, [], none⟩ = .terminated)
    (hrun : Run upstream s (before ++ Course.defaultEvents set .request early) s₁) :
    ∃ (c : Course) (last : Scene), c.Obeys set ∧ Run upstream s (c.events set) last ∧
      proceed set upstream blocked s₁ = stepOf c.call last := by
  obtain ⟨call, after, late, last, hcall, hafter, hnil, hlate, hrest, hstep⟩ :=
    proceed_run set upstream blocked s₁
  refine ⟨⟨before, ended, early, call, after, late⟩, last,
    ⟨htried, hearly, ?_, fun _ ↦ hafter, ?_, ?_⟩, hrun.append hrest, hstep⟩
  · rw [hcall, ← Bool.not_eq_true, hblocked]
    rfl
  · rintro (hbypassed | hbroken)
    · exact absurd hbypassed hended
    · exact hnil hbroken
  · rw [hlate]
    simp [hended, Course.isBroken]

/-- The handling of a request, started from any scene, follows a course. -/
theorem handleRules_course (set : RuleSet) (upstream : Handler) (s : Scene) :
    ∃ (c : Course) (last : Scene), c.Obeys set ∧ Run upstream s (c.events set) last ∧
      handleRules set upstream s = stepOf c.call last := by
  obtain ⟨before, hrun, htried⟩ := runRules_tried upstream .request set.before s
  rw [handleRules_eq]
  generalize runRules .request (matchMessage .request) s set.before = tried at hrun htried ⊢
  obtain ⟨ended, s₁⟩ := tried
  have hrun' : Run upstream s (before ++ Course.defaultEvents set .request none) s₁ := hrun.append .nil
  cases ended with
  | bypassed =>
    refine ⟨⟨before, .bypassed, none, some (upstream s₁.exchange.request s₁.world).1, [], none⟩, _,
      ⟨htried, by simp, by simp [Course.requestEnd], by simp, by simp, by simp⟩, ?_,
      callUpstream_eq upstream s₁⟩
    exact hrun'.append (.single (.called s₁))
  | terminated => exact proceed_course htried (by simp) (by simp) (by simp [Course.requestEnd]) hrun'
  | proceed =>
    by_cases hdefault : set.default.isResponseRule = true
    · simp only [afterRules, if_pos hdefault]
      exact proceed_course htried (by simp) (by simp [hdefault]) (by simp [Course.requestEnd]) hrun'
    · simp only [afterRules, if_neg hdefault]
      have hearly : Run upstream s (before ++ Course.defaultEvents set .request
          (some (set.default.block.runFrom (notedDefault set.default s₁)))) _ :=
        hrun.append (.single (.ranDefault .request set.default s₁))
      refine proceed_course htried (by simp) (by simp [hdefault]) ?_ hearly
      simp [Course.requestEnd, applyDefault_fst]

/-- The handler of a rule set starts each request afresh and follows a course. -/
theorem handler_course (set : RuleSet) (upstream : Handler) (request : Request) (world : World) :
    ∃ (c : Course) (last : Scene), c.Obeys set ∧
      Run upstream ⟨.start request, world⟩ (c.events set) last ∧
      set.handler upstream request world = c.result set last := by
  obtain ⟨c, last, hobeys, hrun, hrules⟩ := handleRules_course set upstream ⟨.start request, world⟩
  refine ⟨c, last, hobeys, hrun, ?_⟩
  have hstep : (if set.before.isEmpty && set.after.isEmpty then
      handleDefault set upstream ⟨.start request, world⟩
      else handleRules set upstream ⟨.start request, world⟩) = stepOf c.call last := by
    split
    · next hempty =>
      rw [Bool.and_eq_true, List.isEmpty_iff, List.isEmpty_iff] at hempty
      rw [handleDefault_eq set upstream _ hempty.1 hempty.2, hrules]
    · exact hrules
  have hnames : last.exchange.applied = c.ruleNames set := by
    rw [hrun.applied]
    rfl
  have hresponse : (respond last).1 =
      { last.exchange.draft.flush with rules := some (c.ruleNames set) } := by
    rw [← hnames]
    rfl
  unfold handler Course.result
  dsimp only
  rw [hstep]
  match c.call with
  | none => exact Prod.ext (congrArg Except.ok hresponse) rfl
  | some (.ok response) => exact Prod.ext (congrArg Except.ok hresponse) rfl
  | some (.error b) => rfl

end RuleGate.RuleSet
