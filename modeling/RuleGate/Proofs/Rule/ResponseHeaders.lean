import RuleGate.Proofs.Response.Draft
import RuleGate.Proofs.Rule.Orchestration

/-!
# Single edits of response headers

What reaches the client where one command runs in the course of a request, and all it does is change the
headers of the draft. In the response phase it works on what the upstream sent. In the request phase the
draft is still empty, and what the upstream sends is put behind what the command left there.
-/

namespace RuleGate

/-- The command succeeds, ends no rule, and does nothing but change the headers of the draft. -/
structure Command.EditsDraftHeaders (c : Command) (f : Headers → Headers) : Prop where
  goes_on : c.kind ≠ .terminating
  run_eq : ∀ s : Scene, c.run s = (.ok (), s.withDraft (·.withHeaders f))

namespace RuleSet

/-! ## What an event does to the headers of the draft -/

section Execute

variable (rule : Rule) (phase : Phase) {s : Scene}

theorem execute_of_commands_nil (h : (rule.block.runFrom s).commands = []) :
    (rule.block.runFrom s).outcome ≠ .terminated ∧ (execute rule phase s).2 = s := by
  rw [← execute_fst rule phase s]
  unfold execute CommandBlock.run
  rcases Command.runAll_of_executed_nil h with hrun | hrun
  · rw [hrun]
    exact ⟨by simp, rfl⟩
  · rw [hrun]
    exact ⟨by simp, rfl⟩

theorem execute_of_commands_singleton {c : Command} {f : Headers → Headers}
    (h : (rule.block.runFrom s).commands = [c]) (hedit : c.EditsDraftHeaders f) :
    (rule.block.runFrom s).outcome ≠ .terminated ∧
      (execute rule phase s).2 = s.withDraft (·.withHeaders f) := by
  rw [← execute_fst rule phase s]
  unfold execute CommandBlock.run
  rcases Command.runAll_of_executed_singleton h hedit.goes_on (hedit.run_eq s) with hrun | hrun
  · rw [hrun]
    exact ⟨by simp, rfl⟩
  · rw [hrun]
    exact ⟨by simp, rfl⟩

end Execute

theorem notedDefault_draft (rule : Rule) (s : Scene) :
    (notedDefault rule s).exchange.draft = s.exchange.draft := by
  unfold notedDefault
  split <;> rfl

variable {upstream : Handler} {s s' : Scene} {e : Event} {es : List Event} {phase phase' : Phase}
  {command : Command} {f : Headers → Headers}

/-- An event of one phase does nothing, or it executes a rule in a scene with the same draft. -/
theorem Moves.passes_or_executes (h : Moves upstream s e s') (hphase : e.phase? = some phase) :
    (e.commands = [] ∧ e.outcome = .proceed ∧ s' = s) ∨
    ∃ (rule : Rule) (s₀ : Scene), s₀.exchange.draft = s.exchange.draft ∧
      e.commands = (rule.block.runFrom s₀).commands.map (fun c ↦ (phase, c)) ∧
      e.outcome = (rule.block.runFrom s₀).outcome ∧ s' = (execute rule phase s₀).2 := by
  cases h with
  | passedOver _ _ => exact .inl ⟨rfl, rfl, rfl⟩
  | @ran _ rule _ _ =>
    cases hphase
    exact .inr ⟨rule, noted _ rule s, rfl, rfl, rfl, rfl⟩
  | ranDefault _ rule _ =>
    cases hphase
    exact .inr ⟨rule, notedDefault rule s, notedDefault_draft rule s, rfl, rfl, rfl⟩
  | called => cases hphase

theorem Moves.of_no_commands (h : Moves upstream s e s') (hphase : e.phase? = some phase)
    (hnone : e.commands = []) :
    e.outcome ≠ .terminated ∧ s'.exchange.draft.headers = s.exchange.draft.headers := by
  rcases h.passes_or_executes hphase with ⟨-, houtcome, rfl⟩ | ⟨rule, s₀, hdraft, hcommands, houtcome, rfl⟩
  · exact ⟨by simp [houtcome], rfl⟩
  · rw [hcommands, List.map_eq_nil_iff] at hnone
    have hexecute := execute_of_commands_nil rule phase hnone
    rw [houtcome, hexecute.2, hdraft]
    exact ⟨hexecute.1, rfl⟩

theorem Moves.of_one_command (h : Moves upstream s e s') (hphase : e.phase? = some phase)
    (hone : e.commands = [(phase', command)]) (hedit : command.EditsDraftHeaders f) :
    e.outcome ≠ .terminated ∧ s'.exchange.draft.headers = f s.exchange.draft.headers := by
  rcases h.passes_or_executes hphase with ⟨hnone, -, -⟩ | ⟨rule, s₀, hdraft, hcommands, houtcome, rfl⟩
  · rw [hone] at hnone
    cases hnone
  · rw [hcommands] at hone
    obtain ⟨c, hc, hpair⟩ := List.map_eq_singleton_iff.mp hone
    cases hpair
    have hexecute := execute_of_commands_singleton rule phase hc hedit
    rw [houtcome, hexecute.2, ← hdraft]
    exact ⟨hexecute.1, rfl⟩

/-! ## Runs of one phase -/

/-- The events belong to one phase, so that the call of the upstream is not among them. -/
def AllIn (phase : Phase) (es : List Event) : Prop := ∀ e ∈ es, e.phase? = some phase

theorem Run.of_no_commands (h : Run upstream s es s') (hphase : AllIn phase es)
    (hnone : es.flatMap Event.commands = []) :
    (∀ e ∈ es, e.outcome ≠ .terminated) ∧
      s'.exchange.draft.headers = s.exchange.draft.headers := by
  induction h with
  | nil => exact ⟨by simp, rfl⟩
  | cons first _ ih =>
    rw [AllIn, List.forall_mem_cons] at hphase
    rw [List.flatMap_cons, List.append_eq_nil_iff] at hnone
    obtain ⟨hstep, hheaders⟩ := first.of_no_commands hphase.1 hnone.1
    obtain ⟨hrest, hheaders'⟩ := ih hphase.2 hnone.2
    exact ⟨List.forall_mem_cons.mpr ⟨hstep, hrest⟩, hheaders'.trans hheaders⟩

theorem Run.of_one_command (h : Run upstream s es s') (hphase : AllIn phase es)
    (hone : es.flatMap Event.commands = [(phase', command)]) (hedit : command.EditsDraftHeaders f) :
    (∀ e ∈ es, e.outcome ≠ .terminated) ∧
      s'.exchange.draft.headers = f s.exchange.draft.headers := by
  induction h with
  | nil => cases hone
  | cons first rest ih =>
    rw [AllIn, List.forall_mem_cons] at hphase
    rw [List.flatMap_cons, List.append_eq_singleton_iff] at hone
    rcases hone with ⟨hnone, hone⟩ | ⟨hone, hnone⟩
    · obtain ⟨hstep, hheaders⟩ := first.of_no_commands hphase.1 hnone
      obtain ⟨hrest, hheaders'⟩ := ih hphase.2 hone
      exact ⟨List.forall_mem_cons.mpr ⟨hstep, hrest⟩, by rw [hheaders', hheaders]⟩
    · obtain ⟨hstep, hheaders⟩ := first.of_one_command hphase.1 hone hedit
      obtain ⟨hrest, hheaders'⟩ := rest.of_no_commands hphase.2 hnone
      exact ⟨List.forall_mem_cons.mpr ⟨hstep, hrest⟩, by rw [hheaders', hheaders]⟩

/-! ## The phases of a course -/

theorem Tried.allIn {rules : List Rule} {o : Outcome} (h : Tried phase rules es o) :
    AllIn phase es := by
  induction h with
  | done => exact fun _ he ↦ nomatch he
  | passedOver _ ih => exact List.forall_mem_cons.mpr ⟨rfl, ih⟩
  | proceeded _ _ ih => exact List.forall_mem_cons.mpr ⟨rfl, ih⟩
  | stopped _ => exact List.forall_mem_cons.mpr ⟨rfl, fun _ he ↦ nomatch he⟩

theorem Tried.proceeds_or_outcome {rules : List Rule} {o : Outcome} (h : Tried phase rules es o) :
    o = .proceed ∨ ∃ e ∈ es, e.outcome = o := by
  induction h with
  | done => exact .inl rfl
  | passedOver _ ih => exact ih.imp_right fun ⟨e, he, ho⟩ ↦ ⟨e, .tail _ he, ho⟩
  | proceeded _ _ ih => exact ih.imp_right fun ⟨e, he, ho⟩ ↦ ⟨e, .tail _ he, ho⟩
  | stopped _ => exact .inr ⟨_, .head _, rfl⟩

theorem AllIn.phase_eq (h : AllIn phase es) {q : Phase × Command}
    (hq : q ∈ es.flatMap Event.commands) : q.1 = phase := by
  obtain ⟨e, he, hq⟩ := List.mem_flatMap.mp hq
  have hphase := h e he
  cases e with
  | passedOver p rule => cases hq
  | ran p rule block =>
    obtain ⟨c, _, rfl⟩ := List.mem_map.mp hq
    exact Option.some.inj hphase
  | ranDefault p rule block =>
    obtain ⟨c, _, rfl⟩ := List.mem_map.mp hq
    exact Option.some.inj hphase
  | called answer => cases hq

namespace Course

variable {set : RuleSet} {c : Course}

theorem defaultEvents_allIn (d : Option BlockRun) : AllIn phase (defaultEvents set phase d) := by
  intro e he
  obtain ⟨block, _, rfl⟩ := List.mem_map.mp he
  rfl

theorem Obeys.requestEvents_allIn (h : c.Obeys set) : AllIn .request (c.requestEvents set) :=
  List.forall_mem_append.mpr ⟨h.before_tried.allIn, defaultEvents_allIn c.early⟩

theorem Obeys.responseEvents_allIn (h : c.Obeys set) : AllIn .response (c.responseEvents set) := by
  refine List.forall_mem_append.mpr ⟨?_, defaultEvents_allIn c.late⟩
  rcases h.after_nil_or_tried with hnil | ⟨o, htried⟩
  · rw [hnil]
    exact fun _ he ↦ nomatch he
  · exact htried.allIn

/-- The upstream is called unless an event of the request phase ends in a termination. -/
theorem Obeys.is_called (h : c.Obeys set) (hgoes : ∀ e ∈ c.requestEvents set, e.outcome ≠ .terminated) :
    ∃ answer, c.call = some answer := by
  rw [← Option.isSome_iff_exists, h.call_iff, requestEnd]
  cases hearly : c.early with
  | some block =>
    refine hgoes (.ranDefault .request set.default block) ?_
    simp [requestEvents, defaultEvents, hearly]
  | none =>
    rcases h.before_tried.proceeds_or_outcome with hproceeds | ⟨e, he, ho⟩
    · simp [hproceeds]
    · rw [← ho]
      exact hgoes e (List.mem_append_left _ he)

/-- The commands of a course are those of its two phases. -/
theorem commands_eq (set : RuleSet) (c : Course) :
    c.commands set =
      (c.requestEvents set).flatMap Event.commands ++
        (c.responseEvents set).flatMap Event.commands := by
  have hcall : (c.call.toList.map Event.called).flatMap Event.commands = [] := by
    cases c.call <;> simp [Event.commands]
  rw [commands, events, List.flatMap_append, List.flatMap_append, hcall, List.nil_append]

end Course

/-- The call of an upstream that answers. -/
theorem Moves.draft_of_called {r : Response} (h : Moves upstream s (.called (.ok r)) s') :
    s'.exchange.draft = s.exchange.draft.absorb r := by
  generalize he : Event.called (.ok r) = e at h
  cases h with
  | called =>
    have hanswer := Event.called.inj he
    unfold callUpstream
    dsimp only
    split
    · next b w hcall => simp [hcall] at hanswer
    · next answer w hcall =>
      rw [hcall] at hanswer
      cases hanswer
      rfl
  | _ => cases he

theorem Moves.headers_of_called {r : Response} (h : Moves upstream s (.called (.ok r)) s') :
    s'.exchange.draft.headers = s.exchange.draft.headers.appendAll r.headers := by
  rw [h.draft_of_called, ResponseDraft.headers_absorb]

/-- The headers that one edit leaves in the draft, by the phase of the edit. -/
def editedHeaders (f : Headers → Headers) (phase : Phase) (sent : Headers) : Headers :=
  match phase with
  | .request => (f .empty).appendAll sent
  | .response => f sent

/-- Where one command runs and edits the headers of the draft, the upstream is called, and what it sends
meets the edit as the phase has it. -/
theorem Course.IsOf.headers_of_one_edit {rules : List Rule} {request : Request} {world : World}
    {c : Course} {last : Scene} (h : c.IsOf rules upstream request world last)
    (hone : c.commands (ofRules rules) = [(phase, command)]) (hedit : command.EditsDraftHeaders f) :
    ∃ answer, c.call = some answer ∧ ∀ sent : Response, answer = .ok sent →
      last.exchange.draft.headers = editedHeaders f phase sent.headers := by
  obtain ⟨s₁, hrequest, hrest⟩ := h.run.of_append
  obtain ⟨s₂, hcall, hresponse⟩ := hrest.of_append
  have hin := h.obeys.requestEvents_allIn
  have hin' := h.obeys.responseEvents_allIn
  rw [commands_eq, List.append_eq_singleton_iff] at hone
  rcases hone with ⟨hnone, hone⟩ | ⟨hone, hnone⟩
  · have hphase : phase = .response := hin'.phase_eq (by rw [hone]; exact .head _)
    obtain ⟨hgoes, hbefore⟩ := hrequest.of_no_commands hin hnone
    obtain ⟨answer, hanswer⟩ := h.obeys.is_called hgoes
    refine ⟨answer, hanswer, fun sent hsent ↦ ?_⟩
    rw [hanswer, hsent] at hcall
    cases hcall with
    | cons hmove hnil =>
      cases hnil
      have hafter := (hresponse.of_one_command hin' hone hedit).2
      calc last.exchange.draft.headers
          = f s₂.exchange.draft.headers := hafter
        _ = f (s₁.exchange.draft.headers.appendAll sent.headers) := by rw [hmove.headers_of_called]
        _ = f (Headers.empty.appendAll sent.headers) := by
          rw [hbefore]
          rfl
        _ = editedHeaders f phase sent.headers := by
          rw [hphase]
          rfl
  · have hphase : phase = .request := hin.phase_eq (by rw [hone]; exact .head _)
    obtain ⟨hgoes, hbefore⟩ := hrequest.of_one_command hin hone hedit
    obtain ⟨answer, hanswer⟩ := h.obeys.is_called hgoes
    refine ⟨answer, hanswer, fun sent hsent ↦ ?_⟩
    rw [hanswer, hsent] at hcall
    cases hcall with
    | cons hmove hnil =>
      cases hnil
      have hafter := (hresponse.of_no_commands hin' hnone).2
      calc last.exchange.draft.headers
          = s₂.exchange.draft.headers := hafter
        _ = s₁.exchange.draft.headers.appendAll sent.headers := hmove.headers_of_called
        _ = (f .empty).appendAll sent.headers := by
          rw [hbefore]
          rfl
        _ = editedHeaders f phase sent.headers := by rw [hphase, editedHeaders]

/-! ## Removing and setting one header -/

/-- The commands that settle a header of the response, with the values they leave it: `remove` leaves
none, and `set` leaves the one that its value expands to. -/
inductive Settles (name : HeaderName) : Command → List Bytes → Prop
  | removed (value : Template) : Settles name (.field ⟨.remove, .responseHeader name, value⟩) []
  | wasSet {value : Template} {text : String} {v : Bytes} (expands : ∀ x, value.expand x = text)
      (valid : HeaderValue.ofString? text = some v) :
      Settles name (.field ⟨.set, .responseHeader name, value⟩) [v]

theorem field_goes_on (c : FieldCommand) : (Command.field c).kind ≠ .terminating := by
  simp only [Command.kind]
  split <;> simp

theorem Settles.edits {name : HeaderName} {left : List Bytes} (h : Settles name command left) :
    ∃ f : Headers → Headers, command.EditsDraftHeaders f ∧ ∀ h, (f h).getAll name = left := by
  cases h with
  | removed value =>
    exact ⟨(·.erase name), ⟨field_goes_on _, fun s ↦ rfl⟩, fun h ↦ h.getAll_erase_self name⟩
  | @wasSet value text v expands valid =>
    refine ⟨(·.insert name v), ⟨field_goes_on _, fun s ↦ ?_⟩, fun h ↦ h.getAll_insert_self name v⟩
    simp only [Command.run, FieldCommand.run, FieldCommand.editHeaders, expands, valid]
    rfl

/-- Where the only command that runs removes or sets a response header, the client gets what the command
leaves if it runs in the response phase. If it runs in the request phase, the values that the upstream
sends come after those that the command leaves. -/
theorem response_header_of_one_command {rules : List Rule} {request : Request} {world : World}
    {c : Course} {last : Scene} {name : HeaderName} {left : List Bytes}
    (h : c.IsOf rules upstream request world last)
    (hname : name ∉ [.contentLength, .transferEncoding, .trailer])
    (hsettles : Settles name command left)
    (hone : c.commands (ofRules rules) = [(phase, command)]) :
    ∃ answer, c.call = some answer ∧ ∀ sent : Response, answer = .ok sent →
      ∃ response : Response, (build rules upstream request world).1 = .ok response ∧
        response.headers.getAll name =
          match phase with
          | .request => left ++ sent.headers.getAll name
          | .response => left := by
  obtain ⟨f, hedit, hleft⟩ := hsettles.edits
  obtain ⟨answer, hanswer, hheaders⟩ := h.headers_of_one_edit hone hedit
  refine ⟨answer, hanswer, fun sent hsent ↦ ?_⟩
  have hresult := h.result
  rw [Course.result, hanswer, hsent] at hresult
  refine ⟨_, congrArg Prod.fst hresult, ?_⟩
  have hfinal : (last.exchange.draft.flush).headers.getAll name =
      (editedHeaders f phase sent.headers).getAll name :=
    calc (last.exchange.draft.flush).headers.getAll name
        = last.exchange.draft.headers.getAll name :=
          last.exchange.draft.getAll_finalHeaders_of_kept hname
      _ = (editedHeaders f phase sent.headers).getAll name := by rw [hheaders sent hsent]
  cases phase with
  | request => rw [hfinal, editedHeaders, Headers.getAll_appendAll, hleft]
  | response => rw [hfinal, editedHeaders, hleft]

/-- A rule that takes the header `x-a` away. -/
def stripRule : Rule :=
  ⟨"strip", .always, ⟨"remove resp_header X-A", [.field ⟨.remove, .responseHeader ⟨"x-a"⟩, .empty⟩]⟩⟩

/-- An upstream that sends the header `x-a`. -/
def taggingUpstream : Handler := fun _ w ↦
  (.ok { Response.ofStatus .ok with headers := ⟨[(⟨"x-a"⟩, [49])]⟩ }, w)

/-- The rule runs, the default rule hands the request on, and the upstream answers. -/
def stripCourse : Course where
  before := [.ran .request stripRule (stripRule.block.runFrom ⟨.start (.plain "/"), .quiet⟩)]
  ended := .proceed
  early := some ⟨[], .ok .bypassed⟩
  call := some (taggingUpstream (.plain "/") .quiet).1
  after := []
  late := none

theorem stripCourse_isOf :
    ∃ last, stripCourse.IsOf [stripRule] taggingUpstream (.plain "/") .quiet last := by
  have hobeys : stripCourse.Obeys (ofRules [stripRule]) :=
    ⟨.proceeded rfl .done, by decide, by decide, fun _ _ ↦ ⟨.proceed, .done⟩, by decide, by decide⟩
  have hrun : ∃ last, Run taggingUpstream ⟨.start (.plain "/"), .quiet⟩
      (stripCourse.events (ofRules [stripRule])) last :=
    ⟨_, .cons (.ran .request rfl) (.cons (.ranDefault .request _ _) (.cons (.called _) .nil))⟩
  obtain ⟨last, hrun⟩ := hrun
  exact ⟨last, hobeys.isOf hrun rfl⟩

/-- The header comes through, since the rule runs before the upstream sends it. -/
theorem header_of_stripCourse :
    ∃ response, (build [stripRule] taggingUpstream (.plain "/") .quiet).1 = .ok response ∧
      response.headers.getAll ⟨"x-a"⟩ = [[49]] := by
  obtain ⟨last, h⟩ := stripCourse_isOf
  obtain ⟨answer, hanswer, hresponse⟩ :=
    response_header_of_one_command h (by decide) (.removed .empty) rfl
  exact hresponse _ (Option.some.inj hanswer).symm

/-- The command alone does not say what the client gets. -/
theorem response_header_needs_phase :
    ¬ ∀ (rules : List Rule) (upstream : Handler) (request : Request) (world : World) (c : Course)
      (last : Scene) (phase : Phase) (name : HeaderName) (command : Command) (left : List Bytes)
      (sent : Response), c.IsOf rules upstream request world last →
      name ∉ [.contentLength, .transferEncoding, .trailer] → Settles name command left →
      c.commands (ofRules rules) = [(phase, command)] → c.call = some (.ok sent) →
      ∃ response : Response, (build rules upstream request world).1 = .ok response ∧
        response.headers.getAll name = left := by
  intro hclaim
  obtain ⟨last, h⟩ := stripCourse_isOf
  obtain ⟨response, hresponse, hnone⟩ := hclaim _ _ _ _ _ _ .request ⟨"x-a"⟩ _ _ _ h (by decide)
    (.removed .empty) rfl rfl
  have hkept : ((build [stripRule] taggingUpstream (.plain "/") .quiet).1.toOption.map
      (·.headers.getAll ⟨"x-a"⟩)) = some [[49]] := by
    decide
  rw [hresponse] at hkept
  cases hnone.symm.trans (Option.some.inj hkept)

end RuleSet

end RuleGate
