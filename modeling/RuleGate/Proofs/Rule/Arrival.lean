import RuleGate.Proofs.Command.HeaderEdit
import RuleGate.Proofs.Rule.Phase
import RuleGate.Proofs.Rule.ResponseHeaders

/-!
# The arrival of the response

When the upstream is called, no rule has written a body or set a status: a rule that does is one that
keeps the upstream from being called. So the draft takes over the response as it was sent, behind the
header fields that the rules before the call have recorded. Where no rule runs after the call, the
client gets just that, framed by its length.
-/

namespace RuleGate

/-! ## Taking over a response -/

/-- The draft is what a response was sent as, with the header fields recorded before it in front. -/
structure ResponseDraft.Holds (d : ResponseDraft) (sent : Response) (edits : List HeaderEdit) : Prop where
  status : d.status = sent.status
  body : d.body = sent.body
  headers : ∀ name, d.headers.getAll name = HeaderEdit.valuesOf name edits ++ sent.headers.getAll name

/-- The response is what another one was sent as, with the header fields recorded before it in front,
and framed by its length. -/
structure Response.Delivers (r sent : Response) (edits : List HeaderEdit) : Prop where
  status : r.status = sent.status
  body : r.body = sent.body
  contentLength : r.headers.getAll .contentLength = [ResponseDraft.lengthValue sent.body.length]
  transferEncoding : r.headers.getAll .transferEncoding = []
  trailer : r.headers.getAll .trailer = []
  others : ∀ name ∉ [.contentLength, .transferEncoding, .trailer],
    r.headers.getAll name = HeaderEdit.valuesOf name edits ++ sent.headers.getAll name

namespace ResponseDraft

variable {d : ResponseDraft} {sent : Response} {edits : List HeaderEdit}

theorem EditedBy.absorb_holds (h : EditedBy .empty d edits) (sent : Response) :
    (d.absorb sent).Holds sent edits where
  status := by rw [ResponseDraft.status, status?_absorb, Option.getD_some]
  body := by rw [body_absorb, body, h.buffer]; rfl
  headers name := by
    rw [headers_absorb, Headers.getAll_appendAll, h.headers]
    rfl

theorem Holds.flush_delivers (h : d.Holds sent edits) : d.flush.Delivers sent edits where
  status := h.status
  body := h.body
  contentLength := by
    rw [← h.body]
    exact (d.getAll_finalHeaders _).trans (if_pos rfl)
  transferEncoding := d.getAll_finalHeaders _
  trailer := d.getAll_finalHeaders _
  others name hname := (d.getAll_finalHeaders_of_kept hname).trans (h.headers name)

end ResponseDraft

namespace RuleSet

/-! ## What the rules before the call record -/

variable {upstream : Handler} {s s' : Scene} {e : Event} {es : List Event} {rule : Rule} {phase : Phase}

/-- The commands that run in an event, each with the scene it runs in. -/
def Event.stages (s : Scene) : Event → List (Scene × Command)
  | passedOver _ _ => []
  | ran phase rule _ => Command.stages (noted phase rule s) rule.block.commands
  | ranDefault _ rule _ => Command.stages (notedDefault rule s) rule.block.commands
  | called _ => []

/-- The scene that an event leaves. -/
def Event.next (upstream : Handler) (s : Scene) : Event → Scene
  | passedOver _ _ => s
  | ran phase rule _ => (apply rule phase (matchMessage phase) s).2
  | ranDefault phase rule _ => (applyDefault rule phase s).2
  | called _ => (callUpstream upstream s).2

/-- The commands that run in events which follow one another, each with the scene it runs in. -/
def stages (upstream : Handler) (s : Scene) : List Event → List (Scene × Command)
  | [] => []
  | e :: es => e.stages s ++ stages upstream (e.next upstream s) es

theorem Moves.next_eq (h : Moves upstream s e s') : e.next upstream s = s' := by
  cases h <;> rfl

/-- A rule that does not wait for the response, and lets the upstream be called, leaves the draft as its
edits of response headers make it. -/
theorem execute_editedBy (hrule : rule.isResponseRule = false)
    (hgoes : (rule.block.runFrom s).outcome ≠ .terminated) (phase : Phase) :
    s.exchange.draft.EditedBy (execute rule phase s).2.exchange.draft
      (HeaderEdit.ofStages (Command.stages s rule.block.commands)) := by
  rw [← execute_fst rule phase s] at hgoes
  unfold execute at hgoes ⊢
  split at hgoes
  · next hrun => exact Command.runAll_editedBy (Rule.kind_ne_onResponse hrule) hrun hgoes
  · exact absurd rfl hgoes

theorem Moves.editedBy (h : Moves upstream s e s') (hphase : e.phase? = some .request)
    (hrule : ∀ rule, e.rule? = some rule → rule.isResponseRule = false)
    (hgoes : e.outcome ≠ .terminated) :
    s.exchange.draft.EditedBy s'.exchange.draft (HeaderEdit.ofStages (e.stages s)) := by
  cases h with
  | passedOver phase fails => exact .refl _
  | @ran phase rule s holds => exact execute_editedBy (s := noted phase rule s) (hrule rule rfl) hgoes phase
  | ranDefault phase rule s =>
    have hedited := execute_editedBy (s := notedDefault rule s) (hrule rule rfl) hgoes phase
    rwa [notedDefault_draft] at hedited
  | called s => cases hphase

/-- Rules that do not wait for the response, and let the upstream be called, leave the draft as their
edits of response headers make it. -/
theorem Run.editedBy (h : Run upstream s es s') (hphase : AllIn .request es)
    (hrules : ∀ e ∈ es, ∀ rule, e.rule? = some rule → rule.isResponseRule = false)
    (hgoes : ∀ e ∈ es, e.outcome ≠ .terminated) :
    s.exchange.draft.EditedBy s'.exchange.draft (HeaderEdit.ofStages (stages upstream s es)) := by
  induction h with
  | nil => exact .refl _
  | @cons s s' s'' e es first rest ih =>
    rw [AllIn, List.forall_mem_cons] at hphase
    rw [List.forall_mem_cons] at hrules hgoes
    have hfirst := first.editedBy hphase.1 hrules.1 hgoes.1
    have hrest := ih hphase.2 hrules.2 hgoes.2
    rw [stages, first.next_eq, HeaderEdit.ofStages, List.flatMap_append]
    exact hfirst.trans hrest

/-! ## The request phase of a course that calls the upstream -/

theorem Tried.goes_on {rules : List Rule} {o : Outcome} (h : Tried phase rules es o)
    (ho : o ≠ .terminated) : ∀ e ∈ es, e.outcome ≠ .terminated := by
  induction h with
  | done => exact fun _ he ↦ nomatch he
  | passedOver _ ih => exact List.forall_mem_cons.mpr ⟨by simp [Event.outcome], ih ho⟩
  | proceeded hproceeds _ ih =>
    exact List.forall_mem_cons.mpr ⟨by simp [Event.outcome, hproceeds], ih ho⟩
  | stopped _ => exact List.forall_mem_cons.mpr ⟨ho, fun _ he ↦ nomatch he⟩

/-- Where the upstream is called, no event before the call has ended in a termination. -/
theorem Course.Obeys.goes_on {set : RuleSet} {c : Course} (h : c.Obeys set) (hcall : c.call.isSome = true) :
    ∀ e ∈ c.requestEvents set, e.outcome ≠ .terminated := by
  have hend := h.call_iff.mp hcall
  rw [requestEnd] at hend
  rw [requestEvents, List.forall_mem_append]
  cases hearly : c.early with
  | none =>
    rw [hearly] at hend
    exact ⟨h.before_tried.goes_on hend, List.forall_mem_nil _⟩
  | some block =>
    rw [hearly] at hend
    have hproceeds := (h.early_iff.mp (by rw [hearly, Option.isSome_some])).1
    refine ⟨h.before_tried.goes_on (by rw [hproceeds]; simp), ?_⟩
    intro e he
    obtain rfl := List.mem_singleton.mp he
    exact hend

theorem Run.eq_of_passedOver (h : Run upstream s es s')
    (hpassed : ∀ e ∈ es, ∃ rule, e = .passedOver phase rule) : s' = s := by
  induction h with
  | nil => rfl
  | cons first rest ih =>
    rw [List.forall_mem_cons] at hpassed
    obtain ⟨⟨rule, rfl⟩, hrest⟩ := hpassed
    cases first
    exact ih hrest

/-- The edits of response headers that commands make before the upstream is called. -/
def Course.recorded (rules : List Rule) (upstream : Handler) (request : Request) (world : World)
    (c : Course) : List HeaderEdit :=
  HeaderEdit.ofStages (stages upstream ⟨.start request, world⟩ (c.requestEvents (ofRules rules)))

section Arrival

variable {rules : List Rule} {request : Request} {world : World} {c : Course} {last : Scene}
  {sent : Response}

/-- The draft right after the upstream has answered. -/
theorem Course.IsOf.exists_absorbed (h : c.IsOf rules upstream request world last)
    (hcall : c.call = some (.ok sent)) :
    ∃ absorbed : Scene,
      Run upstream ⟨.start request, world⟩
        (c.requestEvents (ofRules rules) ++ [.called (.ok sent)]) absorbed ∧
      Run upstream absorbed (c.responseEvents (ofRules rules)) last ∧
      absorbed.exchange.draft.Holds sent (c.recorded rules upstream request world) := by
  have hrun := h.run
  rw [events, hcall, Option.toList_some, List.map_singleton, List.singleton_append] at hrun
  obtain ⟨reached, hbefore, hrest⟩ := hrun.of_append
  obtain ⟨absorbed, hmove, hafter⟩ := hrest.of_cons
  -- What would write a body or fail ends in a termination, which the call rules out.
  have hgoes := h.obeys.goes_on (by rw [hcall, Option.isSome_some])
  have hedited : ResponseDraft.empty.EditedBy reached.exchange.draft
      (c.recorded rules upstream request world) :=
    hbefore.editedBy h.obeys.requestEvents_allIn
      (fun _ he _ hrule ↦ h.obeys.isResponseRule_of_requestEvents he hrule) hgoes
  refine ⟨absorbed, hbefore.append (.single hmove), hafter, ?_⟩
  rw [hmove.draft_of_called]
  exact hedited.absorb_holds sent

/-- Whatever the rules, the request and the upstream are: once the upstream has answered, the draft has
the status and the body that it sent, and the header fields that it sent behind those that commands have
recorded before. If no rule runs after that, the client gets just this, framed by its length. -/
theorem upstream_response_arrives (hrules : (ofRules rules).isTrivial = false) (upstream : Handler)
    (request : Request) (world : World) :
    ∃ (c : Course) (last : Scene), c.IsOf rules upstream request world last ∧
      ∀ sent : Response, c.call = some (.ok sent) →
        ∃ absorbed : Scene,
          Run upstream ⟨.start request, world⟩
            (c.requestEvents (ofRules rules) ++ [.called (.ok sent)]) absorbed ∧
          absorbed.exchange.draft.Holds sent (c.recorded rules upstream request world) ∧
          ((∀ e ∈ c.responseEvents (ofRules rules), ∃ rule, e = .passedOver .response rule) →
            ∃ response : Response, (build rules upstream request world).1 = .ok response ∧
              response.Delivers sent (c.recorded rules upstream request world)) := by
  obtain ⟨c, last, hobeys, hrun, -⟩ := handler_course (ofRules rules) upstream request world
  have hcourse : c.IsOf rules upstream request world last := hobeys.isOf hrun hrules
  refine ⟨c, last, hcourse, fun sent hcall ↦ ?_⟩
  obtain ⟨absorbed, hbefore, hafter, hholds⟩ := hcourse.exists_absorbed hcall
  refine ⟨absorbed, hbefore, hholds, fun hpassed ↦ ?_⟩
  have hlast : last = absorbed := hafter.eq_of_passedOver hpassed
  have hresult := congrArg Prod.fst hcourse.result
  rw [Course.result, hcall, hlast] at hresult
  exact ⟨_, hresult, { hholds.flush_delivers with }⟩

end Arrival

/-- A rule that records a header field for the response. -/
def markRule : Rule :=
  ⟨"mark", .always, ⟨"add resp_header X-A 0",
    [.field ⟨.add, .responseHeader ⟨"x-a"⟩, ⟨[.literal "0"]⟩⟩]⟩⟩

/-- An upstream that sends the same header, and a body. -/
def replyingUpstream : Handler := fun _ w ↦
  (.ok { Response.ofStatus .ok with headers := ⟨[(⟨"x-a"⟩, [49])]⟩, body := [104, 105] }, w)

/-- The rule runs, the default rule hands the request on, and the upstream answers. -/
def markCourse : Course where
  before := [.ran .request markRule
    (markRule.block.runFrom (noted .request markRule ⟨.start (.plain "/"), .quiet⟩))]
  ended := .proceed
  early := some ⟨[], .ok .bypassed⟩
  call := some (replyingUpstream (.plain "/") .quiet).1
  after := []
  late := none

theorem markCourse_obeys : markCourse.Obeys (ofRules [markRule]) :=
  ⟨.proceeded rfl .done, by decide, by decide, fun _ _ ↦ ⟨.proceed, .done⟩, by decide, by decide⟩

theorem markCourse_run :
    ∃ last, Run replyingUpstream ⟨.start (.plain "/"), .quiet⟩
      (markCourse.events (ofRules [markRule])) last :=
  ⟨_, .cons (.ran .request rfl) (.cons (.ranDefault .request _ _) (.cons (.called _) .nil))⟩

/-- The body arrives as it was sent, and the header field of the upstream behind that of the rule. -/
theorem reply_behind_mark :
    ∃ response, (build [markRule] replyingUpstream (.plain "/") .quiet).1 = .ok response ∧
      response.body = [104, 105] ∧ response.headers.getAll ⟨"x-a"⟩ = [[48], [49]] := by
  have hrules : (ofRules [markRule]).isTrivial = false := rfl
  obtain ⟨c, last, hcourse, harrives⟩ :=
    upstream_response_arrives hrules replyingUpstream (.plain "/") .quiet
  obtain ⟨last', hrun⟩ := markCourse_run
  obtain ⟨rfl, rfl⟩ := Course.unique hcourse.obeys markCourse_obeys hcourse.run hrun
  obtain ⟨absorbed, -, -, hdelivers⟩ := harrives _ rfl
  obtain ⟨response, hresponse, hsent⟩ := hdelivers fun _ he ↦ nomatch he
  have hvalues := hsent.others ⟨"x-a"⟩ (by decide)
  exact ⟨response, hresponse, hsent.body, hvalues⟩

end RuleSet

end RuleGate
