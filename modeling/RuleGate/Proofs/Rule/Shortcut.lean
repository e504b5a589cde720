import RuleGate.Proofs.Rule.Arrival
import RuleGate.Proofs.Rule.Bypass

/-!
# Shortcuts

There are two ways around the handling of rules. A default rule without any other rule is applied by itself,
which comes to the same as running it behind no request rules and before no response rules. Rules that leave
every request alone are dropped altogether. Had they been kept, each upstream would get the same request in
the same world, and its answer would only be framed anew, marked as touched by no rule and counted.
-/

namespace RuleGate.RuleSet

/-- The outcome of a handler agrees with what the upstream gave: the client gets what was sent, framed by its
length, and only the call is counted. A breakdown stays what it is. -/
def AgreesUpToFraming (request : Request) :
    Except Breakdown Response × World → Except Breakdown Response × World → Prop
  | (.ok sent, given), (.ok response, left) =>
    response.Delivers sent [] ∧ left = given.count (.upstreamDuration request.method sent.status.code)
  | (.error b, given), (.error b', left) => b' = b ∧ left = given
  | _, _ => False

variable {rule : Rule} {set : RuleSet} {upstream : Handler} {s : Scene}

theorem applyDefault_of_isPurePass (h : rule.isPurePass = true) (phase : Phase) (s : Scene) :
    applyDefault rule phase s = (.bypassed, s) := by
  have hrun : rule.block.run s = (.ok .bypassed, s) := by
    rw [Rule.isPurePass, Bool.and_eq_true, beq_iff_eq, CommandBlock.isBypass] at h
    obtain ⟨hlast, hlength⟩ := h
    obtain ⟨c, hc⟩ := List.length_eq_one_iff.mp hlength
    rw [hc, List.getLast?_singleton] at hlast
    rw [CommandBlock.run, hc, Command.runAll, beq_iff_eq.mp hlast]
  rw [applyDefault, if_pos h, execute, hrun]

theorem handleDefault_of_isPurePass (h : set.default.isPurePass = true) (upstream : Handler) (s : Scene) :
    handleDefault set upstream s = callUpstream upstream s := by
  unfold handleDefault
  simp only [applyDefault_of_isPurePass h]
  split
  · split <;> simp_all
  · rfl

theorem handler_of_isTrivial (h : set.isTrivial = true) (upstream : Handler) (request : Request)
    (world : World) :
    set.handler upstream request world = handOn upstream ⟨.start request, world⟩ := by
  rw [isTrivial, Bool.and_eq_true] at h
  rw [handler, if_pos h.1, handleDefault_of_isPurePass h.2]
  rfl

theorem handOn_of_error {upstream : Handler} {request : Request} {world given : World} {b : Breakdown}
    (h : upstream request world = (.error b, given)) :
    handOn upstream ⟨.start request, world⟩ = (.error b, given) := by
  have hstart : (Exchange.start request).request = request := rfl
  simp only [handOn, callUpstream, hstart, h]

/-- The draft is empty when the upstream answers, so the answer arrives as it was sent. -/
theorem handOn_of_ok {upstream : Handler} {request : Request} {world given : World} {sent : Response}
    (h : upstream request world = (.ok sent, given)) :
    handOn upstream ⟨.start request, world⟩ =
      (.ok { (ResponseDraft.empty.absorb sent).flush with rules := some [] },
        given.count (.upstreamDuration request.method sent.status.code)) := by
  have hstart : (Exchange.start request).request = request := rfl
  have herrors : (ResponseDraft.empty.absorb sent).errorText? = none := by
    unfold ResponseDraft.absorb ResponseDraft.absorbInto
    split <;> rfl
  have hdraft : (Exchange.start request).draft = .empty := rfl
  simp only [handOn, callUpstream, hstart, h, respond, Scene.withDraft, Scene.withExchange,
    Exchange.withDraft, hdraft, herrors]
  rfl

theorem handOn_agrees (upstream : Handler) (request : Request) (world : World) :
    AgreesUpToFraming request (upstream request world) (handOn upstream ⟨.start request, world⟩) := by
  match hanswer : upstream request world with
  | (.error b, given) =>
    rw [handOn_of_error hanswer]
    exact ⟨rfl, rfl⟩
  | (.ok sent, given) =>
    have hholds : (ResponseDraft.empty.absorb sent).Holds sent [] :=
      (ResponseDraft.EditedBy.refl .empty).absorb_holds sent
    rw [handOn_of_ok hanswer]
    exact ⟨{ hholds.flush_delivers with }, rfl⟩

/-- Both shortcuts agree with the handling of rules. A default rule without others is applied as it would be
between no rules. And where the rules make no handler of their own, the handler of the same rules gives the
upstream the same request in the same world, and the client the answer up to its framing. -/
theorem shortcuts_agree (upstream : Handler) :
    (∀ (default : Rule) (s : Scene),
      handleDefault ⟨[], [], default⟩ upstream s = handleRules ⟨[], [], default⟩ upstream s) ∧
    ∀ rules : List Rule, (ofRules rules).isTrivial = true →
      build rules upstream = upstream ∧
      ∀ (request : Request) (world : World),
        (ofRules rules).handler upstream request world = handOn upstream ⟨.start request, world⟩ ∧
        AgreesUpToFraming request (build rules upstream request world)
          ((ofRules rules).handler upstream request world) := by
  refine ⟨fun default s ↦ handleDefault_eq _ upstream s rfl rfl, fun rules htrivial ↦ ?_⟩
  have hbuild : build rules upstream = upstream := build_of_isTrivial htrivial upstream
  refine ⟨hbuild, fun request world ↦ ?_⟩
  have hhandler := handler_of_isTrivial htrivial upstream request world
  refine ⟨hhandler, ?_⟩
  rw [hbuild, hhandler]
  exact handOn_agrees upstream request world

/-- A default rule that waits for the response, only to hand the request on. -/
def lateDefault : Rule := ⟨Rule.defaultName, ⟨"status 2xx", [.check (.status ⟨200, 299⟩)], true⟩, .pass⟩

/-- Such a default rule is dropped; the client gets the same body and the header field of the upstream, with
it or without it. -/
theorem late_default_is_dropped :
    build [lateDefault] replyingUpstream = replyingUpstream ∧
    ∃ response, ((ofRules [lateDefault]).handler replyingUpstream (.plain "/") .quiet).1 = .ok response ∧
      response.body = [104, 105] ∧ response.headers.getAll ⟨"x-a"⟩ = [[49]] := by
  have htrivial : (ofRules [lateDefault]).isTrivial = true := rfl
  obtain ⟨hbuild, hagree⟩ := (shortcuts_agree replyingUpstream).2 [lateDefault] htrivial
  obtain ⟨-, hframed⟩ := hagree (.plain "/") .quiet
  refine ⟨hbuild, ?_⟩
  rw [hbuild] at hframed
  match hresult : (ofRules [lateDefault]).handler replyingUpstream (.plain "/") .quiet with
  | (.error b, left) =>
    rw [hresult] at hframed
    exact hframed.elim
  | (.ok response, left) =>
    rw [hresult] at hframed
    obtain ⟨hdelivers, -⟩ := hframed
    exact ⟨response, rfl, hdelivers.body, hdelivers.others ⟨"x-a"⟩ (by decide)⟩

end RuleGate.RuleSet
