import RuleGate.Proofs.Command.Activity
import RuleGate.Proofs.Exchange.Coherence
import RuleGate.Proofs.Sample

/-!
# Commands keep the memo coherent

However reading and running commands are mixed, each value that is read of a request is the one that the
request has at that time.
-/

namespace RuleGate

namespace Exchange

/-- What leaves the request and the memo alone keeps them coherent. -/
theorem Coherent.of_onlyDraftChanged {x y : Exchange} (h : x.Coherent) (hframe : OnlyDraftChanged x y) :
    y.Coherent := by
  constructor
  · rw [hframe.request]
    exact h.target
  · rw [hframe.request, hframe.memo]
    exact h.memo

theorem coherent_lasts : Lasts Coherent where
  remember := Coherent.remember
  setHeaders := Coherent.setHeaders
  setBody := Coherent.setBody
  updateCookies := Coherent.updateCookies
  updateQuery := Coherent.updateQuery
  setPath := fun h _ ↦ h.setPath
  draft := Coherent.of_onlyDraftChanged

end Exchange

theorem Activity.foldl_perform_coherent {s : Scene} (h : s.exchange.Coherent) {activities : List Activity}
    (hcompiled : ∀ c, command c ∈ activities → c.IsCompiled) :
    (activities.foldl perform s).exchange.Coherent :=
  Exchange.coherent_lasts.endures.foldl_perform h hcompiled

theorem Exchange.start_coherent {r : Request} (h : r.uri.Settled) : (Exchange.start r).Coherent :=
  ⟨h,
    { path := agrees_none
      query := agrees_none
      credentials := agrees_none
      peerIp := agrees_none
      bodyForm := agrees_none
      form := agrees_none }⟩

/-- Whatever was read and run before, each reader gives what it would give if nothing were remembered,
for every request whose target was read and is not in authority form. -/
theorem reads_afresh_after_activities (target : String) {r : Request} (world : World)
    (activities : List Activity) (htarget : Uri.ofString target = .ok r.uri)
    (hform : r.uri.scheme.isSome = true ∨ r.uri.authority = none)
    (hcompiled : ∀ c, .command c ∈ activities → Command.IsCompiled c) :
    (activities.foldl Activity.perform ⟨.start r, world⟩).exchange.ReadsAfresh :=
  (Activity.foldl_perform_coherent
    (Exchange.start_coherent (Uri.settled_of_ofString htarget hform)) hcompiled).readsAfresh

theorem reads_afresh_after_removal_and_rewrite :
    ([.read .form, .command (.field ⟨.remove, .query "x", .empty⟩), .read .query,
      .command (.rewrite "/a" "/b")].foldl Activity.perform
        ⟨.start { Request.plain "/" with uri := ⟨none, none, ⟨"/a", some "x=1"⟩⟩ },
          .quiet⟩).exchange.ReadsAfresh := by
  refine reads_afresh_after_activities "/a?x=1" .quiet _ rfl (.inr rfl) ?_
  intro c hc
  simp only [List.mem_cons, reduceCtorEq, Activity.command.injEq, List.not_mem_nil, or_false,
    false_or] at hc
  rcases hc with rfl | rfl
  · exact ⟨fun _ ↦ none, .serve, .ofFiles ⟨[], []⟩, "remove query x", rfl⟩
  · exact ⟨fun _ ↦ none, .serve, .ofFiles ⟨[], []⟩, "rewrite /a /b", rfl⟩

end RuleGate
