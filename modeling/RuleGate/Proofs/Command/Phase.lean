import RuleGate.Proofs.Command.Block
import RuleGate.Proofs.Condition.Phase

/-!
# Commands and the response

A command that does not wait for the response does the same to the request, and ends the same, whatever
the draft of the response is. What it may still look at besides the request are the files and the other
hosts, which have to answer the same and to fail the same.
-/

namespace RuleGate

/-! ## Values that do not look at the response -/

section Values

variable (x : Exchange) (f : ResponseDraft → ResponseDraft)

theorem StaticVariable.value_withDraft {v : StaticVariable} (h : v.readsResponse = false) :
    v.value (x.withDraft f) = v.value x := by
  cases v with
  | responseContentType => cases h
  | responseContentLength => cases h
  | statusCode => cases h
  | _ => rfl

theorem DynamicVariable.value_withDraft {v : DynamicVariable} (h : v.readsResponse = false) :
    v.value (x.withDraft f) = v.value x := by
  obtain ⟨source, key, index⟩ := v
  cases source with
  | responseHeader name => cases h
  | _ => rfl

namespace Template

theorem expand_segment_withDraft {segment : Segment} (h : Segment.readsResponse segment = false) :
    Segment.expand (x.withDraft f) segment = Segment.expand x segment := by
  cases segment with
  | literal text => rfl
  | static v => exact StaticVariable.value_withDraft x f h
  | dynamic v => exact DynamicVariable.value_withDraft x f h

theorem expand_withDraft {t : Template} (h : t.readsResponse = false) :
    t.expand (x.withDraft f) = t.expand x := by
  rw [readsResponse, List.any_eq_false] at h
  have hsegments : t.segments.map (Segment.expand (x.withDraft f)) = t.segments.map (Segment.expand x) :=
    List.map_congr_left fun segment hmem ↦
      expand_segment_withDraft x f (Bool.eq_false_iff.mpr (h segment hmem))
  rw [expand, expand, hsegments]

end Template

end Values

/-! ## Changes that do not look at the response -/

namespace Exchange

variable (x : Exchange) (f : ResponseDraft → ResponseDraft)

theorem remember_withDraft (d : Derived) : (x.withDraft f).remember d = (x.remember d).withDraft f := by
  cases d with
  | form =>
    unfold remember
    dsimp only [withDraft]
    split <;> rfl
  | _ => rfl

theorem setPath_withDraft (path : String) :
    ((x.withDraft f).setPath path).1 = (x.setPath path).1.withDraft f := by
  unfold setPath
  dsimp only [withDraft]
  split <;> rfl

theorem updateQuery_withDraft (g : Params → Params) :
    ((x.withDraft f).updateQuery g).1 = (x.updateQuery g).1.withDraft f := by
  unfold updateQuery
  dsimp only [withDraft, query]
  split <;> rfl

theorem updateCookies_withDraft (g : List Cookie → List Cookie) :
    ((x.withDraft f).updateCookies g).1 = (x.updateCookies g).1.withDraft f := by
  unfold updateCookies
  dsimp only [withDraft, cookies]
  split
  · rfl
  · split <;> rfl

end Exchange

theorem Command.rewritePath_withDraft (source replacement : String) (x : Exchange)
    (f : ResponseDraft → ResponseDraft) :
    (rewritePath source replacement (x.withDraft f)).1 =
      (rewritePath source replacement x).1.withDraft f := by
  have hpath : (x.withDraft f).path = x.path := rfl
  unfold rewritePath
  rw [hpath, Exchange.remember_withDraft]
  split
  · exact Exchange.setPath_withDraft ..
  · rfl

/-! ## Scenes with the same request -/

/-- The files, the other hosts and what fails of them are the same, so that both worlds answer alike. -/
structure World.AnswersAlike (w v : World) : Prop where
  files : v.disk.files = w.disk.files
  network : v.network = w.network
  faults : v.faults = w.faults

namespace World.AnswersAlike

variable {w v u : World}

theorem refl (w : World) : AnswersAlike w w := ⟨rfl, rfl, rfl⟩

theorem symm (h : AnswersAlike w v) : AnswersAlike v w :=
  ⟨h.files.symm, h.network.symm, h.faults.symm⟩

theorem trans (h : AnswersAlike w v) (h' : AnswersAlike v u) : AnswersAlike w u :=
  ⟨h'.files.trans h.files, h'.network.trans h.network, h'.faults.trans h.faults⟩

theorem stat (h : AnswersAlike w v) (path : String) : v.stat path = w.stat path := by
  rw [World.stat, World.stat, h.faults, h.files]

theorem read (h : AnswersAlike w v) (path : String) : v.read path = w.read path := by
  rw [World.read, World.read, h.faults, h.files]

theorem noteEvent (w : World) (e : LogEvent) : AnswersAlike w (w.noteEvent e) := ⟨rfl, rfl, rfl⟩

theorem noteEvents (w : World) (es : List LogEvent) : AnswersAlike w (w.noteEvents es) := by
  unfold World.noteEvents
  induction es generalizing w with
  | nil => exact refl w
  | cons e es ih => exact (noteEvent w e).trans (ih (w.noteEvent e))

end World.AnswersAlike

/-- Two scenes with the same request. They may differ in the draft of the response and in what has been
noted so far. -/
structure Scene.SameRequest (s t : Scene) : Prop where
  exchange : s.exchange.OnlyDraftChanged t.exchange
  world : s.world.AnswersAlike t.world

theorem Scene.update_world (s : Scene) (f : Exchange → Exchange.Updated) :
    s.world.AnswersAlike (s.update f).world := .noteEvents ..

/-- The same result, in scenes with the same request. -/
structure Scene.EndAlike {α : Type} (r r' : α × Scene) : Prop where
  result : r.1 = r'.1
  scene : r.2.SameRequest r'.2

/-! ## Commands -/

namespace ServeCommand

variable {w v : World}

theorem find_of_answersAlike (h : w.AnswersAlike v) (path : String) : find v path = find w path := by
  simp only [find, h.stat]

/-- Whether what was found can be sent does not hang on the draft. -/
theorem answer_fst (h : w.AnswersAlike v) (x y : Exchange) (found : Found) :
    (answer ⟨x, w⟩ found).1 = (answer ⟨y, v⟩ found).1 := by
  cases found with
  | page status => rfl
  | file path modified =>
    simp only [answer, h.read]
    split <;> rfl

end ServeCommand

namespace Forwarding

theorem forward_world (r : Request) (upstream : Uri) (w : World) :
    w.AnswersAlike (forward r upstream w).2 := by
  unfold forward
  split
  · exact .refl w
  · dsimp only
    split <;> exact ⟨rfl, rfl, rfl⟩

theorem forward_fst (r : Request) (upstream : Uri) {w v : World} (h : w.AnswersAlike v) :
    (forward r upstream w).1 = (forward r upstream v).1 := by
  have hnetwork (e : LogEvent) : (v.noteEvent e).network = (w.noteEvent e).network := h.network
  unfold forward
  split
  · rfl
  · dsimp only
    rw [hnetwork]
    split <;> rfl

end Forwarding

namespace Command

variable {c : Command} {s t : Scene}

/-- Commands that do not wait for the response write no files. -/
theorem run_world (h : c.kind ≠ .onResponse) (s : Scene) : s.world.AnswersAlike (c.run s).2.world := by
  cases c with
  | rewrite source replacement => exact s.update_world _
  | serve c =>
    rw [run, c.run_world]
    exact .refl _
  | proxy upstream =>
    have hforward := Forwarding.forward_world s.exchange.request upstream s.world
    rw [run]
    cases proxyEnds upstream s with
    | noClient _ hrun => rw [hrun]; exact .refl _
    | noResponse _ h hrun => rw [h] at hforward; rwa [hrun]
    | answers h hrun => rw [h] at hforward; rwa [hrun]
  | redirect target => exact .noteEvents ..
  | field c =>
    obtain ⟨op, target, value⟩ := c
    cases target with
    | header name =>
      simp only [run, FieldCommand.run]
      split <;> exact .refl _
    | responseHeader name =>
      simp only [run, FieldCommand.run]
      split <;> exact .refl _
    | query key =>
      simp only [run, FieldCommand.run]
      exact s.update_world _
    | cookie key =>
      simp only [run, FieldCommand.run]
      exact s.update_world _
    | _ => exact .refl _
  | log c => exact absurd rfl h
  | notify c => exact absurd rfl h
  | _ => exact .refl _

end Command

namespace FieldCommand

theorem readsResponse_of_kind {c : FieldCommand} (h : (Command.field c).kind ≠ .onResponse) :
    c.readsResponse = false := by
  rw [← Bool.not_eq_true]
  intro hreads
  exact h (by rw [Command.kind, if_pos hreads])

/-- Whether an edit of headers fails does not hang on the headers. -/
theorem editHeaders_fails_alike (op : FieldOp) (name : HeaderName) (value : String) (h k : Headers) :
    (editHeaders op name value h).map (fun _ ↦ ()) = (editHeaders op name value k).map fun _ ↦ () := by
  unfold editHeaders
  cases op with
  | remove => rfl
  | _ =>
    dsimp only
    split <;> rfl

theorem run_responseHeader_fst (op : FieldOp) (name : HeaderName) (value : Template) (s : Scene) :
    (run ⟨op, .responseHeader name, value⟩ s).1 =
      (editHeaders op name (value.expand s.exchange) s.exchange.draft.headers).map fun _ ↦ () := by
  simp only [run]
  split
  · next h => rw [h, Except.map]
  · next h => rw [h, Except.map]

variable {c : FieldCommand} (x : Exchange) (f : ResponseDraft → ResponseDraft) (w v : World)

theorem run_fst_withDraft (h : c.readsResponse = false) :
    (c.run ⟨x, w⟩).1 = (c.run ⟨x.withDraft f, v⟩).1 := by
  obtain ⟨op, target, value⟩ := c
  cases target with
  | header name =>
    have hvalue : value.expand (x.withDraft f) = value.expand x := Template.expand_withDraft x f h
    have hrequest : (x.withDraft f).request = x.request := rfl
    simp only [run, hvalue, hrequest]
    split <;> rfl
  | responseHeader name =>
    have hvalue : value.expand (x.withDraft f) = value.expand x := Template.expand_withDraft x f h
    rw [run_responseHeader_fst, run_responseHeader_fst, hvalue]
    exact editHeaders_fails_alike ..
  | _ => rfl

theorem run_exchange_withDraft (h : c.readsResponse = false) :
    (c.run ⟨x, w⟩).2.exchange.OnlyDraftChanged (c.run ⟨x.withDraft f, v⟩).2.exchange := by
  cases hrequest : c.target.isOfRequest with
  | false =>
    have hbefore := run_onlyDraftChanged hrequest ⟨x, w⟩
    have hafter := run_onlyDraftChanged hrequest ⟨x.withDraft f, v⟩
    exact hbefore.symm.trans ((x.withDraft_onlyDraftChanged f).trans hafter)
  | true =>
    obtain ⟨op, target, value⟩ := c
    have hvalue : value.expand (x.withDraft f) = value.expand x := by
      cases target with
      | responseBody => cases hrequest
      | statusCode code => cases hrequest
      | _ => exact Template.expand_withDraft x f h
    cases target with
    | header name =>
      have hsame : (x.withDraft f).request = x.request := rfl
      simp only [run, hvalue, hsame]
      split <;> exact ⟨rfl, rfl, rfl⟩
    | query key =>
      simp only [run, hvalue, Scene.update_exchange, Exchange.updateQuery_withDraft]
      exact Exchange.withDraft_onlyDraftChanged ..
    | cookie key =>
      simp only [run, hvalue, Scene.update_exchange, Exchange.updateCookies_withDraft]
      exact Exchange.withDraft_onlyDraftChanged ..
    | body =>
      simp only [run, hvalue]
      exact ⟨rfl, rfl, rfl⟩
    | responseHeader name => cases hrequest
    | responseBody => cases hrequest
    | statusCode code => cases hrequest

end FieldCommand

namespace Command

variable {c : Command} {s t : Scene}

theorem run_fst_of_sameRequest (hst : s.SameRequest t) (h : c.kind ≠ .onResponse) :
    (c.run s).1 = (c.run t).1 := by
  obtain ⟨x, w⟩ := s
  obtain ⟨y, v⟩ := t
  obtain ⟨hexchange, hworld⟩ := hst
  obtain ⟨d, rfl⟩ := hexchange.exists_withDraft
  cases c with
  | serve c =>
    have hpath : (x.withDraft fun _ ↦ d).path = x.path := rfl
    simp only [run, ServeCommand.run, hpath, ServeCommand.find_of_answersAlike hworld]
    split
    · rfl
    · exact ServeCommand.answer_fst hworld ..
  | proxy upstream =>
    have hforward := Forwarding.forward_fst x.request upstream hworld
    have hrequest : (x.withDraft fun _ ↦ d).request = x.request := rfl
    have hclient : v.faults.client = w.faults.client := congrArg Faults.client hworld.faults
    simp only [run, runProxy, hrequest, hclient]
    generalize Forwarding.forward x.request upstream w = answer at hforward ⊢
    generalize Forwarding.forward x.request upstream v = answer' at hforward ⊢
    obtain ⟨result, w'⟩ := answer
    obtain ⟨result', v'⟩ := answer'
    cases hforward
    split
    · rfl
    · cases result <;> rfl
  | field c => exact FieldCommand.run_fst_withDraft x _ w v (FieldCommand.readsResponse_of_kind h)
  | log c => exact absurd rfl h
  | notify c => exact absurd rfl h
  | _ => rfl

theorem run_exchange_of_sameRequest (hst : s.SameRequest t) (h : c.kind ≠ .onResponse) :
    (c.run s).2.exchange.OnlyDraftChanged (c.run t).2.exchange := by
  cases hedits : c.editsRequest with
  | false =>
    have hbefore := run_onlyDraftChanged hedits s
    have hafter := run_onlyDraftChanged hedits t
    exact hbefore.symm.trans (hst.exchange.trans hafter)
  | true =>
    obtain ⟨x, w⟩ := s
    obtain ⟨y, v⟩ := t
    obtain ⟨d, rfl⟩ := hst.exchange.exists_withDraft
    cases c with
    | rewrite source replacement =>
      simp only [run, Scene.update_exchange, rewritePath_withDraft]
      exact Exchange.withDraft_onlyDraftChanged ..
    | field c =>
      exact FieldCommand.run_exchange_withDraft x _ w v (FieldCommand.readsResponse_of_kind h)
    | _ => cases hedits

theorem run_endAlike (hst : s.SameRequest t) (h : c.kind ≠ .onResponse) :
    Scene.EndAlike (c.run s) (c.run t) where
  result := run_fst_of_sameRequest hst h
  scene :=
    { exchange := run_exchange_of_sameRequest hst h
      world := ((run_world h s).symm.trans hst.world).trans (run_world h t) }

/-- Commands that do not wait for the response end alike, whatever the response is. -/
theorem runAll_endAlike {commands : List Command} (hst : s.SameRequest t)
    (h : ∀ c ∈ commands, c.kind ≠ .onResponse) :
    Scene.EndAlike (runAll s commands) (runAll t commands) := by
  induction commands generalizing s t with
  | nil => exact ⟨rfl, hst⟩
  | cons c rest ih =>
    rw [List.forall_mem_cons] at h
    have hrun := run_endAlike hst h.1
    generalize hs : c.run s = r at hrun
    generalize ht : c.run t = r' at hrun
    obtain ⟨result, s'⟩ := r
    obtain ⟨result', t'⟩ := r'
    obtain ⟨hresult, hscene⟩ := hrun
    cases hresult
    cases hends : CommandBlock.endsRule c with
    | false =>
      rw [runAll_cons hends, runAll_cons hends, hs, ht]
      cases result with
      | ok _ => exact ih hscene h.2
      | error e => exact ⟨rfl, hscene⟩
    | true =>
      rcases kind_of_endsRule hends with hkind | hkind
      · simp only [runAll, hkind, hs, ht]
        cases result with
        | ok _ => exact ⟨rfl, hscene⟩
        | error e => exact ⟨rfl, hscene⟩
      · simp only [runAll, hkind]
        exact ⟨rfl, hst⟩

end Command

end RuleGate
