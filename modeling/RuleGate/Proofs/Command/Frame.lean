import RuleGate.Command.Basic

/-!
# What commands leave alone

A command changes the request with the values remembered of it, or the draft of the response, and never
both. No command touches the list of rules applied so far. Serving files and sending a request on can fail
in the middle, and they have one lemma each that says how they end.
-/

namespace RuleGate

namespace Scene

variable (s : Scene)

@[simp] theorem withExchange_exchange (f : Exchange → Exchange) :
    (s.withExchange f).exchange = f s.exchange := rfl

@[simp] theorem withDraft_exchange (f : ResponseDraft → ResponseDraft) :
    (s.withDraft f).exchange = s.exchange.withDraft f := rfl

@[simp] theorem withWorld_exchange (f : World → World) : (s.withWorld f).exchange = s.exchange := rfl

@[simp] theorem update_exchange (f : Exchange → Exchange.Updated) :
    (s.update f).exchange = (f s.exchange).1 := rfl

end Scene

namespace Exchange

/-- The second exchange differs from the first at most in the request and the memo. -/
structure OnlyRequestChanged (x y : Exchange) : Prop where
  draft : y.draft = x.draft
  applied : y.applied = x.applied

/-- The second exchange differs from the first at most in the draft. -/
structure OnlyDraftChanged (x y : Exchange) : Prop where
  request : y.request = x.request
  memo : y.memo = x.memo
  applied : y.applied = x.applied

variable (x : Exchange)

theorem withDraft_onlyDraftChanged (f : ResponseDraft → ResponseDraft) :
    OnlyDraftChanged x (x.withDraft f) := ⟨rfl, rfl, rfl⟩

theorem remember_onlyRequestChanged (d : Derived) : OnlyRequestChanged x (x.remember d) := by
  cases d with
  | form =>
    unfold remember
    dsimp only
    split <;> exact ⟨rfl, rfl⟩
  | _ => exact ⟨rfl, rfl⟩

theorem setPath_onlyRequestChanged (path : String) : OnlyRequestChanged x (x.setPath path).1 := by
  unfold setPath
  dsimp only
  split <;> exact ⟨rfl, rfl⟩

theorem updateQuery_onlyRequestChanged (f : Params → Params) :
    OnlyRequestChanged x (x.updateQuery f).1 := by
  unfold updateQuery
  dsimp only
  split <;> exact ⟨rfl, rfl⟩

theorem updateCookies_onlyRequestChanged (f : List Cookie → List Cookie) :
    OnlyRequestChanged x (x.updateCookies f).1 := by
  unfold updateCookies
  dsimp only
  split
  · exact ⟨rfl, rfl⟩
  · split <;> exact ⟨rfl, rfl⟩

end Exchange

namespace FieldTarget

/-- Whether the field belongs to the request. -/
def isOfRequest : FieldTarget → Bool
  | header _ => true
  | query _ => true
  | cookie _ => true
  | body => true
  | responseHeader _ => false
  | responseBody => false
  | statusCode _ => false

end FieldTarget

namespace FieldCommand

theorem run_onlyRequestChanged {c : FieldCommand} (h : c.target.isOfRequest = true) (s : Scene) :
    Exchange.OnlyRequestChanged s.exchange (c.run s).2.exchange := by
  obtain ⟨op, target, value⟩ := c
  cases target with
  | header name =>
    simp only [run]
    split <;> exact ⟨rfl, rfl⟩
  | query key =>
    simp only [run, Scene.update_exchange]
    exact Exchange.updateQuery_onlyRequestChanged ..
  | cookie key =>
    simp only [run, Scene.update_exchange]
    exact Exchange.updateCookies_onlyRequestChanged ..
  | body =>
    simp only [run, Scene.withExchange_exchange]
    exact ⟨rfl, rfl⟩
  | responseHeader name => cases h
  | responseBody => cases h
  | statusCode code => cases h

theorem run_onlyDraftChanged {c : FieldCommand} (h : c.target.isOfRequest = false) (s : Scene) :
    Exchange.OnlyDraftChanged s.exchange (c.run s).2.exchange := by
  obtain ⟨op, target, value⟩ := c
  cases target with
  | responseHeader name =>
    simp only [run]
    split <;> exact ⟨rfl, rfl, rfl⟩
  | responseBody =>
    simp only [run, Scene.withDraft_exchange]
    exact Exchange.withDraft_onlyDraftChanged ..
  | statusCode code =>
    simp only [run, Scene.withDraft_exchange]
    exact Exchange.withDraft_onlyDraftChanged ..
  | header name => cases h
  | query key => cases h
  | cookie key => cases h
  | body => cases h

end FieldCommand

/-! ## Commands that can fail in the middle -/

/-- How serving ends. The scene stays if the file cannot be looked at, or cannot be read; else the answer is a page
or the file. -/
inductive ServeCommand.Ends (c : ServeCommand) (s : Scene) : Prop
  | noLookup {e : FileError} (find : find s.world (c.resolve s.exchange.path) = .error e)
      (run : c.run s = (.error (.io e.message), s))
  | noReading {e : FileError} {path : String} {modified : Int}
      (find : find s.world (c.resolve s.exchange.path) = .ok (.file path modified))
      (read : s.world.read path = .error e) (run : c.run s = (.error (.io e.message), s))
  | page (status : Status) (run : c.run s = (.ok (), s.withDraft (writePage status)))
  | file (path : String) (content : Bytes) (modified : Int)
      (run : c.run s = (.ok (), s.withDraft (respond s.exchange.request.method path content modified)))

theorem ServeCommand.ends (c : ServeCommand) (s : Scene) : c.Ends s := by
  cases hfind : find s.world (c.resolve s.exchange.path) with
  | error e => exact .noLookup hfind (by simp only [run, hfind])
  | ok found =>
    cases found with
    | page status => exact .page status (by simp only [run, hfind, answer])
    | file path modified =>
      cases hread : s.world.read path with
      | error e => exact .noReading hfind hread (by simp only [run, hfind, answer, hread])
      | ok content => exact .file path content modified (by simp only [run, hfind, answer, hread])

theorem ServeCommand.run_world (c : ServeCommand) (s : Scene) : (c.run s).2.world = s.world := by
  cases c.ends s with
  | noLookup _ hrun => rw [hrun]
  | noReading _ _ hrun => rw [hrun]
  | page _ hrun => rw [hrun]; rfl
  | file _ _ _ hrun => rw [hrun]; rfl

namespace Command

/-- How sending the request to another upstream ends: without a client, without a response, or with one. -/
inductive ProxyEnds (upstream : Uri) (s : Scene) : Prop
  | noClient {text : String} (client : s.world.faults.client = some text)
      (run : runProxy upstream s = (.error (.io text), s))
  | noResponse {e : CommandError} {w : World} (client : s.world.faults.client = none)
      (forward : Forwarding.forward s.exchange.request upstream s.world = (.error e, w))
      (run : runProxy upstream s = (.error e, { s with world := w }))
  | answers {response : Response} {w : World}
      (forward : Forwarding.forward s.exchange.request upstream s.world = (.ok response, w))
      (run : runProxy upstream s =
        (.ok (), { s with world := w }.withDraft fun d ↦ d.resetBody.absorb response))

theorem proxyEnds (upstream : Uri) (s : Scene) : ProxyEnds upstream s := by
  cases hclient : s.world.faults.client with
  | some text => exact .noClient hclient (by simp only [runProxy, hclient])
  | none =>
    cases hforward : Forwarding.forward s.exchange.request upstream s.world with
    | mk result w =>
      cases result with
      | error e => exact .noResponse hclient hforward (by simp only [runProxy, hclient, hforward])
      | ok response => exact .answers hforward (by simp only [runProxy, hclient, hforward])

/-! ## One command -/

/-- Whether the command may change the request. -/
def editsRequest : Command → Bool
  | rewrite _ _ => true
  | field c => c.target.isOfRequest
  | _ => false

theorem rewritePath_onlyRequestChanged (source replacement : String) (x : Exchange) :
    Exchange.OnlyRequestChanged x (rewritePath source replacement x).1 := by
  have hremember := Exchange.remember_onlyRequestChanged x .path
  unfold rewritePath
  split
  · next rest _ =>
    have hset := Exchange.setPath_onlyRequestChanged (x.remember .path)
      (replacement ++ String.ofList rest)
    exact ⟨hset.draft.trans hremember.draft, hset.applied.trans hremember.applied⟩
  · exact hremember

theorem run_onlyRequestChanged {c : Command} (h : c.editsRequest = true) (s : Scene) :
    Exchange.OnlyRequestChanged s.exchange (c.run s).2.exchange := by
  cases c with
  | rewrite source replacement => exact rewritePath_onlyRequestChanged source replacement s.exchange
  | field c => exact FieldCommand.run_onlyRequestChanged h s
  | _ => cases h

theorem run_onlyDraftChanged {c : Command} (h : c.editsRequest = false) (s : Scene) :
    Exchange.OnlyDraftChanged s.exchange (c.run s).2.exchange := by
  cases c with
  | rewrite source replacement => cases h
  | serve c =>
    rw [run]
    cases c.ends s with
    | noLookup _ hrun => rw [hrun]; exact ⟨rfl, rfl, rfl⟩
    | noReading _ _ hrun => rw [hrun]; exact ⟨rfl, rfl, rfl⟩
    | page _ hrun => rw [hrun]; exact Exchange.withDraft_onlyDraftChanged ..
    | file _ _ _ hrun => rw [hrun]; exact Exchange.withDraft_onlyDraftChanged ..
  | proxy upstream =>
    rw [run]
    cases proxyEnds upstream s with
    | noClient _ hrun => rw [hrun]; exact ⟨rfl, rfl, rfl⟩
    | noResponse _ _ hrun => rw [hrun]; exact ⟨rfl, rfl, rfl⟩
    | answers _ hrun => rw [hrun]; exact ⟨rfl, rfl, rfl⟩
  | redirect target =>
    simp only [run, Redirect.run, Scene.withWorld_exchange, Scene.withDraft_exchange]
    exact Exchange.withDraft_onlyDraftChanged ..
  | error status text =>
    simp only [run, Scene.withDraft_exchange]
    exact Exchange.withDraft_onlyDraftChanged ..
  | requireCredentials value =>
    simp only [run, Scene.withDraft_exchange]
    exact Exchange.withDraft_onlyDraftChanged ..
  | field c => exact FieldCommand.run_onlyDraftChanged h s
  | log c =>
    simp only [run, LogCommand.run]
    split <;> exact ⟨rfl, rfl, rfl⟩
  | notify c => exact ⟨rfl, rfl, rfl⟩
  | bypass => exact ⟨rfl, rfl, rfl⟩

theorem run_applied (c : Command) (s : Scene) :
    (c.run s).2.exchange.applied = s.exchange.applied := by
  cases h : c.editsRequest with
  | true => exact (run_onlyRequestChanged h s).applied
  | false => exact (run_onlyDraftChanged h s).applied

end Command

end RuleGate
