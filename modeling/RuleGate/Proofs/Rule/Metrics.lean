import RuleGate.Proofs.Rule.Failure
import RuleGate.Proofs.Rule.ResponseHeaders

/-!
# Metrics and what they count

While a rule set handles a request, the metrics count one match for every name that the response will list,
and one failed command for every error that its draft records. No command counts either, and no other part of
the handler does: both come from the events of the course alone. An upstream may count whatever it likes in
between, so what was counted is stated before and after its call.
-/

namespace RuleGate

/-! ## Matches and failures on record -/

namespace Effect

/-- The rule and the phase of a counted match. -/
def ruleMatch? : Effect → Option (String × String)
  | count (.ruleMatch rule phase) => some (rule, phase)
  | _ => none

/-- The rule and the status of a counted failure. -/
def commandError? : Effect → Option (String × Nat)
  | count (.commandError rule status) => some (rule, status)
  | _ => none

/-- Whether the effect is a count of neither kind. -/
def isAside (e : Effect) : Bool := e.ruleMatch?.isNone && e.commandError?.isNone

end Effect

namespace World

/-- The matches counted so far, each with its rule and its phase. -/
def ruleMatches (w : World) : List (String × String) := w.journal.filterMap Effect.ruleMatch?

/-- The failed commands counted so far, each with its rule and its status. -/
def commandErrors (w : World) : List (String × Nat) := w.journal.filterMap Effect.commandError?

/-- Both worlds have counted the same matches and the same failures. -/
structure SameCounts (w v : World) : Prop where
  ruleMatches : v.ruleMatches = w.ruleMatches
  commandErrors : v.commandErrors = w.commandErrors

theorem ruleMatches_note (w : World) (e : Effect) :
    (w.note e).ruleMatches = w.ruleMatches ++ e.ruleMatch?.toList := by
  unfold ruleMatches note
  rw [List.filterMap_append]
  cases he : e.ruleMatch? <;> simp [he]

theorem commandErrors_note (w : World) (e : Effect) :
    (w.note e).commandErrors = w.commandErrors ++ e.commandError?.toList := by
  unfold commandErrors note
  rw [List.filterMap_append]
  cases he : e.commandError? <;> simp [he]

namespace SameCounts

variable {w v u : World}

theorem refl (w : World) : SameCounts w w := ⟨rfl, rfl⟩

theorem trans (h : SameCounts w v) (h' : SameCounts v u) : SameCounts w u :=
  ⟨h'.ruleMatches.trans h.ruleMatches, h'.commandErrors.trans h.commandErrors⟩

theorem note (w : World) {e : Effect} (h : e.isAside = true) : SameCounts w (w.note e) := by
  rw [Effect.isAside, Bool.and_eq_true, Option.isNone_iff_eq_none, Option.isNone_iff_eq_none] at h
  constructor
  · rw [ruleMatches_note, h.1, Option.toList_none, List.append_nil]
  · rw [commandErrors_note, h.2, Option.toList_none, List.append_nil]

theorem noteEvent (w : World) (e : LogEvent) : SameCounts w (w.noteEvent e) := note w rfl

theorem noteEvents (w : World) (es : List LogEvent) : SameCounts w (w.noteEvents es) := by
  unfold World.noteEvents
  induction es generalizing w with
  | nil => exact refl w
  | cons e es ih => exact (noteEvent w e).trans (ih (w.noteEvent e))

theorem accept (w : World) (data : Bytes) (target : SinkTarget) : SameCounts w (w.accept data target) := by
  cases target with
  | stream s => exact note w rfl
  | file place =>
    exact ⟨(ruleMatches_note _ _).trans (List.append_nil _), (commandErrors_note _ _).trans (List.append_nil _)⟩
  | unopened => exact refl w

theorem write (w : World) (target : SinkTarget) (data : Bytes) : SameCounts w (w.write target data).2 := by
  unfold World.write
  split <;> exact accept ..

theorem writeLine (w : World) (sink : LogSink) (level : LogLevel) (line : String) :
    SameCounts w (w.writeLine sink level line).2 := by
  unfold World.writeLine
  split
  · exact write ..
  · exact write ..
  · exact refl w

theorem deliver (w : World) (n : Notification) : SameCounts w (w.deliver n).2 := by
  unfold World.deliver
  split
  · exact noteEvent w _
  · dsimp only
    split <;> exact note w rfl

theorem forward (r : Request) (upstream : Uri) (w : World) :
    SameCounts w (Forwarding.forward r upstream w).2 := by
  unfold Forwarding.forward
  split
  · exact refl w
  · dsimp only
    split <;> exact noteEvent w _

end SameCounts

end World

/-- A command of a rule that failed. -/
structure Failure where
  rule : String
  error : CommandError
deriving DecidableEq, Repr

namespace Failure

/-- The labels of the count. -/
def labels (f : Failure) : String × Nat := (f.rule, f.error.status.code)

/-- The error as the draft records it. -/
def text (f : Failure) : String := "rule " ++ Text.quoted f.rule ++ " error: " ++ f.error.message

end Failure

/-- On the way from the first scene to the second one, these matches and failures were counted, and the draft
recorded the failures. -/
structure Scene.Records (s s' : Scene) (matched : List (String × String)) (failed : List Failure) :
    Prop where
  ruleMatches : s'.world.ruleMatches = s.world.ruleMatches ++ matched
  commandErrors : s'.world.commandErrors = s.world.commandErrors ++ failed.map Failure.labels
  errors : s'.exchange.draft.errors = s.exchange.draft.errors ++ failed.map Failure.text

namespace Scene.Records

variable {s s' s'' : Scene} {matched matched' : List (String × String)} {failed failed' : List Failure}

theorem nothing (hworld : s.world.SameCounts s'.world)
    (herrors : s'.exchange.draft.errors = s.exchange.draft.errors) : s.Records s' [] [] where
  ruleMatches := by rw [hworld.ruleMatches, List.append_nil]
  commandErrors := by rw [hworld.commandErrors, List.map_nil, List.append_nil]
  errors := by rw [herrors, List.map_nil, List.append_nil]

theorem refl (s : Scene) : s.Records s [] [] := nothing (.refl _) rfl

theorem trans (h : s.Records s' matched failed) (h' : s'.Records s'' matched' failed') :
    s.Records s'' (matched ++ matched') (failed ++ failed') where
  ruleMatches := by rw [h'.ruleMatches, h.ruleMatches, List.append_assoc]
  commandErrors := by rw [h'.commandErrors, h.commandErrors, List.map_append, List.append_assoc]
  errors := by rw [h'.errors, h.errors, List.map_append, List.append_assoc]

end Scene.Records

/-! ## Commands put nothing on record -/

theorem Redirect.errors_respond (method location : String) (d : ResponseDraft) :
    (respond method location d).errors = d.errors := by
  have hlocation (d : ResponseDraft) : (setLocation location d).errors = d.errors := by
    unfold setLocation
    split <;> rfl
  unfold respond
  dsimp only
  split <;> split <;> exact hlocation d.resetBody

theorem ServeCommand.errors_respond (method path : String) (content : Bytes) (modified : Int)
    (d : ResponseDraft) : (respond method path content modified d).errors = d.errors := by
  unfold respond
  dsimp only
  split <;> rfl

theorem Scene.records_update (s : Scene) {f : Exchange → Exchange.Updated}
    (h : s.exchange.OnlyRequestChanged (f s.exchange).1) : s.Records (s.update f) [] [] :=
  .nothing (.noteEvents _ _) (congrArg ResponseDraft.errors h.draft)

namespace Command

theorem run_field_records (c : FieldCommand) (s : Scene) : s.Records (c.run s).2 [] [] := by
  obtain ⟨op, target, value⟩ := c
  cases target with
  | header name =>
    simp only [FieldCommand.run]
    split <;> exact .nothing (.refl _) rfl
  | responseHeader name =>
    simp only [FieldCommand.run]
    split <;> exact .nothing (.refl _) rfl
  | query key =>
    simp only [FieldCommand.run]
    exact s.records_update (s.exchange.updateQuery_onlyRequestChanged _)
  | cookie key =>
    simp only [FieldCommand.run]
    exact s.records_update (s.exchange.updateCookies_onlyRequestChanged _)
  | body => exact .nothing (.refl _) rfl
  | responseBody => exact .nothing (.refl _) rfl
  | statusCode code => exact .nothing (.refl _) rfl

theorem run_records (c : Command) (s : Scene) : s.Records (c.run s).2 [] [] := by
  cases c with
  | rewrite source replacement =>
    exact s.records_update (rewritePath_onlyRequestChanged source replacement s.exchange)
  | serve c =>
    rw [run]
    cases c.ends s with
    | noLookup _ hrun => rw [hrun]; exact .refl s
    | noReading _ _ hrun => rw [hrun]; exact .refl s
    | page _ hrun => rw [hrun]; exact .nothing (.refl _) rfl
    | file _ _ _ hrun => rw [hrun]; exact .nothing (.refl _) (ServeCommand.errors_respond ..)
  | proxy upstream =>
    have hforward := World.SameCounts.forward s.exchange.request upstream s.world
    rw [run]
    cases proxyEnds upstream s with
    | noClient _ hrun => rw [hrun]; exact .refl s
    | noResponse _ h hrun =>
      rw [h] at hforward
      rw [hrun]
      exact .nothing hforward rfl
    | answers h hrun =>
      rw [h] at hforward
      rw [hrun]
      exact .nothing hforward (ResponseDraft.errors_absorb ..)
  | redirect target => exact .nothing (.noteEvents _ _) (Redirect.errors_respond ..)
  | error status text => exact .nothing (.refl _) rfl
  | requireCredentials value => exact .nothing (.refl _) rfl
  | field c => exact run_field_records c s
  | log c =>
    have hwrite := World.SameCounts.writeLine s.world c.sink c.level (c.template.expand s.exchange)
    simp only [run, LogCommand.run]
    split
    · next hrun =>
      rw [hrun] at hwrite
      exact .nothing hwrite rfl
    · next hrun =>
      rw [hrun] at hwrite
      exact .nothing hwrite rfl
  | notify c =>
    have hdeliver := World.SameCounts.deliver s.world (c.notification s.exchange)
    simp only [run, NotifyCommand.run, NotifyCommand.send]
    split
    · next hrun =>
      rw [hrun] at hdeliver
      exact .nothing hdeliver rfl
    · next hrun =>
      rw [hrun] at hdeliver
      exact .nothing hdeliver rfl
  | bypass => exact .refl s

theorem runAll_records (commands : List Command) (s : Scene) :
    s.Records (runAll s commands).2 [] [] := by
  induction commands generalizing s with
  | nil => exact .refl s
  | cons c rest ih =>
    have hfirst := c.run_records s
    cases firstStep s c rest with
    | handsOn _ hall =>
      rw [hall]
      exact .refl s
    | fails _ hrun hall =>
      rw [hall]
      rwa [hrun] at hfirst
    | ends _ hrun hall =>
      rw [hall]
      rwa [hrun] at hfirst
    | goesOn _ hrun hall =>
      rw [hall]
      rw [hrun] at hfirst
      exact hfirst.trans (ih _)

end Command

/-! ## What events put on record -/

/-- The failure that ended the commands of a rule, if one did. -/
def BlockRun.failure? (b : BlockRun) (rule : Rule) : Option Failure :=
  match b.result with
  | .ok _ => none
  | .error e => some ⟨rule.name, e⟩

namespace RuleSet

namespace Event

/-- The match that is counted: the rule that ran, and the phase it ran in or that it is the default rule. A
default rule that does nothing is not counted. -/
def ruleMatch? : Event → Option (String × String)
  | passedOver _ _ => none
  | ran phase rule _ => some (rule.name, phase.name)
  | ranDefault _ rule _ => if rule.isPurePass then none else some (rule.name, "default")
  | called _ => none

/-- The failure that is counted. -/
def failure? : Event → Option Failure
  | passedOver _ _ => none
  | ran _ rule block => block.failure? rule
  | ranDefault _ rule block => block.failure? rule
  | called _ => none

/-- A match is counted for each name that is listed, and under that name. -/
theorem map_fst_ruleMatch? (e : Event) : e.ruleMatch?.map Prod.fst = e.ruleName? := by
  cases e with
  | ranDefault phase rule block =>
    rw [ruleMatch?, ruleName?]
    split <;> rfl
  | _ => rfl

end Event

/-- The matches that events count. -/
def matchesOf (es : List Event) : List (String × String) := es.filterMap Event.ruleMatch?

/-- The failures that events count. -/
def failuresOf (es : List Event) : List Failure := es.filterMap Event.failure?

theorem map_fst_matchesOf (es : List Event) :
    (matchesOf es).map Prod.fst = es.filterMap Event.ruleName? := by
  have hname : (fun e ↦ (Event.ruleMatch? e).map Prod.fst) = Event.ruleName? :=
    funext Event.map_fst_ruleMatch?
  rw [matchesOf, List.map_filterMap, hname]

theorem noteFailure_records (rule : Rule) (phase : Phase) (e : CommandError) (s : Scene) :
    s.Records (noteFailure rule phase e s) [] [⟨rule.name, e⟩] := by
  have hworld : (noteFailure rule phase e s).world = (s.world.noteEvent ⟨.error, "command failed: " ++
      e.message, [("rule", rule.name), ("phase", phase.name)]⟩).count
        (.commandError rule.name e.status.code) := by
    cases phase <;> rfl
  refine ⟨?_, ?_, (noteFailure_fails rule phase e s).recorded⟩
  · rw [hworld, World.count, World.ruleMatches_note, (World.SameCounts.noteEvent _ _).ruleMatches]
    rfl
  · rw [hworld, World.count, World.commandErrors_note, (World.SameCounts.noteEvent _ _).commandErrors]
    rfl

theorem execute_records (rule : Rule) (phase : Phase) (s : Scene) :
    s.Records (execute rule phase s).2 [] ((rule.block.runFrom s).failure? rule).toList := by
  have hblock := Command.runAll_records rule.block.commands s
  unfold execute CommandBlock.runFrom BlockRun.failure?
  unfold CommandBlock.run
  split
  · next hrun =>
    rw [hrun] at hblock ⊢
    exact hblock
  · next hrun =>
    rw [hrun] at hblock ⊢
    exact hblock.trans (noteFailure_records ..)

theorem noteMatch_records (rule : Rule) (phase : String) (s : Scene) :
    s.Records (noteMatch rule phase s) [(rule.name, phase)] [] where
  ruleMatches := World.ruleMatches_note ..
  commandErrors := World.commandErrors_note ..
  errors := (List.append_nil _).symm

theorem noted_records (phase : Phase) (rule : Rule) (s : Scene) :
    s.Records (noted phase rule s) [(rule.name, phase.name)] [] := by
  have hevent : s.Records (s.withWorld (·.noteEvent (matchEvent rule (matchMessage phase)))) [] [] :=
    .nothing (.noteEvent _ _) rfl
  exact hevent.trans (noteMatch_records ..)

theorem notedDefault_records (rule : Rule) (s : Scene) :
    s.Records (notedDefault rule s)
      (if rule.isPurePass then none else some (rule.name, "default")).toList [] := by
  unfold notedDefault
  split
  · exact .refl s
  · exact noteMatch_records ..

variable {upstream : Handler} {s s' : Scene} {e : Event} {es : List Event} {phase : Phase}

theorem Moves.records (h : Moves upstream s e s') (hphase : e.phase? = some phase) :
    s.Records s' e.ruleMatch?.toList e.failure?.toList := by
  cases h with
  | passedOver => exact .refl s
  | ran phase => exact (noted_records ..).trans (execute_records ..)
  | ranDefault phase rule =>
    have hrecords := (notedDefault_records rule s).trans (execute_records rule phase (notedDefault rule s))
    rwa [List.append_nil, List.nil_append] at hrecords
  | called => cases hphase

theorem Run.records (h : Run upstream s es s') (hphase : AllIn phase es) :
    s.Records s' (matchesOf es) (failuresOf es) := by
  induction h with
  | nil => exact .refl _
  | @cons s s₁ s' e es first _ ih =>
    rw [AllIn, List.forall_mem_cons] at hphase
    have hcons {α : Type} (f : Event → Option α) :
        (e :: es).filterMap f = (f e).toList ++ es.filterMap f := by
      cases he : f e <;> simp [he]
    rw [matchesOf, failuresOf, hcons, hcons]
    exact (first.records hphase.1).trans (ih hphase.2)

/-! ## The whole course -/

/-- What the upstream does if it is called: it is given the world of the scene that was reached, and leaves
another one. Without a call the world stays. -/
def Leaves (upstream : Handler) (call : Option (Except Breakdown Response)) (reached : Scene)
    (left : World) : Prop :=
  match call with
  | none => left = reached.world
  | some answer => upstream reached.exchange.request reached.world = (answer, left)

theorem callUpstream_leaves (upstream : Handler) (s : Scene) :
    (upstream s.exchange.request s.world).2.SameCounts (callUpstream upstream s).2.world ∧
      (callUpstream upstream s).2.exchange.draft.errors = s.exchange.draft.errors := by
  unfold callUpstream
  dsimp only
  split
  · next b w hcall =>
    rw [hcall]
    exact ⟨.refl w, rfl⟩
  · next response w hcall =>
    rw [hcall]
    exact ⟨.note w rfl, ResponseDraft.errors_absorb ..⟩

theorem Run.leaves {call : Option (Except Breakdown Response)}
    (h : Run upstream s (call.toList.map .called) s') :
    ∃ left, Leaves upstream call s left ∧ left.SameCounts s'.world ∧
      s'.exchange.draft.errors = s.exchange.draft.errors := by
  cases call with
  | none =>
    cases h
    exact ⟨s.world, rfl, .refl _, rfl⟩
  | some answer =>
    obtain ⟨s₁, hmove, hrest⟩ := h.of_cons
    cases hrest
    cases hmove
    exact ⟨_, rfl, callUpstream_leaves upstream s⟩

theorem respond_counts (s : Scene) : s.world.SameCounts (respond s).2 := by
  unfold respond
  dsimp only
  split
  · exact .noteEvent ..
  · exact .refl _

theorem Course.result_counts (set : RuleSet) (c : Course) (last : Scene) :
    last.world.SameCounts (c.result set last).2 := by
  unfold result
  split
  · exact .refl _
  · exact respond_counts last

/-- The metrics of one request agree with its course. From the start up to the scene in which the upstream is
called, and from what the upstream leaves up to the end, exactly the events of the course are counted. -/
structure Course.Metered (set : RuleSet) (upstream : Handler) (c : Course) (start : World) (reached : Scene)
    (left final : World) : Prop where
  call : Leaves upstream c.call reached left
  matches_before : reached.world.ruleMatches = start.ruleMatches ++ matchesOf (c.requestEvents set)
  matches_after : final.ruleMatches = left.ruleMatches ++ matchesOf (c.responseEvents set)
  errors_before : reached.world.commandErrors =
    start.commandErrors ++ (failuresOf (c.requestEvents set)).map Failure.labels
  errors_after : final.commandErrors =
    left.commandErrors ++ (failuresOf (c.responseEvents set)).map Failure.labels

/-- Whatever the rules, the request and the upstream are, a handler counts what runs. It counts one match for
each name on the list of the response, under that name and with the phase or as the default rule; and one
failed command for each error that the draft of the response records, with the rule and the status of that
failure. -/
theorem metrics_agree (set : RuleSet) (upstream : Handler) (request : Request) (world : World) :
    ∃ (c : Course) (reached last : Scene) (left : World),
      c.Obeys set ∧ Run upstream ⟨.start request, world⟩ (c.requestEvents set) reached ∧
      Run upstream ⟨.start request, world⟩ (c.events set) last ∧
      set.handler upstream request world = c.result set last ∧
      c.Metered set upstream world reached left (set.handler upstream request world).2 ∧
      (matchesOf (c.requestEvents set) ++ matchesOf (c.responseEvents set)).map Prod.fst =
        c.ruleNames set ∧
      last.exchange.draft.errors =
        (failuresOf (c.requestEvents set) ++ failuresOf (c.responseEvents set)).map Failure.text := by
  obtain ⟨c, last, hobeys, hrun, hresult⟩ := handler_course set upstream request world
  obtain ⟨reached, hbefore, hrest⟩ := hrun.of_append
  obtain ⟨called, hcall, hafter⟩ := hrest.of_append
  obtain ⟨left, hleaves, hcounts, herrors⟩ := hcall.leaves
  have hrecords := hbefore.records hobeys.requestEvents_allIn
  have hrecords' := hafter.records hobeys.responseEvents_allIn
  have hfinal : last.world.SameCounts (set.handler upstream request world).2 := by
    rw [hresult]
    exact c.result_counts set last
  have hmetered : c.Metered set upstream world reached left (set.handler upstream request world).2 :=
    { call := hleaves
      matches_before := hrecords.ruleMatches
      matches_after := by rw [hfinal.ruleMatches, hrecords'.ruleMatches, hcounts.ruleMatches]
      errors_before := hrecords.commandErrors
      errors_after := by rw [hfinal.commandErrors, hrecords'.commandErrors, hcounts.commandErrors] }
  refine ⟨c, reached, last, left, hobeys, hbefore, hrun, hresult, hmetered, ?_, ?_⟩
  · have hcalls : (c.call.toList.map Event.called).filterMap Event.ruleName? = [] := by
      cases c.call <;> rfl
    rw [List.map_append, map_fst_matchesOf, map_fst_matchesOf, Course.ruleNames, Course.events,
      List.filterMap_append, List.filterMap_append, hcalls, List.nil_append]
  · rw [hrecords'.errors, herrors, hrecords.errors, List.map_append]
    rfl

end RuleSet

end RuleGate
