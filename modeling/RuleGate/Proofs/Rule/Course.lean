import RuleGate.Proofs.Command.Block
import RuleGate.Rule.Handler

/-!
# The course of a request

What a rule set does while it handles one request, as a list of events: rules whose condition fails,
rules whose commands run, and the call of the upstream. Each event takes one scene to the next by the
definitions of the handler, and `Course.Obeys` says which events there are and in which order.

The handler of a rule set always follows a course that obeys the set, and its response names the rules
that ran in it. An upstream that breaks down ends the course at its call. A set that leaves every
request alone has no handler of its own, so nothing names its rules.
-/

namespace RuleGate.RuleSet

/-- One thing that happens while a request is handled. -/
inductive Event where
  /-- The condition of a rule was judged and did not hold. -/
  | passedOver (phase : Phase) (rule : Rule)
  /-- The condition of a rule held, and its commands ran. -/
  | ran (phase : Phase) (rule : Rule) (block : BlockRun)
  /-- The default rule applied, whose condition is not asked, and its commands ran. -/
  | ranDefault (phase : Phase) (rule : Rule) (block : BlockRun)
  /-- The upstream was called. -/
  | called (answer : Except Breakdown Response)

namespace Event

/-- The name of the rule that ran, unless it is a default rule that does nothing. -/
def ruleName? : Event → Option String
  | passedOver _ _ => none
  | ran _ rule _ => some rule.name
  | ranDefault _ rule _ => if rule.isPurePass then none else some rule.name
  | called _ => none

/-- The commands that ran, each with the phase it ran in. -/
def commands : Event → List (Phase × Command)
  | passedOver _ _ => []
  | ran phase _ block => block.commands.map fun c ↦ (phase, c)
  | ranDefault phase _ block => block.commands.map fun c ↦ (phase, c)
  | called _ => []

/-- How the commands ended, if any ran. -/
def outcome : Event → Outcome
  | passedOver _ _ => .proceed
  | ran _ _ block => block.outcome
  | ranDefault _ _ block => block.outcome
  | called _ => .proceed

/-- The phase, unless the event is the call that parts the two. -/
def phase? : Event → Option Phase
  | passedOver phase _ => some phase
  | ran phase _ _ => some phase
  | ranDefault phase _ _ => some phase
  | called _ => none

/-- What became of a rule that was tried: it was passed over, or it ran. -/
def Tries (phase : Phase) (rule : Rule) (e : Event) : Prop :=
  e = passedOver phase rule ∨ ∃ block, e = ran phase rule block

end Event

/-- The message of the event that a rule matched. -/
def matchMessage : Phase → String
  | .request => "rule matched"
  | .response => "response rule matched"

/-- The scene in which the commands of a matching rule start. -/
def noted (phase : Phase) (rule : Rule) (s : Scene) : Scene :=
  noteMatch rule phase.name (s.withWorld (·.noteEvent (matchEvent rule (matchMessage phase))))

/-- The scene in which the commands of the default rule start. -/
def notedDefault (rule : Rule) (s : Scene) : Scene :=
  if rule.isPurePass then s else noteMatch rule "default" s

/-- How an event takes one scene to the next. -/
inductive Moves (upstream : Handler) : Scene → Event → Scene → Prop
  | passedOver (phase : Phase) {rule : Rule} {s : Scene} (fails : rule.applies s.exchange = false) :
      Moves upstream s (.passedOver phase rule) s
  | ran (phase : Phase) {rule : Rule} {s : Scene} (holds : rule.applies s.exchange = true) :
      Moves upstream s (.ran phase rule (rule.block.runFrom (noted phase rule s)))
        (apply rule phase (matchMessage phase) s).2
  | ranDefault (phase : Phase) (rule : Rule) (s : Scene) :
      Moves upstream s (.ranDefault phase rule (rule.block.runFrom (notedDefault rule s)))
        (applyDefault rule phase s).2
  | called (s : Scene) :
      Moves upstream s (.called (upstream s.exchange.request s.world).1) (callUpstream upstream s).2

/-- Events that follow one another, from the first scene to the last. -/
inductive Run (upstream : Handler) : Scene → List Event → Scene → Prop
  | nil {s : Scene} : Run upstream s [] s
  | cons {s s' s'' : Scene} {e : Event} {es : List Event} (first : Moves upstream s e s')
      (rest : Run upstream s' es s'') : Run upstream s (e :: es) s''

theorem Run.append {upstream : Handler} {s s' s'' : Scene} {es fs : List Event}
    (first : Run upstream s es s') (rest : Run upstream s' fs s'') :
    Run upstream s (es ++ fs) s'' := by
  induction first with
  | nil => exact rest
  | cons hmove _ ih => exact .cons hmove (ih rest)

theorem Run.single {upstream : Handler} {s s' : Scene} {e : Event} (h : Moves upstream s e s') :
    Run upstream s [e] s' := .cons h .nil

theorem Run.of_cons {upstream : Handler} {s s'' : Scene} {e : Event} {es : List Event}
    (h : Run upstream s (e :: es) s'') : ∃ s', Moves upstream s e s' ∧ Run upstream s' es s'' := by
  cases h with
  | cons first rest => exact ⟨_, first, rest⟩

theorem Run.of_append {upstream : Handler} {s s'' : Scene} {es fs : List Event}
    (h : Run upstream s (es ++ fs) s'') :
    ∃ s', Run upstream s es s' ∧ Run upstream s' fs s'' := by
  induction es generalizing s with
  | nil => exact ⟨s, .nil, h⟩
  | cons e es ih =>
    obtain ⟨s₁, hmove, hrest⟩ := h.of_cons
    obtain ⟨s₂, hes, hfs⟩ := ih hrest
    exact ⟨s₂, .cons hmove hes, hfs⟩

/-- Rules tried in order, up to the first that does not let the next one run. -/
inductive Tried (phase : Phase) : List Rule → List Event → Outcome → Prop
  | done : Tried phase [] [] .proceed
  | passedOver {rule : Rule} {rules : List Rule} {es : List Event} {o : Outcome}
      (rest : Tried phase rules es o) :
      Tried phase (rule :: rules) (.passedOver phase rule :: es) o
  | proceeded {rule : Rule} {rules : List Rule} {es : List Event} {o : Outcome} {block : BlockRun}
      (proceeds : block.outcome = .proceed) (rest : Tried phase rules es o) :
      Tried phase (rule :: rules) (.ran phase rule block :: es) o
  | stopped {rule : Rule} {rules : List Rule} {block : BlockRun} (stops : block.outcome ≠ .proceed) :
      Tried phase (rule :: rules) [.ran phase rule block] block.outcome

/-- Whether the upstream was called and broke down. -/
def brokeDown : Option (Except Breakdown Response) → Bool
  | some (.error _) => true
  | _ => false

/-- The course of one request, part by part. -/
structure Course where
  /-- The request rules that were tried. -/
  before : List Event
  /-- How the request rules ended. -/
  ended : Outcome
  /-- What the default rule did before the upstream, if it took part there. -/
  early : Option BlockRun
  /-- What the upstream answered, if it was called. -/
  call : Option (Except Breakdown Response)
  /-- The response rules that were tried. -/
  after : List Event
  /-- What the default rule did at the end, if it took part there. -/
  late : Option BlockRun

namespace Course

/-- How the request phase ended, the default rule included. -/
def requestEnd (c : Course) : Outcome :=
  match c.early with
  | some block => block.outcome
  | none => c.ended

/-- Whether the upstream broke down. -/
def isBroken (c : Course) : Bool := brokeDown c.call

def defaultEvents (set : RuleSet) (phase : Phase) (d : Option BlockRun) : List Event :=
  d.toList.map (.ranDefault phase set.default)

/-- The events of the request phase. -/
def requestEvents (set : RuleSet) (c : Course) : List Event :=
  c.before ++ defaultEvents set .request c.early

/-- The events of the response phase. -/
def responseEvents (set : RuleSet) (c : Course) : List Event :=
  c.after ++ defaultEvents set .response c.late

/-- All events in order: the request phase, the call of the upstream, the response phase. -/
def events (set : RuleSet) (c : Course) : List Event :=
  c.requestEvents set ++ (c.call.toList.map .called ++ c.responseEvents set)

/-- What a rule set makes of a request, up to what its commands do. -/
structure Obeys (set : RuleSet) (c : Course) : Prop where
  /-- The request rules are tried in order. -/
  before_tried : Tried .request set.before c.before c.ended
  /-- The default rule runs before the upstream if it does not need the response and no request rule
  stopped the others. -/
  early_iff : c.early.isSome = true ↔ c.ended = .proceed ∧ set.default.isResponseRule = false
  /-- The upstream is called unless the request phase ended in a termination. -/
  call_iff : c.call.isSome = true ↔ c.requestEnd ≠ .terminated
  /-- The response rules are tried in order, also where the upstream was not called. -/
  after_tried : c.ended ≠ .bypassed → c.isBroken = false → ∃ o, Tried .response set.after c.after o
  /-- There are no response rules after a bypass. -/
  after_nil : c.ended = .bypassed ∨ c.isBroken = true → c.after = []
  /-- The default rule runs at the end if it needs the response, whatever the response rules did. -/
  late_iff : c.late.isSome = true ↔
    set.default.isResponseRule = true ∧ c.ended ≠ .bypassed ∧ c.isBroken = false

theorem Obeys.after_nil_or_tried {set : RuleSet} {c : Course} (h : c.Obeys set) :
    c.after = [] ∨ ∃ o, Tried .response set.after c.after o := by
  by_cases hskip : c.ended = .bypassed ∨ c.isBroken = true
  · exact .inl (h.after_nil hskip)
  · rw [not_or, Bool.not_eq_true] at hskip
    exact .inr (h.after_tried hskip.1 hskip.2)

/-- The names of the rules that ran, in order. -/
def ruleNames (set : RuleSet) (c : Course) : List String := (c.events set).filterMap Event.ruleName?

/-- The commands that ran, in order. -/
def commands (set : RuleSet) (c : Course) : List (Phase × Command) :=
  (c.events set).flatMap Event.commands

/-- What the handler gives at the end of a course: the flushed response with the names of the rules
that ran, unless the upstream broke down. -/
def result (set : RuleSet) (c : Course) (last : Scene) : Except Breakdown Response × World :=
  match c.call with
  | some (.error b) => (.error b, last.world)
  | _ => (.ok { last.exchange.draft.flush with rules := some (c.ruleNames set) }, (respond last).2)

end Course

end RuleGate.RuleSet
