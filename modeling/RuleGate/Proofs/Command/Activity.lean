import RuleGate.Command.Directives
import RuleGate.Proofs.Command.Frame
import RuleGate.Proofs.UrlPath

/-!
# Activities

What rules do with an exchange: they read values of the request, and they run commands. A property that no
reading and no single change of an exchange destroys is kept however these are mixed. A command that was
compiled never rewrites a path to nothing, which would leave a target in origin form without a path, and never
rewrites the path of a target that has none.
-/

namespace RuleGate

/-! ## What compiled rewrites put in place of a path -/

namespace Command

/-- A rewrite leaves a path. -/
def LeavesPath : Command → Prop
  | rewrite _ replacement => replacement ≠ ""
  | _ => True

theorem compileRewrite_ne_empty {args : List String} {c : Command} (h : compileRewrite args = .ok c) :
    ∃ source replacement, c = rewrite source replacement ∧ source ≠ "" ∧ replacement ≠ "" := by
  unfold compileRewrite at h
  split at h
  · dsimp only at h
    split at h
    · next hall =>
      cases h
      have hcleaned := List.cons.inj (allOrErrors_eq_ok hall)
      have hsource := hcleaned.1
      have hreplacement := (List.cons.inj hcleaned.2).1
      refine ⟨_, _, rfl, ?_, ?_⟩
      · split at hsource
        · next hp =>
          cases hsource
          exact UrlPath.cleanUrl_ne_empty hp
        · cases hsource
      · split at hreplacement
        · next hp =>
          cases hreplacement
          exact UrlPath.cleanUrl_ne_empty hp
        · cases hreplacement
    · cases h
    · cases h
  · cases h

/-- Nothing but a rewrite compiles to a rewrite. -/
theorem compileArguments_rewrite {mode : CompileMode} {disk : Disk} {args : List String} {name : Name}
    {source replacement : String}
    (h : (compileArguments mode disk args name).1 = .ok (rewrite source replacement)) :
    source ≠ "" ∧ replacement ≠ "" := by
  cases name with
  | rewrite =>
    obtain ⟨source', replacement', hc, hne⟩ := compileRewrite_ne_empty h
    cases hc
    exact hne
  | error =>
    simp only [compileArguments, compileError] at h
    split at h
    · split at h <;> cases h
    · cases h
  | requireCredentials =>
    obtain ⟨realm, -, h⟩ := bind_eq_ok.mp h
    split at h <;> cases h
  | pass =>
    simp only [compileArguments] at h
    split at h <;> cases h
  | _ =>
    obtain ⟨_, -, hc⟩ := map_eq_ok.mp h
    cases hc

/-- A command that some directive line is compiled to. -/
def IsCompiled (c : Command) : Prop :=
  ∃ (env : Environment) (mode : CompileMode) (disk : Disk) (line : String),
    (compileLine env mode disk line).1 = .ok c

theorem IsCompiled.rewrite_ne_empty {source replacement : String} (h : (rewrite source replacement).IsCompiled) :
    source ≠ "" ∧ replacement ≠ "" := by
  obtain ⟨env, mode, disk, line, h⟩ := h
  unfold compileLine at h
  split at h
  · cases h
  · split at h
    · cases h
    · split at h
      · next hargs =>
        cases h
        exact compileArguments_rewrite (congrArg Prod.fst hargs)
      · cases h

theorem IsCompiled.leavesPath {c : Command} (h : c.IsCompiled) : c.LeavesPath := by
  cases c with
  | rewrite source replacement => exact h.rewrite_ne_empty.2
  | _ => trivial

end Command

/-- One thing that rules do with an exchange: read a value of the request, or run a command. -/
inductive Activity where
  | read (d : Exchange.Derived)
  | command (c : Command)

namespace Activity

def perform (s : Scene) : Activity → Scene
  | read d => s.withExchange (·.remember d)
  | command c => (c.run s).2

end Activity

/-! ## Properties that last -/

/-- A property that an exchange keeps when it is read and when commands change it. A path is set to one that is
there, and only where a condition on the exchange holds. -/
structure Exchange.LastsWhere (R P : Exchange → Prop) : Prop where
  remember : ∀ {x : Exchange}, P x → ∀ d, P (x.remember d)
  setHeaders : ∀ {x : Exchange}, P x → ∀ h, P (x.setHeaders h)
  setBody : ∀ {x : Exchange}, P x → ∀ body, P (x.setBody body)
  updateCookies : ∀ {x : Exchange}, P x → ∀ f, P (x.updateCookies f).1
  updateQuery : ∀ {x : Exchange}, P x → ∀ f, P (x.updateQuery f).1
  setPath : ∀ {x : Exchange}, P x → R x → ∀ {path : String}, path ≠ "" → P (x.setPath path).1
  draft : ∀ {x y : Exchange}, P x → OnlyDraftChanged x y → P y

/-- A property that lasts whatever the path is that is changed. -/
abbrev Exchange.Lasts (P : Exchange → Prop) : Prop := LastsWhere (fun _ ↦ True) P

/-- A property that lasts as long as only a path that is there is changed, which is all that compiled commands
do. -/
abbrev Exchange.Endures (P : Exchange → Prop) : Prop := LastsWhere (fun x ↦ x.path ≠ "") P

namespace Exchange.LastsWhere

variable {R P : Exchange → Prop}

theorem endures (h : Lasts P) : Endures P := { h with setPath := fun hx _ ↦ h.setPath hx trivial }

theorem rewritePath (h : LastsWhere R P) {x : Exchange} (hx : P x) {source replacement : String}
    (hcondition : ∀ rest, Text.dropPrefix? source.toList (Check.rooted x.path).toList = some rest →
      R (x.remember .path))
    (hne : replacement ≠ "") : P (Command.rewritePath source replacement x).1 := by
  unfold Command.rewritePath
  split
  · next rest hrest =>
    refine h.setPath (h.remember hx .path) (hcondition rest hrest) ?_
    simp [String.append_eq_empty_iff, hne]
  · exact h.remember hx .path

theorem runField (h : LastsWhere R P) {s : Scene} (hs : P s.exchange) (c : FieldCommand) :
    P (c.run s).2.exchange := by
  cases hrequest : c.target.isOfRequest with
  | false => exact h.draft hs (FieldCommand.run_onlyDraftChanged hrequest s)
  | true =>
    obtain ⟨op, target, value⟩ := c
    cases target with
    | header name =>
      simp only [FieldCommand.run]
      split
      · exact h.setHeaders hs _
      · exact hs
    | query key =>
      simp only [FieldCommand.run, Scene.update_exchange]
      exact h.updateQuery hs _
    | cookie key =>
      simp only [FieldCommand.run, Scene.update_exchange]
      exact h.updateCookies hs _
    | body =>
      simp only [FieldCommand.run, Scene.withExchange_exchange]
      exact h.setBody hs _
    | responseHeader name => cases hrequest
    | responseBody => cases hrequest
    | statusCode code => cases hrequest

/-- All commands but rewrites keep the property. -/
theorem runCommand_of_rewrite (h : LastsWhere R P) {s : Scene} (hs : P s.exchange) {c : Command}
    (hrewrite : ∀ source replacement, c = .rewrite source replacement →
      P (Command.rewritePath source replacement s.exchange).1) : P (c.run s).2.exchange := by
  cases hedits : c.editsRequest with
  | false => exact h.draft hs (Command.run_onlyDraftChanged hedits s)
  | true =>
    cases c with
    | rewrite source replacement =>
      rw [Command.run, Scene.update_exchange]
      exact hrewrite source replacement rfl
    | field c =>
      rw [Command.run]
      exact h.runField hs c
    | _ => cases hedits

theorem perform (h : Endures P) {s : Scene} (hs : P s.exchange) {a : Activity}
    (hcompiled : ∀ c, a = .command c → c.IsCompiled) : P (a.perform s).exchange := by
  cases a with
  | read d => exact h.remember hs d
  | command c =>
    refine h.runCommand_of_rewrite hs fun source replacement hc ↦ ?_
    obtain ⟨hsource, hne⟩ := (hc ▸ hcompiled c rfl).rewrite_ne_empty
    refine h.rewritePath hs (fun rest hrest (hempty : s.exchange.path = "") ↦ ?_) hne
    -- A path that is not there begins with nothing but the empty text.
    rw [hempty] at hrest
    have hnone : source.toList ++ rest = [] := (Text.dropPrefix?_eq_some hrest).symm
    exact hsource (String.toList_eq_nil_iff.mp (List.append_eq_nil_iff.mp hnone).1)

/-- However reading and running compiled commands are mixed, a property that endures is kept. -/
theorem foldl_perform (h : Endures P) {s : Scene} (hs : P s.exchange) {activities : List Activity}
    (hcompiled : ∀ c, .command c ∈ activities → c.IsCompiled) :
    P (activities.foldl Activity.perform s).exchange := by
  induction activities generalizing s with
  | nil => exact hs
  | cons a rest ih =>
    rw [List.foldl_cons]
    apply ih
    · exact h.perform hs fun c hc ↦ hcompiled c (hc ▸ .head _)
    · exact fun c hc ↦ hcompiled c (.tail _ hc)

theorem runCommand (h : Lasts P) {s : Scene} (hs : P s.exchange) {c : Command} (hc : c.LeavesPath) :
    P (c.run s).2.exchange := by
  refine h.runCommand_of_rewrite hs fun source replacement hrewrite ↦ ?_
  rw [hrewrite] at hc
  exact h.rewritePath hs (fun _ _ ↦ trivial) hc

end Exchange.LastsWhere

end RuleGate
