import RuleGate.Proofs.Directive.References
import RuleGate.Proofs.Error

/-!
# References without a variable

Whether a name resolves changes the words of a line and the names that are missing, and nothing in how the line is
read. So what is missing are those references of the line that do not resolve. They are listed in order behind the
error of what is still open, and also where nothing is open. A closing bracket with no bracket open is different:
reading breaks off there, and the error of the bracket is all that is left of the line, whatever was missing before.
-/

namespace RuleGate

/-- There is no variable of the name, and none of the gateway's own under the short name. -/
def Environment.lacks (env : Environment) (name : String) : Bool :=
  (env name).isNone && (env (ownPrefix ++ name)).isNone

theorem Environment.resolve_eq_none_iff (env : Environment) (name : String) :
    env.resolve name = none ↔ env.lacks name = true := by
  simp [resolve, lacks]

namespace Directive

/-- The names of the references in a line for which there is no variable. -/
def unresolved (env : Environment) (line : String) : List String := (references line).filter env.lacks

/-- Somewhere in the line a bracket is closed that was not opened. -/
def BreaksOff (line : String) : Prop :=
  ∃ before after s, line = before ++ ")" ++ after ∧ Scanner.scan .empty .start before.toList = .ok s ∧
    s.escaped = false ∧ s.depth = 0

/-- The names that a single error lists as missing. -/
def namesIn : RuleError → List String
  | .variablesNotFound names => names
  | _ => []

/-- The names that an error lists as missing, in whatever lists it holds. -/
def listed (e : RuleError) : List String := e.leaves.flatMap namesIn

namespace Scanner

/-! ## Reading with and without variables -/

/-- A scanner and one that has read the same where nothing resolves. Only the words are not compared. -/
structure ReadsAlike (env : Environment) (s t : Scanner) : Prop where
  escaped : t.escaped = s.escaped
  dollar : t.dollar = s.dollar
  quote : t.quote = s.quote
  depth : t.depth = s.depth
  name : t.name = s.name
  missing : s.missing = t.missing.filter env.lacks

/-- Both computations break off with the same error, or both leave scanners that have read alike. -/
inductive BothRead (env : Environment) : Compiled Scanner → Compiled Scanner → Prop
  | ok {s t : Scanner} (alike : ReadsAlike env s t) : BothRead env (.ok s) (.ok t)
  | error (e : RuleError) : BothRead env (.error e) (.error e)

theorem BothRead.ite {env : Environment} {p p' : Prop} {_ : Decidable p} {_ : Decidable p'}
    {a a' b b' : Compiled Scanner} (hp : p' ↔ p) (ha : BothRead env a a') (hb : BothRead env b b') :
    BothRead env (if p then a else b) (if p' then a' else b') := by
  by_cases h : p
  · rw [if_pos h, if_pos (hp.mpr h)]
    exact ha
  · rw [if_neg h, if_neg fun h' ↦ h (hp.mp h')]
    exact hb

namespace ReadsAlike

variable {env : Environment} {s t : Scanner}

theorem push (h : ReadsAlike env s t) (c : Char) : ReadsAlike env (s.push c) (t.push c) :=
  ⟨h.escaped, h.dollar, h.quote, h.depth, h.name, h.missing⟩

theorem endWord (h : ReadsAlike env s t) : ReadsAlike env s.endWord t.endWord :=
  ⟨h.escaped, h.dollar, h.quote, h.depth, h.name, h.missing⟩

theorem settledBefore (h : ReadsAlike env s t) (c : Char) :
    ReadsAlike env (s.settledBefore c) (t.settledBefore c) := by
  unfold Scanner.settledBefore
  rw [h.dollar]
  split
  · exact ⟨h.escaped, rfl, h.quote, h.depth, h.name, h.missing⟩
  · exact h

theorem stepQuote (h : ReadsAlike env s t) (c : Char) : ReadsAlike env (s.stepQuote c) (t.stepQuote c) := by
  unfold Scanner.stepQuote
  rw [h.quote, h.depth]
  split
  · split
    · exact ⟨h.escaped, h.dollar, rfl, h.depth, h.name, h.missing⟩
    · exact h.push c
  · split
    · exact ⟨h.escaped, h.dollar, rfl, h.depth, h.name, h.missing⟩
    · exact h.push c

/-- The one place where it matters whether a name resolves. -/
theorem endReference (h : ReadsAlike env s t) (name : List Char) :
    ReadsAlike env (Scanner.endReference env s name) (Scanner.endReference .empty t name) := by
  have hempty : Environment.resolve .empty (String.ofList name.reverse) = none := rfl
  unfold Scanner.endReference
  simp only [hempty]
  split
  · next value hvalue =>
    have hlacks : ¬ env.lacks (String.ofList name.reverse) = true := by
      rw [← env.resolve_eq_none_iff, hvalue]
      simp
    refine ⟨h.escaped, h.dollar, h.quote, h.depth, rfl, ?_⟩
    rw [List.filter_cons_of_neg hlacks]
    exact h.missing
  · next hnone =>
    refine ⟨h.escaped, h.dollar, h.quote, h.depth, rfl, ?_⟩
    rw [List.filter_cons_of_pos ((env.resolve_eq_none_iff _).mp hnone), h.missing]

theorem stepPlain (h : ReadsAlike env s t) (c : Char) :
    BothRead env (s.stepPlain env c) (t.stepPlain .empty c) := by
  have hblank : (c = ' ' ∨ c = '\t') ∧ t.quote = none ↔ (c = ' ' ∨ c = '\t') ∧ s.quote = none := by rw [h.quote]
  unfold Scanner.stepPlain
  refine .ite .rfl (.ok ?backslash) (.ite .rfl (.ok ?dollar) (.ite (by rw [h.dollar]) (.ok ?brace)
    (.ite .rfl (.ok ?opening) (.ite .rfl (.ite (by rw [h.depth]) (.error _) (.ok ?closing)) ?other))))
  case backslash => exact ⟨rfl, h.dollar, h.quote, h.depth, h.name, h.missing⟩
  case dollar =>
    rw [h.dollar]
    split
    · exact ⟨h.escaped, rfl, h.quote, h.depth, h.name, h.missing⟩
    · exact ⟨h.escaped, rfl, h.quote, h.depth, h.name, h.missing⟩
  case brace => exact ⟨h.escaped, rfl, h.quote, h.depth, rfl, h.missing⟩
  case opening => exact ⟨h.escaped, h.dollar, h.quote, congrArg (· + 1) h.depth, h.name, h.missing⟩
  case closing => exact ⟨h.escaped, h.dollar, h.quote, congrArg (· - 1) h.depth, h.name, h.missing⟩
  case other =>
    rw [h.name]
    split
    · refine .ite .rfl (.ok (h.endReference _)) (.ite hblank (.ok h.endWord) (.ok ?_))
      exact ⟨h.escaped, h.dollar, h.quote, h.depth, rfl, h.missing⟩
    · exact .ite hblank (.ok h.endWord) (.ok (h.push c))

theorem step (h : ReadsAlike env s t) (c : Char) :
    BothRead env (Scanner.step env s c) (Scanner.step .empty t c) := by
  cases hescaped : s.escaped with
  | true =>
    rw [Scanner.step, Scanner.step, if_pos hescaped, if_pos (h.escaped.trans hescaped)]
    exact .ok ⟨rfl, h.dollar, h.quote, h.depth, h.name, h.missing⟩
  | false =>
    rw [step_of_not_escaped hescaped, step_of_not_escaped (h.escaped.trans hescaped)]
    exact .ite .rfl (.ok ((h.settledBefore c).stepQuote c)) ((h.settledBefore c).stepPlain c)

theorem scan (h : ReadsAlike env s t) (cs : List Char) :
    BothRead env (Scanner.scan env s cs) (Scanner.scan .empty t cs) := by
  induction cs generalizing s t with
  | nil => exact .ok h
  | cons c cs ih =>
    have hstep := h.step c
    rw [scan_cons, scan_cons]
    revert hstep
    generalize Scanner.step env s c = result, Scanner.step .empty t c = result'
    rintro (hstep | e)
    · exact ih hstep
    · exact .error e

theorem missingNames (h : ReadsAlike env s t) (cs : List Char) :
    Scanner.missingNames env s cs = (Scanner.missingNames .empty t cs).filter env.lacks := by
  have hhere : s.missing.reverse = t.missing.reverse.filter env.lacks := by rw [h.missing, List.filter_reverse]
  induction cs generalizing s t with
  | nil => exact hhere
  | cons c cs ih =>
    have hstep := h.step c
    unfold Scanner.missingNames
    revert hstep
    generalize Scanner.step env s c = result, Scanner.step .empty t c = result'
    rintro (hstep | e)
    · exact ih hstep (by rw [hstep.missing, List.filter_reverse])
    · exact hhere

end ReadsAlike

theorem readsAlike_start (env : Environment) : ReadsAlike env .start .start := ⟨rfl, rfl, rfl, rfl, rfl, rfl⟩

/-! ## Where reading breaks off -/

variable {env : Environment} {s : Scanner} {c : Char}

theorem stepPlain_eq_error_iff {e : RuleError} :
    stepPlain env s c = .error e ↔ c = ')' ∧ s.depth = 0 ∧ e = .unterminatedBrackets := by
  unfold stepPlain
  grind

/-- The only error in the middle of a line. -/
theorem step_eq_error_iff {e : RuleError} : step env s c = .error e ↔
    c = ')' ∧ s.escaped = false ∧ s.depth = 0 ∧ e = .unterminatedBrackets := by
  cases hescaped : s.escaped with
  | true => simp [step, hescaped]
  | false =>
    have hdepth : (s.settledBefore c).depth = s.depth := by
      unfold settledBefore
      split <;> rfl
    rw [step_of_not_escaped hescaped]
    split
    · next hquote =>
      have hc : c ≠ ')' := by
        rintro rfl
        cases hquote
      simp [hc]
    · simp [stepPlain_eq_error_iff, hdepth]

theorem scan_eq_error_iff {e : RuleError} {cs : List Char} : scan env s cs = .error e ↔
    e = .unterminatedBrackets ∧ ∃ before after s', cs = before ++ ')' :: after ∧
      scan env s before = .ok s' ∧ s'.escaped = false ∧ s'.depth = 0 := by
  constructor
  · intro h
    induction cs generalizing s with
    | nil => cases h
    | cons c cs ih =>
      cases hstep : step env s c with
      | error e' =>
        obtain ⟨rfl, hescaped, hdepth, rfl⟩ := step_eq_error_iff.mp hstep
        rw [scan_cons, hstep] at h
        cases h
        exact ⟨rfl, [], cs, s, rfl, rfl, hescaped, hdepth⟩
      | ok s' =>
        rw [scan_cons_of_ok hstep] at h
        obtain ⟨he, before, after, s'', rfl, hbefore, hmark⟩ := ih h
        exact ⟨he, c :: before, after, s'', rfl, (scan_cons_of_ok hstep before).trans hbefore, hmark⟩
  · rintro ⟨rfl, before, after, s', rfl, hbefore, hescaped, hdepth⟩
    rw [scan_append_of_ok hbefore, scan_cons, step_eq_error_iff.mpr ⟨rfl, hescaped, hdepth, rfl⟩]
    rfl

end Scanner

open Scanner in
theorem breaksOff_iff (env : Environment) (line : String) :
    BreaksOff line ↔ scan env .start line.toList = .error .unterminatedBrackets := by
  have hempty : BreaksOff line ↔ scan .empty .start line.toList = .error .unterminatedBrackets := by
    rw [scan_eq_error_iff]
    constructor
    · rintro ⟨before, after, s, rfl, hbefore, hmark⟩
      exact ⟨rfl, before.toList, after.toList, s, by simp, hbefore, hmark⟩
    · rintro ⟨-, before, after, s, hline, hbefore, hmark⟩
      refine ⟨String.ofList before, String.ofList after, s, ?_, by rwa [String.toList_ofList], hmark⟩
      rw [← String.toList_inj, hline]
      simp
  have hread := (readsAlike_start env).scan line.toList
  rw [hempty]
  revert hread
  generalize scan env .start line.toList = result, scan .empty .start line.toList = result'
  rintro (hread | e)
  · simp
  · exact Iff.rfl

theorem unresolved_eq_missing {env : Environment} {line : String} {s : Scanner}
    (h : Scanner.scan env .start line.toList = .ok s) : unresolved env line = s.missing.reverse :=
  ((Scanner.readsAlike_start env).missingNames line.toList).symm.trans (Scanner.missingNames_of_ok h)

/-! ## What the error says -/

theorem leaves_of_endError {s : Scanner} {e : RuleError} (h : s.endError? = some e) :
    e.leaves = s.openError?.toList ++ s.missingError?.toList := by
  refine RuleError.leaves_of_join (fun e he ↦ ?_) h
  rw [List.mem_append, Option.mem_toList, Option.mem_toList] at he
  rcases he with he | he
  · unfold Scanner.openError? at he
    split at he
    · cases he
      rfl
    split at he
    · cases he
      rfl
    split at he
    · cases he
      rfl
    · cases he
  · unfold Scanner.missingError? at he
    split at he
    · cases he
    · cases he
      rfl

/-- The error about the names that are missing, if there are some. -/
def missingErrors (names : List String) : List RuleError :=
  if names = [] then [] else [.variablesNotFound names]

theorem missingError?_toList (s : Scanner) : s.missingError?.toList = missingErrors s.missing.reverse := by
  unfold Scanner.missingError? missingErrors
  cases s.missing <;> simp

theorem Scanner.finish_eq_error_iff {s : Scanner} {e : RuleError} : s.finish = .error e ↔ s.endError? = some e := by
  cases hend : s.endError? with
  | none => simp [finish_of_no_error hend]
  | some e' => simp [finish_of_error hend]

theorem leaves_of_parse_error {env : Environment} {line : String} {s : Scanner}
    (h : Scanner.scan env .start line.toList = .ok s) {e : RuleError} (he : parse env line = .error e) :
    e.leaves = s.openError?.toList ++ missingErrors (unresolved env line) := by
  rw [parse_eq_finish h, Scanner.finish_eq_error_iff] at he
  rw [leaves_of_endError he, missingError?_toList, unresolved_eq_missing h]

theorem parse_of_breaksOff {env : Environment} {line : String} (h : BreaksOff line) :
    parse env line = .error .unterminatedBrackets := by
  rw [parse_eq, (breaksOff_iff env line).mp h]
  rfl

theorem leaves_of_not_breaksOff (env : Environment) {line : String} (h : ¬ BreaksOff line) :
    ∃ s, Scanner.scan env .start line.toList = .ok s ∧ ∀ e, parse env line = .error e →
      e.leaves = s.openError?.toList ++ missingErrors (unresolved env line) := by
  cases hscan : Scanner.scan env .start line.toList with
  | error e =>
    obtain ⟨rfl, -⟩ := Scanner.scan_eq_error_iff.mp hscan
    exact absurd ((breaksOff_iff env line).mpr hscan) h
  | ok s => exact ⟨s, rfl, fun e he ↦ leaves_of_parse_error hscan he⟩

theorem listed_of_leaves {e : RuleError} {s : Scanner} {names : List String}
    (h : e.leaves = s.openError?.toList ++ missingErrors names) : listed e = names := by
  have hopen : s.openError?.toList.flatMap namesIn = [] := by
    unfold Scanner.openError?
    split
    · rfl
    split
    · rfl
    split <;> rfl
  rw [listed, h, List.flatMap_append, hopen, missingErrors]
  split
  · next hnone => exact hnone.symm
  · simp [namesIn]

theorem exists_error_of_unresolved {env : Environment} {line : String} (h : unresolved env line ≠ []) :
    ∃ e, parse env line = .error e := by
  cases hscan : Scanner.scan env .start line.toList with
  | error e => exact ⟨e, by rw [parse_eq, hscan]; rfl⟩
  | ok s =>
    rw [parse_eq_finish hscan]
    cases hend : s.endError? with
    | some e => exact ⟨e, Scanner.finish_of_error hend⟩
    | none =>
      have hnone := RuleError.join_eq_none hend
      rw [List.append_eq_nil_iff, missingError?_toList, ← unresolved_eq_missing hscan, missingErrors, if_neg h] at hnone
      cases hnone.2

theorem listed_eq_iff {env : Environment} {line : String} :
    (∀ e, parse env line = .error e → listed e = unresolved env line) ↔
      unresolved env line = [] ∨ ¬ BreaksOff line := by
  by_cases h : BreaksOff line
  · have hlisted : listed .unterminatedBrackets = [] := rfl
    simp only [parse_of_breaksOff h, h, not_true_eq_false, or_false]
    constructor
    · intro hall
      rw [← hall _ rfl, hlisted]
    · rintro hnone e ⟨⟩
      rw [hlisted, hnone]
  · obtain ⟨s, -, hleaves⟩ := leaves_of_not_breaksOff env h
    exact ⟨fun _ ↦ .inr h, fun _ e he ↦ listed_of_leaves (hleaves e he)⟩

/-- An unresolved reference is never passed over in silence. Its name is listed with the others, in the order of the
references and behind the error of what is still open, exactly if the line is read to its end. Behind a bracket that
was not opened nothing is read, and the names in front of it get lost. What counts as a reference does not depend on
the variables: a reference that is written out has its name in the list behind those in front of it, and each name in
the list belongs to a dollar and two braces in the line. -/
theorem unresolved_references_are_listed_iff (env : Environment) (line : String) :
    (unresolved env line ≠ [] → ∃ e, parse env line = .error e) ∧
    (BreaksOff line → parse env line = .error .unterminatedBrackets) ∧
    (¬ BreaksOff line → ∃ s, Scanner.scan env .start line.toList = .ok s ∧ ∀ e, parse env line = .error e →
      e.leaves = s.openError?.toList ++ missingErrors (unresolved env line)) ∧
    ((∀ e, parse env line = .error e → listed e = unresolved env line) ↔
      unresolved env line = [] ∨ ¬ BreaksOff line) ∧
    (∀ before name after s, line = before ++ reference name ++ after →
      Scanner.scan .empty .start before.toList = .ok s → s.Unmarked → s.TakesName name.toList →
      ∃ later, references line = references before ++ name :: later) ∧
    ∀ earlier name later, references line = earlier ++ name :: later →
      ∃ before inner after s, line = before ++ "$\x7b" ++ inner ++ "\x7d" ++ after ∧
        Scanner.scan .empty .start before.toList = .ok s ∧ s.Unmarked ∧ references before = earlier ∧
        name.toList.Sublist inner.toList := by
  refine ⟨exists_error_of_unresolved, parse_of_breaksOff, leaves_of_not_breaksOff env, listed_eq_iff, ?_, ?_⟩
  · rintro before name after s rfl hbefore hunmarked hname
    exact exists_references_eq hbefore hunmarked hname after
  · exact fun _ _ _ ↦ exists_reference

/-- The variable behind the subject is not there, and the error does not say so. -/
theorem stray_bracket_hides_missing_name :
    unresolved .empty "foo $\x7bNOPE\x7d)" = ["NOPE"] ∧
    parse .empty "foo $\x7bNOPE\x7d)" = .error .unterminatedBrackets ∧
    listed .unterminatedBrackets = [] :=
  ⟨by decide, rfl, rfl⟩

end Directive

end RuleGate
