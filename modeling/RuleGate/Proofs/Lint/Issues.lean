import RuleGate.Lint.Basic

/-!
# Where issues come from

An issue that a lint run reports is about one of the rules. That a rule is broken is said of rules that do
not compile for checking, and that a rule is never reached of those behind one that hands every request on.
-/

namespace RuleGate.RuleSpec

variable {env : Environment} {files : FileSystem} {file : String} {state : LintState}
  {numbered : List (RuleSpec × Nat)} {issue : LintIssue}

/-- A rule as a lint run compiles it. -/
def checked (env : Environment) (files : FileSystem) (spec : RuleSpec) : Compiled Rule :=
  (Rule.compile env .check (.ofFiles files) spec).1

/-- What is known after one more rule. -/
def lintNext (env : Environment) (files : FileSystem) (state : LintState) (spec : RuleSpec) (i : Nat) :
    LintState :=
  match checked env files spec with
  | .ok rule => (state.noteName i spec.name).noteRule rule
  | .error _ => state.noteName i spec.name

/-- The issues of one rule: the warnings first, and then why it does not compile. -/
def issuesOf (env : Environment) (files : FileSystem) (file : String) (state : LintState)
    (spec : RuleSpec) : List LintIssue :=
  warnings file spec.name state ++
    match checked env files spec with
    | .ok _ => []
    | .error e => [.broken file spec.name e]

theorem lintFrom_cons (env : Environment) (files : FileSystem) (file : String) (state : LintState)
    (spec : RuleSpec) (i : Nat) (r : List (RuleSpec × Nat)) :
    lintFrom env files file state ((spec, i) :: r) =
      issuesOf env files file state (spec.named i) ++
        lintFrom env files file (lintNext env files state (spec.named i) i) r := by
  rw [lintFrom, issuesOf, lintNext, checked]
  cases (Rule.compile env .check (.ofFiles files) (spec.named i)).1 with
  | ok rule => rw [List.append_nil]
  | error e => rw [List.append_assoc, List.singleton_append]

theorem code_of_mem_warnings {name : String} (h : issue ∈ warnings file name state) :
    issue.code = .duplicateName ∨
      issue.code = .unreachable ∧ name ≠ Rule.defaultName ∧
        ∃ bypass, state.bypass = some bypass ∧ issue = .unreachable file name bypass := by
  unfold warnings at h
  rw [List.mem_append, Option.mem_toList, Option.mem_toList] at h
  obtain hduplicate | hunreachable := h
  · obtain ⟨first, -, rfl⟩ := Option.map_eq_some_iff.mp hduplicate
    exact .inl rfl
  · split at hunreachable
    · cases hunreachable
    · next hname =>
      obtain ⟨bypass, hbypass, rfl⟩ := Option.map_eq_some_iff.mp hunreachable
      exact .inr ⟨rfl, hname, bypass, hbypass, rfl⟩

/-! ## Rules that are broken -/

theorem broken_of_mem_issuesOf {spec : RuleSpec} (h : issue ∈ issuesOf env files file state spec)
    (hcode : issue.code = .broken) :
    ∃ e, checked env files spec = .error e ∧ issue = .broken file spec.name e := by
  obtain hwarning | herror := List.mem_append.mp h
  · obtain hother | ⟨hother, -⟩ := code_of_mem_warnings hwarning <;> simp [hother] at hcode
  · split at herror
    · cases herror
    · next e hchecked => exact ⟨e, hchecked, List.mem_singleton.mp herror⟩

/-- A rule is called broken because it does not compile for checking. -/
theorem exists_broken (h : issue ∈ lintFrom env files file state numbered)
    (hcode : issue.code = .broken) :
    ∃ (spec : RuleSpec) (i : Nat) (e : RuleError), (spec, i) ∈ numbered ∧
      checked env files (spec.named i) = .error e ∧
      issue = .broken file (spec.named i).name e := by
  induction numbered generalizing state with
  | nil => cases h
  | cons s r ih =>
    obtain ⟨s, i⟩ := s
    rw [lintFrom_cons] at h
    obtain hhere | hlater := List.mem_append.mp h
    · obtain ⟨e, hchecked, hissue⟩ := broken_of_mem_issuesOf hhere hcode
      exact ⟨s, i, e, List.mem_cons_self, hchecked, hissue⟩
    · obtain ⟨spec, k, e, hmem, hrest⟩ := ih hlater
      exact ⟨spec, k, e, List.mem_cons_of_mem _ hmem, hrest⟩

/-! ## Rules that are never reached -/

theorem unreachable_of_mem_issuesOf {spec : RuleSpec} (h : issue ∈ issuesOf env files file state spec)
    (hcode : issue.code = .unreachable) :
    spec.name ≠ Rule.defaultName ∧
      ∃ bypass, state.bypass = some bypass ∧ issue = .unreachable file spec.name bypass := by
  obtain hwarning | herror := List.mem_append.mp h
  · obtain hother | ⟨-, hissue⟩ := code_of_mem_warnings hwarning
    · simp [hother] at hcode
    · exact hissue
  · split at herror
    · cases herror
    · obtain rfl := List.mem_singleton.mp herror
      cases hcode

theorem bypass_noteName (state : LintState) (i : Nat) (name : String) :
    (state.noteName i name).bypass = state.bypass := by
  unfold LintState.noteName
  split <;> rfl

/-- A bypass that is known after a rule was known before it, or is that rule. -/
theorem bypass_lintNext {spec : RuleSpec} {i : Nat} {bypass : String}
    (h : (lintNext env files state spec i).bypass = some bypass) :
    state.bypass = some bypass ∨
      ∃ rule, checked env files spec = .ok rule ∧ LintState.hidesOthers rule = true ∧
        rule.name = bypass := by
  unfold lintNext at h
  split at h
  · next rule hchecked =>
    unfold LintState.noteRule at h
    split at h
    · next hhides =>
      rw [Bool.and_eq_true] at hhides
      exact .inr ⟨rule, hchecked, hhides.2, Option.some.inj h⟩
    · exact .inl (by rwa [bypass_noteName] at h)
  · exact .inl (by rwa [bypass_noteName] at h)

/-- A rule is called unreachable because one before it, which compiles for checking, hides it. -/
theorem exists_bypass (h : issue ∈ lintFrom env files file state numbered)
    (hcode : issue.code = .unreachable) :
    ∃ (front rest : List (RuleSpec × Nat)) (spec : RuleSpec) (i : Nat) (bypass : String),
      numbered = front ++ (spec, i) :: rest ∧ (spec.named i).name ≠ Rule.defaultName ∧
      issue = .unreachable file (spec.named i).name bypass ∧
      (state.bypass = some bypass ∨
        ∃ (s : RuleSpec) (k : Nat) (rule : Rule), (s, k) ∈ front ∧
          checked env files (s.named k) = .ok rule ∧ LintState.hidesOthers rule = true ∧
          rule.name = bypass) := by
  induction numbered generalizing state with
  | nil => cases h
  | cons s r ih =>
    obtain ⟨s, k⟩ := s
    rw [lintFrom_cons] at h
    obtain hhere | hlater := List.mem_append.mp h
    · obtain ⟨hname, bypass, hbypass, hissue⟩ := unreachable_of_mem_issuesOf hhere hcode
      exact ⟨[], r, s, k, bypass, rfl, hname, hissue, .inl hbypass⟩
    · obtain ⟨front, rest, spec, i, bypass, rfl, hname, hissue, hbypass⟩ := ih hlater
      refine ⟨(s, k) :: front, rest, spec, i, bypass, rfl, hname, hissue, ?_⟩
      obtain hknown | ⟨b, j, rule, hmem, hrule⟩ := hbypass
      · obtain hbefore | ⟨rule, hrule⟩ := bypass_lintNext hknown
        · exact .inl hbefore
        · exact .inr ⟨s, k, rule, List.mem_cons_self, hrule⟩
      · exact .inr ⟨b, j, rule, List.mem_cons_of_mem _ hmem, hrule⟩

end RuleGate.RuleSpec
