import RuleGate.Proofs.Lint.Issues
import RuleGate.Proofs.Rule.Checking

/-!
# Rules that are broken

A lint run compiles each rule for checking, on the disk as it is. The gateway compiles the same rules one after
the other, and each `log` directive may leave a new file. Where that makes no path that is served come into
being, and no path of a sink is too long, what a lint run calls broken keeps the gateway from starting. A rule
that serves the log file of one before it is called broken too, although the gateway starts with it.
-/

namespace RuleGate

/-- Whether an error is about a rule of the name, alone or among others. -/
def RuleError.Concerns (name : String) (e : RuleError) : Prop :=
  ∃ cause, e = .inRule name cause ∨ ∃ causes, e = .multiple causes ∧ .inRule name cause ∈ causes

namespace RuleSpec

variable {env : Environment} {files : FileSystem} {specs : List RuleSpec} {file : String} {issue : LintIssue}

theorem opens_of_compileEach (env : Environment) (disk : Disk) (numbered : List (RuleSpec × Nat)) :
    disk.Opens (compileEach env .serve disk numbered).2 := by
  induction numbered generalizing disk with
  | nil => exact .refl _
  | cons spec numbered ih =>
    obtain ⟨spec, i⟩ := spec
    exact (CommandBlock.opens_of_compileLines env disk _).trans (ih _)

/-- The directives of the rules, as far as they can be read. -/
def directives (env : Environment) (specs : List RuleSpec) : List Directive :=
  specs.flatMap fun s ↦
    (Directive.blockLines s.commands).filterMap fun (_, line) ↦ (Directive.parse env line).toOption

/-- The paths that the rules serve. -/
def servedPaths (env : Environment) (specs : List RuleSpec) : List String :=
  (directives env specs).filterMap Directive.servedPath?

/-- The paths that the rules log to. -/
def loggedPaths (env : Environment) (specs : List RuleSpec) : List String :=
  (directives env specs).filterMap Directive.loggedPath?

theorem mem_directives {spec : RuleSpec} {i : Nat} {line : String} {d : Directive} (hspec : spec ∈ specs)
    (hline : (i, line) ∈ Directive.blockLines spec.commands) (hd : Directive.parse env line = .ok d) :
    d ∈ directives env specs := by
  refine List.mem_flatMap.mpr ⟨spec, hspec, List.mem_filterMap.mpr ⟨(i, line), hline, ?_⟩⟩
  dsimp only
  rw [hd]
  rfl

/-- A rule that a lint run calls broken keeps the gateway from starting, with an error about a rule of its
name, as long as the rules serve no path that they bring into being themselves, and log to no path that is too
long. -/
theorem broken_rule_is_refused
    (hserved : ∀ path ∈ servedPaths env specs,
      ((compileAll env (.ofFiles files) specs).2.files.stat path).isOk = true → (files.stat path).isOk = true)
    (hlogged : ∀ path ∈ loggedPaths env specs, (Text.utf8Encode path.toList).length ≤ FileSystem.maxPath)
    (hissue : issue ∈ (lint env files file specs).issues) (hcode : issue.code = .broken) :
    ∃ name e, issue.rule = some name ∧ (compileAll env (.ofFiles files) specs).1 = .error e ∧
      e.Concerns name := by
  obtain ⟨spec, i, e, hmem, hchecked, rfl⟩ := exists_broken hissue hcode
  obtain ⟨front, rest, hsplit⟩ := List.append_of_mem hmem
  have hresults := compileEach_append env .serve (.ofFiles files) front ((spec, i) :: rest)
  rw [← hsplit] at hresults
  -- The rule is compiled on the disk that the rules in front of it leave.
  let disk := (compileEach env .serve (.ofFiles files) front).2
  have hdisk : (Disk.ofFiles files).Opens disk := opens_of_compileEach env _ front
  have hfinal : (Rule.compile env .serve disk (spec.named i)).2.files.Grows
      (compileAll env (.ofFiles files) specs).2.files := by
    have hrest : (compileAll env (.ofFiles files) specs).2 =
        (compileEach env .serve (Rule.compile env .serve disk (spec.named i)).2 rest).2 :=
      congrArg Prod.snd hresults
    rw [hrest]
    exact (opens_of_compileEach env _ rest).files
  have hlines : ∀ k line, (k, line) ∈ Directive.blockLines (spec.named i).commands →
      ∀ d, Directive.parse env line = .ok d →
        d.FindsNothingNew files (compileAll env (.ofFiles files) specs).2.files := by
    intro k line hline d hd
    have hmem : d ∈ directives env specs := mem_directives (List.fst_mem_of_mem_zipIdx hmem) hline hd
    exact ⟨fun path hpath ↦ hserved path (List.mem_filterMap.mpr ⟨d, hmem, hpath⟩),
      fun path hpath ↦ hlogged path (List.mem_filterMap.mpr ⟨d, hmem, hpath⟩)⟩
  have hrefused : ∃ e, (Rule.compile env .serve disk (spec.named i)).1 = .error e := by
    cases hcompiled : (Rule.compile env .serve disk (spec.named i)).1 with
    | error e => exact ⟨e, rfl⟩
    | ok rule =>
      obtain ⟨rule', hrule'⟩ := Rule.compile_check hdisk hfinal hlines hcompiled
      rw [checked, hrule'] at hchecked
      cases hchecked
  obtain ⟨e', he'⟩ := hrefused
  obtain ⟨cause, rfl⟩ := Rule.exists_cause he'
  have hresult : .error (.inRule (spec.named i).name cause) ∈
      (compileEach env .serve (.ofFiles files) specs.zipIdx).1 := by
    rw [hresults, ← he']
    exact List.mem_append_right _ List.mem_cons_self
  obtain ⟨f, hf, hconcerns⟩ := exists_error_of_mem hresult
  exact ⟨(spec.named i).name, f, rfl, hf, cause, hconcerns⟩

/-- A file system with a directory for log files. -/
def logDirectory : FileSystem := ⟨[(["logs".toList], .directory)], []⟩

/-- A rule that logs to a new file, and a rule that serves a path. -/
def logAndServe (path : String) : List RuleSpec :=
  [⟨"access", "", "log info logs/served.log hi"⟩, ⟨"files", "path /files/*", "serve " ++ path⟩]

/-- What is served is missing, and the log file does not help. -/
theorem missing_path_is_refused :
    ∃ e, (compileAll (fun _ ↦ none) (.ofFiles logDirectory) (logAndServe "missing")).1 = .error e ∧
      e.Concerns "files" := by
  have hissue : ∃ issue ∈ (lint (fun _ ↦ none) logDirectory "rules.yaml" (logAndServe "missing")).issues,
      issue.code = .broken ∧ issue.rule = some "files" := by decide +kernel
  obtain ⟨issue, hmem, hcode, hrule⟩ := hissue
  obtain ⟨name, e, hname, herror, hconcerns⟩ :=
    broken_rule_is_refused (by decide +kernel) (by decide +kernel) hmem hcode
  rw [hrule] at hname
  obtain rfl := Option.some.inj hname
  exact ⟨e, herror, hconcerns⟩

/-- A lint run calls the rule broken that serves the log file, since nothing has created the file yet. The
gateway has created it by then, and starts. -/
theorem created_path_is_accepted :
    (∃ issue ∈ (lint (fun _ ↦ none) logDirectory "rules.yaml" (logAndServe "logs/served.log")).issues,
      issue.code = .broken ∧ issue.rule = some "files") ∧
    (compileAll (fun _ ↦ none) (.ofFiles logDirectory) (logAndServe "logs/served.log")).1.isOk = true := by
  decide +kernel

end RuleSpec

end RuleGate
