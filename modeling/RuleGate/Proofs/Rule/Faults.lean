import RuleGate.Proofs.Command.Pipeline
import RuleGate.Proofs.Condition.Algebra
import RuleGate.Proofs.Error
import RuleGate.Proofs.Rule.Compilation
import RuleGate.Proofs.Sample

/-!
# What is wrong with rules

Rules are compiled as a whole: what is wrong is collected from the checks of a clause, the clauses of a condition, the
lines of a block, the two parts of a rule, and the rules of a list. Each bad check and each bad line is a fault, and so
is a block of good lines whose order is wrong. A list of rules compiles exactly if it has no fault, and otherwise its
error gathers all faults in the order of the source, each under the name of its rule. Compiling may open files, so the
disk on which something is compiled is the one that what stands in front has left.
-/

namespace RuleGate

variable {env : Environment} {mode : CompileMode} {disk : Disk}

/-- Items of a list, each with the disk it finds if each makes something of the disk. -/
def Disk.along {α : Type} (next : Disk → α → Disk) (disk : Disk) : List α → List (α × Disk)
  | [] => []
  | a :: r => (a, disk) :: along next (next disk a) r

theorem Disk.along_map_fst {α : Type} (next : Disk → α → Disk) (disk : Disk) (items : List α) :
    (along next disk items).map Prod.fst = items := by
  induction items generalizing disk with
  | nil => rfl
  | cons a r ih => rw [along, List.map_cons, ih]

theorem Disk.along_of_unchanged {α : Type} {next : Disk → α → Disk} {disk : Disk} {items : List α}
    (h : ∀ a ∈ items, next disk a = disk) : along next disk items = items.map fun a ↦ (a, disk) := by
  induction items with
  | nil => rfl
  | cons a r ih =>
    rw [List.forall_mem_cons] at h
    rw [along, h.1, ih h.2, List.map_cons]

/-- The context of an error in a line, which is counted from 1. -/
def RuleError.inLine (i : Nat) (e : RuleError) : RuleError := .subject ("line " ++ toString (i + 1)) e

section Context

variable {α : Type} {result : Compiled α} {es : List RuleError}

/-- The part of a rule that errors come from is said of each of them. -/
theorem Reports.atPart (h : Reports result es) (part : String) :
    Reports (Rule.atPart part result) (es.map (.subject part)) := by
  cases h with
  | ok a => exact .ok a
  | error hgathers hsome => exact .error (.subject part hgathers) (by simpa using hsome)

theorem Reports.atLine (h : Reports result es) (i : Nat) :
    Reports (Condition.atLine i result) (es.map (RuleError.inLine i)) := by
  have hpart : Condition.atLine i result = Rule.atPart ("line " ++ toString (i + 1)) result := by
    cases result <;> rfl
  rw [hpart]
  exact h.atPart _

end Context

/-! ## Conditions -/

namespace Condition

/-- The texts that a clause has read as checks: its alternatives, or the clause itself if it has none. -/
def checks (clause : List Char) : List (List Char) :=
  if clause.contains '|' then alternatives clause else [clause]

/-- The faults of a condition: for each clause, the errors of its checks. -/
def faults (env : Environment) (text : String) : List RuleError :=
  (splitClauses text.toList).zipIdx.flatMap fun (clause, i) ↦
    ((checks clause).flatMap fun s ↦ errorsOf (parseCheck env s)).map (RuleError.inLine i)

theorem reports_parseClause (env : Environment) (clause : List Char) :
    Reports (parseClause env clause) ((checks clause).flatMap fun s ↦ errorsOf (parseCheck env s)) := by
  unfold parseClause checks
  split
  · have hall := Reports.allOrErrors_map (alternatives clause) fun s _ ↦ Reports.own (parseCheck env s)
    rw [alternatives, List.map_map] at hall
    exact hall.bind_ok _
  · rw [List.flatMap_singleton]
    exact Reports.own _

theorem reports_parse (env : Environment) (text : String) : Reports (parse env text) (faults env text) :=
  (Reports.allOrErrors_map (splitClauses text.toList).zipIdx fun (clause, i) _ ↦
    (reports_parseClause env clause).atLine i).bind_ok _

end Condition

/-! ## Blocks -/

namespace CommandBlock

/-- The numbered lines of a block, each with the disk it is compiled on. -/
def linesOn (env : Environment) (mode : CompileMode) (disk : Disk) (text : String) :
    List ((Nat × String) × Disk) :=
  Disk.along (fun disk line ↦ (Command.compileLine env mode disk line.2).2) disk (Directive.blockLines text)

/-- The errors of the bad lines. -/
def lineFaults (env : Environment) (mode : CompileMode) (disk : Disk) (text : String) : List RuleError :=
  (linesOn env mode disk text).flatMap fun (line, disk) ↦
    (errorsOf (Command.compileLine env mode disk line.2).1).map (RuleError.inLine line.1)

/-- The faults of a block: the errors of its lines, or that of their order if all lines are good. -/
def faults (env : Environment) (mode : CompileMode) (disk : Disk) (text : String) : List RuleError :=
  match lineFaults env mode disk text with
  | [] =>
    if (Directive.blockLines text).dropLast.any fun line ↦ Command.lineEndsRule env line.2 then
      [.invalidSequence]
    else []
  | e :: es => e :: es

theorem compileLines_fst (lines : List (Nat × String)) :
    (compileLines env mode disk lines).1 =
      (Disk.along (fun disk line ↦ (Command.compileLine env mode disk line.2).2) disk lines).map
        fun (line, disk) ↦ Condition.atLine line.1 (Command.compileLine env mode disk line.2).1 := by
  induction lines generalizing disk with
  | nil => rfl
  | cons line lines ih =>
    obtain ⟨i, line⟩ := line
    rw [compileLines_cons, Disk.along, List.map_cons, ih]

theorem reports_lines (env : Environment) (mode : CompileMode) (disk : Disk) (text : String) :
    Reports (allOrErrors (compileLines env mode disk (Directive.blockLines text)).1)
      (lineFaults env mode disk text) := by
  rw [compileLines_fst]
  exact Reports.allOrErrors_map _ fun (line, disk) _ ↦ (Reports.own _).atLine line.1

theorem reports_compile (env : Environment) (mode : CompileMode) (disk : Disk) (text : String) :
    Reports (compile env mode disk text).1 (faults env mode disk text) := by
  have hlines := reports_lines env mode disk text
  rw [compile_fst, faults]
  cases hall : allOrErrors (compileLines env mode disk (Directive.blockLines text)).1 with
  | ok commands =>
    -- All lines are good, and the order of the commands can be read off them.
    rw [hlines.eq_nil_iff.mpr ⟨commands, hall⟩, ← isMisplaced_of_compileLines (allOrErrors_eq_ok hall)]
    change Reports (ofCommands text commands) _
    unfold ofCommands
    dsimp only
    split
    · exact .error (.entry _) (List.cons_ne_nil _ _)
    · exact .ok _
  | error e =>
    have hgathers := hlines.gathers hall
    cases hfaults : lineFaults env mode disk text with
    | nil =>
      obtain ⟨commands, hok⟩ := hlines.eq_nil_iff.mp hfaults
      rw [hall] at hok
      cases hok
    | cons f fs =>
      rw [hfaults] at hgathers
      exact .error hgathers (List.cons_ne_nil _ _)

end CommandBlock

/-! ## Rules -/

namespace Rule

/-- The faults of a rule, each under the name of the rule: those of its condition, and then those of its block. -/
def faults (env : Environment) (mode : CompileMode) (disk : Disk) (spec : RuleSpec) : List RuleError :=
  ((Condition.faults env spec.condition).map (RuleError.subject "on") ++
    (CommandBlock.faults env mode disk spec.commands).map (RuleError.subject "do")).map (RuleError.inRule spec.name)

theorem reports_assemble {name : String} {condition : Compiled Condition} {block : Compiled CommandBlock}
    {es es' : List RuleError} (hcondition : Reports condition es) (hblock : Reports block es') :
    Reports (assemble name condition block) ((es ++ es').map (.inRule name)) := by
  cases hcondition with
  | ok c =>
    cases hblock with
    | ok b => exact .ok _
    | error hgathers hsome => exact .error (.inRule name hgathers) (by simpa using hsome)
  | error hgathers hsome =>
    cases hblock with
    | ok b =>
      rw [List.append_nil]
      exact .error (.inRule name hgathers) (by simpa using hsome)
    | error hgathers' hsome' =>
      -- Only here a list is made, so the name is put around what either part gathers in all three cases.
      have hboth := RuleError.GathersAll.cons hgathers (.cons hgathers' .nil)
      rw [List.append_nil] at hboth
      exact .error (.inRule name (.multiple hboth)) (by simp [hsome])

theorem reports_compile (env : Environment) (mode : CompileMode) (disk : Disk) (spec : RuleSpec) :
    Reports (compile env mode disk spec).1 (faults env mode disk spec) := by
  rw [compile_fst]
  exact reports_assemble ((Condition.reports_parse env spec.condition).atPart "on")
    ((CommandBlock.reports_compile env mode disk spec.commands).atPart "do")

/-- What a rule was compiled from. -/
def spec (r : Rule) : RuleSpec := ⟨r.name, r.condition.text, r.block.text⟩

theorem spec_of_compile {r : Rule} {spec : RuleSpec} (h : (compile env mode disk spec).1 = .ok r) :
    r.spec = spec := by
  obtain ⟨hname, hcondition, hblock⟩ := compile_eq_ok_iff.mp h
  obtain ⟨parts, -, hc⟩ := Condition.parse_eq_ok_iff.mp hcondition
  rw [Rule.spec, hname, hc, (CommandBlock.compile_eq_ok_iff.mp hblock).2.2]

end Rule

/-! ## Lists of rules -/

namespace RuleSpec

/-- The rules of a list under their names, each with the disk it is compiled on. -/
def rulesOn (env : Environment) (disk : Disk) (specs : List RuleSpec) : List (RuleSpec × Disk) :=
  Disk.along (fun disk spec ↦ (Rule.compile env .serve disk spec).2) disk
    (specs.zipIdx.map fun (spec, i) ↦ spec.named i)

/-- The faults of a list of rules. -/
def faults (env : Environment) (disk : Disk) (specs : List RuleSpec) : List RuleError :=
  (rulesOn env disk specs).flatMap fun (spec, disk) ↦ Rule.faults env .serve disk spec

theorem compileEach_fst (numbered : List (RuleSpec × Nat)) :
    (compileEach env mode disk numbered).1 =
      (Disk.along (fun disk spec ↦ (Rule.compile env mode disk spec).2) disk
        (numbered.map fun (spec, i) ↦ spec.named i)).map
          fun (spec, disk) ↦ (Rule.compile env mode disk spec).1 := by
  induction numbered generalizing disk with
  | nil => rfl
  | cons s numbered ih =>
    obtain ⟨spec, i⟩ := s
    rw [List.map_cons, Disk.along, List.map_cons, ← ih]
    rfl

theorem compileAll_fst (env : Environment) (disk : Disk) (specs : List RuleSpec) :
    (compileAll env disk specs).1 =
      allOrErrors ((rulesOn env disk specs).map fun (spec, disk) ↦ (Rule.compile env .serve disk spec).1) :=
  congrArg allOrErrors (compileEach_fst specs.zipIdx)

theorem reports_compileAll (env : Environment) (disk : Disk) (specs : List RuleSpec) :
    Reports (compileAll env disk specs).1 (faults env disk specs) := by
  rw [compileAll_fst]
  exact Reports.allOrErrors_map _ fun (spec, disk) _ ↦ Rule.reports_compile env .serve disk spec

theorem exists_compileAll_eq_error_iff {specs : List RuleSpec} :
    (∃ e, (compileAll env disk specs).1 = .error e) ↔
      ∃ p ∈ rulesOn env disk specs, ∃ e, (Rule.compile env .serve p.2 p.1).1 = .error e := by
  rw [compileAll_fst, exists_allOrErrors_eq_error_iff]
  simp only [List.mem_map]
  constructor
  · rintro ⟨e, p, hp, he⟩
    exact ⟨p, hp, e, he⟩
  · rintro ⟨p, hp, e, he⟩
    exact ⟨e, p, hp, he⟩

theorem rulesOn_of_unchanged {specs : List RuleSpec}
    (h : ∀ spec i, (spec, i) ∈ specs.zipIdx → (Rule.compile env .serve disk (spec.named i)).2 = disk) :
    rulesOn env disk specs = specs.zipIdx.map fun (spec, i) ↦ (spec.named i, disk) := by
  have hnamed : ∀ spec ∈ specs.zipIdx.map fun (spec, i) ↦ spec.named i,
      (Rule.compile env .serve disk spec).2 = disk := by
    intro named hmem
    obtain ⟨⟨spec, i⟩, hspec, rfl⟩ := List.mem_map.mp hmem
    exact h spec i hspec
  rw [rulesOn, Disk.along_of_unchanged hnamed, List.map_map]
  rfl

/-- Compiled rules are what they were compiled from, in order. -/
theorem map_spec_of_compiled {items : List (RuleSpec × Disk)} {rules : List Rule}
    (h : (items.map fun (spec, disk) ↦ (Rule.compile env mode disk spec).1) = rules.map .ok) :
    rules.map Rule.spec = items.map Prod.fst := by
  induction items generalizing rules with
  | nil =>
    rw [List.map_nil, eq_comm, List.map_eq_nil_iff] at h
    rw [h, List.map_nil, List.map_nil]
  | cons p items ih =>
    obtain ⟨rule, rest, rfl, hrule, hrest⟩ := List.map_eq_cons_iff.mp h.symm
    rw [List.map_cons, List.map_cons, Rule.spec_of_compile hrule.symm, ih hrest.symm]

/-- A rule without a name is called by its number. -/
theorem named_eq (spec : RuleSpec) (i : Nat) :
    spec.named i =
      { spec with name := if spec.name = "" then "rule[" ++ toString i ++ "]" else spec.name } := by
  simp only [named, nameAt, String.isEmpty_iff]

/-- Compiling a list of rules fails exactly if some rule fails when it is compiled on its own, on the disk that the
rules in front of it have left, which is the disk itself if no rule changes it. The error gathers the faults of the
list: for each rule in order, and under its name, the error of each bad check of its condition, and then that of each
bad line of its block, or that of the order of its lines if all are good. Whatever lists stand in the single errors,
opening everything gives what stands in the faults, in order. If there is no failure there is no fault, and the rules
are the compiled ones in order, where a rule without a name is called by its number. -/
theorem compileAll_masks_no_error (env : Environment) (disk : Disk) (specs : List RuleSpec) :
    ((∃ e, (compileAll env disk specs).1 = .error e) ↔
      ∃ p ∈ rulesOn env disk specs, ∃ e, (Rule.compile env .serve p.2 p.1).1 = .error e) ∧
    ((∀ spec i, (spec, i) ∈ specs.zipIdx → (Rule.compile env .serve disk (spec.named i)).2 = disk) →
      rulesOn env disk specs = specs.zipIdx.map fun (spec, i) ↦ (spec.named i, disk)) ∧
    (∀ e, (compileAll env disk specs).1 = .error e →
      e.Gathers (faults env disk specs) ∧ e.leaves = (faults env disk specs).flatMap RuleError.leaves) ∧
    ∀ rules, (compileAll env disk specs).1 = .ok rules →
      faults env disk specs = [] ∧
      ((rulesOn env disk specs).map fun (spec, disk) ↦ (Rule.compile env .serve disk spec).1) = rules.map .ok ∧
      rules.map Rule.spec = specs.zipIdx.map fun (spec, i) ↦
        { spec with name := if spec.name = "" then "rule[" ++ toString i ++ "]" else spec.name } := by
  have hreports := reports_compileAll env disk specs
  refine ⟨exists_compileAll_eq_error_iff, rulesOn_of_unchanged, fun e he ↦ ?_, fun rules hrules ↦ ?_⟩
  · have hgathers := hreports.gathers he
    exact ⟨hgathers, hgathers.leaves_eq⟩
  · have hcompiled := hrules
    rw [compileAll_fst] at hcompiled
    have hresults := allOrErrors_eq_ok hcompiled
    refine ⟨hreports.eq_nil_iff.mpr ⟨rules, hrules⟩, hresults, ?_⟩
    simp only [map_spec_of_compiled hresults, rulesOn, Disk.along_map_fst, named_eq]

/-- A rule without a name in whose condition both alternatives are bad, a rule with a bad line in front of commands in
the wrong order, and a rule with such commands only. -/
def broken : List RuleSpec := [
  ⟨"", "nope | also", "rewrite /a /b"⟩,
  ⟨"first", "proto https", "frob\n\nerror 403 no\npass"⟩,
  ⟨"second", "", "error 403 no\npass"⟩]

/-- A rule without a name, and one that hands requests on. -/
def sound : List RuleSpec := [⟨"", "proto https", "rewrite /a /b"⟩, ⟨"last", "", "pass"⟩]

theorem faults_of_broken_and_sound :
    (∃ e, (compileAll (fun _ ↦ none) World.quiet.disk broken).1 = .error e ∧
      e.Gathers [
        .inRule "rule[0]" (.subject "on" (.subject "line 1" (.subject "nope" .unknownCheck))),
        .inRule "rule[0]" (.subject "on" (.subject "line 1" (.subject "also" .unknownCheck))),
        .inRule "first" (.subject "do" (.subject "line 1" (.subject "frob" .unknownDirective))),
        .inRule "second" (.subject "do" .invalidSequence)]) ∧
    rulesOn (fun _ ↦ none) World.quiet.disk sound =
      [(⟨"rule[0]", "proto https", "rewrite /a /b"⟩, World.quiet.disk), (⟨"last", "", "pass"⟩, World.quiet.disk)] ∧
    ∃ rules, (compileAll (fun _ ↦ none) World.quiet.disk sound).1 = .ok rules ∧
      rules.map Rule.spec = [⟨"rule[0]", "proto https", "rewrite /a /b"⟩, ⟨"last", "", "pass"⟩] := by
  obtain ⟨-, -, hbroken, -⟩ := compileAll_masks_no_error (fun _ ↦ none) World.quiet.disk broken
  obtain ⟨-, hunchanged, -, hsound⟩ := compileAll_masks_no_error (fun _ ↦ none) World.quiet.disk sound
  refine ⟨⟨_, rfl, (hbroken _ rfl).1⟩, hunchanged fun spec i h ↦ ?_, ⟨_, rfl, (hsound _ rfl).2.2⟩⟩
  simp only [sound, List.zipIdx_cons, List.zipIdx_nil, List.mem_cons, List.not_mem_nil, or_false,
    Prod.mk.injEq] at h
  rcases h with ⟨rfl, rfl⟩ | ⟨rfl, rfl⟩ <;> rfl

end RuleSpec

end RuleGate
