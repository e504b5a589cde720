import RuleGate.Proofs.Rule.Faults
import RuleGate.Proofs.Text.Lines

/-!
# The lines that errors name

A block numbers its lines before it drops the blank ones, so the number in an error is that of the line that is bad.
A condition drops the empty clauses before it numbers the others, and two clauses on a line have two numbers. So the
number in an error is the place of the clause among the clauses. It is that of the line if just as many clauses as lines
stand in front of the clause, and otherwise it names another line or none.
-/

namespace RuleGate

variable {env : Environment} {mode : CompileMode} {disk : Disk}

/-- Errors tell their lines apart. -/
theorem RuleError.line_eq_of_inLine_eq {i j : Nat} {e e' : RuleError} (h : inLine i e = inLine j e') : i = j := by
  have htext := congrArg String.toList (RuleError.subject.inj h).1
  have hdigits : Nat.toDigits 10 (i + 1) = Nat.toDigits 10 (j + 1) := by
    simpa [Nat.toString_eq_ofList_toDigits] using htext
  have hvalue := calc
    i + 1 = Nat.ofDigitChars 10 (Nat.toDigits 10 (i + 1)) 0 := Nat.ofDigitChars_ten_toDigits.symm
    _ = Nat.ofDigitChars 10 (Nat.toDigits 10 (j + 1)) 0 := by rw [hdigits]
    _ = j + 1 := Nat.ofDigitChars_ten_toDigits
  exact Nat.succ.inj hvalue

/-! ## Blocks -/

namespace CommandBlock

/-- The errors of the bad lines of a block, each under the number of its line. -/
def placedFaults (env : Environment) (mode : CompileMode) (disk : Disk) (text : String) : List RuleError :=
  (Disk.along (fun disk line ↦ (Command.compileLine env mode disk line.2).2) disk
    (Text.numberedLines (Text.splitOn '\n' text.toList))).flatMap fun (line, disk) ↦
      (errorsOf (Command.compileLine env mode disk line.2).1).map (RuleError.inLine line.1)

theorem blockLines_eq (text : String) :
    Directive.blockLines text = Text.numberedLines (Text.splitOn '\n' text.toList) := by
  rw [← Text.numberedLines_lines, Directive.blockLines, List.filterMap_map]
  rfl

theorem lineFaults_eq (env : Environment) (mode : CompileMode) (disk : Disk) (text : String) :
    lineFaults env mode disk text = placedFaults env mode disk text := by
  rw [lineFaults, linesOn, blockLines_eq]
  rfl

theorem gathers_placedFaults {text : String} {e : RuleError} (h : (compile env mode disk text).1 = .error e) :
    e = .invalidSequence ∨ e.Gathers (placedFaults env mode disk text) := by
  rw [compile_fst] at h
  cases hall : allOrErrors (compileLines env mode disk (Directive.blockLines text)).1 with
  | ok commands =>
    rw [hall] at h
    change ofCommands text commands = .error e at h
    unfold ofCommands at h
    split at h
    · cases h
      exact .inl rfl
    · cases h
  | error e' =>
    have hlines := (reports_lines env mode disk text).gathers hall
    rw [hall] at h
    cases h
    rw [lineFaults_eq] at hlines
    exact .inr hlines

end CommandBlock

/-! ## Conditions -/

namespace Condition

/-- The clauses of a text in order, each with the number of its line. -/
def placedClauses (text : String) : List (Nat × List Char) :=
  (Text.splitOn '\n' text.toList).zipIdx.flatMap fun (line, i) ↦ (splitClauses line).map fun clause ↦ (i, clause)

/-- The errors of the bad checks of a condition, each under the number of its line. -/
def placedFaults (env : Environment) (text : String) : List RuleError :=
  (placedClauses text).flatMap fun (i, clause) ↦
    ((checks clause).flatMap fun s ↦ errorsOf (parseCheck env s)).map (RuleError.inLine i)

theorem splitClauses_eq_flatMap (s : List Char) :
    splitClauses s = (Text.splitOn '\n' s).flatMap fun line ↦
      ((Text.splitOn '&' line).map (Text.dropBothWhile Text.isAsciiBlank)).filter fun w ↦ !w.isEmpty := by
  have hsplit : Text.splitWhere (fun c ↦ c == '&' || c == '\n') s =
      (Text.splitOn '\n' s).flatMap (Text.splitOn '&') := Text.splitWhere_or (fun _ ↦ rfl) s
  rw [splitClauses, hsplit, List.map_flatMap, List.filter_flatMap]

/-- Splitting a text is splitting its lines. -/
theorem splitClauses_eq_flatMap_lines (s : List Char) :
    splitClauses s = (Text.splitOn '\n' s).flatMap splitClauses := by
  rw [splitClauses_eq_flatMap]
  refine List.flatMap_congr fun line hline ↦ ?_
  have hbare : '\n' ∉ line := (Text.mem_splitOn_iff.mp hline).bare
  rw [splitClauses_eq_flatMap line, Text.splitOn_eq_singleton hbare, List.flatMap_singleton]

theorem map_snd_placedClauses (text : String) :
    (placedClauses text).map Prod.snd = splitClauses text.toList := by
  rw [splitClauses_eq_flatMap_lines, placedClauses, List.map_flatMap]
  calc (Text.splitOn '\n' text.toList).zipIdx.flatMap
        (fun (line, i) ↦ ((splitClauses line).map fun clause ↦ (i, clause)).map Prod.snd)
      = (Text.splitOn '\n' text.toList).zipIdx.flatMap (fun p ↦ splitClauses p.1) := by
        simp only [List.map_map, Function.comp_def, List.map_id']
    _ = (Text.splitOn '\n' text.toList).flatMap splitClauses := by
        rw [← List.flatMap_map, List.zipIdx_map_fst]

theorem flatMap_eq_iff {α β : Type} {f g : α → List β} {items : List α}
    (h : ∀ a ∈ items, (f a).length = (g a).length) :
    items.flatMap f = items.flatMap g ↔ ∀ a ∈ items, f a = g a := by
  induction items with
  | nil => simp
  | cons a items ih =>
    rw [List.forall_mem_cons] at h ⊢
    rw [List.flatMap_cons, List.flatMap_cons, ← ih h.2]
    constructor
    · exact fun heq ↦ List.append_inj heq h.1
    · rintro ⟨hfirst, hrest⟩
      rw [hfirst, hrest]

/-- The errors of a clause are not empty exactly if it is bad. -/
theorem exists_error_iff (env : Environment) (clause : List Char) :
    (∃ e, parseClause env clause = .error e) ↔
      ((checks clause).flatMap fun s ↦ errorsOf (parseCheck env s)) ≠ [] := by
  rw [Ne, (reports_parseClause env clause).eq_nil_iff]
  cases parseClause env clause <;> simp

theorem map_inLine_eq_iff {es : List RuleError} {i j : Nat} :
    es.map (RuleError.inLine j) = es.map (RuleError.inLine i) ↔ (es ≠ [] → i = j) := by
  rw [List.map_inj_left]
  constructor
  · intro h hsome
    obtain ⟨e, he⟩ := List.exists_mem_of_ne_nil es hsome
    exact (RuleError.line_eq_of_inLine_eq (h e he)).symm
  · intro h e he
    rw [h (List.ne_nil_of_mem he)]

/-- The number in the error of a bad clause is its place among the clauses, and that is the number of its line or
not. -/
theorem faults_eq_placedFaults_iff (env : Environment) (text : String) :
    faults env text = placedFaults env text ↔
      ∀ i clause j, ((i, clause), j) ∈ (placedClauses text).zipIdx →
        (∃ e, parseClause env clause = .error e) → i = j := by
  have hfaults : faults env text = (placedClauses text).zipIdx.flatMap fun ((_, clause), j) ↦
      ((checks clause).flatMap fun s ↦ errorsOf (parseCheck env s)).map (RuleError.inLine j) := by
    rw [faults, ← map_snd_placedClauses, List.zipIdx_map, List.flatMap_map]
    rfl
  have hplaced : placedFaults env text = (placedClauses text).zipIdx.flatMap fun ((i, clause), _) ↦
      ((checks clause).flatMap fun s ↦ errorsOf (parseCheck env s)).map (RuleError.inLine i) := by
    rw [placedFaults]
    conv_lhs => rw [← List.zipIdx_map_fst 0 (placedClauses text), List.flatMap_map]
  -- Both lists have the errors of the same clauses, so they are compared clause by clause.
  rw [hfaults, hplaced, flatMap_eq_iff fun _ _ ↦ by simp only [List.length_map]]
  constructor
  · intro h i clause j hmem hbad
    exact map_inLine_eq_iff.mp (h _ hmem) ((exists_error_iff env clause).mp hbad)
  · rintro h ⟨⟨i, clause⟩, j⟩ hmem
    exact map_inLine_eq_iff.mpr fun hsome ↦ h i clause j hmem ((exists_error_iff env clause).mpr hsome)

end Condition

/-- In every error of a block, each bad line stands under its own number, counted with the blank ones; only the error
of the order of the commands names no line. In every error of a condition, each bad clause stands under its place among
the clauses of all lines. These are the numbers of the lines exactly if every bad clause has as many clauses in front
of it as there are lines in front of its own. -/
theorem line_numbers_are_real_iff (env : Environment) (mode : CompileMode) (disk : Disk) (text : String) :
    (∀ e, (CommandBlock.compile env mode disk text).1 = .error e →
      e = .invalidSequence ∨ e.Gathers (CommandBlock.placedFaults env mode disk text)) ∧
    (∀ e, Condition.parse env text = .error e → e.Gathers (Condition.faults env text)) ∧
    (Condition.placedClauses text).map Prod.snd = Condition.splitClauses text.toList ∧
    (Condition.faults env text = Condition.placedFaults env text ↔
      ∀ i clause j, ((i, clause), j) ∈ (Condition.placedClauses text).zipIdx →
        (∃ e, Condition.parseClause env clause = .error e) → i = j) :=
  ⟨fun _ ↦ CommandBlock.gathers_placedFaults, fun _ ↦ (Condition.reports_parse env text).gathers,
    Condition.map_snd_placedClauses text, Condition.faults_eq_placedFaults_iff env text⟩

/-- Two blank lines are not counted, and a clause in front on the same line is. -/
theorem clauses_are_numbered_for_lines :
    (Condition.placedClauses "\n\nnope" = [(2, "nope".toList)] ∧
      Condition.parse (fun _ ↦ none) "\n\nnope" = .error (.subject "line 1" (.subject "nope" .unknownCheck))) ∧
    Condition.placedClauses "method GET & nope" = [(0, "method GET".toList), (0, "nope".toList)] ∧
      Condition.parse (fun _ ↦ none) "method GET & nope" =
        .error (.subject "line 2" (.subject "nope" .unknownCheck)) :=
  ⟨⟨by decide, rfl⟩, by decide, rfl⟩

end RuleGate
