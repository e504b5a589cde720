import RuleGate.Proofs.Command.Block
import RuleGate.Proofs.Rule.Compilation
import RuleGate.Proofs.Sample

/-!
# Blocks without dead commands

Compilation looks at a block as a whole, and refuses it if a command ends the rule and others stand behind. Running
looks at one command after the other and stops at the first that ends the rule. So a block that was accepted stops
before its end only if a command fails: its commands run in order, each once, and the last one says how the rule ends.
-/

namespace RuleGate

variable {env : Environment} {mode : CompileMode} {disk : Disk}

/-! ## Lines that end the rule -/

namespace Command

/-- The names of the commands that end the rule: they make the response, or hand the request to the upstream. -/
def Name.endsRule : Name → Bool
  | serve => true
  | proxy => true
  | redirect => true
  | error => true
  | requireCredentials => true
  | pass => true
  | _ => false

/-- A line is a directive whose command ends the rule. -/
def lineEndsRule (env : Environment) (line : String) : Bool :=
  match Directive.parse env line with
  | .ok d => (Name.ofText? d.subject).any Name.endsRule
  | .error _ => false

theorem endsRule_field (c : FieldCommand) : CommandBlock.endsRule (field c) = false := by
  rw [CommandBlock.endsRule, kind]
  cases c.readsResponse <;> rfl

theorem endsRule_of_compileArguments {args : List String} {name : Name} {c : Command}
    (h : (compileArguments mode disk args name).1 = .ok c) : CommandBlock.endsRule c = name.endsRule := by
  cases name with
  | rewrite =>
    simp only [compileArguments, compileRewrite] at h
    split at h
    · split at h <;> cases h
      rfl
    · cases h
  | error =>
    simp only [compileArguments, compileError] at h
    split at h
    · split at h <;> cases h
      rfl
    · cases h
  | requireCredentials =>
    obtain ⟨realm, -, h⟩ := bind_eq_ok.mp h
    split at h <;> cases h
    rfl
  | pass =>
    simp only [compileArguments] at h
    split at h <;> cases h
    rfl
  | set | add | remove =>
    obtain ⟨f, -, rfl⟩ := map_eq_ok.mp h
    exact endsRule_field f
  | _ =>
    obtain ⟨_, -, rfl⟩ := map_eq_ok.mp h
    rfl

theorem endsRule_of_compileLine {line : String} {c : Command}
    (h : (compileLine env mode disk line).1 = .ok c) : CommandBlock.endsRule c = lineEndsRule env line := by
  obtain ⟨d, name, hparse, hname, hargs⟩ := compileLine_eq_ok_iff.mp h
  rw [lineEndsRule, hparse, endsRule_of_compileArguments hargs]
  dsimp only
  rw [hname, Option.any_some]

end Command

/-! ## Blocks that are refused -/

namespace CommandBlock

theorem endsRule_of_compileLines {lines : List (Nat × String)} {commands : List Command}
    (h : (compileLines env mode disk lines).1 = commands.map .ok) :
    commands.map endsRule = lines.map fun line ↦ Command.lineEndsRule env line.2 := by
  induction lines generalizing disk commands with
  | nil =>
    rw [compileLines, eq_comm, List.map_eq_nil_iff] at h
    rw [h, List.map_nil, List.map_nil]
  | cons line lines ih =>
    obtain ⟨i, line⟩ := line
    rw [compileLines_cons] at h
    obtain ⟨c, rest, rfl, hc, hrest⟩ := List.map_eq_cons_iff.mp h.symm
    rw [List.map_cons, List.map_cons, ih hrest.symm,
      Command.endsRule_of_compileLine (Condition.atLine_eq_ok_iff.mp hc.symm)]

/-- Whether a command is misplaced can be seen from the lines. -/
theorem isMisplaced_of_compileLines {lines : List (Nat × String)} {commands : List Command}
    (h : (compileLines env mode disk lines).1 = commands.map .ok) :
    isMisplaced commands = lines.dropLast.any fun line ↦ Command.lineEndsRule env line.2 := by
  calc
    _ = (commands.map endsRule).dropLast.any id := by rw [← List.map_dropLast, List.any_map]; rfl
    _ = _ := by rw [endsRule_of_compileLines h, ← List.map_dropLast, List.any_map]; rfl

/-- The error of a line names the line. -/
theorem subject_of_mem_compileLines {lines : List (Nat × String)} {e : RuleError}
    (h : .error e ∈ (compileLines env mode disk lines).1) : ∃ text cause, e = .subject text cause := by
  induction lines generalizing disk with
  | nil => cases h
  | cons line lines ih =>
    obtain ⟨i, line⟩ := line
    rw [compileLines_cons] at h
    rcases List.mem_cons.mp h with hfirst | hrest
    · cases hresult : (Command.compileLine env mode disk line).1 with
      | ok c =>
        rw [hresult] at hfirst
        cases hfirst
      | error cause =>
        rw [hresult] at hfirst
        cases hfirst
        exact ⟨_, _, rfl⟩
    · exact ih hrest

/-- No bad line is taken for a misplaced command. -/
theorem compile_eq_invalidSequence_iff {text : String} :
    (compile env mode disk text).1 = .error .invalidSequence ↔
      ∃ commands, (compileLines env mode disk (Directive.blockLines text)).1 = commands.map .ok ∧
        isMisplaced commands = true := by
  rw [compile_fst]
  constructor
  · intro h
    cases hall : allOrErrors (compileLines env mode disk (Directive.blockLines text)).1 with
    | ok commands =>
      rw [hall] at h
      refine ⟨commands, allOrErrors_eq_ok hall, ?_⟩
      cases hplaced : isMisplaced commands with
      | true => rfl
      | false =>
        have hok : ofCommands text commands = .ok ⟨text, commands⟩ := if_neg (Bool.eq_false_iff.mp hplaced)
        cases hok.symm.trans h
    | error e =>
      rw [hall] at h
      cases h
      rcases mem_of_allOrErrors_eq_error hall with hmem | ⟨causes, hcauses⟩
      · obtain ⟨_, _, he⟩ := subject_of_mem_compileLines hmem
        cases he
      · cases hcauses
  · rintro ⟨commands, hlines, hplaced⟩
    rw [allOrErrors_eq_ok_iff.mpr hlines]
    exact if_pos hplaced

end CommandBlock

/-! ## Blocks that run to their end -/

namespace Command

/-- Runs commands in order, whatever they do to what follows them, until one fails. -/
def runEach (s : Scene) : List Command → Scene.Result
  | [] => (.ok (), s)
  | c :: r =>
    match c.run s with
    | (.ok (), s) => runEach s r
    | (.error e, s) => (.error e, s)

/-- How the last command ends the rule. -/
def lastOutcome (commands : List Command) : Outcome :=
  match commands.getLast? with
  | none => .proceed
  | some c =>
    match c.kind with
    | .bypass => .bypassed
    | .terminating => .terminated
    | .nonTerminating => .proceed
    | .onResponse => .proceed

theorem eq_bypass_of_kind {c : Command} (h : c.kind = .bypass) : c = bypass := by
  cases c with
  | bypass => rfl
  | field c =>
    rw [kind] at h
    split at h <;> cases h
  | _ => cases h

theorem runAll_singleton (s : Scene) (c : Command) :
    runAll s [c] = ((runEach s [c]).1.map fun _ ↦ lastOutcome [c], (runEach s [c]).2) := by
  cases hkind : c.kind with
  | bypass =>
    rw [eq_bypass_of_kind hkind]
    rfl
  | terminating | nonTerminating | onResponse =>
    simp only [runAll, runEach, lastOutcome, List.getLast?_singleton, hkind]
    rcases c.run s with ⟨_ | _, s'⟩ <;> rfl

theorem lastOutcome_cons_cons (c d : Command) (r : List Command) :
    lastOutcome (c :: d :: r) = lastOutcome (d :: r) := by
  rw [lastOutcome, lastOutcome, List.getLast?_cons_cons]

/-- Where no command is misplaced, running stops at the last command or at one that fails. -/
theorem runAll_eq_runEach {commands : List Command} (h : CommandBlock.isMisplaced commands = false) (s : Scene) :
    runAll s commands =
      ((runEach s commands).1.map fun _ ↦ lastOutcome commands, (runEach s commands).2) := by
  induction commands generalizing s with
  | nil => rfl
  | cons c r ih =>
    cases r with
    | nil => exact runAll_singleton s c
    | cons d r =>
      -- A command with others behind it does not end the rule, so only the last one has a say in the outcome.
      obtain ⟨hends, hplaced⟩ := isMisplaced_cons_cons h
      rw [runAll_cons hends, runEach, lastOutcome_cons_cons]
      rcases c.run s with ⟨_ | _, s'⟩
      · rfl
      · exact ih hplaced s'

/-- Of commands of which none is misplaced and none fails, all run but a closing `pass`. -/
theorem executed_of_runEach {commands : List Command} (h : CommandBlock.isMisplaced commands = false) {s s' : Scene}
    (hall : runEach s commands = (.ok (), s')) :
    executed s commands = if lastOutcome commands = .bypassed then commands.dropLast else commands := by
  induction commands generalizing s with
  | nil => rfl
  | cons c r ih =>
    rw [runEach] at hall
    split at hall
    · next s₁ hrun =>
      cases r with
      | nil => cases hkind : c.kind <;> simp [executed, stages, lastOutcome, hkind, hrun]
      | cons d r =>
        obtain ⟨hends, hplaced⟩ := isMisplaced_cons_cons h
        rw [executed_cons hends, hrun, lastOutcome_cons_cons, List.dropLast_cons_cons]
        dsimp only
        rw [ih hplaced hall]
        split <;> rfl
    · cases hall

end Command

namespace CommandBlock

theorem isBypass_iff (b : CommandBlock) : b.isBypass = true ↔ Command.lastOutcome b.commands = .bypassed := by
  unfold isBypass Command.lastOutcome
  cases b.commands.getLast? with
  | none => simp
  | some c => cases hkind : c.kind <;> simp [hkind]

theorem isTerminating_iff (b : CommandBlock) :
    b.isTerminating = true ↔ Command.lastOutcome b.commands = .terminated := by
  unfold isTerminating Command.lastOutcome
  cases b.commands.getLast? with
  | none => simp
  | some c => cases hkind : c.kind <;> simp [hkind]

theorem readsResponse_iff (b : CommandBlock) :
    b.readsResponse = true ↔ ∃ c ∈ b.commands, c.kind = .onResponse := by
  simp [readsResponse]

/-- A block is refused for the order of its commands exactly if all its lines compile and one of them ends the rule
and is not the last, blank lines aside. The commands of an accepted block are those of its lines. Running the block is
running each of them in order, whatever they do to what follows, up to one that fails: if none does, all have run
once, where a closing `pass` has nothing to run, and how the rule ends is up to the last command alone. What the block
tells of itself agrees with that, and it waits for the response exactly if one of its commands does. -/
theorem accepted_block_has_no_dead_commands (env : Environment) (mode : CompileMode) (disk : Disk) (text : String) :
    ((compile env mode disk text).1 = .error .invalidSequence ↔
      (∃ commands : List Command,
        (compileLines env mode disk (Directive.blockLines text)).1 = commands.map .ok) ∧
      ∃ line ∈ (Directive.blockLines text).dropLast, Command.lineEndsRule env line.2 = true) ∧
    ∀ b, (compile env mode disk text).1 = .ok b →
      (compileLines env mode disk (Directive.blockLines text)).1 = b.commands.map .ok ∧
      (∀ s, b.run s = ((Command.runEach s b.commands).1.map fun _ ↦ Command.lastOutcome b.commands,
        (Command.runEach s b.commands).2)) ∧
      (∀ s s', Command.runEach s b.commands = (.ok (), s') →
        Command.executed s b.commands = if b.isBypass then b.commands.dropLast else b.commands) ∧
      (b.isBypass = true ↔ Command.lastOutcome b.commands = .bypassed) ∧
      (b.isTerminating = true ↔ Command.lastOutcome b.commands = .terminated) ∧
      (b.readsResponse = true ↔ ∃ c ∈ b.commands, c.kind = .onResponse) := by
  constructor
  · rw [compile_eq_invalidSequence_iff]
    constructor
    · rintro ⟨commands, hlines, hplaced⟩
      rw [isMisplaced_of_compileLines hlines] at hplaced
      exact ⟨⟨commands, hlines⟩, List.any_eq_true.mp hplaced⟩
    · rintro ⟨⟨commands, hlines⟩, hline⟩
      refine ⟨commands, hlines, ?_⟩
      rw [isMisplaced_of_compileLines hlines]
      exact List.any_eq_true.mpr hline
  · intro b hb
    obtain ⟨hlines, hplaced, -⟩ := compile_eq_ok_iff.mp hb
    refine ⟨hlines, Command.runAll_eq_runEach hplaced, fun s s' hall ↦ ?_, b.isBypass_iff, b.isTerminating_iff,
      b.readsResponse_iff⟩
    rw [Command.executed_of_runEach hplaced hall]
    simp only [b.isBypass_iff]

/-- A block with a blank line, whose last command answers. -/
def answering : CommandBlock :=
  ⟨"rewrite /a /b\n\n  error 403 no", [.rewrite "/a" "/b", .error ⟨403⟩ "no"]⟩

theorem answering_runs_to_its_end :
    let s : Scene := ⟨.start (.plain "/a/c"), .quiet⟩
    let s' := (Command.runEach s answering.commands).2
    (compile (fun _ ↦ none) .serve World.quiet.disk answering.text).1 = .ok answering ∧
      Command.runEach s answering.commands = (.ok (), s') ∧ answering.run s = (.ok .terminated, s') ∧
      Command.executed s answering.commands = answering.commands ∧ answering.isTerminating = true := by
  intro s s'
  have haccepted : (compile (fun _ ↦ none) .serve World.quiet.disk answering.text).1 = .ok answering :=
    compile_eq_ok_iff.mpr ⟨rfl, rfl, rfl⟩
  have hall : Command.runEach s answering.commands = (.ok (), s') := rfl
  obtain ⟨-, hruns⟩ := accepted_block_has_no_dead_commands (fun _ ↦ none) .serve World.quiet.disk answering.text
  obtain ⟨-, hrun, hexecuted, -, hterminating, -⟩ := hruns answering haccepted
  refine ⟨haccepted, hall, ?_, hexecuted s s' hall, hterminating.mpr rfl⟩
  rw [hrun, hall]
  rfl

end CommandBlock

end RuleGate
