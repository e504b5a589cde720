import RuleGate.Proofs.Files.Sink
import RuleGate.Proofs.Rule.Compilation

/-!
# Compiling for serving and for checking

Compiling rules for serving opens their sinks, and compiling them for checking leaves the disk as it is. A rule
that can be compiled for serving, once sinks have been opened, passes the check on the disk before. Only two
things may come in between: that a path it serves has come into being with a sink, and that the path of a sink
is too long.
-/

namespace RuleGate

variable {env : Environment} {files final : FileSystem} {disk : Disk}

/-! ## The paths that directives look at -/

namespace Directive

/-- The path that a `serve` directive looks for. -/
def servedPath? (d : Directive) : Option String :=
  match Command.Name.ofText? d.subject, d.args with
  | some .serve, [root] => some (FilePath.tidy root)
  | _, _ => none

/-- The path of the sink of a `log` directive. -/
def loggedPath? (d : Directive) : Option String :=
  match Command.Name.ofText? d.subject, d.args with
  | some .log, [_, path, _] => some path
  | _, _ => none

/-- The path that is served, if there is one, is found on the first disk if it is found on the second, and the
path of the sink is not too long. -/
structure FindsNothingNew (files final : FileSystem) (d : Directive) : Prop where
  served : ∀ path, d.servedPath? = some path → (final.stat path).isOk = true → (files.stat path).isOk = true
  logged : ∀ path, d.loggedPath? = some path → (Text.utf8Encode path.toList).length ≤ FileSystem.maxPath

end Directive

/-! ## What the two commands that look at the disk need -/

theorem Arguments.existingPath_eq_ok_iff {args : List String} {path : String} :
    existingPath files args = .ok path ↔
      ∃ root, args = [root] ∧ path = FilePath.tidy root ∧ (files.stat path).isOk = true := by
  unfold existingPath
  rw [bind_eq_ok]
  constructor
  · rintro ⟨root, hroot, hfound⟩
    have hargs : args = [root] := by
      unfold one at hroot
      split at hroot <;> cases hroot
      rfl
    dsimp only at hfound
    split at hfound
    · next hstat =>
      cases hfound
      exact ⟨root, hargs, rfl, by rw [hstat]; rfl⟩
    · cases hfound
  · rintro ⟨root, rfl, rfl, hstat⟩
    refine ⟨root, rfl, ?_⟩
    dsimp only
    split
    · rfl
    · next hnone =>
      rw [hnone] at hstat
      cases hstat

namespace LogCommand

variable {mode : CompileMode} {args : List String}

theorem compile_eq_ok_iff {c : LogCommand} :
    (compile mode disk args).1 = .ok c ↔
      ∃ level path template, args = [level, path, template] ∧ Template.parse template = .ok c.template ∧
        Arguments.level level = .ok c.level ∧ (sinkFor mode disk path).1 = .ok c.sink := by
  constructor
  · intro h
    unfold compile at h
    split at h
    · next level path template =>
      split at h
      · cases h
      · cases h
      · next htemplate hlevel =>
        split at h
        · cases h
        · next hsink =>
          cases h
          exact ⟨level, path, template, rfl, htemplate, hlevel, congrArg Prod.fst hsink⟩
    · cases h
  · rintro ⟨level, path, template, rfl, htemplate, hlevel, hsink⟩
    unfold compile
    dsimp only
    rw [htemplate, hlevel]
    dsimp only
    split
    · next hfailed =>
      rw [hfailed] at hsink
      cases hsink
    · next hopened =>
      rw [hopened] at hsink
      rw [Except.ok.inj hsink]

/-- Only the sink may change the disk. -/
theorem compile_disk (mode : CompileMode) (disk : Disk) (args : List String) :
    (compile mode disk args).2 = disk ∨ ∃ path, (compile mode disk args).2 = (sinkFor mode disk path).2 := by
  unfold compile
  split
  · next level path template =>
    split
    · exact .inl rfl
    · exact .inl rfl
    · refine .inr ⟨path, ?_⟩
      split <;> simp_all
  · exact .inl rfl

end LogCommand

/-! ## Compiling for serving opens sinks, and for checking nothing -/

namespace Command

/-- Compiling for serving changes the disk by opening sinks only. -/
theorem opens_of_compileArguments (disk : Disk) (args : List String) (name : Name) :
    disk.Opens (compileArguments .serve disk args name).2 := by
  cases hname : name.readsDisk with
  | false =>
    rw [compileArguments_of_not_readsDisk hname .serve .serve disk disk]
    exact .refl _
  | true =>
    obtain rfl | rfl := Name.eq_of_readsDisk hname
    · exact .refl _
    · obtain hsame | ⟨path, hsink⟩ := LogCommand.compile_disk .serve disk args
      · rw [compileArguments, hsame]
        exact .refl _
      · rw [compileArguments, hsink]
        exact Disk.opens_of_acquire disk path

/-- Compiling for checking leaves the disk as it is. -/
theorem disk_of_compileArguments (disk : Disk) (args : List String) (name : Name) :
    (compileArguments .check disk args name).2 = disk := by
  cases hname : name.readsDisk with
  | false => rw [compileArguments_of_not_readsDisk hname .check .check disk disk]
  | true =>
    obtain rfl | rfl := Name.eq_of_readsDisk hname
    · rfl
    · obtain hsame | ⟨path, hsink⟩ := LogCommand.compile_disk .check disk args
      · exact hsame
      · exact hsink

theorem compileServe_check {d : Directive} {c : Command} (hname : Name.ofText? d.subject = some .serve)
    (hd : d.FindsNothingNew files final) (hfinal : disk.files.Grows final)
    (h : (compileArguments .serve disk d.args .serve).1 = .ok c) :
    ∃ c', (compileArguments .check (.ofFiles files) d.args .serve).1 = .ok c' := by
  obtain ⟨serve, hserve, -⟩ := map_eq_ok.mp h
  obtain ⟨path, hpath, -⟩ := bind_eq_ok.mp hserve
  obtain ⟨root, hargs, rfl, hstat⟩ := Arguments.existingPath_eq_ok_iff.mp hpath
  have hserved : d.servedPath? = some (FilePath.tidy root) := by rw [Directive.servedPath?, hname, hargs]
  have hfound : (files.stat (FilePath.tidy root)).isOk = true := by
    refine hd.served _ hserved ?_
    cases hnode : disk.files.stat (FilePath.tidy root) with
    | ok n => rw [hfinal.stat_eq_ok hnode]; rfl
    | error e =>
      rw [hnode] at hstat
      cases hstat
  have hcheck := Arguments.existingPath_eq_ok_iff.mpr ⟨root, hargs, rfl, hfound⟩
  exact ⟨_, map_eq_ok.mpr ⟨_, bind_eq_ok.mpr ⟨_, hcheck, rfl⟩, rfl⟩⟩

theorem compileLog_check {d : Directive} {c : Command} (hname : Name.ofText? d.subject = some .log)
    (hd : d.FindsNothingNew files final) (hdisk : (Disk.ofFiles files).Opens disk)
    (h : (compileArguments .serve disk d.args .log).1 = .ok c) :
    ∃ c', (compileArguments .check (.ofFiles files) d.args .log).1 = .ok c' := by
  obtain ⟨log, hlog, -⟩ := map_eq_ok.mp h
  obtain ⟨level, path, template, hargs, htemplate, hlevel, hsink⟩ := LogCommand.compile_eq_ok_iff.mp hlog
  have hlogged : d.loggedPath? = some path := by rw [Directive.loggedPath?, hname, hargs]
  obtain ⟨sink, hcheck⟩ := Disk.check_of_acquire hdisk hsink (hd.logged path hlogged)
  refine ⟨_, map_eq_ok.mpr ⟨{ log with sink := sink }, ?_, rfl⟩⟩
  exact LogCommand.compile_eq_ok_iff.mpr ⟨level, path, template, hargs, htemplate, hlevel, hcheck⟩

/-- Only the arguments of a line may change the disk. -/
theorem compileLine_disk (env : Environment) (mode : CompileMode) (disk : Disk) (line : String) :
    (compileLine env mode disk line).2 = disk ∨
      ∃ args name, (compileLine env mode disk line).2 = (compileArguments mode disk args name).2 := by
  unfold compileLine
  split
  · exact .inl rfl
  · next d _ =>
    split
    · exact .inl rfl
    · next name _ =>
      refine .inr ⟨d.args, name, ?_⟩
      split <;> simp_all

theorem opens_of_compileLine (env : Environment) (disk : Disk) (line : String) :
    disk.Opens (compileLine env .serve disk line).2 := by
  obtain hsame | ⟨args, name, hargs⟩ := compileLine_disk env .serve disk line
  · rw [hsame]
    exact .refl _
  · rw [hargs]
    exact opens_of_compileArguments disk args name

theorem disk_of_compileLine (env : Environment) (disk : Disk) (line : String) :
    (compileLine env .check disk line).2 = disk := by
  obtain hsame | ⟨args, name, hargs⟩ := compileLine_disk env .check disk line
  · exact hsame
  · rw [hargs, disk_of_compileArguments]

/-- A line that the gateway can compile passes the check, if it finds nothing new. -/
theorem compileLine_check {line : String} {c : Command} (hdisk : (Disk.ofFiles files).Opens disk)
    (hfinal : disk.files.Grows final)
    (hline : ∀ d, Directive.parse env line = .ok d → d.FindsNothingNew files final)
    (h : (compileLine env .serve disk line).1 = .ok c) :
    ∃ c', (compileLine env .check (.ofFiles files) line).1 = .ok c' := by
  obtain ⟨d, name, hparse, hname, hargs⟩ := compileLine_eq_ok_iff.mp h
  have hcheck : ∃ c', (compileArguments .check (.ofFiles files) d.args name).1 = .ok c' := by
    cases hreads : name.readsDisk with
    | false =>
      rw [compileArguments_of_not_readsDisk hreads .check .serve (.ofFiles files) disk]
      exact ⟨c, hargs⟩
    | true =>
      obtain rfl | rfl := Name.eq_of_readsDisk hreads
      · exact compileServe_check hname (hline d hparse) hfinal hargs
      · exact compileLog_check hname (hline d hparse) hdisk hargs
  obtain ⟨c', hc'⟩ := hcheck
  exact ⟨c', compileLine_eq_ok_iff.mpr ⟨d, name, hparse, hname, hc'⟩⟩

end Command

/-! ## Blocks and rules -/

namespace CommandBlock

theorem opens_of_compileLines (env : Environment) (disk : Disk) (lines : List (Nat × String)) :
    disk.Opens (compileLines env .serve disk lines).2 := by
  induction lines generalizing disk with
  | nil => exact .refl _
  | cons line lines ih =>
    obtain ⟨i, line⟩ := line
    rw [compileLines_cons]
    exact (Command.opens_of_compileLine env disk line).trans (ih _)

/-- The lines of a block that the gateway can compile pass the check, if none finds anything new. -/
theorem compileLines_check {lines : List (Nat × String)} {commands : List Command}
    (hdisk : (Disk.ofFiles files).Opens disk)
    (hfinal : (compileLines env .serve disk lines).2.files.Grows final)
    (hlines : ∀ i line, (i, line) ∈ lines → ∀ d, Directive.parse env line = .ok d →
      d.FindsNothingNew files final)
    (h : (compileLines env .serve disk lines).1 = commands.map .ok) :
    ∃ checked : List Command, (compileLines env .check (.ofFiles files) lines).1 = checked.map .ok := by
  induction lines generalizing disk commands with
  | nil => exact ⟨[], rfl⟩
  | cons line lines ih =>
    obtain ⟨i, line⟩ := line
    rw [compileLines_cons] at h hfinal
    obtain ⟨c, rest, rfl, hc, hrest⟩ := List.map_eq_cons_iff.mp h.symm
    have hline := Command.opens_of_compileLine env disk line
    have hlines' := opens_of_compileLines env (Command.compileLine env .serve disk line).2 lines
    have hgrows : disk.files.Grows final := (hline.trans hlines').files.trans hfinal
    obtain ⟨c', hc'⟩ := Command.compileLine_check hdisk hgrows (hlines i line List.mem_cons_self)
      (Condition.atLine_eq_ok_iff.mp hc.symm)
    obtain ⟨checked, hchecked⟩ := ih (hdisk.trans hline) hfinal
      (fun k next hnext ↦ hlines k next (List.mem_cons_of_mem _ hnext)) hrest.symm
    refine ⟨c' :: checked, ?_⟩
    rw [compileLines_cons, Command.disk_of_compileLine, hchecked, Condition.atLine_eq_ok_iff.mpr hc', List.map_cons]

/-- A block that the gateway can compile passes the check, if no line finds anything new. -/
theorem compile_check {text : String} {b : CommandBlock} (hdisk : (Disk.ofFiles files).Opens disk)
    (hfinal : (compile env .serve disk text).2.files.Grows final)
    (hlines : ∀ i line, (i, line) ∈ Directive.blockLines text → ∀ d, Directive.parse env line = .ok d →
      d.FindsNothingNew files final)
    (h : (compile env .serve disk text).1 = .ok b) :
    ∃ b', (compile env .check (.ofFiles files) text).1 = .ok b' := by
  obtain ⟨hserved, hplaced, -⟩ := compile_eq_ok_iff.mp h
  obtain ⟨checked, hchecked⟩ := compileLines_check hdisk hfinal hlines hserved
  have hkinds := kinds_of_compileLines hserved hchecked
  refine ⟨⟨text, checked⟩, compile_eq_ok_iff.mpr ⟨hchecked, ?_, rfl⟩⟩
  rw [← isMisplaced_congr hkinds, hplaced]

end CommandBlock

/-- A rule that the gateway can compile passes the check, if no line of its block finds anything new. -/
theorem Rule.compile_check {spec : RuleSpec} {r : Rule} (hdisk : (Disk.ofFiles files).Opens disk)
    (hfinal : (compile env .serve disk spec).2.files.Grows final)
    (hlines : ∀ i line, (i, line) ∈ Directive.blockLines spec.commands →
      ∀ d, Directive.parse env line = .ok d → d.FindsNothingNew files final)
    (h : (compile env .serve disk spec).1 = .ok r) :
    ∃ r', (compile env .check (.ofFiles files) spec).1 = .ok r' := by
  obtain ⟨-, hcondition, hblock⟩ := compile_eq_ok_iff.mp h
  obtain ⟨b, hb⟩ := CommandBlock.compile_check hdisk hfinal hlines hblock
  exact ⟨⟨spec.name, r.condition, b⟩, compile_eq_ok_iff.mpr ⟨rfl, hcondition, hb⟩⟩

/-- What is wrong with a rule is said under its name. -/
theorem Rule.exists_cause {mode : CompileMode} {spec : RuleSpec} {e : RuleError}
    (h : (compile env mode disk spec).1 = .error e) : ∃ cause, e = .inRule spec.name cause := by
  rw [compile_fst] at h
  unfold assemble at h
  split at h <;> cases h <;> exact ⟨_, rfl⟩

end RuleGate
