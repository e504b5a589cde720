import RuleGate.Proofs.Condition.Phase
import RuleGate.Proofs.Except
import RuleGate.Rule.Basic

/-!
# Rules compiled twice

Rules are compiled for serving, where the files of log sinks are opened, and for checking, where they are
not. Only what `serve` and `log` find on the disk may keep one of the two from succeeding. Where both
succeed, the rules have the same name and condition, and commands of the same kinds in the same order. So
they agree on whether they hand requests on.
-/

namespace RuleGate

variable {env : Environment} {mode mode' : CompileMode} {disk disk' : Disk}

/-! ## Commands -/

namespace Command

variable {c c' : Command}

/-- The commands whose compilation looks at the disk. -/
def Name.readsDisk (name : Name) : Bool := name == .serve || name == .log

theorem Name.eq_of_readsDisk {name : Name} (h : name.readsDisk = true) : name = .serve ∨ name = .log := by
  rwa [readsDisk, Bool.or_eq_true, beq_iff_eq, beq_iff_eq] at h

/-- All other commands are compiled alike whatever is on the disk, which they leave as it is. -/
theorem compileArguments_of_not_readsDisk {name : Name} (h : name.readsDisk = false)
    (mode mode' : CompileMode) (disk disk' : Disk) (args : List String) :
    compileArguments mode disk args name = ((compileArguments mode' disk' args name).1, disk) := by
  cases name <;> first | rfl | cases h

theorem kind_of_compileLog {args : List String} (h : (compileArguments mode disk args .log).1 = .ok c) :
    c.kind = .onResponse := by
  obtain ⟨log, -, rfl⟩ := map_eq_ok.mp h
  rfl

theorem kind_of_compileServe {args : List String}
    (h : (compileArguments mode disk args .serve).1 = .ok c) : c.kind = .terminating := by
  obtain ⟨serve, -, rfl⟩ := map_eq_ok.mp h
  rfl

theorem kind_of_compileArguments {name : Name} {args : List String}
    (h : (compileArguments mode disk args name).1 = .ok c)
    (h' : (compileArguments mode' disk' args name).1 = .ok c') : c.kind = c'.kind := by
  cases hname : name.readsDisk with
  | false =>
    rw [compileArguments_of_not_readsDisk hname mode mode' disk disk', h'] at h
    rw [Except.ok.inj h]
  | true =>
    obtain rfl | rfl := Name.eq_of_readsDisk hname
    · rw [kind_of_compileServe h, kind_of_compileServe h']
    · rw [kind_of_compileLog h, kind_of_compileLog h']

/-- A line that compiles is a directive of a known name whose arguments compile. -/
theorem compileLine_eq_ok_iff {line : String} :
    (compileLine env mode disk line).1 = .ok c ↔
      ∃ d name, Directive.parse env line = .ok d ∧ Name.ofText? d.subject = some name ∧
        (compileArguments mode disk d.args name).1 = .ok c := by
  unfold compileLine
  split
  · next hparse => simp [hparse]
  · next d hparse =>
    split
    · next hname => simp [hparse, hname]
    · next name hname => split <;> simp_all

theorem kind_of_compileLine {line : String} (h : (compileLine env mode disk line).1 = .ok c)
    (h' : (compileLine env mode' disk' line).1 = .ok c') : c.kind = c'.kind := by
  obtain ⟨d, name, hparse, hname, hargs⟩ := compileLine_eq_ok_iff.mp h
  obtain ⟨d', name', hparse', hname', hargs'⟩ := compileLine_eq_ok_iff.mp h'
  obtain rfl : d = d' := Except.ok.inj (hparse.symm.trans hparse')
  obtain rfl : name = name' := Option.some.inj (hname.symm.trans hname')
  exact kind_of_compileArguments hargs hargs'

end Command

/-! ## Blocks -/

namespace CommandBlock

/-- The kinds of the commands, in order. -/
def kinds (b : CommandBlock) : List CommandKind := b.commands.map Command.kind

theorem isMisplaced_congr {commands commands' : List Command}
    (h : commands.map Command.kind = commands'.map Command.kind) :
    isMisplaced commands = isMisplaced commands' := by
  have hends : endsRule = (fun k ↦ k == .terminating || k == .bypass) ∘ Command.kind := rfl
  rw [isMisplaced, isMisplaced, hends, ← List.any_map, ← List.any_map, List.map_dropLast,
    List.map_dropLast, h]

theorem isBypass_congr {b b' : CommandBlock} (h : b.kinds = b'.kinds) : b.isBypass = b'.isBypass := by
  have hlast (b : CommandBlock) : b.isBypass = (b.kinds.getLast? == some .bypass) := by
    unfold isBypass kinds
    rw [List.getLast?_map]
    cases b.commands.getLast? <;> rfl
  rw [hlast, hlast, h]

theorem compileLines_cons (env : Environment) (mode : CompileMode) (disk : Disk) (i : Nat) (line : String)
    (lines : List (Nat × String)) :
    compileLines env mode disk ((i, line) :: lines) =
      (Condition.atLine i (Command.compileLine env mode disk line).1 ::
          (compileLines env mode (Command.compileLine env mode disk line).2 lines).1,
        (compileLines env mode (Command.compileLine env mode disk line).2 lines).2) := rfl

theorem kinds_of_compileLines {lines : List (Nat × String)} {commands commands' : List Command}
    (h : (compileLines env mode disk lines).1 = commands.map .ok)
    (h' : (compileLines env mode' disk' lines).1 = commands'.map .ok) :
    commands.map Command.kind = commands'.map Command.kind := by
  induction lines generalizing disk disk' commands commands' with
  | nil =>
    rw [compileLines, eq_comm, List.map_eq_nil_iff] at h h'
    rw [h, h']
  | cons line lines ih =>
    obtain ⟨i, line⟩ := line
    rw [compileLines_cons] at h h'
    obtain ⟨c, rest, rfl, hc, hrest⟩ := List.map_eq_cons_iff.mp h.symm
    obtain ⟨c', rest', rfl, hc', hrest'⟩ := List.map_eq_cons_iff.mp h'.symm
    have hkind : c.kind = c'.kind :=
      Command.kind_of_compileLine (Condition.atLine_eq_ok_iff.mp hc.symm) (Condition.atLine_eq_ok_iff.mp hc'.symm)
    rw [List.map_cons, List.map_cons, hkind, ih hrest.symm hrest'.symm]

theorem compile_fst (env : Environment) (mode : CompileMode) (disk : Disk) (text : String) :
    (compile env mode disk text).1 =
      (allOrErrors (compileLines env mode disk (Directive.blockLines text)).1).bind (ofCommands text) := rfl

/-- A block that compiles is made of the commands of its lines, of which only the last ends the rule. -/
theorem compile_eq_ok_iff {text : String} {b : CommandBlock} :
    (compile env mode disk text).1 = .ok b ↔
      (compileLines env mode disk (Directive.blockLines text)).1 = b.commands.map .ok ∧
        isMisplaced b.commands = false ∧ b.text = text := by
  rw [compile_fst]
  constructor
  · intro h
    obtain ⟨commands, hcommands, hb⟩ := bind_eq_ok.mp h
    unfold ofCommands at hb
    split at hb
    · cases hb
    · next hplaced =>
      cases hb
      exact ⟨allOrErrors_eq_ok hcommands, Bool.eq_false_iff.mpr hplaced, rfl⟩
  · rintro ⟨hlines, hplaced, rfl⟩
    rw [allOrErrors_eq_ok_iff.mpr hlines]
    exact if_neg (Bool.eq_false_iff.mp hplaced)

theorem kinds_of_compile {text : String} {b b' : CommandBlock}
    (h : (compile env mode disk text).1 = .ok b) (h' : (compile env mode' disk' text).1 = .ok b') :
    b.kinds = b'.kinds :=
  kinds_of_compileLines (compile_eq_ok_iff.mp h).1 (compile_eq_ok_iff.mp h').1

end CommandBlock

/-! ## Rules -/

namespace Rule

variable {r r' : Rule} {spec : RuleSpec}

/-- What two compilations of one rule agree on. -/
structure Alike (r r' : Rule) : Prop where
  name : r.name = r'.name
  condition : r.condition = r'.condition
  kinds : r.block.kinds = r'.block.kinds

theorem assemble_eq_ok_iff {name : String} {condition : Compiled Condition}
    {block : Compiled CommandBlock} :
    assemble name condition block = .ok r ↔
      r.name = name ∧ condition = .ok r.condition ∧ block = .ok r.block := by
  obtain ⟨rname, rcondition, rblock⟩ := r
  cases condition <;> cases block <;> simp [assemble, eq_comm]

theorem atPart_eq_ok_iff {α : Type} {part : String} {result : Compiled α} {a : α} :
    atPart part result = .ok a ↔ result = .ok a := by
  cases result <;> simp [atPart]

theorem compile_fst (env : Environment) (mode : CompileMode) (disk : Disk) (spec : RuleSpec) :
    (compile env mode disk spec).1 =
      assemble spec.name (atPart "on" (Condition.parse env spec.condition))
        (atPart "do" (CommandBlock.compile env mode disk spec.commands).1) := rfl

/-- A rule that compiles is made of its condition and its block. -/
theorem compile_eq_ok_iff :
    (compile env mode disk spec).1 = .ok r ↔
      r.name = spec.name ∧ Condition.parse env spec.condition = .ok r.condition ∧
        (CommandBlock.compile env mode disk spec.commands).1 = .ok r.block := by
  rw [compile_fst, assemble_eq_ok_iff, atPart_eq_ok_iff, atPart_eq_ok_iff]

/-- Compilations of one rule that succeed agree, whatever each finds on the disk. -/
theorem alike_of_compile (h : (compile env mode disk spec).1 = .ok r)
    (h' : (compile env mode' disk' spec).1 = .ok r') : r.Alike r' := by
  obtain ⟨hname, hcondition, hblock⟩ := compile_eq_ok_iff.mp h
  obtain ⟨hname', hcondition', hblock'⟩ := compile_eq_ok_iff.mp h'
  exact ⟨hname.trans hname'.symm, Except.ok.inj (hcondition.symm.trans hcondition'),
    CommandBlock.kinds_of_compile hblock hblock'⟩

theorem Alike.isDefault_eq (h : r.Alike r') : r.isDefault = r'.isDefault := by
  rw [isDefault, isDefault, h.name]

end Rule

/-! ## Lists of rules -/

namespace RuleSpec

variable {numbered : List (RuleSpec × Nat)} {rules : List Rule}

theorem compileEach_append (env : Environment) (mode : CompileMode) (disk : Disk)
    (front rest : List (RuleSpec × Nat)) :
    compileEach env mode disk (front ++ rest) =
      ((compileEach env mode disk front).1 ++
        (compileEach env mode (compileEach env mode disk front).2 rest).1,
        (compileEach env mode (compileEach env mode disk front).2 rest).2) := by
  induction front generalizing disk with
  | nil => rfl
  | cons s front ih =>
    obtain ⟨s, i⟩ := s
    simp only [List.cons_append, compileEach, ih]

/-- Each result is that of compiling one rule on the disk that the rules before it have left. -/
theorem exists_disk_of_mem (env : Environment) (mode : CompileMode) (disk : Disk) {spec : RuleSpec}
    {i : Nat} (h : (spec, i) ∈ numbered) :
    ∃ disk', (Rule.compile env mode disk' (spec.named i)).1 ∈ (compileEach env mode disk numbered).1 := by
  obtain ⟨front, rest, rfl⟩ := List.append_of_mem h
  refine ⟨(compileEach env mode disk front).2, ?_⟩
  rw [compileEach_append]
  exact List.mem_append_right _ List.mem_cons_self

/-- The rules of a list that compiles are made of those in front of one, that one, and those behind it. -/
theorem compileAll_split {specs : List RuleSpec} {front rest : List (RuleSpec × Nat)} {spec : RuleSpec}
    {i : Nat} (h : (compileAll env disk specs).1 = .ok rules)
    (hsplit : specs.zipIdx = front ++ (spec, i) :: rest) :
    ∃ (before : List Rule) (rule : Rule) (after : List Rule) (disk' : Disk),
      rules = before ++ rule :: after ∧
      (compileEach env .serve disk front).1 = before.map .ok ∧
      (Rule.compile env .serve disk' (spec.named i)).1 = .ok rule := by
  have hresults : (compileEach env .serve disk specs.zipIdx).1 = rules.map .ok := allOrErrors_eq_ok h
  rw [hsplit, compileEach_append] at hresults
  obtain ⟨before, tail, rfl, hbefore, htail⟩ := List.map_eq_append_iff.mp hresults.symm
  obtain ⟨rule, after, rfl, hrule, -⟩ := List.map_eq_cons_iff.mp htail
  exact ⟨before, rule, after, _, rfl, hbefore.symm, hrule.symm⟩

end RuleSpec

end RuleGate
