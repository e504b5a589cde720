import RuleGate.Command.Block
import RuleGate.Proofs.Command.Frame

/-!
# The commands of a block that run

A block need not come to its end: a terminating command and a failing one are the last to run, and
`pass` ends the block without running. The commands that run from a scene are a prefix of the block,
and with them the result of the block is settled.
-/

namespace RuleGate

/-- The commands of a block that ran, and the result. -/
structure BlockRun where
  commands : List Command
  result : Except CommandError Outcome

/-- How the commands of a rule end it. A failure counts as a termination. -/
def BlockRun.outcome (b : BlockRun) : Outcome :=
  match b.result with
  | .ok outcome => outcome
  | .error _ => .terminated

namespace Command

/-- The commands that run when a block is run from a scene, each with the scene it runs in. -/
def stages (s : Scene) : List Command → List (Scene × Command)
  | [] => []
  | c :: r =>
    match c.kind with
    | .bypass => []
    | .terminating => [(s, c)]
    | .nonTerminating | .onResponse =>
      match c.run s with
      | (.ok (), s') => (s, c) :: stages s' r
      | (.error _, _) => [(s, c)]

/-- The commands that run, in order, when a block is run from a scene. -/
def executed (s : Scene) (commands : List Command) : List Command := (stages s commands).map Prod.snd

/-! ## Commands that end their rule, and others -/

theorem kind_of_endsRule {c : Command} (h : CommandBlock.endsRule c = true) :
    c.kind = .terminating ∨ c.kind = .bypass := by
  simpa [CommandBlock.endsRule] using h

theorem kind_of_not_endsRule {c : Command} (h : CommandBlock.endsRule c = false) :
    c.kind = .nonTerminating ∨ c.kind = .onResponse := by
  unfold CommandBlock.endsRule at h
  cases hkind : c.kind with
  | nonTerminating => exact .inl rfl
  | onResponse => exact .inr rfl
  | terminating => simp [hkind] at h
  | bypass => simp [hkind] at h

theorem stages_cons {c : Command} (h : CommandBlock.endsRule c = false) (s : Scene) (r : List Command) :
    stages s (c :: r) =
      match c.run s with
      | (.ok (), s') => (s, c) :: stages s' r
      | (.error _, _) => [(s, c)] := by
  rw [stages]
  cases hkind : c.kind with
  | bypass => simp [CommandBlock.endsRule, hkind] at h
  | terminating => simp [CommandBlock.endsRule, hkind] at h
  | nonTerminating => rfl
  | onResponse => rfl

theorem executed_cons {c : Command} (h : CommandBlock.endsRule c = false) (s : Scene) (r : List Command) :
    executed s (c :: r) =
      match c.run s with
      | (.ok (), s) => c :: executed s r
      | (.error _, _) => [c] := by
  rw [executed, stages_cons h]
  split <;> rfl

theorem executed_of_terminating {c : Command} (h : c.kind = .terminating) (s : Scene) (r : List Command) :
    executed s (c :: r) = [c] := by
  simp only [executed, stages, h, List.map_cons, List.map_nil]

theorem executed_of_bypass {c : Command} (h : c.kind = .bypass) (s : Scene) (r : List Command) :
    executed s (c :: r) = [] := by
  simp only [executed, stages, h, List.map_nil]

theorem runAll_cons {c : Command} (h : CommandBlock.endsRule c = false) (s : Scene) (r : List Command) :
    runAll s (c :: r) =
      match c.run s with
      | (.ok (), s) => runAll s r
      | (.error e, s) => (.error e, s) := by
  rw [runAll]
  cases hkind : c.kind with
  | bypass => simp [CommandBlock.endsRule, hkind] at h
  | terminating => simp [CommandBlock.endsRule, hkind] at h
  | nonTerminating => rfl
  | onResponse => rfl

/-! ## Whole blocks -/

/-- What becomes of a block at its first command. -/
inductive FirstStep (s : Scene) (c : Command) (r : List Command) : Prop
  /-- The command hands the request on, and does not run. -/
  | handsOn (kind : c.kind = .bypass) (all : runAll s (c :: r) = (.ok .bypassed, s))
  | fails {e : CommandError} {s' : Scene} (kind : c.kind ≠ .bypass) (run : c.run s = (.error e, s'))
      (all : runAll s (c :: r) = (.error e, s'))
  | ends {s' : Scene} (kind : c.kind = .terminating) (run : c.run s = (.ok (), s'))
      (all : runAll s (c :: r) = (.ok .terminated, s'))
  | goesOn {s' : Scene} (kind : CommandBlock.endsRule c = false) (run : c.run s = (.ok (), s'))
      (all : runAll s (c :: r) = runAll s' r)

theorem firstStep (s : Scene) (c : Command) (r : List Command) : FirstStep s c r := by
  cases hrun : c.run s with
  | mk result s' =>
    cases hends : CommandBlock.endsRule c with
    | false =>
      have hkind : c.kind ≠ .bypass := by
        intro hbypass
        simp [CommandBlock.endsRule, hbypass] at hends
      cases result with
      | ok _ => exact .goesOn hends hrun (by rw [runAll_cons hends, hrun])
      | error e => exact .fails hkind hrun (by rw [runAll_cons hends, hrun])
    | true =>
      rcases kind_of_endsRule hends with hkind | hkind
      · cases result with
        | ok _ => exact .ends hkind hrun (by simp only [runAll, hkind, hrun])
        | error e => exact .fails (by simp [hkind]) hrun (by simp only [runAll, hkind, hrun])
      · exact .handsOn hkind (by simp only [runAll, hkind])

theorem runAll_applied (commands : List Command) (s : Scene) :
    (runAll s commands).2.exchange.applied = s.exchange.applied := by
  induction commands generalizing s with
  | nil => rfl
  | cons c r ih =>
    have hfirst := run_applied c s
    cases firstStep s c r with
    | handsOn _ hall => rw [hall]
    | fails _ hrun hall =>
      rw [hall]
      rwa [hrun] at hfirst
    | ends _ hrun hall =>
      rw [hall]
      rwa [hrun] at hfirst
    | goesOn _ hrun hall =>
      rw [hall, ih]
      rwa [hrun] at hfirst

/-- Where no command runs, the block is empty or begins with `pass`. -/
theorem runAll_of_executed_nil {commands : List Command} {s : Scene} (h : executed s commands = []) :
    runAll s commands = (.ok .proceed, s) ∨ runAll s commands = (.ok .bypassed, s) := by
  cases commands with
  | nil => exact .inl rfl
  | cons c r =>
    cases hends : CommandBlock.endsRule c with
    | false =>
      rw [executed_cons hends] at h
      split at h <;> cases h
    | true =>
      rcases kind_of_endsRule hends with hkind | hkind
      · simp [executed_of_terminating hkind] at h
      · exact .inr (by simp only [runAll, hkind])

/-- A block in which one command runs, which neither ends the rule nor fails, leaves the scene as
that command does. -/
theorem runAll_of_executed_singleton {commands : List Command} {s s' : Scene} {c : Command}
    (h : executed s commands = [c]) (hkind : c.kind ≠ .terminating) (hrun : c.run s = (.ok (), s')) :
    runAll s commands = (.ok .proceed, s') ∨ runAll s commands = (.ok .bypassed, s') := by
  cases commands with
  | nil => cases h
  | cons d r =>
    cases hends : CommandBlock.endsRule d with
    | false =>
      rw [executed_cons hends] at h
      rw [runAll_cons hends]
      split at h
      · next s₁ hd =>
        obtain ⟨rfl, hnone⟩ := List.cons.inj h
        rw [hrun] at hd
        cases hd
        exact runAll_of_executed_nil hnone
      · next e s₁ hd =>
        cases h
        rw [hrun] at hd
        cases hd
    | true =>
      rcases kind_of_endsRule hends with hk | hk
      · rw [executed_of_terminating hk] at h
        cases h
        exact absurd hk hkind
      · simp [executed_of_bypass hk] at h

theorem isMisplaced_cons_cons {c d : Command} {r : List Command}
    (h : CommandBlock.isMisplaced (c :: d :: r) = false) :
    CommandBlock.endsRule c = false ∧ CommandBlock.isMisplaced (d :: r) = false := by
  rwa [CommandBlock.isMisplaced, List.dropLast_cons_cons, List.any_cons, Bool.or_eq_false_iff] at h

/-- Commands of which the last ends the rule never come to their end. -/
theorem runAll_ne_proceed {commands : List Command} (s : Scene)
    (hlast : ∃ c, commands.getLast? = some c ∧ CommandBlock.endsRule c = true) :
    (runAll s commands).1 ≠ .ok .proceed := by
  induction commands generalizing s with
  | nil => simp at hlast
  | cons c r ih =>
    cases firstStep s c r with
    | handsOn _ hall => simp [hall]
    | fails _ _ hall => simp [hall]
    | ends _ _ hall => simp [hall]
    | goesOn hkind _ hall =>
      rw [hall]
      refine ih _ ?_
      obtain ⟨d, hd, hends⟩ := hlast
      cases r with
      | nil =>
        rw [List.getLast?_singleton] at hd
        rw [Option.some.inj hd, hends] at hkind
        cases hkind
      | cons e r => exact ⟨d, by rwa [List.getLast?_cons_cons] at hd, hends⟩

/-- Where only the last command ends the rule, and terminates it, the commands end in a termination or
a failure. -/
theorem runAll_of_terminating {commands : List Command} (s : Scene)
    (hlast : ∃ c, commands.getLast? = some c ∧ c.kind = .terminating)
    (hplaced : CommandBlock.isMisplaced commands = false) :
    (runAll s commands).1 = .ok .terminated ∨ ∃ e, (runAll s commands).1 = .error e := by
  induction commands generalizing s with
  | nil => simp at hlast
  | cons c r ih =>
    cases r with
    | nil =>
      obtain ⟨d, hd, hkind⟩ := hlast
      rw [List.getLast?_singleton] at hd
      cases hd
      simp only [runAll, hkind]
      split
      · exact .inl rfl
      · exact .inr ⟨_, rfl⟩
    | cons d r =>
      obtain ⟨hends, hrest⟩ := isMisplaced_cons_cons hplaced
      rw [runAll_cons hends]
      split
      · exact ih _ hlast hrest
      · exact .inr ⟨_, rfl⟩

end Command

/-- What happens when a block is run from a scene. -/
def CommandBlock.runFrom (b : CommandBlock) (s : Scene) : BlockRun :=
  ⟨Command.executed s b.commands, (b.run s).1⟩

end RuleGate
