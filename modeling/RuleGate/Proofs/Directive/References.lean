import RuleGate.Proofs.Directive.Substitution

/-!
# The references of a line

Where no name resolves, every reference that is closed is missing, so reading a line there finds its references. A
reference stands where a dollar and a brace are read for themselves, and it gives the name up to the closing brace.
The name does not always stand there as it is: what is escaped in it, brackets and quotes get into the word and not
into the name, a blank outside of quotes only ends the word, and another dollar and brace start a new name.
-/

namespace RuleGate

/-- The environment without variables. -/
def Environment.empty : Environment := fun _ ↦ none

namespace Directive

namespace Scanner

/-- The names that are missing where the reading of a line ends or breaks off, in order. -/
def missingNames (env : Environment) (s : Scanner) : List Char → List String
  | [] => s.missing.reverse
  | c :: cs =>
    match step env s c with
    | .ok s' => missingNames env s' cs
    | .error _ => s.missing.reverse

end Scanner

/-- The names of the references that are closed in a line, up to where its reading breaks off. -/
def references (line : String) : List String := Scanner.missingNames .empty .start line.toList

namespace Scanner

variable {env : Environment} {s s' : Scanner} {c : Char}

theorem missingNames_append_of_ok {as : List Char} (h : scan env s as = .ok s') (bs : List Char) :
    missingNames env s (as ++ bs) = missingNames env s' bs := by
  induction as generalizing s with
  | nil =>
    cases h
    rfl
  | cons c as ih =>
    rw [scan_cons, bind_eq_ok] at h
    obtain ⟨s'', hstep, hrest⟩ := h
    rw [List.cons_append, missingNames, hstep]
    exact ih hrest

theorem missingNames_of_ok {cs : List Char} (h : scan env s cs = .ok s') :
    missingNames env s cs = s'.missing.reverse := by
  have hend := missingNames_append_of_ok h []
  rwa [List.append_nil] at hend

/-- What is missing in the end is missing in a part of the line that is read. -/
theorem exists_read (env : Environment) (s : Scanner) (cs : List Char) :
    ∃ read rest s', cs = read ++ rest ∧ scan env s read = .ok s' ∧ missingNames env s cs = s'.missing.reverse := by
  induction cs generalizing s with
  | nil => exact ⟨[], [], s, rfl, rfl, rfl⟩
  | cons c cs ih =>
    rw [missingNames]
    split
    · next s' hstep =>
      obtain ⟨read, rest, s'', rfl, hread, hmissing⟩ := ih s'
      exact ⟨c :: read, rest, s'', rfl, (scan_cons_of_ok hstep read).trans hread, hmissing⟩
    · exact ⟨[], c :: cs, s, rfl, rfl, rfl⟩

/-! ## What a character does to references -/

/-- The scanner that has written a dollar which stands for itself in front of this character. -/
def settledBefore (s : Scanner) (c : Char) : Scanner :=
  if s.dollar ∧ c ≠ '\x7b' ∧ c ≠ '$' then { s.push '$' with dollar := false } else s

theorem step_of_not_escaped (h : s.escaped = false) (c : Char) :
    step env s c =
      if isQuote c then .ok ((s.settledBefore c).stepQuote c) else (s.settledBefore c).stepPlain env c := by
  rw [step, if_neg (Bool.eq_false_iff.mp h)]
  rfl

/-- What a character does to references where no name resolves. -/
inductive ReferenceStep (s : Scanner) (c : Char) (s' : Scanner) : Prop
  | dollar (unmarked : s.Unmarked) (char : c = '$') (after : s' = { s with dollar := true })
  | opens (marked : s.dollar = true) (char : c = '\x7b') (after : s' = { s with name := some [], dollar := false })
  | closes {name : List Char} (opened : s.name = some name) (char : c = '\x7d') (unmarked : s'.Unmarked)
      (closed : s'.name = none) (missing : s'.missing = String.ofList name.reverse :: s.missing)
  | passes (name : s'.name = s.name ∨ ∃ name, s.name = some name ∧ s'.name = some (c :: name))
      (missing : s'.missing = s.missing) (escaped : s'.escaped = true → s'.dollar = false)
      (dollar : s'.dollar = true → s.escaped = true ∧ s.dollar = true)

/-- A character behind which no dollar is left. -/
theorem ReferenceStep.of_passes (name : s'.name = s.name ∨ ∃ name, s.name = some name ∧ s'.name = some (c :: name))
    (missing : s'.missing = s.missing) (dollar : s'.dollar = false) : ReferenceStep s c s' :=
  .passes name missing (fun _ ↦ dollar) fun htrue ↦ absurd (dollar.symm.trans htrue) Bool.false_ne_true

theorem settledBefore_of_ne (hbrace : c ≠ '\x7b') (hsign : c ≠ '$') (s : Scanner) :
    (s.settledBefore c).dollar = false := by
  cases hdollar : s.dollar <;> simp [settledBefore, hdollar, hbrace, hsign]

theorem settledBefore_of_sign (s : Scanner) : s.settledBefore '$' = s := if_neg fun h ↦ h.2.2 rfl

theorem settledBefore_of_brace (s : Scanner) : s.settledBefore '\x7b' = s := if_neg fun h ↦ h.2.1 rfl

theorem settledBefore_same (s : Scanner) (c : Char) : (s.settledBefore c).name = s.name ∧
    (s.settledBefore c).missing = s.missing ∧ (s.settledBefore c).escaped = s.escaped := by
  unfold settledBefore
  split <;> exact ⟨rfl, rfl, rfl⟩

theorem referenceStep_quote (hc : isQuote c = true) : ReferenceStep s c ((s.settledBefore c).stepQuote c) := by
  have hbrace : c ≠ '\x7b' := by
    rintro rfl
    cases hc
  have hsign : c ≠ '$' := by
    rintro rfl
    cases hc
  obtain ⟨hname, hmissing, -⟩ := settledBefore_same s c
  have hsame : ((s.settledBefore c).stepQuote c).name = (s.settledBefore c).name ∧
      ((s.settledBefore c).stepQuote c).missing = (s.settledBefore c).missing ∧
      ((s.settledBefore c).stepQuote c).dollar = (s.settledBefore c).dollar := by
    unfold stepQuote
    split <;> split <;> exact ⟨rfl, rfl, rfl⟩
  have hdollar := hsame.2.2.trans (settledBefore_of_ne hbrace hsign s)
  exact .of_passes (.inl (hsame.1.trans hname)) (hsame.2.1.trans hmissing) hdollar

/-- A character that neither is a dollar nor stands behind one. -/
theorem referenceStep_unmarked (h : s.Unmarked) (hsign : c ≠ '$') (hstep : s.stepPlain .empty c = .ok s') :
    ReferenceStep s c s' := by
  have hpasses {t : Scanner} (hname : t.name = s.name) (hmissing : t.missing = s.missing)
      (hdollar : t.dollar = s.dollar) : ReferenceStep s c t :=
    .of_passes (.inl hname) hmissing (hdollar.trans h.dollar)
  have hbrace : ¬ (c = '\x7b' ∧ s.dollar = true) := fun hc ↦ Bool.eq_false_iff.mp h.dollar hc.2
  rw [stepPlain, if_neg hsign, if_neg hbrace] at hstep
  split at hstep
  · cases hstep
    exact hpasses rfl rfl rfl
  split at hstep
  · cases hstep
    exact hpasses rfl rfl rfl
  split at hstep
  · split at hstep
    · cases hstep
    · cases hstep
      exact hpasses rfl rfl rfl
  split at hstep
  · next name hopened =>
    split at hstep
    · next hclose =>
      cases hstep
      exact .closes hopened hclose ⟨h.escaped, h.dollar⟩ rfl rfl
    split at hstep
    · cases hstep
      exact hpasses rfl rfl rfl
    · cases hstep
      exact .of_passes (.inr ⟨name, hopened, rfl⟩) rfl h.dollar
  · split at hstep <;> cases hstep <;> exact hpasses rfl rfl rfl

theorem referenceStep_plain (hescaped : s.escaped = false)
    (h : (s.settledBefore c).stepPlain .empty c = .ok s') : ReferenceStep s c s' := by
  by_cases hsign : c = '$'
  · subst hsign
    rw [settledBefore_of_sign] at h
    cases hdollar : s.dollar with
    | true =>
      simp only [stepPlain, hdollar] at h
      cases h
      exact .of_passes (.inl rfl) rfl rfl
    | false =>
      simp only [stepPlain, hdollar] at h
      cases h
      exact .dollar ⟨hescaped, hdollar⟩ rfl rfl
  by_cases hopens : c = '\x7b' ∧ s.dollar = true
  · obtain ⟨rfl, hdollar⟩ := hopens
    rw [settledBefore_of_brace] at h
    simp only [stepPlain, hdollar] at h
    cases h
    exact .opens hdollar rfl rfl
  · obtain ⟨hname, hmissing, hsame⟩ := settledBefore_same s c
    have hdollar : (s.settledBefore c).dollar = false := by
      by_cases hbrace : c = '\x7b'
      · subst hbrace
        rw [settledBefore_of_brace]
        exact Bool.eq_false_iff.mpr fun hdollar ↦ hopens ⟨rfl, hdollar⟩
      · exact settledBefore_of_ne hbrace hsign s
    cases referenceStep_unmarked ⟨hsame.trans hescaped, hdollar⟩ hsign h with
    | dollar _ char _ => exact absurd char hsign
    | opens marked _ _ => exact absurd (hdollar.symm.trans marked) Bool.false_ne_true
    | closes opened char unmarked closed missing =>
      exact .closes (hname.symm.trans opened) char unmarked closed (missing.trans (by rw [hmissing]))
    | passes name missing escaped dollar =>
      rw [hname] at name
      exact .passes name (missing.trans hmissing) escaped fun htrue ↦
        absurd (hdollar.symm.trans (dollar htrue).2) Bool.false_ne_true

theorem referenceStep (h : step .empty s c = .ok s') : ReferenceStep s c s' := by
  cases hescaped : s.escaped with
  | true =>
    rw [step, if_pos hescaped] at h
    cases h
    exact .passes (.inl rfl) rfl (fun htrue ↦ absurd htrue Bool.false_ne_true) fun hdollar ↦ ⟨hescaped, hdollar⟩
  | false =>
    rw [step_of_not_escaped hescaped] at h
    split at h
    · next hc =>
      cases h
      exact referenceStep_quote hc
    · exact referenceStep_plain hescaped h

/-! ## Where references stand -/

/-- The text is read up to a place where a reference can be opened, with these names missing there, the last one
first. -/
def ReadyAfter (before : List Char) (missing : List String) : Prop :=
  ∃ s, scan .empty .start before = .ok s ∧ s.Unmarked ∧ s.missing = missing

/-- In the text a reference is closed that gave this name, behind those that gave the earlier ones. -/
def ClosedIn (cs : List Char) (earlier : List String) (name : String) : Prop :=
  ∃ before inner after, cs = before ++ ['$', '\x7b'] ++ inner ++ ['\x7d'] ++ after ∧ ReadyAfter before earlier ∧
    name.toList.Sublist inner

theorem ClosedIn.append {cs : List Char} {earlier : List String} {name : String} (h : ClosedIn cs earlier name)
    (rest : List Char) : ClosedIn (cs ++ rest) earlier name := by
  obtain ⟨before, inner, after, rfl, hbefore, hname⟩ := h
  exact ⟨before, inner, after ++ rest, by simp, hbefore, hname⟩

/-- Where in the text that was read the scanner's dollar and its names stand. -/
structure Origin (cs : List Char) (s : Scanner) : Prop where
  escaped : s.escaped = true → s.dollar = false
  dollar : s.dollar = true → ∃ before, cs = before ++ ['$'] ∧ ReadyAfter before s.missing
  name : ∀ name, s.name = some name → ∃ before inner, cs = before ++ ['$', '\x7b'] ++ inner ∧
    ReadyAfter before s.missing ∧ name.reverse.Sublist inner
  missing : ∀ later name earlier, s.missing = later ++ name :: earlier → ClosedIn cs earlier name

theorem origin_start : Origin [] .start where
  escaped h := absurd h Bool.false_ne_true
  dollar h := absurd h Bool.false_ne_true
  name name h := by simp [start] at h
  missing later name earlier h := by simp [start] at h

theorem Origin.step {cs : List Char} (h : Origin cs s) (hcs : scan .empty .start cs = .ok s)
    (hstep : Scanner.step .empty s c = .ok s') : Origin (cs ++ [c]) s' := by
  have hmissing {t : Scanner} (ht : t.missing = s.missing) (later : List String) (name : String)
      (earlier : List String) (hname : t.missing = later ++ name :: earlier) : ClosedIn (cs ++ [c]) earlier name :=
    (h.missing later name earlier (ht.symm.trans hname)).append [c]
  have hname {t : Scanner} (ht : t.missing = s.missing) {name : List Char} (hsame : s.name = some name) :
      ∃ before inner, cs ++ [c] = before ++ ['$', '\x7b'] ++ inner ∧ ReadyAfter before t.missing ∧
        (name.reverse ++ [c]).Sublist inner := by
    obtain ⟨before, inner, rfl, hbefore, hinner⟩ := h.name name hsame
    exact ⟨before, inner ++ [c], by simp, ht ▸ hbefore, hinner.append (.refl [c])⟩
  cases referenceStep hstep with
  | dollar unmarked char after =>
    subst char after
    refine ⟨fun hescaped ↦ ?_, fun _ ↦ ?_, fun name hopened ↦ ?_, hmissing rfl⟩
    · exact absurd (unmarked.escaped.symm.trans hescaped) Bool.false_ne_true
    · exact ⟨cs, rfl, s, hcs, unmarked, rfl⟩
    · obtain ⟨before, inner, hcs', hbefore, hinner⟩ := hname (t := s) rfl hopened
      exact ⟨before, inner, hcs', hbefore, (List.sublist_append_left _ _).trans hinner⟩
  | opens marked char after =>
    subst char after
    refine ⟨fun _ ↦ rfl, fun htrue ↦ absurd htrue Bool.false_ne_true, fun name hopened ↦ ?_, hmissing rfl⟩
    obtain ⟨before, rfl, hbefore⟩ := h.dollar marked
    cases hopened
    exact ⟨before, [], by simp, hbefore, .refl []⟩
  | @closes name opened char unmarked closed missing =>
    subst char
    refine ⟨fun _ ↦ unmarked.dollar, fun htrue ↦ absurd (unmarked.dollar.symm.trans htrue) Bool.false_ne_true,
      fun name hopened ↦ absurd (hopened.symm.trans closed) (Option.some_ne_none name),
      fun later name' earlier hsplit ↦ ?_⟩
    rw [missing] at hsplit
    -- The name in front of the list is the one that is closed here, and the others were closed before.
    cases later with
    | nil =>
      obtain ⟨before, inner, rfl, hbefore, hinner⟩ := h.name name opened
      cases hsplit
      exact ⟨before, inner, [], by simp, hbefore, by rwa [String.toList_ofList]⟩
    | cons _ later =>
      have htail : s.missing = later ++ name' :: earlier := List.tail_eq_of_cons_eq hsplit
      exact (h.missing later name' earlier htail).append ['\x7d']
  | passes name missing escaped dollar =>
    refine ⟨escaped, fun htrue ↦ ?_, fun name' hopened ↦ ?_, hmissing missing⟩
    -- Only an escaped character leaves a dollar as it is, and the backslash in front of it has left none.
    · obtain ⟨hescaped, hdollar⟩ := dollar htrue
      exact absurd ((h.escaped hescaped).symm.trans hdollar) Bool.false_ne_true
    · rcases name with hsame | ⟨name, hsame, hmore⟩
      · obtain ⟨before, inner, hcs', hbefore, hinner⟩ := hname missing (hsame.symm.trans hopened)
        exact ⟨before, inner, hcs', hbefore, (List.sublist_append_left _ _).trans hinner⟩
      · cases hmore.symm.trans hopened
        rw [List.reverse_cons]
        exact hname missing hsame

theorem origin_of_scan {cs : List Char} (h : scan .empty .start cs = .ok s) : Origin cs s := by
  induction cs using List.reverseRecOn generalizing s with
  | nil =>
    cases h
    exact origin_start
  | append_singleton cs c ih =>
    rw [scan_append, bind_eq_ok] at h
    obtain ⟨s', hcs, hlast⟩ := h
    rw [scan_cons, bind_eq_ok] at hlast
    obtain ⟨s'', hstep, hend⟩ := hlast
    cases hend
    exact (ih hcs).step hcs hstep

/-- Names that are missing stay so. -/
theorem exists_missingNames_eq (s : Scanner) (cs : List Char) :
    ∃ later, missingNames .empty s cs = s.missing.reverse ++ later := by
  induction cs generalizing s with
  | nil => exact ⟨[], (List.append_nil _).symm⟩
  | cons c cs ih =>
    rw [missingNames]
    split
    · next s' hstep =>
      obtain ⟨later, hlater⟩ := ih s'
      rw [hlater]
      cases referenceStep hstep with
      | dollar _ _ after =>
        subst after
        exact ⟨later, rfl⟩
      | opens _ _ after =>
        subst after
        exact ⟨later, rfl⟩
      | @closes name _ _ _ _ missing => exact ⟨String.ofList name.reverse :: later, by simp [missing]⟩
      | passes _ missing _ _ => exact ⟨later, by rw [missing]⟩
    · exact ⟨[], (List.append_nil _).symm⟩

end Scanner

theorem references_of_ok {line : String} {s : Scanner} (h : Scanner.scan .empty .start line.toList = .ok s) :
    references line = s.missing.reverse := Scanner.missingNames_of_ok h

theorem exists_references_eq {before : String} {s : Scanner}
    (hbefore : Scanner.scan .empty .start before.toList = .ok s) (h : s.Unmarked) {name : String}
    (hname : s.TakesName name.toList) (after : String) :
    ∃ later, references (before ++ reference name ++ after) = references before ++ name :: later := by
  obtain ⟨later, hlater⟩ :=
    Scanner.exists_missingNames_eq (Scanner.endReference .empty s name.toList.reverse) after.toList
  refine ⟨later, ?_⟩
  rw [references_of_ok hbefore, references, String.append_assoc, String.toList_append, String.toList_append,
    Scanner.missingNames_append_of_ok hbefore, Scanner.missingNames_append_of_ok (Scanner.scan_reference h hname),
    hlater]
  have hmissing : (Scanner.endReference .empty s name.toList.reverse).missing = name :: s.missing := by
    simp [Scanner.endReference, Environment.resolve, Environment.empty]
  rw [hmissing, List.reverse_cons, List.append_assoc, List.singleton_append]

theorem exists_reference {line : String} {earlier later : List String} {name : String}
    (h : references line = earlier ++ name :: later) :
    ∃ before inner after s, line = before ++ "$\x7b" ++ inner ++ "\x7d" ++ after ∧
      Scanner.scan .empty .start before.toList = .ok s ∧ s.Unmarked ∧ references before = earlier ∧
      name.toList.Sublist inner.toList := by
  obtain ⟨read, rest, s, hline, hread, hmissing⟩ := Scanner.exists_read .empty .start line.toList
  have hsplit : s.missing = later.reverse ++ name :: earlier.reverse := by
    have hreverse := congrArg List.reverse (hmissing.symm.trans h)
    simpa using hreverse
  obtain ⟨before, inner, after, hcs, ⟨s', hbefore, hunmarked, hearlier⟩, hname⟩ :=
    ((Scanner.origin_of_scan hread).missing _ _ _ hsplit).append rest
  refine ⟨String.ofList before, String.ofList inner, String.ofList after, s', ?_, by rwa [String.toList_ofList],
    hunmarked, ?_, by rwa [String.toList_ofList]⟩
  · rw [← String.toList_inj, hline, hcs]
    simp
  · rw [references_of_ok (by rwa [String.toList_ofList]), hearlier, List.reverse_reverse]

end Directive

end RuleGate
