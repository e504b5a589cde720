import RuleGate.Proofs.Directive.Edits
import RuleGate.Proofs.Text.Trim

/-!
# The values of variables in a line

The value of a variable is text and nothing else. Where the same names resolve, a line has the same error or
as many arguments, whatever the values are, as long as none of them is blank; and what it is made of beside
the values is the same. Inside of a quoted word the value stands as it is, also an empty or a blank one.
-/

namespace RuleGate

/-- No reference inserts a value that consists of blanks only. -/
def Environment.NoBlankValue (env : Environment) : Prop :=
  ∀ name value, env.resolve name = some value → value.toList.all Text.isBlank = false

/-- The environment with a single variable. -/
def Environment.only (name value : String) : Environment :=
  fun other ↦ if other = name then some value else none

theorem Environment.isSome_resolve_only (name value value' other : String) :
    ((only name value).resolve other).isSome = ((only name value').resolve other).isSome := by
  simp only [resolve, only, Option.isSome_or, apply_ite Option.isSome, Option.isSome_some]

theorem Environment.resolve_only {name value other found : String}
    (h : (only name value).resolve other = some found) : value = found := by
  simp only [resolve, only] at h
  grind

namespace Directive

/-! ## The number of words -/

namespace Words

/-- Words that can not be told apart by their number and by whether the current one is blank. -/
structure Alike (t t' : Words) : Prop where
  blank : t.current.all Text.isBlank = t'.current.all Text.isBlank
  count : t.finished.length = t'.finished.length

variable {env env' : Environment} {t t' : Words}

theorem Alike.write (h : Alike t t') {cs cs' : List Char}
    (hblank : cs.all Text.isBlank = cs'.all Text.isBlank) : Alike (t.write cs) (t'.write cs') where
  blank := by simp only [Words.write, List.all_append, List.all_reverse, hblank, h.blank]
  count := h.count

theorem Alike.endWord (h : Alike t t') : Alike t.endWord t'.endWord where
  blank := rfl
  count := by
    have hblank : t.current.reverse.all Text.isBlank = t'.current.reverse.all Text.isBlank := by
      simp only [List.all_reverse, h.blank]
    simp only [Words.endWord, Text.isEmpty_trimStart, hblank]
    split
    · exact h.count
    · exact congrArg (· + 1) h.count

theorem Alike.endQuoted (h : Alike t t') : Alike t.endQuoted t'.endQuoted where
  blank := rfl
  count := congrArg (· + 1) h.count

theorem Alike.edit (hsame : ∀ name, (env.resolve name).isSome = (env'.resolve name).isSome)
    (hvalues : env.NoBlankValue) (hvalues' : env'.NoBlankValue) (h : Alike t t') (e : Edit) :
    Alike (t.edit env e) (t'.edit env' e) := by
  cases e with
  | write cs => exact h.write rfl
  | endWord => exact h.endWord
  | endQuoted => exact h.endQuoted
  | insert name =>
    have hname := hsame name
    apply h.write
    cases hvalue : env.resolve name with
    | none =>
      rw [hvalue, Option.isSome_none] at hname
      rw [Option.isNone_iff_eq_none.mp (Option.isSome_eq_false_iff.mp hname.symm)]
    | some value =>
      rw [hvalue, Option.isSome_some] at hname
      obtain ⟨value', hvalue'⟩ := Option.isSome_iff_exists.mp hname.symm
      rw [hvalue', Option.getD_some, Option.getD_some, hvalues name value hvalue,
        hvalues' name value' hvalue']

theorem Alike.editAll (hsame : ∀ name, (env.resolve name).isSome = (env'.resolve name).isSome)
    (hvalues : env.NoBlankValue) (hvalues' : env'.NoBlankValue) (h : Alike t t') (es : List Edit) :
    Alike (t.editAll env es) (t'.editAll env' es) := by
  induction es generalizing t t' with
  | nil => exact h
  | cons e es ih => exact ih (h.edit hsame hvalues hvalues' e)

end Words

theorem length_args_ofWords {ws ws' : List String} (h : ws.length = ws'.length) :
    (ofWords ws).args.length = (ofWords ws').args.length := by
  cases ws <;> cases ws' <;> simp_all [ofWords]

/-! ## The word that holds a reference -/

namespace Words

variable (env : Environment)

/-- Words that are finished already stay as they are. -/
theorem editAll_finished (t : Words) (es : List Edit) (ws : List String) :
    Words.editAll env ⟨t.current, t.finished ++ ws⟩ es =
      ⟨(t.editAll env es).current, (t.editAll env es).finished ++ ws⟩ := by
  induction es generalizing t with
  | nil => rfl
  | cons e es ih =>
    have hedit : Words.edit env ⟨t.current, t.finished ++ ws⟩ e =
        ⟨(t.edit env e).current, (t.edit env e).finished ++ ws⟩ := by
      cases e with
      | endWord =>
        simp only [edit, endWord]
        split <;> rfl
      | _ => rfl
    rw [editAll_cons, editAll_cons, hedit, ih]

end Words

/-- From inside of quotes, the current word is continued up to the closing quote, and what is read after that
is the same whatever the word is. -/
theorem Leads.continues (env : Environment) {q q' : Option Char} {es : List Edit} (h : Leads q es q')
    (hq : q.isSome = true) (hq' : q' = none) :
    ∃ rest after, ∀ t : Words, (t.editAll env es).finished.reverse =
      t.finished.reverse ++ String.ofList (t.current.reverse ++ rest) :: after := by
  induction h with
  | nil => simp [hq'] at hq
  | @write q q' cs es _ ih =>
    obtain ⟨rest, after, h⟩ := ih hq hq'
    refine ⟨cs ++ rest, after, fun t ↦ ?_⟩
    rw [Words.editAll_cons, h]
    simp [Words.edit, Words.write]
  | @insert q q' name es _ ih =>
    obtain ⟨rest, after, h⟩ := ih hq hq'
    refine ⟨((env.resolve name).getD "").toList ++ rest, after, fun t ↦ ?_⟩
    rw [Words.editAll_cons, h]
    simp [Words.edit, Words.write]
  | endWord => simp at hq
  | @endQuoted c q' es _ _ =>
    refine ⟨[], (Words.empty.editAll env es).finished.reverse, fun t ↦ ?_⟩
    have hafter := Words.editAll_finished env .empty es t.endQuoted.finished
    rw [Words.editAll_cons, Words.edit]
    calc (t.endQuoted.editAll env es).finished.reverse
        = ((Words.empty.editAll env es).finished ++ t.endQuoted.finished).reverse :=
          congrArg (fun w ↦ w.finished.reverse) hafter
      _ = t.finished.reverse ++ String.ofList (t.current.reverse ++ []) ::
            (Words.empty.editAll env es).finished.reverse := by simp [Words.endQuoted]

/-! ## References -/

/-- The characters that a name in a reference can have: all but those that mean something to the scanner. -/
def isReferenceChar (c : Char) : Bool :=
  !(isQuote c || c == '\\' || c == '$' || c == '(' || c == ')' || c == '}')

/-- A dollar and a name in braces. -/
def reference (name : String) : String := "$\x7b" ++ name ++ "\x7d"

namespace Scanner

/-- The scanner stands inside of a quoted word, where the next character is read for itself. -/
structure InQuotes (s : Scanner) : Prop where
  quoted : s.quote.isSome = true
  escaped : s.escaped = false
  dollar : s.dollar = false

variable {env : Environment} {s : Scanner}

/-- The next character is neither escaped nor behind a dollar. -/
structure Unmarked (s : Scanner) : Prop where
  escaped : s.escaped = false
  dollar : s.dollar = false

/-- The scanner takes all these characters for a name that is open. Outside of quotes, blanks end words and do not
get into the name. -/
def TakesName (s : Scanner) (name : List Char) : Prop :=
  ∀ c ∈ name, isReferenceChar c = true ∧ (s.quote = none → c ≠ ' ' ∧ c ≠ '\t')

theorem InQuotes.unmarked (h : s.InQuotes) : s.Unmarked := ⟨h.escaped, h.dollar⟩

theorem InQuotes.takesName (h : s.InQuotes) {name : List Char}
    (hname : ∀ c ∈ name, isReferenceChar c = true) : s.TakesName name := by
  intro c hc
  refine ⟨hname c hc, fun hnone ↦ ?_⟩
  have hquoted := h.quoted
  rw [hnone] at hquoted
  cases hquoted

theorem step_nameChar (h : s.Unmarked) {name : List Char} (hname : s.name = some name) {c : Char}
    (hc : isReferenceChar c = true) (hblank : s.quote = none → c ≠ ' ' ∧ c ≠ '\t') :
    step env s c = .ok { s with name := some (c :: name) } := by
  have hword : ¬ ((c = ' ' ∨ c = '\t') ∧ s.quote = none) := by
    rintro ⟨hc, hnone⟩
    exact hc.elim (hblank hnone).1 (hblank hnone).2
  simp only [isReferenceChar, Bool.not_eq_true', Bool.or_eq_false_iff, beq_eq_false_iff_ne] at hc
  simp [step, stepPlain, h.escaped, h.dollar, hname, hc, hword]

theorem scan_name (h : s.Unmarked) {name : List Char} (hname : s.name = some name) {cs : List Char}
    (hcs : s.TakesName cs) : scan env s cs = .ok { s with name := some (cs.reverse ++ name) } := by
  induction cs generalizing s name with
  | nil => rw [scan_nil, List.reverse_nil, List.nil_append, ← hname]
  | cons c cs ih =>
    rw [TakesName, List.forall_mem_cons] at hcs
    have hrest : Unmarked { s with name := some (c :: name) } := ⟨h.escaped, h.dollar⟩
    rw [scan_cons_of_ok (step_nameChar h hname hcs.1.1 hcs.1.2), ih hrest rfl hcs.2]
    simp

/-- The scanner behind the dollar and the brace that open a reference. -/
theorem scan_opening (h : s.Unmarked) : scan env s ['$', '\x7b'] = .ok { s with name := some [] } := by
  have hdollar : step env s '$' = .ok { s with dollar := true } := by
    simp [step, stepPlain, isQuote, h.escaped, h.dollar]
  have hbrace : step env { s with dollar := true } '\x7b' = .ok { s with name := some [] } := by
    simp [step, stepPlain, isQuote, h.escaped, h.dollar]
  rw [scan_cons_of_ok hdollar, scan_cons_of_ok hbrace, scan_nil]

theorem toList_reference (name : String) :
    (reference name).toList = ['$', '\x7b'] ++ (name.toList ++ ['\x7d']) := by simp [reference]

theorem scan_reference (h : s.Unmarked) {name : String} (hname : s.TakesName name.toList) :
    scan env s (reference name).toList = .ok (endReference env s name.toList.reverse) := by
  have hopen : Unmarked { s with name := some [] } := ⟨h.escaped, h.dollar⟩
  have hend : step env { s with name := some name.toList.reverse } '\x7d' =
      .ok (endReference env s name.toList.reverse) := by
    simp [step, stepPlain, isQuote, endReference, append, h.escaped, h.dollar]
  rw [toList_reference, scan_append_of_ok (scan_opening h), scan_append_of_ok (scan_name hopen rfl hname),
    List.append_nil]
  exact scan_cons_of_ok hend []

/-- A reference inside of quotes appends the value to the word. -/
theorem scan_reference_inQuotes (h : s.InQuotes) {name value : String}
    (hname : ∀ c ∈ name.toList, isReferenceChar c = true) (hvalue : env.resolve name = some value) :
    scan env s (reference name).toList =
      .ok { s with name := none, word := value.toList.reverse ++ s.word } := by
  rw [scan_reference h.unmarked (h.takesName hname), endReference, List.reverse_reverse, String.ofList_toList,
    hvalue]
  rfl

/-- The directive in which a text goes on with the current word, and the rest of the line gives the end of
this word and the words after it, or an error. -/
def continued (s : Scanner) (text : String) (rest : Compiled (String × List String)) : Compiled Directive :=
  rest.map fun (last, words) ↦
    ofWords (s.words.reverse ++ (String.ofList s.word.reverse ++ text ++ last) :: words)

/-- Inside of quotes, what the rest of a line gives does not depend on the current word. -/
theorem finish_scan_inQuotes (env : Environment) (h : s.quote.isSome = true) (cs : List Char) :
    ∃ rest, ∀ text : String,
      scan env { s with word := text.toList.reverse ++ s.word } cs >>= finish = s.continued text rest := by
  rcases finish_scan_uniform (fun name ↦ (env.resolve name).isSome) s cs with ⟨e, he⟩ | ⟨es, leads, hes⟩
  · exact ⟨.error e, fun text ↦ he env ⟨_, s.words⟩ fun _ ↦ rfl⟩
  · obtain ⟨rest, after, hwords⟩ := (leads.append (.endWord .nil)).continues env h rfl
    refine ⟨.ok (String.ofList rest, after), fun text ↦ ?_⟩
    have hread := hes env ⟨text.toList.reverse ++ s.word, s.words⟩ fun _ ↦ rfl
    have hword : String.ofList ((text.toList.reverse ++ s.word).reverse ++ rest) =
        String.ofList s.word.reverse ++ text ++ String.ofList rest := by
      simp [String.ofList_append, String.append_assoc]
    have hend := hwords ⟨text.toList.reverse ++ s.word, s.words⟩
    rw [Words.editAll_append, hword] at hend
    exact hread.trans (congrArg (fun ws ↦ Except.ok (ofWords ws)) hend)

end Scanner

/-- Two environments in which the same names resolve make the same of a line, up to the values. -/
theorem parse_uniform (known : String → Bool) (line : String) :
    ∃ edits : Compiled (List Edit), ∀ env, env.Knows known →
      parse env line = edits.map fun es ↦ (Words.empty.editAll env es).directive := by
  rcases Scanner.finish_scan_uniform known .start line.toList with ⟨e, he⟩ | ⟨es, -, hes⟩
  · exact ⟨.error e, fun env hknown ↦ he env .empty hknown⟩
  · exact ⟨.ok es, fun env hknown ↦ hes env .empty hknown⟩

theorem parse_length_congr {env env' : Environment}
    (hsame : ∀ name, (env.resolve name).isSome = (env'.resolve name).isSome)
    (hvalues : env.NoBlankValue) (hvalues' : env'.NoBlankValue) (line : String) :
    (parse env line).map (·.args.length) = (parse env' line).map (·.args.length) := by
  obtain ⟨edits, hedits⟩ := parse_uniform (fun name ↦ (env.resolve name).isSome) line
  rw [hedits env fun _ ↦ rfl, hedits env' fun name ↦ (hsame name).symm]
  cases edits with
  | error e => rfl
  | ok es =>
    have halike : Words.Alike .empty .empty := ⟨rfl, rfl⟩
    have hcount := (halike.editAll hsame hvalues hvalues' es).endWord.count
    exact congrArg Except.ok (length_args_ofWords (by simpa only [List.length_reverse] using hcount))

/-- A reference inside of quotes, in the middle of a line. -/
theorem parse_eq_finish_reference {env : Environment} {before : String} {s : Scanner}
    (hbefore : Scanner.scan env .start before.toList = .ok s) (h : s.InQuotes) {name value : String}
    (hname : ∀ c ∈ name.toList, isReferenceChar c = true) (hvalue : env.resolve name = some value)
    (after : String) :
    parse env (before ++ reference name ++ after) =
      Scanner.scan env { s with name := none, word := value.toList.reverse ++ s.word } after.toList >>=
        Scanner.finish := by
  rw [parse_eq, String.append_assoc, String.toList_append, String.toList_append,
    Scanner.scan_append_of_ok hbefore, Scanner.scan_append_of_ok (Scanner.scan_reference_inQuotes h hname hvalue)]

theorem parse_reference {env : Environment} {before : String} {s : Scanner}
    (hbefore : Scanner.scan env .start before.toList = .ok s) (h : s.InQuotes) (after : String) :
    ∃ rest, (s.name = none → parse env (before ++ after) = s.continued "" rest) ∧
      ∀ name value, (∀ c ∈ name.toList, isReferenceChar c = true) → env.resolve name = some value →
        parse env (before ++ reference name ++ after) = s.continued value rest := by
  obtain ⟨rest, hrest⟩ := Scanner.finish_scan_inQuotes env (s := { s with name := none }) h.quoted after.toList
  refine ⟨rest, fun hname ↦ ?_, fun name value hname hvalue ↦ ?_⟩
  · have hs : { s with name := none } = s := by rw [← hname]
    rw [parse_eq, String.toList_append, Scanner.scan_append_of_ok hbefore]
    rw [hs] at hrest
    exact hrest ""
  · rw [parse_eq_finish_reference hbefore h hname hvalue]
    exact hrest value

/-- The value of a variable is never read as a part of the language. -/
theorem values_are_text :
    (∀ (line : String) (env env' : Environment),
      (∀ name, (env.resolve name).isSome = (env'.resolve name).isSome) →
      env.NoBlankValue → env'.NoBlankValue →
      (parse env line).map (·.args.length) = (parse env' line).map (·.args.length)) ∧
    (∀ (line : String) (known : String → Bool),
      ∃ edits : Compiled (List Edit), ∀ env, env.Knows known →
        parse env line = edits.map fun es ↦ (Words.empty.editAll env es).directive) ∧
    ∀ (env : Environment) (before after : String) (s : Scanner),
      Scanner.scan env .start before.toList = .ok s → s.InQuotes →
      ∃ rest, (s.name = none → parse env (before ++ after) = s.continued "" rest) ∧
        ∀ name value, (∀ c ∈ name.toList, isReferenceChar c = true) → env.resolve name = some value →
          parse env (before ++ reference name ++ after) = s.continued value rest :=
  ⟨fun line _ _ hsame hvalues hvalues' ↦ parse_length_congr hsame hvalues hvalues' line,
    fun line known ↦ parse_uniform known line,
    fun _ _ after _ hbefore hquotes ↦ parse_reference hbefore hquotes after⟩

/-- A value full of the language's own characters counts as one argument, and a blank one stands in quotes. -/
theorem hostile_and_blank_values :
    (parse (.only "V" "\" ) \\ $") "say $\x7bV\x7d").map (·.args.length) =
      (parse (.only "V" "x") "say $\x7bV\x7d").map (·.args.length) ∧
    ∃ rest, parse (.only "V" " ") ("say \"<" ++ ">\"") =
        Scanner.continued ⟨false, false, some '"', 0, none, ['<'], ["say"], []⟩ "" rest ∧
      parse (.only "V" " ") ("say \"<" ++ reference "V" ++ ">\"") =
        Scanner.continued ⟨false, false, some '"', 0, none, ['<'], ["say"], []⟩ " " rest := by
  have hvalues (value : String) (h : value.toList.all Text.isBlank = false) :
      (Environment.only "V" value).NoBlankValue := by
    intro name other hother
    rw [← Environment.resolve_only hother]
    exact h
  refine ⟨values_are_text.1 _ _ _ (Environment.isSome_resolve_only "V" _ _)
    (hvalues _ (by decide)) (hvalues _ (by decide)), ?_⟩
  obtain ⟨rest, hwithout, hwith⟩ := values_are_text.2.2 (.only "V" " ") "say \"<" ">\""
    ⟨false, false, some '"', 0, none, ['<'], ["say"], []⟩ rfl ⟨rfl, rfl, rfl⟩
  exact ⟨rest, hwithout rfl, hwith "V" " " (List.all_eq_true.mp rfl) (by decide)⟩

end Directive

end RuleGate
