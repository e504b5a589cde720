import RuleGate.Proofs.Condition.Algebra
import RuleGate.Proofs.Directive.Quoting
import RuleGate.Proofs.Sample

/-!
# Quotes in conditions

A condition is cut at `&` and `|` before quotes are looked at. A value in quotes that holds neither of them is one
argument as it was, and the check asks for it. One that holds such a character is cut there, and the piece in front of
the cut opens a quote and does not close it, so the condition can not be read, although its line could.
-/

namespace RuleGate

namespace Condition

/-- A word that stands for itself in a condition. -/
structure IsKey (key : List Char) : Prop where
  bare : Directive.IsBareWord key
  uncut : '&' ∉ key ∧ '|' ∉ key ∧ '\n' ∉ key
  first : ∃ c ∈ key.head?, Text.isBlank c = false

/-- The clause that asks for a value of a query parameter. -/
def queryClause (key value : String) : String := "query " ++ key ++ " " ++ Directive.quoted value

/-- Such a clause up to a place inside of the quotes. -/
def openClause (key : String) (text : List Char) : List Char :=
  ("query " ++ key ++ " ").toList ++ '"' :: text.flatMap Directive.escapeChar

theorem toList_queryClause (key value : String) :
    (queryClause key value).toList = openClause key value.toList ++ ['"'] := by
  simp [queryClause, openClause, Directive.quoted]

variable {env : Environment} {key : String}

/-! ## What the scanner makes of it -/

theorem scan_front (h : IsKey key.toList) :
    Directive.Scanner.scan env .start ("query " ++ key ++ " ").toList = .ok (.between [key, "query"]) := by
  have hname : Directive.Scanner.scan env .start "query ".toList = .ok (.between ["query"]) := rfl
  have hkey : Directive.Scanner.scan env (.between ["query"]) key.toList = _ :=
    Directive.Scanner.scan_bareWord ⟨rfl, rfl, rfl⟩ h.bare
  have hspace : Directive.Scanner.step env (.append (.between ["query"]) key.toList) ' ' =
      .ok (.between [key, "query"]) := by
    rw [← Directive.Scanner.endWord_append h.first]
    rfl
  rw [String.append_assoc, String.toList_append, Directive.Scanner.scan_append_of_ok hname, String.toList_append,
    Directive.Scanner.scan_append_of_ok hkey]
  exact Directive.Scanner.scan_cons_of_ok hspace []

theorem parse_queryClause (h : IsKey key.toList) {value : String} (hvalue : Directive.Balanced value.toList) :
    Directive.parse env (queryClause key value) = .ok ⟨"query", [key, value]⟩ := by
  have hscan : Directive.Scanner.scan env .start (queryClause key value).toList =
      .ok (.between [value, key, "query"]) := by
    rw [queryClause, String.toList_append, Directive.Scanner.scan_append_of_ok (scan_front h),
      Directive.Scanner.scan_quoted, Directive.balanced_iff.mp hvalue]
    rfl
  rw [Directive.parse_eq_finish hscan, Directive.Scanner.finish_between]
  rfl

theorem parse_openClause_fails (env : Environment) (h : IsKey key.toList) (text : List Char) :
    ∃ e, Directive.parse env (String.ofList (openClause key text)) = .error e := by
  have hopen : Directive.Scanner.step env (.between [key, "query"]) '"' =
      .ok { Directive.Scanner.between [key, "query"] with quote := some '"' } := rfl
  rw [Directive.parse_eq, String.toList_ofList, openClause, Directive.Scanner.scan_append_of_ok (scan_front h),
    Directive.Scanner.scan_cons_of_ok hopen]
  exact Directive.Scanner.finish_scan_escaped_fails ⟨rfl, rfl, rfl⟩ rfl text

theorem parseCheck_openClause_ne (h : IsKey key.toList) (text : List Char) (part : Formula × Bool) :
    parseCheck env (openClause key text) ≠ .ok part := by
  obtain ⟨e, he⟩ := parse_openClause_fails env h text
  rw [parseCheck_eq, he]
  intro hpart
  cases hpart

/-! ## Where the clause is cut -/

/-- The characters that cut a condition. -/
def cuts (c : Char) : Bool := c == '&' || c == '|' || c == '\n'

/-- Characters of a kind to which none of the escaped ones belongs. -/
theorem ne_escaped {p : Char → Bool} (hslash : p '\\' = false) (hdouble : p '"' = false) (hdollar : p '$' = false)
    {c : Char} (hc : p c = true) : c ≠ '\\' ∧ c ≠ '"' ∧ c ≠ '$' := by
  refine ⟨?_, ?_, ?_⟩ <;> rintro rfl <;> simp_all

theorem escapeChar_of_ne {c : Char} (h : c ≠ '\\' ∧ c ≠ '"' ∧ c ≠ '$') : Directive.escapeChar c = [c] := by
  simp [Directive.escapeChar, h]

theorem not_mem_escaped {c : Char} (hc : cuts c = true) {text : List Char} (h : c ∉ text) :
    c ∉ text.flatMap Directive.escapeChar := by
  have hne := ne_escaped rfl rfl rfl hc
  rw [List.mem_flatMap]
  rintro ⟨d, hd, hmem⟩
  have hcd : c ≠ d := ne_of_mem_of_not_mem hd h |>.symm
  unfold Directive.escapeChar at hmem
  split at hmem
  · simp [hne] at hmem
  split at hmem
  · simp [hne] at hmem
  split at hmem
  · simp [hne] at hmem
  · simp [hcd] at hmem

theorem not_mem_openClause (hkey : IsKey key.toList) {c : Char} (hc : cuts c = true) {text : List Char}
    (h : c ∉ text) : c ∉ openClause key text := by
  have hname : c ∉ "query ".toList ∧ c ∉ key.toList ∧ c ∉ " ".toList ∧ c ≠ '"' := by
    obtain ⟨hand, hbar, hnewline⟩ := hkey.uncut
    simp only [cuts, Bool.or_eq_true, beq_iff_eq] at hc
    rcases hc with (rfl | rfl) | rfl
    · exact ⟨by decide, hand, by decide, by decide⟩
    · exact ⟨by decide, hbar, by decide, by decide⟩
    · exact ⟨by decide, hnewline, by decide, by decide⟩
  simp only [openClause, String.toList_append, List.mem_append, List.mem_cons, not_or]
  exact ⟨⟨⟨hname.1, hname.2.1⟩, hname.2.2.1⟩, hname.2.2.2, not_mem_escaped hc h⟩

theorem openClause_append_cons (key : String) {c : Char} (hc : cuts c = true) (front rest : List Char) :
    openClause key (front ++ c :: rest) = openClause key front ++ c :: rest.flatMap Directive.escapeChar := by
  simp [openClause, escapeChar_of_ne (ne_escaped rfl rfl rfl hc)]

/-! ## Blanks at the end of a piece -/

section Trim

variable {p : Char → Bool}

theorem exists_escapeChar_eq (c : Char) : ∃ front, Directive.escapeChar c = front ++ [c] := by
  unfold Directive.escapeChar
  split
  · next hc => exact ⟨['\\'], by rw [hc]; rfl⟩
  split
  · next hc => exact ⟨['\\'], by rw [hc]; rfl⟩
  split
  · next hc => exact ⟨['$'], by rw [hc]; rfl⟩
  · exact ⟨[], rfl⟩

theorem dropEndWhile_escaped (hp : ∀ c, p c = true → Text.isBlank c = true) (text : List Char) :
    Text.dropEndWhile p (text.flatMap Directive.escapeChar) =
      (Text.dropEndWhile p text).flatMap Directive.escapeChar := by
  induction text using List.reverseRecOn with
  | nil => rfl
  | append_singleton text c ih =>
    rw [List.flatMap_append, List.flatMap_singleton]
    cases hc : p c with
    | true =>
      rw [escapeChar_of_ne (ne_escaped rfl rfl rfl (hp c hc))]
      calc Text.dropEndWhile p (text.flatMap Directive.escapeChar ++ [c])
          = Text.dropEndWhile p (text.flatMap Directive.escapeChar) := List.rdropWhile_concat_pos p _ c hc
        _ = (Text.dropEndWhile p text).flatMap Directive.escapeChar := ih
        _ = (Text.dropEndWhile p (text ++ [c])).flatMap Directive.escapeChar :=
          congrArg _ (List.rdropWhile_concat_pos p text c hc).symm
    | false =>
      -- An escape ends with the character it stands for, so nothing is dropped from either.
      obtain ⟨front, hfront⟩ := exists_escapeChar_eq c
      have hc' : ¬ p c = true := Bool.eq_false_iff.mp hc
      calc Text.dropEndWhile p (text.flatMap Directive.escapeChar ++ Directive.escapeChar c)
          = text.flatMap Directive.escapeChar ++ Directive.escapeChar c := by
            rw [hfront, ← List.append_assoc]
            exact List.rdropWhile_concat_neg p _ c hc'
        _ = (text ++ [c]).flatMap Directive.escapeChar := by rw [List.flatMap_append, List.flatMap_singleton]
        _ = (Text.dropEndWhile p (text ++ [c])).flatMap Directive.escapeChar :=
          congrArg _ (List.rdropWhile_concat_neg p text c hc').symm

/-- Dropping blanks keeps the quote open. -/
theorem trim_openClause (hp : ∀ c, p c = true → Text.isBlank c = true) (key : String) (text : List Char) :
    Text.dropBothWhile p (openClause key text) = openClause key (Text.dropEndWhile p text) := by
  have hneg (c : Char) (hc : Text.isBlank c = false) : p c = false :=
    Bool.eq_false_iff.mpr fun hpos ↦ Bool.eq_false_iff.mp hc (hp c hpos)
  have hfront : ("query " ++ key ++ " ").toList.dropWhile p = ("query " ++ key ++ " ").toList := by
    have hname : ("query " ++ key ++ " ").toList = 'q' :: ("uery " ++ key ++ " ").toList := by simp
    rw [hname]
    exact List.dropWhile_cons_of_neg (Bool.eq_false_iff.mp (hneg 'q' rfl))
  rw [openClause, Text.dropBothWhile_append_cons_of_neg (hneg '"' rfl), hfront, dropEndWhile_escaped hp, openClause]

end Trim

theorem openClause_ne_nil (key : String) (text : List Char) : openClause key text ≠ [] := by simp [openClause]

/-! ## Clauses that are cut inside of the quotes -/

theorem parseClause_bar_ne (h : IsKey key.toList) {text : List Char} (hbar : '|' ∉ text) (rest : List Char)
    (part : Formula × Bool) : parseClause env (openClause key text ++ '|' :: rest) ≠ .ok part := by
  intro hpart
  have hcontains : (openClause key text ++ '|' :: rest).contains '|' = true := by simp
  obtain ⟨parts, hparts, -⟩ := (parseClause_eq_ok_iff hcontains).mp hpart
  have hfirst : Text.trim (openClause key text) = _ := trim_openClause (fun _ hc ↦ hc) key text
  rw [alternatives, Text.splitOn_append (not_mem_openClause h rfl hbar), List.map_cons, hfirst] at hparts
  obtain ⟨first, _, -, hcheck, -⟩ := List.map_eq_cons_iff.mp hparts.symm
  exact parseCheck_openClause_ne h _ first hcheck.symm

theorem parseClause_openClause_ne (h : IsKey key.toList) (text : List Char) (part : Formula × Bool) :
    parseClause env (openClause key text) ≠ .ok part := by
  by_cases hbar : '|' ∈ text
  · obtain ⟨front, rest, rfl, hfront⟩ := List.eq_append_cons_of_mem hbar
    rw [openClause_append_cons key rfl]
    exact parseClause_bar_ne h hfront _ part
  · have hnot : (openClause key text).contains '|' = false := by
      simpa using not_mem_openClause h rfl hbar
    rw [parseClause_of_no_bar hnot]
    exact parseCheck_openClause_ne h text part

theorem splitClauses_openClause (h : IsKey key.toList) {text : List Char} (hand : '&' ∉ text) (hline : '\n' ∉ text)
    (rest : List Char) : splitClauses (openClause key text ++ '&' :: rest) =
      openClause key (Text.dropEndWhile Text.isAsciiBlank text) :: splitClauses rest := by
  have hpiece : Text.splitWhere (fun c ↦ c == '&' || c == '\n') (openClause key text) = [openClause key text] := by
    apply Text.splitWhere_eq_singleton
    intro c hc
    have hand' : c ≠ '&' := ne_of_mem_of_not_mem hc (not_mem_openClause h rfl hand)
    have hline' : c ≠ '\n' := ne_of_mem_of_not_mem hc (not_mem_openClause h rfl hline)
    simp [hand', hline']
  have hsome := openClause_ne_nil key (Text.dropEndWhile Text.isAsciiBlank text)
  rw [splitClauses, Text.splitWhere_append_cons rfl, hpiece, List.singleton_append, List.map_cons,
    trim_openClause (fun _ ↦ Text.isBlank_of_isAsciiBlank) key text, List.filter_cons_of_pos (by simpa using hsome),
    splitClauses]

theorem parse_and_ne (h : IsKey key.toList) {value : String} (hline : '\n' ∉ value.toList)
    (hand : '&' ∈ value.toList) (c : Condition) : parse env (queryClause key value) ≠ .ok c := by
  intro hc
  obtain ⟨front, rest, hvalue, hfront⟩ := List.eq_append_cons_of_mem hand
  obtain ⟨parts, hparts, -⟩ := parse_eq_ok_iff.mp hc
  rw [hvalue, List.mem_append, not_or] at hline
  rw [toList_queryClause, hvalue, openClause_append_cons key rfl, List.append_assoc, List.cons_append,
    splitClauses_openClause h hfront hline.1, List.map_cons] at hparts
  obtain ⟨first, _, -, hclause, -⟩ := List.map_eq_cons_iff.mp hparts.symm
  exact parseClause_openClause_ne h _ first hclause.symm

/-! ## Clauses that are not cut -/

theorem isClause_queryClause (h : IsKey key.toList) {value : String} (hline : '\n' ∉ value.toList)
    (hand : '&' ∉ value.toList) : IsClause (queryClause key value).toList where
  uncut := by
    have hmem {c : Char} (hc : cuts c = true) (hvalue : c ∉ value.toList) : c ∉ (queryClause key value).toList := by
      have hquote : c ≠ '"' := by
        rintro rfl
        cases hc
      rw [toList_queryClause, List.mem_append, not_or, List.mem_singleton]
      exact ⟨not_mem_openClause h hc hvalue, hquote⟩
    exact fun c hc ↦ ⟨ne_of_mem_of_not_mem hc (hmem rfl hand), ne_of_mem_of_not_mem hc (hmem rfl hline)⟩
  ends := by
    rw [toList_queryClause]
    refine ⟨⟨'q', ?_, rfl⟩, ⟨'"', ?_, rfl⟩⟩
    · simp [openClause]
    · simp

theorem parseCheck_of_parse {s : List Char} {d : Directive} (h : Directive.parse env (String.ofList s) = .ok d) :
    parseCheck env s = ofDirective (cutMark d.subject).1 (cutMark d.subject).2 d.args := by
  rw [parseCheck_eq, h]
  rfl

theorem ofDirective_query {value : String} {m : Matcher} (hm : Matcher.parse value = .ok m) :
    ofDirective false "query" [key, value] = .ok (.check (.query key (some m)), false) := by
  have hname : Check.Kind.ofName? "query" = some .query := rfl
  have hcompile : Check.compile [key, value] .query = .ok (.query key (some m)) := by
    rw [Check.compile, Arguments.keyOptionalMatcher, hm]
    rfl
  simp only [ofDirective, hname, hcompile]
  rfl

theorem parse_queryClause_eq (h : IsKey key.toList) {value : String} {m : Matcher} (hline : '\n' ∉ value.toList)
    (hbalanced : Directive.Balanced value.toList) (hm : Matcher.parse value = .ok m) (hand : '&' ∉ value.toList)
    (hbar : '|' ∉ value.toList) : parse env (queryClause key value) =
      .ok ⟨queryClause key value, [.check (.query key (some m))], false⟩ := by
  have hnot : (queryClause key value).toList.contains '|' = false := by
    rw [toList_queryClause]
    simpa using not_mem_openClause h rfl hbar
  have hcheck : parseCheck env (queryClause key value).toList = .ok (.check (.query key (some m)), false) := by
    have hmark : cutMark "query" = (false, "query") := rfl
    have hparse : Directive.parse env (String.ofList (queryClause key value).toList) = .ok ⟨"query", [key, value]⟩ := by
      rw [String.ofList_toList, parse_queryClause h hbalanced]
    rw [parseCheck_of_parse hparse, hmark]
    exact ofDirective_query hm
  rw [parse_eq_ok_iff_of_single (isClause_queryClause h hline hand).splitClauses_eq, parseClause_of_no_bar hnot]
  exact ⟨_, hcheck, rfl⟩

theorem parse_bar_ne (h : IsKey key.toList) {value : String} (hline : '\n' ∉ value.toList)
    (hand : '&' ∉ value.toList) (hbar : '|' ∈ value.toList) (c : Condition) :
    parse env (queryClause key value) ≠ .ok c := by
  rw [Ne, parse_eq_ok_iff_of_single (isClause_queryClause h hline hand).splitClauses_eq]
  rintro ⟨part, hpart, -⟩
  obtain ⟨front, rest, hvalue, hfront⟩ := List.eq_append_cons_of_mem hbar
  rw [toList_queryClause, hvalue, openClause_append_cons key rfl, List.append_assoc, List.cons_append] at hpart
  exact parseClause_bar_ne h hfront _ part hpart

theorem holds_query (text : String) (m : Matcher) (x : Exchange) :
    holds ⟨text, [.check (.query key (some m))], false⟩ x = true ↔ ∃ v ∈ x.query.getAll key, m.test v = true := by
  have hsingle := holds_single text (.check (.query key (some m)), false) x
  rw [hsingle, Formula.holds, Check.test, Check.anyValue, List.any_eq_true]

/-- A matcher in quotes is always one argument of its line. It can be asked for in a condition exactly if it holds no
character that cuts conditions, and then the condition holds if some value of the parameter matches. -/
theorem quoted_value_is_text_iff (env : Environment) {key value : String} {m : Matcher} (hkey : IsKey key.toList)
    (hline : '\n' ∉ value.toList) (hbalanced : Directive.Balanced value.toList) (hm : Matcher.parse value = .ok m) :
    Directive.parse env (queryClause key value) = .ok ⟨"query", [key, value]⟩ ∧
    ((∃ c, parse env (queryClause key value) = .ok c) ↔ '&' ∉ value.toList ∧ '|' ∉ value.toList) ∧
    ∀ c, parse env (queryClause key value) = .ok c →
      ∀ x : Exchange, c.holds x = true ↔ ∃ v ∈ x.query.getAll key, m.test v = true := by
  have huncut (c : Condition) (hc : parse env (queryClause key value) = .ok c) :
      '&' ∉ value.toList ∧ '|' ∉ value.toList := by
    have hand : '&' ∉ value.toList := fun hmem ↦ parse_and_ne hkey hline hmem c hc
    exact ⟨hand, fun hmem ↦ parse_bar_ne hkey hline hand hmem c hc⟩
  refine ⟨parse_queryClause hkey hbalanced, ⟨fun ⟨c, hc⟩ ↦ huncut c hc, fun ⟨hand, hbar⟩ ↦ ?_⟩, fun c hc x ↦ ?_⟩
  · exact ⟨_, parse_queryClause_eq hkey hline hbalanced hm hand hbar⟩
  · obtain ⟨hand, hbar⟩ := huncut c hc
    rw [parse_queryClause_eq hkey hline hbalanced hm hand hbar] at hc
    cases hc
    exact holds_query _ m x

/-- A request with a parameter whose value has a dollar, a blank and quotes. -/
def priced : Request := { Request.plain "/" with uri := ⟨none, none, ⟨"/", some "k=5%24+%22net%22"⟩⟩ }

theorem quoted_price_matches :
    queryClause "k" "5$ \"net\"" = "query k \"5$$ \\\"net\\\"\"" ∧
    ∃ c, parse (fun _ ↦ none) (queryClause "k" "5$ \"net\"") = .ok c ∧ c.holds (.start priced) = true := by
  have hkey : IsKey "k".toList := ⟨by decide, by decide, 'k', rfl, rfl⟩
  have hm : Matcher.parse "5$ \"net\"" = .ok ⟨.exact "5$ \"net\"", false⟩ := rfl
  obtain ⟨-, hiff, hholds⟩ := quoted_value_is_text_iff (fun _ ↦ none) hkey (by decide) (by decide) hm
  obtain ⟨c, hc⟩ := hiff.mpr (by decide)
  exact ⟨by decide, c, hc, (hholds c hc _).mpr ⟨"5$ \"net\"", by decide +kernel, by decide⟩⟩

/-- A regular expression with alternatives can be compiled and matches, but not be asked for. -/
theorem quoted_alternatives_are_cut :
    (IsKey "k".toList ∧ '\n' ∉ "regex(a|b)".toList ∧ Directive.Balanced "regex(a|b)".toList ∧
      (Matcher.parse "regex(a|b)").toOption.any (·.test "a") = true) ∧
    parse (fun _ ↦ none) (queryClause "k" "regex(a|b)") =
      .error (.subject "line 1" (.multiple [.unterminatedQuotes, .unterminatedBrackets])) :=
  ⟨⟨⟨by decide, by decide, 'k', rfl, rfl⟩, by decide, by decide, by decide +kernel⟩, rfl⟩

end Condition

end RuleGate
