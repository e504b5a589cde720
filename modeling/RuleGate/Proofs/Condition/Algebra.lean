import Mathlib.Data.Bool.AllAny
import RuleGate.Proofs.Condition.Formula
import RuleGate.Proofs.Condition.Phase
import RuleGate.Proofs.Directive.Mark
import RuleGate.Proofs.Text.Split
import RuleGate.Proofs.Text.Trim

/-!
# Conditions as boolean algebra

Texts of conditions are put together as what they mean is: `&` between two blocks is the conjunction, `|`
between two clauses the disjunction, and `!` before a check the negation. The whole can be read exactly if
the parts can, and it looks at the response if one of them does.
-/

namespace RuleGate

namespace Condition

variable {env : Environment}

/-! ## Texts read piece by piece -/

/-- How a text is put together from two others: it can be read exactly if both can, its answer is made of
theirs by a connective, and it looks at the response if one of them does. -/
structure Combines (env : Environment) (connective : Bool → Bool → Bool) (whole a b : String) : Prop where
  parses : (∃ c, parse env whole = .ok c) ↔ (∃ c, parse env a = .ok c) ∧ ∃ c, parse env b = .ok c
  means : ∀ c ca cb, parse env whole = .ok c → parse env a = .ok ca → parse env b = .ok cb →
    (∀ x, c.holds x = connective (ca.holds x) (cb.holds x)) ∧
    c.readsResponse = (ca.readsResponse || cb.readsResponse)

/-- A text is read exactly if each of its pieces is, and what they are read as says what it means. -/
structure ReadBy (env : Environment) (read : List Char → Compiled (Formula × Bool))
    (meaning : Exchange → List Formula → Bool) (text : String) (pieces : List (List Char)) : Prop where
  complete : ∀ parts : List (Formula × Bool), pieces.map read = parts.map .ok → ∃ c, parse env text = .ok c
  sound : ∀ c, parse env text = .ok c → ∃ parts : List (Formula × Bool), pieces.map read = parts.map .ok ∧
    (∀ x, c.holds x = meaning x (parts.map (·.1))) ∧ c.readsResponse = parts.any (·.2)

theorem ReadBy.combines {read : List Char → Compiled (Formula × Bool)}
    {meaning : Exchange → List Formula → Bool} {connective : Bool → Bool → Bool} {whole a b : String}
    {as bs : List (List Char)} (h : ReadBy env read meaning whole (as ++ bs))
    (ha : ReadBy env read meaning a as) (hb : ReadBy env read meaning b bs)
    (happend : ∀ x fs gs, meaning x (fs ++ gs) = connective (meaning x fs) (meaning x gs)) :
    Combines env connective whole a b where
  parses := by
    constructor
    · rintro ⟨c, hc⟩
      obtain ⟨parts, hparts, -⟩ := h.sound c hc
      rw [List.map_append, List.append_eq_map_iff] at hparts
      obtain ⟨as', bs', -, has, hbs⟩ := hparts
      exact ⟨ha.complete as' has.symm, hb.complete bs' hbs.symm⟩
    · rintro ⟨⟨ca, hca⟩, ⟨cb, hcb⟩⟩
      obtain ⟨as', has, -⟩ := ha.sound ca hca
      obtain ⟨bs', hbs, -⟩ := hb.sound cb hcb
      exact h.complete (as' ++ bs') (by rw [List.map_append, List.map_append, has, hbs])
  means := by
    intro c ca cb hc hca hcb
    obtain ⟨parts, hparts, hholds, hreads⟩ := h.sound c hc
    obtain ⟨as', has, haholds, hareads⟩ := ha.sound ca hca
    obtain ⟨bs', hbs, hbholds, hbreads⟩ := hb.sound cb hcb
    have hboth : parts = as' ++ bs' := by
      rw [List.map_append, has, hbs, ← List.map_append] at hparts
      exact (List.map_injective_iff.mpr (fun _ _ ↦ Except.ok.inj) hparts).symm
    refine ⟨fun x ↦ ?_, ?_⟩
    · rw [hholds, hboth, List.map_append, happend, haholds, hbholds]
    · rw [hreads, hboth, List.any_append, hareads, hbreads]

/-! ## Blocks as conjunctions of clauses -/

/-- The number of a clause only matters for its error. -/
theorem map_atLine_eq_map_ok {pieces : List (List Char)} {parts : List (Formula × Bool)} {i : Nat} :
    ((pieces.zipIdx i).map fun (s, i) ↦ atLine i (parseClause env s)) = parts.map .ok ↔
      pieces.map (parseClause env) = parts.map .ok := by
  induction pieces generalizing parts i with
  | nil => rfl
  | cons s pieces ih =>
    cases parts with
    | nil => simp
    | cons part parts =>
      simp only [List.zipIdx_cons, List.map_cons, List.cons.injEq, atLine_eq_ok_iff, ih]

theorem parse_eq_ok_iff {text : String} {c : Condition} :
    parse env text = .ok c ↔ ∃ parts : List (Formula × Bool),
      (splitClauses text.toList).map (parseClause env) = parts.map .ok ∧
      c = ⟨text, parts.map (·.1), parts.any (·.2)⟩ := by
  simp only [parse, bind_eq_ok, allOrErrors_eq_ok_iff, map_atLine_eq_map_ok]
  constructor
  · rintro ⟨parts, hparts, hc⟩
    exact ⟨parts, hparts, (Except.ok.inj hc).symm⟩
  · rintro ⟨parts, hparts, rfl⟩
    exact ⟨parts, hparts, rfl⟩

theorem readBy_clauses (env : Environment) (text : String) :
    ReadBy env (parseClause env) Formula.holdsAll text (splitClauses text.toList) where
  complete parts hparts := ⟨_, parse_eq_ok_iff.mpr ⟨parts, hparts, rfl⟩⟩
  sound := by
    intro c hc
    obtain ⟨parts, hparts, rfl⟩ := parse_eq_ok_iff.mp hc
    exact ⟨parts, hparts, fun x ↦ by rw [holds, formula, Formula.holds], rfl⟩

theorem splitClauses_and (a b : List Char) :
    splitClauses (a ++ ' ' :: '&' :: ' ' :: b) = splitClauses a ++ splitClauses b := by
  simp only [splitClauses, ← List.filter_append]
  exact congrArg _ (Text.map_splitWhere_spaced rfl rfl rfl a b)

theorem combines_and (env : Environment) (a b : String) : Combines env (· && ·) (a ++ " & " ++ b) a b := by
  have hwhole := readBy_clauses env (a ++ " & " ++ b)
  have htext : (a ++ " & " ++ b).toList = a.toList ++ ' ' :: '&' :: ' ' :: b.toList := by simp
  rw [htext, splitClauses_and] at hwhole
  exact hwhole.combines (readBy_clauses env a) (readBy_clauses env b) Formula.holdsAll_append

/-! ## Clauses as disjunctions of checks -/

/-- A text that neither `&` nor a line feed cuts, and that neither starts nor ends with a blank. -/
structure IsClause (s : List Char) : Prop where
  uncut : ∀ c ∈ s, c ≠ '&' ∧ c ≠ '\n'
  ends : Text.HasEnds Text.isBlank s

theorem splitClauses_of_uncut {s : List Char} (h : ∀ c ∈ s, c ≠ '&' ∧ c ≠ '\n') :
    splitClauses s = [Text.dropBothWhile Text.isAsciiBlank s].filter fun w ↦ !w.isEmpty := by
  have hpieces : Text.splitWhere (fun c ↦ c == '&' || c == '\n') s = [s] := by
    apply Text.splitWhere_eq_singleton
    intro c hc
    simp [h c hc]
  rw [splitClauses, hpieces]
  rfl

theorem IsClause.splitClauses_eq {s : List Char} (h : IsClause s) : splitClauses s = [s] := by
  have hascii : Text.HasEnds Text.isAsciiBlank s := h.ends.mono fun c hc ↦ Text.isBlank_of_isAsciiBlank hc
  rw [splitClauses_of_uncut h.uncut, hascii.dropBothWhile_eq]
  simp [h.ends.ne_nil]

/-- The checks that a clause lists. -/
def alternatives (s : List Char) : List (List Char) := (Text.splitOn '|' s).map Text.trim

theorem alternatives_or (a b : List Char) :
    alternatives (a ++ ' ' :: '|' :: ' ' :: b) = alternatives a ++ alternatives b :=
  Text.map_splitWhere_spaced rfl rfl rfl a b

theorem IsClause.or {a b : List Char} (ha : IsClause a) (hb : IsClause b) :
    IsClause (a ++ ' ' :: '|' :: ' ' :: b) where
  uncut := by
    intro c hc
    simp only [List.mem_append, List.mem_cons] at hc
    rcases hc with hc | rfl | rfl | rfl | hc
    · exact ha.uncut c hc
    · decide
    · decide
    · decide
    · exact hb.uncut c hc
  ends := by
    have hends := ha.ends.append hb.ends [' ', '|', ' ']
    rwa [List.append_assoc] at hends

theorem parseClause_eq_ok_iff {s : List Char} (hbar : s.contains '|' = true) {part : Formula × Bool} :
    parseClause env s = .ok part ↔ ∃ parts : List (Formula × Bool),
      (alternatives s).map (parseCheck env) = parts.map .ok ∧
      part = (.anyOf (parts.map (·.1)), parts.any (·.2)) := by
  rw [parseClause, if_pos hbar]
  simp only [bind_eq_ok, allOrErrors_eq_ok_iff, alternatives, List.map_map]
  constructor
  · rintro ⟨parts, hparts, hpart⟩
    exact ⟨parts, hparts, (Except.ok.inj hpart).symm⟩
  · rintro ⟨parts, hparts, rfl⟩
    exact ⟨parts, hparts, rfl⟩

theorem parseClause_of_no_bar {s : List Char} (hbar : s.contains '|' = false) :
    parseClause env s = parseCheck env s := by rw [parseClause, if_neg (Bool.eq_false_iff.mp hbar)]

theorem IsClause.alternatives_of_no_bar {s : List Char} (h : IsClause s) (hbar : s.contains '|' = false) :
    alternatives s = [s] := by
  have hmem : '|' ∉ s := fun hc ↦ by simp [hc] at hbar
  rw [alternatives, Text.splitOn_eq_singleton hmem, List.map_singleton, Text.trim, h.ends.dropBothWhile_eq]

theorem parse_eq_ok_iff_of_single {text : String} {s : List Char} (h : splitClauses text.toList = [s])
    {c : Condition} :
    parse env text = .ok c ↔ ∃ part, parseClause env s = .ok part ∧ c = ⟨text, [part.1], part.2⟩ := by
  rw [parse_eq_ok_iff, h]
  constructor
  · rintro ⟨parts, hparts, rfl⟩
    obtain ⟨part, rfl⟩ : ∃ part, parts = [part] := by
      have hlength := congrArg List.length hparts
      simp only [List.length_map] at hlength
      exact List.length_eq_one_iff.mp hlength.symm
    exact ⟨part, (List.cons.inj hparts).1, by simp⟩
  · rintro ⟨part, hpart, rfl⟩
    exact ⟨[part], by rw [List.map_singleton, hpart, List.map_singleton], by simp⟩

theorem holds_single (text : String) (part : Formula × Bool) (x : Exchange) :
    holds ⟨text, [part.1], part.2⟩ x = part.1.holds x := by
  rw [holds, formula, Formula.holds, Formula.holdsAll_singleton]

/-- A clause with a single check is the disjunction of one. -/
theorem readBy_alternatives (env : Environment) {text : String} (h : IsClause text.toList) :
    ReadBy env (parseCheck env) Formula.holdsAny text (alternatives text.toList) := by
  have hparse (c : Condition) : parse env text = .ok c ↔ _ := parse_eq_ok_iff_of_single h.splitClauses_eq
  cases hbar : text.toList.contains '|' with
  | true =>
    refine ⟨fun parts hparts ↦ ?_, fun c hc ↦ ?_⟩
    · exact ⟨_, (hparse _).mpr ⟨_, (parseClause_eq_ok_iff hbar).mpr ⟨parts, hparts, rfl⟩, rfl⟩⟩
    · obtain ⟨part, hpart, rfl⟩ := (hparse _).mp hc
      obtain ⟨parts, hparts, rfl⟩ := (parseClause_eq_ok_iff hbar).mp hpart
      exact ⟨parts, hparts, fun x ↦ by rw [holds_single, Formula.holds], rfl⟩
  | false =>
    rw [h.alternatives_of_no_bar hbar]
    refine ⟨fun parts hparts ↦ ?_, fun c hc ↦ ?_⟩
    · obtain ⟨part, parts, rfl⟩ : ∃ part rest, parts = part :: rest := by
        cases parts with
        | nil => simp at hparts
        | cons part parts => exact ⟨part, parts, rfl⟩
      refine ⟨_, (hparse _).mpr ⟨part, ?_, rfl⟩⟩
      rw [parseClause_of_no_bar hbar]
      exact (List.cons.inj hparts).1
    · obtain ⟨part, hpart, rfl⟩ := (hparse _).mp hc
      rw [parseClause_of_no_bar hbar] at hpart
      refine ⟨[part], by rw [List.map_singleton, hpart, List.map_singleton], fun x ↦ ?_, by simp⟩
      rw [holds_single, List.map_singleton, Formula.holdsAny_singleton]

theorem combines_or (env : Environment) {a b : String} (ha : IsClause a.toList) (hb : IsClause b.toList) :
    Combines env (· || ·) (a ++ " | " ++ b) a b := by
  have htext : (a ++ " | " ++ b).toList = a.toList ++ ' ' :: '|' :: ' ' :: b.toList := by simp
  have hclause : IsClause (a ++ " | " ++ b).toList := htext ▸ ha.or hb
  have hwhole := readBy_alternatives env hclause
  rw [htext, alternatives_or] at hwhole
  exact hwhole.combines (readBy_alternatives env ha) (readBy_alternatives env hb) Formula.holdsAny_append

/-! ## Negation -/

/-- The check of a name and its arguments. -/
def ofDirective (negate : Bool) (name : String) (args : List String) : Compiled (Formula × Bool) :=
  match Check.Kind.ofName? name with
  | none => .error (.subject name .unknownCheck)
  | some kind =>
    match Check.compile args kind with
    | .error e => .error (.withHelp (.subject name e) kind.help.text)
    | .ok c => .ok (if negate then .negated (.check c) else .check c, kind.readsResponse)

/-- Whether a subject has the mark of a negation, and the name of the check. -/
def cutMark (subject : String) : Bool × String :=
  match subject.toList with
  | '!' :: name => (true, String.ofList name)
  | _ => (false, subject)

theorem cutMark_of_mark (name : List Char) :
    cutMark (String.ofList ('!' :: name)) = (true, String.ofList name) := by
  rw [cutMark, String.toList_ofList]
  rfl

theorem cutMark_of_letter {c : Char} (hc : c.isAlpha = true) (cs : List Char) :
    cutMark (String.ofList (c :: cs)) = (false, String.ofList (c :: cs)) := by
  rw [cutMark, String.toList_ofList]
  split
  · next heq => exact absurd (List.cons.inj heq).1 (Directive.ne_of_isAlpha hc (by decide))
  · rfl

theorem parseCheck_eq (s : List Char) :
    parseCheck env s = Directive.parse env (String.ofList s) >>= fun d ↦
      ofDirective (cutMark d.subject).1 (cutMark d.subject).2 d.args := rfl

/-- A mark before a check makes its formula the negation, and changes nothing of its errors. -/
theorem parseCheck_mark {c : Char} (hc : c.isAlpha = true) (r : List Char) :
    parseCheck env ('!' :: c :: r) =
      (parseCheck env (c :: r)).map fun part ↦ (.negated part.1, part.2) := by
  have hnegate (name : String) (args : List String) : ofDirective true name args =
      (ofDirective false name args).map fun part ↦ (.negated part.1, part.2) := by
    rw [ofDirective, ofDirective]
    split
    · rfl
    · split <;> rfl
  rw [parseCheck_eq, parseCheck_eq]
  rcases Directive.parse_mark env hc r with ⟨e, h, h'⟩ | ⟨c', cs, args, hc', h, h'⟩
  · rw [h, h']
    rfl
  · rw [h, h']
    change ofDirective (cutMark (String.ofList ('!' :: c' :: cs))).1 _ args =
      (ofDirective (cutMark (String.ofList (c' :: cs))).1 _ args).map _
    rw [cutMark_of_mark, cutMark_of_letter hc']
    exact hnegate _ args

/-- A line of one check that starts with a letter, as a clause. -/
theorem splitClauses_of_letter {c : Char} {r : List Char} (hc : c.isAlpha = true)
    (huncut : ∀ d ∈ c :: r, d ≠ '|' ∧ d ≠ '&' ∧ d ≠ '\n') :
    ∃ r', '|' ∉ c :: r' ∧ splitClauses (c :: r) = [c :: r'] ∧
      splitClauses ('!' :: c :: r) = ['!' :: c :: r'] := by
  have hletter : Text.isAsciiBlank c = false := by
    rw [Bool.eq_false_iff]
    intro hblank
    have hnot := Directive.isBlank_of_isAlpha hc
    exact Bool.false_ne_true (hnot.symm.trans (Text.isBlank_of_isAsciiBlank hblank))
  have hmark : Text.isAsciiBlank '!' = false := rfl
  refine ⟨Text.dropEndWhile Text.isAsciiBlank r, fun hmem ↦ ?_, ?_, ?_⟩
  · have hsub : '|' ∈ c :: r := by
      rcases List.mem_cons.mp hmem with h | h
      · exact h ▸ .head _
      · exact .tail _ ((List.rdropWhile_prefix _ _).subset h)
    exact (huncut _ hsub).1 rfl
  · rw [splitClauses_of_uncut fun d hd ↦ (huncut d hd).2, Text.dropBothWhile_cons_of_neg hletter]
    rfl
  · have huncut' : ∀ d ∈ '!' :: c :: r, d ≠ '&' ∧ d ≠ '\n' :=
      List.forall_mem_cons.mpr ⟨by decide, fun d hd ↦ (huncut d hd).2⟩
    rw [splitClauses_of_uncut huncut', Text.dropBothWhile_cons_of_neg hmark,
      Text.dropEndWhile_cons_of_neg hletter]
    rfl

/-- How a text negates another one: it can be read exactly if that can, its answer is the opposite, and it
looks at the response if that does. -/
structure Negates (env : Environment) (whole l : String) : Prop where
  parses : (∃ c, parse env whole = .ok c) ↔ ∃ c, parse env l = .ok c
  means : ∀ c cl, parse env whole = .ok c → parse env l = .ok cl →
    (∀ x, c.holds x = !cl.holds x) ∧ c.readsResponse = cl.readsResponse

theorem negates_mark (env : Environment) {l : String} (hletter : ∃ c ∈ l.toList.head?, c.isAlpha = true)
    (huncut : ∀ d ∈ l.toList, d ≠ '|' ∧ d ≠ '&' ∧ d ≠ '\n') : Negates env ("!" ++ l) l := by
  obtain ⟨c, hhead, hc⟩ := hletter
  obtain ⟨r, hl⟩ : ∃ r, l.toList = c :: r := List.head?_eq_some_iff.mp hhead
  have hmarked : ("!" ++ l).toList = '!' :: c :: r := by simp [hl]
  rw [hl] at huncut
  obtain ⟨r', hbar, hsplit, hsplit'⟩ := splitClauses_of_letter hc huncut
  rw [← hl] at hsplit
  rw [← hmarked] at hsplit'
  have hread (part : Formula × Bool) :
      parseClause env (c :: r') = .ok part ↔ parseCheck env (c :: r') = .ok part := by
    rw [parseClause_of_no_bar (by simpa using hbar)]
  have hread' (part' : Formula × Bool) : parseClause env ('!' :: c :: r') = .ok part' ↔
      ∃ part, parseCheck env (c :: r') = .ok part ∧ (.negated part.1, part.2) = part' := by
    rw [parseClause_of_no_bar (by simpa using hbar), parseCheck_mark hc r', map_eq_ok]
  constructor
  · simp only [parse_eq_ok_iff_of_single hsplit, parse_eq_ok_iff_of_single hsplit', hread, hread']
    constructor
    · rintro ⟨_, _, ⟨part, hpart, rfl⟩, rfl⟩
      exact ⟨_, part, hpart, rfl⟩
    · rintro ⟨_, part, hpart, rfl⟩
      exact ⟨_, _, ⟨part, hpart, rfl⟩, rfl⟩
  · simp only [parse_eq_ok_iff_of_single hsplit, parse_eq_ok_iff_of_single hsplit', hread, hread']
    rintro _ _ ⟨_, ⟨part, hpart, rfl⟩, rfl⟩ ⟨part', hpart', rfl⟩
    obtain rfl : part = part' := Except.ok.inj (hpart.symm.trans hpart')
    refine ⟨fun x ↦ ?_, rfl⟩
    rw [holds_single _ (.negated part.1, part.2), holds_single, Formula.holds]

/-! ## All three -/

/-- Texts of conditions are put together as boolean algebra. -/
theorem texts_are_boolean_algebra (env : Environment) :
    (∀ a b : String, Combines env (· && ·) (a ++ " & " ++ b) a b) ∧
    (∀ a b : String, IsClause a.toList → IsClause b.toList → Combines env (· || ·) (a ++ " | " ++ b) a b) ∧
    ∀ l : String, (∃ c ∈ l.toList.head?, c.isAlpha = true) →
      (∀ d ∈ l.toList, d ≠ '|' ∧ d ≠ '&' ∧ d ≠ '\n') → Negates env ("!" ++ l) l :=
  ⟨combines_and env, fun _ _ ha hb ↦ combines_or env ha hb,
    fun _ hletter huncut ↦ negates_mark env hletter huncut⟩

/-- `method GET | !path /x` and its parts, without any environment. -/
theorem method_or_other_path :
    IsClause "method GET".toList ∧ IsClause "!path /x".toList ∧
    ∃ either get elsewhere path : Condition,
      parse (fun _ ↦ none) "method GET" = .ok get ∧ parse (fun _ ↦ none) "path /x" = .ok path ∧
      parse (fun _ ↦ none) "!path /x" = .ok elsewhere ∧
      parse (fun _ ↦ none) "method GET | !path /x" = .ok either ∧
      ∀ x, either.holds x = (get.holds x || !path.holds x) := by
  have hget : IsClause "method GET".toList :=
    ⟨List.all_iff_forall_prop.mp (by decide), ⟨'m', rfl, rfl⟩, ⟨'T', rfl, rfl⟩⟩
  have helsewhere : IsClause "!path /x".toList :=
    ⟨List.all_iff_forall_prop.mp (by decide), ⟨'!', rfl, rfl⟩, ⟨'x', rfl, rfl⟩⟩
  obtain ⟨-, hor, hnot⟩ := texts_are_boolean_algebra fun _ ↦ none
  obtain ⟨hparses, hmeans⟩ := hor "method GET" "!path /x" hget helsewhere
  obtain ⟨hparsesNot, hmeansNot⟩ := hnot "path /x" ⟨'p', rfl, rfl⟩ (List.all_iff_forall_prop.mp (by decide))
  obtain ⟨get, hgetParses⟩ : ∃ c, parse (fun _ ↦ none) "method GET" = .ok c := ⟨_, rfl⟩
  obtain ⟨path, hpathParses⟩ : ∃ c, parse (fun _ ↦ none) "path /x" = .ok c := ⟨_, rfl⟩
  obtain ⟨elsewhere, helsewhereParses⟩ := hparsesNot.mpr ⟨path, hpathParses⟩
  obtain ⟨either, heither⟩ := hparses.mpr ⟨⟨get, hgetParses⟩, ⟨elsewhere, helsewhereParses⟩⟩
  refine ⟨hget, helsewhere, either, get, elsewhere, path, hgetParses, hpathParses, helsewhereParses,
    heither, fun x ↦ ?_⟩
  rw [(hmeans either get elsewhere heither hgetParses helsewhereParses).1 x,
    (hmeansNot elsewhere path helsewhereParses hpathParses).1 x]

end Condition

end RuleGate
