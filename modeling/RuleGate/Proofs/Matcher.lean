import RuleGate.Matcher
import RuleGate.Proofs.Except
import RuleGate.Proofs.Text.Split

/-!
# The grammar of typed expressions

A typed expression is the name of a type in any letter case and a body in brackets, which is the pattern itself or has
it in quotes. The reader looks for the first opening and the last closing bracket, so brackets in the body are part of
it, and whatever stands behind the last one is dropped: what is read is in the grammar exactly if nothing stands there.
-/

namespace RuleGate

namespace MatcherType

/-- The text is the type's name in some letter case. -/
def IsName (t : MatcherType) (name : List Char) : Prop := Text.toAsciiLower name = t.name.toList

variable {t : MatcherType} {name : List Char}

theorem parse_eq_ok_iff : parse name = .ok t ↔ t.IsName name := by
  unfold parse
  dsimp only
  constructor
  · intro h
    split at h
    · next hname => cases h; exact hname
    · split at h
      · next hname => cases h; exact hname
      · split at h
        · next hname => cases h; exact hname
        · cases h
  · intro h
    cases t <;> rw [show Text.toAsciiLower name = _ from h] <;> rfl

/-- Names are made of letters. -/
theorem IsName.not_mem (h : t.IsName name) {c : Char} (hc : c.toLower ∉ t.name.toList) : c ∉ name :=
  fun hmem ↦ hc (h ▸ List.mem_map_of_mem hmem)

end MatcherType

namespace Matcher

/-- The text does not start with a quote. -/
def IsBare (s : List Char) : Prop := ∀ c ∈ s.head?, Directive.isQuote c = false

/-- What can stand between the brackets for a pattern: the pattern, or the pattern in quotes of one kind. -/
inductive IsBody : List Char → List Char → Prop where
  | bare {e : List Char} (h : IsBare e) : IsBody e e
  | quoted {q : Char} (e : List Char) (h : Directive.isQuote q = true) : IsBody (q :: (e ++ [q])) e

/-- An expression as it is written. -/
def typed (name body : List Char) : List Char := name ++ '(' :: (body ++ [')'])

/-- The grammar of expressions that say their type. -/
def IsTyped (t : MatcherType) (e s : List Char) : Prop :=
  ∃ name body, s = typed name body ∧ t.IsName name ∧ IsBody body e

variable {t : MatcherType} {name body e rest s : List Char}

/-! ## Bodies and brackets -/

theorem unquote_eq_ok_iff : unquote body = .ok e ↔ IsBody body e := by
  constructor
  · intro h
    cases body with
    | nil =>
      cases h
      exact .bare fun c hc ↦ by cases hc
    | cons q r =>
      rw [unquote] at h
      split at h
      · next hquote =>
        split at h
        · next hlast =>
          cases h
          obtain ⟨front, rfl⟩ := List.getLast?_eq_some_iff.mp hlast
          rw [List.dropLast_concat]
          exact .quoted front hquote
        · cases h
      · next hquote =>
        cases h
        refine .bare fun c hc ↦ ?_
        cases hc
        exact Bool.eq_false_iff.mpr hquote
  · intro h
    cases h with
    | bare hbare =>
      cases body with
      | nil => rfl
      | cons q r => rw [unquote, if_neg (Bool.eq_false_iff.mp (hbare q rfl))]
    | @quoted q e hquote => rw [unquote, if_pos hquote, if_pos List.getLast?_concat, List.dropLast_concat]

theorem getLast?_typed (name body : List Char) : (typed name body).getLast? = some ')' := by
  rw [typed, ← List.cons_append, ← List.append_assoc, List.getLast?_concat]

/-- A name has no bracket, so the body starts behind the first one and ends at the last one. -/
theorem splitTyped_typed (hname : t.IsName name) (hbody : IsBody body e) (hrest : ')' ∉ rest) :
    splitTyped (typed name body ++ rest) = .ok (some t, e) := by
  have hopen : '(' ∉ name := hname.not_mem (by cases t <;> decide)
  have hfirst : Text.cut? '(' (typed name body ++ rest) = some (name, body ++ ')' :: rest) := by
    rw [typed, List.append_assoc, List.cons_append, List.append_assoc, List.singleton_append, Text.cut?_append hopen]
  rw [splitTyped, hfirst]
  simp only [Text.cutLast?_append hrest, unquote_eq_ok_iff.mpr hbody, MatcherType.parse_eq_ok_iff.mpr hname]
  rfl

theorem splitTyped_eq_some_iff : splitTyped s = .ok (some t, e) ↔
    ∃ front rest, s = front ++ rest ∧ IsTyped t e front ∧ ')' ∉ rest := by
  constructor
  · intro h
    unfold splitTyped at h
    split at h
    · cases h
    · next name tail hfirst =>
      obtain ⟨rfl, -⟩ := Text.cut?_eq_some hfirst
      split at h
      · cases h
      · next body rest hlast =>
        obtain ⟨rfl, hrest⟩ := Text.cutLast?_eq_some hlast
        obtain ⟨e', he', h⟩ := bind_eq_ok.mp h
        obtain ⟨t', ht', h⟩ := bind_eq_ok.mp h
        cases h
        refine ⟨typed name body, rest, ?_, ⟨name, body, rfl, MatcherType.parse_eq_ok_iff.mp ht',
          unquote_eq_ok_iff.mp he'⟩, hrest⟩
        simp [typed]
  · rintro ⟨front, rest, rfl, ⟨name, body, rfl, hname, hbody⟩, hrest⟩
    exact splitTyped_typed hname hbody hrest

theorem splitTyped_eq_none_iff : splitTyped s = .ok (none, e) ↔ '(' ∉ s ∧ e = s := by
  constructor
  · intro h
    unfold splitTyped at h
    split at h
    · next hfirst =>
      cases h
      exact ⟨Text.not_mem_of_cut?_eq_none hfirst, rfl⟩
    · split at h
      · cases h
      · obtain ⟨e', -, h⟩ := bind_eq_ok.mp h
        obtain ⟨t', -, h⟩ := bind_eq_ok.mp h
        cases h
  · rintro ⟨hopen, rfl⟩
    rw [splitTyped, Text.cut?_eq_none hopen]

/-- A text in the grammar ends with the closing bracket, and one that is read is in the grammar if it does. -/
theorem isTyped_iff : IsTyped t e s ↔ splitTyped s = .ok (some t, e) ∧ s.getLast? = some ')' := by
  rw [splitTyped_eq_some_iff]
  constructor
  · intro h
    refine ⟨⟨s, [], (List.append_nil s).symm, h, List.not_mem_nil⟩, ?_⟩
    obtain ⟨name, body, rfl, -, -⟩ := h
    exact getLast?_typed name body
  · rintro ⟨⟨front, rest, rfl, htyped, hrest⟩, hlast⟩
    cases rest with
    | nil => rwa [List.append_nil]
    | cons c rest =>
      rw [List.getLast?_append_of_ne_nil _ (List.cons_ne_nil _ _)] at hlast
      exact absurd (List.mem_of_getLast? hlast) hrest

theorem IsBody.sublist (h : IsBody body e) : e.Sublist body := by
  cases h with
  | bare => exact .refl _
  | quoted e => exact (List.sublist_append_left e _).cons _

theorem sublist_typed (name body : List Char) : body.Sublist (typed name body) :=
  ((List.sublist_append_left _ _).cons _).trans (List.sublist_append_right _ _)

/-! ## What is compiled -/

/-- What an expression says to compile. -/
structure Source where
  type : MatcherType
  pattern : List Char
  negated : Bool
deriving DecidableEq

def Source.compile (c : Source) : Compiled Matcher := Matcher.compile c.type (String.ofList c.pattern) c.negated

/-- Whether an expression starts with the mark that negates it, and the expression without it. -/
def cutNegation (s : List Char) : Bool × List Char :=
  match s with
  | '!' :: r => (true, r)
  | _ => (false, s)

/-- What an expression says to compile, where a bare text has the given type. -/
def source (type : MatcherType) (s : List Char) : Compiled Source := do
  let (typed, pattern) ← splitTyped (cutNegation s).2
  return ⟨typed.getD type, pattern, (cutNegation s).1⟩

theorem parseWithDefault_eq (type : MatcherType) (s : List Char) :
    parseWithDefault type s = source type s >>= Source.compile := by
  have hread : parseWithDefault type s = splitTyped (cutNegation s).2 >>= fun read ↦
      Matcher.compile (read.1.getD type) (String.ofList read.2) (cutNegation s).1 := rfl
  rw [hread, source]
  cases splitTyped (cutNegation s).2 <;> rfl

theorem cutNegation_of_not_mem (h : '!' ∉ s.head?) : cutNegation s = (false, s) := by
  unfold cutNegation
  split
  · exact absurd rfl h
  · rfl

theorem sublist_cutNegation (s : List Char) : (cutNegation s).2.Sublist s := by
  unfold cutNegation
  split
  · exact List.sublist_cons_self _ _
  · exact .refl _

/-- The head of an expression is a letter of its type. -/
theorem head?_typed (hname : t.IsName name) (body : List Char) : (typed name body).head? = name.head? := by
  cases name with
  | nil => cases t <;> cases hname
  | cons c name => rfl

theorem source_typed (type : MatcherType) (hname : t.IsName name) (hbare : IsBare e) :
    source type (typed name e) = .ok ⟨t, e, false⟩ := by
  have hmark : '!' ∉ (typed name e).head? := by
    rw [head?_typed hname]
    exact fun hmem ↦ hname.not_mem (by cases t <;> decide) (List.mem_of_mem_head? hmem)
  have hread : splitTyped (typed name e) = .ok (some t, e) :=
    (isTyped_iff.mp ⟨name, e, rfl, hname, .bare hbare⟩).1
  rw [source, cutNegation_of_not_mem hmark, hread]
  rfl

/-- A pattern is a part of its expression. -/
theorem sublist_of_source {type : MatcherType} {c : Source} (h : source type s = .ok c) : c.pattern.Sublist s := by
  obtain ⟨⟨read, pattern⟩, hread, h⟩ := bind_eq_ok.mp h
  cases h
  refine .trans ?_ (sublist_cutNegation s)
  cases read with
  | none =>
    obtain ⟨-, rfl⟩ := splitTyped_eq_none_iff.mp hread
    exact .refl _
  | some t =>
    obtain ⟨front, rest, hs, ⟨name, body, rfl, -, hbody⟩, -⟩ := splitTyped_eq_some_iff.mp hread
    rw [hs]
    exact (hbody.sublist.trans (sublist_typed name body)).trans (List.sublist_append_left _ _)

/-- A text has no type exactly if it has no opening bracket. It is read as a type and a pattern exactly if it starts
with an expression in the grammar and no closing bracket stands behind that; what stands behind it goes unread, so the
text itself is in the grammar exactly if it ends with the bracket. All other texts are errors. A pattern in brackets
that does not start with a quote is read as it is. -/
theorem read_expressions_are_typed_iff (s : List Char) :
    (∀ e, splitTyped s = .ok (none, e) ↔ '(' ∉ s ∧ e = s) ∧
    (∀ t e, splitTyped s = .ok (some t, e) ↔ ∃ front rest, s = front ++ rest ∧ IsTyped t e front ∧ ')' ∉ rest) ∧
    (∀ t e, IsTyped t e s ↔ splitTyped s = .ok (some t, e) ∧ s.getLast? = some ')') ∧
    ∀ t name e, MatcherType.IsName t name → IsBare e → splitTyped (typed name e) = .ok (some t, e) := by
  refine ⟨fun e ↦ splitTyped_eq_none_iff, fun t e ↦ splitTyped_eq_some_iff, fun t e ↦ isTyped_iff,
    fun t name e hname hbare ↦ ?_⟩
  exact (isTyped_iff.mp ⟨name, e, rfl, hname, .bare hbare⟩).1

/-- An anchor behind the bracket is in no expression, and is dropped from one: a text that goes on is accepted. -/
theorem anchor_behind_bracket_is_dropped :
    (∀ t e, ¬ IsTyped t e "regex(^a)$".toList) ∧ splitTyped "regex(^a)$".toList = .ok (some .regex, "^a".toList) ∧
    (parse "regex(^a)$").toOption.any (·.test "ab") = true := by
  refine ⟨fun t e h ↦ ?_, rfl, by decide +kernel⟩
  have hlast := (isTyped_iff.mp h).2
  cases hlast

end Matcher

end RuleGate
