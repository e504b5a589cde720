import Mathlib.Data.List.Basic
import RuleGate.Proofs.Except
import RuleGate.Proofs.Sample
import RuleGate.Template.Basic

/-!
# Texts that expand to themselves

A text in which every dollar opens a brace holds nothing to expand. Any other text that can be read as a
template has an escaped dollar or a reference, and both get shorter in an exchange whose values are no longer
than the names of the variables.
-/

namespace RuleGate

/-- No variable has a value that is longer than its name, and nothing is found under a key. -/
structure Exchange.Terse (x : Exchange) : Prop where
  static : ∀ v : StaticVariable, (v.value x).length ≤ v.name.length
  dynamic : ∀ v : DynamicVariable, v.value x = ""

theorem Exchange.terse_plain : (Exchange.start (Request.plain "/")).Terse where
  static v := by cases v <;> decide
  dynamic v := by
    obtain ⟨source, key, index⟩ := v
    cases source <;> rfl

theorem StaticVariable.name_of_ofName? {s : String} {v : StaticVariable} (h : ofName? s = some v) :
    v.name = s := by
  rw [ofName?] at h
  have hname := List.find?_some h
  exact beq_iff_eq.mp hname

namespace Template

/-- Every dollar is directly followed by an opening brace. -/
def isVerbatim : List Char → Bool
  | [] => true
  | c :: r => (c != '$' || r.head? == some '\x7b') && isVerbatim r

theorem isVerbatim_cons_of_ne {c : Char} (h : c ≠ '$') (r : List Char) :
    isVerbatim (c :: r) = isVerbatim r := by
  simp [isVerbatim, h]

theorem isVerbatim_dollar_brace (r : List Char) : isVerbatim ('$' :: '\x7b' :: r) = isVerbatim r := by
  simp [isVerbatim]

/-! ## Reading one character -/

section

variable (size : Nat) (literal r : List Char)

theorem parseFrom_nil : parseFrom size literal [] = .ok (literalSegment literal) := by rw [parseFrom]

theorem parseFrom_cons_of_ne {c : Char} (h : c ≠ '$') :
    parseFrom size literal (c :: r) = parseFrom size (c :: literal) r := by
  rw [parseFrom]
  exact h

theorem parseFrom_dollar_dollar :
    parseFrom size literal ('$' :: '$' :: r) = parseFrom size ('$' :: literal) r := by rw [parseFrom]

theorem parseFrom_dollar : parseFrom size literal ['$'] = .error .unterminatedVariable := by rw [parseFrom]

end

/-! ## Expansion of segments -/

theorem expand_cons (segment : Segment) (segments : List Segment) (x : Exchange) :
    expand ⟨segment :: segments⟩ x = Segment.expand x segment ++ expand ⟨segments⟩ x := by
  rw [expand, List.map_cons, String.join_cons, expand]

theorem expand_append (as bs : List Segment) (x : Exchange) :
    expand ⟨as ++ bs⟩ x = expand ⟨as⟩ x ++ expand ⟨bs⟩ x := by
  rw [expand, List.map_append, String.join_append, expand, expand]

theorem expand_literalSegment (literal : List Char) (x : Exchange) :
    expand ⟨literalSegment literal⟩ x = String.ofList literal.reverse := by
  cases literal with
  | nil => rfl
  | cons c literal =>
    rw [literalSegment, if_neg (by simp), expand_cons]
    exact String.append_empty

/-! ## Texts without references -/

theorem parseFrom_of_isVerbatim (size : Nat) (literal : List Char) {s : List Char}
    (h : isVerbatim s = true) :
    parseFrom size literal s = .ok (literalSegment (s.reverse ++ literal)) := by
  fun_induction parseFrom size literal s with
  | case1 literal => rfl
  | case4 literal r ih =>
    rw [ih ((isVerbatim_dollar_brace r).symm.trans h)]
    simp
  | case9 literal c r hc ih =>
    rw [ih ((isVerbatim_cons_of_ne hc r).symm.trans h)]
    simp
  -- everywhere else a dollar is read that opens no brace
  | _ => simp_all [isVerbatim]

theorem parse_of_isVerbatim {s : String} (h : isVerbatim s.toList = true) :
    ∃ t, parse s = .ok t ∧ ∀ x, t.expand x = s := by
  refine ⟨⟨literalSegment s.toList.reverse⟩, ?_, fun x ↦ ?_⟩
  · rw [parse, parseFrom_of_isVerbatim _ _ h, List.append_nil]
    rfl
  · rw [expand_literalSegment, List.reverse_reverse, String.ofList_toList]

/-! ## Texts with references -/

variable {x : Exchange}

theorem length_expand_of_parseReference (hx : x.Terse) {position : Nat} {name : String}
    {rest rest' : List Char} {segment : Segment}
    (h : parseReference position name rest = .ok (segment, rest')) :
    (Segment.expand x segment).length + rest'.length ≤ name.length + rest.length := by
  have hrest : rest'.length ≤ rest.length := parseReference_length h
  unfold parseReference at h
  split at h
  · split at h
    · split at h
      · cases h
      · split at h
        · next v _ =>
          cases h
          have hempty : Segment.expand x (.dynamic v) = "" := hx.dynamic v
          rw [hempty, String.length_empty]
          omega
        · cases h
    · cases h
  · split at h
    · next v hv =>
      cases h
      have hvalue : (Segment.expand x (.static v)).length ≤ v.name.length := hx.static v
      rw [StaticVariable.name_of_ofName? hv] at hvalue
      omega
    · cases h

/-- Each escaped dollar and each reference costs a character. -/
theorem length_expand_le (hx : x.Terse) {size : Nat} {literal s : List Char} {segments : List Segment}
    (h : parseFrom size literal s = .ok segments) :
    (expand ⟨segments⟩ x).length + (if isVerbatim s then 0 else 1) ≤ literal.length + s.length := by
  fun_induction parseFrom size literal s generalizing segments with
  | case1 literal =>
    cases h
    rw [expand_literalSegment]
    simp [isVerbatim]
  | case3 literal r ih =>
    -- an escaped dollar
    have hrest := ih h
    simp only [List.length_cons] at hrest ⊢
    split <;> omega
  | case4 literal r ih =>
    have hrest := ih h
    rw [isVerbatim_dollar_brace]
    simp only [List.length_cons] at hrest ⊢
    omega
  | case7 literal c r _ _ _ name segment rest segments' hsegments position hreference =>
    -- a reference, behind some literal text
    rename_i ih
    cases h
    have hsegment := length_expand_of_parseReference hx hreference
    have hrest := ih hsegments
    have hsplit := congrArg List.length (List.takeWhile_append_dropWhile (p := isNameChar) (l := r))
    rw [expand_append, expand_cons, expand_literalSegment]
    simp only [String.length_append, String.length_ofList, List.length_reverse, List.length_cons,
      List.length_nil, List.length_append, name] at hsegment hrest hsplit ⊢
    split <;> omega
  | case9 literal c r hc ih =>
    have hrest := ih h
    rw [isVerbatim_cons_of_ne hc]
    simp only [List.length_cons] at hrest ⊢
    omega
  -- the other cases are errors
  | _ => cases h

theorem length_expand_lt (hx : x.Terse) {s : String} {t : Template} (h : parse s = .ok t)
    (hs : isVerbatim s.toList = false) : (t.expand x).length < s.length := by
  obtain ⟨segments, hsegments, ht⟩ := bind_eq_ok.mp h
  cases ht
  have hle := length_expand_le hx hsegments
  rw [if_neg (by simp [hs])] at hle
  simp only [List.length_nil, String.length_toList] at hle
  omega

end Template

end RuleGate
