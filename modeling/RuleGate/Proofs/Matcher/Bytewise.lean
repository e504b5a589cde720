import RuleGate.Proofs.Matcher
import RuleGate.Proofs.Text.Bytewise

/-!
# Typed expressions read by byte positions

What is cut between brackets and inside of quotes is what reading the characters gives, and is a contiguous piece of
the expression.
-/

namespace RuleGate.Matcher

open Bytewise

/-! ## Pieces -/

section Pieces

variable {s body e : List Char} {type : Option MatcherType}

theorem IsBody.isInfix (h : IsBody body e) : e <:+: body := by
  cases h with
  | bare => exact List.infix_rfl
  | @quoted q => exact ⟨[q], [q], rfl⟩

theorem isInfix_of_splitTyped (h : splitTyped s = .ok (type, e)) : e <:+: s := by
  cases type with
  | none =>
    obtain ⟨-, rfl⟩ := splitTyped_eq_none_iff.mp h
    exact List.infix_rfl
  | some t =>
    obtain ⟨front, rest, rfl, ⟨name, body, rfl, -, hbody⟩, -⟩ := splitTyped_eq_some_iff.mp h
    have htyped : body <:+: typed name body := ⟨name ++ ['('], [')'], by simp [typed]⟩
    exact (hbody.isInfix.trans htyped).trans (List.prefix_append _ rest).isInfix

end Pieces

/-! ## Quotes -/

section Quotes

variable {q : Char} {front : List Char}

/-- What stands between two quotes starts at the first byte and ends in front of the last one. -/
theorem slice_inside (hq : q.toNat < 0x80) :
    slice (String.ofList (q :: (front ++ [q]))) 1 ((String.ofList (q :: (front ++ [q]))).utf8ByteSize - 1) =
      pure (String.ofList front) := by
  generalize hs : String.ofList (q :: (front ++ [q])) = s
  have hlist : [q] ++ (front ++ [q]) = s.toList := by rw [← hs, String.toList_ofList]; rfl
  have hone : (Text.utf8Encode [q]).length = 1 := by rw [Text.utf8Encode_singleton, Text.utf8EncodeChar_ascii hq]; rfl
  have hstart : offset s (front ++ [q]) = 1 := (offset_eq hlist).trans hone
  have hstop : offset s [q] = s.utf8ByteSize - 1 := by rw [offset, hone]
  rw [← hstop, ← hstart, slice_offset ⟨[q], hlist⟩]

theorem two_le_utf8ByteSize (q last : Char) (front : List Char) :
    2 ≤ (String.ofList (q :: (front ++ [last]))).utf8ByteSize := by
  have hfirst := Text.utf8EncodeChar_length_pos q
  have hlast := Text.utf8EncodeChar_length_pos last
  rw [utf8ByteSize_eq, String.toList_ofList, Text.utf8Encode_cons, Text.utf8Encode_append, Text.utf8Encode_singleton,
    List.length_append, List.length_append]
  omega

/-- Dropping the quotes by byte positions drops the first and the last character. -/
theorem unquoteBytes_eq (s : String) : unquoteBytes s = ofCompiled ((unquote s.toList).map String.ofList) := by
  obtain ⟨cs, rfl⟩ : ∃ cs, s = String.ofList cs := ⟨s.toList, String.ofList_toList.symm⟩
  rw [unquoteBytes, String.toList_ofList]
  cases cs with
  | nil => rfl
  | cons q r =>
    rw [unquote, List.head?_cons]
    by_cases hquote : Directive.isQuote q = true
    · have hq := Directive.isQuote_ascii hquote
      simp only [if_pos hquote]
      rcases List.eq_nil_or_concat r with rfl | ⟨front, last, rfl⟩
      · -- a quote alone is one byte
        have hshort : (String.ofList [q]).utf8ByteSize < 2 := by
          rw [utf8ByteSize_eq, String.toList_ofList, Text.utf8Encode_singleton, Text.utf8EncodeChar_ascii hq]
          exact Nat.one_lt_two
        rw [if_pos (.inl hshort), if_neg (by simp)]
        rfl
      · have hlong := Nat.not_lt.mpr (two_le_utf8ByteSize q last front)
        have hends : (q :: (front ++ [last])).getLast? = some last := by rw [← List.cons_append, List.getLast?_concat]
        rw [List.concat_eq_append, List.getLast?_concat, hends]
        by_cases hlast : last = q
        · subst hlast
          rw [if_neg (not_or.mpr ⟨hlong, not_not.mpr rfl⟩), if_pos rfl, slice_inside hq, List.dropLast_concat]
          rfl
        · have hne : some last ≠ some q := fun heq ↦ hlast (Option.some.inj heq)
          rw [if_pos (.inr hne), if_neg hne]
          rfl
    · simp only [if_neg hquote]
      rfl

end Quotes

/-! ## Brackets -/

section Brackets

variable {s : String} {c : Char} {front rest : List Char}

theorem find?_eq_none (h : Text.cut? c s.toList = none) : find? c s = none := by rw [find?, h, Option.map_none]

theorem find?_eq_some (h : Text.cut? c s.toList = some (front, rest)) : find? c s = some (offset s (c :: rest)) := by
  rw [find?, h, Option.map_some, offset_eq (Text.cut?_eq_some h).1.symm]

theorem findLast?_eq_some (h : front ++ c :: rest = s.toList) (hrest : c ∉ rest) :
    findLast? c s = some (offset s (c :: rest)) := by
  rw [findLast?, ← h, Text.cutLast?_append hrest, Option.map_some, offset_eq h]

/-- A closing bracket that does not stand behind the first opening one stands in front of it. -/
theorem findLast?_lt (h : front ++ '(' :: rest = s.toList) (hrest : ')' ∉ rest) :
    ∀ stop ∈ findLast? ')' s, stop < offset s ('(' :: rest) := by
  intro stop hstop
  obtain ⟨⟨a, b⟩, hcut, rfl⟩ := Option.map_eq_some_iff.mp hstop
  obtain ⟨hs, -⟩ := Text.cutLast?_eq_some hcut
  rw [offset_eq h]
  rcases List.append_eq_append_iff.mp (h.trans hs) with ⟨m, -, hbehind⟩ | ⟨m, rfl, hbehind⟩
  · -- it would stand behind the opening one
    cases m with
    | nil => cases hbehind
    | cons first m =>
      have hmem : ')' ∈ rest := (List.cons.inj hbehind).2 ▸ List.mem_append_right m (.head _)
      exact absurd hmem hrest
  · cases m with
    | nil => cases hbehind
    | cons first m =>
      have hpos := Text.utf8EncodeChar_length_pos first
      dsimp only
      rw [Text.utf8Encode_append, Text.utf8Encode_cons, List.length_append, List.length_append]
      omega

theorem splitTypedBytes_eq (s : String) :
    splitTypedBytes s = ofCompiled ((splitTyped s.toList).map fun (type, e) ↦ (type, String.ofList e)) := by
  rw [splitTypedBytes, splitTyped]
  cases hfirst : Text.cut? '(' s.toList with
  | none =>
    simp only [find?_eq_none hfirst, Except.map, String.ofList_toList]
    rfl
  | some parts =>
    obtain ⟨name, rest⟩ := parts
    have hs := (Text.cut?_eq_some hfirst).1.symm
    simp only [find?_eq_some hfirst]
    cases hlast : Text.cutLast? ')' rest with
    | none =>
      have hbefore := findLast?_lt hs (Text.not_mem_of_cutLast?_eq_none hlast)
      cases hstop : findLast? ')' s with
      | none => rfl
      | some stop =>
        simp only [if_pos (hbefore stop hstop)]
        rfl
    | some parts =>
      obtain ⟨body, behind⟩ := parts
      obtain ⟨rfl, hbehind⟩ := Text.cutLast?_eq_some hlast
      have hstop : findLast? ')' s = some (offset s (')' :: behind)) :=
        findLast?_eq_some (by rwa [← List.cons_append, ← List.append_assoc] at hs) hbehind
      have hopen : '(' :: (body ++ ')' :: behind) <:+ s.toList := ⟨name, hs⟩
      have hbody : body ++ ')' :: behind <:+ s.toList := (List.suffix_cons '(' _).trans hopen
      have hstart : offset s ('(' :: (body ++ ')' :: behind)) + 1 = offset s (body ++ ')' :: behind) :=
        offset_ascii hopen (by decide)
      have horder : ¬ offset s (')' :: behind) < offset s ('(' :: (body ++ ')' :: behind)) := by
        have hadd := offset_add hbody
        omega
      have hname : slice s 0 (offset s ('(' :: (body ++ ')' :: behind))) = pure (String.ofList name) := by
        have hfront : [] ++ (name ++ '(' :: (body ++ ')' :: behind)) = s.toList := hs
        have hzero : offset s (name ++ '(' :: (body ++ ')' :: behind)) = 0 := offset_eq hfront
        rw [← hzero, slice_offset ⟨[], hfront⟩]
      simp only [hstop, if_neg horder, hstart, slice_offset hbody, hname, pure_bind, unquoteBytes_eq,
        String.toList_ofList]
      cases unquote body with
      | error e => rfl
      | ok e => cases MatcherType.parse name <;> rfl

end Brackets

end RuleGate.Matcher
