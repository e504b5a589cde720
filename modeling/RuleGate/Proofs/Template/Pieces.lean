import RuleGate.Proofs.Template.Bytewise

/-!
# Pieces of templates

The arguments and the literal text of a template are contiguous pieces of it, less the quotes and the blanks outside of
them in the one and less the first dollar of two in the other.
-/

namespace RuleGate.Template

open Text

/-- A piece without its quotes and without the blanks outside of them, if the given quote is open in front of it. -/
def withoutQuotes : Option Char → List Char → List Char
  | _, [] => []
  | some q, c :: r => if c = q then withoutQuotes none r else c :: withoutQuotes (some q) r
  | none, c :: r =>
    if Directive.isQuote c then withoutQuotes (some c) r
    else if isArgumentBlank c then withoutQuotes none r
    else c :: withoutQuotes none r

/-- A piece with one dollar for each two. -/
def withoutEscapes : List Char → List Char
  | '$' :: '$' :: r => '$' :: withoutEscapes r
  | c :: r => c :: withoutEscapes r
  | [] => []

theorem withoutQuotes_nil (q : Option Char) : withoutQuotes q [] = [] := by cases q <;> rfl

theorem withoutQuotes_sublist (q : Option Char) (s : List Char) : (withoutQuotes q s).Sublist s := by
  fun_induction withoutQuotes q s with
  | case1 => exact .refl _
  | case2 q r ih => exact ih.cons _
  | case3 q c r _ ih => exact ih.cons_cons _
  | case4 c r _ ih => exact ih.cons _
  | case5 c r _ _ ih => exact ih.cons _
  | case6 c r _ _ ih => exact ih.cons_cons _

theorem withoutEscapes_sublist (s : List Char) : (withoutEscapes s).Sublist s := by
  fun_induction withoutEscapes s with
  | case1 r ih => exact (ih.cons_cons _).cons _
  | case2 c r _ ih => exact ih.cons_cons _
  | case3 => exact .refl _

theorem withoutEscapes_cons {c : Char} (hc : c ≠ '$') (s : List Char) :
    withoutEscapes (c :: s) = c :: withoutEscapes s := by
  rw [withoutEscapes]
  exact fun _ hdollar _ ↦ hc hdollar

/-! ## Reading on -/

section GoesOn

variable {read read' : List Char → List Char} {front front' text s : List Char}

/-- The text starts with what has been read of it and goes on with a piece in front of the given rest. -/
def GoesOn (read : List Char → List Char) (front text s : List Char) : Prop :=
  ∃ piece, piece <+: s ∧ text = front ++ read piece

theorem GoesOn.of_eq (hread : read [] = []) (h : text = front) : GoesOn read front text s :=
  ⟨[], List.nil_prefix, by rw [h, hread, List.append_nil]⟩

theorem GoesOn.isCut (h : GoesOn read [] text s) : IsCut read text s := by
  obtain ⟨piece, hpiece, rfl⟩ := h
  exact ⟨piece, hpiece.isInfix, rfl⟩

theorem GoesOn.append (mid : List Char) (h : GoesOn read' front' text s)
    (hread : ∀ piece, front' ++ read' piece = front ++ read (mid ++ piece)) : GoesOn read front text (mid ++ s) := by
  obtain ⟨piece, hpiece, rfl⟩ := h
  exact ⟨mid ++ piece, (List.prefix_append_right_inj mid).mpr hpiece, hread piece⟩

end GoesOn

/-! ## Arguments -/

section Arguments

variable {q : Option Char} {c : Char} {arg s : List Char} {args : List String} {a : String}

/-- An argument that is read has been read before, or is the current one, or is cut from the rest of the text. -/
def IsReadFrom (q : Option Char) (arg : List Char) (args : List String) (s : List Char) (a : String) : Prop :=
  a ∈ args ∨ GoesOn (withoutQuotes q) arg.reverse a.toList s ∨ IsCut (withoutQuotes none) a.toList s

theorem IsReadFrom.of_eq (h : a = String.ofList arg.reverse) : IsReadFrom q arg args s a :=
  .inr (.inl (.of_eq (withoutQuotes_nil q) (h ▸ String.toList_ofList)))

theorem isReadFrom_endArgument (h : a ∈ endArgument arg args) : IsReadFrom q arg args s a := by
  rw [endArgument] at h
  split at h
  · exact .inl h
  · exact (List.mem_cons.mp h).elim .of_eq .inl

/-- The same argument goes on. -/
theorem IsReadFrom.cons {q' : Option Char} {arg' : List Char} (h : IsReadFrom q' arg' args s a)
    (hread : ∀ piece, arg'.reverse ++ withoutQuotes q' piece = arg.reverse ++ withoutQuotes q (c :: piece)) :
    IsReadFrom q arg args (c :: s) a := by
  rcases h with h | h | h
  · exact .inl h
  · exact .inr (.inl (h.append [c] hread))
  · exact .inr (.inr (h.mono (List.suffix_cons c s).isInfix))

/-- The current argument has ended. -/
theorem IsReadFrom.next {args' : List String} (h : IsReadFrom none [] args' s a)
    (hargs : a ∈ args' → IsReadFrom q arg args (c :: s) a) : IsReadFrom q arg args (c :: s) a := by
  rcases h with h | h | h
  · exact hargs h
  · exact .inr (.inr (h.isCut.mono (List.suffix_cons c s).isInfix))
  · exact .inr (.inr (h.mono (List.suffix_cons c s).isInfix))

theorem isReadFrom_of_scanArgs {out : List String × List Char} (h : scanArgs q arg args s = .ok out) (ha : a ∈ out.1) :
    IsReadFrom q arg args s a := by
  induction s generalizing q arg args with
  | nil => cases q <;> cases h
  | cons c s ih =>
    cases q with
    | some q =>
      rw [scanArgs] at h
      split at h
      · exact (ih h).next fun hmem ↦ (List.mem_cons.mp hmem).elim .of_eq .inl
      · next hc => exact (ih h).cons fun piece ↦ by simp [withoutQuotes, hc]
    | none =>
      rw [scanArgs] at h
      split at h
      · next hquote => exact (ih h).cons fun piece ↦ by simp [withoutQuotes, hquote]
      · next hquote =>
        split at h
        · cases h
          exact isReadFrom_endArgument (List.mem_reverse.mp ha)
        · split at h
          · exact (ih h).next isReadFrom_endArgument
          · split at h
            · next hblank => exact (ih h).cons fun piece ↦ by simp [withoutQuotes, hquote, hblank]
            · next hblank => exact (ih h).cons fun piece ↦ by simp [withoutQuotes, hquote, hblank]

/-- Each argument of a list is a piece of it without its quotes and the blanks outside of them. -/
theorem isCut_of_scanArgs {out : List String × List Char} (h : scanArgs none [] [] s = .ok out) (ha : a ∈ out.1) :
    IsCut (withoutQuotes none) a.toList s := by
  rcases isReadFrom_of_scanArgs h ha with h | h | h
  · cases h
  · exact h.isCut
  · exact h

end Arguments

/-! ## Literal text -/

section Literals

variable {size : Nat} {read s : List Char} {text : String} {segments : List Segment}

theorem ne_literal_of_parseReference {position : Nat} {name : String} {out : Segment × List Char}
    (h : parseReference position name s = .ok out) : out.1 ≠ .literal text := by
  unfold parseReference at h
  split at h
  · split at h
    · split at h
      · cases h
      · split at h
        · cases h
          exact Segment.noConfusion
        · cases h
    · cases h
  · split at h
    · cases h
      exact Segment.noConfusion
    · cases h

theorem eq_of_mem_literalSegment (h : .literal text ∈ literalSegment read) : text.toList = read.reverse := by
  rw [literalSegment] at h
  split at h
  · cases h
  · cases List.mem_singleton.mp h
    exact String.toList_ofList

/-- Literal text is the current one, or is cut from the rest of the text. -/
theorem goesOn_or_isCut_of_parseFrom (h : parseFrom size read s = .ok segments) (hmem : .literal text ∈ segments) :
    GoesOn withoutEscapes read.reverse text.toList s ∨ IsCut withoutEscapes text.toList s := by
  fun_induction parseFrom size read s generalizing segments with
  | case1 read =>
    cases h
    exact .inl (.of_eq rfl (eq_of_mem_literalSegment hmem))
  | case2 read => cases h
  | case3 read r ih =>
    rcases ih h hmem with hon | hcut
    · exact .inl (hon.append ['$', '$'] fun piece ↦ by simp [withoutEscapes])
    · exact .inr (hcut.mono (List.suffix_append ['$', '$'] r).isInfix)
  | case4 read r ih =>
    rcases ih h hmem with hon | hcut
    · exact .inl (hon.append ['$', '\x7b'] fun piece ↦ by simp [withoutEscapes])
    · exact .inr (hcut.mono (List.suffix_append ['$', '\x7b'] r).isInfix)
  | case5 read c r _ _ hc _ e => cases h
  | case6 read c r _ _ hc _ segment behind e hbehind => cases h
  | case7 read c r _ _ hc _ segment behind segments' hbehind =>
    rename_i hreference ih
    cases h
    have hsuffix : behind <:+ '$' :: c :: r :=
      ((parseReference_suffix hreference).trans (List.dropWhile_suffix isNameChar)).trans (suffix_cons_cons '$' c r)
    rcases List.mem_append.mp hmem with hliteral | hlater
    · exact .inl (.of_eq rfl (eq_of_mem_literalSegment hliteral))
    · rcases List.mem_cons.mp hlater with heq | hlater
      · exact absurd heq.symm (ne_literal_of_parseReference hreference)
      · rcases ih hbehind hlater with hon | hcut
        · exact .inr (hon.isCut.mono hsuffix.isInfix)
        · exact .inr (hcut.mono hsuffix.isInfix)
  | case8 read c r hdollar hbrace hc => cases h
  | case9 read c r hc ih =>
    rcases ih h hmem with hon | hcut
    · exact .inl (hon.append [c] fun piece ↦ by simp [withoutEscapes_cons hc])
    · exact .inr (hcut.mono (List.suffix_cons c r).isInfix)

/-- The literal text of a template. -/
def literals (t : Template) : List String :=
  t.segments.filterMap fun
    | .literal text => some text
    | _ => none

theorem mem_of_mem_literals {t : Template} (h : text ∈ t.literals) : .literal text ∈ t.segments := by
  obtain ⟨segment, hsegment, htext⟩ := List.mem_filterMap.mp h
  cases segment with
  | literal text' =>
    obtain rfl : text' = text := Option.some.inj htext
    exact hsegment
  | static v => cases htext
  | dynamic v => cases htext

/-- Literal text of a template is a piece of it with one dollar for each two. -/
theorem isCut_of_parse {source : String} {t : Template} (h : parse source = .ok t) (htext : text ∈ t.literals) :
    IsCut withoutEscapes text.toList source.toList := by
  obtain ⟨segments, hsegments, ht⟩ := bind_eq_ok.mp h
  cases ht
  exact (goesOn_or_isCut_of_parseFrom hsegments (mem_of_mem_literals htext)).elim GoesOn.isCut id

end Literals

end RuleGate.Template
