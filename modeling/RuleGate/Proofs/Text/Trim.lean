import Mathlib.Data.List.DropRight
import RuleGate.Proofs.Text.Split
import RuleGate.Text.Blank

/-!
# Trimming

What is dropped at an end does not count there, nothing is dropped at an end that is not of that kind, and
the pieces between separators are the same with and without blanks around the separators.
-/

namespace RuleGate.Text

variable {α : Type} {p : α → Bool} {c : α} {s : List α}

theorem dropBothWhile_cons_of_pos (h : p c = true) (s : List α) :
    dropBothWhile p (c :: s) = dropBothWhile p s := by
  rw [dropBothWhile, List.dropWhile_cons_of_pos h, dropBothWhile]

theorem dropBothWhile_concat_of_pos (h : p c = true) (s : List α) :
    dropBothWhile p (s ++ [c]) = dropBothWhile p s := by
  rw [dropBothWhile, dropBothWhile, List.dropWhile_append]
  split
  · next hall =>
    rw [List.dropWhile_cons_of_pos h, List.dropWhile_nil, List.isEmpty_iff.mp hall]
  · exact List.rdropWhile_concat_pos p _ c h

theorem dropEndWhile_cons_of_neg (h : p c = false) (s : List α) :
    dropEndWhile p (c :: s) = c :: dropEndWhile p s := by
  have hc : [c].dropWhile p = [c] := List.dropWhile_cons_of_neg (Bool.eq_false_iff.mp h)
  rw [dropEndWhile, List.reverse_cons, List.dropWhile_append, hc, dropEndWhile]
  split
  · next hall => rw [List.isEmpty_iff.mp hall]; rfl
  · rw [List.reverse_append]; rfl

theorem dropBothWhile_cons_of_neg (h : p c = false) (s : List α) :
    dropBothWhile p (c :: s) = c :: dropEndWhile p s := by
  rw [dropBothWhile, List.dropWhile_cons_of_neg (Bool.eq_false_iff.mp h), dropEndWhile_cons_of_neg h]

theorem dropWhile_append_cons_of_neg (h : p c = false) (s t : List α) :
    (s ++ c :: t).dropWhile p = s.dropWhile p ++ c :: t := by
  rw [List.dropWhile_append]
  split
  · next hall => rw [List.isEmpty_iff.mp hall, List.dropWhile_cons_of_neg (Bool.eq_false_iff.mp h)]; rfl
  · rfl

theorem dropEndWhile_append_cons_of_neg (h : p c = false) (s t : List α) :
    dropEndWhile p (s ++ c :: t) = s ++ c :: dropEndWhile p t := by
  have hreverse : (s ++ c :: t).reverse = t.reverse ++ c :: s.reverse := by simp
  rw [dropEndWhile, hreverse, dropWhile_append_cons_of_neg h, dropEndWhile]
  simp

/-- What is dropped at the ends of a list stops at an element between them that is not dropped. -/
theorem dropBothWhile_append_cons_of_neg (h : p c = false) (s t : List α) :
    dropBothWhile p (s ++ c :: t) = s.dropWhile p ++ c :: dropEndWhile p t := by
  rw [dropBothWhile, dropWhile_append_cons_of_neg h, dropEndWhile_append_cons_of_neg h]

theorem dropEndWhile_front (p : α → Bool) (s : List α) : dropEndWhile p s <+: s := List.rdropWhile_prefix p s

theorem dropBothWhile_sublist (p : α → Bool) (s : List α) : (dropBothWhile p s).Sublist s :=
  (dropEndWhile_front p _).sublist.trans (List.dropWhile_suffix p).sublist

/-- Nothing is dropped from a list as long as the one that remains. -/
theorem dropBothWhile_eq_self_iff :
    dropBothWhile p s = s ↔ s.dropWhile p = s ∧ dropEndWhile p s = s := by
  constructor
  · intro h
    have hstart : s.dropWhile p = s := by
      refine (List.dropWhile_suffix p).eq_of_length_le ?_
      calc s.length = (dropBothWhile p s).length := by rw [h]
        _ ≤ (s.dropWhile p).length := (dropEndWhile_front p _).length_le
    rw [dropBothWhile, hstart] at h
    exact ⟨hstart, h⟩
  · rintro ⟨hstart, hend⟩
    rw [dropBothWhile, hstart, hend]

/-- The list starts and ends with elements that are not dropped. -/
structure HasEnds (p : α → Bool) (s : List α) : Prop where
  first : ∃ c ∈ s.head?, p c = false
  last : ∃ c ∈ s.getLast?, p c = false

theorem HasEnds.of_all (hne : s ≠ []) (h : ∀ c ∈ s, p c = false) : HasEnds p s where
  first := ⟨s.head hne, List.head?_eq_some_head hne, h _ (List.head_mem hne)⟩
  last := ⟨s.getLast hne, List.getLast?_eq_getLast_of_ne_nil hne, h _ (List.getLast_mem hne)⟩

theorem HasEnds.ne_nil (h : HasEnds p s) : s ≠ [] := by
  obtain ⟨c, hc, -⟩ := h.first
  rintro rfl
  cases hc

theorem HasEnds.mono {q : α → Bool} (h : HasEnds p s) (hle : ∀ c, q c = true → p c = true) :
    HasEnds q s := by
  have hneg (c : α) (hc : p c = false) : q c = false := by
    rw [Bool.eq_false_iff] at hc ⊢
    exact fun hq ↦ hc (hle c hq)
  obtain ⟨c, hc, hfirst⟩ := h.first
  obtain ⟨d, hd, hlast⟩ := h.last
  exact ⟨⟨c, hc, hneg c hfirst⟩, ⟨d, hd, hneg d hlast⟩⟩

theorem HasEnds.append {t : List α} (h : HasEnds p s) (ht : HasEnds p t) (m : List α) :
    HasEnds p (s ++ m ++ t) where
  first := by
    obtain ⟨c, hc, hfirst⟩ := h.first
    refine ⟨c, ?_, hfirst⟩
    rw [List.append_assoc, List.head?_append_of_ne_nil _ h.ne_nil]
    exact hc
  last := by
    obtain ⟨d, hd, hlast⟩ := ht.last
    refine ⟨d, ?_, hlast⟩
    rw [List.getLast?_append_of_ne_nil _ ht.ne_nil]
    exact hd

theorem HasEnds.dropBothWhile_eq (h : HasEnds p s) : dropBothWhile p s = s := by
  obtain ⟨c, hc, hfirst⟩ := h.first
  obtain ⟨d, hd, hlast⟩ := h.last
  have hstart : s.dropWhile p = s := by
    cases s with
    | nil => rfl
    | cons c' s =>
      cases hc
      exact List.dropWhile_cons_of_neg (Bool.eq_false_iff.mp hfirst)
  rw [dropBothWhile, hstart]
  refine List.rdropWhile_eq_self_iff.mpr fun hne ↦ ?_
  rw [Option.mem_def, List.getLast?_eq_getLast_of_ne_nil hne, Option.some.injEq] at hd
  rw [hd]
  exact Bool.eq_false_iff.mp hlast

theorem dropBothWhile_eq_self (h : ∀ c ∈ s, p c = false) : dropBothWhile p s = s := by
  have hstart {t : List α} (ht : ∀ c ∈ t, p c = false) : t.dropWhile p = t := by
    cases t with
    | nil => rfl
    | cons c t => exact List.dropWhile_cons_of_neg (Bool.eq_false_iff.mp (ht c (.head _)))
  have hend : dropEndWhile p s = s := by
    rw [dropEndWhile, hstart fun c hc ↦ h c (List.mem_reverse.mp hc), List.reverse_reverse]
  exact dropBothWhile_eq_self_iff.mpr ⟨hstart h, hend⟩

/-- What is put around a list is dropped again, if it is of the kind that is dropped. -/
theorem dropBothWhile_append {left right : List α} (hleft : ∀ c ∈ left, p c = true)
    (hright : ∀ c ∈ right, p c = true) (s : List α) :
    dropBothWhile p (left ++ s ++ right) = dropBothWhile p s := by
  have hfront (t : List α) : dropBothWhile p (left ++ t) = dropBothWhile p t := by
    induction left with
    | nil => rfl
    | cons c left ih =>
      rw [List.forall_mem_cons] at hleft
      rw [List.cons_append, dropBothWhile_cons_of_pos hleft.1, ih hleft.2]
  have hback : dropBothWhile p (s ++ right) = dropBothWhile p s := by
    induction right using List.reverseRecOn with
    | nil => rw [List.append_nil]
    | append_singleton right c ih =>
      rw [List.forall_mem_append] at hright
      rw [← List.append_assoc, dropBothWhile_concat_of_pos (hright.2 c (.head _)), ih hright.1]
  rw [List.append_assoc, hfront, hback]

/-- What is dropped at the two ends is of the kind that is dropped. -/
theorem exists_dropped (p : α → Bool) (s : List α) :
    ∃ left right, s = left ++ dropBothWhile p s ++ right ∧ (∀ c ∈ left, p c = true) ∧
      ∀ c ∈ right, p c = true := by
  have hend := congrArg List.reverse (List.takeWhile_append_dropWhile (p := p) (l := (s.dropWhile p).reverse))
  rw [List.reverse_append, List.reverse_reverse] at hend
  refine ⟨s.takeWhile p, ((s.dropWhile p).reverse.takeWhile p).reverse, ?_, ?_, ?_⟩
  · rw [List.append_assoc, dropBothWhile, dropEndWhile, hend, List.takeWhile_append_dropWhile]
  · exact List.all_eq_true.mp List.all_takeWhile
  · intro c hc
    exact List.all_eq_true.mp List.all_takeWhile c (List.mem_reverse.mp hc)

/-- Around a separator, what is dropped from the pieces makes no difference. -/
theorem map_splitWhere_spaced {q : α → Bool} {sep space : α} (hsep : p sep = true)
    (hspace : p space = false) (hdrop : q space = true) (a b : List α) :
    (splitWhere p (a ++ space :: sep :: space :: b)).map (dropBothWhile q) =
      (splitWhere p a).map (dropBothWhile q) ++ (splitWhere p b).map (dropBothWhile q) := by
  obtain ⟨ws, w, ha, ha'⟩ := splitWhere_concat_of_neg hspace a
  obtain ⟨v, vs, hb, hb'⟩ := splitWhere_cons_of_neg hspace b
  have hlast : dropBothWhile q (w ++ [space]) = dropBothWhile q w := dropBothWhile_concat_of_pos hdrop w
  have hfirst : dropBothWhile q (space :: v) = dropBothWhile q v := dropBothWhile_cons_of_pos hdrop v
  have hcut : splitWhere p (a ++ space :: sep :: space :: b) =
      splitWhere p (a ++ [space]) ++ splitWhere p (space :: b) := by
    rw [← splitWhere_append_cons hsep, List.append_assoc]
    rfl
  rw [hcut, ha', hb', ha, hb]
  simp only [List.map_append, List.map_cons, List.map_nil, hlast, hfirst]

theorem isEmpty_trimStart (s : List Char) : (trimStart s).isEmpty = s.all isBlank := by
  rw [Bool.eq_iff_iff, List.isEmpty_iff, List.all_eq_true]
  exact List.dropWhile_eq_nil_iff

end RuleGate.Text
