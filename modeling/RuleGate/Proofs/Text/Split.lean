import Mathlib.Data.List.Basic
import RuleGate.Text.Split

/-!
# Cutting what was joined

Separators are found where they were put, as long as the pieces hold none of them.
-/

namespace RuleGate.Text

variable {α : Type}

theorem join_cons_cons (s w w' : List α) (ws : List (List α)) :
    join s (w :: w' :: ws) = w ++ s ++ join s (w' :: ws) := rfl

theorem join_cons (s w : List α) (ws : List (List α)) : join s (w :: ws) = w ++ ws.flatMap (s ++ ·) := by
  induction ws generalizing w with
  | nil => simp [join]
  | cons w' ws ih => rw [join_cons_cons, ih, List.flatMap_cons, List.append_assoc, List.append_assoc]

theorem mem_join {c : α} {s : List α} {ws : List (List α)} (h : c ∈ join s ws) :
    c ∈ s ∨ ∃ w ∈ ws, c ∈ w := by
  match ws with
  | [w] => exact .inr ⟨w, .head _, h⟩
  | w :: w' :: ws =>
    rw [join_cons_cons, List.mem_append, List.mem_append] at h
    rcases h with (h | h) | h
    · exact .inr ⟨w, .head _, h⟩
    · exact .inl h
    · rcases mem_join h with h | ⟨v, hv, h⟩
      · exact .inl h
      · exact .inr ⟨v, .tail _ hv, h⟩

/-! ## Pieces of a longer list -/

section Pieces

variable {p : α → Bool} {c : α}

theorem splitWhere_ne_nil (p : α → Bool) (a : List α) : splitWhere p a ≠ [] := by
  cases a with
  | nil => exact List.cons_ne_nil _ _
  | cons c a =>
    rw [splitWhere]
    split
    · exact List.cons_ne_nil _ _
    · split <;> exact List.cons_ne_nil _ _

/-- An element that does not separate joins the first piece. -/
theorem splitWhere_cons_of_neg (h : p c = false) (a : List α) :
    ∃ w ws, splitWhere p a = w :: ws ∧ splitWhere p (c :: a) = (c :: w) :: ws := by
  obtain ⟨w, ws, hsplit⟩ := List.exists_cons_of_ne_nil (splitWhere_ne_nil p a)
  exact ⟨w, ws, hsplit, by rw [splitWhere, if_neg (Bool.eq_false_iff.mp h), hsplit]⟩

theorem splitWhere_cons_of_pos (h : p c = true) (a : List α) :
    splitWhere p (c :: a) = [] :: splitWhere p a := by rw [splitWhere, if_pos h]

/-- An element that does not separate joins the last piece. -/
theorem splitWhere_concat_of_neg (h : p c = false) (a : List α) :
    ∃ ws w, splitWhere p a = ws ++ [w] ∧ splitWhere p (a ++ [c]) = ws ++ [w ++ [c]] := by
  induction a with
  | nil => exact ⟨[], [], rfl, by rw [List.nil_append, splitWhere, if_neg (Bool.eq_false_iff.mp h)]; rfl⟩
  | cons d a ih =>
    obtain ⟨ws, w, hshort, hlong⟩ := ih
    cases hd : p d with
    | true =>
      refine ⟨[] :: ws, w, ?_, ?_⟩
      · rw [splitWhere_cons_of_pos hd, hshort]
        rfl
      · rw [List.cons_append, splitWhere_cons_of_pos hd, hlong]
        rfl
    | false =>
      have hnot : ¬ p d = true := Bool.eq_false_iff.mp hd
      cases ws with
      | nil =>
        refine ⟨[], d :: w, ?_, ?_⟩
        · rw [splitWhere, if_neg hnot, hshort]
          rfl
        · rw [List.cons_append, splitWhere, if_neg hnot, hlong]
          rfl
      | cons v ws =>
        refine ⟨(d :: v) :: ws, w, ?_, ?_⟩
        · rw [splitWhere, if_neg hnot, hshort]
          rfl
        · rw [List.cons_append, splitWhere, if_neg hnot, hlong]
          rfl

/-- A separator ends the pieces before it. -/
theorem splitWhere_append_cons (h : p c = true) (a b : List α) :
    splitWhere p (a ++ c :: b) = splitWhere p a ++ splitWhere p b := by
  induction a with
  | nil => rw [List.nil_append, splitWhere_cons_of_pos h]; rfl
  | cons d a ih =>
    cases hd : p d with
    | true => rw [List.cons_append, splitWhere_cons_of_pos hd, splitWhere_cons_of_pos hd, ih]; rfl
    | false =>
      obtain ⟨w, ws, hsplit, hcons⟩ := splitWhere_cons_of_neg hd a
      rw [List.cons_append, splitWhere, if_neg (Bool.eq_false_iff.mp hd), ih, hsplit, hcons]
      rfl

theorem splitWhere_eq_singleton {a : List α} (h : ∀ c ∈ a, p c = false) : splitWhere p a = [a] := by
  induction a with
  | nil => rfl
  | cons c a ih =>
    rw [List.forall_mem_cons] at h
    rw [splitWhere, if_neg (Bool.eq_false_iff.mp h.1), ih h.2]

/-- Splitting at separators of two kinds can be done for one kind after the other. -/
theorem splitWhere_or {q r : α → Bool} (h : ∀ c, r c = (p c || q c)) (s : List α) :
    splitWhere r s = (splitWhere q s).flatMap (splitWhere p) := by
  induction s with
  | nil => rfl
  | cons c s ih =>
    cases hq : q c with
    | true =>
      have hor : r c = true := by rw [h, hq, Bool.or_true]
      rw [splitWhere_cons_of_pos hor, splitWhere_cons_of_pos hq, ih]
      rfl
    | false =>
      obtain ⟨w, ws, hsplit, hcons⟩ := splitWhere_cons_of_neg hq s
      rw [hsplit, List.flatMap_cons] at ih
      rw [hcons, List.flatMap_cons]
      cases hp : p c with
      | true =>
        have hor : r c = true := by rw [h, hp, Bool.true_or]
        rw [splitWhere_cons_of_pos hor, splitWhere_cons_of_pos hp, ih]
        rfl
      | false =>
        have hor : r c = false := by rw [h, hp, hq, Bool.or_false]
        obtain ⟨v, vs, hpiece, hcons'⟩ := splitWhere_cons_of_neg hp w
        obtain ⟨u, us, hwhole, hcons''⟩ := splitWhere_cons_of_neg hor s
        rw [hwhole, hpiece, List.cons_append, List.cons.injEq] at ih
        rw [hcons'', hcons', ih.1, ih.2]
        rfl

/-- Whatever does not separate is in one of the pieces. -/
theorem mem_splitWhere_of_neg {s : List α} (hc : c ∈ s) (h : p c = false) :
    ∃ w ∈ splitWhere p s, c ∈ w := by
  obtain ⟨a, b, rfl⟩ := List.append_of_mem hc
  induction a with
  | nil =>
    obtain ⟨w, ws, -, hcons⟩ := splitWhere_cons_of_neg h b
    exact ⟨c :: w, by rw [List.nil_append, hcons]; exact List.mem_cons_self, List.mem_cons_self⟩
  | cons d a ih =>
    obtain ⟨w, hw, hcw⟩ := ih (by simp)
    cases hd : p d with
    | true => exact ⟨w, by rw [List.cons_append, splitWhere_cons_of_pos hd]; exact .tail _ hw, hcw⟩
    | false =>
      obtain ⟨v, vs, hsplit, hcons⟩ := splitWhere_cons_of_neg hd (a ++ c :: b)
      rw [hsplit] at hw
      rw [List.cons_append, hcons]
      cases hw with
      | head => exact ⟨d :: w, .head _, .tail _ hcw⟩
      | tail _ hw => exact ⟨w, .tail _ hw, hcw⟩

/-- The pieces hold nothing else than the list. -/
theorem mem_of_mem_splitWhere {s w : List α} (hw : w ∈ splitWhere p s) (hc : c ∈ w) : c ∈ s := by
  induction s generalizing w with
  | nil =>
    obtain rfl := List.mem_singleton.mp hw
    exact hc
  | cons d s ih =>
    cases hd : p d with
    | true =>
      rw [splitWhere_cons_of_pos hd, List.mem_cons] at hw
      obtain rfl | hw := hw
      · cases hc
      · exact .tail _ (ih hw hc)
    | false =>
      obtain ⟨v, vs, hsplit, hcons⟩ := splitWhere_cons_of_neg hd s
      rw [hcons, List.mem_cons] at hw
      obtain rfl | hw := hw
      · obtain rfl | hc := List.mem_cons.mp hc
        · exact .head _
        · exact .tail _ (ih (by rw [hsplit]; exact .head _) hc)
      · exact .tail _ (ih (by rw [hsplit]; exact .tail _ hw) hc)

/-- The pieces hold no separators. -/
theorem neg_of_mem_splitWhere {s w : List α} (hw : w ∈ splitWhere p s) (hc : c ∈ w) : p c = false := by
  induction s generalizing w with
  | nil =>
    obtain rfl := List.mem_singleton.mp hw
    cases hc
  | cons d s ih =>
    cases hd : p d with
    | true =>
      rw [splitWhere_cons_of_pos hd, List.mem_cons] at hw
      obtain rfl | hw := hw
      · cases hc
      · exact ih hw hc
    | false =>
      obtain ⟨v, vs, hsplit, hcons⟩ := splitWhere_cons_of_neg hd s
      rw [hcons, List.mem_cons] at hw
      rw [hsplit] at ih
      obtain rfl | hw := hw
      · obtain rfl | hc := List.mem_cons.mp hc
        · exact hd
        · exact ih (.head _) hc
      · exact ih (.tail _ hw) hc

end Pieces

variable [BEq α] {sep : α} {a b : List α}

/-- The part after the first separator is part of the list. -/
theorem mem_of_cut? {s : List α} {c : α} (h : cut? sep s = some (a, b)) (hc : c ∈ b) : c ∈ s := by
  induction s generalizing a with
  | nil => cases h
  | cons d s ih =>
    rw [cut?] at h
    split at h
    · cases h
      exact .tail _ hc
    · obtain ⟨⟨a', b'⟩, hcut, hpair⟩ := Option.map_eq_some_iff.mp h
      cases hpair
      exact .tail _ (ih hcut)

variable [LawfulBEq α]

/-! ## The first separator -/

theorem cut?_append (h : sep ∉ a) : cut? sep (a ++ sep :: b) = some (a, b) := by
  induction a with
  | nil => rw [List.nil_append, cut?, if_pos BEq.rfl]
  | cons c a ih =>
    rw [List.mem_cons, not_or] at h
    have hc : ¬ (c == sep) = true := fun heq ↦ h.1 (eq_of_beq heq).symm
    rw [List.cons_append, cut?, if_neg hc, ih h.2, Option.map_some]

theorem cut?_eq_none (h : sep ∉ a) : cut? sep a = none := by
  induction a with
  | nil => rfl
  | cons c a ih =>
    rw [List.mem_cons, not_or] at h
    have hc : ¬ (c == sep) = true := fun heq ↦ h.1 (eq_of_beq heq).symm
    rw [cut?, if_neg hc, ih h.2, Option.map_none]

theorem cut?_eq_some {s : List α} (h : cut? sep s = some (a, b)) : s = a ++ sep :: b ∧ sep ∉ a := by
  induction s generalizing a with
  | nil => cases h
  | cons c s ih =>
    rw [cut?] at h
    split at h
    · next hc =>
      cases h
      exact ⟨by rw [eq_of_beq hc]; rfl, List.not_mem_nil⟩
    · next hc =>
      obtain ⟨⟨a', b'⟩, hrest, hpair⟩ := Option.map_eq_some_iff.mp h
      cases hpair
      obtain ⟨rfl, ha⟩ := ih hrest
      refine ⟨rfl, ?_⟩
      rw [List.mem_cons, not_or]
      exact ⟨fun heq ↦ hc (by rw [heq, beq_self_eq_true]), ha⟩

theorem not_mem_of_cut?_eq_none {s : List α} (h : cut? sep s = none) : sep ∉ s := by
  intro hmem
  obtain ⟨front, back, rfl, hfront⟩ := List.eq_append_cons_of_mem hmem
  rw [cut?_append hfront] at h
  cases h

theorem before_append (h : sep ∉ a) : before sep (a ++ b) = a ++ before sep b := by
  refine List.takeWhile_append_of_pos fun c hc ↦ ?_
  rw [Bool.not_eq_true', beq_eq_false_iff_ne]
  exact fun heq ↦ h (heq ▸ hc)

theorem before_eq_self (h : sep ∉ a) : before sep a = a := by
  have happend := before_append (b := []) h
  rwa [List.append_nil, show before sep [] = [] from rfl, List.append_nil] at happend

theorem not_mem_before (s : List α) : sep ∉ before sep s := by
  intro hmem
  have hp := List.all_eq_true.mp (List.all_takeWhile (p := fun c ↦ !(c == sep)) (l := s)) sep hmem
  simp at hp

/-! ## The last separator -/

theorem not_mem_of_cutLast?_eq_none {s : List α} (h : cutLast? sep s = none) : sep ∉ s := by
  induction s with
  | nil => exact List.not_mem_nil
  | cons c s ih =>
    rw [cutLast?] at h
    split at h
    · cases h
    · next hnone =>
      split at h
      · cases h
      · next hc =>
        rw [List.mem_cons, not_or]
        exact ⟨fun heq ↦ hc (by rw [heq, beq_self_eq_true]), ih hnone⟩

theorem cutLast?_eq_some {s : List α} (h : cutLast? sep s = some (a, b)) :
    s = a ++ sep :: b ∧ sep ∉ b := by
  induction s generalizing a with
  | nil => cases h
  | cons c s ih =>
    rw [cutLast?] at h
    split at h
    · next hrest =>
      cases h
      obtain ⟨rfl, hb⟩ := ih hrest
      exact ⟨rfl, hb⟩
    · next hnone =>
      split at h
      · next hc =>
        cases h
        exact ⟨by rw [eq_of_beq hc]; rfl, not_mem_of_cutLast?_eq_none hnone⟩
      · cases h

theorem cutLast?_eq_none (h : sep ∉ a) : cutLast? sep a = none := by
  cases hcut : cutLast? sep a with
  | none => rfl
  | some parts =>
    obtain ⟨rfl, -⟩ := cutLast?_eq_some hcut
    exact absurd (List.mem_append_right _ (.head _)) h

theorem cutLast?_append (h : sep ∉ b) : cutLast? sep (a ++ sep :: b) = some (a, b) := by
  induction a with
  | nil => rw [List.nil_append, cutLast?, cutLast?_eq_none h, if_pos BEq.rfl]
  | cons c a ih => rw [List.cons_append, cutLast?, ih]

omit [BEq α] [LawfulBEq α] in
/-- What starts a list and holds no separator lies in front of any of its separators. -/
theorem append_of_append_eq {c d : List α} (h : sep ∉ a) (heq : a ++ b = c ++ sep :: d) :
    ∃ m, c = a ++ m ∧ b = m ++ sep :: d := by
  rcases List.append_eq_append_iff.mp heq with ⟨m, hc, hb⟩ | ⟨m, ha, hd⟩
  · exact ⟨m, hc, hb⟩
  · cases m with
    | nil => exact ⟨[], by rw [ha]; simp, hd.symm⟩
    | cons first m =>
      have hfirst : sep = first := (List.cons.inj hd).1
      rw [ha, hfirst] at h
      exact absurd (List.mem_append_right _ (.head _)) h

/-! ## Contiguous pieces -/

theorem hasPiece_iff {pat s : List α} : hasPiece pat s = true ↔ pat <:+: s := by
  induction s with
  | nil => rw [hasPiece, List.isEmpty_iff, List.infix_nil]
  | cons c s ih => rw [hasPiece, Bool.or_eq_true, List.isPrefixOf_iff_prefix, ih, List.infix_cons_iff]

/-! ## Prefixes -/

theorem dropPrefix?_eq_some {s rest : List α} (h : dropPrefix? a s = some rest) : s = a ++ rest := by
  induction a generalizing s with
  | nil => exact Option.some.inj h
  | cons c a ih =>
    cases s with
    | nil => cases h
    | cons d s =>
      rw [dropPrefix?] at h
      split at h
      · next hc => rw [← eq_of_beq hc, ih h, List.cons_append]
      · cases h

theorem dropPrefix?_append (a rest : List α) : dropPrefix? a (a ++ rest) = some rest := by
  induction a with
  | nil => rfl
  | cons c a ih => rw [List.cons_append, dropPrefix?, if_pos BEq.rfl, ih]

theorem startsWith_iff {s front : String} : s.startsWith front = true ↔ ∃ back, s = front ++ back := by
  rw [String.startsWith_string_iff]
  constructor
  · rintro ⟨back, hback⟩
    refine ⟨String.ofList back, String.toList_inj.mp ?_⟩
    rw [String.toList_append, String.toList_ofList, hback]
  · rintro ⟨back, rfl⟩
    rw [String.toList_append]
    exact List.prefix_append _ _

theorem endsWith_iff {s back : String} : s.endsWith back = true ↔ ∃ front, s = front ++ back := by
  rw [← String.endsWith_toSlice, String.Slice.endsWith_string_iff, String.copy_toSlice]
  constructor
  · rintro ⟨front, hfront⟩
    refine ⟨String.ofList front, String.toList_inj.mp ?_⟩
    rw [String.toList_append, String.toList_ofList, hfront]
  · rintro ⟨front, rfl⟩
    rw [String.toList_append]
    exact List.suffix_append _ _

/-! ## All separators -/

theorem splitOn_eq_singleton (h : sep ∉ a) : splitOn sep a = [a] :=
  splitWhere_eq_singleton fun _ hc ↦ beq_eq_false_iff_ne.mpr (ne_of_mem_of_not_mem hc h)

theorem splitOn_append_cons (sep : α) (a b : List α) :
    splitOn sep (a ++ sep :: b) = splitOn sep a ++ splitOn sep b :=
  splitWhere_append_cons (p := (· == sep)) BEq.rfl a b

theorem splitOn_append (h : sep ∉ a) : splitOn sep (a ++ sep :: b) = a :: splitOn sep b := by
  rw [splitOn_append_cons, splitOn_eq_singleton h]
  rfl

/-- Splitting gives back the pieces that were joined. -/
theorem splitOn_join {ws : List (List α)} (hsome : ws ≠ []) (h : ∀ w ∈ ws, sep ∉ w) :
    splitOn sep (join [sep] ws) = ws := by
  match ws, hsome with
  | [w], _ => exact splitOn_eq_singleton (h w (.head _))
  | w :: w' :: ws, _ =>
    have hrest : splitOn sep (join [sep] (w' :: ws)) = w' :: ws :=
      splitOn_join (List.cons_ne_nil w' ws) fun v hv ↦ h v (.tail _ hv)
    rw [join_cons_cons, List.append_assoc, List.singleton_append, splitOn_append (h w (.head _)), hrest]

/-- Joining the pieces of a list gives the list back. -/
theorem join_splitOn (sep : α) (s : List α) : join [sep] (splitOn sep s) = s := by
  induction s with
  | nil => rfl
  | cons c s ih =>
    cases hc : c == sep with
    | true =>
      obtain ⟨w, ws, hsplit⟩ := List.exists_cons_of_ne_nil (splitWhere_ne_nil (· == sep) s)
      rw [splitOn, hsplit] at ih
      rw [splitOn, splitWhere_cons_of_pos (p := (· == sep)) hc, hsplit, join_cons_cons, ih, eq_of_beq hc]
      rfl
    | false =>
      obtain ⟨w, ws, hsplit, hcons⟩ := splitWhere_cons_of_neg (p := (· == sep)) hc s
      rw [splitOn, hsplit, join_cons] at ih
      rw [splitOn, hcons, join_cons, List.cons_append, ih]

/-- There is one piece more than there are separators. -/
theorem length_splitOn (sep : α) (s : List α) : (splitOn sep s).length = s.count sep + 1 := by
  induction s with
  | nil => rfl
  | cons c s ih =>
    rw [splitOn] at ih
    cases hc : c == sep with
    | true =>
      rw [splitOn, splitWhere_cons_of_pos (p := (· == sep)) hc, List.length_cons, ih, eq_of_beq hc,
        List.count_cons_self]
    | false =>
      obtain ⟨w, ws, hsplit, hcons⟩ := splitWhere_cons_of_neg (p := (· == sep)) hc s
      rw [hsplit, List.length_cons] at ih
      rw [splitOn, hcons, List.length_cons, List.count_cons_of_ne (beq_eq_false_iff_ne.mp hc), ih]

/-- What is put in front of a list joins its first piece. -/
theorem splitOn_append_front (h : sep ∉ a) (b : List α) :
    ∃ w ws, splitOn sep b = w :: ws ∧ splitOn sep (a ++ b) = (a ++ w) :: ws := by
  cases hcut : cut? sep b with
  | none =>
    have hb := not_mem_of_cut?_eq_none hcut
    exact ⟨b, [], splitOn_eq_singleton hb, splitOn_eq_singleton (by simp [h, hb])⟩
  | some parts =>
    obtain ⟨w, rest⟩ := parts
    obtain ⟨rfl, hw⟩ := cut?_eq_some hcut
    refine ⟨w, splitOn sep rest, splitOn_append hw, ?_⟩
    rw [← List.append_assoc, splitOn_append (by simp [h, hw])]

/-- What is put behind a list joins its last piece. -/
theorem splitOn_append_back (h : sep ∉ b) (a : List α) :
    ∃ ws w, splitOn sep a = ws ++ [w] ∧ splitOn sep (a ++ b) = ws ++ [w ++ b] := by
  cases hcut : cutLast? sep a with
  | none =>
    have ha := not_mem_of_cutLast?_eq_none hcut
    exact ⟨[], a, splitOn_eq_singleton ha, splitOn_eq_singleton (by simp [h, ha])⟩
  | some parts =>
    obtain ⟨front, w⟩ := parts
    obtain ⟨rfl, hw⟩ := cutLast?_eq_some hcut
    have hlast : splitOn sep (w ++ b) = [w ++ b] := splitOn_eq_singleton (by simp [h, hw])
    refine ⟨splitOn sep front, w, ?_, ?_⟩
    · rw [splitOn_append_cons, splitOn_eq_singleton hw]
    · rw [List.append_assoc, List.cons_append, splitOn_append_cons, hlast]

/-- A list without separators that stands between two of them, or between one and an end of the whole. -/
structure IsPiece (sep : α) (w s : List α) : Prop where
  bare : sep ∉ w
  placed : ∃ front back, s = front ++ w ++ back ∧ (front = [] ∨ front.getLast? = some sep) ∧
    (back = [] ∨ back.head? = some sep)

theorem IsPiece.of_mem {w s : List α} (h : w ∈ splitOn sep s) : IsPiece sep w s := by
  induction hlength : s.length using Nat.strongRecOn generalizing s with
  | _ n ih =>
    cases hcut : cut? sep s with
    | none =>
      have hbare := not_mem_of_cut?_eq_none hcut
      rw [splitOn_eq_singleton hbare, List.mem_singleton] at h
      subst h
      exact ⟨hbare, [], [], by simp, .inl rfl, .inl rfl⟩
    | some parts =>
      obtain ⟨front, rest⟩ := parts
      obtain ⟨rfl, hfront⟩ := cut?_eq_some hcut
      rw [splitOn_append hfront, List.mem_cons] at h
      rcases h with rfl | h
      · exact ⟨hfront, [], sep :: rest, by simp, .inl rfl, .inr rfl⟩
      · have hshorter : rest.length < n := by
          rw [← hlength, List.length_append, List.length_cons]
          omega
        obtain ⟨hbare, before, back, rfl, hbefore, hback⟩ := ih rest.length hshorter h rfl
        refine ⟨hbare, front ++ [sep] ++ before, back, by simp, .inr ?_, hback⟩
        rcases hbefore with rfl | hbefore
        · simp
        · rw [List.getLast?_append, hbefore]
          rfl

theorem IsPiece.mem {w s : List α} (h : IsPiece sep w s) : w ∈ splitOn sep s := by
  obtain ⟨hbare, front, back, rfl, hfront, hback⟩ := h
  have hrest : w ∈ splitOn sep (w ++ back) := by
    rcases hback with rfl | hback
    · rw [List.append_nil, splitOn_eq_singleton hbare]
      exact .head _
    · obtain ⟨back, rfl⟩ := List.head?_eq_some_iff.mp hback
      rw [splitOn_append hbare]
      exact .head _
  rcases hfront with rfl | hfront
  · simpa using hrest
  · obtain ⟨front, rfl⟩ := List.getLast?_eq_some_iff.mp hfront
    rw [List.append_assoc, List.append_assoc, List.singleton_append, splitOn_append_cons]
    exact List.mem_append_right _ hrest

/-- The pieces of a list are what stands between its separators. -/
theorem mem_splitOn_iff {w s : List α} : w ∈ splitOn sep s ↔ IsPiece sep w s :=
  ⟨IsPiece.of_mem, IsPiece.mem⟩

end RuleGate.Text
