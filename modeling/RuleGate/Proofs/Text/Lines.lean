import Mathlib.Data.List.Forall2
import RuleGate.Proofs.Text.Trim

/-!
# Lines and line feeds

The lines of a text are the pieces between its line feeds, but for two things: a carriage return in front of a line
feed is not in the line, and behind the last line feed there is no line if nothing stands there. Without the blanks
around them lines and pieces are the same.
-/

namespace RuleGate.Text

/-- The piece is the line, perhaps with a carriage return behind it. -/
def EndsAlike (line piece : List Char) : Prop := piece = line ∨ piece = line ++ ['\r']

theorem EndsAlike.cons {line piece : List Char} (h : EndsAlike line piece) (c : Char) :
    EndsAlike (c :: line) (c :: piece) := by
  rcases h with rfl | rfl
  · exact .inl rfl
  · exact .inr rfl

theorem EndsAlike.trim_eq {line piece : List Char} (h : EndsAlike line piece) : trim piece = trim line := by
  rcases h with rfl | rfl
  · rfl
  · exact dropBothWhile_concat_of_pos rfl line

theorem splitOn_newline_cons (s : List Char) : splitOn '\n' ('\n' :: s) = [] :: splitOn '\n' s :=
  splitWhere_cons_of_pos rfl s

theorem splitOn_newline_cons_of_ne {c : Char} (h : c ≠ '\n') (s : List Char) :
    ∃ piece pieces, splitOn '\n' s = piece :: pieces ∧ splitOn '\n' (c :: s) = (c :: piece) :: pieces :=
  splitWhere_cons_of_neg (p := (· == '\n')) (beq_eq_false_iff_ne.mpr h) s

/-- The pieces are the lines in order, and an empty one if there is no line behind the last line feed. -/
theorem lines_endAlike (s : List Char) :
    ∃ last, (last = [] ∨ last = [[]]) ∧ List.Forall₂ EndsAlike (lines s ++ last) (splitOn '\n' s) := by
  induction s using lines.induct with
  | case1 => exact ⟨[[]], .inr rfl, .cons (.inl rfl) .nil⟩
  | case2 s ih =>
    obtain ⟨last, hlast, hrest⟩ := ih
    refine ⟨last, hlast, ?_⟩
    rw [lines, splitOn_newline_cons]
    exact .cons (.inl rfl) hrest
  | case3 s ih =>
    obtain ⟨last, hlast, hrest⟩ := ih
    refine ⟨last, hlast, ?_⟩
    have hpieces : splitOn '\n' ('\r' :: '\n' :: s) = ['\r'] :: splitOn '\n' s :=
      splitOn_append (a := ['\r']) (by decide)
    rw [lines, hpieces]
    exact .cons (.inr rfl) hrest
  | case4 c s hnewline hreturn hnone ih =>
    obtain ⟨last, hlast, hrest⟩ := ih
    obtain ⟨piece, pieces, hsplit, hcons⟩ := splitOn_newline_cons_of_ne hnewline s
    rw [hnone, List.nil_append, hsplit] at hrest
    refine ⟨[], .inl rfl, ?_⟩
    rw [lines, hnone, hcons]
    · rcases hlast with rfl | rfl
      · cases hrest
      · obtain ⟨hfirst, hmore⟩ := List.forall₂_cons.mp hrest
        exact .cons (hfirst.cons c) hmore
    · exact hnewline
    · exact hreturn
  | case5 c s hnewline hreturn line ls hlines ih =>
    obtain ⟨last, hlast, hrest⟩ := ih
    obtain ⟨piece, pieces, hsplit, hcons⟩ := splitOn_newline_cons_of_ne hnewline s
    rw [hlines, List.cons_append, hsplit, List.forall₂_cons] at hrest
    refine ⟨last, hlast, ?_⟩
    rw [lines, hlines, hcons]
    · exact .cons (hrest.1.cons c) hrest.2
    · exact hnewline
    · exact hreturn

/-- A line with its number, if it is not blank. -/
def numberedLines (lines : List (List Char)) : List (Nat × String) :=
  lines.zipIdx.filterMap fun (line, i) ↦
    if (trim line).isEmpty then none else some (i, String.ofList (trim line))

theorem numberedLines_congr {lines pieces : List (List Char)} (h : lines.map trim = pieces.map trim) :
    numberedLines lines = numberedLines pieces := by
  have hnumbered (ls : List (List Char)) : numberedLines ls =
      (ls.map trim).zipIdx.filterMap fun (line, i) ↦
        if line.isEmpty then none else some (i, String.ofList line) := by
    rw [numberedLines, List.zipIdx_map, List.filterMap_map]
    rfl
  rw [hnumbered, hnumbered, h]

/-- The lines that are not blank are the pieces that are not blank, and have their numbers. -/
theorem numberedLines_lines (s : List Char) : numberedLines (lines s) = numberedLines (splitOn '\n' s) := by
  obtain ⟨last, hlast, halike⟩ := lines_endAlike s
  have htrim : (lines s ++ last).map trim = (splitOn '\n' s).map trim := by
    refine (congrFun₂ List.forall₂_eq_eq_eq _ _).mp ?_
    rw [List.forall₂_map_left_iff, List.forall₂_map_right_iff]
    exact halike.imp fun _ _ h ↦ h.trim_eq.symm
  calc numberedLines (lines s) = numberedLines (lines s ++ last) := by
        rcases hlast with rfl | rfl
        · rw [List.append_nil]
        · simp [numberedLines, List.zipIdx_append, trim, dropBothWhile, dropEndWhile]
    _ = numberedLines (splitOn '\n' s) := numberedLines_congr htrim

end RuleGate.Text
