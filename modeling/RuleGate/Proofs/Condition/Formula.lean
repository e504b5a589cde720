import RuleGate.Condition.Basic

/-!
# Formulas and their checks

What a formula says of an exchange is settled by what the checks in it say, and a list of formulas can be
judged in two parts.
-/

namespace RuleGate.Formula

mutual

/-- The checks in a formula, from left to right. -/
def checks : Formula → List Check
  | check c => [c]
  | negated f => checks f
  | anyOf fs => checksOf fs
  | allOf fs => checksOf fs

def checksOf : List Formula → List Check
  | [] => []
  | f :: fs => checks f ++ checksOf fs

end

variable {x y : Exchange}

mutual

theorem holds_congr_checks : ∀ f : Formula, (∀ c ∈ f.checks, c.test x = c.test y) → f.holds x = f.holds y
  | .check c, h => h c (.head _)
  | .negated f, h => by rw [holds, holds, holds_congr_checks f h]
  | .anyOf fs, h => (holdsAll_congr_checks fs h).1
  | .allOf fs, h => (holdsAll_congr_checks fs h).2

theorem holdsAll_congr_checks : ∀ fs : List Formula, (∀ c ∈ checksOf fs, c.test x = c.test y) →
    holdsAny x fs = holdsAny y fs ∧ holdsAll x fs = holdsAll y fs
  | [], _ => ⟨rfl, rfl⟩
  | f :: fs, h => by
    rw [checksOf, List.forall_mem_append] at h
    obtain ⟨hany, hall⟩ := holdsAll_congr_checks fs h.2
    have hf := holds_congr_checks f h.1
    rw [holdsAny, holdsAny, holdsAll, holdsAll, hf, hany, hall]
    exact ⟨rfl, rfl⟩

end

/-- Exchanges that no check tells apart are the same to all formulas. -/
theorem holds_congr (h : ∀ c : Check, c.test x = c.test y) (f : Formula) : f.holds x = f.holds y :=
  holds_congr_checks f fun c _ ↦ h c

/-! ## Lists of formulas -/

theorem holdsAll_append (x : Exchange) (fs gs : List Formula) :
    holdsAll x (fs ++ gs) = (holdsAll x fs && holdsAll x gs) := by
  induction fs with
  | nil => rw [List.nil_append, holdsAll, Bool.true_and]
  | cons f fs ih => rw [List.cons_append, holdsAll, holdsAll, ih, Bool.and_assoc]

theorem holdsAny_append (x : Exchange) (fs gs : List Formula) :
    holdsAny x (fs ++ gs) = (holdsAny x fs || holdsAny x gs) := by
  induction fs with
  | nil => rw [List.nil_append, holdsAny, Bool.false_or]
  | cons f fs ih => rw [List.cons_append, holdsAny, holdsAny, ih, Bool.or_assoc]

theorem holdsAll_singleton (x : Exchange) (f : Formula) : holdsAll x [f] = f.holds x := by
  rw [holdsAll, holdsAll, Bool.and_true]

theorem holdsAny_singleton (x : Exchange) (f : Formula) : holdsAny x [f] = f.holds x := by
  rw [holdsAny, holdsAny, Bool.or_false]

end RuleGate.Formula
